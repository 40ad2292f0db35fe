import CodeSurvey.Files.Tree

/-!
# Changes of a tree

What has to be done to a tree so that it becomes another one: directories are made before what lies
in them, files are written whole, and what is gone is removed.
-/

namespace CodeSurvey.Files

/-- A step from one tree to another. -/
inductive Change where
  | makeDir (p : Path)
  | write (p : Path) (content : ByteArray)
  | remove (p : Path)

namespace Tree

/-- What makes an entry of a tree from another tree. -/
def changeAt? (before : Tree) (p : Path) (e : Entry) : Option Change :=
  match e, before.entry? p with
  | .file content, some (.file old) => if content == old then none else some (.write p content)
  | .file content, _ => some (.write p content)
  | .dir, none => some (.makeDir p)
  | _, _ => none

/-- The steps from one tree to another. -/
def changes (before after : Tree) : List Change :=
  (before.entries.filter fun x => (after.entry? x.1).isNone).map (fun x => .remove x.1)
    ++ after.entries.filterMap fun x => before.changeAt? x.1 x.2

end Tree

end CodeSurvey.Files
