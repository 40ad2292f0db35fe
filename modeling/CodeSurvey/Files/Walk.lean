import CodeSurvey.Files.Content
import CodeSurvey.Files.Tree
import CodeSurvey.Ignore.Matcher

/-!
# Walking a workspace

A workspace is a directory of a tree. The walk lists what is not ignored below it, depth first and
by name, directories before their contents. A directory is entered only once, however many links
lead to it.
-/

namespace CodeSurvey.Files

open CodeSurvey

/-- A directory of a tree, and the files whose content cannot be read. -/
structure Workspace where
  /-- The tree. -/
  tree : Tree
  /-- The path of the directory. -/
  root : Path
  /-- Whether reading the file at a path fails. -/
  unreadable : Path → Bool

/-- The name of a workspace: that of its directory. -/
def Workspace.name (w : Workspace) : String := (w.root.getLast?).getD ""

/-- What bounds a walk. -/
structure WalkLimits where
  /-- Directories at this depth or deeper are not entered. -/
  maxDepth : Int
  /-- Whether links are followed. -/
  followLinks : Bool
  deriving Repr, DecidableEq

/-- A path that a walk has met. -/
structure WalkEntry where
  /-- The parts of the path from the root of the workspace. -/
  parts : Path
  /-- Whether it leads to a directory. -/
  isDir : Bool
  /-- How deep the walk was. -/
  depth : Nat
  deriving Repr, DecidableEq

/-- The path of an entry as a text. -/
def WalkEntry.path (e : WalkEntry) : String := pathText e.parts

/-- The name of an entry. -/
def WalkEntry.name (e : WalkEntry) : String := (e.parts.getLast?).getD ""

/-- The suffix of an entry's name in lower case. -/
def WalkEntry.suffix (e : WalkEntry) : String := suffixOf e.name

/-- The parts of the directory that an entry lies in. -/
def WalkEntry.parent (e : WalkEntry) : Path := e.parts.dropLast

namespace Workspace

/-- The path in the tree of a path in the workspace. -/
def locate (w : Workspace) (p : Path) : Path := w.root ++ p

/-- Whether a path leads to a directory. -/
def isDir (w : Workspace) (p : Path) : Bool := w.tree.isDir (w.locate p)

/-- Whether a path leads to a file. -/
def isFile (w : Workspace) (p : Path) : Bool := w.tree.isFile (w.locate p)

/-- The size of the file that a path leads to. -/
def size? (w : Workspace) (p : Path) : Option Nat :=
  match w.tree.bytes (w.locate p) with
  | .ok content => some content.size
  | .error _ => none

/-- The bytes of a file, if they can be read. -/
def bytes? (w : Workspace) (p : Path) : Option ByteArray :=
  if w.unreadable (w.locate p) then none else (w.tree.bytes (w.locate p)).toOption

/-- The text of a file, unless its name says that it is no text, it is larger than allowed, or it
cannot be read. -/
def text? (w : Workspace) (p : Path) (maxBytes : Int) : Option String :=
  if isBinaryName ((p.getLast?).getD "") then none
  else
    match w.size? p with
    | none => none
    | some size => if maxBytes < size then none else (w.bytes? p).map textOf

/-- What the walk does with the names of a directory: `enter` walks a directory below it, given
the real directories seen so far. -/
def walkNames (w : Workspace) (limits : WalkLimits) (m : Ignore.Matcher) (depth : Nat)
    (dir : Path) (enter : Path → List Path → List WalkEntry × List Path) :
    List String → List Path → List WalkEntry × List Path
  | [], seen => ([], seen)
  | name :: names, seen =>
    let p := dir ++ [name]
    let further := walkNames w limits m depth dir enter names
    let isDir := w.isDir p
    if !limits.followLinks && w.tree.isLink (w.locate p) then further seen
    else if m.ignoresParts p isDir then further seen
    else
      match w.tree.at? (w.locate p) with
      | .error _ => further seen
      | .ok (real, _) =>
        if !isDir then
          let (out, seen) := further seen
          (⟨p, false, depth⟩ :: out, seen)
        else if seen.contains real then further seen
        else
          let (inner, seen) :=
            if depth < limits.maxDepth then enter p (real :: seen) else ([], real :: seen)
          let (out, seen) := further seen
          (⟨p, true, depth⟩ :: inner ++ out, seen)

/-- The walk below a directory. Every level enters a directory that was not seen before, so `fuel`
is the number of directories at most. -/
def walkFrom (w : Workspace) (limits : WalkLimits) (m : Ignore.Matcher) :
    Nat → Nat → Path → List Path → List WalkEntry × List Path
  | 0, _, _, seen => ([], seen)
  | fuel + 1, depth, dir, seen =>
    w.walkNames limits m depth dir (w.walkFrom limits m fuel (depth + 1))
      (w.tree.list (w.locate dir)) seen

/-- The real directory of a path, or the path itself if it leads nowhere. -/
def real (w : Workspace) (p : Path) : Path :=
  match w.tree.resolve (w.locate p) with
  | .ok q => q
  | .error _ => w.locate p

/-- The entries of a workspace that are not ignored. -/
def walk (w : Workspace) (limits : WalkLimits) (m : Ignore.Matcher) : List WalkEntry :=
  (w.walkFrom limits m (w.tree.dirCount + 1) 1 [] [w.real []]).1

/-- The entries that are not ignored below a directory of the workspace: none if the directory is
ignored, is no directory or is the root. -/
def walkBelow (w : Workspace) (limits : WalkLimits) (m : Ignore.Matcher) (start : String) :
    List WalkEntry :=
  let trimmed := Text.trimChar '/' start
  let dir := pathParts trimmed
  if m.ignores trimmed true then []
  else if !w.isDir dir || w.real dir == w.real [] then []
  else
    (w.walkFrom limits m (w.tree.dirCount + 1) (trimmed.toList.count '/' + 2) dir
      [w.real dir, w.real []]).1

end Workspace

end CodeSurvey.Files
