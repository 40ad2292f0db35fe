import CodeSurvey.Files.Errno
import CodeSurvey.Files.Name

/-!
# File trees

A tree maps the paths below its top to files, directories and symbolic links. Following a path
resolves links and parent references part by part, as the operating system does.
-/

namespace CodeSurvey.Files

/-- What stands at a path. -/
inductive Entry where
  /-- A regular file with its bytes. -/
  | file (content : ByteArray)
  /-- A directory. -/
  | dir
  /-- A symbolic link to a path relative to the directory that it lies in. -/
  | link (target : String)

/-- Whether an entry is a directory. -/
def Entry.isDir : Entry → Bool
  | dir => true
  | _ => false

/-- A path from the top of a tree. -/
abbrev Path := List String

/-- The entries below the top, each path at most once; the top itself is a directory. -/
structure Tree where
  /-- The paths with what stands there. -/
  entries : List (Path × Entry)

namespace Tree

/-- The tree with nothing below its top. -/
def empty : Tree := ⟨[]⟩

/-- What stands at a path, links not followed. -/
def entry? (t : Tree) (p : Path) : Option Entry :=
  if p.isEmpty then some .dir else (t.entries.find? (·.1 == p)).map (·.2)

/-- The tree with an entry put at a path, in place of what stood there. -/
def put (t : Tree) (p : Path) (e : Entry) : Tree :=
  if (t.entry? p).isSome then ⟨t.entries.map fun x => if x.1 == p then (p, e) else x⟩
  else ⟨t.entries ++ [(p, e)]⟩

/-- The tree without the entry at a path. -/
def erase (t : Tree) (p : Path) : Tree := ⟨t.entries.filter (·.1 != p)⟩

/-- The names in a directory, in increasing order. -/
def names (t : Tree) (p : Path) : List String :=
  let below := t.entries.filterMap fun x =>
    if x.1.length == p.length + 1 && p.isPrefixOf x.1 then x.1.getLast? else none
  below.mergeSort fun a b => decide (a ≤ b)

/-- What may stand at the end of a path. -/
inductive Ending where
  /-- Whatever is there; a link stands for itself. -/
  | asIs
  /-- What a link at the end leads to, or what is there if it is no link. -/
  | followed
  /-- The same, or a name that is still free. -/
  | orFree
  deriving Repr, DecidableEq

/-- Follows the parts of a path from a directory. A link is handed to `onLink` with the parts that
follow it, unless it may end the path. -/
def follow (t : Tree) (ending : Ending) (onLink : Path → List String → Except Errno Path) :
    Path → List String → Except Errno Path
  | at_, [] => .ok at_
  | at_, part :: rest =>
    if part = ".." then follow t ending onLink at_.dropLast rest
    else
      let next := at_ ++ [part]
      match t.entry? next with
      | none => if rest.isEmpty && ending == .orFree then .ok next else .error Errno.noEntry
      | some .dir => follow t ending onLink next rest
      | some (.file _) => if rest.isEmpty then .ok next else .error Errno.notDirectory
      | some (.link target) =>
        if rest.isEmpty && ending == .asIs then .ok next
        else onLink at_ (pathParts target ++ rest)

/-- Follows a path over at most the given number of links. -/
def resolveOver (t : Tree) (ending : Ending) : Nat → Path → List String → Except Errno Path
  | 0 => fun _ _ => .error Errno.linkLoop
  | links + 1 => t.follow ending (t.resolveOver ending links)

/-- The most links that are followed on one path, and one more. -/
def maxLinks : Nat := 41

/-- The place without links that a path leads to. -/
def resolve (t : Tree) (p : Path) : Except Errno Path := t.resolveOver .followed maxLinks [] p

/-- The place that a path leads to when a link at its end is not followed. -/
def locate (t : Tree) (p : Path) : Except Errno Path := t.resolveOver .asIs maxLinks [] p

/-- What a path leads to. -/
def at? (t : Tree) (p : Path) : Except Errno (Path × Entry) :=
  match t.resolve p with
  | .error e => .error e
  | .ok q =>
    match t.entry? q with
    | some e => .ok (q, e)
    | none => .error Errno.noEntry

/-- Whether a path leads to something. -/
def isThere (t : Tree) (p : Path) : Bool := (t.at? p).toOption.isSome

/-- Whether a path leads to a directory. -/
def isDir (t : Tree) (p : Path) : Bool :=
  match t.at? p with
  | .ok (_, .dir) => true
  | _ => false

/-- Whether a path leads to a regular file. -/
def isFile (t : Tree) (p : Path) : Bool :=
  match t.at? p with
  | .ok (_, .file _) => true
  | _ => false

/-- Whether a path is itself a link. -/
def isLink (t : Tree) (p : Path) : Bool :=
  match t.locate p with
  | .ok q =>
    match t.entry? q with
    | some (.link _) => true
    | _ => false
  | .error _ => false

/-- The names in the directory that a path leads to, in increasing order; none if it leads to no
directory. -/
def list (t : Tree) (p : Path) : List String :=
  match t.at? p with
  | .ok (q, .dir) => t.names q
  | _ => []

/-- The bytes of the file that a path leads to. -/
def bytes (t : Tree) (p : Path) : Except Errno ByteArray :=
  match t.at? p with
  | .ok (_, .file content) => .ok content
  | .ok _ => .error Errno.isDirectory
  | .error e => .error e

/-- The number of directories of the tree, its top counted. -/
def dirCount (t : Tree) : Nat :=
  (t.entries.filter fun x => match x.2 with
    | .dir => true
    | _ => false).length + 1

/-- The place where a file opened for writing at a path lies: an existing file, or a name that is
still free in an existing directory. -/
def writePlace (t : Tree) (p : Path) : Except Errno Path :=
  match t.resolveOver .orFree maxLinks [] p with
  | .error e => .error e
  | .ok q => if (t.entry? q).any (·.isDir) then .error Errno.isDirectory else .ok q

/-- The tree with the bytes of a file written at a path. -/
def write (t : Tree) (p : Path) (content : ByteArray) : Except Errno Tree :=
  (t.writePlace p).map fun q => t.put q (.file content)

/-- The tree with a directory made at a path whose parent exists. -/
def makeDir (t : Tree) (p : Path) : Except Errno Tree :=
  match t.locate p with
  | .ok _ => .error Errno.exists_
  | .error e =>
    if e ≠ Errno.noEntry then .error e
    else
      match t.at? p.dropLast, p.getLast? with
      | .ok (q, .dir), some name => .ok (t.put (q ++ [name]) .dir)
      | .ok _, _ => .error Errno.notDirectory
      | .error e, _ => .error e

/-- The tree without the file or link at a path. -/
def unlink (t : Tree) (p : Path) : Except Errno Tree :=
  match t.locate p with
  | .error e => .error e
  | .ok q =>
    match t.entry? q with
    | some .dir => .error Errno.isDirectory
    | some _ => .ok (t.erase q)
    | none => .error Errno.noEntry

/-- The tree with the file at one path moved over what stands at another. -/
def rename (t : Tree) (source target : Path) : Except Errno Tree :=
  match t.locate source with
  | .error e => .error e
  | .ok from_ =>
    match t.entry? from_ with
    | none => .error Errno.noEntry
    | some moved =>
      match t.locate target with
      | .ok place =>
        match t.entry? place with
        | some .dir => .error Errno.isDirectory
        | _ => if place = from_ then .ok t else .ok ((t.erase from_).put place moved)
      | .error e =>
        if e ≠ Errno.noEntry then .error e
        else
          match t.at? target.dropLast, target.getLast? with
          | .ok (q, .dir), some name => .ok ((t.erase from_).put (q ++ [name]) moved)
          | .ok _, _ => .error Errno.notDirectory
          | .error e, _ => .error e

/-- The tree without what stands at a path and below it. -/
def eraseAll (t : Tree) (p : Path) : Tree := ⟨t.entries.filter fun x => !p.isPrefixOf x.1⟩

/-- The tree with the directories above a path made where there is nothing. -/
def makeParents (t : Tree) (p : Path) : Tree :=
  (List.range p.length).foldl
    (fun t n =>
      if (t.entry? (p.take n)).isSome then t else (t.makeDir (p.take n)).toOption.getD t) t

/-- The tree with a link put at a path whose parent exists. -/
def putLink (t : Tree) (p : Path) (target : String) : Tree :=
  match t.at? p.dropLast, p.getLast? with
  | .ok (q, .dir), some name => t.put (q ++ [name]) (.link target)
  | _, _ => t

/-- The tree with an entry at a path and the missing directories above it; an entry that cannot be
there changes nothing else. -/
def plant (t : Tree) (p : Path) (e : Entry) : Tree :=
  let t := t.makeParents p
  match e with
  | .file content => (t.write p content).toOption.getD t
  | .dir => (t.makeDir p).toOption.getD t
  | .link target => t.putLink p target

/-- The paths of the regular files below a path, as texts relative to it. -/
def filesBelow (t : Tree) (p : Path) : List String :=
  let found := t.entries.filterMap fun x =>
    match x.2 with
    | .file _ => if p.isPrefixOf x.1 && x.1 != p then some (pathText (x.1.drop p.length)) else none
    | _ => none
  found.mergeSort fun a b => decide (a ≤ b)

end Tree

end CodeSurvey.Files
