import CodeSurvey.Decimal.Layout
import CodeSurvey.Files.Walk

/-!
# Directory outlines

The entries of a walk as a tree, and the tree as lines of text: directories before files, each
group by name, and every directory with the number and total size of the files below it.
A size is shown in the largest unit in which it is at least one, up to gigabytes, with one place
after the point.
-/

namespace CodeSurvey.Directory

open CodeSurvey.Decimal CodeSurvey.Files

/-! ## Sizes for readers -/

/-- The units above the byte: their names, and how many bytes they hold. -/
def units : List (String × Nat) := [("KB", 1024), ("MB", 1024 * 1024), ("GB", 1024 * 1024 * 1024)]

/-- The unit in which a size is shown: the first of which there are fewer than 1024, or the last. -/
def unitFor (size : Nat) : List (String × Nat) → String × Nat
  | [] => ("B", 1)
  | [u] => u
  | u :: us => if size < 1024 * u.2 then u else unitFor size us

/-- The text of a number of bytes that is a double. -/
def doubleSizeText (size : Nat) : String :=
  if size < 1024 then toString size ++ " B"
  else
    let u := unitFor size units
    tenthsText ⟨size, u.2⟩ ++ " " ++ u.1

/-- The text of any whole number of bytes, rounded to a double first; `none` when it is beyond the
largest double. Negative numbers are shown in bytes. -/
def sizeText? (size : Int) : Option String :=
  (nearestDouble? size.natAbs).map fun n =>
    if size < 0 then "-" ++ toString n ++ " B" else doubleSizeText n

/-- The text of the size of a file. -/
def sizeText (size : Nat) : String := (sizeText? size).getD ""

/-! ## Outlines -/

/-- A file with its size, or a directory with what lies in it. -/
inductive Outline where
  | file (name : String) (size : Nat)
  | directory (name : String) (children : List Outline)

namespace Outline

/-- The name of a file or a directory. -/
def name : Outline → String
  | file n _ => n
  | directory n _ => n

/-- Whether it is a directory. -/
def isDirectory : Outline → Bool
  | file .. => false
  | directory .. => true

/-- The number of files in an outline. -/
def fileCount : Outline → Nat
  | file .. => 1
  | directory _ cs => fileCounts cs
where
  fileCounts : List Outline → Nat
    | [] => 0
    | c :: cs => c.fileCount + fileCounts cs

/-- The total size of the files in an outline. -/
def size : Outline → Nat
  | file _ s => s
  | directory _ cs => sizes cs
where
  sizes : List Outline → Nat
    | [] => 0
    | c :: cs => c.size + sizes cs

/-- The order of siblings: directories come first, then names decide. -/
def before (a b : Outline) : Bool :=
  if a.isDirectory == b.isDirectory then a.name ≤ b.name else a.isDirectory

/-- What lies in a directory, by the entries of a walk, down to a depth. -/
def childrenOf (entries : List WalkEntry) (sizeOf : Path → Nat) : Nat → Path → List Outline
  | 0, _ => []
  | depth + 1, dir =>
    ((entries.filter (·.parent == dir)).map fun e =>
      if e.isDir then directory e.name (childrenOf entries sizeOf depth e.parts)
      else file e.name (sizeOf e.parts)).mergeSort before

/-- The outline of the entries of a walk. No entry lies deeper than there are entries. -/
def ofWalk (name : String) (entries : List WalkEntry) (sizeOf : Path → Nat) : Outline :=
  directory name (childrenOf entries sizeOf (entries.length + 1) [])

/-- The number and total size of the files in an outline. -/
def totals (o : Outline) : String :=
  toString o.fileCount ++ (if o.fileCount = 1 then " file, " else " files, ") ++ sizeText o.size

/-- What is shown of an entry. -/
def label : Outline → String
  | file n s => n ++ " (" ++ sizeText s ++ ")"
  | directory n cs => n ++ "/ (" ++ (directory n cs).totals ++ ")"

mutual

/-- The lines of an entry and of all below it, after the given lead. -/
def lines (lead : String) (isLast : Bool) : Outline → List String
  | file n s => [lead ++ (if isLast then "└── " else "├── ") ++ (file n s).label]
  | directory n cs =>
    (lead ++ (if isLast then "└── " else "├── ") ++ (directory n cs).label) ::
      linesOfAll (lead ++ if isLast then "    " else "│   ") cs

/-- The lines of siblings. -/
def linesOfAll (lead : String) : List Outline → List String
  | [] => []
  | c :: cs => c.lines lead cs.isEmpty ++ linesOfAll lead cs

end

/-- The lines below the root. -/
def childLines : Outline → List String
  | file .. => []
  | directory _ cs => linesOfAll "" cs

/-- The whole report on a directory. -/
def report (o : Outline) : String :=
  "# Directory Structure\n\n\x60\x60\x60\n" ++ Text.join "\n" (o.label :: o.childLines) ++
    "\n\x60\x60\x60\n\n**Total:** " ++ toString o.fileCount ++ " files, " ++ sizeText o.size ++ "\n"

end Outline

end CodeSurvey.Directory
