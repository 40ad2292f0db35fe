import CodeSurvey.Artifact.Kind
import CodeSurvey.Json.Basic
import CodeSurvey.Time.Reading

/-!
# Stored artifacts

An artifact as a survey gives it, and as it is kept: with a version, which counts from one, and the
place and moment it was made at. A kept artifact is written as a value and read back from one; a
value is only taken for an artifact if every member is of its sort, the moment is one and the counts
are not negative.
-/

namespace CodeSurvey.Artifact

open CodeSurvey.Time (Moment)

/-- An artifact as it was made. -/
structure Made where
  kind : Kind
  content : String
  /-- When it was made. -/
  madeAt : String
  fileCount : Int := 0
  errorCount : Int := 0
  /-- Whether it stands for one that could not be made. -/
  incomplete : Bool := false
  deriving Repr, DecidableEq

/-- The value of an artifact as it was made. -/
def Made.toJson (m : Made) : Json :=
  .obj [("kind", .str m.kind.name), ("content", .str m.content), ("generatedAtUtc", .str m.madeAt),
    ("fileCount", .int m.fileCount), ("errorCount", .int m.errorCount),
    ("incomplete", .bool m.incomplete)]

/-- A version of an artifact. -/
structure Version where
  number : Nat
  one_le_number : 1 ≤ number
  deriving Repr, DecidableEq

namespace Version

/-- What is wrong with a number that is no version. -/
def flaw : String := "Artifact version must be >= 1"

/-- The version of a number. -/
def ofInt? (n : Int) : Option Version :=
  if h : 1 ≤ n then some ⟨n.toNat, by omega⟩ else none

/-- The version after those that are there. -/
def after : Option Version → Version
  | none => ⟨1, Nat.le_refl 1⟩
  | some v => ⟨v.number + 1, by omega⟩

end Version

/-- What is kept about an artifact besides its content. -/
structure Metadata where
  madeAt : String
  fileCount : Int
  errorCount : Int
  version : Version
  /-- Whether it stands for one that could not be made, if that was written down. -/
  incomplete : Option Bool := none
  deriving Repr, DecidableEq

/-- An artifact as it is kept. -/
structure Stored where
  id : String
  kind : Kind
  /-- The path of the workspace it was made from. -/
  workspacePath : String
  content : String
  metadata : Metadata
  deriving Repr, DecidableEq

namespace Metadata

/-- The value of the metadata, with `incomplete` only if it was written down. -/
def toJson (m : Metadata) : Json :=
  Json.record [("generatedAtUtc", some (.str m.madeAt)), ("fileCount", some (.int m.fileCount)),
    ("errorCount", some (.int m.errorCount)), ("version", some (Json.count m.version.number)),
    ("incomplete", m.incomplete.map .bool)]

/-- A truth value that may be missing or nothing. -/
def optionalBool? : Option Json → Option (Option Bool)
  | none | some .null => some none
  | some (.bool b) => some (some b)
  | _ => none

/-- The metadata that a value describes, if it has all members and each is of its sort. -/
def ofJson? (j : Json) : Option Metadata := do
  let madeAt ← j.getStr? "generatedAtUtc"
  let _ ← Moment.ofText? madeAt
  let fileCount ← (← j.get? "fileCount").count?
  let errorCount ← (← j.get? "errorCount").count?
  let version ← Version.ofInt? ((← (← j.get? "version").count?) : Nat)
  let incomplete ← optionalBool? (j.get? "incomplete")
  return ⟨madeAt, fileCount, errorCount, version, incomplete⟩

end Metadata

namespace Stored

/-- Whether an artifact stands for one that could not be made. -/
def isIncomplete (s : Stored) : Bool := s.metadata.incomplete == some true

/-- The value of a record. -/
def toJson (s : Stored) : Json :=
  .obj [("id", .str s.id), ("kind", .str s.kind.name), ("workspacePath", .str s.workspacePath),
    ("content", .str s.content), ("metadata", s.metadata.toJson)]

/-- The record that a value describes, if it has all members and each is of its sort. -/
def ofJson? (j : Json) : Option Stored := do
  let id ← j.getStr? "id"
  let kind ← Kind.ofName? (← j.getStr? "kind")
  let workspacePath ← j.getStr? "workspacePath"
  let content ← j.getStr? "content"
  let metadata ← Metadata.ofJson? (← j.get? "metadata")
  return ⟨id, kind, workspacePath, content, metadata⟩

end Stored

end CodeSurvey.Artifact
