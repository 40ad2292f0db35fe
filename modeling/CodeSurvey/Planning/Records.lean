import CodeSurvey.Json.Basic

/-!
# Requirements and tasks

What is required of a code base, as one text with the moment at which it was last written, and what
is to be done, in steps and with the criteria by which it counts as done. A value is taken for a
task if it has all members and each is of its sort; the lists may be missing.
-/

namespace CodeSurvey.Planning

/-- The requirements. -/
structure Requirements where
  text : String
  writtenAt : String
  deriving Repr, DecidableEq

namespace Requirements

/-- The value of the requirements. -/
def toJson (r : Requirements) : Json :=
  .obj [("requirements", .str r.text), ("updatedAtUtc", .str r.writtenAt)]

/-- The requirements that a value describes. -/
def ofJson? (j : Json) : Option Requirements := do
  let text ← j.getStr? "requirements"
  let writtenAt ← j.getStr? "updatedAtUtc"
  return ⟨text, writtenAt⟩

end Requirements

/-- A step of a task. -/
structure Subtask where
  id : String
  title : String
  completed : Bool
  deriving Repr, DecidableEq

/-- A task. -/
structure Task where
  id : String
  title : String
  description : String
  completed : Bool
  subtasks : List Subtask
  criteria : List String
  deriving Repr, DecidableEq

namespace Subtask

/-- The value of a subtask. -/
def toJson (s : Subtask) : Json :=
  .obj [("id", .str s.id), ("title", .str s.title), ("completed", .bool s.completed)]

/-- The subtask that a value describes. -/
def ofJson? (j : Json) : Option Subtask := do
  let id ← j.getStr? "id"
  let title ← j.getStr? "title"
  let completed ← (← j.get? "completed").bool?
  return ⟨id, title, completed⟩

end Subtask

namespace Task

/-- The value of a task. -/
def toJson (t : Task) : Json :=
  .obj [("id", .str t.id), ("title", .str t.title), ("description", .str t.description),
    ("completed", .bool t.completed), ("subtasks", .arr (t.subtasks.map Subtask.toJson)),
    ("acceptanceCriteria", Json.texts t.criteria)]

/-- The task that a value describes; subtasks and criteria may be missing. -/
def ofJson? (j : Json) : Option Task := do
  let id ← j.getStr? "id"
  let title ← j.getStr? "title"
  let description ← j.getStr? "description"
  let completed ← (← j.get? "completed").bool?
  let subtasks ← (← ((j.get? "subtasks").getD (.arr [])).arr?).mapM Subtask.ofJson?
  let criteria ← ((j.get? "acceptanceCriteria").getD (.arr [])).strings?
  return ⟨id, title, description, completed, subtasks, criteria⟩

end Task

end CodeSurvey.Planning
