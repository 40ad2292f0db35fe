import CodeSurvey.Planning.Records
import CodeSurvey.Storage.Store

/-!
# Planning documents in a store

The requirements and the tasks, each with the text that was there before.
-/

namespace CodeSurvey.Storage

open CodeSurvey.Planning StoreAction

namespace Planning

/-- Saves the requirements. -/
def saveRequirements (text : String) : StoreAction Requirements := do
  ensureReady
  let r : Requirements := ⟨text, ← nowText⟩
  backUp .requirements .earlierRequirements
  writeJson .requirements r.toJson
  return r

/-- The requirements. -/
def loadRequirements : StoreAction (Option Requirements) := do
  ensureReady
  return (← readJson .requirements).bind Requirements.ofJson?

/-- Whether there are requirements. -/
def hasRequirements : StoreAction Bool := return (← loadRequirements).isSome

/-- When the requirements were saved. -/
def requirementsSavedAt : StoreAction (Option String) :=
  return (← loadRequirements).map (·.writtenAt)

/-- Saves the tasks. -/
def saveTasks (ts : List Task) : StoreAction Unit := do
  ensureReady
  let now ← nowText
  backUp .tasks .earlierTasks
  writeJson .tasks (.obj [("tasks", .arr (ts.map Task.toJson)), ("updatedAtUtc", .str now)])

/-- The tasks; what is no task among them is passed over. -/
def loadTasks : StoreAction (List Task) := do
  ensureReady
  let values := ((← readJson .tasks).bind (·.get? "tasks")).bind Json.arr?
  return (values.getD []).filterMap Task.ofJson?

/-- When the tasks were saved. -/
def tasksSavedAt : StoreAction (Option String) := do
  ensureReady
  return (← readJson .tasks).bind (·.getStr? "updatedAtUtc")

end Planning

end CodeSurvey.Storage
