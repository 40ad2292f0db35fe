import CodeSurvey.Storage.Store
import CodeSurvey.Survey.Snapshot

/-!
# The last snapshot in a store
-/

namespace CodeSurvey.Storage

open CodeSurvey.Survey StoreAction

namespace LastSnapshot

/-- Saves a snapshot in place of the last one. -/
def save (s : Snapshot) : StoreAction Unit := do
  ensureReady
  writeJson .snapshot s.toJson

/-- The last snapshot, if there is one that can be read. -/
def load : StoreAction (Option Snapshot) := do
  ensureReady
  return (← readJson .snapshot).bind Snapshot.ofJson?

/-- Removes the last snapshot. -/
def clear : StoreAction Unit := do
  ensureReady
  discard (remove .snapshot)

end LastSnapshot

end CodeSurvey.Storage
