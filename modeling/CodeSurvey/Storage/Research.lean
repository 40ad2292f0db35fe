import CodeSurvey.Research.Session
import CodeSurvey.Storage.Store

/-!
# Research in a store

The research sessions, oldest first. Only the last fifty are kept.
-/

namespace CodeSurvey.Storage

open CodeSurvey.Research StoreAction

namespace ResearchHistory

/-- The most sessions that are kept. -/
def capacity : Nat := 50

/-- The sessions that values describe; the others are passed over. -/
def sessionsOf (values : List Json) : Except LookupError (List Session) :=
  (values.mapM Session.ofJson).map fun found => found.filterMap fun s => s

/-- The sessions. -/
def load : StoreAction (List Session) := do
  ensureReady
  let values := ((← readJson .research).bind (·.get? "sessions")).bind Json.arr?
  match sessionsOf (values.getD []) with
  | .ok sessions => return sessions
  | .error .compound => throw .compoundName

/-- The latest session. -/
def latest : StoreAction (Option Session) := return (← load).getLast?

/-- The number of sessions. -/
def count : StoreAction Nat := return (← load).length

/-- The last sessions that are kept. -/
def lastOnes (sessions : List Session) : List Session := sessions.drop (sessions.length - capacity)

/-- Adds a session. -/
def save (query : String) (findings : List Finding) (summary : String) (questions : List String) :
    StoreAction Session := do
  ensureReady
  let session : Session :=
    { id := ← drawId, query, findings, summary, questions, heldAt := (← get).host.now }
  let sessions := lastOnes ((← load) ++ [session])
  match sessions.mapM Session.toJson? with
  | none => throw .beyondCalendar
  | some values =>
    writeJson .research (.obj [("sessions", .arr values), ("updatedAtUtc", .str (← nowText))])
    return session

/-- Forgets all sessions. -/
def clear : StoreAction Unit := do
  ensureReady
  discard (remove .research)

end ResearchHistory

end CodeSurvey.Storage
