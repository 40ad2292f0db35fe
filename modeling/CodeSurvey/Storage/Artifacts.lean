import CodeSurvey.Artifact.Stored
import CodeSurvey.Storage.Store

/-!
# Artifacts in a store

The artifact of each kind with one generation before it. Storing counts the version on and keeps the
artifact that was there; restoring puts it back.
-/

namespace CodeSurvey.Storage

open CodeSurvey.Artifact StoreAction

namespace Artifacts

/-- What is done with the artifacts of the kind that a name names. -/
def onKind {α : Type} (name : String) (f : Kind → StoreAction α) : StoreAction α :=
  match Kind.ofName? name with
  | some k => f k
  | none => throw (.unknownKind name)

/-- The artifact in a document. -/
def loadFrom (d : Document) : StoreAction (Option Stored) := do
  ensureReady
  return (← readJson d).bind Stored.ofJson?

/-- The artifact of a kind. -/
def load (k : Kind) : StoreAction (Option Stored) := loadFrom (.artifact k)

/-- The artifact of a kind before that. -/
def loadPrevious (k : Kind) : StoreAction (Option Stored) := loadFrom (.previous k)

/-- Whether there is an artifact of a kind. -/
def has (k : Kind) : StoreAction Bool := return (← load k).isSome

/-- Whether there is one before that. -/
def hasPrevious (k : Kind) : StoreAction Bool := return (← loadPrevious k).isSome

/-- When the artifact of a kind was made. -/
def madeAt? (k : Kind) : StoreAction (Option String) := return (← load k).map (·.metadata.madeAt)

/-- Keeps the artifact that is there as the one before, if that is possible. -/
def keepFormer (k : Kind) : Option Stored → StoreAction Unit
  | some e => suppress (writeJson (.previous k) e.toJson)
  | none => return ()

/-- The record that an artifact is kept as, after the one that is there. -/
def recordOf (m : Made) (id path : String) (former : Option Stored) : Stored :=
  { id, kind := m.kind, workspacePath := path, content := m.content
    metadata :=
      { madeAt := m.madeAt, fileCount := m.fileCount, errorCount := m.errorCount
        version := Version.after (former.map (·.metadata.version))
        incomplete := if m.incomplete then some true else none } }

/-- Keeps an artifact in place of the one that is there. -/
def replace (m : Made) (former : Option Stored) : StoreAction Stored := do
  let stored := recordOf m (← drawId) (← get).store.root.text former
  writeJson (.artifact m.kind) stored.toJson
  return stored

/-- Stores an artifact; it follows the one of its kind that is there. -/
def store (m : Made) : StoreAction Stored := do
  ensureReady
  let former ← load m.kind
  keepFormer m.kind former
  replace m former

/-- Puts the artifact before the present one back; tells whether there was one. -/
def restore (k : Kind) : StoreAction Bool := do
  match ← loadPrevious k with
  | none => return false
  | some earlier =>
    writeJson (.artifact k) earlier.toJson
    suppress (discard (remove (.previous k)))
    return true

/-- The artifacts of all kinds that are there. -/
def list : StoreAction (List Stored) := return (← Kind.all.mapM load).filterMap fun a => a

/-- Removes the artifact of a kind and the one before it; tells whether there was one. -/
def delete (k : Kind) : StoreAction Bool := do
  ensureReady
  let removed ← remove (.artifact k)
  discard (remove (.previous k))
  return removed

end Artifacts

end CodeSurvey.Storage
