import CodeSurvey.Scan.Documentation
import CodeSurvey.Storage.Snapshots

/-!
# Scans

A scan makes the workspace ready, goes through the stages of the selected kinds in their order, and
has the artifacts described if it is told to.
-/

namespace CodeSurvey.Scan

open CodeSurvey.Artifact CodeSurvey.Storage CodeSurvey.Survey

/-- The kinds of some names in their order, each once, or the names that are no kinds. -/
def select (names : Option (List String)) : Except (List String) (List CoreKind) :=
  match names with
  | none => .ok CoreKind.all
  | some names =>
    let unknown := (Text.distinct names).filter fun n => (CoreKind.ofName? n).isNone
    if unknown.isEmpty then .ok (CoreKind.all.filter fun k => names.contains k.name)
    else .error (unknown.mergeSort fun a b => decide (a ≤ b))

/-- The matcher of the workspace. -/
def matcher (o : Settings.Options) : StoreAction Ignore.Matcher := do
  match Settings.matcherOf (workspaceOf (← get)) o with
  | .ok m => return m
  | .error e => throw (.pattern e)

/-- Runs a scan. -/
def run (p : Plan) : StoreAction Report := do
  match select p.kinds with
  | .error names => throw (.unknownKinds names)
  | .ok kinds =>
    StoreAction.ensureReady
    let m ← matcher p.options
    let r ← stages p m kinds.length 0 kinds Syntax.Session.empty {}
    match p.options.generateDocs && !r.cancelled, p.docs with
    | true, some service => documentation p service r
    | _, _ => return r

/-- The snapshot of the workspace as it is at present. -/
def snapshot (o : Settings.Options) : StoreAction Snapshot := do
  let m ← matcher o
  let s ← get
  return Snapshot.take s.host.nowText (workspaceOf s) o.limits m

/-- Takes a snapshot and saves it. -/
def record (o : Settings.Options) : StoreAction Snapshot := do
  let s ← snapshot o
  LastSnapshot.save s
  return s

/-- Whether something has changed since the last snapshot. -/
def hasChanged (o : Settings.Options) : StoreAction Bool := do
  let old ← LastSnapshot.load
  return Snapshot.hasChanged old (← snapshot o)

end CodeSurvey.Scan
