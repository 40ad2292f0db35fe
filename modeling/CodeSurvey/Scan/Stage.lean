import CodeSurvey.Docs.Client
import CodeSurvey.Storage.Artifacts
import CodeSurvey.Survey.Engine

/-!
# Stages of a scan

What a scan is told, what it reports, and one stage of it: the survey of a kind is made and stored.
An engine that fails or takes too long is replaced by an artifact that says so, and a failure to
store is noted; neither stops the scan.
-/

namespace CodeSurvey.Scan

open CodeSurvey.Artifact CodeSurvey.Storage CodeSurvey.Survey

/-- What went wrong in an engine or a service: its words, and its sort for when it has none. -/
structure Failure where
  text : String
  sort : String
  deriving Repr, DecidableEq

/-- What is said about a failure. -/
def Failure.message (f : Failure) : String := if f.text.isEmpty then f.sort else f.text

/-- What an engine does. -/
inductive Conduct where
  /-- It surveys the workspace. -/
  | survey
  /-- It comes to an outcome of its own. -/
  | gives (o : Outcome)
  | fails (f : Failure)
  /-- It does not end in time. -/
  | hangs
  deriving Repr, DecidableEq

/-- How an engine ended. -/
inductive EngineState where
  | succeeded
  | failed
  | timedOut
  deriving Repr, DecidableEq

/-- The name by which an end is told. -/
def EngineState.name : EngineState → String
  | succeeded => "succeeded"
  | failed => "failed"
  | timedOut => "timed-out"

/-- A service that describes artifacts. -/
structure DocsService where
  /-- Whether it is there, if it can tell. -/
  isThere : Except Failure Bool
  /-- The document about an artifact of a kind with a content, for a project of a name. -/
  describe : DocsKind → String → String → Except Failure Docs.Document

/-- How far a scan is. -/
structure Progress where
  stage : String
  percent : Nat
  message : String
  deriving Repr, DecidableEq

/-- What a scan is told. -/
structure Plan where
  options : Settings.Options := {}
  /-- The names of the kinds that are made; all kinds if none are given. -/
  kinds : Option (List String) := none
  conduct : CoreKind → Conduct := fun _ => .survey
  /-- Whether the scan is to stop, asked for the number of stages before. -/
  isCancelled : Nat → Bool := fun _ => false
  /-- What the scan's progress is told to, for the number of times before; it may fail. -/
  observer : Nat → Progress → Except Failure Unit := fun _ _ => .ok ()
  docs : Option DocsService := none

/-- Something that went wrong in a stage. -/
structure StageError where
  stage : String
  message : String
  deriving Repr, DecidableEq

/-- What a scan reports. -/
structure Report where
  /-- The artifacts in the order in which they were made. -/
  artifacts : List Made := []
  errors : List StageError := []
  cancelled : Bool := false
  states : List (CoreKind × EngineState) := []
  /-- What was told to the observer. -/
  progress : List Progress := []
  /-- The documents that were asked for, with the name of the project. -/
  described : List (DocsKind × String) := []

namespace Report

/-- One more error. -/
def addError (r : Report) (stage message : String) : Report :=
  { r with errors := r.errors ++ [⟨stage, message⟩] }

/-- Tells an observer how far the scan is; that the observer fails is passed over. -/
def tell (r : Report) (observer : Nat → Progress → Except Failure Unit) (x : Progress) : Report :=
  let told := { r with progress := r.progress ++ [x] }
  match observer r.progress.length x with
  | .ok () => told
  | .error _ => told

/-- One more artifact. -/
def addArtifact (r : Report) (m : Made) : Report := { r with artifacts := r.artifacts ++ [m] }

/-- The artifact of a kind made from the workspace. -/
def core? (r : Report) (k : CoreKind) : Option Made := r.artifacts.find? (·.kind == .core k)

end Report

/-- What stands for an artifact that could not be made. -/
def placeholder (kind : Kind) (content now : String) : Made :=
  { kind, content, madeAt := now, fileCount := 0, errorCount := 1, incomplete := true }

/-- The workspace of a store as it is at present. -/
def workspaceOf (s : State) : Files.Workspace := ⟨s.host.tree, s.store.root.path, s.host.unreadable⟩

/-- Stores an artifact and notes when that is not possible. -/
def storeNoted (m : Made) (r : Report) : StoreAction Report :=
  tryCatch (do discard (Artifacts.store m); return r) fun e =>
    match e.told? with
    | some text => return r.addError m.kind.name ("Storage failed: " ++ text)
    | none => throw e

/-- What is said about an engine that did not end in a duration. -/
def timeoutMessage (k : CoreKind) (duration : String) : String :=
  k.name ++ " generator timed out after " ++ duration

/-- The artifact that an engine made with the outcome. -/
def madeBy (k : CoreKind) (now : String) (o : Outcome) : Made :=
  { kind := .core k, content := o.content, madeAt := now, fileCount := o.fileCount
    errorCount := o.errorCount }

/-- Runs the engine of a kind: the artifact, how it ended and what is said about that. -/
def runEngine (p : Plan) (m : Ignore.Matcher) (k : CoreKind) (session : Syntax.Session) :
    StoreAction (Made × EngineState × Option String × Syntax.Session) := do
  match p.options.engineTimeout.checkWait with
  | .error e => throw (.wait e)
  | .ok () =>
    let s ← get
    let now := s.host.nowText
    let failed := placeholder (.core k) "{}" now
    match p.conduct k with
    | .survey =>
      let (o, session) := Survey.run k ⟨workspaceOf s, p.options, m⟩ session
      return (madeBy k now o, .succeeded, none, session)
    | .gives o => return (madeBy k now o, .succeeded, none, session)
    | .fails f => return (failed, .failed, some f.message, session)
    | .hangs =>
      match p.options.engineTimeout.text? with
      | some duration => return (failed, .timedOut, some (timeoutMessage k duration), session)
      | none => throw (.wait .tooLong)

/-- The share of `done` stages of `total` in per cent. -/
def percentOf (done total : Nat) : Nat := (200 * done + total) / (2 * total)

/-- One stage: the artifact of a kind is made and stored. -/
def stage (p : Plan) (m : Ignore.Matcher) (total index : Nat) (k : CoreKind)
    (session : Syntax.Session) (r : Report) : StoreAction (Report × Syntax.Session) := do
  let r := r.tell p.observer
    ⟨k.name, percentOf index total, "Running " ++ k.name ++ " generator"⟩
  let (made, state, said, session) ← runEngine p m k session
  let r := { r with states := r.states ++ [(k, state)] }
  let r := match said with
    | some text => r.addError k.name text
    | none => r
  let r ← storeNoted made r
  let r := (r.addArtifact made).tell p.observer
    ⟨k.name, percentOf (index + 1) total, k.name ++ " complete"⟩
  return (r, session)

/-- The stages of several kinds, until the scan is cancelled. -/
def stages (p : Plan) (m : Ignore.Matcher) (total : Nat) :
    Nat → List CoreKind → Syntax.Session → Report → StoreAction Report
  | _, [], _, r => return r
  | index, k :: ks, session, r => do
    if p.isCancelled index then return { r with cancelled := true }
    let (r, session) ← stage p m total index k session r
    stages p m total (index + 1) ks session r

end CodeSurvey.Scan
