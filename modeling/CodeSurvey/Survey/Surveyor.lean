import CodeSurvey.Survey.Engine

/-!
# Surveyors

A surveyor makes the survey of one kind again and again. It counts files and failures as it goes
along, and remembers the paths that it has counted, so that a path counts once in a run; what was
counted before is cleared when a run begins. Its parse session may be one that others use as well.
-/

namespace CodeSurvey.Survey

open CodeSurvey.Files CodeSurvey.Syntax CodeSurvey.Artifact

/-- What a surveyor has counted. -/
structure Tally where
  fileCount : Nat := 0
  errorCount : Nat := 0
  /-- The paths that were counted as files, where each is to count once. -/
  counted : List String := []
  /-- The paths that could not be parsed. -/
  failed : List String := []
  deriving Repr, DecidableEq

namespace Tally

/-- The counts at the start of a run. -/
def clear (_ : Tally) : Tally := {}

/-- One more file. -/
def addFile (t : Tally) : Tally := { t with fileCount := t.fileCount + 1 }

/-- One more failure. -/
def addError (t : Tally) : Tally := { t with errorCount := t.errorCount + 1 }

/-- The file at a path, if it was not counted yet. -/
def countFile (t : Tally) (path : String) : Tally :=
  if t.counted.contains path then t else { t.addFile with counted := path :: t.counted }

/-- A path that could not be parsed, if it was not counted yet. -/
def countFailure (t : Tally) (path : String) : Tally :=
  if t.failed.contains path then t else { t.addError with failed := path :: t.failed }

end Tally

/-- Parses several paths in order; `count` is what is done for a path that was parsed. -/
def parseAll (s : Scene) (count : Tally → String → Tally) :
    List String → Tally → Session → List (String × Option Source) × Tally × Session
  | [], t, session => ([], t, session)
  | path :: paths, t, session =>
    let (found, session) := session.get s.workspace s.options.maxFileBytes path
    let t := if found.isSome then count t path else t.countFailure path
    let (rest, t, session) := parseAll s count paths t session
    ((path, found.map Parsed.source) :: rest, t, session)

/-- The content of the artifact of a kind, made with some counts and a session. -/
def generate (kind : CoreKind) (s : Scene) (t : Tally) (session : Session) :
    String × Tally × Session :=
  match kind with
  | .directory =>
    let o := outline s
    (o.report, { t with fileCount := o.fileCount }, session)
  | .summary => ((overview s).toJson.stored, { t with fileCount := s.files.length }, session)
  | .dataModel =>
    let (found, t, session) := parseAll s (fun t _ => t.addFile) (modelPaths s) t session
    let inCode := (found.filterMap (·.2)).map DataModel.declaredIn
    let (inSchema, t) := match schemaFile? s with
      | none => ([], t)
      | some (_, none) => ([], t.addError)
      | some (path, some text) => ([DataModel.Schema.declarations (some path) text], t.addFile)
    ((mergedModel (inCode ++ inSchema)).toJson.stored, t, session)
  | .architecture =>
    let (found, t, session) := parseAll s (fun t _ => t.addFile) s.codePaths t session
    let model := Architecture.Model.ofWalk s.walk s.options.aliasStarts (found.filterMap (·.2))
    (model.toJson.stored, t, session)
  | .workflow =>
    let (routes, t, session) := parseAll s Tally.countFile (routePaths s) t session
    let (found, t, session) := parseAll s Tally.countFile s.codePaths t session
    let model := Workflow.Model.ofSources (routes.filterMap (·.2)) (found.filterMap (·.2))
    (model.toJson.stored, t, session)

/-- Someone who makes the surveys of a kind. -/
structure Surveyor where
  kind : CoreKind
  options : Settings.Options
  matcher : Ignore.Matcher
  session : Session
  /-- What was counted in the last run. -/
  tally : Tally

namespace Surveyor

/-- A surveyor for a workspace as it is at present, with a session that is there or one of its
own. -/
def make (kind : CoreKind) (w : Workspace) (o : Settings.Options) (session : Option Session) :
    Except Glob.PatternError Surveyor := do
  let m ← Settings.matcherOf w o
  return ⟨kind, o, m, session.getD Session.empty, {}⟩

/-- A run on the workspace as it is at present. -/
def run (v : Surveyor) (w : Workspace) : Outcome × Surveyor :=
  let (content, t, session) := generate v.kind ⟨w, v.options, v.matcher⟩ v.tally.clear v.session
  (⟨content, t.fileCount, t.errorCount⟩, { v with session, tally := t })

end Surveyor

end CodeSurvey.Survey
