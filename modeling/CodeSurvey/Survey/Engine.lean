import CodeSurvey.Architecture.Model
import CodeSurvey.Artifact.Kind
import CodeSurvey.DataModel.Declared
import CodeSurvey.DataModel.Relationship
import CodeSurvey.DataModel.Schema
import CodeSurvey.Directory.Outline
import CodeSurvey.Json.Writer
import CodeSurvey.Manifest.Files
import CodeSurvey.Settings.Options
import CodeSurvey.Summary.Overview
import CodeSurvey.Syntax.Session
import CodeSurvey.Workflow.Model

/-!
# Surveying a workspace

One survey for each kind of artifact. A survey reads sources through a parse session and gives the
content of the artifact with the number of files that went into it and of those that could not be
read.
-/

namespace CodeSurvey.Survey

open CodeSurvey.Files CodeSurvey.Syntax CodeSurvey.Artifact

/-- What a survey has found. -/
structure Outcome where
  content : String
  fileCount : Nat
  errorCount : Nat
  deriving Repr, DecidableEq

/-- What a survey looks at. -/
structure Scene where
  workspace : Workspace
  options : Settings.Options
  matcher : Ignore.Matcher

namespace Scene

/-- The walk of the workspace with the options and the rules. -/
def walk (s : Scene) : List WalkEntry := s.workspace.walk s.options.limits s.matcher

/-- The files of the walk below a directory; none if it is no directory. -/
def filesBelow (s : Scene) (dir : String) : List WalkEntry :=
  if s.workspace.isDir (pathParts dir) then
    (s.workspace.walkBelow s.options.limits s.matcher dir).filter (!·.isDir)
  else []

/-- The files of the walk. -/
def files (s : Scene) : List WalkEntry := s.walk.filter (!·.isDir)

/-- The code files of the walk. -/
def codePaths (s : Scene) : List String :=
  (s.files.filter fun e => codeSuffixes.contains e.suffix).map (·.path)

/-- The sources at several paths. -/
def sources (s : Scene) (paths : List String) (session : Session) :
    List (String × Option Source) × Session :=
  Session.getAll s.workspace s.options.maxFileBytes paths session

end Scene

/-- The number of different paths that were parsed. -/
def parsedCount (found : List (String × Option Source)) : Nat :=
  (Text.distinct ((found.filter (·.2.isSome)).map (·.1))).length

/-- The number of different paths that could not be parsed. -/
def failedCount (found : List (String × Option Source)) : Nat :=
  (Text.distinct ((found.filter (·.2.isNone)).map (·.1))).length

/-- The directories of a workspace as an outline. -/
def outline (s : Scene) : Directory.Outline :=
  Directory.Outline.ofWalk s.workspace.name s.walk fun p => (s.workspace.size? p).getD 0

/-- The survey of the directories. -/
def directory (s : Scene) : Outcome :=
  let o := outline s
  ⟨o.report, o.fileCount, 0⟩

/-- The purpose that the first description file with a text gives. -/
def purpose (w : Workspace) : String :=
  let texts := Summary.Readme.names.filterMap fun name =>
    if w.isFile [name] then (w.text? [name] Settings.maxReadmeBytes).filter (!·.isEmpty) else none
  (texts.head?.map Summary.Readme.clean).getD ""

/-- The overview of a workspace. -/
def overview (s : Scene) : Summary.Overview :=
  Summary.Overview.of s.workspace.name (Manifest.ofWorkspace s.workspace)
    (s.files.filterMap fun e => Summary.languageOf? e.suffix)
    (Summary.buildTools fun name => s.workspace.isFile [name]) (purpose s.workspace)

/-- The survey of the overview. -/
def summary (s : Scene) : Outcome := ⟨(overview s).toJson.stored, s.files.length, 0⟩

/-- The directories in which data models are declared. -/
def modelDirectories : List String :=
  ["models", "entities", "types", "schema", "schemas", "src/models", "src/entities", "src/types",
   "src/schema", "src/schemas", "lib/models", "lib/entities", "lib/types", "app/models",
   "app/entities"]

/-- The files in which data models are declared, each once. -/
def modelPaths (s : Scene) : List String :=
  Text.distinct ((modelDirectories.flatMap s.filesBelow).filterMap fun e =>
    if e.suffix == ".ts" || e.suffix == ".tsx" then some e.path else none)

/-- The schema file of a workspace that is not ignored, if there is one: its path and its text, if
it can be read. -/
def schemaFile? (s : Scene) : Option (String × Option String) := do
  let place ← DataModel.Schema.places.find? s.workspace.isFile
  guard (!s.matcher.ignoresParts place false)
  return (pathText place, s.workspace.text? place s.options.maxFileBytes)

/-- The last of the elements of each name, in the order of first occurrence. -/
def lastOfEach {α : Type} (name : α → String) (xs : List α) : List α :=
  (Text.distinct (xs.map name)).filterMap fun n => xs.reverse.find? fun x => name x == n

/-- The data model that the model files and the schema declare: a later declaration of a name
stands for an earlier one, and the schema comes last. -/
def mergedModel (declared : List (List DataModel.Entity × List DataModel.Enumeration)) :
    DataModel.Model :=
  let entities := lastOfEach DataModel.Entity.name (declared.flatMap (·.1))
  { entities, enums := lastOfEach DataModel.Enumeration.name (declared.flatMap (·.2))
    relationships := DataModel.relationships entities }

/-- The survey of the data model. -/
def dataModel (s : Scene) (session : Session) : Outcome × Session :=
  let (found, session) := s.sources (modelPaths s) session
  let inCode := (found.filterMap (·.2)).map DataModel.declaredIn
  let (inSchema, read, failed) := match schemaFile? s with
    | none => ([], 0, 0)
    | some (_, none) => ([], 0, 1)
    | some (path, some text) => ([DataModel.Schema.declarations (some path) text], 1, 0)
  (⟨(mergedModel (inCode ++ inSchema)).toJson.stored, parsedCount found + read,
    failedCount found + failed⟩, session)

/-- The survey of the architecture. -/
def architecture (s : Scene) (session : Session) : Outcome × Session :=
  let (found, session) := s.sources s.codePaths session
  let model := Architecture.Model.ofWalk s.walk s.options.aliasStarts (found.filterMap (·.2))
  (⟨model.toJson.stored, parsedCount found, failedCount found⟩, session)

/-- The directories in which routes lie. -/
def routeDirectories : List String := ["app/api", "src/app/api", "pages/api", "src/pages/api"]

/-- The route files. -/
def routePaths (s : Scene) : List String :=
  ((routeDirectories.flatMap s.filesBelow).filter fun e =>
    Architecture.routeFiles.contains e.name).map (·.path)

/-- The survey of the workflows. -/
def workflow (s : Scene) (session : Session) : Outcome × Session :=
  let (routes, session) := s.sources (routePaths s) session
  let (found, session) := s.sources s.codePaths session
  let model := Workflow.Model.ofSources (routes.filterMap (·.2)) (found.filterMap (·.2))
  (⟨model.toJson.stored, parsedCount (routes ++ found), failedCount (routes ++ found)⟩, session)

/-- The survey for a kind of artifact. -/
def run (kind : CoreKind) (s : Scene) (session : Session) : Outcome × Session :=
  match kind with
  | .directory => (directory s, session)
  | .summary => (summary s, session)
  | .dataModel => dataModel s session
  | .architecture => architecture s session
  | .workflow => workflow s session

end CodeSurvey.Survey
