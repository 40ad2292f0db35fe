import CodeSurvey.Artifact.Stored
import CodeSurvey.Json.Display
import CodeSurvey.Json.Reader
import CodeSurvey.Storage.Artifacts
import CodeSurvey.Text.Basic

/-!
# The code base as context

A brief tells in a few lines what an artifact holds. Of four kinds of artifacts the content is an
object whose members are shown; of all others, and of contents that are no object, the brief only
says that there is content.

The stored artifacts are put together into one text: of each kind the documentation if there is
any, or else the brief of the artifact. What stands for an artifact that could not be made is
passed over.
-/

namespace CodeSurvey.Context

open CodeSurvey.Artifact CodeSurvey.Storage

/-! ## Briefs -/

/-- Why there is no brief of a content. -/
inductive BriefError where
  /-- The content is a value out of bounds. -/
  | content (e : Json.ReadError)
  /-- The frameworks are not texts in a row. -/
  | frameworks
  deriving Repr, DecidableEq

/-- What is shown where there is nothing to show. -/
def noneDetected : String := "None detected"

/-- The most names that are shown of a list. -/
def maxNames : Nat := 10

/-- The name of an item: a member of an object, or the item itself. -/
def itemName (key : String) (item : Json) : String :=
  match item with
  | .obj members => ((Json.findMember key members).map Json.display).getD "?"
  | item => item.display

/-- The names of the first items of an array, and how many more there are. -/
def namesOf (key : String) (items : Option Json) : String :=
  match items with
  | some (.arr (first :: rest)) =>
    let names := (first :: rest).map (itemName key)
    Text.join ", " (names.take maxNames) ++
      if maxNames < names.length then " (+" ++ toString (names.length - maxNames) ++ " more)"
      else ""
  | _ => noneDetected

/-- The number of items of an array, zero if it is no array. -/
def countOf (items : Option Json) : String :=
  match items with
  | some (.arr items) => toString items.length
  | _ => "0"

/-- A value that counts as true, shown, or `Unknown`. -/
def shownOr (unknown : String) (value : Option Json) : String :=
  match value with
  | some v => if v.isTruthy then v.display else unknown
  | none => unknown

/-- The frameworks: texts in a row, the characters of a text, or the keys of an object. -/
def frameworksText (value : Option Json) : Except BriefError String :=
  match value with
  | none => .ok noneDetected
  | some v =>
    if !v.isTruthy then .ok noneDetected
    else
      match v with
      | .str s => .ok (Text.join ", " (s.toList.map fun c => String.ofList [c]))
      | .obj members => .ok (Text.join ", " (members.map (·.1)))
      | v =>
        match v.strings? with
        | some names => .ok (Text.join ", " names)
        | none => .error .frameworks

/-- A heading and its lines, each with a label in strong letters. -/
def headed (heading : String) (lines : List (String × String)) : String :=
  Text.join "\n" (("## " ++ heading) :: lines.map fun l => "- **" ++ l.1 ++ "**: " ++ l.2)

/-- The brief of a content that is not shown. -/
def plainBrief (kind : String) : String := "## " ++ kind ++ "\n(Artifact content available)"

/-- The brief of an object that an artifact of some kind holds. -/
def objectBrief (kind : String) (data : Json) : Except BriefError String :=
  match CoreKind.ofName? kind with
  | some .summary => do
    let frameworks ← frameworksText (data.get? "frameworks")
    pure (headed "Codebase Summary"
      [("Project", shownOr "Unknown" (data.get? "name")),
       ("Primary Language", shownOr "Unknown" (data.get? "primaryLanguage")),
       ("Frameworks", frameworks),
       ("Dependencies", ((data.get? "dependencyCount").getD (.int 0)).display ++ " packages")])
  | some .architecture =>
    .ok (headed "Architecture"
      [("Layers", namesOf "layer" (data.get? "layers")),
       ("Entry Points", countOf (data.get? "entryPoints")),
       ("External Dependencies", countOf (data.get? "externalDependencies"))])
  | some .dataModel =>
    .ok (headed "Data Model"
      [("Entities", namesOf "name" (data.get? "entities")), ("Enums", countOf (data.get? "enums")),
       ("Relationships", countOf (data.get? "relationships"))])
  | some .workflow =>
    .ok (headed "Workflows"
      [("Workflows", namesOf "name" (data.get? "workflows")),
       ("API Operations", countOf (data.get? "operations")),
       ("Handlers", countOf (data.get? "handlers"))])
  | _ => .ok (plainBrief kind)

/-- The brief of the content of an artifact of some kind. -/
def brief (kind content : String) : Except BriefError String :=
  match Json.read content with
  | .ok (.obj members) => objectBrief kind (.obj members)
  | .ok _ | .error (.malformed ..) => .ok (plainBrief kind)
  | .error e => .error (.content e)

/-! ## The whole context -/

/-- The kinds in the order in which they appear. -/
def sectionOrder : List DocsKind := [.summary, .architecture, .dataModel, .workflow]

/-- An artifact that is there and complete. -/
def complete? (s : Option Stored) : Option Stored := s.filter (!·.isIncomplete)

/-- The brief of a stored artifact. -/
def storedBrief (s : Stored) : StoreAction String :=
  match brief s.kind.name s.content with
  | .ok text => return text
  | .error (.content e) => throw (.outOfBounds e)
  | .error .frameworks => throw .unlistable

/-- What the context says about a kind. -/
def sectionFor (k : DocsKind) : StoreAction (Option String) := do
  match complete? (← Artifacts.load (.docs k)) with
  | some docs => return some (Text.strip docs.content)
  | none =>
    match complete? (← Artifacts.load (.core k.source)) with
    | some s => return some (← storedBrief s)
    | none => return none

/-- The context, if there is anything to say. -/
def codebaseText : StoreAction (Option String) := do
  let sections := (← sectionOrder.mapM sectionFor).filterMap fun s => s
  return if sections.isEmpty then none else some (Text.join "\n\n---\n\n" sections)

end CodeSurvey.Context
