import CodeSurvey.Json.Basic
import CodeSurvey.Time.Reading

/-!
# Research sessions

A question that was looked into, with what was found. A value is taken for a session if every member
is of its sort. A category or a relevance that is no name but an array or an object cannot be looked
up, and reading fails.
-/

namespace CodeSurvey.Research

open CodeSurvey.Time (Moment)

/-- What a finding is about. -/
inductive Category where
  | concept
  | bestPractice
  | pitfall
  | edgeCase
  | technical
  deriving Repr, DecidableEq

namespace Category

/-- The name of a category. -/
def name : Category → String
  | concept => "concept"
  | bestPractice => "best_practice"
  | pitfall => "pitfall"
  | edgeCase => "edge_case"
  | technical => "technical"

/-- All categories. -/
def all : List Category := [concept, bestPractice, pitfall, edgeCase, technical]

/-- The category of a name. -/
def ofName? (name : String) : Option Category := all.find? (·.name == name)

end Category

/-- How much a finding matters. -/
inductive Relevance where
  | high
  | medium
  | low
  deriving Repr, DecidableEq

namespace Relevance

/-- The name of a relevance. -/
def name : Relevance → String
  | high => "high"
  | medium => "medium"
  | low => "low"

/-- All relevances. -/
def all : List Relevance := [high, medium, low]

/-- The relevance of a name. -/
def ofName? (name : String) : Option Relevance := all.find? (·.name == name)

end Relevance

/-- Something that was found. -/
structure Finding where
  id : String
  title : String
  content : String
  category : Category
  relevance : Relevance
  source : Option String := none
  deriving Repr, DecidableEq

/-- A question with what was found. -/
structure Session where
  id : String
  query : String
  findings : List Finding
  summary : String
  questions : List String
  heldAt : Moment
  deriving Repr, DecidableEq

/-- A value that is to be looked up among names is an array or an object. -/
inductive LookupError where
  | compound
  deriving Repr, DecidableEq

/-- The element that a value names; nothing if it names none. -/
def lookUp {α : Type} (ofName? : String → Option α) : Option Json → Except LookupError (Option α)
  | some (.str s) => .ok (ofName? s)
  | some (.arr _) | some (.obj _) => .error .compound
  | _ => .ok none

namespace Finding

/-- The value of a finding, with its source if it has one. -/
def toJson (f : Finding) : Json :=
  Json.record [("id", some (.str f.id)), ("title", some (.str f.title)),
    ("content", some (.str f.content)), ("category", some (.str f.category.name)),
    ("relevance", some (.str f.relevance.name)), ("source", f.source.map .str)]

/-- A text that may be missing or nothing. -/
def optionalText? : Option Json → Option (Option String)
  | none | some .null => some none
  | some (.str s) => some (some s)
  | _ => none

/-- The texts of a finding, if it has them all. -/
def texts? (j : Json) : Option (String × String × String) := do
  let id ← j.getStr? "id"
  let title ← j.getStr? "title"
  let content ← j.getStr? "content"
  return (id, title, content)

/-- The finding that a value describes, if it describes one. -/
def ofJson (j : Json) : Except LookupError (Option Finding) :=
  match texts? j with
  | none => .ok none
  | some (id, title, content) => do
    match ← lookUp Category.ofName? (j.get? "category") with
    | none => pure none
    | some category =>
      match ← lookUp Relevance.ofName? (j.get? "relevance") with
      | none => pure none
      | some relevance =>
        pure ((optionalText? (j.get? "source")).map fun source =>
          ⟨id, title, content, category, relevance, source⟩)

end Finding

namespace Session

/-- The value of a session; there is none if its moment is beyond the calendar in universal time. -/
def toJson? (s : Session) : Option Json :=
  s.heldAt.universalText?.map fun heldAt =>
    .obj [("id", .str s.id), ("query", .str s.query),
      ("findings", .arr (s.findings.map Finding.toJson)), ("summary", .str s.summary),
      ("suggestedQuestions", Json.texts s.questions), ("timestamp", .str heldAt)]

/-- The texts, the moment and the values of the findings of a session, if it has them all. -/
def parts? (j : Json) : Option (String × String × String × Moment × List Json) := do
  let id ← j.getStr? "id"
  let query ← j.getStr? "query"
  let summary ← j.getStr? "summary"
  let heldAt ← Moment.ofText? (← j.getStr? "timestamp")
  let findings ← (← j.get? "findings").arr?
  return (id, query, summary, heldAt, findings)

/-- The session that a value describes, if it describes one. -/
def ofJson (j : Json) : Except LookupError (Option Session) :=
  match parts? j with
  | none => .ok none
  | some (key, query, summary, heldAt, values) => do
    let found ← values.mapM Finding.ofJson
    return (do
      let findings ← found.mapM fun f => f
      let questions ← ((j.get? "suggestedQuestions").getD (.arr [])).strings?
      return ⟨key, query, findings, summary, questions, heldAt⟩)

end Session

end CodeSurvey.Research
