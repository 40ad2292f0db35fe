import CodeSurvey.Text.Case

/-!
# Architecture layers

A directory belongs to a layer by the names on its path.
-/

namespace CodeSurvey.Architecture

open CodeSurvey

/-- A layer of an architecture. -/
inductive Layer where
  | presentation
  | api
  | business
  | data
  | infrastructure
  deriving Repr, DecidableEq

namespace Layer

/-- The name of a layer. -/
def name : Layer → String
  | presentation => "presentation"
  | api => "api"
  | business => "business"
  | data => "data"
  | infrastructure => "infrastructure"

/-- The layers in the order in which they are tried and reported. -/
def all : List Layer := [presentation, api, business, data, infrastructure]

/-- The path fragments of a layer. -/
def fragments : Layer → List String
  | presentation =>
    ["components", "pages", "views", "screens", "ui", "app", "src/app", "src/pages",
     "src/components"]
  | api => ["api", "routes", "controllers", "handlers", "app/api", "src/api", "pages/api"]
  | business => ["services", "usecases", "use-cases", "domain", "core", "business", "logic"]
  | data => ["repositories", "repos", "data", "database", "db", "models", "entities", "prisma"]
  | infrastructure =>
    ["lib", "utils", "helpers", "config", "shared", "common", "infrastructure", "adapters"]

/-- A directory path as it is compared: slashes only, none at the ends, in lower case. -/
def normalPath (path : String) : String :=
  Text.lower (Text.trimChar '/' (Text.replaceChar '\\' '/' path))

/-- Whether a fragment occurs on a normal path: as a segment, or, if it has several, as a run of
segments. -/
def occursOn (path fragment : String) : Bool :=
  if fragment.toList.contains '/' then Text.contains ("/" ++ fragment ++ "/") ("/" ++ path ++ "/")
  else (Text.split path '/').contains fragment

/-- The layer of a directory: `api` wherever that segment occurs, else the first layer with a
fragment on the path. -/
def ofDirectory? (path : String) : Option Layer :=
  let path := normalPath path
  if path.isEmpty then none
  else if (Text.split path '/').contains "api" then some api
  else all.find? fun layer => layer.fragments.any (occursOn path)

end Layer

end CodeSurvey.Architecture
