import CodeSurvey.Json.Basic
import CodeSurvey.Text.Basic

/-!
# Dependency information

What a manifest tells about a project, and how several manifests are put together: dependency lists
are united in order, and of the names, versions and descriptions the first that is not empty
counts.
-/

namespace CodeSurvey.Manifest

open CodeSurvey

/-- What one or several manifests tell. -/
structure Info where
  /-- The dependencies. -/
  dependencies : List String := []
  /-- The dependencies for development only. -/
  devDependencies : List String := []
  /-- The name of the project. -/
  name : Option String := none
  /-- Its version. -/
  version : Option String := none
  /-- Its description. -/
  description : Option String := none
  deriving Repr, DecidableEq

/-- The first of two texts unless it is missing or empty. -/
def orElse (a b : Option String) : Option String :=
  match a with
  | some "" => b
  | some s => some s
  | none => b

/-- What two manifests tell together, where the lists may have repetitions. -/
def Info.append (a b : Info) : Info :=
  { dependencies := a.dependencies ++ b.dependencies
    devDependencies := a.devDependencies ++ b.devDependencies
    name := orElse a.name b.name
    version := orElse a.version b.version
    description := orElse a.description b.description }

/-- What several manifests tell together; each dependency is listed once. -/
def merge (infos : List (Option Info)) : Info :=
  let all := (infos.filterMap id).foldl Info.append {}
  { all with
    dependencies := Text.distinct all.dependencies
    devDependencies := Text.distinct all.devDependencies }

/-- The record of what is told. -/
def Info.toJson (i : Info) : Json :=
  Json.record [("dependencies", some (Json.texts i.dependencies)),
    ("devDependencies", some (Json.texts i.devDependencies)), ("name", i.name.map .str),
    ("version", i.version.map .str), ("description", i.description.map .str)]

end CodeSurvey.Manifest
