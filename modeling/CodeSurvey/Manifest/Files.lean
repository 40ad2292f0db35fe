import CodeSurvey.Json.Reader
import CodeSurvey.Manifest.Info
import CodeSurvey.Manifest.Lines
import CodeSurvey.Settings.Options
import CodeSurvey.Text.Case
import CodeSurvey.Toml.Reader

/-!
# Manifest files

The manifests of a workspace: each tells something, nothing when it is absent or malformed, or
fails when a value that is to be looked into is of another sort.
-/

namespace CodeSurvey.Manifest

open CodeSurvey Toml

/-- Why a manifest cannot be read. -/
inductive ManifestError where
  /-- A value that is to be a table is something else. -/
  | notATable
  /-- A value that is to be a list is something else. -/
  | notAList
  /-- A JSON manifest is out of bounds. -/
  | json (e : Json.ReadError)
  /-- A settings manifest cannot be read for a reason that is not told as such. -/
  | settings (e : Toml.ReadError)
  deriving Repr, DecidableEq

/-- The text of a manifest in the root of a workspace. -/
def manifestText? (w : Files.Workspace) (name : String) : Option String :=
  if w.isFile [name] then w.text? [name] Settings.maxManifestBytes else none

/-- A text that is there and not empty. -/
def nonEmpty? : Option String → Option String
  | some "" => none
  | s => s

/-- The keys of an object under a key, none if there is no object. -/
def keysOf (j : Json) (key : String) : List String :=
  match j.get? key with
  | some (.obj members) => members.map (·.1)
  | _ => []

/-- What a package manifest in JSON tells. -/
def ofPackage (text : String) : Except ManifestError (Option Info) :=
  match Json.read text with
  | .error (.malformed _ _) => .ok none
  | .error e => .error (.json e)
  | .ok (.obj members) =>
    let j := Json.obj members
    .ok (some
      { dependencies := keysOf j "dependencies"
        devDependencies := keysOf j "devDependencies"
        name := nonEmpty? (j.getStr? "name")
        version := nonEmpty? (j.getStr? "version")
        description := nonEmpty? (j.getStr? "description") })
  | .ok _ => .ok none

/-- The package manifest of a workspace. -/
def packageJson (w : Files.Workspace) : Except ManifestError (Option Info) :=
  match manifestText? w "package.json" with
  | some text => ofPackage text
  | none => .ok none

/-- The requirement lists of a workspace; the one for development counts only beside the other. -/
def requirementsTxt (w : Files.Workspace) : Except ManifestError (Option Info) :=
  .ok ((manifestText? w "requirements.txt").map fun text =>
    { dependencies := requirementNames text
      devDependencies := match manifestText? w "requirements-dev.txt" with
        | some dev => requirementNames dev
        | none => [] })

/-- The module file of a workspace. -/
def goMod (w : Files.Workspace) : Except ManifestError (Option Info) :=
  .ok ((manifestText? w "go.mod").map fun text =>
    { dependencies := requiredModules text, name := moduleName? text })

/-- The table of a settings manifest. -/
def settings? (text : String) : Except ManifestError (Option Value) :=
  match Toml.read text with
  | .ok v => .ok (some v)
  | .error .malformed => .ok none
  | .error e => .error (.settings e)

/-- Whether a value is nothing, zero or empty. -/
def isVoid : Value → Bool
  | .moment _ => false
  | v => !v.toJson.isTruthy

/-- The table under a key: an empty one for a value that is missing or void. -/
def tableAt (v : Value) (key : String) : Except ManifestError Value :=
  match v with
  | .table _ =>
    match v.get? key with
    | some x => .ok (if isVoid x then .table [] else x)
    | none => .ok (.table [])
  | _ => .error .notATable

/-- The value of a key of what is to be a table. -/
def at? (v : Value) (key : String) : Except ManifestError (Option Value) :=
  match v with
  | .table _ => .ok (v.get? key)
  | _ => .error .notATable

/-- The text of a key of what is to be a table. -/
def textAt? (v : Value) (key : String) : Except ManifestError (Option String) :=
  (at? v key).map fun
    | some (.str s) => nonEmpty? (some s)
    | _ => none

/-- The keys of a table under a key of what is to be a table. -/
def keysAt (v : Value) (key : String) : Except ManifestError (List String) :=
  (at? v key).map fun
    | some (.table entries) => entries.map (·.1)
    | _ => []

/-- The values of a table. -/
def valuesOf : Value → Except ManifestError (List Value)
  | .table entries => .ok (entries.map (·.2))
  | _ => .error .notATable

/-- The texts in a value that is gone through: a list by its items, a text by its characters, a
table by its keys. -/
def textsIn : Value → Except ManifestError (List String)
  | .array items => .ok (items.filterMap fun
    | .str s => some s
    | _ => none)
  | .str s => .ok (s.toList.map fun c => String.ofList [c])
  | .table entries => .ok (entries.map (·.1))
  | _ => .error .notAList

/-- The requirement names in a value that is gone through. -/
def requirementsIn (v : Value) : Except ManifestError (List String) :=
  (textsIn v).map fun ts => ts.map requirementName

/-- What a crate manifest tells. -/
def ofCrate (root : Value) : Except ManifestError Info := do
  let package ← tableAt root "package"
  let dependencies ← keysAt root "dependencies"
  let devDependencies ← keysAt root "dev-dependencies"
  let name ← textAt? package "name"
  let version ← textAt? package "version"
  let description ← textAt? package "description"
  pure { dependencies, devDependencies, name, version, description }

/-- A settings manifest of a workspace, of which `ofTable` says what its table tells. -/
def settingsManifest (w : Files.Workspace) (name : String)
    (ofTable : Value → Except ManifestError Info) : Except ManifestError (Option Info) :=
  match manifestText? w name with
  | none => .ok none
  | some text => do
    match ← settings? text with
    | none => pure none
    | some root => some <$> ofTable root

/-- The crate manifest of a workspace. -/
def cargoToml (w : Files.Workspace) : Except ManifestError (Option Info) :=
  settingsManifest w "Cargo.toml" ofCrate

/-- The requirement names under a key of what is to be a table, if there is something under it. -/
def requirementsAt (v : Value) (key : String) : Except ManifestError (List String) := do
  match ← at? v key with
  | some x => requirementsIn x
  | none => pure []

/-- The text of a key of the first of two values that has one. -/
def textAtEither? (v w : Value) (key : String) : Except ManifestError (Option String) := do
  match ← textAt? v key with
  | some s => pure (some s)
  | none => textAt? w key

/-- What a project manifest tells: the project's table first, then that of its packaging tool. -/
def ofProject (root : Value) : Except ManifestError Info := do
  let project ← tableAt root "project"
  let tool ← tableAt root "tool"
  let poetry ← tableAt tool "poetry"
  let required ← requirementsAt project "dependencies"
  let optional ← tableAt project "optional-dependencies"
  let groups ← valuesOf optional
  let extras ← groups.mapM requirementsIn
  let poetryRequired ← keysAt poetry "dependencies"
  let poetryDev ← keysAt poetry "dev-dependencies"
  let poetryGroups ← tableAt poetry "group"
  let poetryGroups ← valuesOf poetryGroups
  let grouped := poetryGroups.flatMap fun g =>
    match keysAt g "dependencies" with
    | .ok keys => keys
    | .error _ => []
  let name ← textAtEither? project poetry "name"
  let version ← textAtEither? project poetry "version"
  let description ← textAtEither? project poetry "description"
  let kept (xs : List String) : List String := xs.filter (!·.isEmpty)
  pure
    { dependencies :=
        kept (required ++ poetryRequired.filter fun k => Text.lower k != "python")
      devDependencies := kept (extras.flatten ++ poetryDev ++ grouped)
      name
      version
      description }

/-- The project manifest of a workspace. -/
def pyprojectToml (w : Files.Workspace) : Except ManifestError (Option Info) :=
  settingsManifest w "pyproject.toml" ofProject

/-- The manifests of a workspace, those that go first for name, version and description first. -/
def all (w : Files.Workspace) : List (Except ManifestError (Option Info)) :=
  [packageJson w, pyprojectToml w, requirementsTxt w, goMod w, cargoToml w]

/-- What the manifests of a workspace tell together; one that cannot be read tells nothing. -/
def ofWorkspace (w : Files.Workspace) : Info :=
  merge ((all w).map fun r => r.toOption.getD none)

end CodeSurvey.Manifest
