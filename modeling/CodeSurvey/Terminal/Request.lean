import CodeSurvey.Artifact.Kind
import CodeSurvey.Terminal.Arguments
import CodeSurvey.Toml.Number

/-!
# Requests

What the command line asks for: one of seven jobs on a workspace, the version or help.
-/

namespace CodeSurvey.Terminal

open CodeSurvey.Artifact

/-- What is to be done with a workspace. -/
inductive Job where
  /-- Making and storing artifacts: whether they are described too, how long an engine may take, and
  the names of the kinds if not all of them are made. -/
  | scan (describe : Bool) (timeout : Option Float) (only : List String)
  /-- Listing the stored artifacts. -/
  | list
  /-- Printing the content of a stored artifact. -/
  | print (k : Kind)
  /-- Putting the artifact before the present one back. -/
  | restore (k : Kind)
  /-- Telling whether the workspace has changed since the last scan. -/
  | compare
  /-- Printing the code base as context. -/
  | context
  /-- Writing a settings file. -/
  | init

/-- What the command line asks for. -/
inductive Request where
  | help
  | version
  /-- A job on the workspace at a path. -/
  | work (path : String) (job : Job)

namespace Request

/-- The option for help. -/
def helpSwitch : Switch := { name := "help" }

/-- The options before the command. -/
def generalSwitches : List Switch :=
  [{ name := "version", letter := some 'v' }, { name := "verbose" }, helpSwitch]

/-- The options of a scan. -/
def scanSwitches : List Switch :=
  [{ name := "docs" }, { name := "timeout", takesValue := true },
    { name := "only", takesValue := true }, helpSwitch]

/-- The options of the commands other than a scan. -/
def placeSwitches : List Switch :=
  [{ name := "path", letter := some 'p', takesValue := true }, helpSwitch]

/-- The path of the workspace when none is given. -/
def here : String := "."

/-- A number of seconds. -/
def seconds? (text : String) : Except UsageError Float :=
  match Toml.fractional? text.toList with
  | some x => .ok x
  | none => .error (.noNumber text)

/-- The request for a scan. -/
def ofScan (args : List String) : Except UsageError Request := do
  let g ← Given.read scanSwitches true args {}
  if g.has "help" then return help
  let path ← match g.others with
    | [] => pure here
    | [path] => pure path
    | _ :: extra => throw (.extraArguments extra)
  let timeout ← (g.last? "timeout").mapM seconds?
  return work path (.scan (g.has "docs") timeout (g.all "only"))

/-- A job on a workspace that an option tells. -/
def ofPlain (job : Job) (args : List String) : Except UsageError Request := do
  let g ← Given.read placeSwitches true args {}
  if g.has "help" then return help
  if !g.others.isEmpty then throw (.extraArguments g.others)
  return work ((g.last? "path").getD here) job

/-- A job on the artifact of a kind. -/
def ofKind (job : Kind → Job) (args : List String) : Except UsageError Request := do
  let g ← Given.read placeSwitches true args {}
  if g.has "help" then return help
  match g.others with
  | [] => throw (.missingArgument "KIND")
  | [name] =>
    match Kind.ofName? name with
    | some k => return work ((g.last? "path").getD here) (job k)
    | none => throw (.unknownKind name (Kind.all.map (·.name)))
  | _ :: extra => throw (.extraArguments extra)

/-- The commands by their names. -/
def commands : List (String × (List String → Except UsageError Request)) :=
  [("scan", ofScan), ("list", ofPlain .list), ("show", ofKind .print),
    ("restore", ofKind .restore), ("changes", ofPlain .compare), ("context", ofPlain .context),
    ("init", ofPlain .init)]

/-- What the arguments ask for. -/
def ofArguments (args : List String) : Except UsageError Request := do
  let g ← Given.read generalSwitches false args {}
  match g.options.find? fun o => o.1 == "version" || o.1 == "help" with
  | some (name, _) => return if name == "version" then version else help
  | none =>
    match g.others with
    | [] => throw .missingCommand
    | name :: rest =>
      match commands.find? (·.1 == name) with
      | some (_, read) => read rest
      | none => throw (.unknownCommand name)

end Request

end CodeSurvey.Terminal
