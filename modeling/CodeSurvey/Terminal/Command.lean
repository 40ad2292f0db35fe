import CodeSurvey.Context.Codebase
import CodeSurvey.Scan.Run
import CodeSurvey.Settings.Config
import CodeSurvey.Terminal.Markup
import CodeSurvey.Terminal.Request
import CodeSurvey.Terminal.Table

/-!
# Commands

A command works on a host from a directory of its tree, prints lines and ends in one of four ways:
it does what it is asked for, it refuses and says why, the arguments are wrong, or something breaks
it off. Every command opens a store of its own.
-/

namespace CodeSurvey.Terminal

open CodeSurvey.Artifact CodeSurvey.Files CodeSurvey.Storage

/-- Where commands are run. -/
structure Site where
  /-- The directory that relative paths begin at. -/
  home : Path
  /-- How the top of the tree is written; it is the empty text if the tree is the whole system. -/
  top : String
  deriving Repr, DecidableEq

namespace Site

/-- A path from the top as a text. -/
def text (s : Site) (p : Path) : String :=
  if p.isEmpty && !s.top.isEmpty then s.top else s.top ++ "/" ++ pathText p

/-- The parts of a path from the top. Paths from the root of the system are only known if the tree
is the whole system. -/
def parts? (s : Site) (path : String) : Option Path :=
  if path.isEmpty then none
  else if !Text.hasStart "/" path then some (s.home ++ pathParts path)
  else if s.top.isEmpty then some (pathParts path)
  else none

/-- The directory that a path leads to, without links on the way. -/
def directory? (s : Site) (t : Tree) (path : String) : Option Place := do
  match t.at? (← s.parts? path) with
  | .ok (p, .dir) => some ⟨p, s.text p⟩
  | _ => none

end Site

/-- Something printed. -/
inductive Printed where
  | text (s : String)
  /-- That a scan has finished, with the time that it took. -/
  | finished
  deriving Repr, DecidableEq

/-- The lines printed, with the milliseconds that a scan took. -/
def Printed.render (milliseconds : String) : Printed → String
  | text s => s
  | finished => "\n✓ Scan finished in " ++ milliseconds ++ " ms"

/-- What breaks a command off. -/
inductive Breakdown where
  | store (e : StoreError)
  | config (e : Settings.ConfigError)
  /-- An option cannot be used as it is set. -/
  | option (e : Settings.OptionError)
  /-- The settings have no text. -/
  | settings (e : Toml.ReadError)
  | files (e : Errno)
  /-- A tag in a message ends a style that was not begun. -/
  | markup
  deriving Repr, DecidableEq

/-- What users are told of it. -/
def Breakdown.message : Breakdown → String
  | store e => ((e.told? <|> e.valueText?).getD "A stored document cannot be used.")
  | config _ => "The settings file cannot be used."
  | option (.wrongSort name) => "The option '" ++ name ++ "' cannot be used as it is set."
  | settings _ => "The settings cannot be written."
  | files e => Errno.text e
  | markup => "A message holds a tag that ends nothing."

/-- How a command ends. -/
inductive Ending where
  | done
  /-- It could not do what it was asked for and has said why. -/
  | refused
  | misused (e : UsageError)
  | broken (b : Breakdown)
  deriving Repr, DecidableEq

/-- The exit code of a command. -/
def Ending.code : Ending → Nat
  | done => 0
  | refused | broken _ => 1
  | misused _ => 2

/-- What a command works with. -/
structure Session where
  site : Site
  host : Host
  /-- The documentation service at an address. -/
  service : String → Scan.DocsService
  printed : List Printed := []

/-- A command; what stops it is no regular end. -/
abbrev Command := ExceptT Ending (StateM Session)

namespace Command

/-- Prints something. -/
def print (p : Printed) : Command Unit := modify fun s => { s with printed := s.printed ++ [p] }

/-- Prints a text as it is. -/
def say (text : String) : Command Unit := print (.text (Markup.withoutSequences text))

/-- Prints marked text. -/
def sayMarked (text : String) : Command Unit :=
  match Markup.plain? text with
  | some text => print (.text text)
  | none => throw (.broken .markup)

/-- Says why a command cannot go on, and ends it. -/
def refuse {α : Type} (reason : String) : Command α := do
  sayMarked ("[red]✗[/red] " ++ reason)
  throw .refused

/-- An operation on a store as a part of a command. -/
def onStore {α : Type} (store : Store) (a : StoreAction α) :
    Command (Except StoreError α × Store) := do
  let s ← get
  let (result, state) := a.run ⟨s.host, store⟩
  set { s with host := state.host }
  return (result, state.store)

/-- An operation on a store that breaks the command off when it fails. -/
def demand {α : Type} (store : Store) (a : StoreAction α) : Command α := do
  match ← onStore store a with
  | (.ok x, _) => return x
  | (.error e, _) => throw (.broken (.store e))

/-- The directory that a path leads to. -/
def place (path : String) : Command Place := do
  let s ← get
  match s.site.directory? s.host.tree path with
  | some p => return p
  | none => throw (.misused (.noDirectory path))

/-- The store of a workspace that was made ready. -/
def openStore (p : Place) : Command Store := do
  match ← onStore (Store.atPlace p) StoreAction.ensureReady with
  | (.ok (), store) => return store
  | (.error (.init e), _) => refuse e.message
  | (.error e, _) => throw (.broken (.store e))

/-- The configuration of a workspace. -/
def config (p : Place) : Command Settings.Config := do
  let s ← get
  match Settings.load ⟨s.host.tree, p.path, s.host.unreadable⟩ with
  | .ok c => return c
  | .error e => throw (.broken (.config e))

/-- The options of a configuration. -/
def optionsOf (c : Settings.Config) : Command Settings.Options :=
  match c.options with
  | .ok o => return o
  | .error e => throw (.broken (.option e))

/-- What is said when there are no artifacts. -/
def nothingStored : String := "No artifacts stored yet. Run 'contextscan scan' first."

/-! ## Scanning -/

/-- The table of the artifacts that a scan made. -/
def madeTable (artifacts : List Made) : Table :=
  { title := some "Artifacts"
    columns := [⟨"Kind", false⟩, ⟨"Files", true⟩, ⟨"Errors", true⟩, ⟨"Status", false⟩]
    rows := artifacts.map fun m =>
      [m.kind.name, toString m.fileCount, toString m.errorCount,
        if m.incomplete then "incomplete" else "ok"] }

/-- The line of a scan's progress: what was said last, and a full bar at the end. -/
def progressLine (message : String) (isComplete : Bool) : String :=
  if isComplete then message ++ " " ++ Text.join "" (List.replicate 40 "━") else message

/-- What is said before the first stage. -/
def starting : String := "Starting..."

/-- Prints what a scan reports. -/
def sayReport (r : Scan.Report) : Command Unit := do
  match r.progress.getLast? with
  | some p => say (progressLine p.message (p.percent == 100))
  | none => say starting
  (madeTable r.artifacts).lines.forM say
  r.errors.forM fun e => sayMarked ("[yellow]⚠[/yellow] " ++ e.stage ++ ": " ++ e.message)

/-- The options of a scan: those of the configuration, but for what the command is told. -/
def scanOptions (o : Settings.Options) (describe : Bool) (timeout : Option Float) :
    Settings.Options :=
  let o := match timeout with
    | some x => { o with engineTimeout := .fractional x }
    | none => o
  { o with generateDocs := o.generateDocs || describe }

/-- The plan of a scan with some options, of the kinds of some names, or of all kinds. -/
def planOf (service : String → Scan.DocsService) (o : Settings.Options) (only : List String) :
    Scan.Plan :=
  { options := o
    kinds := if only.isEmpty then none else some only
    docs := if o.generateDocs then some (service o.docsEndpoint) else none }

/-- Saves a snapshot of the workspace, or says why it cannot be saved. -/
def saveSnapshot (store : Store) (o : Settings.Options) : Command Unit := do
  match ← onStore store (Scan.record o) with
  | (.ok _, _) => return ()
  | (.error e, _) =>
    match e.told? with
    | some text => sayMarked ("[yellow]⚠[/yellow] Could not save scan cache: " ++ text)
    | none => throw (.broken (.store e))

/-- Runs a scan with some options, prints what it reports and saves a snapshot of the workspace. -/
def scanWith (p : Place) (o : Settings.Options) (only : List String) : Command Unit := do
  let unknown := only.filter fun n => (CoreKind.ofName? n).isNone
  if !unknown.isEmpty then
    throw (.misused (.unknownKinds unknown (CoreKind.all.map (·.name))))
  let plan := planOf (← get).service o only
  sayMarked ("\n[bold cyan]Scanning " ++ p.text ++ "...[/bold cyan]\n")
  match ← onStore (Store.atPlace p) (Scan.run plan) with
  | (.error (.init e), _) =>
    sayMarked ("[red]✗[/red] " ++ e.message)
    say (progressLine starting false)
    throw .refused
  | (.error e, _) => throw (.broken (.store e))
  | (.ok report, store) =>
    sayReport report
    saveSnapshot store o
    print .finished

/-- Runs a scan of a workspace with the options of its configuration. -/
def scan (p : Place) (describe : Bool) (timeout : Option Float) (only : List String) :
    Command Unit := do
  let o ← optionsOf (← config p)
  scanWith p (scanOptions o describe timeout) only

/-! ## The other jobs -/

/-- The table of stored artifacts. -/
def storedTable (artifacts : List Stored) : Table :=
  { columns := [⟨"Kind", false⟩, ⟨"Version", true⟩, ⟨"Generated (UTC)", false⟩, ⟨"Files", true⟩,
      ⟨"Errors", true⟩]
    rows := artifacts.map fun s =>
      [s.kind.name ++ if s.isIncomplete then " (incomplete)" else "",
        toString s.metadata.version.number, s.metadata.madeAt, toString s.metadata.fileCount,
        toString s.metadata.errorCount] }

/-- Lists the stored artifacts. -/
def list (p : Place) : Command Unit := do
  match ← demand (← openStore p) Artifacts.list with
  | [] => say nothingStored
  | artifacts => (storedTable artifacts).lines.forM say

/-- Prints the content of a stored artifact. -/
def printContent (p : Place) (k : Kind) : Command Unit := do
  match ← demand (← openStore p) (Artifacts.load k) with
  | some s => say s.content
  | none => refuse ("No stored '" ++ k.name ++ "' artifact.")

/-- Restores the artifact before the current one. -/
def restore (p : Place) (k : Kind) : Command Unit := do
  match ← onStore (← openStore p) (Artifacts.restore k) with
  | (.ok true, _) => sayMarked ("[green]✓[/green] Restored previous '" ++ k.name ++ "' artifact.")
  | (.ok false, _) =>
    sayMarked ("[yellow]No previous version of '" ++ k.name ++ "' to restore.[/yellow]")
    throw .refused
  | (.error e, _) =>
    match e.told? with
    | some text => refuse text
    | none => throw (.broken (.store e))

/-- Tells whether the workspace has changed since the last snapshot. -/
def compare (p : Place) : Command Unit := do
  let store ← openStore p
  match ← demand store LastSnapshot.load with
  | none => say "No previous scan recorded."
  | some earlier =>
    let o ← optionsOf (← config p)
    let present ← demand store (Scan.snapshot o)
    if Survey.Snapshot.hasChanged (some earlier) present then
      say ("Changes detected since " ++ earlier.takenAt ++ " (" ++ toString present.fileCount
        ++ " files).")
    else say ("No changes since " ++ earlier.takenAt ++ ".")

/-- Prints what is told of the code base. -/
def printContext (p : Place) : Command Unit := do
  match ← demand (← openStore p) Context.codebaseText with
  | some text => say text
  | none =>
    say nothingStored
    throw .refused

/-- Writes a file in a directory that is made if it is not there. -/
def writeFile (p : Path) (text : String) : FileAction Unit := do
  FileAction.makeDirs p.dropLast
  FileAction.change ⟨.create, p⟩ fun t => t.write p ByteArray.empty
  FileAction.change ⟨.write, p⟩ fun t => t.write p text.toUTF8

/-- Writes the default settings unless there are settings. -/
def writeSettings (p : Place) : Command Unit := do
  let store ← openStore p
  if store.memory.isSome then refuse "Workspace is read-only; cannot write a config file."
  let target := p.below Settings.configPath
  if (← get).host.tree.isThere target.path then say ("Config already exists at " ++ target.text)
  else
    match Settings.Config.default.fileText [] with
    | .error e => throw (.broken (.settings e))
    | .ok text =>
      match ← onStore store (StoreAction.files (writeFile target.path text)) with
      | (.ok (.ok ()), _) => say ("Wrote " ++ target.text)
      | (.ok (.error e), _) => throw (.broken (.files e))
      | (.error e, _) => throw (.broken (.store e))

/-- Does a job in a workspace. -/
def work (p : Place) : Job → Command Unit
  | .scan describe timeout only => scan p describe timeout only
  | .list => list p
  | .print k => printContent p k
  | .restore k => restore p k
  | .compare => compare p
  | .context => printContext p
  | .init => writeSettings p

/-! ## Requests -/

/-- What is printed for the version. -/
def versionText : String := "contextscan v0.4.0"

/-- What is printed for help. -/
def helpText : String :=
  Text.join "\n"
    ["Usage: contextscan [OPTIONS] COMMAND [ARGS]...", "",
      "  Scan a workspace into structured artifacts for AI assistants.", "",
      "Options:",
      "  -v, --version  Show version and exit.",
      "  --verbose      Enable debug logging.",
      "  --help         Show this message and exit.", "",
      "Commands:",
      "  scan [PATH] [--docs] [--timeout SECONDS] [--only KIND]...",
      "  list [-p PATH]           List stored artifacts.",
      "  show KIND [-p PATH]      Print the content of a stored artifact.",
      "  restore KIND [-p PATH]   Roll an artifact back to its previous version.",
      "  changes [-p PATH]        Report whether the workspace changed since the last scan.",
      "  context [-p PATH]        Print the codebase context handed to chat assistants.",
      "  init [-p PATH]           Create the control directory and a default config file."]

/-- Does what the arguments ask for. -/
def ofArguments (args : List String) : Command Unit :=
  match Request.ofArguments args with
  | .error e => throw (.misused e)
  | .ok .version => say versionText
  | .ok .help => say helpText
  | .ok (.work path job) => do work (← place path) job

/-- The end of a command, the host after it and what it prints. -/
def run (args : List String) (s : Session) : Ending × Host × List Printed :=
  match ExceptT.run (ofArguments args) s with
  | (.ok (), s) => (.done, s.host, s.printed)
  | (.error e, s) => (e, s.host, s.printed)

end Command

end CodeSurvey.Terminal
