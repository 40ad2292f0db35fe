import CodeSurvey.Files.Change
import CodeSurvey.Terminal.Command
import Std.Time.DateTime.Timestamp

/-!
# The program

Reads the files of the workspace that the arguments tell, does the command on them, writes what has
changed, and prints what the command prints. There is no connection to a documentation service.
-/

namespace CodeSurvey.Program

open CodeSurvey.Files CodeSurvey.Storage CodeSurvey.Terminal

/-- What was found on the system. -/
structure Found where
  /-- The paths from the root with what stands there, the last one first. -/
  entries : List (Path × Entry) := []
  /-- The files that could not be read. -/
  unreadable : List Path := []

/-- One more path with what stands there, unless the path was found before. -/
def Found.add (f : Found) (p : Path) (e : Entry) : Found :=
  if f.entries.any (·.1 == p) then f else { f with entries := (p, e) :: f.entries }

/-- The directories above a path. -/
def Found.addParents (f : Found) (p : Path) : Found :=
  (List.range p.length).foldl (fun f n => if n = 0 then f else f.add (p.take n) .dir) f

/-- A path from the root as the system knows it. -/
def systemPath (p : Path) : String := "/" ++ pathText p

/-- The path without links that a path leads to. -/
def realPath? (path : String) : IO (Option Path) := do
  try return some (pathParts (toString (← IO.FS.realPath path)))
  catch _ => return none

/-- The target that leads from the directory of a link to a path from the root. -/
def linkTarget (link target : Path) : String :=
  pathText (List.replicate (link.length - 1) ".." ++ target)

/-- Reads what stands at a path and below it, and what links there lead to. -/
partial def readAt (f : Found) (p : Path) : IO Found := do
  if f.entries.any (·.1 == p) then return f
  let path ← IO.FS.realPath (systemPath p)
  match (← path.symlinkMetadata).type with
  | .dir => do
    let mut f := f.add p .dir
    for entry in ← path.readDir do
      let q := p ++ [entry.fileName]
      match (← entry.path.symlinkMetadata).type with
      | .symlink =>
        match ← realPath? (systemPath q) with
        | some target =>
          f := (f.add q (.link (linkTarget q target))).addParents target
          f ← readAt f target
        | none => f := f.add q (.link entry.fileName)
      | _ => f ← readAt f q
    return f
  | .file =>
    try return f.add p (.file (← IO.FS.readBinFile path))
    catch _ =>
      let f := f.add p (.file ByteArray.empty)
      return { f with unreadable := p :: f.unreadable }
  | _ => return f

/-- Reads the directories and links on the way to a path. -/
def readWay (f : Found) (p : Path) : IO Found :=
  (List.range p.length).foldlM (fun f n => do
    let q := p.take (n + 1)
    match q.contains "..", ← realPath? (systemPath q) with
    | false, some target =>
      return if target == q then f
        else (f.add q (.link (linkTarget q target))).addParents target
    | _, _ => return f) f

/-- The path of the workspace that some arguments tell. -/
def workspacePath (args : List String) : String :=
  match Request.ofArguments args with
  | .ok (.work path _) => if path.isEmpty then Request.here else path
  | _ => ""

/-- Reads the workspace at a path; `home` is the present directory. -/
def readWorkspace (home : Path) (path : String) : IO Found := do
  match ← realPath? path with
  | none => return {}
  | some real =>
    let f ← readAt (({} : Found).addParents real) real
    let f := (f.addParents home).add home .dir
    readWay f (if Text.hasStart "/" path then pathParts path else home ++ pathParts path)

/-- Makes a change on the system. -/
def apply : Change → IO Unit
  | .makeDir p => IO.FS.createDirAll (systemPath p)
  | .write p content => IO.FS.writeBinFile (systemPath p) content
  | .remove p => IO.FS.removeFile (systemPath p)

/-- The days of the calendar before 1970. -/
def daysBeforeEpoch : Nat := 719162

/-- The present moment. -/
def now : IO Time.Moment := do
  let t ← Std.Time.Timestamp.now
  let micros := t.toNanosecondsSinceUnixEpoch.val.toNat / 1000
  return Time.Moment.ofInstant (daysBeforeEpoch * Time.microsPerDay + micros)

/-- What the names of one run begin with. -/
def idStart : IO String := do
  let bytes ← IO.getRandomBytes 8
  return Text.join "" (bytes.toList.map fun b => Text.hexDigits 2 b.toNat) ++ "-"

/-- There is no service to describe artifacts. -/
def noService : Scan.DocsService :=
  let absent : Scan.Failure := ⟨"There is no connection to the service.", "ConnectionError"⟩
  { isThere := .ok false, describe := fun _ _ _ => .error absent }

/-- The files that could not be read stay so. -/
def faultsOf (unreadable : List Path) : Faults := fun _ c =>
  if c.primitive = .read ∧ unreadable.contains c.path then some Errno.accessDenied else none

end CodeSurvey.Program

open CodeSurvey CodeSurvey.Program in
/-- Runs the command on what was found on the system and makes its changes there. -/
def main (args : List String) : IO UInt32 := do
  let home := Files.pathParts (toString (← IO.currentDir))
  let path := workspacePath args
  let found ← if path.isEmpty then pure {} else readWorkspace home path
  let tree : Files.Tree := ⟨found.entries.reverse⟩
  let start ← IO.monoMsNow
  let (ending, host, printed) := Terminal.Command.run args
    { site := ⟨home, ""⟩
      host :=
        { tree, faults := faultsOf found.unreadable, calls := 0, now := ← now, ids := 0
          idStart := ← idStart }
      service := fun _ => noService }
  (tree.changes host.tree).forM apply
  let milliseconds := toString ((← IO.monoMsNow) - start)
  printed.forM fun p => IO.println (p.render milliseconds)
  match ending with
  | .misused e => IO.eprintln ("Error: " ++ e.message)
  | .broken b => IO.eprintln ("Error: " ++ b.message)
  | _ => pure ()
  return ending.code.toUInt32
