import CodeSurvey.Artifact.Kind
import CodeSurvey.Files.Content
import CodeSurvey.Json.Writer
import CodeSurvey.Settings.Options
import CodeSurvey.Storage.Error
import CodeSurvey.Storage.Host

/-!
# Stores

A store keeps the documents of one workspace in its control directory. Artifacts and planning
documents have one earlier generation beside them. If the workspace cannot be written to, the store
keeps them in memory instead, and everything else stays as it is. What is read is checked: a file
that is not there, is no text, or is malformed counts as absent.
-/

namespace CodeSurvey.Storage

open CodeSurvey.Artifact CodeSurvey.Files

/-! ## Documents -/

/-- A document of a store. -/
inductive Document where
  /-- The artifact of a kind. -/
  | artifact (k : Kind)
  /-- The artifact of a kind before that. -/
  | previous (k : Kind)
  | requirements
  | earlierRequirements
  | tasks
  | earlierTasks
  /-- The research sessions. -/
  | research
  /-- The snapshot of the last scan. -/
  | snapshot
  deriving Repr, DecidableEq

namespace Document

/-- The directory of the artifacts. -/
def artifactsDir : Files.Path := ["artifacts"]

/-- The directory of the last snapshot. -/
def cacheDir : Files.Path := ["cache"]

/-- The file of a document, by its path below the control directory. -/
def path : Document → Files.Path
  | artifact k => artifactsDir ++ [k.name ++ ".json"]
  | previous k => artifactsDir ++ [k.name ++ ".previous.json"]
  | requirements => ["requirements.json"]
  | earlierRequirements => ["requirements.json.bak"]
  | tasks => ["tasks.json"]
  | earlierTasks => ["tasks.json.bak"]
  | research => ["research.json"]
  | snapshot => cacheDir ++ ["last-scan.json"]

/-- Whether a document is no earlier generation of another. -/
def isCurrent : Document → Bool
  | previous _ | earlierRequirements | earlierTasks => false
  | _ => true

/-- All documents. -/
def all : List Document :=
  Kind.all.map artifact ++ Kind.all.map previous ++
    [requirements, earlierRequirements, tasks, earlierTasks, research, snapshot]

end Document

/-! ## Stores and their hosts -/

/-- A path in the tree, and how it is written for users. -/
structure Place where
  path : Path
  text : String
  deriving Repr, DecidableEq

/-- The place of a path that is relative to the top of the tree. -/
def Place.ofText (text : String) : Place := ⟨pathParts text, plainPath text⟩

/-- A place below another. -/
def Place.below (p : Place) (parts : Path) : Place :=
  if parts.isEmpty then p
  else
    let start :=
      if p.text == "." then "" else if Text.hasEnd "/" p.text then p.text else p.text ++ "/"
    ⟨p.path ++ parts, start ++ pathText parts⟩

/-- A store. -/
structure Store where
  /-- The workspace. -/
  root : Place
  /-- The path of the control directory in the workspace. -/
  controlDir : Path := [Settings.controlDirName]
  /-- The texts of the documents by their paths below the control directory, if they are kept in
  memory. -/
  memory : Option (List (Path × String)) := none
  /-- Whether the workspace was made ready. -/
  isReady : Bool := false

/-- The store of a workspace that nothing was done with yet. -/
def Store.atPlace (root : Place) : Store := { root }

/-- The control directory. -/
def Store.base (s : Store) : Place := s.root.below s.controlDir

/-- The place of a document. -/
def Store.place (s : Store) (d : Document) : Place := s.base.below d.path

/-- A store on a host. -/
structure State where
  host : Host
  store : Store

/-- Operations on a store. One that fails keeps what it has done until then. -/
abbrev StoreAction := ExceptT StoreError (StateM State)

namespace StoreAction

/-- File operations as a part of an operation on a store. -/
def files {α : Type} (a : FileAction α) : StoreAction (Except Errno α) := do
  let s ← get
  let (result, host) := a.run s.host
  set { s with host }
  return result

/-- An operation, or what stands in for it when a file cannot be read or written. -/
def suppress (a : StoreAction Unit) : StoreAction Unit :=
  tryCatch a fun
    | .storage _ => pure ()
    | e => throw e

/-- The next name. -/
def drawId : StoreAction String := do
  let s ← get
  set { s with host := { s.host with ids := s.host.ids + 1 } }
  return s.host.idStart ++ toString (s.host.ids + 1)

/-- The present moment as a text. -/
def nowText : StoreAction String := return (← get).host.nowText

/-- Changes the store. -/
def changeStore (f : Store → Store) : StoreAction Unit :=
  modify fun s => { s with store := f s.store }

/-- Makes the workspace ready: the directories of the control directory are made. If the workspace
cannot be written to, documents are kept in memory from then on. -/
def ensureReady : StoreAction Unit := do
  let s ← get
  if s.store.isReady then return
  let base := s.store.base
  if !s.host.tree.isDir s.store.root.path then
    throw (.init (.noWorkspace s.store.root.text))
  let keepInMemory := changeStore fun s => { s with memory := some [] }
  match ← files (FileAction.isWritable s.store.root.path) with
  | .ok true =>
    let made ← files do
      FileAction.makeDirs (base.below Document.artifactsDir).path
      FileAction.makeDirs (base.below Document.cacheDir).path
    match made with
    | .ok () => pure ()
    | .error e =>
      if e.isPermission then keepInMemory
      else throw (.init (.failed base.text (Errno.text e)))
  | _ => keepInMemory
  changeStore fun s => { s with isReady := true }

/-- The error of a document whose file could not be read or written. -/
def fileError (d : Document) (e : Errno) : StoreAction StoreError :=
  return .storage (.ofSystem (.ofErrno e) ((← get).store.place d).text)

/-- The text of a document, if there is one. -/
def readText (d : Document) : StoreAction (Option String) := do
  let s ← get
  match s.store.memory with
  | some kept => return (kept.find? (·.1 == d.path)).map (·.2)
  | none =>
    match ← files (FileAction.read (s.store.place d).path) with
    | .ok bytes => return (utf8? bytes).map universalLines
    | .error e => if e = Errno.noEntry then return none else throw (← fileError d e)

/-- The value of a document, if there is one and it is well formed. -/
def readJson (d : Document) : StoreAction (Option Json) := do
  match ← readText d with
  | none => return none
  | some text =>
    match Json.read text with
    | .ok j => return some j
    | .error (.malformed ..) => return none
    | .error e => throw (.outOfBounds e)

/-- The texts kept in memory with one more. -/
def keep (path : Path) (text : String) : List (Path × String) → List (Path × String)
  | [] => [(path, text)]
  | (p, t) :: kept => if p = path then (path, text) :: kept else (p, t) :: keep path text kept

/-- Writes the text of a document. -/
def writeText (d : Document) (text : String) : StoreAction Unit := do
  ensureReady
  let s ← get
  match s.store.memory with
  | some kept => changeStore fun s => { s with memory := some (keep d.path text kept) }
  | none =>
    match ← files (FileAction.writeWhole (s.store.place d).path text) with
    | .ok () => return ()
    | .error e => throw (← fileError d e)

/-- Writes the value of a document, unless a number in it is too long to be written. -/
def writeJson (d : Document) (j : Json) : StoreAction Unit :=
  if j.hasShortInts then writeText d j.stored else throw .longNumber

/-- Removes a document; tells whether it was there. -/
def remove (d : Document) : StoreAction Bool := do
  let s ← get
  match s.store.memory with
  | some kept => do
    changeStore fun s => { s with memory := some (kept.filter (·.1 != d.path)) }
    return kept.any (·.1 == d.path)
  | none =>
    match ← files (FileAction.unlink (s.store.place d).path) with
    | .ok () => return true
    | .error e => if e = Errno.noEntry then return false else throw (← fileError d e)

/-- Keeps the text of a document as that of another, if that is possible. -/
def backUp (d earlier : Document) : StoreAction Unit :=
  suppress do
    match ← readText d with
    | some text => writeText earlier text
    | none => return ()

end StoreAction

end CodeSurvey.Storage
