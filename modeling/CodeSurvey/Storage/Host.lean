import CodeSurvey.Files.Tree
import CodeSurvey.Time.Calendar

/-!
# The host

What a store works on: a file tree, a clock and a supply of names. Every file primitive may fail by
a schedule, which sees how many primitives there were before, what is done and on which path. A
primitive that fails changes nothing.
-/

namespace CodeSurvey.Storage

open CodeSurvey.Files

/-- What is done to a path. -/
inductive Primitive where
  /-- Asking whether a directory can be written to. -/
  | access
  /-- Making a directory, or making sure that it is there. -/
  | makeDir
  /-- Creating a temporary file, which is empty then. -/
  | create
  /-- Writing the text into a temporary file. -/
  | write
  /-- Making the device keep what was written. -/
  | sync
  /-- Moving a temporary file over its target. -/
  | replace
  /-- Reading a file. -/
  | read
  /-- Removing a file. -/
  | unlink
  deriving Repr, DecidableEq

/-- A primitive on a path. -/
structure Call where
  primitive : Primitive
  path : Path
  deriving Repr, DecidableEq

/-- The primitives that fail, by the number of those before, and how. -/
abbrev Faults := Nat → Call → Option Errno

/-- What a store works on. -/
structure Host where
  tree : Tree
  faults : Faults
  /-- The number of primitives so far. -/
  calls : Nat
  now : Time.Moment
  /-- The number of names drawn so far. -/
  ids : Nat
  /-- What every name begins with. -/
  idStart : String := "id-"

/-- No primitive fails. -/
def Faults.none : Faults := fun _ _ => Option.none

/-- The present moment as a text. -/
def Host.nowText (h : Host) : String := (h.now.universalText?).getD ""

/-- Whether reading the file at a path would fail at present. -/
def Host.unreadable (h : Host) (p : Path) : Bool := (h.faults h.calls ⟨.read, p⟩).isSome

/-- File operations that may fail, each of one or several primitives. -/
abbrev FileAction := ExceptT Errno (StateM Host)

namespace FileAction

/-- A primitive by the schedule: it is counted, and fails if it is to fail. -/
def check (c : Call) : FileAction Unit := do
  let h ← get
  set { h with calls := h.calls + 1 }
  match h.faults h.calls c with
  | some e => throw e
  | none => return ()

/-- The effect of a primitive on the tree. -/
def effect {α : Type} (f : Tree → Except Errno (α × Tree)) : FileAction α := do
  match f (← get).tree with
  | .error e => throw e
  | .ok (a, tree) =>
    modify fun h => { h with tree }
    return a

/-- One primitive: it fails by the schedule or by its effect, and else changes the tree. -/
def call {α : Type} (c : Call) (f : Tree → Except Errno (α × Tree)) : FileAction α := do
  check c
  effect f

/-- A primitive that only changes the tree. -/
def change (c : Call) (f : Tree → Except Errno Tree) : FileAction Unit :=
  call c fun t => (f t).map fun t => ((), t)

/-- An operation, or nothing if it fails. -/
def suppress (a : FileAction Unit) : FileAction Unit := tryCatch a fun _ => pure ()

/-- The bytes of a file. -/
def read (p : Path) : FileAction ByteArray :=
  call ⟨.read, p⟩ fun t => (t.bytes p).map fun b => (b, t)

/-- Removes a file. -/
def unlink (p : Path) : FileAction Unit := change ⟨.unlink, p⟩ fun t => t.unlink p

/-- The tree with a directory at a path; that there is one already is no failure. -/
def withDir (p : Path) (t : Tree) : Except Errno Tree :=
  match t.makeDir p with
  | .ok t => .ok t
  | .error e => if e ≠ Errno.noEntry ∧ t.isDir p then .ok t else .error e

/-- Makes one directory. -/
def makeDir (p : Path) : FileAction Unit := change ⟨.makeDir, p⟩ (withDir p)

/-- Makes a directory and the missing ones above it. -/
def makeDirs (p : Path) : FileAction Unit := do
  check ⟨.makeDir, p⟩
  match withDir p (← get).tree with
  | .ok tree => modify fun h => { h with tree }
  | .error e =>
    if _h : e ≠ Errno.noEntry ∨ p = [] then throw e
    else do
      makeDirs p.dropLast
      makeDir p
termination_by p.length
decreasing_by
  have := List.length_pos_iff.2 fun h => _h (.inr h)
  simp only [List.length_dropLast]
  omega

/-- The path of the temporary file beside a file. -/
def temporary (p : Path) : Path :=
  match p.getLast? with
  | some name => p.dropLast ++ [name ++ ".tmp"]
  | none => [".tmp"]

/-- Writes a file by way of a temporary one. -/
def writeThrough (p : Path) (text : String) : FileAction Unit := do
  makeDirs p.dropLast
  change ⟨.create, temporary p⟩ fun t => t.write (temporary p) ByteArray.empty
  change ⟨.write, temporary p⟩ fun t => t.write (temporary p) text.toUTF8
  change ⟨.sync, temporary p⟩ .ok
  change ⟨.replace, p⟩ fun t => t.rename (temporary p) p

/-- Writes a file whole or not at all: when a step fails, the temporary file is removed if that is
possible. -/
def writeWhole (p : Path) (text : String) : FileAction Unit :=
  tryCatch (writeThrough p text) fun e => do
    suppress (unlink (temporary p))
    throw e

/-- Whether a directory can be written to. -/
def isWritable (p : Path) : FileAction Bool :=
  tryCatch (do change ⟨.access, p⟩ .ok; return true) fun _ => return false

end FileAction

end CodeSurvey.Storage
