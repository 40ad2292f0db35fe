import CodeSurvey.Files.Walk
import CodeSurvey.Syntax.Source

/-!
# Parse sessions

A session parses each file once: what a path held when it was first asked for is what it is taken
to hold until the session is closed.
-/

namespace CodeSurvey.Syntax

/-- A source as a session handed it out, with the number of paths that were read before it. -/
structure Parsed where
  source : Source
  reading : Nat

/-- The paths that were asked for, with what was found, and how many were ever read. -/
structure Session where
  cached : List (String × Option Parsed)
  readings : Nat

namespace Session

/-- A session that was not asked for anything. -/
def empty : Session := ⟨[], 0⟩

/-- What a path holds now: nothing if it cannot be read, is too large or is of no language that is
parsed. -/
def readNow (w : Files.Workspace) (maxBytes : Int) (path : String) : Option Source :=
  (w.text? (Files.pathParts path) maxBytes).bind (Source.ofText? path)

/-- The source at a path. -/
def get (s : Session) (w : Files.Workspace) (maxBytes : Int) (path : String) :
    Option Parsed × Session :=
  match s.cached.find? (·.1 == path) with
  | some (_, found) => (found, s)
  | none =>
    let found := (readNow w maxBytes path).map fun source => ⟨source, s.readings⟩
    (found, ⟨(path, found) :: s.cached, s.readings + 1⟩)

/-- The sources at several paths, in order. -/
def getAll (w : Files.Workspace) (maxBytes : Int) :
    List String → Session → List (String × Option Source) × Session
  | [], s => ([], s)
  | path :: paths, s =>
    let (found, s) := s.get w maxBytes path
    let (rest, s) := getAll w maxBytes paths s
    ((path, found.map Parsed.source) :: rest, s)

/-- The number of paths that the session remembers. -/
def count (s : Session) : Nat := s.cached.length

/-- Closing forgets all paths. -/
def close (s : Session) : Session := { s with cached := [] }

end Session

end CodeSurvey.Syntax
