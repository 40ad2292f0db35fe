import CodeSurvey.Digest.Sha256
import CodeSurvey.Json.Basic
import CodeSurvey.Settings.Options

/-!
# Snapshots

The digests of the files of a workspace at a moment, and whether two snapshots tell that something
has changed: the number of files, the paths, or the content of a file.
-/

namespace CodeSurvey.Survey

open CodeSurvey.Files

/-- The digests of the files of a workspace. -/
structure Snapshot where
  /-- When it was taken. -/
  takenAt : String
  /-- The paths of the files with their digests. -/
  digests : List (String × String)
  fileCount : Nat
  deriving Repr, DecidableEq

namespace Snapshot

/-- The digest of a path. -/
def digest? (s : Snapshot) (path : String) : Option String :=
  (s.digests.find? (·.1 == path)).map (·.2)

/-- The digest of the file that a path leads to, if it can be read. -/
def digestAt? (w : Workspace) (p : Path) : Option String :=
  (w.bytes? p).map Digest.sha256

/-- The snapshot of the files of a workspace that are not ignored. -/
def take (takenAt : String) (w : Workspace) (limits : WalkLimits) (m : Ignore.Matcher) : Snapshot :=
  let digests := ((w.walk limits m).filter (!·.isDir)).filterMap fun e =>
    (digestAt? w e.parts).map fun d => (e.path, d)
  ⟨takenAt, digests, digests.length⟩

/-- Whether something has changed since an older snapshot; without one everything has. -/
def hasChanged (old : Option Snapshot) (new : Snapshot) : Bool :=
  match old with
  | none => true
  | some old =>
    old.fileCount != new.fileCount ||
      old.digests.any (fun d => (new.digest? d.1).isNone) ||
      new.digests.any fun d => old.digest? d.1 != some d.2

/-- The value of a snapshot. -/
def toJson (s : Snapshot) : Json :=
  .obj [("timestamp", .str s.takenAt),
    ("fileHashes", .obj (s.digests.map fun d => (d.1, .str d.2))),
    ("fileCount", Json.count s.fileCount)]

/-- The snapshot that a value describes, if it has all members and each is of its sort. -/
def ofJson? (j : Json) : Option Snapshot := do
  let takenAt ← j.getStr? "timestamp"
  let members ← (← j.get? "fileHashes").obj?
  let digests ← members.mapM fun m => m.2.str?.map fun d => (m.1, d)
  let fileCount ← (← j.get? "fileCount").count?
  return ⟨takenAt, digests, fileCount⟩

end Snapshot

end CodeSurvey.Survey
