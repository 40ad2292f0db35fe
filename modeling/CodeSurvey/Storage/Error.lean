import CodeSurvey.Artifact.Kind
import CodeSurvey.Files.Errno
import CodeSurvey.Files.Name
import CodeSurvey.Glob.PathPattern
import CodeSurvey.Json.Reader
import CodeSurvey.Research.Session
import CodeSurvey.Time.Duration

/-!
# Errors of a store

Failed file operations are told in the words of users: the device is full, access is denied, or the
system's own text. Other errors say that a workspace could not be made ready, or that a document
holds what cannot be worked with.
-/

namespace CodeSurvey.Storage

open CodeSurvey.Files

/-- A file operation that failed: the number of the error, and the system's text if it is known. -/
structure SystemError where
  number : Int
  text : Option String
  deriving Repr, DecidableEq

/-- The error of a number, with the system's text. -/
def SystemError.ofErrno (e : Errno) : SystemError := ⟨e, some (Errno.text e)⟩

/-- The system's text, or the number where there is none. -/
def SystemError.reason (e : SystemError) : String :=
  match e.text with
  | none => "[Errno " ++ toString e.number ++ "] None"
  | some "" => "[Errno " ++ toString e.number ++ "] "
  | some text => text

/-- A file of a store that could not be read or written. -/
inductive StorageError where
  /-- The device is full; the name is that of the file. -/
  | diskFull (name : String)
  /-- Access to a path is denied. -/
  | permissionDenied (path : String)
  /-- An operation on a path failed for another reason. -/
  | failed (path reason : String)
  deriving Repr, DecidableEq

namespace StorageError

/-- What users are told of the error. -/
def message : StorageError → String
  | diskFull name => "Disk full: could not write " ++ name
  | permissionDenied path => "Permission denied: " ++ path
  | failed path reason => "Storage operation failed for " ++ path ++ ": " ++ reason

/-- The numbers of errors that say that access is denied in one way or another. -/
def permissionNumbers : List Int := [Errno.accessDenied, Errno.notPermitted, Errno.readOnly]

/-- What a failed operation on a path means to users. -/
def ofSystem (e : SystemError) (path : String) : StorageError :=
  if e.number = (Errno.noSpace : Int) then diskFull (baseName path)
  else if permissionNumbers.contains e.number then permissionDenied (plainPath path)
  else failed (plainPath path) e.reason

end StorageError

/-- A workspace that could not be made ready. -/
inductive InitError where
  /-- There is no such directory. -/
  | noWorkspace (root : String)
  /-- The control directory could not be made. -/
  | failed (directory reason : String)
  deriving Repr, DecidableEq

/-- What users are told of the error. -/
def InitError.message : InitError → String
  | noWorkspace root => "Workspace does not exist: " ++ root
  | failed directory reason => "Could not initialise " ++ directory ++ ": " ++ reason

/-- Why an operation on a store, or a scan, did not come to its end. -/
inductive StoreError where
  /-- A file could not be read or written. -/
  | storage (e : StorageError)
  /-- The workspace could not be made ready. -/
  | init (e : InitError)
  /-- A document is a value out of bounds. -/
  | outOfBounds (e : Json.ReadError)
  /-- A whole number of a document has more digits than are written. -/
  | longNumber
  /-- A finding has a category or relevance that cannot be looked up. -/
  | compoundName
  /-- A moment is beyond the calendar in universal time. -/
  | beyondCalendar
  /-- A brief cannot list what it is to list. -/
  | unlistable
  /-- A rule of the ignore file is no pattern. -/
  | pattern (e : Glob.PatternError)
  /-- Names that are to be kinds of artifacts made from the workspace are none. -/
  | unknownKinds (names : List String)
  /-- A name that is to be a kind of artifact is none. -/
  | unknownKind (name : String)
  /-- An engine cannot be waited for that long. -/
  | wait (e : Time.Seconds.WaitError)
  deriving Repr, DecidableEq

namespace StoreError

/-- The wording of an error that users are told. -/
def told? : StoreError → Option String
  | storage e => some e.message
  | init e => some e.message
  | _ => none

/-- The wording of an error about a wrong value. -/
def valueText? : StoreError → Option String
  | outOfBounds (.tooManyDigits n) => some (Json.ReadError.tooManyDigits n).message
  | longNumber =>
    some ("Exceeds the limit (" ++ toString Json.maxIntDigits ++ " digits) for integer " ++
      "string conversion; use sys.set_int_max_str_digits() to increase the limit")
  | unknownKinds names => some ("Unknown artifact kind(s): " ++ Text.join ", " names)
  | unknownKind name => some ("Unknown artifact kind: " ++ name)
  | wait .noNumber => some "Invalid value NaN (not a number)"
  | _ => none

end StoreError

end CodeSurvey.Storage
