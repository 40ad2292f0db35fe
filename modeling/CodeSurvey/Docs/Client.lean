import CodeSurvey.Artifact.Kind
import CodeSurvey.Json.Display
import CodeSurvey.Json.Reader
import CodeSurvey.Text.Blank
import CodeSurvey.Time.Duration

/-!
# The documentation service

The service describes an artifact in prose. This module says what is asked of it and what is made
of its answers: a document is an answer without an error status whose body is an object with a text
that is not blank.
-/

namespace CodeSurvey.Docs

open CodeSurvey.Artifact CodeSurvey.Time

/-- A document that the service wrote. -/
structure Document where
  markdown : String
  writtenAt : String
  deriving Repr, DecidableEq

/-- How the service is reached. -/
structure Client where
  endpoint : String
  /-- The key that is sent along, if there is one. -/
  key : Option String := none
  /-- How long an answer may take. -/
  timeout : Seconds := .fractional 120.0

/-- What is sent to the service. -/
structure Request where
  method : String
  endpoint : String
  headers : List (String × String)
  timeout : Seconds
  body : Option Json

/-- What comes back. -/
inductive Reply where
  /-- An answer from an address with a status, the words for it and a body. -/
  | answer (address : String) (status : Int) (reason : Option String) (body : String)
  /-- No answer came in time. -/
  | timedOut
  /-- The transport failed. -/
  | failed (text : String)
  deriving Repr, DecidableEq

/-- Why there is no document. -/
inductive DocumentError where
  /-- Artifacts of this kind are not described. -/
  | noDocumentType (kind : String)
  /-- No answer came in time. -/
  | timedOut (kind : String)
  /-- The request failed for a reason. -/
  | failed (kind reason : String)
  /-- The answer holds no text. -/
  | noMarkdown (kind : String)
  /-- The body is a value out of bounds. -/
  | outOfBounds (e : Json.ReadError)
  deriving Repr, DecidableEq

/-- The wording of an error, if it is one that users are told. -/
def DocumentError.message? : DocumentError → Option String
  | noDocumentType kind => some ("No documentation type for artifact kind '" ++ kind ++ "'")
  | timedOut kind => some ("Documentation request for " ++ kind ++ " timed out")
  | failed kind reason => some ("Documentation request for " ++ kind ++ " failed: " ++ reason)
  | noMarkdown kind => some ("Documentation API returned no markdown for " ++ kind)
  | outOfBounds _ => none

/-- The words for a status that is an error. -/
def errorStatus? (address : String) (status : Int) (reason : Option String) : Option String :=
  let side? :=
    if 400 ≤ status ∧ status < 500 then some "Client"
    else if 500 ≤ status ∧ status < 600 then some "Server"
    else none
  side?.map fun side =>
    toString status ++ " " ++ side ++ " Error: " ++ reason.getD "None" ++ " for url: " ++ address

namespace Client

/-- The headers of every request. -/
def headers (c : Client) : List (String × String) :=
  ("Content-Type", "application/json") ::
    match c.key with
    | none | some "" => []
    | some key => [("Authorization", "Bearer " ++ key)]

/-- The request that asks whether the service is there. -/
def availabilityRequest (c : Client) : Request :=
  ⟨"GET", c.endpoint, c.headers, .fractional 5.0, none⟩

/-- The request for a document about the content of an artifact. -/
def documentRequest (c : Client) (kind : DocsKind) (content project : String) : Request :=
  ⟨"POST", c.endpoint, c.headers, c.timeout,
    some (.obj [("type", .str kind.serviceWord), ("content", .str content),
      ("projectName", .str project)])⟩

end Client

namespace Reply

/-- Whether a reply shows that the service is there: an answer whose status blames no server. -/
def showsService : Reply → Bool
  | answer _ status _ _ => status < 500
  | timedOut | failed _ => false

/-- The text of a body that is an object with a text that is not blank. -/
def markdown? (payload : Json) : Option String :=
  (payload.getStr? "markdown").filter fun s => !(Text.strip s).isEmpty

/-- The moment that a body gives for its text, or else the present one. -/
def writtenAt (now : String) (payload : Json) : String :=
  let given := ["generatedAtUtc", "generatedAt"].filterMap fun key =>
    (payload.get? key).filter Json.isTruthy
  match given with
  | v :: _ => v.display
  | [] => now

end Reply

/-- The document about an artifact of some kind that a body holds. -/
def Document.ofBody (now kind body : String) : Except DocumentError Document :=
  match Json.read body with
  | .error (.malformed flaw place) =>
    .error (.failed kind (Json.ReadError.malformed flaw place).message)
  | .error e => .error (.outOfBounds e)
  | .ok payload =>
    match Reply.markdown? payload with
    | some markdown => .ok ⟨markdown, Reply.writtenAt now payload⟩
    | none => .error (.noMarkdown kind)

/-- The document about an artifact of some kind that a reply brings: that of its body, unless its
status is an error. -/
def Reply.document (now kind : String) : Reply → Except DocumentError Document
  | timedOut => .error (.timedOut kind)
  | failed text => .error (.failed kind text)
  | answer address status reason body =>
    match errorStatus? address status reason with
    | some text => .error (.failed kind text)
    | none => Document.ofBody now kind body

namespace Client

/-- What asking for a document comes to, where `transport` answers requests: the request that was
sent, if any, and the document. -/
def generate (c : Client) (transport : Request → Reply) (now kind content project : String) :
    Option Request × Except DocumentError Document :=
  match DocsKind.ofSourceName? kind with
  | none => (none, .error (.noDocumentType kind))
  | some k =>
    let request := c.documentRequest k content project
    (some request, (transport request).document now kind)

end Client

end CodeSurvey.Docs
