import CodeSurvey.Docs.Client
import CodeSurvey.Proofs.Json.Reading
import CodeSurvey.Proofs.Text.Blanks

/-!
# When there is a document

A reply brings a body or is an error that users are told (`document_spec`). A body holds a document
if it is an object with a text that is not blank (`exists_ofBody_iff`). If it is no such object, or
no JSON at all, that is an error that users are told as well; the one exception are bodies that are
out of the reader's bounds (`ofBody_untold_iff`). A client that describes an artifact sends one
request at most and goes by its reply alone (`usable_answer_iff_document`).
-/

namespace CodeSurvey.Docs

open CodeSurvey.Artifact

/-! ## What is read of a body -/

/-- A body with a text: an object whose text is not blank. -/
def Tells (body markdown : String) : Prop :=
  ∃ members, Json.read body = .ok (.obj members) ∧
    Json.findMember "markdown" members = some (.str markdown) ∧
    ∃ c ∈ markdown.toList, Text.isBlank c = false

/-- A body that is out of the reader's bounds. -/
def OutOfBounds (body : String) : Prop :=
  ∃ e, Json.read body = .error e ∧ ∀ flaw place, e ≠ .malformed flaw place

variable {now kind body : String}

/-- A payload has a text if it is an object with one, which is not blank. -/
theorem markdown?_eq_some {payload : Json} {markdown : String} :
    Reply.markdown? payload = some markdown ↔
      ∃ members, payload = .obj members ∧
        Json.findMember "markdown" members = some (.str markdown) ∧
        ∃ c ∈ markdown.toList, Text.isBlank c = false := by
  have hstrip : (!(Text.strip markdown).isEmpty) = true ↔
      ∃ c ∈ markdown.toList, Text.isBlank c = false := by
    rw [Bool.not_eq_true', ← Bool.not_eq_true, String.isEmpty_iff, Text.strip,
      String.ofList_eq_empty_iff, Text.stripBlanks_eq_nil_iff]
    simp only [not_forall, Bool.not_eq_true, exists_prop]
  have hstr (j : Json) : j.str? = some markdown ↔ j = .str markdown := by
    cases j <;> simp [Json.str?]
  rw [Reply.markdown?, Option.filter_eq_some_iff, hstrip]
  cases payload with
  | obj members => simp [Json.getStr?, Json.get?, Option.bind_eq_some_iff, hstr]
  | _ => simp [Json.getStr?, Json.get?]

/-- A document is held by a body with a text, and the text is that of the body. -/
theorem exists_ofBody_iff {markdown : String} :
    (∃ d, Document.ofBody now kind body = .ok d ∧ d.markdown = markdown) ↔ Tells body markdown := by
  unfold Document.ofBody Tells
  cases hread : Json.read body with
  | error e => cases e <;> simp
  | ok payload =>
    have htext : Reply.markdown? payload = some markdown ↔ ∃ members, payload = .obj members ∧ _ :=
      markdown?_eq_some
    simp only [Except.ok.injEq, ← htext]
    cases Reply.markdown? payload <;> simp

/-- The only error that users are not told is a body out of bounds. -/
theorem ofBody_untold_iff :
    (∃ e, Document.ofBody now kind body = .error e ∧ e.message? = none) ↔ OutOfBounds body := by
  unfold Document.ofBody OutOfBounds
  cases hread : Json.read body with
  | error e => cases e <;> simp [DocumentError.message?]
  | ok payload =>
    cases hmarkdown : Reply.markdown? payload <;> simp [hmarkdown, DocumentError.message?]

/-! ## What a reply brings -/

/-- The body of an answer whose status is none of an error. -/
def Reply.body? : Reply → Option String
  | answer _ status _ body => if 400 ≤ status ∧ status ≤ 599 then none else some body
  | timedOut | failed _ => none

/-- A reply without a body is an error that users are told; else the document is that of the
body. -/
theorem document_spec (r : Reply) (now kind : String) :
    (∃ body, r.body? = some body ∧ r.document now kind = Document.ofBody now kind body) ∨
      r.body? = none ∧ ∃ e, r.document now kind = .error e ∧ e.message? ≠ none := by
  cases r with
  | timedOut => exact .inr ⟨rfl, _, rfl, nofun⟩
  | failed text => exact .inr ⟨rfl, _, rfl, nofun⟩
  | answer address status reason body =>
    unfold Reply.body? Reply.document errorStatus?
    by_cases herror : 400 ≤ status ∧ status ≤ 599
    · refine .inr ⟨if_pos herror, ?_⟩
      -- The error is blamed on the client or on the server.
      by_cases hclient : status < 500
      · simp only [herror, hclient, and_self, if_true]
        exact ⟨_, rfl, nofun⟩
      · have hserver : 500 ≤ status ∧ status < 600 := by omega
        simp only [hclient, hserver, and_false, and_self, if_true, if_false]
        exact ⟨_, rfl, nofun⟩
    · have hclient : ¬ (400 ≤ status ∧ status < 500) := by omega
      have hserver : ¬ (500 ≤ status ∧ status < 600) := by omega
      refine .inl ⟨body, if_neg herror, ?_⟩
      simp only [if_neg hclient, if_neg hserver]
      rfl

variable {r : Reply}

/-- A reply gives a document if it brings a body with a text. -/
theorem exists_document_iff {markdown : String} :
    (∃ d, r.document now kind = .ok d ∧ d.markdown = markdown) ↔
      ∃ body, r.body? = some body ∧ Tells body markdown := by
  rcases document_spec r now kind with ⟨body, hbody, hdocument⟩ | ⟨hbody, e, hdocument, -⟩
  · rw [hdocument, hbody, exists_ofBody_iff]
    simp
  · simp [hdocument, hbody]

/-- It gives an error that users are not told if it brings a body out of bounds. -/
theorem document_untold_iff :
    (∃ e, r.document now kind = .error e ∧ e.message? = none) ↔
      ∃ body, r.body? = some body ∧ OutOfBounds body := by
  rcases document_spec r now kind with ⟨body, hbody, hdocument⟩ | ⟨hbody, e, hdocument, htold⟩
  · rw [hdocument, hbody, ofBody_untold_iff]
    simp
  · simp [hdocument, hbody, htold]

/-! ## One request at most -/

/-- A kind of documentation is found by the name of its source. -/
theorem ofSourceName?_eq_some {k : DocsKind} :
    DocsKind.ofSourceName? kind = some k ↔ k.source.name = kind := by
  constructor
  · intro h
    have hname := List.find?_some h
    exact beq_iff_eq.1 hname
  · rintro rfl
    cases k <;> rfl

/-- Describing an artifact. Nothing is sent for a kind that is not described, and else one request,
whose reply is the only one that counts. There is a document if and only if the reply is an answer
without an error status whose body is an object with a text that is not blank, and the document has
this text. All else is an error that users are told, but for a body out of the reader's bounds. -/
theorem usable_answer_iff_document {c : Client} {transport : Request → Reply}
    {now kind content project : String} {sent : Option Request}
    {result : Except DocumentError Document}
    (h : c.generate transport now kind content project = (sent, result)) :
    (sent = none ↔ ∀ k : DocsKind, k.source.name ≠ kind) ∧
    (∀ request, sent = some request ↔
      ∃ k : DocsKind, k.source.name = kind ∧ request = c.documentRequest k content project) ∧
    (∀ other : Request → Reply,
      (∀ request, sent = some request → other request = transport request) →
        c.generate other now kind content project = (sent, result)) ∧
    (∀ markdown, (∃ d, result = .ok d ∧ d.markdown = markdown) ↔
      ∃ request body, sent = some request ∧ (transport request).body? = some body ∧
        Tells body markdown) ∧
    ((∃ e, result = .error e ∧ e.message? = none) ↔
      ∃ request body, sent = some request ∧ (transport request).body? = some body ∧
        OutOfBounds body) := by
  unfold Client.generate at h ⊢
  simp only [ne_eq, ← ofSourceName?_eq_some]
  -- Whether anything is sent is decided by the kind, before the transport is asked.
  cases hkind : DocsKind.ofSourceName? kind with
  | none =>
    rw [hkind] at h
    obtain ⟨rfl, rfl⟩ := Prod.mk.inj h
    simp [DocumentError.message?]
  | some k =>
    rw [hkind] at h
    obtain ⟨rfl, rfl⟩ := Prod.mk.inj h
    refine ⟨by simp, fun request => by simp [eq_comm], fun other hother => ?_, fun markdown => ?_,
      ?_⟩
    · dsimp only
      rw [hother _ rfl]
    · rw [exists_document_iff]
      simp
    · rw [document_untold_iff]
      simp

/-- A service without a key. -/
def client : Client := { endpoint := "http://docs.test" }

/-- A service that gives one answer to every request, with this body. -/
def answering (body : String) (_ : Request) : Reply := .answer "http://docs.test" 200 none body

/-- A body with a text that blanks surround, and nothing else. -/
def shopBody : String := (Json.obj [("markdown", .str " # Shop\n")]).stored

/-- The body tells its text. -/
theorem tells_shopBody : Tells shopBody " # Shop\n" := by
  refine ⟨_, Json.read_stored (.obj (by simp) ?_), by simp [Json.findMember], '#', by simp, ?_⟩
  · rintro m hm
    obtain rfl := List.mem_singleton.1 hm
    exact .str _
  · decide

/-- A service that answers with this page gives a document with its text. -/
theorem answer_with_text_gives_document : ∃ d,
    client.generate (answering shopBody) "now" "workflow" "\x7b\x7d" "shop" =
      (some (client.documentRequest .workflow "\x7b\x7d" "shop"), .ok d) ∧
    d.markdown = " # Shop\n" := by
  rcases h : client.generate (answering shopBody) "now" "workflow" "\x7b\x7d" "shop" with
    ⟨sent, result⟩
  obtain ⟨-, hsent, -, hdocument, -⟩ := usable_answer_iff_document h
  have hrequest := (hsent _).2 ⟨.workflow, rfl, rfl⟩
  obtain ⟨d, rfl, hd⟩ := (hdocument _).2 ⟨_, _, hrequest, rfl, tells_shopBody⟩
  exact ⟨d, by rw [hrequest], hd⟩

/-- A body that is a number with too many digits is out of bounds. -/
theorem outOfBounds_long : OutOfBounds (toString (10 ^ Json.maxIntDigits)) :=
  ⟨_, Json.read_long Json.toDigits_bound_long, fun _ _ => nofun⟩

/-- Its error is none that users are told. -/
theorem long_number_is_not_told : ∃ e,
    (client.generate (answering (toString (10 ^ Json.maxIntDigits))) "now" "summary" "\x7b\x7d"
      "shop").2 = .error e ∧ e.message? = none := by
  have hout := outOfBounds_long
  generalize toString (10 ^ Json.maxIntDigits) = body at hout ⊢
  have hbody : (Reply.answer "http://docs.test" 200 none body).body? = some body := rfl
  exact document_untold_iff.2 ⟨body, hbody, hout⟩

end CodeSurvey.Docs
