import CodeSurvey.Proofs.Scan.Stage
import CodeSurvey.Proofs.Storage.Failure
import CodeSurvey.Proofs.Storage.Succession
import CodeSurvey.Scan.Documentation

/-!
# What becomes of the documents of a scan

The documentation pass describes the complete artifacts of a report one after the other. What it did
for one of them is an account, and it goes from one account to the next (`Describes`) until it ends
or an error is thrown (`run_documentation`).

A document that was stored is read back after the pass if the time that it was written at is a
moment, and only then (`Describes.readsBack`); otherwise the next one starts at the first version
again. A client takes this time from the body of an answer as it is, whatever it says
(`undated_document_is_not_read_back`).
-/

namespace CodeSurvey.Scan

open CodeSurvey.Artifact CodeSurvey.Storage
open CodeSurvey.Time (Moment)
open Artifacts (IsNext)
open State (Moves)

/-! ## The service of a client -/

/-- What is said about a document that could not be had. -/
def failureOf : Docs.DocumentError → Failure
  | .outOfBounds e => ⟨e.message, "ValueError"⟩
  | e => ⟨e.message?.getD "", "DocumentationError"⟩

/-- The service that a client asks, where `transport` answers requests. -/
def serviceOf (c : Docs.Client) (transport : Docs.Request → Docs.Reply) (now : String) :
    DocsService where
  isThere := .ok (transport c.availabilityRequest).showsService
  describe k content project :=
    (c.generate transport now k.source.name content project).2.mapError failureOf

/-- A document of this service is one that the client was given. -/
theorem generate_of_describe {c : Docs.Client} {transport : Docs.Request → Docs.Reply}
    {now content project : String} {k : DocsKind} {d : Docs.Document}
    (h : (serviceOf c transport now).describe k content project = .ok d) :
    (c.generate transport now k.source.name content project).2 = .ok d := by
  change (c.generate transport now k.source.name content project).2.mapError failureOf = .ok d at h
  cases hgenerate : (c.generate transport now k.source.name content project).2 with
  | error e =>
    rw [hgenerate] at h
    cases h
  | ok d' =>
    rw [hgenerate] at h
    obtain rfl := Except.ok.inj h
    rfl

/-! ## Accounts -/

/-- What is noted when an artifact of a kind was to be stored. -/
def storageErrors (k : Kind) : Except StoreError Stored → List StageError
  | .ok _ => []
  | .error e => [⟨k.name, "Storage failed: " ++ e.told?.getD ""⟩]

/-- What was done to describe an artifact. -/
structure Account where
  kind : DocsKind
  /-- The artifact, and the store before its document was stored. -/
  source : Made
  before : State
  answer : Except Failure Docs.Document
  stored : Except StoreError Stored

/-- The artifact that is made of the answer about another one. -/
def madeOf (k : DocsKind) (source : Made) (now : String) : Except Failure Docs.Document → Made
  | .ok d =>
    { kind := .docs k, content := d.markdown, madeAt := d.writtenAt, fileCount := source.fileCount }
  | .error f =>
    placeholder (.docs k) ("# Documentation Generation Failed\n\n" ++ f.text ++ "\n") now

namespace Account

/-- The artifact that is stored. -/
def made (t : Account) : Made := madeOf t.kind t.source t.before.host.nowText t.answer

/-- What is noted: why there is no document, and then why it was not stored. -/
def errors (t : Account) : List StageError :=
  (match t.answer with
    | .ok _ => []
    | .error f => [⟨(Kind.docs t.kind).name, f.message⟩]) ++
  storageErrors (.docs t.kind) t.stored

/-- The documents of a store that may be changed. -/
def changed (t : Account) : List Document :=
  [.previous (.docs t.kind), .artifact (.docs t.kind)]

/-- What an observer is told before an artifact is described. -/
def progress (t : Account) : Progress :=
  ⟨(Kind.docs t.kind).name, 100, "Generating " ++ t.kind.source.name ++ " documentation"⟩

/-- What is thrown on: the error by which storing failed, if users are not told of it. -/
def thrown? (t : Account) : Option StoreError :=
  match t.stored with
  | .ok _ => none
  | .error e => if e.told?.isSome then none else some e

/-- What is made of an answer is a document of the kind of the account. -/
theorem made_kind (t : Account) : t.made.kind = .docs t.kind := by
  unfold made madeOf
  cases t.answer <;> rfl

end Account

/-- A report with what some accounts add to it. -/
def Report.withAccounts (r : Report) (project : String) (ts : List Account) : Report :=
  { r with
    artifacts := r.artifacts ++ ts.map Account.made
    errors := r.errors ++ ts.flatMap Account.errors
    progress := r.progress ++ ts.map Account.progress
    described := r.described ++ ts.map fun t => (t.kind, project) }

/-- How accounts that are to be of some kinds end: there is one of each kind and all of them are
added to a report, or the last one throws an error on. -/
def Accounted (r : Report) (project : String) (ks : List DocsKind) (ts : List Account) :
    Except StoreError Report → Prop
  | .ok r' => ts.map Account.kind = ks ∧ (∀ t ∈ ts, t.thrown? = none) ∧
      r' = r.withAccounts project ts
  | .error e => ts.map Account.kind <+: ks ∧ ∃ before last, ts = before ++ [last] ∧
      (∀ t ∈ before, t.thrown? = none) ∧ last.thrown? = some e

/-- The complete artifact of a kind in a report. -/
def Report.complete? (r : Report) (k : CoreKind) : Option Made :=
  (r.core? k).filter (!·.incomplete)

/-- The accounts that the pass goes through for the artifacts of a report, with the store in the
beginning and in the end. -/
inductive Describes (service : DocsService) (project : String) (r : Report) :
    List Account → State → State → Prop
  | nil (s : State) : Describes service project r [] s s
  | cons {t : Account} {ts : List Account} {s s' : State}
      (source : r.complete? t.kind.source = some t.source)
      (answer : service.describe t.kind t.source.content project = t.answer)
      (store : (Artifacts.store t.made).run t.before = (t.stored, s))
      (rest : Describes service project r ts s s') :
      Describes service project r (t :: ts) t.before s'

variable {service : DocsService} {project : String} {p : Plan} {r r' : Report} {site : Site}
  {s s' : State} {ts : List Account}

/-- An account with those before and after it. -/
theorem Describes.at (h : Describes service project r ts s s') {t : Account} (ht : t ∈ ts) :
    ∃ before after s₁, ts = before ++ t :: after ∧
      Describes service project r before s t.before ∧
      r.complete? t.kind.source = some t.source ∧
      service.describe t.kind t.source.content project = t.answer ∧
      (Artifacts.store t.made).run t.before = (t.stored, s₁) ∧
      Describes service project r after s₁ s' := by
  -- By the accounts up to this one.
  induction h with
  | nil => cases ht
  | cons hsource hanswer hstore hrest ih =>
    rcases List.mem_cons.1 ht with rfl | ht
    · exact ⟨[], _, _, rfl, .nil _, hsource, hanswer, hstore, hrest⟩
    · obtain ⟨before, after, s₁, rfl, hbefore, hturn⟩ := ih ht
      exact ⟨_ :: before, after, s₁, rfl, .cons hsource hanswer hstore hbefore, hturn⟩

/-! ## The run of the pass -/

/-- A document is no artifact made from the workspace. -/
theorem Report.core?_withAccounts (r : Report) (project : String) (ts : List Account) :
    (r.withAccounts project ts).core? = r.core? := by
  funext k
  have hnone : (ts.map Account.made).find? (·.kind == .core k) = none := by
    rw [List.find?_eq_none]
    rintro m hm
    obtain ⟨t, -, rfl⟩ := List.mem_map.1 hm
    rw [t.made_kind]
    exact Bool.false_ne_true
  unfold withAccounts core?
  rw [List.find?_append, hnone, Option.or_none]

/-- Accounts add what the first one adds and then what the others add. -/
theorem Report.withAccounts_cons (r : Report) (project : String) (t : Account)
    (ts : List Account) :
    (r.withAccounts project [t]).withAccounts project ts = r.withAccounts project (t :: ts) := by
  simp [withAccounts]

/-- No accounts add nothing. -/
theorem Report.withAccounts_nil (r : Report) (project : String) :
    r.withAccounts project [] = r := by
  simp [withAccounts]

/-- What one account adds. -/
theorem Report.withAccounts_singleton (r : Report) (project : String) (t : Account) :
    r.withAccounts project [t] =
      { r with
        artifacts := r.artifacts ++ [t.made]
        errors := r.errors ++ t.errors
        progress := r.progress ++ [t.progress]
        described := r.described ++ [(t.kind, project)] } := by
  simp [withAccounts]

/-- However accounts end, they are of the first ones of the kinds. -/
theorem Accounted.kinds {ks : List DocsKind} {res : Except StoreError Report}
    (h : Accounted r project ks ts res) : ts.map Account.kind <+: ks := by
  cases res with
  | ok r' => exact h.1 ▸ List.prefix_refl _
  | error e => exact h.1

/-- An account that throws nothing on comes before others. -/
theorem Accounted.cons {t : Account} {ks : List DocsKind} {res : Except StoreError Report}
    (hnone : t.thrown? = none) (h : Accounted (r.withAccounts project [t]) project ks ts res) :
    Accounted r project (t.kind :: ks) (t :: ts) res := by
  cases res with
  | ok r' =>
    obtain ⟨hkinds, hall, rfl⟩ := h
    exact ⟨congrArg _ hkinds, List.forall_mem_cons.2 ⟨hnone, hall⟩,
      r.withAccounts_cons project t ts⟩
  | error e =>
    obtain ⟨hkinds, before, last, rfl, hbefore, hlast⟩ := h
    exact ⟨List.cons_prefix_cons.2 ⟨rfl, hkinds⟩, t :: before, last, rfl,
      List.forall_mem_cons.2 ⟨hnone, hbefore⟩, hlast⟩

/-- An artifact that is not there, or not complete, is not described. -/
theorem run_describe_of_none {k : DocsKind} (h : r.complete? k.source = none) (s : State) :
    (describe p service project k r).run s = (.ok r, s) := by
  unfold Report.complete? at h
  unfold describe
  rw [h]
  rfl

/-- What storing the artifact of an account adds to a report. -/
theorem Report.noting_eq (r : Report) (t : Account) :
    r.noting t.made t.stored = match t.thrown? with
      | none => .ok { r with errors := r.errors ++ storageErrors (.docs t.kind) t.stored }
      | some e => .error e := by
  unfold noting Account.thrown? storageErrors
  cases t.stored with
  | ok e => simp
  | error e =>
    dsimp only
    cases htold : e.told? with
    | none => rfl
    | some text => simp [Report.addError, t.made_kind]

/-- A complete artifact is described and its document is stored. The account of it is added to the
report, unless it throws an error on. -/
theorem run_describe {t : Account} (hsource : r.complete? t.kind.source = some t.source)
    (hanswer : service.describe t.kind t.source.content project = t.answer)
    (hstore : (Artifacts.store t.made).run t.before = (t.stored, s)) :
    (describe p service project t.kind r).run t.before = (match t.thrown? with
      | none => .ok (r.withAccounts project [t])
      | some e => .error e, s) := by
  unfold Report.complete? at hsource
  unfold describe
  rw [hsource]
  -- Only the part of the report before storing depends on the answer.
  have hstored : ∀ r₁ : Report,
      { r₁ with
        artifacts := r₁.artifacts ++ [t.made]
        errors := r₁.errors ++ storageErrors (.docs t.kind) t.stored } =
          r.withAccounts project [t] →
      (do
        let r₂ ← storeNoted t.made r₁
        return r₂.addArtifact t.made : StoreAction Report).run t.before = (match t.thrown? with
          | none => .ok (r.withAccounts project [t])
          | some e => .error e, s) := by
    intro r₁ hr₁
    rw [run_bind, run_storeNoted_eq hstore, Report.noting_eq, ← hr₁]
    cases t.thrown? <;> rfl
  dsimp only
  have hnow : StoreAction.nowText.run t.before = (.ok t.before.host.nowText, t.before) := rfl
  rw [run_bind, hnow]
  dsimp only
  rw [Report.tell_eq, hanswer]
  have hmade : t.made = madeOf t.kind t.source t.before.host.nowText t.answer := rfl
  cases hcase : t.answer with
  | ok d =>
    have herrors : t.errors = storageErrors (.docs t.kind) t.stored := by
      rw [Account.errors, hcase, List.nil_append]
    rw [hcase] at hmade
    rw [hmade] at hstored
    exact hstored _ (by rw [Report.withAccounts_singleton, herrors, hmade]; rfl)
  | error f =>
    have herrors : t.errors =
        [⟨(Kind.docs t.kind).name, f.message⟩] ++ storageErrors (.docs t.kind) t.stored := by
      rw [Account.errors, hcase]
    rw [hcase] at hmade
    rw [hmade] at hstored
    refine hstored _ ?_
    rw [Report.withAccounts_singleton, herrors, hmade, ← List.append_assoc]
    rfl

/-- Describing the artifacts of some kinds goes through an account for each complete one, in their
order, until an error is thrown on. -/
theorem run_describeAll (p : Plan) (service : DocsService) (project : String) (ks : List DocsKind)
    {r₀ : Report} (hcore : r.core? = r₀.core?) (s : State) :
    ∃ ts res s', Describes service project r₀ ts s s' ∧
      (describeAll p service project ks r).run s = (res, s') ∧
      Accounted r project (ks.filter fun k => (r₀.complete? k.source).isSome) ts res := by
  -- By the kinds that are left: the report after the first one has the same artifacts to describe.
  induction ks generalizing r s with
  | nil =>
    exact ⟨[], .ok r, s, .nil s, rfl, rfl, by simp, (r.withAccounts_nil project).symm⟩
  | cons k ks ih =>
    have hcomplete : r.complete? k.source = r₀.complete? k.source := by
      rw [Report.complete?, Report.complete?, hcore]
    unfold describeAll
    rw [run_bind]
    cases hsource : r₀.complete? k.source with
    | none =>
      rw [run_describe_of_none (hcomplete.trans hsource),
        List.filter_cons_of_neg (by simp [hsource])]
      exact ih hcore s
    | some source =>
      rw [List.filter_cons_of_pos (by simp [hsource])]
      rcases hstore : (Artifacts.store (madeOf k source s.host.nowText
        (service.describe k source.content project))).run s with ⟨stored, s₁⟩
      obtain ⟨t, rfl, rfl, rfl, hanswer, rfl⟩ : ∃ t : Account, t.kind = k ∧ t.source = source ∧
          t.before = s ∧ service.describe k source.content project = t.answer ∧ t.stored = stored :=
        ⟨⟨k, source, s, _, stored⟩, rfl, rfl, rfl, rfl, rfl⟩
      rw [hanswer] at hstore
      rw [run_describe (hcomplete.trans hsource) hanswer hstore]
      cases hthrown : t.thrown? with
      | some e =>
        -- The error is thrown on, and nothing follows.
        exact ⟨[t], .error e, s₁, .cons hsource hanswer hstore (.nil s₁), rfl,
          List.cons_prefix_cons.2 ⟨rfl, List.nil_prefix⟩, [], t, rfl, by simp, hthrown⟩
      | none =>
        obtain ⟨ts, res, s', hdescribes, hrun, haccounted⟩ :=
          ih ((r.core?_withAccounts project [t]).trans hcore) s₁
        exact ⟨t :: ts, res, s', .cons hsource hanswer hstore hdescribes, hrun,
          haccounted.cons hthrown⟩

/-- A pass whose service is there describes the artifacts under the name that it has for the
project. -/
theorem run_documentation_of_isThere (p : Plan) (hthere : service.isThere = .ok true) (r : Report)
    (s : State) :
    (documentation p service r).run s = match projectName (workspaceOf s).name r with
      | .ok project => (describeAll p service project DocsKind.all r).run s
      | .error e => (.error (.outOfBounds e), s) := by
  unfold documentation
  rw [hthere]
  dsimp only
  rw [run_bind, run_get]
  dsimp only
  cases projectName (workspaceOf s).name r <;> rfl

/-- A pass whose service is not there notes that. -/
theorem run_documentation_of_not_isThere (p : Plan) (hnot : service.isThere ≠ .ok true)
    (r : Report) (s : State) :
    (documentation p service r).run s =
      (.ok (r.addError (Kind.docs .summary).name serviceMissing), s) := by
  unfold documentation
  split
  · rename_i hthere
    exact absurd hthere hnot
  · rfl

/-- The pass goes through an account for each complete artifact until an error is thrown on. It
does not begin if the service is not there, or if the name of the project cannot be read. -/
theorem run_documentation {res : Except StoreError Report}
    (h : (documentation p service r).run s = (res, s')) :
    ∃ project ts, Describes service project r ts s s' ∧
      (ts.map Account.kind).Sublist DocsKind.all ∧
      ∀ r', res = .ok r' → service.isThere = .ok true →
        ts.map Account.kind = DocsKind.all.filter (fun k => (r.complete? k.source).isSome) ∧
        r'.errors = r.errors ++ ts.flatMap Account.errors := by
  -- The service is asked first, then the name is read; if one of them fails there are no accounts.
  by_cases hthere : service.isThere = .ok true
  · rw [run_documentation_of_isThere p hthere] at h
    cases hproject : projectName (workspaceOf s).name r with
    | error e =>
      rw [hproject] at h
      obtain ⟨rfl, rfl⟩ := Prod.mk.inj h
      exact ⟨"", [], .nil s, List.nil_sublist _, fun r' hr => by cases hr⟩
    | ok project =>
      rw [hproject] at h
      obtain ⟨ts, res', s₁, hdescribes, hrun, haccounted⟩ :=
        run_describeAll p service project DocsKind.all (r := r) rfl s
      obtain ⟨rfl, rfl⟩ := Prod.mk.inj (hrun.symm.trans h)
      refine ⟨project, ts, hdescribes, haccounted.kinds.sublist.trans List.filter_sublist, ?_⟩
      rintro r' rfl -
      obtain ⟨hkinds, -, rfl⟩ := haccounted
      exact ⟨hkinds, rfl⟩
  · rw [run_documentation_of_not_isThere p hthere] at h
    obtain ⟨rfl, rfl⟩ := Prod.mk.inj h
    exact ⟨"", [], .nil s, List.nil_sublist _, fun r' _ hyes => absurd hyes hthere⟩

/-! ## What the accounts change -/

/-- An account changes documents of its kind only. -/
theorem Account.moves {t : Account} (hs : t.before.Sited site) (hready : t.before.store.isReady)
    (hstore : (Artifacts.store t.made).run t.before = (t.stored, s)) :
    Moves site t.changed t.before s := by
  have hspec := (Artifacts.store_ready_spec hs hready t.made).of_run hstore
  rw [t.made_kind] at hspec
  unfold changed
  cases hstored : t.stored with
  | ok e =>
    rw [hstored] at hspec
    exact hspec.2.1
  | error e =>
    rw [hstored] at hspec
    exact Moves.mono hspec (by simp)

/-- Accounts change documents of their kinds only. -/
theorem Describes.moves (hs : s.Sited site) (hready : s.store.isReady)
    (h : Describes service project r ts s s') : Moves site (ts.flatMap Account.changed) s s' := by
  -- By the accounts, each of which leaves the store ready and at its site for the next one.
  induction h with
  | nil => exact .refl _
  | cons _ _ hstore hrest ih =>
    have hm := Account.moves hs hready hstore
    have hm' := ih (hm.sited hs) (hm.mode hready).1
    rw [List.flatMap_cons]
    exact (hm.mono (List.subset_append_left _ _)).trans (hm'.mono (List.subset_append_right _ _))

/-- The artifact of a kind without an account is not changed. -/
theorem artifact_notMem_accounts {k : DocsKind} (h : k ∉ ts.map Account.kind) :
    .artifact (.docs k) ∉ ts.flatMap Account.changed := by
  intro hmem
  obtain ⟨t, ht, hchanged⟩ := List.mem_flatMap.1 hmem
  simp only [Account.changed, List.mem_cons, reduceCtorEq, Document.artifact.injEq, Kind.docs.injEq,
    List.not_mem_nil, or_false, false_or] at hchanged
  exact h (hchanged ▸ List.mem_map_of_mem ht)

/-! ## Reading documents back -/

/-- The record that a document is read back as: the one that was stored if it was written at a
moment, and none otherwise. -/
def readable? (d : Docs.Document) (e : Stored) : Option Stored :=
  if (Moment.ofText? d.writtenAt).isSome then some e else none

/-- What is there of a document that was stored as a record: it is read back if it was written at a
moment, and the next document of its kind follows what is read back. -/
structure ReadsBack (k : DocsKind) (d : Docs.Document) (e : Stored) (s : State) : Prop where
  kind : e.kind = .docs k
  content : e.content = d.markdown
  madeAt : e.metadata.madeAt = d.writtenAt
  record : s.record? (.artifact (.docs k)) = readable? d e
  /-- Unless its file cannot be read. -/
  load : s.LetsRead (.artifact (.docs k)) →
    Ends (Artifacts.load (.docs k)) s fun res _ => res = .ok (readable? d e)
  next : s.LetsRead (.artifact (.docs k)) → ∀ m : Made, m.kind = .docs k →
    Ends (Artifacts.store m) s fun res _ => ∀ e', res = .ok e' → IsNext m (readable? d e) e'

/-- What the value of a document's record is taken for. -/
theorem ofJson?_toJson_of_madeAt {d : Docs.Document} {e : Stored}
    (hmadeAt : e.metadata.madeAt = d.writtenAt) (hfiles : 0 ≤ e.metadata.fileCount)
    (herrors : 0 ≤ e.metadata.errorCount) : Stored.ofJson? e.toJson = readable? d e := by
  unfold readable?
  by_cases hmoment : (Moment.ofText? d.writtenAt).isSome
  · rw [if_pos hmoment]
    exact Stored.ofJson?_toJson ⟨by rwa [hmadeAt], hfiles, herrors⟩
  · rw [if_neg hmoment]
    refine Stored.ofJson?_toJson_eq_none ?_
    rw [hmadeAt]
    simpa using hmoment

/-- A document of the pass that was stored is read back after the pass if it was written at a
moment. -/
theorem Describes.readsBack (hs : s.Sited site) (hready : s.store.isReady)
    (hcounts : ∀ k source, r.core? k = some source → 0 ≤ source.fileCount)
    (h : Describes service project r ts s s') (hnodup : (ts.map Account.kind).Nodup) {t : Account}
    (ht : t ∈ ts) {d : Docs.Document} (hd : t.answer = .ok d) {e : Stored}
    (he : t.stored = .ok e) : ReadsBack t.kind d e s' := by
  obtain ⟨before, after, s₁, rfl, hbefore, hsource, -, hstore, hafter⟩ := h.at ht
  -- The accounts before leave the store ready, and those after leave the document.
  have hm := hbefore.moves hs hready
  have hs' := hm.sited hs
  have hready' := (hm.mode hready).1
  have hspec := (Artifacts.store_ready_spec hs' hready' t.made).of_run hstore
  rw [he, t.made_kind] at hspec
  obtain ⟨⟨id, former, -, hrecord⟩, hm₁, hholds, hshort⟩ := hspec
  have hs₁ := hm₁.sited hs'
  have hready₁ := (hm₁.mode hready').1
  have hm' := hafter.moves hs₁ hready₁
  have hs₂ := hm'.sited hs₁
  have hready₂ := (hm'.mode hready₁).1
  have hother : t.kind ∉ after.map Account.kind := by
    rw [List.map_append, List.map_cons, List.nodup_append, List.nodup_cons] at hnodup
    exact hnodup.2.1.1
  have hkept :=
    (hm'.holds_iff (hm'.mode hready₁).2 (artifact_notMem_accounts hother) _).2 hholds
  -- The record is that of the document, with the count of the artifact that it describes.
  have hmade : t.made = madeOf t.kind t.source t.before.host.nowText (.ok d) := by
    rw [Account.made, hd]
  rw [hmade] at hrecord
  have hfiles : 0 ≤ t.source.fileCount :=
    hcounts t.kind.source t.source (Option.filter_eq_some_iff.1 hsource).1
  have hvalue : Stored.ofJson? e.toJson = readable? d e := by
    rw [hrecord]
    exact ofJson?_toJson_of_madeAt rfl hfiles (Int.le_refl 0)
  have hload : s'.LetsRead (.artifact (.docs t.kind)) →
      Ends (Artifacts.load (.docs t.kind)) s' fun res _ => res = .ok (readable? d e) := by
    intro hread
    have hloaded := Artifacts.loadFrom_of_text hs₂ hready₂ hkept hshort hread
    rwa [hvalue] at hloaded
  exact {
    kind := by rw [hrecord]; rfl
    content := by rw [hrecord]; rfl
    madeAt := by rw [hrecord]; rfl
    record := by rw [State.record?, State.value?_of_holds hkept hshort, Option.bind_some, hvalue]
    load := hload
    next := by
      intro hread m hm
      refine Artifacts.store_follows hs₂ hready₂ ?_
      rw [hm]
      exact hload hread }

/-- Each kind is described once. -/
theorem nodup_docsKinds : DocsKind.all.Nodup := by decide

/-- What a scan's documentation pass with a client stores is read back if it was written at a
moment: every document that the client was given and that was stored, whatever the other accounts
of the pass came to. -/
theorem documents_read_back_if_dated {c : Docs.Client} {transport : Docs.Request → Docs.Reply}
    {now : String} {res : Except StoreError Report} (hs : s.Sited site) (hready : s.store.isReady)
    (hcounts : ∀ k source, r.core? k = some source → 0 ≤ source.fileCount)
    (hrun : (documentation p (serviceOf c transport now) r).run s = (res, s')) :
    ∃ project ts, Describes (serviceOf c transport now) project r ts s s' ∧
      (ts.map Account.kind).Sublist DocsKind.all ∧
      (∀ r', res = .ok r' → (transport c.availabilityRequest).showsService →
        ts.map Account.kind = DocsKind.all.filter (fun k => (r.complete? k.source).isSome) ∧
        r'.errors = r.errors ++ ts.flatMap Account.errors) ∧
      ∀ t ∈ ts, ∀ d e, t.answer = .ok d → t.stored = .ok e →
        (c.generate transport now t.kind.source.name t.source.content project).2 = .ok d ∧
        ReadsBack t.kind d e s' := by
  obtain ⟨project, ts, hdescribes, hkinds, hok⟩ := run_documentation hrun
  refine ⟨project, ts, hdescribes, hkinds, fun r' hr hshows => ?_, fun t ht d e hd he => ⟨?_, ?_⟩⟩
  · exact hok r' hr (congrArg Except.ok hshows)
  · obtain ⟨_, _, _, -, -, -, hanswer, -, -⟩ := hdescribes.at ht
    exact generate_of_describe (hanswer.trans hd)
  · exact hdescribes.readsBack hs hready hcounts (nodup_docsKinds.sublist hkinds) ht hd he

/-! ## An answer with a time and one without -/

/-- What a client makes of an answer that is always the same. -/
theorem generate_answer {c : Docs.Client} {reply : Docs.Reply} {now content project : String}
    (k : DocsKind) : (c.generate (fun _ => reply) now k.source.name content project).2 =
      reply.document now k.source.name := by
  cases k <;> rfl

/-- An account of which nothing is noted is that of a document that was stored. -/
theorem Account.stored_of_errors {t : Account} (h : t.errors = []) :
    ∃ d e, t.answer = .ok d ∧ t.stored = .ok e := by
  unfold errors storageErrors at h
  cases hanswer : t.answer with
  | error f => simp [hanswer] at h
  | ok d =>
    cases hstored : t.stored with
    | error e => simp [hanswer, hstored] at h
    | ok e => exact ⟨d, e, rfl, rfl⟩

/-- An answer with a document that was written at a time. -/
def answerAt (time : String) : Docs.Reply :=
  .answer "http://docs.test" 200 none
    ("\x7b\"markdown\":\"# x\",\"generatedAtUtc\":\"" ++ time ++ "\"\x7d")

/-- A service that is asked by a client and gives this answer to every request. -/
def serviceAt (time : String) : DocsService :=
  serviceOf { endpoint := "http://docs.test" } (fun _ => answerAt time) "2024-05-01T12:00:00.000Z"

/-- A report with a summary. -/
def withSummary : Report :=
  { artifacts := [{ kind := .core .summary, content := "\x7b\x7d", madeAt := "" }] }

/-- The pass for this report in a workspace without artifacts. -/
def passAt (time : String) : Except StoreError Report × State :=
  (documentation {} (serviceAt time) withSummary).run (State.withEntries [] Faults.none)

/-- The pass ends with this result, in this state. -/
theorem run_passAt (time : String) :
    (documentation {} (serviceAt time) withSummary).run (State.withEntries [] Faults.none) =
      ((passAt time).1, (passAt time).2) := by
  rw [Prod.mk.eta, passAt]

/-- The workspace has no links, and the counts of the report are not negative. -/
theorem sited_passAt :
    (State.withEntries [] Faults.none).Sited ⟨[], [], ["ws", ".contextscan"]⟩ ∧
    ∀ k source, withSummary.core? k = some source → 0 ≤ source.fileCount := by
  refine ⟨State.sited_withEntries (by decide) (by simp), fun k source hsource => ?_⟩
  have hmem := List.mem_of_find?_eq_some hsource
  obtain rfl := List.mem_singleton.1 hmem
  exact Int.le_refl 0

/-- If nothing is noted in the pass, it has the account of a document of the summary that was
stored. -/
theorem account_of_passAt {time : String} {ts : List Account}
    (hnone : (passAt time).1.toOption.map Report.errors = some [])
    (hok : ∀ r', (passAt time).1 = .ok r' →
      ts.map Account.kind =
        DocsKind.all.filter (fun k => (withSummary.complete? k.source).isSome) ∧
      r'.errors = withSummary.errors ++ ts.flatMap Account.errors) :
    ∃ t ∈ ts, t.kind = .summary ∧ ∃ d e, t.answer = .ok d ∧ t.stored = .ok e := by
  cases hres : (passAt time).1 with
  | error e =>
    rw [hres] at hnone
    cases hnone
  | ok r' =>
    obtain ⟨hkinds, herrors⟩ := hok r' hres
    rw [hres] at hnone
    rw [Option.some.inj hnone] at herrors
    -- The summary is the only complete artifact of the report.
    have hone : DocsKind.all.filter (fun k => (withSummary.complete? k.source).isSome) =
        [.summary] := by
      decide
    rw [hone] at hkinds
    obtain ⟨t, ht, hkind⟩ := List.mem_map.1 (hkinds ▸ List.mem_singleton_self DocsKind.summary)
    refine ⟨t, ht, hkind, t.stored_of_errors ?_⟩
    exact List.flatMap_eq_nil_iff.1 (List.append_eq_nil_iff.1 herrors.symm).2 t ht

/-- A document that was written at a moment is read back. -/
theorem dated_document_is_read_back :
    (passAt "2024-05-01T12:00:00Z").1.toOption.map Report.errors = some [] ∧
    ∃ e, ReadsBack .summary ⟨"# x", "2024-05-01T12:00:00Z"⟩ e (passAt "2024-05-01T12:00:00Z").2 ∧
      (passAt "2024-05-01T12:00:00Z").2.record? (.artifact (.docs .summary)) = some e := by
  have hnone : (passAt "2024-05-01T12:00:00Z").1.toOption.map Report.errors = some [] := by
    decide +kernel
  have hdocument : (answerAt "2024-05-01T12:00:00Z").document "2024-05-01T12:00:00.000Z"
      DocsKind.summary.source.name = .ok ⟨"# x", "2024-05-01T12:00:00Z"⟩ := by
    decide +kernel
  have hmoment : (Moment.ofText? "2024-05-01T12:00:00Z").isSome := by decide +kernel
  obtain ⟨project, ts, -, -, hok, hback⟩ :=
    documents_read_back_if_dated sited_passAt.1 rfl sited_passAt.2 (run_passAt _)
  obtain ⟨t, ht, hkind, d, e, hd, he⟩ := account_of_passAt hnone fun r' hr => hok r' hr rfl
  obtain ⟨hgenerate, hreads⟩ := hback t ht d e hd he
  rw [generate_answer, hkind, hdocument] at hgenerate
  obtain rfl := Except.ok.inj hgenerate
  rw [hkind] at hreads
  exact ⟨hnone, e, hreads, hreads.record.trans (if_pos hmoment)⟩

/-- A document whose time is no moment is stored without an error, but there is none afterwards, and
the next one is the first version again. -/
theorem undated_document_is_not_read_back :
    (passAt "yesterday").1.toOption.map Report.errors = some [] ∧
    (∃ e, ReadsBack .summary ⟨"# x", "yesterday"⟩ e (passAt "yesterday").2) ∧
    ((Artifacts.load (.docs .summary)).run (passAt "yesterday").2).1 = .ok none ∧
    ∀ m e', m.kind = .docs .summary →
      ((Artifacts.store m).run (passAt "yesterday").2).1 = .ok e' →
        e'.metadata.version.number = 1 := by
  have hnone : (passAt "yesterday").1.toOption.map Report.errors = some [] := by
    decide +kernel
  have hdocument : (answerAt "yesterday").document "2024-05-01T12:00:00.000Z"
      DocsKind.summary.source.name = .ok ⟨"# x", "yesterday"⟩ := by
    decide +kernel
  have hmoment : ¬ (Moment.ofText? "yesterday").isSome := by decide +kernel
  obtain ⟨project, ts, hdescribes, hkinds, hok⟩ := run_documentation (run_passAt "yesterday")
  obtain ⟨t, ht, hkind, d, e, hd, he⟩ := account_of_passAt hnone fun r' hr => hok r' hr rfl
  have hreads := hdescribes.readsBack sited_passAt.1 rfl sited_passAt.2
    (nodup_docsKinds.sublist hkinds) ht hd he
  obtain ⟨_, _, _, -, -, -, hanswer, -, -⟩ := hdescribes.at ht
  have hgenerate := generate_of_describe (hanswer.trans hd)
  rw [generate_answer, hkind, hdocument] at hgenerate
  obtain rfl := Except.ok.inj hgenerate
  rw [hkind] at hreads
  -- What is read back is nothing, and the schedule lets it be read.
  have hback : readable? ⟨"# x", "yesterday"⟩ e = none := if_neg hmoment
  have hread : (passAt "yesterday").2.LetsRead (.artifact (.docs .summary)) := by
    have hfaults := (hdescribes.moves sited_passAt.1 rfl).host.faults
    rw [State.LetsRead, hfaults]
    rfl
  have hload := hreads.load hread
  have hnext := hreads.next hread
  rw [hback] at hload hnext
  exact ⟨hnone, ⟨e, hreads⟩, hload, fun m e' hm he' => (hnext m hm e' he').version⟩

end CodeSurvey.Scan
