import CodeSurvey.Proofs.Scan.Documentation
import CodeSurvey.Proofs.Storage.Absence

/-!
# The documents of a scan are accounted for

If the service is not there, the documentation pass notes that and does nothing else. Otherwise it
has an account for each complete artifact of the report, in the order of the kinds and under one
name of the project, and all that it adds to the report is what the accounts add: the artifacts of
the scan stay as they are, in the report and in the store (`documentation_is_accounted_for`).

The pass comes to its end unless a text that it reads is a value out of bounds, or a number that it
is to write is too long (`Describes.thrown?_eq_none`). Such a value is not passed over as a
malformed one is, whether it stands for the summary or in the place of a former document
(`long_number_ends_documentation`).
-/

namespace CodeSurvey.Scan

open CodeSurvey.Artifact CodeSurvey.Storage

variable {service : DocsService} {project : String} {r : Report} {site : Site} {s s' : State}
  {ts : List Account}

/-! ## The name of the project -/

/-- A text is read as a value, or it is malformed. -/
def InBounds (text : String) : Prop :=
  ∀ e, Json.read text = .error e → ∃ flaw place, e = .malformed flaw place

/-- It is so if it is read as a value. -/
theorem inBounds_of_isSome {text : String} (h : (Json.read text).toOption.isSome) :
    InBounds text := by
  intro e he
  rw [he] at h
  cases h

/-- The complete summary of a report gives the project a name. -/
def Report.Names (r : Report) (name : String) : Prop :=
  ∃ summary j, r.complete? .summary = some summary ∧ Json.read summary.content = .ok j ∧
    j.getStr? "name" = some name ∧ name ≠ ""

/-- The project of a report goes by the name that its summary gives, or else by another one. -/
structure Report.GoesBy (r : Report) (other project : String) : Prop where
  named : ∀ name, r.Names name → project = name
  unnamed : (∀ name, ¬ r.Names name) → project = other

/-- The name is in the value that the complete summary is read as. -/
theorem Report.names_iff {summary : Made} {j : Json}
    (hsummary : r.complete? .summary = some summary) (hread : Json.read summary.content = .ok j)
    (name : String) : r.Names name ↔ (j.getStr? "name").filter (!·.isEmpty) = some name := by
  have hne : (!name.isEmpty) = true ↔ name ≠ "" := by simp
  rw [Option.filter_eq_some_iff, hne]
  constructor
  · rintro ⟨summary', j', hsummary', hread', hname⟩
    obtain rfl := Option.some.inj (hsummary.symm.trans hsummary')
    obtain rfl := Except.ok.inj (hread.symm.trans hread')
    exact hname
  · exact fun hname => ⟨summary, j, hsummary, hread, hname⟩

/-- The name that the pass has for a project. -/
theorem projectName_spec (other : String)
    (h : ∀ summary, r.complete? .summary = some summary → InBounds summary.content) :
    ∃ project, projectName other r = .ok project ∧ r.GoesBy other project := by
  have hcomplete : (r.core? .summary).filter (!·.incomplete) = r.complete? .summary := rfl
  unfold projectName
  rw [hcomplete]
  cases hsummary : r.complete? .summary with
  | none =>
    refine ⟨other, rfl, ?_, fun _ => rfl⟩
    rintro name ⟨summary, j, hsome, -⟩
    cases hsummary.symm.trans hsome
  | some summary =>
    dsimp only
    unfold nameIn
    cases hread : Json.read summary.content with
    | error e =>
      obtain ⟨flaw, place, rfl⟩ := h summary hsummary e hread
      refine ⟨other, rfl, ?_, fun _ => rfl⟩
      rintro name ⟨summary', j, hsome, hread', -⟩
      obtain rfl := Option.some.inj (hsummary.symm.trans hsome)
      cases hread.symm.trans hread'
    | ok j =>
      have hnames := Report.names_iff hsummary hread
      refine ⟨_, rfl, fun name hname => ?_, fun hnone => ?_⟩
      · -- An empty name is no name.
        exact congrArg (·.getD other) ((hnames name).1 hname)
      · have hempty : (j.getStr? "name").filter (!·.isEmpty) = none :=
          Option.eq_none_iff_forall_ne_some.2 fun name hname => hnone name ((hnames name).2 hname)
        exact congrArg (·.getD other) hempty

/-- There is no name if the summary is a value out of bounds. -/
theorem projectName_error {other : String} {summary : Made} {e : Json.ReadError}
    (hsummary : r.complete? .summary = some summary) (hread : Json.read summary.content = .error e)
    (hout : ¬ InBounds summary.content) : projectName other r = .error e := by
  unfold Report.complete? at hsummary
  unfold projectName nameIn
  rw [hsummary]
  dsimp only
  rw [hread]
  cases e with
  | malformed flaw place =>
    refine absurd ?_ hout
    rintro e he
    exact ⟨flaw, place, (Except.error.inj (hread.symm.trans he)).symm⟩
  | tooManyDigits count => rfl
  | tooDeep => rfl

/-! ## The end of the pass -/

/-- The documents about the complete artifacts of a report can be stored: what is there of each is
no value out of bounds, and no number of the next one is too long. -/
def Report.Fits (r : Report) (s : State) : Prop :=
  ∀ (k : DocsKind) (source : Made), r.complete? k.source = some source →
    (∀ text, s.text? (.artifact (.docs k)) = some text → InBounds text) ∧
    source.fileCount.natAbs < 10 ^ Json.maxIntDigits ∧
    ∀ former, s.record? (.artifact (.docs k)) = some former →
      former.metadata.version.number + 1 < 10 ^ Json.maxIntDigits

/-- The numbers of an account's artifact are not too long if those of the one that it describes, and
the version of the former one, are not. -/
theorem Account.fits {t : Account} {former : Option Stored}
    (hfiles : t.source.fileCount.natAbs < 10 ^ Json.maxIntDigits)
    (hversion : ∀ e, former = some e →
      e.metadata.version.number + 1 < 10 ^ Json.maxIntDigits) :
    Artifacts.Fits t.made former := by
  have hone : 1 < 10 ^ Json.maxIntDigits := Nat.one_lt_pow (by decide) (by decide)
  have hnext : former.elim 0 (fun former => former.metadata.version.number) + 1 <
      10 ^ Json.maxIntDigits := by
    cases former with
    | none => exact hone
    | some e => exact hversion e rfl
  unfold made madeOf
  cases t.answer with
  | ok d => exact ⟨hfiles, Nat.zero_lt_of_lt hone, hnext⟩
  | error f => exact ⟨Nat.zero_lt_of_lt hone, hone, hnext⟩

/-- No account throws an error on if the documents can be stored. -/
theorem Describes.thrown?_eq_none (hs : s.Sited site) (hready : s.store.isReady)
    (h : Describes service project r ts s s') (hnodup : (ts.map Account.kind).Nodup)
    (hfits : r.Fits s) : ∀ t ∈ ts, t.thrown? = none := by
  intro t ht
  obtain ⟨before, after, s₁, rfl, hbefore, hsource, -, hstore, -⟩ := h.at ht
  obtain ⟨htext, hfiles, hversion⟩ := hfits t.kind t.source hsource
  -- What the account finds was there in the beginning.
  have hother : t.kind ∉ before.map Account.kind := by
    rw [List.map_append, List.map_cons, List.nodup_append] at hnodup
    exact fun hin => hnodup.2.2 _ hin _ List.mem_cons_self rfl
  have hm := hbefore.moves hs hready
  have hfound := hm.text?_eq (hm.mode hready).2 (artifact_notMem_accounts hother)
  have hrecord := hm.record?_eq hready (artifact_notMem_accounts hother)
  have hbounds : ∀ text e, t.before.text? (.artifact t.made.kind) = some text →
      Json.read text = .error e → ∃ flaw place, e = .malformed flaw place := by
    rw [t.made_kind, hfound]
    exact fun text e hthere => htext text hthere e
  have hshort : ∀ id path former,
      former = none ∨ former = t.before.record? (.artifact t.made.kind) →
        (Artifacts.recordOf t.made id path former).toJson.hasShortInts := by
    intro id path former hformer
    rw [t.made_kind, hrecord] at hformer
    refine (Artifacts.hasShortInts_recordOf _ _ _ _).2 (Account.fits hfiles fun e he => ?_)
    rcases hformer with rfl | rfl
    · cases he
    · exact hversion e he
  have htold :=
    (Artifacts.store_error_told (hm.sited hs) (hm.mode hready).1 hbounds hshort).of_run hstore
  unfold Account.thrown?
  cases hstored : t.stored with
  | ok e => rfl
  | error e => exact if_pos (htold e hstored)

/-! ## The pass as a whole -/

/-- The pass under the name of a project is accounted for: the accounts are of the complete
artifacts in their order, until one throws an error on. -/
structure PassesFor (p : Plan) (service : DocsService) (project : String) (r : Report)
    (ts : List Account) (s : State) (res : Except StoreError Report) (s' : State) : Prop where
  run : (documentation p service r).run s = (res, s')
  describes : Describes service project r ts s s'
  accounted :
    Accounted r project (DocsKind.all.filter fun k => (r.complete? k.source).isSome) ts res
  /-- The artifacts of the scan stay in the report. -/
  core : ∀ r', res = .ok r' → r'.core? = r.core?
  /-- All other documents stay in a store without links. -/
  kept : ∀ site, s.Sited site → s.store.isReady →
    ∀ d, d ∉ ts.flatMap Account.changed → s'.text? d = s.text? d
  /-- It comes to its end if the documents can be stored. -/
  ends : ∀ site, s.Sited site → s.store.isReady → r.Fits s → res = .ok (r.withAccounts project ts)

/-- A pass whose service is there is accounted for under the name that it has for the project. -/
theorem passesFor_of_projectName (p : Plan) (hthere : service.isThere = .ok true)
    (hproject : projectName (workspaceOf s).name r = .ok project) :
    ∃ ts res s', PassesFor p service project r ts s res s' := by
  obtain ⟨ts, res, s', hdescribes, hrun, haccounted⟩ :=
    run_describeAll p service project DocsKind.all (r := r) rfl s
  -- The accounts are those of different kinds, so none of them meets the document of another.
  have hnodup : (ts.map Account.kind).Nodup :=
    (nodup_docsKinds.filter _).sublist haccounted.kinds.sublist
  refine ⟨ts, res, s', ?_, hdescribes, haccounted, ?_, ?_, ?_⟩
  · rw [run_documentation_of_isThere p hthere, hproject]
    exact hrun
  · rintro r' rfl
    obtain ⟨-, -, rfl⟩ := haccounted
    exact r.core?_withAccounts project ts
  · intro site hs hready d hd
    have hm := hdescribes.moves hs hready
    exact hm.text?_eq (hm.mode hready).2 hd
  · intro site hs hready hfits
    have hnone := hdescribes.thrown?_eq_none hs hready hnodup hfits
    cases res with
    | ok r' => exact congrArg _ haccounted.2.2
    | error e =>
      obtain ⟨-, before, last, rfl, -, hlast⟩ := haccounted
      rw [hnone last (by simp)] at hlast
      cases hlast

/-- The documentation pass is accounted for. If the service is not there, this is noted and nothing
else is done. If the complete summary is a value out of bounds, the pass does not begin. Otherwise
each complete artifact is described once, in order, under the name that the project goes by. -/
theorem documentation_is_accounted_for (p : Plan) (service : DocsService) (r : Report) (s : State) :
    (service.isThere ≠ .ok true → (documentation p service r).run s =
      (.ok (r.addError (Kind.docs .summary).name serviceMissing), s)) ∧
    (service.isThere = .ok true →
      (∀ summary e, r.complete? .summary = some summary → Json.read summary.content = .error e →
        ¬ InBounds summary.content →
          (documentation p service r).run s = (.error (.outOfBounds e), s)) ∧
      ((∀ summary, r.complete? .summary = some summary → InBounds summary.content) →
        ∃ project ts res s', r.GoesBy (workspaceOf s).name project ∧
          PassesFor p service project r ts s res s')) := by
  refine ⟨fun hnot => ?_, fun hthere => ⟨fun summary e hsummary hread hout => ?_, fun hin => ?_⟩⟩
  · exact run_documentation_of_not_isThere p hnot r s
  · rw [run_documentation_of_isThere p hthere, projectName_error hsummary hread hout]
  · obtain ⟨project, hproject, hgoesBy⟩ := projectName_spec (workspaceOf s).name hin
    obtain ⟨ts, res, s', hpasses⟩ := passesFor_of_projectName p hthere hproject
    exact ⟨project, ts, res, s', hgoesBy, hpasses⟩

/-! ## A pass in trouble -/

/-- A summary that gives the project a name. -/
def namedSummary : Made :=
  { kind := .core .summary, content := "\x7b\"name\":\"shop\"\x7d", madeAt := "", fileCount := 2 }

/-- A report with this summary, a data model that could not be made, and an architecture. -/
def partialReport : Report where
  artifacts :=
    [namedSummary,
      placeholder (.core .dataModel) "{}" "",
      { kind := .core .architecture, content := "{}", madeAt := "" }]

/-- A service that has documents about summaries only. -/
def summaryService : DocsService where
  isThere := .ok true
  describe
    | .summary, _, _ => .ok ⟨"# x", "2024-05-01T12:00:00.000Z"⟩
    | _, _, _ => .error ⟨"boom", "RuntimeError"⟩

/-- A workspace without artifacts, where the document about the summary cannot be stored. -/
def withLockedDocument : State := State.failingAt .replace (.artifact (.docs .summary)) []

/-- The summary is an object with a name. -/
theorem exists_read_namedSummary :
    ∃ j, Json.read namedSummary.content = .ok j ∧ j.getStr? "name" = some "shop" := by
  have hname : (Json.read namedSummary.content).toOption.map (·.getStr? "name") =
      some (some "shop") := by
    decide +kernel
  cases hread : Json.read namedSummary.content with
  | error e =>
    rw [hread] at hname
    cases hname
  | ok j =>
    rw [hread] at hname
    exact ⟨j, rfl, Option.some.inj hname⟩

/-- No document is there yet. -/
theorem text?_withLockedDocument (k : DocsKind) :
    withLockedDocument.text? (.artifact (.docs k)) = none := by
  cases k <;> decide +kernel

/-- All numbers of the pass are short: the counts are, and there are no former versions. -/
theorem fits_partialReport : partialReport.Fits withLockedDocument := by
  intro k source hsource
  refine ⟨fun text h => ?_, ?_, fun former h => ?_⟩
  · cases (text?_withLockedDocument k).symm.trans h
  · have hsmall : ∀ m ∈ partialReport.artifacts, m.fileCount.natAbs < 10 := by decide
    have hmem := List.mem_of_find?_eq_some (Option.filter_eq_some_iff.1 hsource).1
    exact Nat.lt_of_lt_of_le (hsmall source hmem) (Nat.le_self_pow (by decide) 10)
  · rw [State.record?, State.value?, text?_withLockedDocument] at h
    cases h

/-- The pass is accounted for in this workspace: one document cannot be stored, one artifact is not
complete, and one cannot be described. -/
theorem documentation_is_accounted_for_in_trouble :
    ∃ ts s', PassesFor {} summaryService "shop" partialReport ts withLockedDocument
        (.ok (partialReport.withAccounts "shop" ts)) s' ∧
      ts.map Account.kind = [.summary, .architecture] ∧
      (ts.flatMap Account.errors).map StageError.stage =
        ["summary-docs", "architecture-docs"] := by
  have hsited : withLockedDocument.Sited ⟨[], [], ["ws", ".contextscan"]⟩ :=
    State.sited_withEntries (by decide) (by simp)
  have hsummary : partialReport.complete? .summary = some namedSummary := rfl
  obtain ⟨j, hread, hget⟩ := exists_read_namedSummary
  have hin : ∀ summary, partialReport.complete? .summary = some summary →
      InBounds summary.content := by
    intro summary hsome
    obtain rfl := Option.some.inj (hsummary.symm.trans hsome)
    exact inBounds_of_isSome (by rw [hread]; rfl)
  have hnames : partialReport.Names "shop" := ⟨_, j, hsummary, hread, hget, by decide⟩
  -- The stages of the errors are those that the run itself gives.
  have herrors : ((documentation {} summaryService partialReport).run
      withLockedDocument).1.toOption.map (fun r => r.errors.map StageError.stage) =
        some ["summary-docs", "architecture-docs"] := by
    decide +kernel
  obtain ⟨-, hpasses⟩ := documentation_is_accounted_for {} summaryService partialReport
    withLockedDocument
  obtain ⟨project, ts, res, s', hgoesBy, hpass⟩ := (hpasses rfl).2 hin
  obtain rfl := hgoesBy.named "shop" hnames
  obtain rfl := hpass.ends _ hsited rfl fits_partialReport
  refine ⟨ts, s', hpass, hpass.accounted.1, ?_⟩
  rw [hpass.run] at herrors
  exact Option.some.inj herrors

/-! ## Values out of bounds -/

/-- A former document about the summary that is a value out of bounds ends the pass: it is not
replaced. -/
theorem documentation_of_outOfBounds (p : Plan) (hthere : service.isThere = .ok true)
    (hc : s.Clear site) {source : Made} (hsource : r.complete? .summary = some source)
    (hin : InBounds source.content) {text : String} {e : Json.ReadError}
    (htext : s.text? (.artifact (.docs .summary)) = some text)
    (hread : Json.read text = .error e) (hout : ∀ flaw place, e ≠ .malformed flaw place) :
    ((documentation p service r).run s).1 = .error (.outOfBounds e) := by
  obtain ⟨project, hproject, -⟩ := projectName_spec (r := r) (workspaceOf s).name
    fun summary hsummary => by rwa [← Option.some.inj (hsource.symm.trans hsummary)]
  rcases hstore : (Artifacts.store (madeOf .summary source s.host.nowText
    (service.describe .summary source.content project))).run s with ⟨stored, s'⟩
  obtain ⟨t, rfl, rfl, hkind, hanswer, rfl⟩ : ∃ t : Account, t.source = source ∧ t.before = s ∧
      t.kind = .summary ∧ service.describe .summary source.content project = t.answer ∧
      t.stored = stored :=
    ⟨⟨.summary, source, s, _, stored⟩, rfl, rfl, rfl, rfl, rfl⟩
  have hsource' : r.complete? t.kind.source = some t.source := by rwa [hkind]
  rw [← hkind] at hanswer hstore htext
  rw [hanswer] at hstore
  -- The former document is found before anything is written.
  have hfinds : Finds Stored.IsOf (t.before.text? (.artifact t.made.kind))
      (.error (.outOfBounds e)) := by
    rw [t.made_kind, htext]
    exact .outOfBounds hread hout
  have herror : t.stored = .error (.outOfBounds e) :=
    (Artifacts.store_clear hc hfinds).of_run hstore
  have hthrown : t.thrown? = some (.outOfBounds e) := by
    rw [Account.thrown?, herror]
    rfl
  have hdescribe := run_describe (p := p) hsource' hanswer hstore
  rw [hkind, hthrown] at hdescribe
  rw [run_documentation_of_isThere p hthere, hproject]
  dsimp only
  rw [DocsKind.all, describeAll, run_bind, hdescribe]

/-- A text that is the first number with more digits than are read. -/
def longNumber : Json := .int (10 ^ Json.maxIntDigits : Nat)

/-- A report with this text as its summary. -/
def withLongSummary : Report where
  artifacts := [{ kind := .core .summary, content := longNumber.stored, madeAt := "" }]

/-- A summary that is such a number gives the project no other name, but ends the pass. So does a
former document that is such a number: it cannot be replaced. -/
theorem long_number_ends_documentation :
    (∃ e, ((documentation {} summaryService withLongSummary).run
      (State.withEntries [] Faults.none)).1 = .error (.outOfBounds e)) ∧
    ∃ e, ((documentation {} summaryService withSummary).run
      (withDocument (.artifact (.docs .summary)) longNumber)).1 = .error (.outOfBounds e) := by
  -- The same text stands for the summary and in the place of the document.
  obtain ⟨count, hread⟩ : ∃ count, Json.read longNumber.stored = .error (.tooManyDigits count) :=
    ⟨_, Json.read_stored_long Json.toDigits_bound_long⟩
  constructor
  · have hsummary : withLongSummary.complete? .summary =
        some { kind := .core .summary, content := longNumber.stored, madeAt := "" } := rfl
    have hout : ¬ InBounds longNumber.stored := by
      intro hin
      obtain ⟨flaw, place, he⟩ := hin _ hread
      cases he
    refine ⟨.tooManyDigits count, ?_⟩
    rw [run_documentation_of_isThere {} rfl, projectName_error hsummary hread hout]
  · have hsummary : withSummary.complete? .summary =
        some { kind := .core .summary, content := "\x7b\x7d", madeAt := "" } := rfl
    exact ⟨.tooManyDigits count, documentation_of_outOfBounds {} rfl (clear_withDocument _ _)
      hsummary (inBounds_of_isSome (by decide +kernel)) (text?_withDocument _ _) hread (by simp)⟩

end CodeSurvey.Scan
