import CodeSurvey.Context.Codebase
import CodeSurvey.Proofs.Manifest.Reading
import CodeSurvey.Proofs.Storage.Absence

/-!
# When a code base can be told

A content has a brief unless it is out of the reader's bounds, or it is that of an overview whose
frameworks cannot be put in a row (`exists_brief_iff`). All other members are shown whatever they
are.

The context has a section for each kind that is stored and complete: its documentation, or else the
brief of its artifact (`Section`). One brief that cannot be made is enough for there to be no
context at all (`context_is_told_iff`).
-/

namespace CodeSurvey.Context

open CodeSurvey.Artifact CodeSurvey.Storage

/-! ## Briefs -/

/-- Frameworks that can be put in a row: there are none, or they are a text, the keys of an object,
or an array of texts. -/
inductive Listable : Option Json → Prop
  | missing : Listable none
  | void {value : Json} (untrue : value.isTruthy = false) : Listable (some value)
  | text (s : String) : Listable (some (.str s))
  | object (members : List (String × Json)) : Listable (some (.obj members))
  | texts (names : List String) : Listable (some (Json.texts names))

/-- Frameworks have a text exactly if they can be put in a row. -/
theorem exists_frameworksText_iff {value : Option Json} :
    (∃ text, frameworksText value = .ok text) ↔ Listable value := by
  unfold frameworksText
  cases value with
  | none => exact iff_of_true ⟨_, rfl⟩ .missing
  | some v =>
    cases htrue : v.isTruthy with
    | false =>
      refine iff_of_true ⟨noneDetected, ?_⟩ (.void htrue)
      simp only [htrue, Bool.not_false, if_true]
    | true =>
      -- A text and an object are gone through as they are, all else has to be an array of texts.
      have hrest (hstr : ∀ s, v ≠ .str s) (hobj : ∀ members, v ≠ .obj members) :
          Listable (some v) ↔ ∃ names, v.strings? = some names := by
        simp only [Json.strings?_eq_some]
        constructor
        · rintro (_ | ⟨huntrue⟩ | ⟨s⟩ | ⟨members⟩ | ⟨names⟩)
          · exact absurd (htrue.symm.trans huntrue) (by decide)
          · exact absurd rfl (hstr s)
          · exact absurd rfl (hobj members)
          · exact ⟨names, rfl⟩
        · rintro ⟨names, rfl⟩
          exact .texts names
      simp only [htrue, Bool.not_true, Bool.false_eq_true, if_false]
      cases v with
      | str s => exact iff_of_true ⟨_, rfl⟩ (.text s)
      | obj members => exact iff_of_true ⟨_, rfl⟩ (.object members)
      | _ =>
        rw [hrest (by simp) (by simp)]
        dsimp only
        split
        · rename_i names hnames
          exact iff_of_true ⟨_, rfl⟩ ⟨names, hnames⟩
        · rename_i hnone
          simp [hnone]

/-- A kind is found by its name only. -/
theorem name_of_ofName? {name : String} {k : CoreKind} (h : CoreKind.ofName? name = some k) :
    name = k.name := by
  have hname := List.find?_some h
  exact (beq_iff_eq.1 hname).symm

/-- The brief of an object can be made unless it is an overview with frameworks that cannot be put
in a row. -/
theorem exists_objectBrief_iff {kind : String} {data : Json} :
    (∃ text, objectBrief kind data = .ok text) ↔
      (kind = CoreKind.summary.name → Listable (data.get? "frameworks")) := by
  by_cases hkind : kind = CoreKind.summary.name
  · subst hkind
    have hfound : CoreKind.ofName? CoreKind.summary.name = some .summary := by decide
    unfold objectBrief
    simp only [hfound, forall_true_left, ← exists_frameworksText_iff]
    constructor
    · rintro ⟨text, h⟩
      obtain ⟨frameworks, hframeworks, -⟩ := bind_eq_ok.1 h
      exact ⟨frameworks, hframeworks⟩
    · rintro ⟨frameworks, h⟩
      exact ⟨_, bind_eq_ok.2 ⟨frameworks, h, rfl⟩⟩
  · -- The briefs of the other kinds put no texts in a row, so they cannot fail.
    refine iff_of_true ?_ fun h => absurd h hkind
    unfold objectBrief
    split
    · rename_i hfound
      exact absurd (name_of_ofName? hfound) hkind
    all_goals exact ⟨_, rfl⟩

/-- A content has a brief unless it is out of the reader's bounds, or it is an object that stands
for an overview with frameworks that cannot be put in a row. -/
theorem exists_brief_iff {kind content : String} :
    (∃ text, brief kind content = .ok text) ↔
      (∀ e, Json.read content = .error e → ∃ flaw place, e = .malformed flaw place) ∧
        (kind = CoreKind.summary.name → ∀ members, Json.read content = .ok (.obj members) →
          Listable (Json.findMember "frameworks" members)) := by
  unfold brief
  cases hread : Json.read content with
  | error e => cases e <;> simp
  | ok j =>
    cases j with
    | obj members =>
      simp only [exists_objectBrief_iff, Json.get?]
      simp
    | _ => simp

/-! ## Sections -/

/-- The artifact whose brief is to stand for a kind: it is complete, and there is no complete
documentation of the kind. -/
structure Stands (found : Kind → Option Stored) (k : DocsKind) (e : Stored) : Prop where
  noDocs : ∀ docs, found (.docs k) = some docs → docs.isIncomplete = true
  there : found (.core k.source) = some e
  complete : e.isIncomplete = false

/-- The section of a kind, if there is one: the documentation without the blanks around it, or else
the brief of the artifact. -/
inductive Section (found : Kind → Option Stored) (k : DocsKind) : Option String → Prop
  | docs {docs : Stored} (there : found (.docs k) = some docs)
      (complete : docs.isIncomplete = false) : Section found k (some (Text.strip docs.content))
  | brief {e : Stored} {text : String} (stands : Stands found k e)
      (told : brief e.kind.name e.content = .ok text) : Section found k (some text)
  | nothing (noDocs : ∀ docs, found (.docs k) = some docs → docs.isIncomplete = true)
      (noArtifact : ∀ e, found (.core k.source) = some e → e.isIncomplete = true) :
      Section found k none

/-- What telling an artifact in brief ends with. -/
def toldOf (e : Stored) : Except StoreError String :=
  match brief e.kind.name e.content with
  | .ok text => .ok text
  | .error (.content error) => .error (.outOfBounds error)
  | .error .frameworks => .error .unlistable

/-- What telling a kind ends with, by the artifacts that there are. -/
def sectionOf (found : Kind → Option Stored) (k : DocsKind) : Except StoreError (Option String) :=
  match complete? (found (.docs k)) with
  | some docs => .ok (some (Text.strip docs.content))
  | none =>
    match complete? (found (.core k.source)) with
    | some e =>
      match toldOf e with
      | .ok text => .ok (some text)
      | .error error => .error error
    | none => .ok none

variable {found : Kind → Option Stored} {k : DocsKind}

/-- What is told of an artifact is the brief of its content. -/
theorem toldOf_eq_ok {e : Stored} {text : String} :
    toldOf e = .ok text ↔ brief e.kind.name e.content = .ok text := by
  unfold toldOf
  cases brief e.kind.name e.content with
  | ok text' => simp
  | error error => cases error <;> simp

/-- An artifact that is there and complete. -/
theorem complete?_eq_some {o : Option Stored} {e : Stored} :
    complete? o = some e ↔ o = some e ∧ e.isIncomplete = false := by
  simp [complete?, Option.filter_eq_some_iff]

/-- There is no complete artifact if none is there or the one that is there is incomplete. -/
theorem complete?_eq_none {o : Option Stored} :
    complete? o = none ↔ ∀ e, o = some e → e.isIncomplete = true := by
  simp [complete?, Option.filter_eq_none_iff]

/-- Complete documentation is the section, whatever else there is. -/
theorem section_iff_of_docs {docs : Stored} (hthere : found (.docs k) = some docs)
    (hcomplete : docs.isIncomplete = false) {section? : Option String} :
    Section found k section? ↔ some (Text.strip docs.content) = section? := by
  constructor
  · have hcontra (hno : ∀ docs, found (.docs k) = some docs → docs.isIncomplete = true) : False :=
      Bool.false_ne_true (hcomplete.symm.trans (hno docs hthere))
    rintro (⟨hthere', -⟩ | ⟨hstands, -⟩ | ⟨hno, -⟩)
    · rw [Option.some.inj (hthere.symm.trans hthere')]
    · exact (hcontra hstands.noDocs).elim
    · exact (hcontra hno).elim
  · rintro rfl
    exact .docs hthere hcomplete

/-- Where an artifact stands for its documentation, its brief is the section. -/
theorem section_iff_of_stands {e : Stored} (hstands : Stands found k e)
    {section? : Option String} :
    Section found k section? ↔
      ∃ text, brief e.kind.name e.content = .ok text ∧ some text = section? := by
  constructor
  · rintro (⟨hthere, hcomplete⟩ | ⟨hstands', htold⟩ | ⟨-, hnone⟩)
    · exact absurd (hcomplete.symm.trans (hstands.noDocs _ hthere)) (by decide)
    · rw [Option.some.inj (hstands.there.symm.trans hstands'.there)]
      exact ⟨_, htold, rfl⟩
    · exact absurd (hstands.complete.symm.trans (hnone e hstands.there)) (by decide)
  · rintro ⟨text, htold, rfl⟩
    exact .brief hstands htold

/-- With neither of them complete there is no section. -/
theorem section_iff_of_none
    (hnoDocs : ∀ docs, found (.docs k) = some docs → docs.isIncomplete = true)
    (hnone : ∀ e, found (.core k.source) = some e → e.isIncomplete = true)
    {section? : Option String} : Section found k section? ↔ none = section? := by
  constructor
  · rintro (⟨hthere, hcomplete⟩ | ⟨hstands, -⟩ | -)
    · exact absurd (hcomplete.symm.trans (hnoDocs _ hthere)) (by decide)
    · exact absurd (hstands.complete.symm.trans (hnone _ hstands.there)) (by decide)
    · rfl
  · rintro rfl
    exact .nothing hnoDocs hnone

/-- A kind is told with the section that it has. -/
theorem sectionOf_eq_ok {section? : Option String} :
    sectionOf found k = .ok section? ↔ Section found k section? := by
  unfold sectionOf
  cases hdocs : complete? (found (.docs k)) with
  | some docs =>
    obtain ⟨hthere, hcomplete⟩ := complete?_eq_some.1 hdocs
    rw [section_iff_of_docs hthere hcomplete, Except.ok.injEq]
  | none =>
    have hno := complete?_eq_none.1 hdocs
    cases hcore : complete? (found (.core k.source)) with
    | some e =>
      obtain ⟨hthere, hcomplete⟩ := complete?_eq_some.1 hcore
      rw [section_iff_of_stands ⟨hno, hthere, hcomplete⟩]
      simp only [← toldOf_eq_ok]
      cases toldOf e <;> simp
    | none => rw [section_iff_of_none hno (complete?_eq_none.1 hcore), Except.ok.injEq]

/-- A kind can be told if the artifact that is to stand for it, if there is one, has a brief. -/
theorem exists_section_iff :
    (∃ section?, Section found k section?) ↔
      ∀ e, Stands found k e → ∃ text, brief e.kind.name e.content = .ok text := by
  constructor
  · rintro ⟨section?, hsection⟩ e hstands
    obtain ⟨text, htold, -⟩ := (section_iff_of_stands hstands).1 hsection
    exact ⟨text, htold⟩
  · -- The two looks at the store decide which of the sections there is.
    intro h
    cases hdocs : complete? (found (.docs k)) with
    | some docs =>
      obtain ⟨hthere, hcomplete⟩ := complete?_eq_some.1 hdocs
      exact ⟨_, .docs hthere hcomplete⟩
    | none =>
      have hno := complete?_eq_none.1 hdocs
      cases hcore : complete? (found (.core k.source)) with
      | none => exact ⟨_, .nothing hno (complete?_eq_none.1 hcore)⟩
      | some e =>
        obtain ⟨hthere, hcomplete⟩ := complete?_eq_some.1 hcore
        have hstands : Stands found k e := ⟨hno, hthere, hcomplete⟩
        obtain ⟨text, htold⟩ := h e hstands
        exact ⟨_, .brief hstands htold⟩

/-! ## The context -/

open State (Moves)

variable {α β : Type} {site : Site} {s : State}

/-- An operation that goes on with what one without an effect has given. -/
theorem answers_bind_ok {a : StoreAction α} {f : α → StoreAction β} {x : α}
    {r : Except StoreError β} (h : Answers site s a (.ok x))
    (hf : ∀ s', Moves site [] s s' → (∀ d, s'.text? d = s.text? d) → Answers site s' (f x) r) :
    Answers site s (a >>= f) r := by
  refine Ends.bind_ok h fun s₁ ⟨hm₁, htext₁⟩ => (hf s₁ hm₁ htext₁).mono ?_
  rintro r' s₂ ⟨rfl, hm₂, htext₂⟩
  exact ⟨rfl, hm₁.trans hm₂, fun d => (htext₂ d).trans (htext₁ d)⟩

/-- In a clear state loading an artifact gives the one that is found in its document. -/
theorem answers_load (hc : s.Clear site) {kind : Kind} {found? : Option Stored}
    (hfound : Finds Stored.IsOf (s.text? (.artifact kind)) (.ok found?)) :
    Answers site s (Artifacts.load kind) (.ok found?) := by
  obtain ⟨r, hfinds, hanswers⟩ := answers_check hc (.artifact kind) Stored.ofJson?_eq_some
  rwa [← hfinds.unique Stored.ofJson?_eq_some hfound]

/-- The brief of an artifact is what is told of it, and making it changes nothing. -/
theorem answers_storedBrief (e : Stored) : Answers site s (storedBrief e) (toldOf e) := by
  have hrun : (storedBrief e).run s = (toldOf e, s) := by
    unfold storedBrief toldOf
    cases brief e.kind.name e.content with
    | ok text => rfl
    | error error => cases error <;> rfl
  exact Ends.of_eq hrun ⟨rfl, .refl s, fun _ => rfl⟩

/-- A kind is told by the artifacts that are found. -/
theorem answers_sectionFor (hc : s.Clear site)
    (hfound : ∀ kind, Finds Stored.IsOf (s.text? (.artifact kind)) (.ok (found kind))) :
    Answers site s (sectionFor k) (sectionOf found k) := by
  unfold sectionFor sectionOf
  refine answers_bind_ok (answers_load hc (hfound _)) fun s₁ hm₁ htext₁ => ?_
  cases complete? (found (.docs k)) with
  | some docs => exact ⟨rfl, .refl s₁, fun _ => rfl⟩
  | none =>
    -- Loading the documentation changes no text, so the artifact is found as before.
    have hfound₁ : Finds Stored.IsOf (s₁.text? (.artifact (.core k.source)))
        (.ok (found (.core k.source))) := by
      rw [htext₁]
      exact hfound _
    refine answers_bind_ok (answers_load (hm₁.clear hc) hfound₁) fun s₂ hm₂ htext₂ => ?_
    cases complete? (found (.core k.source)) with
    | none => exact ⟨rfl, .refl s₂, fun _ => rfl⟩
    | some e =>
      have hbrief : Answers site s₂ (storedBrief e >>= fun text => pure (some text))
          ((toldOf e).map some) := (answers_storedBrief e).map some
      dsimp only
      cases htold : toldOf e <;> rw [htold] at hbrief <;> exact hbrief

/-- The sections one below the other, if there are any. -/
def joined (sections : List String) : Option String :=
  if sections.isEmpty then none else some (Text.join "\n\n---\n\n" sections)

/-- In a clear state the context is what is told of the artifacts that are found, section by
section. -/
theorem answers_codebaseText (hc : s.Clear site)
    (hfound : ∀ kind, Finds Stored.IsOf (s.text? (.artifact kind)) (.ok (found kind))) :
    Answers site s codebaseText
      ((sectionOrder.mapM (sectionOf found)).map fun sections =>
        joined (sections.filterMap fun text? => text?)) := by
  refine Answers.map (Answers.mapM (fun s' hc' htext' k => ?_) hc sectionOrder) _
  refine answers_sectionFor hc' fun kind => ?_
  rw [htext']
  exact hfound kind

/-- The context when each kind has a section or has nothing. -/
theorem mapM_sectionOf {sections : DocsKind → Option String}
    (h : ∀ k, Section found k (sections k)) :
    sectionOrder.mapM (sectionOf found) = .ok (sectionOrder.map sections) := by
  have hpure : sectionOf found = fun k => pure (sections k) :=
    funext fun k => sectionOf_eq_ok.2 (h k)
  rw [hpure]
  exact List.mapM_pure

/-- Every kind has its place in the context. -/
theorem mem_sectionOrder (k : DocsKind) : k ∈ sectionOrder := by
  cases k <;> decide

/-- There is no context only if no kind has a section. -/
theorem joined_eq_none {sections : DocsKind → Option String} :
    joined (sectionOrder.filterMap sections) = none ↔ ∀ k, sections k = none := by
  unfold joined
  calc (if (sectionOrder.filterMap sections).isEmpty then none
        else some (Text.join "\n\n---\n\n" (sectionOrder.filterMap sections))) = none
      ↔ sectionOrder.filterMap sections = [] := by
        rw [← List.isEmpty_iff]
        split <;> simp_all
    _ ↔ ∀ k ∈ sectionOrder, sections k = none := List.filterMap_eq_nil_iff
    _ ↔ ∀ k, sections k = none := by simp only [mem_sectionOrder, forall_true_left]

/-- A content has a brief unless it is out of bounds or an overview whose frameworks cannot be put
in a row. In a clear state with readable artifacts the context can be told if the artifact that is
to stand for a kind, where there is one, has a brief. It has the section of each kind in a fixed
order, and there is none only if no kind has a section. -/
theorem context_is_told_iff (hc : s.Clear site)
    (hfound : ∀ kind, Finds Stored.IsOf (s.text? (.artifact kind)) (.ok (found kind))) :
    (∀ kind content, (∃ text, brief kind content = .ok text) ↔
      (∀ e, Json.read content = .error e → ∃ flaw place, e = .malformed flaw place) ∧
        (kind = CoreKind.summary.name → ∀ members, Json.read content = .ok (.obj members) →
          Listable (Json.findMember "frameworks" members))) ∧
    ∃ r, Answers site s codebaseText r ∧
      ((∃ text?, r = .ok text?) ↔
        ∀ k e, Stands found k e → ∃ text, brief e.kind.name e.content = .ok text) ∧
      ∀ text?, r = .ok text? → ∃ sections : DocsKind → Option String,
        (∀ k, Section found k (sections k)) ∧
        text? = joined ([.summary, .architecture, .dataModel, .workflow].filterMap sections) ∧
        (text? = none ↔ ∀ k, sections k = none) := by
  refine ⟨fun kind content => exists_brief_iff, _, answers_codebaseText hc hfound, ?_, ?_⟩
  · calc (∃ text?, ((sectionOrder.mapM (sectionOf found)).map fun sections =>
            joined (sections.filterMap fun text? => text?)) = .ok text?)
        ↔ ∃ sections, sectionOrder.mapM (sectionOf found) = .ok sections := by
          cases sectionOrder.mapM (sectionOf found) <;> simp [Except.map]
      _ ↔ ∀ k ∈ sectionOrder, ∃ section?, sectionOf found k = .ok section? :=
          Manifest.exists_mapM_iff
      _ ↔ ∀ k e, Stands found k e → ∃ text, brief e.kind.name e.content = .ok text := by
          simp only [sectionOf_eq_ok, exists_section_iff, mem_sectionOrder, forall_true_left]
  · -- Every kind has a section since the row of them all was told; there is only one for each.
    intro text? htext
    have htold : ∀ k, ∃ section?, Section found k section? := by
      have hall : ∃ sections, sectionOrder.mapM (sectionOf found) = .ok sections := by
        cases h : sectionOrder.mapM (sectionOf found) with
        | error e => rw [h] at htext; cases htext
        | ok sections => exact ⟨sections, rfl⟩
      intro k
      simpa only [sectionOf_eq_ok] using Manifest.exists_mapM_iff.1 hall k (mem_sectionOrder k)
    choose sections hsections using htold
    rw [mapM_sectionOf hsections] at htext
    have hjoined : text? = joined (sectionOrder.filterMap sections) := by
      rw [← Except.ok.inj htext]
      dsimp only
      rw [List.filterMap_map]
      rfl
    exact ⟨sections, hsections, hjoined, hjoined ▸ joined_eq_none⟩

/-! ## One stored artifact -/

/-- Another document of such a workspace is not there. -/
theorem text?_withDocument_other {d d' : Document} (h : d' ≠ d) (j : Json) :
    (withDocument d j).text? d' = none := by
  have hfree : (withDocument d j).host.tree.entry? (["ws", ".contextscan"] ++ d'.path) = none := by
    refine Option.eq_none_iff_forall_ne_some.2 fun e he => ?_
    have hdirs (hin : d'.path ∈ Document.dirs) : False :=
      (d'.not_prefix_dirs hin).1 (List.prefix_refl _)
    have hpath : d'.path ≠ [] := fun hnil => hdirs (by rw [hnil]; decide)
    have hmem := State.mem_of_entry?_withEntries hpath he
    simp only [List.mem_cons, Prod.mk.injEq, List.not_mem_nil, or_false] at hmem
    obtain ⟨hin, -⟩ | ⟨hin, -⟩ | ⟨hin, -⟩ := hmem
    · exact hdirs (by rw [hin]; decide)
    · exact hdirs (by rw [hin]; decide)
    · exact h (Document.path_injective hin)
  have hholds : (withDocument d j).Holds d' none := by
    refine (State.holds_iff_disk rfl d' _).2 ?_
    rw [(clear_withDocument d j).disk?_eq]
    exact hfree
  exact hholds.text? (by simp)

/-- What is found in a workspace with one artifact. -/
def only (e : Stored) (kind : Kind) : Option Stored := if kind = e.kind then some e else none

/-- A workspace with one artifact. -/
def withArtifact (e : Stored) : State := withDocument (.artifact e.kind) e.toJson

/-- In a workspace with one valid artifact that artifact is found under its kind, and none under any
other. -/
theorem finds_withArtifact {e : Stored} (hvalid : e.Valid) (hshort : e.toJson.hasShortInts)
    (kind : Kind) :
    Finds Stored.IsOf ((withArtifact e).text? (.artifact kind)) (.ok (only e kind)) := by
  unfold only withArtifact
  by_cases hkind : kind = e.kind
  · subst hkind
    rw [text?_withDocument, if_pos rfl]
    -- What is written of a valid artifact is read back as it was.
    exact .record (Stored.read_toJson_stored hshort)
      (Stored.ofJson?_eq_some.1 (Stored.ofJson?_toJson hvalid))
  · rw [text?_withDocument_other (by simpa using hkind), if_neg hkind]
    exact .absent

/-- Metadata of the first version of an artifact. -/
def firstMetadata : Metadata := ⟨"2024-05-01T12:00:00Z", 0, 0, .after none, none⟩

/-- So it is with an artifact of the first version. -/
theorem finds_first {e : Stored} (he : e.metadata = firstMetadata) (kind : Kind) :
    Finds Stored.IsOf ((withArtifact e).text? (.artifact kind)) (.ok (only e kind)) := by
  have hzero : (Json.int 0).hasShortInts := by decide
  have hone : (Json.int 1).hasShortInts := by decide
  have hmoment : (Time.Moment.ofText? "2024-05-01T12:00:00Z").isSome := by decide +kernel
  refine finds_withArtifact ⟨?_, ?_, ?_⟩ ((Stored.hasShortInts_toJson e).2 ?_) kind
  · rw [he]
    exact hmoment
  · rw [he]
    exact Int.le_refl 0
  · rw [he]
    exact Int.le_refl 0
  · rw [he]
    exact ⟨hzero, hzero, hone⟩

/-- Documentation of an architecture. -/
def layers : Stored := ⟨"a", .docs .architecture, "ws", " Two layers.\n", firstMetadata⟩

/-- The context is the documentation if there is nothing else. -/
theorem context_is_told_of_layers :
    (withArtifact layers).Clear ⟨[], [], ["ws", ".contextscan"]⟩ ∧
    (∀ kind, Finds Stored.IsOf ((withArtifact layers).text? (.artifact kind))
      (.ok (only layers kind))) ∧
    (codebaseText.run (withArtifact layers)).1 = .ok (some "Two layers.") := by
  have hclear := clear_withDocument (.artifact layers.kind) layers.toJson
  have hfound := finds_first (e := layers) rfl
  obtain ⟨-, r, ⟨hr, -⟩, hok, htold⟩ := context_is_told_iff hclear hfound
  -- The documentation stands for itself, so no artifact has to be told in brief.
  have hnone : ∀ k e, ¬ Stands (only layers) k e := by
    intro k e hstands
    have hthere := hstands.there
    cases k <;> cases hthere
  obtain ⟨text?, htext⟩ := hok.2 fun k e hstands => absurd hstands (hnone k e)
  obtain ⟨sections, hsections, hjoined, -⟩ := htold text? htext
  have hsection (k : DocsKind) : sectionOf (only layers) k = .ok (sections k) :=
    sectionOf_eq_ok.2 (hsections k)
  have hsummary : none = sections .summary := Except.ok.inj (hsection .summary)
  have hlayers : some "Two layers." = sections .architecture :=
    Except.ok.inj (hsection .architecture)
  have hdataModel : none = sections .dataModel := Except.ok.inj (hsection .dataModel)
  have hworkflow : none = sections .workflow := Except.ok.inj (hsection .workflow)
  refine ⟨hclear, hfound, ?_⟩
  calc (codebaseText.run (withArtifact layers)).1 = r := hr
    _ = .ok text? := htext
    _ = .ok (joined ([.summary, .architecture, .dataModel, .workflow].filterMap sections)) := by
      rw [hjoined]
    _ = .ok (some "Two layers.") := by
      simp [← hsummary, ← hlayers, ← hdataModel, ← hworkflow, joined, Text.join]

/-- The overview of a project, with a number in place of the name of a framework. -/
def numbered : Stored :=
  ⟨"a", .core .summary, "ws", (Json.obj [("frameworks", .arr [.int 1])]).stored, firstMetadata⟩

/-- A framework that is no text has no place in a row: there is no brief, and no context. -/
theorem numbered_framework_ends_context :
    brief CoreKind.summary.name numbered.content = .error .frameworks ∧
    (∀ kind, Finds Stored.IsOf ((withArtifact numbered).text? (.artifact kind))
      (.ok (only numbered kind))) ∧
    (codebaseText.run (withArtifact numbered)).1 = .error .unlistable := by
  have hread : Json.read numbered.content = .ok (.obj [("frameworks", .arr [.int 1])]) := by
    refine Json.read_stored (.obj (by simp) ?_)
    simp only [List.forall_mem_cons]
    refine ⟨.arr ?_, by simp⟩
    simp only [List.forall_mem_cons]
    exact ⟨.of_short (by decide), by simp⟩
  have hbrief : brief CoreKind.summary.name numbered.content = .error .frameworks := by
    unfold brief
    rw [hread]
    rfl
  have hclear := clear_withDocument (.artifact numbered.kind) numbered.toJson
  have hfound := finds_first (e := numbered) rfl
  have hsummary : sectionOf (only numbered) .summary = .error .unlistable := by
    -- The summary is complete and has no documentation, so it is told in brief.
    have htold : toldOf numbered = .error .unlistable := by
      unfold toldOf
      rw [show brief numbered.kind.name numbered.content = .error .frameworks from hbrief]
    have hdocs : complete? (only numbered (.docs .summary)) = none := rfl
    have hcore : complete? (only numbered (.core .summary)) = some numbered := rfl
    unfold sectionOf
    simp only [hdocs, DocsKind.source, hcore, htold]
  refine ⟨hbrief, hfound, ?_⟩
  calc (codebaseText.run (withArtifact numbered)).1
      = (sectionOrder.mapM (sectionOf (only numbered))).map fun sections =>
          joined (sections.filterMap fun text? => text?) :=
        (answers_codebaseText hclear hfound).1
    _ = .error .unlistable := by
      rw [sectionOrder, List.mapM_cons, hsummary]
      rfl

end CodeSurvey.Context
