import CodeSurvey.Proofs.Records.Recovery
import CodeSurvey.Proofs.Storage.Operations

/-!
# The record that follows another

In a workspace that is ready, storing an artifact makes a record of its content and its counts, one
version above the record that was there (`store_ready_spec`), and that record is loaded again
unless its file cannot be read (`loadFrom_of_holds`). Storing fails by an error that users are told
if what was there can be read and no number is too long (`store_error_told`).
-/

namespace CodeSurvey.Storage

open CodeSurvey.Artifact CodeSurvey.Files
open State (Moves)
open StoreAction

variable {site : Site} {s s' : State}

/-- Between two states a document shows a record: the one that it has, or none if the schedule hides
the document. -/
def State.Shows (s s' : State) (d : Document) (former : Option Stored) : Prop :=
  former = s.record? d ∨ former = none ∧ s.Hidden s' d

/-- The schedule lets the file of a document be read next. -/
def State.LetsRead (s : State) (d : Document) : Prop :=
  s.host.faults s.host.calls ⟨.read, (s.store.place d).path⟩ = none

namespace Artifacts

/-- A record is that of an artifact, one version above a former record. -/
structure IsNext (m : Made) (former : Option Stored) (e : Stored) : Prop where
  kind : e.kind = m.kind
  content : e.content = m.content
  madeAt : e.metadata.madeAt = m.madeAt
  fileCount : e.metadata.fileCount = m.fileCount
  errorCount : e.metadata.errorCount = m.errorCount
  incomplete : e.isIncomplete = m.incomplete
  version : e.metadata.version.number =
    former.elim 0 (fun former => former.metadata.version.number) + 1

/-- The record that an artifact is kept as is the next one. -/
theorem recordOf_isNext (m : Made) (id path : String) (former : Option Stored) :
    IsNext m former (recordOf m id path former) where
  kind := rfl
  content := rfl
  madeAt := rfl
  fileCount := rfl
  errorCount := rfl
  incomplete := by
    unfold Stored.isIncomplete recordOf
    cases m.incomplete <;> rfl
  version := by cases former <;> rfl

/-- The record of a readable artifact is valid. -/
theorem recordOf_valid {m : Made} (hm : m.Readable) (id path : String) (former : Option Stored) :
    (recordOf m id path former).Valid :=
  ⟨hm.madeAt, hm.fileCount, hm.errorCount⟩

/-! ## Loading -/

/-- How the value of a document of a workspace that is ready is read as a record. -/
theorem loadFrom_ready_spec (hs : s.Sited site) (hready : s.store.isReady) (d : Document) :
    Ends (loadFrom d) s fun r s' => Moves site [] s s' ∧ s'.store = s.store ∧
      ∀ former, r = .ok former → s.Shows s' d former := by
  unfold loadFrom
  refine ends_ensureReady_bind hready ((readJson_spec hs d).bind ?_ ?_)
  · exact fun e s' h => ⟨h.moves, h.store, by simp⟩
  · rintro (_ | j) s' h
    · -- No value was read: there is none, or the document was hidden.
      refine Ends.of_eq (run_pure _ s') ⟨h.moves, h.store, ?_⟩
      rintro former hformer
      obtain rfl := Except.ok.inj hformer
      refine (h.absent rfl).imp (fun hnone => ?_) fun hhidden => ⟨rfl, hhidden⟩
      rw [State.record?, hnone]
    · refine Ends.of_eq (run_pure _ s') ⟨h.moves, h.store, ?_⟩
      rintro former hformer
      obtain rfl := Except.ok.inj hformer
      refine .inl ?_
      rw [State.record?, h.value j rfl]

/-- The text that a document has is read unless its file cannot be read. -/
theorem readText_of_holds (hs : s.Sited site) {d : Document} {text : String}
    (hholds : s.Holds d (some text)) (hreturn : '\r' ∉ text.toList)
    (hread : s.LetsRead d) :
    Ends (readText d) s fun r s' => r = .ok (some text) ∧ s'.store = s.store := by
  unfold readText
  refine ends_get ?_
  cases hmem : s.store.memory with
  | some kept =>
    exact Ends.of_eq (run_pure _ s)
      ⟨congrArg Except.ok ((State.holds_iff_kept hmem d _).1 hholds), rfl⟩
  | none =>
    have hfile : s.host.tree.entry? (site.place d.path) = some (.file text.toUTF8) := by
      rw [← hs.disk?_eq]
      exact (State.holds_iff_disk hmem d _).1 hholds
    have hne : site.names ++ d.path ≠ [] := by rw [d.path_eq]; simp
    have hspec := FileAction.read_spec s.host (hs.route d.plain_paths.1) hne
    rw [← hs.place_path] at hspec
    refine ends_files hspec ?_
    rintro (e | bytes) host ⟨rfl, hres⟩
    · -- The file is there, so only a fault could keep it from being read.
      rcases hres with hfault | ⟨-, hnofile, -⟩
      · cases hread.symm.trans hfault
      · exact absurd hfile (hnofile _)
    · obtain rfl := Entry.file.inj (Option.some.inj (hfile.symm.trans hres))
      refine Ends.of_eq (run_pure _ _) ⟨?_, rfl⟩
      rw [utf8?_toUTF8, Option.map_some, universalLines_eq_self hreturn]

/-- What is loaded from a document with the text of a record is what its value is taken for, unless
its file cannot be read. -/
theorem loadFrom_of_text (hs : s.Sited site) (hready : s.store.isReady) {d : Document} {e : Stored}
    (hholds : s.Holds d (some e.toJson.stored)) (hshort : e.toJson.hasShortInts)
    (hread : s.LetsRead d) :
    Ends (loadFrom d) s fun r _ => r = .ok (Stored.ofJson? e.toJson) := by
  unfold loadFrom readJson
  have htext := readText_of_holds hs hholds (Json.return_notMem_stored _) hread
  refine ends_ensureReady_bind hready (Ends.bind_ok (x := some e.toJson) (P := fun _ => True) ?_ ?_)
  · refine htext.bind_ok fun s' _ => ?_
    dsimp only
    rw [Stored.read_toJson_stored hshort]
    exact Ends.of_eq (run_pure _ s') ⟨rfl, trivial⟩
  · exact fun s' _ => Ends.of_eq (run_pure _ s') rfl

/-- The record that a document has is loaded unless its file cannot be read. -/
theorem loadFrom_of_holds (hs : s.Sited site) (hready : s.store.isReady) {d : Document} {e : Stored}
    (hholds : s.Holds d (some e.toJson.stored)) (hvalid : e.Valid) (hshort : e.toJson.hasShortInts)
    (hread : s.LetsRead d) : Ends (loadFrom d) s fun r _ => r = .ok (some e) := by
  have hload := loadFrom_of_text hs hready hholds hshort hread
  rwa [Stored.ofJson?_toJson hvalid] at hload

/-! ## Storing -/

/-- How storing an artifact in a workspace that is ready ends: its record follows the one that was
there, or at most the one before is changed. -/
theorem store_ready_spec (hs : s.Sited site) (hready : s.store.isReady) (m : Made) :
    Ends (store m) s fun r s' => match r with
      | .ok e => (∃ id former, s.Shows s' (.artifact m.kind) former ∧
          e = recordOf m id s.store.root.text former) ∧
        Moves site [.previous m.kind, .artifact m.kind] s s' ∧
        s'.Holds (.artifact m.kind) (some e.toJson.stored) ∧ e.toJson.hasShortInts
      | .error _ => Moves site [.previous m.kind] s s' := by
  unfold store
  refine ends_ensureReady_bind hready ((loadFrom_ready_spec hs hready _).bind ?_ ?_)
  · exact fun e s₁ h₁ => h₁.1.mono (List.nil_subset _)
  rintro former s₁ ⟨hm₁, hstore₁, hshows⟩
  have hready₁ : s₁.store.isReady := by rw [hstore₁]; exact hready
  refine (keepFormer_spec (hm₁.sited hs) hready₁ m.kind former).bind ?_ ?_
  · exact fun e s₂ h₂ => (hm₁.mono (List.nil_subset _)).trans h₂.1.moves
  rintro ⟨⟩ s₂ ⟨hkeeps, -⟩
  have hm₂ := (hm₁.mono (List.nil_subset _)).trans hkeeps.moves
  refine (replace_spec (hm₂.sited hs) (hm₂.mode hready).1 m former).mono ?_
  rintro (e | e) s₃ h₃
  · exact hm₂.trans (h₃.1.mono (List.nil_subset _))
  obtain ⟨⟨id, rfl⟩, hm₃, hholds, hshort⟩ := h₃
  refine ⟨⟨id, former, ?_, by rw [hm₂.root]⟩, ?_, hholds, hshort⟩
  · -- What was hidden when the record was looked for was hidden while it was stored.
    have hcalls := (hkeeps.moves.host.trans hm₃.host).calls
    exact (hshows former rfl).imp_right fun ⟨hnone, n, hle, hlt, hfault⟩ =>
      ⟨hnone, n, hle, Nat.lt_of_lt_of_le hlt hcalls, hfault⟩
  · exact (hm₂.mono (by simp)).trans (hm₃.mono (by simp))

/-- What is stored follows what is loaded. -/
theorem store_follows (hs : s.Sited site) (hready : s.store.isReady) {m : Made}
    {former : Option Stored} (hload : Ends (load m.kind) s fun r _ => r = .ok former) :
    Ends (store m) s fun r _ => ∀ e, r = .ok e → IsNext m former e := by
  unfold store
  refine ends_ensureReady_bind hready ((hload.and (loadFrom_ready_spec hs hready _)).bind ?_ ?_)
  · rintro e s₁ ⟨he, -⟩
    cases he
  rintro former' s₁ ⟨hformer, hm₁, hstore₁, -⟩
  obtain rfl := Except.ok.inj hformer
  have hready₁ : s₁.store.isReady := by rw [hstore₁]; exact hready
  refine (keepFormer_spec (hm₁.sited hs) hready₁ m.kind former').bind ?_ ?_
  · exact fun e s₂ _ => by simp
  rintro ⟨⟩ s₂ ⟨hkeeps, -⟩
  -- Keeping the former artifact changes only its own document, so the rest applies to it still.
  have hm₂ := (hm₁.mono (List.nil_subset _)).trans hkeeps.moves
  refine (replace_spec (hm₂.sited hs) (hm₂.mode hready).1 m former').mono ?_
  rintro (e | e) s₃ h₃ e' he'
  · cases he'
  · obtain rfl := Except.ok.inj he'
    obtain ⟨⟨id, rfl⟩, -⟩ := h₃
    exact recordOf_isNext m id _ former'

/-! ## Failures -/

/-- Reading a value fails only where the file cannot be read if the text of the document can be
read, or is malformed. -/
theorem readJson_error (hs : s.Sited site) {d : Document}
    (htext : ∀ text e, s.text? d = some text → Json.read text = .error e →
      ∃ flaw place, e = .malformed flaw place) :
    Ends (readJson d) s fun r _ => ∀ e, r = .error e → ∃ e', e = .storage e' := by
  unfold readJson
  refine (readText_spec hs d).bind (fun e s' h e' he => ?_) ?_
  · obtain rfl := Except.error.inj he
    exact h.error e rfl
  rintro (_ | text) s' h
  · exact Ends.of_eq (run_pure _ s') (by simp)
  dsimp only
  cases hread : Json.read text with
  | ok j => exact Ends.of_eq (run_pure _ s') (by simp)
  | error e =>
    obtain ⟨flaw, place, rfl⟩ := htext text e (h.text text rfl) hread
    exact Ends.of_eq (run_pure _ s') (by simp)

/-- The numbers of a record that was read are short. -/
theorem hasShortInts_of_record? {d : Document} {e : Stored} (h : s.record? d = some e) :
    e.toJson.hasShortInts := by
  obtain ⟨j, hj, he⟩ := Option.bind_eq_some_iff.1 h
  obtain ⟨text, -, hread⟩ := Option.bind_eq_some_iff.1 hj
  cases hvalue : Json.read text with
  | error _ =>
    rw [hvalue] at hread
    cases hread
  | ok value =>
    rw [hvalue] at hread
    obtain rfl := Option.some.inj hread
    exact Stored.short_of_proper (Json.proper_of_read hvalue) he

/-- Storing an artifact in a workspace that is ready fails by an error that users are told if what
is there can be read, or is malformed, and no number of its record is too long. -/
theorem store_error_told (hs : s.Sited site) (hready : s.store.isReady) {m : Made}
    (htext : ∀ text e, s.text? (.artifact m.kind) = some text → Json.read text = .error e →
      ∃ flaw place, e = .malformed flaw place)
    (hshort : ∀ id path former, former = none ∨ former = s.record? (.artifact m.kind) →
      (recordOf m id path former).toJson.hasShortInts) :
    Ends (store m) s fun r _ => ∀ e, r = .error e → e.told?.isSome := by
  have hload : Ends (load m.kind) s fun r _ => ∀ e, r = .error e → e.told?.isSome := by
    refine ends_ensureReady_bind hready ((readJson_error hs htext).bind ?_ ?_)
    · intro e s₁ h e' he
      obtain rfl := Except.error.inj he
      obtain ⟨e, rfl⟩ := h e rfl
      rfl
    · exact fun j s₁ _ => Ends.of_eq (run_pure _ s₁) (by simp)
  unfold store
  refine ends_ensureReady_bind hready ((hload.and (loadFrom_ready_spec hs hready _)).bind ?_ ?_)
  · intro e s₁ h e' he
    obtain rfl := Except.error.inj he
    exact h.1 e rfl
  rintro former s₁ ⟨-, hm₁, hstore₁, hshows⟩
  have hready₁ : s₁.store.isReady := by rw [hstore₁]; exact hready
  have hformer : former = none ∨ former = s.record? (.artifact m.kind) :=
    (hshows former rfl).symm.imp_left And.left
  -- The numbers of what was read are short, so it can be written as the one before.
  have hkept : ∀ e, former = some e → e.toJson.hasShortInts := by
    rintro e rfl
    exact hasShortInts_of_record? (hformer.resolve_left (by simp)).symm
  refine (keepFormer_short (hm₁.sited hs) hready₁ m.kind hkept).bind_ok fun s₂ hm₂ => ?_
  unfold replace
  refine (drawId_spec site s₂).bind ?_ ?_
  · rintro e s₃ ⟨⟨_, hid⟩, -⟩
    cases hid
  rintro id s₃ ⟨-, hm₃, -⟩
  have hm := (hm₁.mono (List.nil_subset _)).trans (hm₂.trans (hm₃.mono (List.nil_subset _)))
  refine ends_get ((writeJson_spec (hm.sited hs) (hm.mode hready).1 _ _).bind ?_ ?_)
  · intro e s₄ h₄ e' he
    obtain rfl := Except.error.inj he
    rcases h₄.2 with ⟨-, hlong⟩ | ⟨⟨e, rfl⟩, -⟩
    · exact absurd (hshort _ _ former hformer) hlong
    · rfl
  · exact fun _ s₄ _ => Ends.of_eq (run_pure _ s₄) (by simp)

end Artifacts

end CodeSurvey.Storage
