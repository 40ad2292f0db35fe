import CodeSurvey.Proofs.Artifact.Stored
import CodeSurvey.Proofs.Json.StoredText
import CodeSurvey.Proofs.Storage.Store
import CodeSurvey.Storage.Artifacts
import CodeSurvey.Storage.Planning
import CodeSurvey.Storage.Research
import CodeSurvey.Storage.Snapshots

/-!
# What operations on a store do

Each operation is told by the documents that it changes, whether it fails or not. An operation that
saves a document keeps the former one first if it can (`BacksUp`): when saving fails, at most that
earlier generation is changed. Which record, text or sessions the operation found is said by the
state that it began in.
-/

namespace CodeSurvey.Storage

open CodeSurvey.Artifact CodeSurvey.Files
open State (Moves)
open StoreAction

/-- The artifact in a document. -/
def State.record? (s : State) (d : Document) : Option Stored := (s.value? d).bind Stored.ofJson?

/-- The research sessions. -/
def State.sessions? (s : State) : Option (List Research.Session) :=
  (ResearchHistory.sessionsOf
    ((((s.value? .research).bind (·.get? "sessions")).bind Json.arr?).getD [])).toOption

variable {site : Site} {s s' s'' : State}

/-- A document that holds the text of a record has the value of that record. -/
theorem State.value?_of_holds {d : Document} {e : Stored} (h : s.Holds d (some e.toJson.stored))
    (hshort : e.toJson.hasShortInts) : s.value? d = some e.toJson := by
  have htext : s.text? d = some e.toJson.stored := by
    refine h.text? ?_
    rintro t ⟨⟩
    exact Json.return_notMem_stored _
  rw [value?, htext, Option.bind_some, Stored.read_toJson_stored hshort]
  rfl

/-- It has that record if the record is valid. -/
theorem State.record?_of_holds {d : Document} {e : Stored} (h : s.Holds d (some e.toJson.stored))
    (hvalid : e.Valid) (hshort : e.toJson.hasShortInts) : s.record? d = some e := by
  rw [record?, value?_of_holds h hshort, Option.bind_some, Stored.ofJson?_toJson hvalid]

/-- What an operation does that keeps a text as an earlier generation if it can: it changes some
documents, and the earlier generation is as before or has a text of which `P` holds. -/
def BacksUp (site : Site) (earlier : Document) (changed : List Document) (P : String → Prop)
    (s s' : State) : Prop :=
  Moves site changed s s' ∨
    ∃ text, P text ∧ Moves site (earlier :: changed) s s' ∧ s'.Holds earlier (some text)

/-- After a text may have been kept, documents are changed that are not the earlier generation. -/
theorem BacksUp.trans {earlier : Document} {changed : List Document} {P : String → Prop}
    (h : BacksUp site earlier [] P s s') (hready : s'.store.isReady)
    (h' : Moves site changed s' s'') (hearlier : earlier ∉ changed) :
    BacksUp site earlier changed P s s'' := by
  rcases h with hmoves | ⟨text, hP, hmoves, hholds⟩
  · exact .inl ((hmoves.mono (List.nil_subset _)).trans h')
  · refine .inr ⟨text, hP, (hmoves.mono ?_).trans (h'.mono (List.subset_cons_self _ _)), ?_⟩
    · simp
    · exact (h'.holds_iff (h'.mode hready).2 hearlier _).2 hholds

/-- Before a text may be kept, nothing is changed. -/
theorem BacksUp.of_moves {earlier : Document} {changed : List Document} {P : String → Prop}
    (h : Moves site [] s s') (h' : BacksUp site earlier changed P s' s'') :
    BacksUp site earlier changed P s s'' := by
  rcases h' with hmoves | ⟨text, hP, hmoves, hholds⟩
  · exact .inl ((h.mono (List.nil_subset _)).trans hmoves)
  · exact .inr ⟨text, hP, (h.mono (List.nil_subset _)).trans hmoves, hholds⟩

/-- What holds of the text that is kept may be weakened. -/
theorem BacksUp.imp {earlier : Document} {changed : List Document} {P Q : String → Prop}
    (h : BacksUp site earlier changed P s s') (hPQ : ∀ text, P text → Q text) :
    BacksUp site earlier changed Q s s' :=
  h.imp_right fun ⟨text, hP, hmoves, hholds⟩ => ⟨text, hPQ text hP, hmoves, hholds⟩

/-- The documents that are changed at most. -/
theorem BacksUp.moves {earlier : Document} {changed : List Document} {P : String → Prop}
    (h : BacksUp site earlier changed P s s') : Moves site (earlier :: changed) s s' := by
  rcases h with hmoves | ⟨_, -, hmoves, -⟩
  · exact hmoves.mono (List.subset_cons_self _ _)
  · exact hmoves

/-- How an operation ends that saves a document and may keep an earlier generation before that: the
document has the text of the value that was saved, or the operation fails and the document is as
before. -/
def SavesOver {α : Type} (site : Site) (target earlier : Document) (P : String → Prop)
    (saved : α → Json) (s : State) (r : Except StoreError α) (s' : State) : Prop :=
  match r with
  | .ok x => s'.Holds target (some (saved x).stored) ∧ BacksUp site earlier [target] P s s'
  | .error _ => BacksUp site earlier [] P s s'

/-- Keeping a value as an earlier generation if it can be written. -/
theorem suppress_writeJson_spec (hs : s.Sited site) (hready : s.store.isReady) (d : Document)
    (j : Json) :
    Ends (suppress (writeJson d j)) s fun r s' => match r with
      | .ok () => BacksUp site d [] (fun text => j.hasShortInts ∧ text = j.stored) s s' ∧
        (s.Clear site → s'.Holds d (some j.stored))
      | .error _ => Moves site [] s s' ∧ ¬ j.hasShortInts := by
  refine ends_suppress (writeJson_spec hs hready d j) ?_ ?_ ?_
  · rintro s' ⟨hmoves, hholds, hshort⟩
    exact ⟨.inr ⟨j.stored, ⟨hshort, rfl⟩, hmoves, hholds⟩, fun _ => hholds⟩
  · rintro e s' ⟨hmoves, ⟨he, -⟩ | ⟨-, hclear⟩⟩
    · cases he
    · exact ⟨.inl hmoves, fun hc => absurd hc hclear⟩
  · rintro e s' hother ⟨hmoves, ⟨-, hlong⟩ | ⟨⟨e', he⟩, -⟩⟩
    · exact ⟨hmoves, hlong⟩
    · exact absurd he (hother e')

/-- Keeping the text of a document as an earlier generation if it can be read and written. -/
theorem backUp_spec (hs : s.Sited site) (hready : s.store.isReady) (d earlier : Document) :
    Ends (backUp d earlier) s fun r s' => r = .ok () ∧
      BacksUp site earlier [] (s.text? d = some ·) s s' := by
  unfold backUp
  refine ends_suppress (P := fun r s' => BacksUp site earlier [] (s.text? d = some ·) s s' ∧
    ∀ e, r = .error e → ∃ e', e = .storage e') ?_ (fun s' h => ⟨rfl, h.1⟩)
    (fun e s' h => ⟨rfl, h.1⟩) ?_
  · refine (readText_spec hs d).bind ?_ ?_
    · rintro e s' h
      refine ⟨.inl h.moves, fun e' he => ?_⟩
      obtain rfl := Except.error.inj he
      exact h.error e rfl
    rintro (_ | text) s' h
    · exact Ends.of_eq (run_pure () s') ⟨.inl h.moves, by simp⟩
    · refine (writeText_spec (h.moves.sited hs) (h.moves.mode hready).1 earlier text).mono ?_
      rintro (e | ⟨⟩) s'' hw
      · refine ⟨.inl (h.moves.trans hw.1), fun e' he => ?_⟩
        obtain rfl := Except.error.inj he
        exact hw.2.1
      · exact ⟨.inr ⟨text, h.text text rfl, (h.moves.mono (List.nil_subset _)).trans hw.1, hw.2⟩,
          by simp⟩
  · -- Only errors of the storage are passed over, and no other one can occur.
    rintro e s' hother ⟨-, he⟩
    obtain ⟨e', rfl⟩ := he e rfl
    exact absurd rfl (hother e')

/-- Removing a document, whether or not it is there. -/
theorem discard_remove_spec (hs : s.Sited site) (d : Document) :
    Ends (discard (remove d)) s fun r s' => match r with
      | .ok _ => Moves site [d] s s'
      | .error e => Moves site [] s s' ∧ ∃ e', e = .storage e' := by
  refine (remove_spec hs d).discard ?_ ?_
  · exact fun e s' h => h.1
  · rintro (_ | _) s' ⟨h, -⟩
    · exact Moves.mono h (List.nil_subset _)
    · exact h.1

/-- The same, whether or not it can be removed. -/
theorem suppress_remove_spec (hs : s.Sited site) (d : Document) :
    Ends (suppress (discard (remove d))) s fun r s' => r = .ok () ∧ Moves site [d] s s' := by
  refine ends_suppress (discard_remove_spec hs d) (fun s' h => ⟨rfl, h⟩)
    (fun e s' h => ⟨rfl, h.1.mono (List.nil_subset _)⟩) ?_
  rintro e s' hother ⟨-, e', rfl⟩
  exact absurd rfl (hother e')

/-- The next name changes no document. -/
theorem drawId_spec (site : Site) (s : State) :
    Ends drawId s fun r s' => (∃ id, r = .ok id) ∧ Moves site [] s s' ∧ s'.store = s.store := by
  have hmoves : Moves site [] s { s with host := { s.host with ids := s.host.ids + 1 } } :=
    .of_tree ⟨rfl, rfl, Nat.le_refl _⟩ rfl
  exact Ends.of_eq (r := .ok (s.host.idStart ++ toString (s.host.ids + 1))) rfl
    ⟨⟨_, rfl⟩, hmoves, rfl⟩

namespace Artifacts

/-! ## Artifacts -/

/-- How loading an artifact ends: nothing is changed, and what is loaded is in the document. -/
structure Loads (site : Site) (d : Document) (s : State) (r : Except StoreError (Option Stored))
    (s' : State) : Prop where
  moves : Moves site [] s s'
  isReady : ∀ x, r = .ok x → s'.store.isReady
  record : ∀ x, r = .ok (some x) → s.record? d = some x
  clear : s.Clear site → (∀ text, s.text? d = some text → ∃ j, Json.read text = .ok j) →
    r = .ok (s.record? d) ∧ s'.store.memory = s.store.memory

/-- Loading an artifact. -/
theorem loadFrom_spec (hs : s.Sited site) (hmem : s.store.memory.isSome → s.store.isReady)
    (d : Document) : Ends (loadFrom d) s (Loads site d s) := by
  unfold loadFrom
  refine (ensureReady_spec hs hmem).bind ?_ ?_
  · intro e s₁ h
    refine ⟨h.moves, by simp, by simp, fun hc => ?_⟩
    cases (h.clear hc).1
  rintro ⟨⟩ s₁ h₁
  -- Making the workspace ready leaves the text of the document, so in a clear state it is read.
  have hclear : s.Clear site → (∀ text, s.text? d = some text → ∃ j, Json.read text = .ok j) →
      ∀ r s₂, ReadsJson site d s₁ r s₂ →
        r = .ok (s.value? d) ∧ s₂.store.memory = s.store.memory := by
    intro hc hgood r s₂ h₂
    have hmem₁ := (h₁.clear hc).2
    have htext := h₁.moves.text?_eq (by rw [hmem₁]) (List.not_mem_nil (a := d))
    have hr := h₂.clear (h₁.moves.clear hc) (by rwa [htext])
    rw [State.value?, htext] at hr
    exact ⟨hr, by rw [h₂.store, hmem₁]⟩
  refine (readJson_spec (h₁.moves.sited hs) d).bind ?_ ?_
  · intro e s₂ h₂
    refine ⟨h₁.moves.trans h₂.moves, by simp, by simp, fun hc hgood => ?_⟩
    cases (hclear hc hgood _ s₂ h₂).1
  · intro j s₂ h₂
    refine Ends.of_eq (run_pure _ s₂) ⟨h₁.moves.trans h₂.moves, fun _ _ => ?_, fun x hx => ?_,
      fun hc hgood => ?_⟩
    · exact (h₂.moves.mode (h₁.isReady rfl)).1
    · obtain ⟨value, rfl, hrecord⟩ := Option.bind_eq_some_iff.1 (Except.ok.inj hx)
      have hvalue := h₁.moves.value?_of_some hmem (List.not_mem_nil) (h₂.value value rfl)
      exact Option.bind_eq_some_iff.2 ⟨value, hvalue, hrecord⟩
    · obtain ⟨hj, hmemory⟩ := hclear hc hgood _ s₂ h₂
      rw [Except.ok.inj hj]
      exact ⟨rfl, hmemory⟩

/-- A text is that of the record in a document. -/
def IsRecordText (s : State) (d : Document) (text : String) : Prop :=
  ∃ e, s.record? d = some e ∧ e.toJson.hasShortInts ∧ text = e.toJson.stored

/-- Keeping the artifact that is there: unless something is in the way, it is the one before
then. -/
theorem keepFormer_spec (hs : s.Sited site) (hready : s.store.isReady) (k : Kind)
    (former : Option Stored) :
    Ends (keepFormer k former) s fun r s' =>
      BacksUp site (.previous k) [] (fun text => ∃ e, former = some e ∧
        e.toJson.hasShortInts ∧ text = e.toJson.stored) s s' ∧
      (s.Clear site → ∀ e, former = some e → e.toJson.hasShortInts →
        r = .ok () ∧ s'.Holds (.previous k) (some e.toJson.stored)) := by
  cases former with
  | none => exact Ends.of_eq (run_pure () s) ⟨.inl (.refl s), by simp⟩
  | some e =>
    refine (suppress_writeJson_spec hs hready (.previous k) e.toJson).mono ?_
    rintro (e' | ⟨⟩) s' h
    · refine ⟨.inl h.1, ?_⟩
      rintro - e ⟨⟩ hshort
      exact absurd hshort h.2
    · refine ⟨h.1.imp fun text htext => ⟨e, rfl, htext⟩, ?_⟩
      rintro hc e ⟨⟩ -
      exact ⟨rfl, h.2 hc⟩

/-- Keeping it does not fail if its numbers are short. -/
theorem keepFormer_short (hs : s.Sited site) (hready : s.store.isReady) (k : Kind)
    {former : Option Stored} (hshort : ∀ e, former = some e → e.toJson.hasShortInts) :
    Ends (keepFormer k former) s fun r s' => r = .ok () ∧ Moves site [.previous k] s s' := by
  cases former with
  | none => exact Ends.of_eq (run_pure () s) ⟨rfl, .refl s⟩
  | some e =>
    refine (suppress_writeJson_spec hs hready (.previous k) e.toJson).mono ?_
    rintro (e' | ⟨⟩) s' h
    · exact absurd (hshort e rfl) h.2
    · exact ⟨rfl, h.1.moves⟩

/-- Keeping an artifact in place of the one that is there. It fails if a number of its record is too
long, and otherwise only if something is in the way. -/
theorem replace_spec (hs : s.Sited site) (hready : s.store.isReady) (m : Made)
    (former : Option Stored) :
    Ends (replace m former) s fun r s' => match r with
      | .ok stored => (∃ id, stored = recordOf m id s.store.root.text former) ∧
        Moves site [.artifact m.kind] s s' ∧
        s'.Holds (.artifact m.kind) (some stored.toJson.stored) ∧ stored.toJson.hasShortInts
      | .error e => Moves site [] s s' ∧ (s.Clear site → e = .longNumber ∧
        ∃ id path, ¬ (recordOf m id path former).toJson.hasShortInts) := by
  unfold replace
  refine (drawId_spec site s).bind ?_ ?_
  · rintro e s₁ ⟨⟨_, hid⟩, -⟩
    cases hid
  rintro id s₁ ⟨-, hm₁, hstore⟩
  refine ends_get ?_
  rw [hstore]
  refine (writeJson_spec (hm₁.sited hs) (hm₁.mode hready).1 _ _).bind ?_ ?_
  · rintro e s₂ ⟨hm₂, hwhy⟩
    refine ⟨hm₁.trans hm₂, fun hc => ?_⟩
    -- In a clear state nothing is in the way, so the record itself was at fault.
    rcases hwhy with ⟨rfl, hlong⟩ | ⟨-, hclear⟩
    · exact ⟨rfl, id, _, hlong⟩
    · exact absurd (hm₁.clear hc) hclear
  rintro ⟨⟩ s₂ ⟨hm₂, hholds, hshort⟩
  exact Ends.of_eq (run_pure _ s₂)
    ⟨⟨id, rfl⟩, (hm₁.mono (List.nil_subset _)).trans hm₂, hholds, hshort⟩

/-- Storing an artifact: the artifact of its kind is changed only if it succeeds, and the one before
may be the one that was there then. -/
theorem store_spec (hs : s.Sited site) (hmem : s.store.memory.isSome → s.store.isReady)
    (m : Made) :
    Ends (store m) s (SavesOver site (.artifact m.kind) (.previous m.kind)
      (IsRecordText s (.artifact m.kind)) Stored.toJson s) := by
  unfold store
  refine (ensureReady_spec hs hmem).bind ?_ ?_
  · exact fun e s₁ h₁ => .inl h₁.moves
  rintro ⟨⟩ s₁ h₁
  have hready₁ := h₁.isReady rfl
  -- Loading changes nothing, and the record that it finds was there in the beginning.
  refine (loadFrom_spec (h₁.moves.sited hs) (fun _ => hready₁) (.artifact m.kind)).bind ?_ ?_
  · exact fun e s₂ h₂ => .inl (h₁.moves.trans h₂.moves)
  intro former s₂ h₂
  have hm₂ := h₁.moves.trans h₂.moves
  have hfound : ∀ text, (∃ e, former = some e ∧ e.toJson.hasShortInts ∧ text = e.toJson.stored) →
      IsRecordText s (.artifact m.kind) text := by
    rintro text ⟨e, rfl, htext⟩
    obtain ⟨j, hj, he⟩ := Option.bind_eq_some_iff.1 (h₂.record e rfl)
    have hvalue := h₁.moves.value?_of_some hmem (List.not_mem_nil) hj
    exact ⟨e, Option.bind_eq_some_iff.2 ⟨j, hvalue, he⟩, htext⟩
  -- The record is kept as the earlier one, or not.
  refine (keepFormer_spec (hm₂.sited hs) (h₂.isReady former rfl) m.kind former).bind ?_ ?_
  · exact fun e s₃ h₃ => .of_moves hm₂ (h₃.1.imp hfound)
  rintro ⟨⟩ s₃ ⟨h₃, -⟩
  have hb₃ := BacksUp.of_moves hm₂ (h₃.imp hfound)
  have hready₃ := (h₃.moves.mode (h₂.isReady former rfl)).1
  -- Only then the artifact itself is changed.
  refine (replace_spec (hb₃.moves.sited hs) hready₃ m former).mono ?_
  rintro (e | stored) s₄ h₄
  · exact hb₃.trans hready₃ h₄.1 (List.not_mem_nil)
  · exact ⟨h₄.2.2.1, hb₃.trans hready₃ h₄.2.1 (by simp)⟩

/-- Restoring an artifact: the one before takes the place of the one that is there, and then may be
gone. Nothing is changed if it fails or finds none. -/
theorem restore_spec (hs : s.Sited site) (hmem : s.store.memory.isSome → s.store.isReady)
    (k : Kind) :
    Ends (restore k) s fun r s' => match r with
      | .ok true => Moves site [.artifact k, .previous k] s s' ∧ ∃ e,
        s.record? (.previous k) = some e ∧ s'.Holds (.artifact k) (some e.toJson.stored)
      | .ok false => Moves site [] s s'
      | .error _ => Moves site [] s s' := by
  unfold restore
  refine (loadFrom_spec hs hmem (.previous k)).bind ?_ ?_
  · exact fun e s₁ h₁ => h₁.moves
  rintro (_ | earlier) s₁ h₁
  · -- There is none before.
    exact Ends.of_eq (run_pure false s₁) h₁.moves
  have hready₁ := h₁.isReady _ rfl
  refine (writeJson_spec (h₁.moves.sited hs) hready₁ (.artifact k) earlier.toJson).bind ?_ ?_
  · exact fun e s₂ h₂ => h₁.moves.trans h₂.1
  rintro ⟨⟩ s₂ ⟨hm₂, hholds, -⟩
  have hm₂' := (h₁.moves.mono (List.nil_subset _)).trans hm₂
  have hready₂ := (hm₂.mode hready₁).1
  -- Whether the one before can be removed or not, the artifact is restored.
  refine (suppress_remove_spec (hm₂'.sited hs) (.previous k)).bind_ok fun s₃ hm₃ => ?_
  refine Ends.of_eq (run_pure true s₃)
    ⟨(hm₂'.mono (by simp)).trans (hm₃.mono (by simp)), earlier, h₁.record earlier rfl, ?_⟩
  exact (hm₃.holds_iff (hm₃.mode hready₂).2 (by simp) _).2 hholds

/-- Deleting an artifact: it is removed first and then the one before, and a failure leaves what was
not removed. -/
theorem delete_spec (hs : s.Sited site) (hmem : s.store.memory.isSome → s.store.isReady)
    (k : Kind) :
    Ends (delete k) s fun r s' => match r with
      | .ok _ => Moves site [.artifact k, .previous k] s s'
      | .error _ => Moves site [] s s' ∨
        (Moves site [.artifact k] s s' ∧ s'.Holds (.artifact k) none) := by
  unfold delete
  refine (ensureReady_spec hs hmem).bind ?_ ?_
  · exact fun e s₁ h₁ => .inl h₁.moves
  rintro ⟨⟩ s₁ h₁
  refine (remove_spec (h₁.moves.sited hs) (.artifact k)).bind ?_ ?_
  · exact fun e s₂ h₂ => .inl (h₁.moves.trans h₂.1.1)
  intro removed s₂ ⟨h₂, _⟩
  have hremoved : Moves site [] s s₂ ∨
      (Moves site [.artifact k] s s₂ ∧ s₂.Holds (.artifact k) none) := by
    cases removed with
    | true => exact .inr ⟨(h₁.moves.mono (List.nil_subset _)).trans h₂.1, h₂.2⟩
    | false => exact .inl (h₁.moves.trans h₂)
  -- In either case the artifact is changed at most, before the one before it is looked at.
  have hm₂ : Moves site [.artifact k] s s₂ :=
    hremoved.elim (fun h => h.mono (List.nil_subset _)) (fun h => h.1)
  have hready₂ : s₂.store.isReady := by
    cases removed with
    | true => exact (h₂.1.mode (h₁.isReady rfl)).1
    | false => exact (Moves.mode h₂ (h₁.isReady rfl)).1
  refine Ends.bind (P := fun r s₃ => match r with
    | .ok _ => Moves site [.artifact k, .previous k] s s₃
    | .error _ => Moves site [] s s₃ ∨
      (Moves site [.artifact k] s s₃ ∧ s₃.Holds (.artifact k) none)) ?_ ?_ ?_
  · refine (discard_remove_spec (hm₂.sited hs) (.previous k)).mono ?_
    rintro (e | ⟨⟩) s₃ h₃
    · -- What was removed before stays away.
      refine hremoved.imp (fun h => h.trans h₃.1)
        fun h => ⟨h.1.trans (h₃.1.mono (List.nil_subset _)), ?_⟩
      exact (h₃.1.holds_iff (h₃.1.mode hready₂).2 (by simp) _).2 h.2
    · exact (hm₂.mono (by simp)).trans (Moves.mono h₃ (by simp))
  · exact fun e s₃ h => h
  · exact fun _ s₃ h => Ends.of_eq (run_pure removed s₃) h

end Artifacts

/-! ## Other documents -/

/-- Saving a planning document: the text that was there may be kept, and the document is changed
only if saving succeeds. -/
theorem backUp_writeJson_spec (hs : s.Sited site) (hready : s.store.isReady) {d earlier : Document}
    (hne : earlier ≠ d) (j : Json) :
    Ends (backUp d earlier >>= fun _ => writeJson d j) s
      (SavesOver site d earlier (s.text? d = some ·) (fun _ => j) s) := by
  refine (backUp_spec hs hready d earlier).bind_ok fun s₁ h₁ => ?_
  have hready₁ := (h₁.moves.mode hready).1
  refine (writeJson_spec (h₁.moves.sited hs) hready₁ d j).mono ?_
  rintro (e | ⟨⟩) s₂ h₂
  · exact h₁.trans hready₁ h₂.1 (List.not_mem_nil)
  · exact ⟨h₂.2.1, h₁.trans hready₁ h₂.1 (by simpa using hne)⟩

namespace Planning

/-- Saving the requirements. -/
theorem saveRequirements_spec (hs : s.Sited site) (hmem : s.store.memory.isSome → s.store.isReady)
    (text : String) :
    Ends (saveRequirements text) s (SavesOver site .requirements .earlierRequirements
      (s.text? .requirements = some ·) Planning.Requirements.toJson s) := by
  unfold saveRequirements
  refine (ensureReady_spec hs hmem).bind ?_ ?_
  · exact fun e s₁ h₁ => .inl h₁.moves
  rintro ⟨⟩ s₁ h₁
  have hsaved := backUp_writeJson_spec (h₁.moves.sited hs) (h₁.isReady rfl)
    (show Document.earlierRequirements ≠ .requirements by decide)
    (Planning.Requirements.toJson ⟨text, s₁.host.nowText⟩)
  -- The store may have changed over to memory, but a text that it has now it had before.
  have htext : ∀ t, s₁.text? .requirements = some t → s.text? .requirements = some t :=
    fun t => h₁.moves.text?_of_some hmem (List.not_mem_nil)
  refine ends_nowText ?_
  dsimp only
  rw [← bind_assoc]
  refine hsaved.bind ?_ ?_
  · exact fun e s₂ h₂ => .of_moves h₁.moves (h₂.imp htext)
  · rintro ⟨⟩ s₂ ⟨hholds, h₂⟩
    exact Ends.of_eq (run_pure _ s₂) ⟨hholds, .of_moves h₁.moves (h₂.imp htext)⟩

/-- The value that tasks are kept as. -/
def tasksJson (ts : List Planning.Task) (now : String) : Json :=
  .obj [("tasks", .arr (ts.map Planning.Task.toJson)), ("updatedAtUtc", .str now)]

/-- Saving the tasks. -/
theorem saveTasks_spec (hs : s.Sited site) (hmem : s.store.memory.isSome → s.store.isReady)
    (ts : List Planning.Task) :
    Ends (saveTasks ts) s (SavesOver site .tasks .earlierTasks (s.text? .tasks = some ·)
      (fun _ => tasksJson ts s.host.nowText) s) := by
  unfold saveTasks
  refine (ensureReady_spec hs hmem).bind ?_ ?_
  · exact fun e s₁ h₁ => .inl h₁.moves
  rintro ⟨⟩ s₁ h₁
  have hnow : s₁.host.nowText = s.host.nowText := by
    rw [Host.nowText, Host.nowText, h₁.moves.host.now]
  have htext : ∀ t, s₁.text? .tasks = some t → s.text? .tasks = some t :=
    fun t => h₁.moves.text?_of_some hmem (List.not_mem_nil)
  refine ends_nowText ?_
  rw [hnow]
  refine (backUp_writeJson_spec (h₁.moves.sited hs) (h₁.isReady rfl)
    (show Document.earlierTasks ≠ .tasks by decide) (tasksJson ts s.host.nowText)).mono ?_
  rintro (e | ⟨⟩) s₂ h₂
  · exact .of_moves h₁.moves (h₂.imp htext)
  · exact ⟨h₂.1, .of_moves h₁.moves (h₂.2.imp htext)⟩

end Planning

namespace ResearchHistory

/-- The value that the research sessions are kept as. -/
def sessionsJson (values : List Json) (now : String) : Json :=
  .obj [("sessions", .arr values), ("updatedAtUtc", .str now)]

/-- Loading the research sessions changes nothing. What is loaded is in the document, unless the
schedule says that there is no file. -/
theorem load_spec (hs : s.Sited site) (hready : s.store.isReady) :
    Ends load s fun r s' => Moves site [] s s' ∧ ∀ old, r = .ok old →
      s.sessions? = some old ∨ (old = [] ∧ s.Hidden s' .research) := by
  unfold load
  refine ends_ensureReady_bind hready ?_
  refine (readJson_spec hs .research).bind ?_ ?_
  · exact fun e s₂ h₂ => ⟨h₂.moves, by simp⟩
  intro found s₂ h₂
  have hfound : found = s.value? .research ∨ (found = none ∧ s.Hidden s₂ .research) := by
    cases found with
    | some j => exact .inl (h₂.value j rfl).symm
    | none => exact (h₂.absent rfl).imp Eq.symm fun h => ⟨rfl, h⟩
  -- Sessions that are no sessions end the operation.
  dsimp only
  cases hsessions : sessionsOf (((found.bind (·.get? "sessions")).bind Json.arr?).getD []) with
  | error e =>
    cases e
    exact Ends.of_eq (run_throw _ s₂) ⟨h₂.moves, by simp⟩
  | ok old =>
    refine Ends.of_eq (run_pure old s₂) ⟨h₂.moves, fun old' hold => ?_⟩
    obtain rfl := Except.ok.inj hold
    rcases hfound with rfl | ⟨rfl, hfault⟩
    · exact .inl (by rw [State.sessions?, hsessions]; rfl)
    · exact .inr ⟨(Except.ok.inj hsessions).symm, hfault⟩

/-- Adding a research session: the document is changed only if it succeeds, and holds the last
sessions then. -/
theorem save_spec (hs : s.Sited site) (hready : s.store.isReady)
    (query : String) (findings : List Research.Finding) (summary : String)
    (questions : List String) :
    Ends (save query findings summary questions) s fun r s' => match r with
      | .ok session => Moves site [.research] s s' ∧ ∃ old values,
        (s.sessions? = some old ∨ (old = [] ∧ s.Hidden s' .research)) ∧
        (lastOnes (old ++ [session])).mapM Research.Session.toJson? = some values ∧
        s'.Holds .research (some (sessionsJson values s.host.nowText).stored)
      | .error _ => Moves site [] s s' := by
  unfold save
  refine ends_ensureReady_bind hready ?_
  refine (drawId_spec site s).bind ?_ ?_
  · exact fun e s₂ h₂ => h₂.2.1
  rintro id s₂ ⟨-, hm₂, hstore₂⟩
  refine ends_get ?_
  have hready₂ := (hm₂.mode hready).1
  refine (load_spec (hm₂.sited hs) hready₂).bind ?_ ?_
  · exact fun e s₃ h₃ => hm₂.trans h₃.1
  rintro old s₃ ⟨hm₃, hold⟩
  have hm₃' := hm₂.trans hm₃
  dsimp only
  split
  · exact Ends.of_eq (run_throw _ s₃) hm₃'
  · rename_i values hvalues
    refine ends_nowText ?_
    have hnow : s₃.host.nowText = s.host.nowText := by
      rw [Host.nowText, Host.nowText, hm₃'.host.now]
    rw [hnow]
    refine (writeJson_spec (hm₃'.sited hs) (hm₃'.mode hready).1 .research
      (sessionsJson values s.host.nowText)).bind ?_ ?_
    · exact fun e s₄ h₄ => hm₃'.trans h₄.1
    rintro ⟨⟩ s₄ ⟨hm₄, hholds, -⟩
    refine Ends.of_eq (run_pure _ s₄) ⟨(hm₃'.mono (List.nil_subset _)).trans hm₄, old, values, ?_,
      hvalues, hholds⟩
    -- What was loaded was there before the name of the session was drawn.
    rcases hold old rfl with hfound | ⟨hnil, hhidden⟩
    · have hmode := (hm₂.mode hready).2
      rw [State.sessions?, State.value?, hm₂.text?_eq hmode (List.not_mem_nil)] at hfound
      exact .inl hfound
    · exact .inr ⟨hnil, hm₂.hidden hhidden hm₄.host.calls⟩

end ResearchHistory

namespace LastSnapshot

/-- Saving the last snapshot. -/
theorem save_spec (hs : s.Sited site) (hmem : s.store.memory.isSome → s.store.isReady)
    (snapshot : Survey.Snapshot) :
    Ends (save snapshot) s fun r s' => match r with
      | .ok () => Moves site [.snapshot] s s' ∧
        s'.Holds .snapshot (some snapshot.toJson.stored)
      | .error _ => Moves site [] s s' := by
  unfold save
  refine (ensureReady_spec hs hmem).bind ?_ ?_
  · exact fun e s₁ h₁ => h₁.moves
  rintro ⟨⟩ s₁ h₁
  refine (writeJson_spec (h₁.moves.sited hs) (h₁.isReady rfl) .snapshot snapshot.toJson).mono ?_
  rintro (e | ⟨⟩) s₂ h₂
  · exact h₁.moves.trans h₂.1
  · exact ⟨(h₁.moves.mono (List.nil_subset _)).trans h₂.1, h₂.2.1⟩

end LastSnapshot

end CodeSurvey.Storage
