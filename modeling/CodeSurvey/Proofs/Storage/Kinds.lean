import CodeSurvey.Proofs.Storage.Absence
import CodeSurvey.Proofs.Storage.Modes
import CodeSurvey.Proofs.Storage.Upkeep

/-!
# The kinds of artifacts in a store

The kind of an artifact stands in the name of its file and in its record. A record that is read may
name any kind, so what a store gives is of the kind that was asked for if the records of its
documents name the kinds of their files (`State.Sorted.givesKinds`), and only then
(`State.GivesKinds.agreesOnKinds`).

No operation changes that, whatever the schedule says (`StoreOp.keepsSorted`): storing writes a
record of the kind of its file and keeps the one that was there, and restoring puts a record into
the other file of its kind. So it holds along every run (`kinds_are_as_asked_iff`). But a file that
came from elsewhere may have a record of another kind (`other_kind_is_given`).
-/

namespace CodeSurvey.Storage

open CodeSurvey.Artifact
open State (Moves)
open StoreAction

variable {site : Site} {s s' : State}

/-! ## Kinds of documents -/

/-- The kind that the file of a document is named for. -/
def Document.kind? : Document → Option Kind
  | artifact k | previous k => some k
  | _ => none

namespace State

/-- The records of all documents are of the kinds that their files are named for. -/
def AgreesOnKinds (s : State) : Prop :=
  ∀ d k e, d.kind? = some k → s.record? d = some e → e.kind = k

/-- What a store gives of its artifacts is of the kinds that were asked for: what is loaded, what is
listed, and what is there once the one before was restored. -/
structure GivesKinds (s : State) : Prop where
  load : ∀ k e, ((Artifacts.load k).run s).1 = .ok (some e) → e.kind = k
  loadPrevious : ∀ k e, ((Artifacts.loadPrevious k).run s).1 = .ok (some e) → e.kind = k
  list : ∀ es, (Artifacts.list.run s).1 = .ok es →
    (es.map (·.kind)).Nodup ∧ (es.map (·.kind)).Sublist Kind.all
  restore : ∀ k e, ((Artifacts.restore k).run s).2.record? (.artifact k) = some e → e.kind = k

/-- So it is before each of some steps and at the end. -/
def AlwaysGivesKinds : List Step → State → Prop
  | [], s => s.GivesKinds
  | step :: steps, s =>
    s.GivesKinds ∧ AlwaysGivesKinds steps (step.op.perform.run (s.setClock step.now)).2

/-- A store in its place whose records are of the kinds of their files. -/
structure Sorted (site : Site) (s : State) : Prop where
  sited : s.Sited site
  ready : s.store.memory.isSome → s.store.isReady
  kinds : s.AgreesOnKinds

/-- Such a store is one afterwards. -/
def KeepsSorted (site : Site) (s s' : State) : Prop := s.Sorted site → s'.Sorted site

/-- Several steps keep a store sorted if each does. -/
theorem chains_keepsSorted (site : Site) : Chains (KeepsSorted site) where
  refl := fun _ h => h
  trans := fun h h' hs => h' (h hs)

/-- A document with the text of a record has no record of another kind. -/
theorem kind_of_holds {d : Document} {e e' : Stored} (hholds : s.Holds d (some e.toJson.stored))
    (hshort : e.toJson.hasShortInts) (hrecord : s.record? d = some e') : e'.kind = e.kind := by
  rw [record?, value?_of_holds hholds hshort, Option.bind_some] at hrecord
  have hname := (Stored.ofJson?_eq_some.1 hrecord).kind
  have hsame : e.kind.name = e'.kind.name := Json.str.inj (Option.some.inj hname)
  have hkind := Kind.ofName?_eq_some.2 hsame
  rw [Kind.ofName?_name] at hkind
  exact (Option.some.inj hkind).symm

namespace Sorted

/-- What is changed must be of its kind again. -/
theorem of_moves (h : s.Sorted site) {changed : List Document} (hmoves : Moves site changed s s')
    (hchanged : ∀ d ∈ changed, ∀ k e, d.kind? = some k → s'.record? d = some e → e.kind = k) :
    s'.Sorted site where
  sited := hmoves.sited h.sited
  ready := hmoves.ready h.ready
  kinds := by
    intro d k e hkind hrecord
    by_cases hd : d ∈ changed
    · exact hchanged d hd k e hkind hrecord
    · obtain ⟨j, hj, he⟩ := Option.bind_eq_some_iff.1 hrecord
      have hbefore := hmoves.value?_of_some h.ready hd hj
      exact h.kinds d k e hkind (Option.bind_eq_some_iff.2 ⟨j, hbefore, he⟩)

/-- What changes no document. -/
theorem of_unchanged (h : s.Sorted site) (hmoves : Moves site [] s s') : s'.Sorted site :=
  h.of_moves hmoves fun _ hd => absurd hd List.not_mem_nil

/-- A document that is no artifact may be changed. -/
theorem of_other (h : s.Sorted site) {d : Document} (hd : d.kind? = none)
    (hmoves : Moves site [d] s s') : s'.Sorted site := by
  refine h.of_moves hmoves fun d' hd' k e hkind => ?_
  rw [List.mem_singleton.1 hd', hd] at hkind
  cases hkind

/-- A record of its kind may be written. -/
theorem of_written (h : s.Sorted site) {d : Document} {e : Stored} (hd : d.kind? = some e.kind)
    (hmoves : Moves site [d] s s') (hholds : s'.Holds d (some e.toJson.stored))
    (hshort : e.toJson.hasShortInts) : s'.Sorted site := by
  refine h.of_moves hmoves fun d' hd' k e' hkind hrecord => ?_
  obtain rfl := List.mem_singleton.1 hd'
  rw [kind_of_holds hholds hshort hrecord]
  exact Option.some.inj (hd.symm.trans hkind)

/-- A document may be removed. -/
theorem of_removed (h : s.Sorted site) {d : Document} (hmoves : Moves site [d] s s')
    (hgone : s'.Holds d none) : s'.Sorted site := by
  refine h.of_moves hmoves fun d' hd' k e _ hrecord => ?_
  obtain rfl := List.mem_singleton.1 hd'
  rw [record?, value?, hgone.text? (by simp)] at hrecord
  cases hrecord

/-- Another moment makes no difference. -/
theorem setClock (h : s.Sorted site) (now : Time.Moment) : (s.setClock now).Sorted site :=
  ⟨h.sited.congr rfl rfl, h.ready, h.kinds⟩

end Sorted

end State

/-! ## The steps of operations -/

namespace StoreAction

/-- Making the workspace ready. -/
theorem keepsSorted_ensureReady : StaysIn (State.KeepsSorted site) ensureReady :=
  fun _ h => h.of_unchanged (ensureReady_spec h.sited h.ready).moves

/-- Reading a document. -/
theorem keepsSorted_readText (d : Document) : StaysIn (State.KeepsSorted site) (readText d) :=
  fun _ h => h.of_unchanged (readText_spec h.sited d).moves

/-- Reading the value of a document. -/
theorem keepsSorted_readJson (d : Document) : StaysIn (State.KeepsSorted site) (readJson d) :=
  staysIn_readJson (State.chains_keepsSorted site) (keepsSorted_readText d)

/-- Drawing a name. -/
theorem keepsSorted_drawId : StaysIn (State.KeepsSorted site) drawId :=
  fun s h => h.of_unchanged (drawId_spec site s).2.1

/-- Removing a document. -/
theorem keepsSorted_remove (d : Document) : StaysIn (State.KeepsSorted site) (remove d) := by
  intro s h
  refine (remove_spec h.sited d).mono (Q := fun _ s' => s'.Sorted site) ?_
  rintro (e | _ | _) s' ⟨hremoves, -⟩
  · exact h.of_unchanged hremoves.1
  · exact h.of_unchanged hremoves
  · exact h.of_removed hremoves.1 hremoves.2

/-- Writing a document that is no artifact. -/
theorem keepsSorted_writeText {d : Document} (hd : d.kind? = none) (text : String) :
    StaysIn (State.KeepsSorted site) (writeText d text) := by
  intro s h
  refine (ensureReady_spec h.sited h.ready).bind (Q := fun _ s' => s'.Sorted site) ?_ ?_
  · exact fun e s₁ h₁ => h.of_unchanged h₁.moves
  rintro ⟨⟩ s₁ h₁
  -- The workspace is ready, so what follows is writing in a workspace that is ready.
  have hsorted := h.of_unchanged h₁.moves
  have hwrites : Ends (writeText d text) s₁ fun _ s' => s'.Sorted site := by
    refine (writeText_spec hsorted.sited (h₁.isReady rfl) d text).mono ?_
    rintro (e | ⟨⟩) s' hwrites
    · exact hsorted.of_unchanged hwrites.1
    · exact hsorted.of_other hd hwrites.1
  unfold Ends writeText at hwrites
  rwa [run_bind, run_ensureReady (h₁.isReady rfl)] at hwrites

/-- Writing the value of such a document. -/
theorem keepsSorted_writeJson {d : Document} (hd : d.kind? = none) (j : Json) :
    StaysIn (State.KeepsSorted site) (writeJson d j) := by
  unfold writeJson
  split_ifs
  · exact keepsSorted_writeText hd j.stored
  · exact staysIn_throw (State.chains_keepsSorted site) _

/-- Keeping the text of a document as one that is no artifact. -/
theorem keepsSorted_backUp (d : Document) {earlier : Document} (hd : earlier.kind? = none) :
    StaysIn (State.KeepsSorted site) (backUp d earlier) := by
  have hR := State.chains_keepsSorted site
  refine staysIn_suppress hR (.bind hR (keepsSorted_readText d) fun text => ?_)
  cases text with
  | none => exact staysIn_pure hR ()
  | some text => exact keepsSorted_writeText hd text

/-- What is done in a workspace that was made ready. -/
theorem keepsSorted_ready {α : Type} {a : StoreAction α}
    (ha : StaysIn (State.KeepsSorted site) a) :
    StaysIn (State.KeepsSorted site) (do ensureReady; a) :=
  .bind (State.chains_keepsSorted site) keepsSorted_ensureReady fun _ => ha

/-- What is made of the result of an operation. -/
theorem keepsSorted_map {α β : Type} {a : StoreAction α} (ha : StaysIn (State.KeepsSorted site) a)
    (f : α → β) : StaysIn (State.KeepsSorted site) (do return f (← a)) :=
  .bind (State.chains_keepsSorted site) ha fun _ =>
    staysIn_pure (State.chains_keepsSorted site) _

/-- Looking at the clock. -/
theorem keepsSorted_nowText : StaysIn (State.KeepsSorted site) nowText := fun _ h => h

/-- Reading a document and checking its value. -/
theorem keepsSorted_readChecked {α : Type} (d : Document) (check : Json → Option α) :
    StaysIn (State.KeepsSorted site) (do ensureReady; return (← readJson d).bind check) :=
  keepsSorted_ready (keepsSorted_map (keepsSorted_readJson d) _)

/-- What is done with the artifacts of a kind. -/
theorem keepsSorted_onKind {α : Type} {f : Kind → StoreAction α}
    (hf : ∀ k, StaysIn (State.KeepsSorted site) (f k)) (name : String) :
    StaysIn (State.KeepsSorted site) (Artifacts.onKind name f) := by
  unfold Artifacts.onKind
  split
  · exact hf _
  · exact staysIn_throw (State.chains_keepsSorted site) _

end StoreAction

/-! ## Artifacts -/

namespace Artifacts

/-- Loading an artifact. -/
theorem keepsSorted_loadFrom (d : Document) :
    StaysIn (State.KeepsSorted site) (loadFrom d) :=
  keepsSorted_readChecked d _

/-- What is loaded is of the kind that its file is named for. -/
theorem kind_of_loadFrom (h : s.Sorted site) {d : Document} {k : Kind} (hd : d.kind? = some k) :
    Ends (loadFrom d) s fun r s' => s'.Sorted site ∧ ∀ e, r = .ok (some e) → e.kind = k :=
  (loadFrom_spec h.sited h.ready d).mono fun _ _ hloads =>
    ⟨h.of_unchanged hloads.moves, fun e he => h.kinds d k e hd (hloads.record e he)⟩

/-- Storing an artifact: the one that was there is kept as the one before, and both are of the kind
of their files. -/
theorem keepsSorted_store (m : Made) : StaysIn (State.KeepsSorted site) (store m) := by
  intro s h
  refine (ensureReady_spec h.sited h.ready).bind (Q := fun _ s' => s'.Sorted site) ?_ ?_
  · exact fun e s₁ h₁ => h.of_unchanged h₁.moves
  rintro ⟨⟩ s₁ h₁
  have hsorted₁ := h.of_unchanged h₁.moves
  have hloads := (kind_of_loadFrom hsorted₁ (d := .artifact m.kind) rfl).and
    (loadFrom_spec hsorted₁.sited hsorted₁.ready (.artifact m.kind))
  refine hloads.bind (fun e s₂ h₂ => h₂.1.1) fun former s₂ ⟨⟨hsorted₂, hformer⟩, hloads₂⟩ => ?_
  have hready₂ := hloads₂.isReady former rfl
  -- What is kept as the one before was found in the file of its own kind.
  have hkeeps : Ends (keepFormer m.kind former) s₂ fun _ s₃ =>
      s₃.Sorted site ∧ s₃.store.isReady := by
    refine (keepFormer_spec hsorted₂.sited hready₂ m.kind former).mono ?_
    rintro r s₃ ⟨hbacks, -⟩
    refine ⟨?_, (hbacks.moves.mode hready₂).1⟩
    rcases hbacks with hmoves | ⟨text, ⟨e, rfl, hshort, rfl⟩, hmoves, hholds⟩
    · exact hsorted₂.of_unchanged hmoves
    · have hkind : (Document.previous m.kind).kind? = some e.kind := by
        rw [hformer e rfl]
        rfl
      exact hsorted₂.of_written hkind hmoves hholds hshort
  refine hkeeps.bind (fun e s₃ h₃ => h₃.1) fun _ s₃ ⟨hsorted₃, hready₃⟩ => ?_
  refine (replace_spec hsorted₃.sited hready₃ m former).mono ?_
  rintro (e | stored) s₄ h₄
  · exact hsorted₃.of_unchanged h₄.1
  · obtain ⟨⟨id, rfl⟩, hmoves, hholds, hshort⟩ := h₄
    exact hsorted₃.of_written rfl hmoves hholds hshort

/-- Restoring an artifact: the one before is of the kind of both files. -/
theorem keepsSorted_restore (k : Kind) : StaysIn (State.KeepsSorted site) (restore k) := by
  intro s h
  have hR := State.chains_keepsSorted site
  have hloads := (kind_of_loadFrom h (d := .previous k) rfl).and
    (loadFrom_spec h.sited h.ready (.previous k))
  refine hloads.bind (Q := fun _ s' => s'.Sorted site) (fun e s₁ h₁ => h₁.1.1) ?_
  rintro (_ | earlier) s₁ ⟨⟨hsorted₁, hkind⟩, hloads₁⟩
  · exact hsorted₁
  have hkind : (Document.artifact k).kind? = some earlier.kind := by
    rw [hkind earlier rfl]
    rfl
  refine (writeJson_spec hsorted₁.sited (hloads₁.isReady _ rfl) _ earlier.toJson).bind ?_ ?_
  · exact fun e s₂ h₂ => hsorted₁.of_unchanged h₂.1
  rintro ⟨⟩ s₂ ⟨hmoves, hholds, hshort⟩
  -- Whether the one before can be removed or not makes no difference.
  have hrest : StaysIn (State.KeepsSorted site) (do
      suppress (discard (remove (.previous k)))
      return true) :=
    .bind hR (staysIn_suppress hR (.discard hR (keepsSorted_remove _))) fun _ => staysIn_pure hR _
  exact hrest s₂ (hsorted₁.of_written hkind hmoves hholds hshort)

/-- Deleting an artifact. -/
theorem keepsSorted_delete (k : Kind) : StaysIn (State.KeepsSorted site) (delete k) := by
  have hR := State.chains_keepsSorted site
  exact keepsSorted_ready (.bind hR (keepsSorted_remove _) fun _ =>
    .bind hR (.discard hR (keepsSorted_remove _)) fun _ => staysIn_pure hR _)

/-- Listing the artifacts. -/
theorem keepsSorted_list : StaysIn (State.KeepsSorted site) list :=
  keepsSorted_map (.mapM (State.chains_keepsSorted site) (fun _ => keepsSorted_loadFrom _) _) _

end Artifacts

namespace ResearchHistory

/-- Loading the research sessions. -/
theorem keepsSorted_load : StaysIn (State.KeepsSorted site) load := by
  have hR := State.chains_keepsSorted site
  refine keepsSorted_ready (.bind hR (keepsSorted_readJson .research) fun found => ?_)
  dsimp only
  split
  · exact staysIn_pure hR _
  · exact staysIn_throw hR _

/-- Adding a research session. -/
theorem keepsSorted_save (query : String) (findings : List Research.Finding) (summary : String)
    (questions : List String) :
    StaysIn (State.KeepsSorted site) (save query findings summary questions) := by
  have hR := State.chains_keepsSorted site
  refine keepsSorted_ready (.bind hR keepsSorted_drawId fun id => staysIn_get fun s => ?_)
  refine StaysIn.bind hR keepsSorted_load (fun old => ?_) s
  dsimp only
  split
  · exact staysIn_throw hR _
  · exact .bind hR keepsSorted_nowText fun _ =>
      .bind hR (keepsSorted_writeJson rfl _) fun _ => staysIn_pure hR _

end ResearchHistory

/-! ## All operations -/

/-- No operation puts an artifact into a file of another kind. -/
theorem StoreOp.keepsSorted {α : Type} (op : StoreOp α) :
    StaysIn (State.KeepsSorted site) op.perform := by
  have hR := State.chains_keepsSorted site
  cases op with
  | init => exact keepsSorted_ensureReady
  | store => exact keepsSorted_onKind (fun _ => Artifacts.keepsSorted_store _) _
  | load => exact keepsSorted_onKind (fun _ => Artifacts.keepsSorted_loadFrom _) _
  | loadPrevious => exact keepsSorted_onKind (fun _ => Artifacts.keepsSorted_loadFrom _) _
  | has =>
    exact keepsSorted_onKind (fun _ => keepsSorted_map (Artifacts.keepsSorted_loadFrom _) _) _
  | hasPrevious =>
    exact keepsSorted_onKind (fun _ => keepsSorted_map (Artifacts.keepsSorted_loadFrom _) _) _
  | madeAt =>
    exact keepsSorted_onKind (fun _ => keepsSorted_map (Artifacts.keepsSorted_loadFrom _) _) _
  | restore => exact keepsSorted_onKind (fun _ => Artifacts.keepsSorted_restore _) _
  | delete => exact keepsSorted_onKind (fun _ => Artifacts.keepsSorted_delete _) _
  | list => exact Artifacts.keepsSorted_list
  | saveRequirements text =>
    exact keepsSorted_ready (.bind hR keepsSorted_nowText fun _ =>
      .bind hR (keepsSorted_backUp _ rfl) fun _ =>
        .bind hR (keepsSorted_writeJson rfl _) fun _ => staysIn_pure hR _)
  | requirements => exact keepsSorted_readChecked .requirements _
  | hasRequirements => exact keepsSorted_map (keepsSorted_readChecked .requirements _) _
  | requirementsSavedAt => exact keepsSorted_map (keepsSorted_readChecked .requirements _) _
  | saveTasks ts =>
    exact keepsSorted_ready (.bind hR keepsSorted_nowText fun _ =>
      .bind hR (keepsSorted_backUp _ rfl) fun _ => keepsSorted_writeJson rfl _)
  | tasks => exact keepsSorted_ready (keepsSorted_map (keepsSorted_readJson .tasks) _)
  | tasksSavedAt => exact keepsSorted_readChecked .tasks _
  | saveResearch query findings summary questions =>
    exact ResearchHistory.keepsSorted_save query findings summary questions
  | research => exact ResearchHistory.keepsSorted_load
  | latestResearch => exact keepsSorted_map ResearchHistory.keepsSorted_load _
  | researchCount => exact keepsSorted_map ResearchHistory.keepsSorted_load _
  | clearResearch => exact keepsSorted_ready (.discard hR (keepsSorted_remove _))
  | saveSnapshot last => exact keepsSorted_ready (keepsSorted_writeJson rfl _)
  | snapshot => exact keepsSorted_readChecked .snapshot _
  | clearSnapshot => exact keepsSorted_ready (.discard hR (keepsSorted_remove _))

/-! ## What is given -/

namespace Artifacts

/-- Loading the artifacts of some kinds gives artifacts of these. -/
theorem kinds_of_mapM_load (h : s.Sorted site) (ks : List Kind) :
    Ends (ks.mapM Artifacts.load) s fun r _ => ∀ found, r = .ok found →
      List.Forall₂ (fun k f => ∀ e, f = some e → e.kind = k) ks found := by
  induction ks generalizing s with
  | nil =>
    rintro found ⟨⟩
    exact .nil
  | cons k ks ih =>
    rw [List.mapM_cons]
    refine (kind_of_loadFrom h (d := .artifact k) rfl).bind (by simp) fun f s₁ ⟨h₁, hf⟩ => ?_
    refine (ih h₁).bind (by simp) fun found s₂ hfound => ?_
    rintro _ ⟨⟩
    exact .cons (fun e he => hf e (congrArg Except.ok he)) (hfound found rfl)

/-- The kinds of what was found are some of them, in their order. -/
theorem kinds_sublist {ks : List Kind} {found : List (Option Stored)}
    (h : List.Forall₂ (fun k f => ∀ e, f = some e → e.kind = k) ks found) :
    ((found.filterMap fun f => f).map (·.kind)).Sublist ks := by
  induction h with
  | nil => exact .slnil
  | @cons k f ks found hf _ ih =>
    cases f with
    | none => exact ih.cons k
    | some e =>
      rw [List.filterMap_cons_some (f := fun f => f) rfl, List.map_cons, hf e rfl]
      exact ih.cons_cons k

end Artifacts

/-- A store whose records are of the kinds of their files gives what is asked for. -/
theorem State.Sorted.givesKinds (h : s.Sorted site) : s.GivesKinds where
  load := fun k => (Artifacts.kind_of_loadFrom h (d := .artifact k) rfl).2
  loadPrevious := fun k => (Artifacts.kind_of_loadFrom h (d := .previous k) rfl).2
  list := by
    intro es hes
    have hlist : Ends Artifacts.list s fun r _ => ∀ es, r = .ok es →
        (es.map (·.kind)).Sublist Kind.all := by
      refine (Artifacts.kinds_of_mapM_load h Kind.all).bind (by simp) fun found s₁ hfound => ?_
      rintro _ ⟨⟩
      exact Artifacts.kinds_sublist (hfound found rfl)
    have hsublist := hlist es hes
    have hall : Kind.all.Nodup := by decide
    exact ⟨hsublist.nodup hall, hsublist⟩
  restore := fun k e hrecord =>
    (Artifacts.keepsSorted_restore k s h).kinds (.artifact k) k e rfl hrecord

/-- So it does along every run. -/
theorem State.Sorted.alwaysGivesKinds (h : s.Sorted site) (steps : List Step) :
    s.AlwaysGivesKinds steps := by
  -- By the steps of the run; each keeps the records sorted.
  induction steps generalizing s with
  | nil => exact h.givesKinds
  | cons step steps ih => exact ⟨h.givesKinds, ih (step.op.keepsSorted _ (h.setClock step.now))⟩

/-- In a clear state a record of another kind is given. -/
theorem State.GivesKinds.agreesOnKinds (hc : s.Clear site) (h : s.GivesKinds) :
    s.AgreesOnKinds := by
  -- What has a record can be read.
  have hload : ∀ d e, s.record? d = some e → ((Artifacts.loadFrom d).run s).1 = .ok (some e) := by
    intro d e hrecord
    obtain ⟨j, hj, -⟩ := Option.bind_eq_some_iff.1 hrecord
    obtain ⟨text, htext, hread⟩ := Option.bind_eq_some_iff.1 hj
    have hgood : ∀ t, s.text? d = some t → ∃ j, Json.read t = .ok j := by
      intro t ht
      obtain rfl := Option.some.inj (htext.symm.trans ht)
      cases hparsed : Json.read text with
      | ok j => exact ⟨j, rfl⟩
      | error e =>
        rw [hparsed] at hread
        cases hread
    rw [← hrecord]
    exact ((Artifacts.loadFrom_spec hc.toSited hc.ready d).clear hc hgood).1
  intro d k e hkind hrecord
  cases d with
  | artifact k' =>
    obtain rfl := Option.some.inj hkind
    exact h.load k' e (hload _ e hrecord)
  | previous k' =>
    obtain rfl := Option.some.inj hkind
    exact h.loadPrevious k' e (hload _ e hrecord)
  | _ => cases hkind

/-- Where nothing is in the way of documents, whatever they are, a store gives artifacts of the
kinds that were asked for if and only if the records of its documents are of the kinds that their
files are named for. Once they are, it does so along every run of operations under every
schedule. -/
theorem kinds_are_as_asked_iff (s : State) :
    (∀ site, s.Clear site → (s.GivesKinds ↔ s.AgreesOnKinds)) ∧
    (s.Plain → s.AgreesOnKinds → ∀ steps, s.AlwaysGivesKinds steps) := by
  refine ⟨fun site hc => ⟨fun h => h.agreesOnKinds hc, fun h => ?_⟩, fun hs h steps => ?_⟩
  · exact State.Sorted.givesKinds ⟨hc.toSited, hc.ready, h⟩
  · obtain ⟨⟨site, hsited⟩, hready⟩ := hs
    exact State.Sorted.alwaysGivesKinds ⟨hsited, hready, h⟩ steps

/-- A store with no documents has no record of another kind. -/
theorem State.Fresh.agreesOnKinds (h : s.Fresh site) : s.AgreesOnKinds := by
  intro d k e _ hrecord
  rw [record?, value?, (h.holds d).text? (by simp)] at hrecord
  cases hrecord

/-- Artifacts are stored, restored and listed in a workspace with an empty control directory. -/
theorem kinds_are_as_asked_when_restored :
    (State.withEntries [] Faults.none).Clear ⟨["ws", ".contextscan"], ["ws", ".contextscan"], []⟩ ∧
      (State.withEntries [] Faults.none).AgreesOnKinds ∧
      (State.withEntries [] Faults.none).AlwaysGivesKinds
        [⟨⟨⟨2024, 1, 1⟩, .midnight, 0⟩,
            .store "summary" ⟨.core .summary, "{}", "2024-01-01T00:00:00Z", 1, 0, false⟩⟩,
          ⟨⟨⟨2024, 1, 2⟩, .midnight, 0⟩,
            .store "summary" ⟨.core .summary, "[]", "2024-01-02T00:00:00Z", 2, 1, true⟩⟩,
          ⟨⟨⟨2024, 1, 3⟩, .midnight, 0⟩, .restore "summary"⟩,
          ⟨⟨⟨2024, 1, 3⟩, .midnight, 0⟩, .list⟩] := by
  have hclear := State.fresh_withEntries.clear
  have hagrees := State.fresh_withEntries.agreesOnKinds
  have hplain : (State.withEntries [] Faults.none).Plain := ⟨⟨_, hclear.toSited⟩, hclear.ready⟩
  exact ⟨hclear, hagrees, (kinds_are_as_asked_iff _).2 hplain hagrees _⟩

/-- An artifact of one kind in the file of another is given where that one is asked for. -/
theorem other_kind_is_given :
    ∃ e, ((Artifacts.load (.core .directory)).run
        (withDocument (.artifact (.core .directory)) (artifactValue (.int 1)))).1 = .ok (some e) ∧
      e.kind = .core .summary ∧
      ¬(withDocument (.artifact (.core .directory)) (artifactValue (.int 1))).GivesKinds := by
  have hmoment : (Time.Moment.ofText? "2024-05-01T12:00:00.000Z").isSome := by decide +kernel
  have hversion : Json.Readable 958 (.int 1) := .of_short (by decide)
  -- The record is well formed: its own kind is not compared with that of the file.
  have hfinds : Finds Stored.IsOf
      ((withDocument (.artifact (.core .directory)) (artifactValue (.int 1))).text?
        (.artifact (.core .directory)))
      (.ok (some ⟨"a", .core .summary, "ws", "{}",
        ⟨"2024-05-01T12:00:00.000Z", 0, 0, ⟨1, Nat.le_refl 1⟩, none⟩⟩)) := by
    rw [text?_withDocument]
    refine .record (read_artifactValue hversion) ⟨rfl, rfl, rfl, rfl, _, rfl, ?_⟩
    exact ⟨rfl, hmoment, rfl, Int.le_refl 0, rfl, Int.le_refl 0, rfl, .inl rfl⟩
  obtain ⟨found, hfinds', hload⟩ := answers_check
    (clear_withDocument (.artifact (.core .directory)) (artifactValue (.int 1)))
    (.artifact (.core .directory)) Stored.ofJson?_eq_some
  rw [hfinds'.unique Stored.ofJson?_eq_some hfinds] at hload
  refine ⟨_, hload.1, rfl, fun hgives => ?_⟩
  cases hgives.load _ _ hload.1

end CodeSurvey.Storage
