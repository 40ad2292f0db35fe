import CodeSurvey.Proofs.Storage.Operations
import Mathlib.Algebra.Group.Nat.Defs
import Mathlib.Logic.Function.Basic

/-!
# The version chain of artifacts

Of each kind a store keeps the current artifact and the one before. What is kept is told by a shelf
of records, and every operation by what it gives and what it leaves on the shelf (`Shelf.Gives`).
A run that starts with an empty control directory goes by the shelf at every step
(`versions_are_chained`): there is one before only with a current one, which is the next version
(`Shelf.Linked`), the documents are the texts of the records, and loading gives the records
(`State.Keeps`).

An operation fails only if a number of the record that it makes has too many digits to be written.
By then the current record has been kept as the one before, so that there are two records of one
version (`two_of_one_version_after_long_count`).
-/

namespace CodeSurvey.Storage

open CodeSurvey.Artifact CodeSurvey.Files
open State (Moves)

/-! ## Operations and what they are to do -/

/-- An operation on the artifacts of a store. -/
inductive ArtifactOp where
  | store (m : Made)
  | restore (k : Kind)
  | delete (k : Kind)
  | load (k : Kind)
  | loadPrevious (k : Kind)

/-- What an operation gives. -/
inductive Answer where
  /-- The record of an artifact that was stored. -/
  | stored (e : Stored)
  /-- The record that was found, if there is one. -/
  | found (e : Option Stored)
  /-- Whether there was something to be done. -/
  | done (b : Bool)

/-- An operation with what it gives. -/
def ArtifactOp.perform : ArtifactOp → StoreAction Answer
  | store m => return .stored (← Artifacts.store m)
  | restore k => return .done (← Artifacts.restore k)
  | delete k => return .done (← Artifacts.delete k)
  | load k => return .found (← Artifacts.load k)
  | loadPrevious k => return .found (← Artifacts.loadPrevious k)

/-- The records of all kinds: the current one and the one before. -/
structure Shelf where
  current : Kind → Option Stored
  previous : Kind → Option Stored

namespace Shelf

/-- No records. -/
def empty : Shelf := ⟨fun _ => none, fun _ => none⟩

/-- The records with those of one kind replaced. -/
def set (h : Shelf) (k : Kind) (current previous : Option Stored) : Shelf :=
  ⟨Function.update h.current k current, Function.update h.previous k previous⟩

/-- The records of the kind that are replaced. -/
theorem set_same (h : Shelf) (k : Kind) (current previous : Option Stored) :
    (h.set k current previous).current k = current ∧
      (h.set k current previous).previous k = previous :=
  ⟨Function.update_self _ _ _, Function.update_self _ _ _⟩

/-- The records of all other kinds are the same. -/
theorem set_other (h : Shelf) {k k' : Kind} (hk : k' ≠ k) (current previous : Option Stored) :
    (h.set k current previous).current k' = h.current k' ∧
      (h.set k current previous).previous k' = h.previous k' :=
  ⟨Function.update_of_ne hk _ _, Function.update_of_ne hk _ _⟩

/-- The records of any kind are the new ones or the old ones. -/
theorem set_cases (h : Shelf) (k k' : Kind) (current previous : Option Stored) :
    (k' = k ∧ (h.set k current previous).current k' = current ∧
      (h.set k current previous).previous k' = previous) ∨
    (k' ≠ k ∧ (h.set k current previous).current k' = h.current k' ∧
      (h.set k current previous).previous k' = h.previous k') := by
  rcases eq_or_ne k' k with rfl | hk
  · exact .inl ⟨rfl, h.set_same k' current previous⟩
  · exact .inr ⟨hk, h.set_other hk current previous⟩

/-- There is one before only with a current one, which is the next version. -/
def Linked (h : Shelf) : Prop :=
  ∀ k earlier, h.previous k = some earlier → ∃ e, h.current k = some e ∧
    e.metadata.version.number = earlier.metadata.version.number + 1

/-- Without a current one there is none before. -/
theorem Linked.previous_eq_none {h : Shelf} (hlinked : h.Linked) {k : Kind}
    (hcurrent : h.current k = none) : h.previous k = none := by
  by_contra hne
  obtain ⟨earlier, hearlier⟩ := Option.ne_none_iff_exists'.1 hne
  obtain ⟨e, he, -⟩ := hlinked k earlier hearlier
  cases hcurrent.symm.trans he

/-- What an operation gives, and which records there are after it. -/
def Gives (h : Shelf) (op : ArtifactOp) (x : Answer) (h' : Shelf) : Prop :=
  match op with
  | .store m => ∃ e, x = .stored e ∧
      (∃ id path, e = Artifacts.recordOf m id path (h.current m.kind)) ∧
      e.metadata.version.number =
        (h.current m.kind).elim 0 (fun former => former.metadata.version.number) + 1 ∧
      h' = h.set m.kind (some e) (h.current m.kind)
  | .restore k => match h.previous k with
    | some earlier => x = .done true ∧ h' = h.set k (some earlier) none
    | none => x = .done false ∧ h' = h
  | .delete k => x = .done (h.current k).isSome ∧ h' = h.set k none none
  | .load k => x = .found (h.current k) ∧ h' = h
  | .loadPrevious k => x = .found (h.previous k) ∧ h' = h

/-- Whether an operation makes a record with a number that is too long to be written. -/
def TooLong (h : Shelf) : ArtifactOp → Prop
  | .store m => ∃ id path,
      ¬ (Artifacts.recordOf m id path (h.current m.kind)).toJson.hasShortInts
  | _ => False

end Shelf

/-- A store keeps the records of a shelf. -/
structure State.Keeps (s : State) (h : Shelf) : Prop where
  linked : h.Linked
  /-- The documents are the texts of the records. -/
  current : ∀ k, s.Holds (.artifact k) ((h.current k).map fun e => e.toJson.stored)
  previous : ∀ k, s.Holds (.previous k) ((h.previous k).map fun e => e.toJson.stored)
  /-- Loading gives the records. -/
  load : ∀ k, Ends (Artifacts.load k) s fun r _ => r = .ok (h.current k)
  loadPrevious : ∀ k, Ends (Artifacts.loadPrevious k) s fun r _ => r = .ok (h.previous k)

/-- A run of operations goes by the records of a shelf: the records are kept before each operation
and at the end, and each one gives what it is to give, or it fails for a number that is too long and
`Fails` holds of it. -/
def Follows (Fails : Shelf → ArtifactOp → Prop) : List ArtifactOp → Shelf → State → Prop
  | [], h, s => s.Keeps h
  | op :: ops, h, s => s.Keeps h ∧ Ends op.perform s fun r s' => match r with
      | .ok x => ∃ h', h.Gives op x h' ∧ Follows Fails ops h' s'
      | .error e => e = .longNumber ∧ Fails h op

/-- A store with nothing in its control directory and nothing in memory, where no primitive fails.
The control directory is at the end of the path, or some of its names are missing. -/
structure State.Fresh (s : State) (site : Site) : Prop where
  path : s.store.base.path = site.start ++ site.names
  sound : s.host.tree.Sound
  leads : s.host.tree.at? site.start = .ok (site.top, .dir)
  plain : ".." ∉ site.names
  /-- Nothing is there that a document lies in or on the way to one. -/
  nothing : ∀ ps, ps ≠ [] → ps <+: site.names ∨ site.names <+: ps →
    s.host.tree.entry? (site.top ++ ps) = none
  faults : s.host.faults = Faults.none
  root : s.store.isReady = false → s.host.tree.isDir s.store.root.path
  kept : s.store.memory.getD [] = []
  ready : s.store.memory.isSome → s.store.isReady

variable {site : Site} {n : Nat} {h : Shelf} {s s' : State}

/-! ## The invariant -/

/-- What every operation preserves: the store is clear and keeps the records, which can be read
back, and there are at most as many versions as there were operations. -/
structure Chain (site : Site) (n : Nat) (h : Shelf) (s : State) : Prop where
  clear : s.Clear site
  linked : h.Linked
  current : ∀ k, s.Holds (.artifact k) ((h.current k).map fun e => e.toJson.stored)
  previous : ∀ k, s.Holds (.previous k) ((h.previous k).map fun e => e.toJson.stored)
  valid : ∀ k e, h.current k = some e ∨ h.previous k = some e → e.Valid
  short : ∀ k e, h.current k = some e ∨ h.previous k = some e → e.toJson.hasShortInts
  versions : ∀ k e, h.current k = some e ∨ h.previous k = some e → e.metadata.version.number ≤ n

namespace Chain

/-- More versions may be there. -/
theorem mono {n' : Nat} (hc : Chain site n h s) (hn : n ≤ n') : Chain site n' h s where
  clear := hc.clear
  linked := hc.linked
  current := hc.current
  previous := hc.previous
  valid := hc.valid
  short := hc.short
  versions := fun k e he => Nat.le_trans (hc.versions k e he) hn

/-- An operation that changes no document keeps the records. -/
theorem of_moves (hc : Chain site n h s) (hmoves : Moves site [] s s')
    (hmode : s'.store.memory.isSome = s.store.memory.isSome) : Chain site n h s' where
  clear := hmoves.clear hc.clear
  linked := hc.linked
  current := fun k => (hmoves.holds_iff hmode (List.not_mem_nil) _).2 (hc.current k)
  previous := fun k => (hmoves.holds_iff hmode (List.not_mem_nil) _).2 (hc.previous k)
  valid := hc.valid
  short := hc.short
  versions := hc.versions

/-- An operation that changes the artifacts of one kind keeps the records of all others. -/
theorem set {k : Kind} {current previous : Option Stored} (hc : Chain site n h s)
    (hmoves : Moves site [.artifact k, .previous k] s s')
    (hmode : s'.store.memory.isSome = s.store.memory.isSome)
    (hcurrent : s'.Holds (.artifact k) (current.map fun e => e.toJson.stored))
    (hprevious : s'.Holds (.previous k) (previous.map fun e => e.toJson.stored))
    (hlinked : ∀ earlier, previous = some earlier → ∃ e, current = some e ∧
      e.metadata.version.number = earlier.metadata.version.number + 1)
    (hvalid : ∀ e, current = some e ∨ previous = some e →
      e.Valid ∧ e.toJson.hasShortInts ∧ e.metadata.version.number ≤ n) :
    Chain site n (h.set k current previous) s' := by
  -- What holds of all records, it is known of the old ones and of the new ones.
  have hall : ∀ {P : Stored → Prop},
      (∀ k' e, h.current k' = some e ∨ h.previous k' = some e → P e) →
      (∀ e, current = some e ∨ previous = some e → P e) →
      ∀ k' e, (h.set k current previous).current k' = some e ∨
        (h.set k current previous).previous k' = some e → P e := by
    intro P hold hnew k' e he
    rcases h.set_cases k k' current previous with ⟨rfl, hcur, hprev⟩ | ⟨-, hcur, hprev⟩
    · rw [hcur, hprev] at he
      exact hnew e he
    · rw [hcur, hprev] at he
      exact hold k' e he
  refine ⟨hmoves.clear hc.clear, fun k' => ?_, fun k' => ?_, fun k' => ?_,
    hall hc.valid fun e he => (hvalid e he).1, hall hc.short fun e he => (hvalid e he).2.1,
    hall hc.versions fun e he => (hvalid e he).2.2⟩
  · rcases h.set_cases k k' current previous with ⟨rfl, hcur, hprev⟩ | ⟨-, hcur, hprev⟩
    · rw [hcur, hprev]
      exact hlinked
    · rw [hcur, hprev]
      exact hc.linked k'
  · rcases h.set_cases k k' current previous with ⟨rfl, hcur, -⟩ | ⟨hk, hcur, -⟩
    · rw [hcur]
      exact hcurrent
    · rw [hcur]
      exact (hmoves.holds_iff hmode (by simp [hk]) _).2 (hc.current k')
  · rcases h.set_cases k k' current previous with ⟨rfl, -, hprev⟩ | ⟨hk, -, hprev⟩
    · rw [hprev]
      exact hprevious
    · rw [hprev]
      exact (hmoves.holds_iff hmode (by simp [hk]) _).2 (hc.previous k')

/-! ## What each operation does -/

/-- Making the workspace ready keeps the records. -/
theorem ensureReady (hc : Chain site n h s) :
    Ends StoreAction.ensureReady s fun r s' =>
      r = .ok () ∧ Chain site n h s' ∧ s'.store.isReady := by
  refine (StoreAction.ensureReady_spec hc.clear.toSited hc.clear.ready).mono ?_
  intro r s' hr
  obtain ⟨hok, hmem⟩ := hr.clear hc.clear
  exact ⟨hok, hc.of_moves hr.moves (by rw [hmem]), hr.isReady hok⟩

/-- Loading from a document that has the text of a record, or is not there, gives that record. -/
theorem ends_loadFrom (hc : s.Clear site) {d : Document} {e : Option Stored}
    (hholds : s.Holds d (e.map fun e => e.toJson.stored))
    (hvalid : ∀ x, e = some x → x.Valid ∧ x.toJson.hasShortInts) :
    Ends (Artifacts.loadFrom d) s fun r s' => r = .ok e ∧ Moves site [] s s' ∧
      s'.store.memory = s.store.memory ∧ s'.store.isReady := by
  have htext : s.text? d = e.map fun e => e.toJson.stored := by
    refine hholds.text? fun t ht => ?_
    obtain ⟨x, rfl, rfl⟩ := Option.map_eq_some_iff.1 ht
    exact Json.return_notMem_stored _
  have hread : ∀ text, s.text? d = some text → ∃ j, Json.read text = .ok j := by
    intro text ht
    obtain ⟨x, rfl, rfl⟩ := Option.map_eq_some_iff.1 (htext.symm.trans ht)
    exact ⟨x.toJson, Stored.read_toJson_stored (hvalid x rfl).2⟩
  -- The text is the one that was written for a valid record, so reading gives that record.
  have hrecord : s.record? d = e := by
    cases e with
    | none => rw [State.record?, State.value?, htext]; rfl
    | some x => exact State.record?_of_holds hholds (hvalid x rfl).1 (hvalid x rfl).2
  refine (Artifacts.loadFrom_spec hc.toSited hc.ready d).mono ?_
  intro r s' hr
  obtain ⟨hok, hmem⟩ := hr.clear hc hread
  rw [hrecord] at hok
  exact ⟨hok, hr.moves, hmem, hr.isReady e hok⟩

/-- Loading from such a document keeps the records. -/
theorem loadFrom (hc : Chain site n h s) {d : Document} {e : Option Stored}
    (hholds : s.Holds d (e.map fun e => e.toJson.stored))
    (hvalid : ∀ x, e = some x → x.Valid ∧ x.toJson.hasShortInts) :
    Ends (Artifacts.loadFrom d) s fun r s' => r = .ok e ∧ Chain site n h s' ∧ s'.store.isReady := by
  refine (ends_loadFrom hc.clear hholds hvalid).mono ?_
  rintro r s' ⟨hok, hmoves, hmem, hready⟩
  exact ⟨hok, hc.of_moves hmoves (by rw [hmem]), hready⟩

/-- Loading the current artifact. -/
theorem load (hc : Chain site n h s) (k : Kind) :
    Ends (Artifacts.load k) s fun r s' =>
      r = .ok (h.current k) ∧ Chain site n h s' ∧ s'.store.isReady :=
  hc.loadFrom (hc.current k) fun x hx => ⟨hc.valid k x (.inl hx), hc.short k x (.inl hx)⟩

/-- Loading the artifact before. -/
theorem loadPrevious (hc : Chain site n h s) (k : Kind) :
    Ends (Artifacts.loadPrevious k) s fun r s' =>
      r = .ok (h.previous k) ∧ Chain site n h s' ∧ s'.store.isReady :=
  hc.loadFrom (hc.previous k) fun x hx => ⟨hc.valid k x (.inr hx), hc.short k x (.inr hx)⟩

/-- Keeping the current record as the one before: if there is none, there was none before. -/
theorem keepFormer (hc : Chain site n h s) (hready : s.store.isReady) (k : Kind) :
    Ends (Artifacts.keepFormer k (h.current k)) s fun r s' => r = .ok () ∧
      Moves site [.previous k] s s' ∧
      s'.Holds (.previous k) ((h.current k).map fun e => e.toJson.stored) := by
  cases hcurrent : h.current k with
  | none =>
    have hprevious := hc.previous k
    rw [hc.linked.previous_eq_none hcurrent] at hprevious
    exact Ends.of_eq (run_pure () s) ⟨rfl, .refl s, hprevious⟩
  | some e =>
    refine (Artifacts.keepFormer_spec hc.clear.toSited hready k (some e)).mono ?_
    rintro r s' ⟨hbacks, hclear⟩
    obtain ⟨hr, hholds⟩ := hclear hc.clear e rfl (hc.short k e (.inl hcurrent))
    exact ⟨hr, hbacks.moves, hholds⟩

/-- Storing an artifact: its record is the next version, and the current one is the one before then.
It fails only if a number of the record is too long, and leaves the current one in both places. -/
theorem store (hc : Chain site n h s) {m : Made} (hm : m.Readable) :
    Ends (Artifacts.store m) s fun r s' => match r with
      | .ok e => (∃ id path, e = Artifacts.recordOf m id path (h.current m.kind)) ∧
        Chain site (n + 1) (h.set m.kind (some e) (h.current m.kind)) s'
      | .error e => (e = .longNumber ∧ h.TooLong (.store m)) ∧ s'.Clear site ∧
        ∀ d ∈ [Document.artifact m.kind, .previous m.kind],
          s'.Holds d ((h.current m.kind).map fun e => e.toJson.stored) := by
  unfold Artifacts.store
  refine hc.ensureReady.bind_ok fun s₁ ⟨hc₁, _⟩ => (hc₁.load m.kind).bind_ok ?_
  rintro s₂ ⟨hc₂, hready₂⟩
  -- Here the invariant is broken: the current record is the one before, too.
  refine (hc₂.keepFormer hready₂ m.kind).bind_ok ?_
  rintro s₃ ⟨hm₃, hprevious⟩
  obtain ⟨hready₃, hmode₃⟩ := hm₃.mode hready₂
  have hclear₃ := hm₃.clear hc₂.clear
  refine (Artifacts.replace_spec hclear₃.toSited hready₃ m _).mono ?_
  rintro (e | e) s₄ h₄
  · have hmode₄ := (h₄.1.mode hready₃).2
    have hcurrent := (hm₃.holds_iff hmode₃ (by simp) _).2 (hc₂.current m.kind)
    refine ⟨h₄.2 hclear₃, h₄.1.clear hclear₃, fun d hd => ?_⟩
    refine (h₄.1.holds_iff hmode₄ List.not_mem_nil _).2 ?_
    rcases List.mem_pair.1 hd with rfl | rfl
    · exact hcurrent
    · exact hprevious
  -- The new record restores it.
  obtain ⟨⟨id, rfl⟩, hm₄, hcurrent, hshort⟩ := h₄
  refine ⟨⟨id, _, rfl⟩, ?_⟩
  have hmode₄ := (hm₄.mode hready₃).2
  refine (hc₂.mono (Nat.le_succ n)).set ((hm₃.mono (by simp)).trans (hm₄.mono (by simp)))
    (hmode₄.trans hmode₃) hcurrent ((hm₄.holds_iff hmode₄ (by simp) _).2 hprevious) ?_ ?_
  · intro former hformer
    rw [hformer]
    exact ⟨_, rfl, rfl⟩
  · rintro e (he | he)
    · -- The new record is valid for what was made is, and its numbers were written.
      obtain rfl := Option.some.inj he
      refine ⟨⟨hm.madeAt, hm.fileCount, hm.errorCount⟩, hshort, ?_⟩
      cases hformer : h.current m.kind with
      | none => exact Nat.succ_le_succ (Nat.zero_le n)
      | some former => exact Nat.succ_le_succ (hc.versions _ former (.inl hformer))
    · exact ⟨hc.valid _ e (.inl he), hc.short _ e (.inl he),
        Nat.le_succ_of_le (hc.versions _ e (.inl he))⟩

/-- Removing a document that has a known text or is not there. -/
theorem remove (hclear : s.Clear site) (hready : s.store.isReady) {d : Document}
    {text : Option String} (hholds : s.Holds d text) :
    Ends (StoreAction.remove d) s fun r s' => r = .ok text.isSome ∧ Moves site [d] s s' ∧
      s'.Holds d none := by
  refine (StoreAction.remove_spec hclear.toSited d).mono ?_
  rintro r s' ⟨hremoves, hr⟩
  obtain rfl := hr hclear text hholds
  cases text with
  | some t => exact ⟨rfl, hremoves⟩
  | none =>
    have hmoves : Moves site [] s s' := hremoves
    exact ⟨rfl, hmoves.mono (List.nil_subset _),
      (hmoves.holds_iff (hmoves.mode hready).2 (List.not_mem_nil) _).2 hholds⟩

/-- The same if nobody asks whether it was there. -/
theorem discard_remove (hclear : s.Clear site) (hready : s.store.isReady) {d : Document}
    {text : Option String} (hholds : s.Holds d text) :
    Ends (discard (StoreAction.remove d)) s fun r s' => r = .ok () ∧ Moves site [d] s s' ∧
      s'.Holds d none := by
  refine (remove hclear hready hholds).discard ?_ fun _ _ hr => ⟨rfl, hr.2⟩
  rintro e s' ⟨hr, -⟩
  cases hr

/-- Restoring an artifact: the one before is the current one then, if there is one. -/
theorem restore (hc : Chain site n h s) (k : Kind) :
    Ends (Artifacts.restore k) s fun r s' => match h.previous k with
      | some earlier => r = .ok true ∧ Chain site n (h.set k (some earlier) none) s'
      | none => r = .ok false ∧ Chain site n h s' := by
  unfold Artifacts.restore
  refine (hc.loadPrevious k).bind_ok fun s₁ ⟨hc₁, hready₁⟩ => ?_
  cases hprevious : h.previous k with
  | none => exact Ends.of_eq (run_pure false s₁) ⟨rfl, hc₁⟩
  | some earlier =>
    refine (StoreAction.writeJson_spec hc₁.clear.toSited hready₁ (.artifact k) earlier.toJson).bind
      ?_ ?_
    · rintro e s₂ ⟨-, ⟨-, hlong⟩ | ⟨-, hclear⟩⟩
      · exact absurd (hc.short k earlier (.inr hprevious)) hlong
      · exact absurd hc₁.clear hclear
    rintro ⟨⟩ s₂ ⟨hm₂, hcurrent, -⟩
    obtain ⟨hready₂, hmode₂⟩ := hm₂.mode hready₁
    have hthere := (hm₂.holds_iff hmode₂ (by simp) _).2 (hc₁.previous k)
    -- In a clear state there is no failure to be suppressed.
    have hremove : Ends (StoreAction.suppress (discard (StoreAction.remove (.previous k)))) s₂
        fun r s₃ => r = .ok () ∧ Moves site [.previous k] s₂ s₃ ∧ s₃.Holds (.previous k) none := by
      refine StoreAction.ends_suppress (discard_remove (hm₂.clear hc₁.clear) hready₂ hthere)
        (fun _ hr => hr) ?_ ?_
      · rintro e s₃ ⟨hr, -⟩
        cases hr
      · rintro e s₃ - ⟨hr, -⟩
        cases hr
    refine hremove.bind_ok fun s₃ ⟨hm₃, hgone⟩ => Ends.of_eq (run_pure true s₃) ⟨rfl, ?_⟩
    have hmode₃ := (hm₃.mode hready₂).2
    refine hc₁.set ((hm₂.mono (by simp)).trans (hm₃.mono (by simp))) (hmode₃.trans hmode₂)
      ((hm₃.holds_iff hmode₃ (by simp) _).2 hcurrent) hgone (by simp) ?_
    rintro e (he | he)
    · obtain rfl := Option.some.inj he
      exact ⟨hc.valid k _ (.inr hprevious), hc.short k _ (.inr hprevious),
        hc.versions k _ (.inr hprevious)⟩
    · cases he

/-- Deleting an artifact: there is none of the kind then, neither a current one nor one before. -/
theorem delete (hc : Chain site n h s) (k : Kind) :
    Ends (Artifacts.delete k) s fun r s' =>
      r = .ok (h.current k).isSome ∧ Chain site n (h.set k none none) s' := by
  unfold Artifacts.delete
  refine hc.ensureReady.bind_ok fun s₁ ⟨hc₁, hready₁⟩ => ?_
  refine (remove hc₁.clear hready₁ (hc₁.current k)).bind_ok fun s₂ ⟨hm₂, hcurrent⟩ => ?_
  obtain ⟨hready₂, hmode₂⟩ := hm₂.mode hready₁
  have hthere := (hm₂.holds_iff hmode₂ (by simp) _).2 (hc₁.previous k)
  refine (discard_remove (hm₂.clear hc₁.clear) hready₂ hthere).bind_ok fun s₃ ⟨hm₃, hgone⟩ => ?_
  have hmode₃ := (hm₃.mode hready₂).2
  refine Ends.of_eq (run_pure _ s₃) ⟨by rw [Option.isSome_map], ?_⟩
  refine hc₁.set ((hm₂.mono (by simp)).trans (hm₃.mono (by simp))) (hmode₃.trans hmode₂)
    ((hm₃.holds_iff hmode₃ (by simp) _).2 hcurrent) hgone (by simp) ?_
  rintro e (he | he) <;> cases he

/-- A store that keeps the records shows them. -/
theorem keeps (hc : Chain site n h s) : s.Keeps h where
  linked := hc.linked
  current := hc.current
  previous := hc.previous
  load := fun k => (hc.load k).mono fun _ _ hr => hr.1
  loadPrevious := fun k => (hc.loadPrevious k).mono fun _ _ hr => hr.1

/-! ## Runs -/

/-- Every operation preserves the invariant and gives what it is to give, unless a number is too
long. -/
theorem perform (hc : Chain site n h s) {op : ArtifactOp}
    (hmade : ∀ m, op = .store m → m.Readable) :
    Ends op.perform s fun r s' => match r with
      | .ok x => ∃ h', h.Gives op x h' ∧ Chain site (n + 1) h' s'
      | .error e => e = .longNumber ∧ h.TooLong op := by
  cases op with
  | store m =>
    refine (hc.store (hmade m rfl)).bind (fun e s' hr => hr.1) ?_
    rintro e s' ⟨⟨id, path, rfl⟩, hc'⟩
    refine Ends.of_eq (run_pure _ s') ⟨_, ⟨_, rfl, ⟨id, path, rfl⟩, ?_, rfl⟩, hc'⟩
    cases h.current m.kind <;> rfl
  | restore k =>
    have hrestore := hc.restore k
    -- Restoring makes the earlier artifact the current one, and without one it does nothing.
    cases hprevious : h.previous k with
    | none =>
      rw [hprevious] at hrestore
      refine hrestore.bind_ok fun s' hc' =>
        Ends.of_eq (run_pure _ s') ⟨h, ?_, hc'.mono (Nat.le_succ n)⟩
      simp only [Shelf.Gives, hprevious, and_self]
    | some earlier =>
      rw [hprevious] at hrestore
      refine hrestore.bind_ok fun s' hc' =>
        Ends.of_eq (run_pure _ s') ⟨_, ?_, hc'.mono (Nat.le_succ n)⟩
      simp only [Shelf.Gives, hprevious, and_self]
  | delete k =>
    exact (hc.delete k).bind_ok fun s' hc' =>
      Ends.of_eq (run_pure _ s') ⟨_, ⟨rfl, rfl⟩, hc'.mono (Nat.le_succ n)⟩
  | load k =>
    exact (hc.load k).bind_ok fun s' hc' =>
      Ends.of_eq (run_pure _ s') ⟨_, ⟨rfl, rfl⟩, hc'.1.mono (Nat.le_succ n)⟩
  | loadPrevious k =>
    exact (hc.loadPrevious k).bind_ok fun s' hc' =>
      Ends.of_eq (run_pure _ s') ⟨_, ⟨rfl, rfl⟩, hc'.1.mono (Nat.le_succ n)⟩

/-- A run goes by the records that it starts with. Numbers of versions are told by the number of
operations before and in the run. -/
theorem follows {Fails : Shelf → ArtifactOp → Prop} {ops : List ArtifactOp} (hc : Chain site n h s)
    (hmade : ∀ m, .store m ∈ ops → m.Readable)
    (hfails : ∀ h' op, op ∈ ops →
      (∀ k e, h'.current k = some e → e.metadata.version.number < n + ops.length) →
      h'.TooLong op → Fails h' op) : Follows Fails ops h s := by
  -- By the operations of the run; the invariant is what `perform` preserves, and the bound on the
  -- versions grows by one with each operation.
  induction ops generalizing n h s with
  | nil => exact hc.keeps
  | cons op ops ih =>
    refine ⟨hc.keeps, (hc.perform fun m hop => hmade m (by simp [hop])).mono ?_⟩
    rintro (e | x) s' hr
    · refine ⟨hr.1, hfails h op (List.mem_cons_self) (fun k e he => ?_) hr.2⟩
      have := hc.versions k e (.inl he)
      simp only [List.length_cons]
      omega
    · -- The rest of the run starts one version further.
      obtain ⟨h', hgives, hc'⟩ := hr
      refine ⟨h', hgives, ih hc' (fun m hm => hmade m (List.mem_cons_of_mem _ hm)) ?_⟩
      intro h'' op' hop' hversions
      refine hfails h'' op' (List.mem_cons_of_mem _ hop') fun k e he => ?_
      have := hversions k e he
      simp only [List.length_cons]
      omega

end Chain

/-! ## Stores that start empty -/

namespace State.Fresh

variable (hs : s.Fresh site)
include hs

/-- What the path leads to is a directory, and nothing is below it. -/
theorem entry? {ps qs : Path} (hps : ps <+: site.names ++ qs) :
    s.host.tree.entry? (site.top ++ ps) = if ps = [] then some .dir else none := by
  split_ifs with hnil
  · subst hnil
    rw [List.append_nil]
    exact (Tree.at?_eq_dir.1 hs.leads).2
  · exact hs.nothing ps hnil (List.prefix_or_prefix_of_prefix hps (List.prefix_append _ _))

/-- Nothing is in the way of documents. -/
theorem clear : s.Clear site := by
  have hfree : ∀ (d : Document) (file : String),
      s.host.tree.entry? (site.top ++ (site.names ++ (d.dir ++ [file]))) = none := by
    intro d file
    rw [hs.entry? (List.prefix_refl _), if_neg (by simp)]
  refine ⟨⟨hs.path, hs.sound, hs.leads, hs.plain, ?_⟩, hs.faults, ?_, ?_, ?_, hs.root, hs.ready⟩
  · -- What the path leads to is no link, and below it there is nothing.
    intro ps target hps hlink
    rcases eq_or_ne ps [] with rfl | hnil
    · rw [List.append_nil, (Tree.at?_eq_dir.1 hs.leads).2] at hlink
      cases hlink
    · cases (hs.nothing ps hnil hps).symm.trans hlink
  · intro dir _ qs content hqs hfile
    rw [hs.entry? hqs] at hfile
    split_ifs at hfile
    cases hfile
  · intro d e he
    rw [Site.place, d.path_eq, hfree d] at he
    cases he
  · intro d e he
    rw [Site.place, d.temporary_path, hfree d] at he
    cases he

/-- No document is there. -/
theorem holds (d : Document) : s.Holds d none := by
  unfold State.Holds
  split_ifs
  · rw [State.kept?, hs.kept]
    rfl
  · rw [hs.clear.disk?_eq, Site.place, hs.entry? (List.prefix_refl _), d.path_eq, if_neg (by simp)]
    rfl

/-- It keeps no records. -/
theorem chain : Chain site 0 .empty s where
  clear := hs.clear
  linked := by rintro k earlier ⟨⟩
  current := fun k => hs.holds (.artifact k)
  previous := fun k => hs.holds (.previous k)
  valid := by rintro k e (⟨⟨⟩⟩ | ⟨⟨⟩⟩)
  short := by rintro k e (⟨⟨⟩⟩ | ⟨⟨⟩⟩)
  versions := by rintro k e (⟨⟨⟩⟩ | ⟨⟨⟩⟩)

end State.Fresh

/-- Short counts and few versions make no number that is too long. -/
theorem not_tooLong {op : ArtifactOp}
    (hcounts : ∀ m, op = .store m → m.fileCount.natAbs < 10 ^ Json.maxIntDigits ∧
      m.errorCount.natAbs < 10 ^ Json.maxIntDigits)
    (hversions : ∀ k e, h.current k = some e →
      e.metadata.version.number + 1 < 10 ^ Json.maxIntDigits) : ¬ h.TooLong op := by
  cases op with
  | store m =>
    rintro ⟨id, path, hlong⟩
    refine hlong ((Stored.hasShortInts_toJson _).2 ?_)
    simp only [Json.hasShortInts_int_iff, Int.natAbs_natCast]
    refine ⟨(hcounts m rfl).1, (hcounts m rfl).2, ?_⟩
    cases hformer : h.current m.kind with
    | none => exact Nat.one_lt_pow (by decide) (by decide)
    | some former => exact hversions m.kind former hformer
  | _ => exact id

/-- A run of operations on the artifacts of a store that starts empty and where no primitive fails:
every operation gives what it is to give by the records that are kept, and fails only if a number is
too long to be written. With short counts and fewer operations than such numbers none fails. So
storing over an artifact and restoring gives that artifact back. -/
theorem versions_are_chained (hs : s.Fresh site) {ops : List ArtifactOp}
    (hmade : ∀ m, .store m ∈ ops → m.Readable) :
    Follows Shelf.TooLong ops .empty s ∧
    ((∀ m, .store m ∈ ops → m.fileCount.natAbs < 10 ^ Json.maxIntDigits ∧
        m.errorCount.natAbs < 10 ^ Json.maxIntDigits) →
      ops.length < 10 ^ Json.maxIntDigits → Follows (fun _ _ => False) ops .empty s) ∧
    (∀ (h h₁ h₂ : Shelf) (m : Made) (former : Stored) (x y : Answer),
      h.current m.kind = some former → h.Gives (.store m) x h₁ → h₁.Gives (.restore m.kind) y h₂ →
        y = .done true ∧ h₂.current m.kind = some former ∧ h₂.previous m.kind = none) := by
  refine ⟨hs.chain.follows hmade fun _ _ _ _ hlong => hlong, fun hcounts hlength => ?_, ?_⟩
  · -- With so few operations no version is too long either.
    refine hs.chain.follows hmade fun h' op hop hversions hlong => not_tooLong ?_ ?_ hlong
    · rintro m rfl
      exact hcounts m hop
    · intro k e he
      have := hversions k e he
      omega
  · -- Storing leaves the former record as the one before, which restoring puts back.
    rintro h h₁ h₂ m former x y hformer ⟨e, -, -, -, rfl⟩ hrestore
    unfold Shelf.Gives at hrestore
    simp only [(h.set_same m.kind _ _).2, hformer] at hrestore
    obtain ⟨rfl, rfl⟩ := hrestore
    exact ⟨rfl, Shelf.set_same _ _ _ _⟩

/-- A workspace with an empty control directory. -/
theorem State.fresh_withEntries :
    (State.withEntries [] Faults.none).Fresh
      ⟨["ws", ".contextscan"], ["ws", ".contextscan"], []⟩ where
  path := rfl
  sound := Tree.sound_of_entries (by decide)
  leads := rfl
  plain := List.not_mem_nil
  nothing := by
    intro ps hps _
    by_contra hne
    obtain ⟨e, he⟩ := Option.ne_none_iff_exists'.1 hne
    have hmem := Tree.mem_entries (by simp) he
    simp [State.withEntries, hps] at hmem
  faults := rfl
  root := fun h => Bool.noConfusion h
  kept := rfl
  ready := fun h => Bool.noConfusion h

/-- Storing an artifact twice and restoring it in such a workspace. -/
theorem versions_are_chained_when_restored :
    (State.withEntries [] Faults.none).Fresh ⟨["ws", ".contextscan"], ["ws", ".contextscan"], []⟩ ∧
    Follows (fun _ _ => False)
      [.store ⟨.core .summary, "{}", "2024-01-01T00:00:00Z", 1, 0, false⟩,
        .store ⟨.core .summary, "[]", "2024-01-01T00:00:00Z", 2, 1, true⟩,
        .restore (.core .summary)]
      .empty (State.withEntries [] Faults.none) := by
  have hmoment : (Time.Moment.ofText? "2024-01-01T00:00:00Z").isSome := by decide +kernel
  have hsmall : ∀ n < 10, n < 10 ^ Json.maxIntDigits := fun n hn =>
    Nat.lt_of_lt_of_le hn (Nat.le_self_pow (by decide) 10)
  -- Two artifacts are stored, and the bounds have to be met for each of them.
  refine ⟨State.fresh_withEntries, (versions_are_chained State.fresh_withEntries ?_).2.1 ?_ ?_⟩
  · intro m hm
    simp only [List.mem_cons, ArtifactOp.store.injEq, reduceCtorEq, List.not_mem_nil,
      or_false] at hm
    rcases hm with rfl | rfl
    · exact ⟨hmoment, by decide, by decide⟩
    · exact ⟨hmoment, by decide, by decide⟩
  · intro m hm
    simp only [List.mem_cons, ArtifactOp.store.injEq, reduceCtorEq, List.not_mem_nil,
      or_false] at hm
    rcases hm with rfl | rfl
    · exact ⟨hsmall 1 (by decide), hsmall 0 (by decide)⟩
    · exact ⟨hsmall 2 (by decide), hsmall 1 (by decide)⟩
  · exact hsmall 3 (by decide)

/-! ## A count that is too long -/

/-- Storing an artifact with a count that is too long to be written fails, and the current record is
the one before then, too. -/
theorem Chain.store_of_long (hc : Chain site n h s) {m : Made} (hm : m.Readable)
    (hlong : ¬ m.fileCount.natAbs < 10 ^ Json.maxIntDigits) :
    Ends (Artifacts.store m) s fun r s' => r = .error .longNumber ∧ s'.Clear site ∧
      ∀ d ∈ [Document.artifact m.kind, .previous m.kind],
        s'.Holds d ((h.current m.kind).map fun e => e.toJson.stored) := by
  refine (hc.store hm).mono ?_
  rintro (e | e) s' hr
  · exact ⟨by rw [hr.1.1], hr.2⟩
  · -- A record that was stored has short numbers, and its counts are those of the artifact.
    obtain ⟨⟨id, path, rfl⟩, hc'⟩ := hr
    have hshort := hc'.short m.kind _ (.inl (h.set_same m.kind _ _).1)
    exact absurd ((Json.hasShortInts_int_iff _).1 ((Stored.hasShortInts_toJson _).1 hshort).1) hlong

/-- A summary with a number of files. -/
def summaryOf (fileCount : Int) : Made :=
  ⟨.core .summary, "{}", "2024-01-01T00:00:00Z", fileCount, 0, false⟩

/-- It can be stored if the number is none below zero. -/
theorem readable_summaryOf {fileCount : Int} (h : 0 ≤ fileCount) :
    (summaryOf fileCount).Readable := by
  have hmoment : (Time.Moment.ofText? "2024-01-01T00:00:00Z").isSome := by decide +kernel
  exact ⟨hmoment, h, Int.le_refl 0⟩

/-- Where a summary is stored in such a workspace and then one with a count that is too long, the
first one is the current artifact and the one before. -/
theorem ends_store_summaries {fileCount : Int} (h : 0 ≤ fileCount)
    (hlong : ¬ fileCount.natAbs < 10 ^ Json.maxIntDigits) :
    Ends (Artifacts.store (summaryOf 1)) (State.withEntries [] Faults.none) fun r s =>
      ∃ e, r = .ok e ∧ e.metadata.version.number = 1 ∧
        Ends (Artifacts.store (summaryOf fileCount)) s fun r s' => r = .error .longNumber ∧
          Ends (Artifacts.load (.core .summary)) s' (fun r _ => r = .ok (some e)) ∧
          Ends (Artifacts.loadPrevious (.core .summary)) s' fun r _ => r = .ok (some e) := by
  have hfirst := readable_summaryOf (show (0 : Int) ≤ 1 by decide)
  refine (State.fresh_withEntries.chain.store hfirst).mono ?_
  rintro (e | e) s hr
  · -- The numbers of the first record are short.
    have hone : 1 < 10 ^ Json.maxIntDigits := Nat.one_lt_pow (by decide) (by decide)
    refine absurd hr.1.2 (not_tooLong (fun m hm => ?_) fun k e he => by cases he)
    obtain rfl := ArtifactOp.store.inj hm
    exact ⟨hone, Nat.lt_trans Nat.zero_lt_one hone⟩
  obtain ⟨⟨id, path, he⟩, hc⟩ := hr
  have hcurrent := (Shelf.empty.set_same (summaryOf 1).kind (some e) none).1
  refine ⟨e, rfl, by rw [he]; rfl, (hc.store_of_long (readable_summaryOf h) hlong).mono ?_⟩
  -- What both documents hold now is the text of the first record.
  rintro r s' ⟨hr, hclear, hholds⟩
  have hload (d : Document) (hd : d ∈ [Document.artifact (.core .summary),
      .previous (.core .summary)]) :
      Ends (Artifacts.loadFrom d) s' fun r _ => r = .ok (some e) := by
    have hvalid : ∀ x, some e = some x → x.Valid ∧ x.toJson.hasShortInts := by
      rintro x ⟨⟩
      exact ⟨hc.valid _ _ (.inl hcurrent), hc.short _ _ (.inl hcurrent)⟩
    exact (Chain.ends_loadFrom hclear (hcurrent ▸ hholds d hd) hvalid).mono fun _ _ hr => hr.1
  exact ⟨hr, hload _ List.mem_cons_self, hload _ (List.mem_cons_of_mem _ List.mem_cons_self)⟩

/-- A count that is too long to be written breaks the chain: where a summary is stored in a fresh
workspace and then one with such a count, the second one is refused, and the first one is the
current artifact and the one before, so that both have the version one. -/
theorem two_of_one_version_after_long_count :
    (State.withEntries [] Faults.none).Fresh ⟨["ws", ".contextscan"], ["ws", ".contextscan"], []⟩ ∧
    (summaryOf 1).Readable ∧ (summaryOf (10 ^ Json.maxIntDigits)).Readable ∧
    Ends (Artifacts.store (summaryOf 1)) (State.withEntries [] Faults.none) fun r s =>
      ∃ e, r = .ok e ∧ e.metadata.version.number = 1 ∧
        Ends (Artifacts.store (summaryOf (10 ^ Json.maxIntDigits))) s fun r s' =>
          r = .error .longNumber ∧
          Ends (Artifacts.load (.core .summary)) s' (fun r _ => r = .ok (some e)) ∧
          Ends (Artifacts.loadPrevious (.core .summary)) s' fun r _ => r = .ok (some e) := by
  have hcount : (0 : Int) ≤ 10 ^ Json.maxIntDigits := Int.pow_nonneg (by decide)
  have hlong : ¬ ((10 : Int) ^ Json.maxIntDigits).natAbs < 10 ^ Json.maxIntDigits := by
    rw [Int.natAbs_pow, show (10 : Int).natAbs = 10 from rfl]
    exact Nat.lt_irrefl _
  exact ⟨State.fresh_withEntries, readable_summaryOf (by decide), readable_summaryOf hcount,
    ends_store_summaries hcount hlong⟩

end CodeSurvey.Storage
