import CodeSurvey.Proofs.Storage.Operations

/-!
# What operations leave of a host

An action stays in a relation between states if every run of it does (`StaysIn`); for a relation
that holds over several steps, an action stays in it as its parts do. So file operations take
nothing from the supply of names and leave the time (`Host.SameSupply`), and making a workspace
ready makes directories and changes nothing else in the tree (`staysIn_ensureReady`), wherever links
lead and whatever fails.
-/

namespace CodeSurvey.Storage

open CodeSurvey.Files

/-! ## Relations between the states before and after -/

section StaysIn

variable {ε σ α β : Type} {R : σ → σ → Prop}

/-- Every run of an action goes from a state to one in a relation to it. -/
def StaysIn (R : σ → σ → Prop) (a : ExceptT ε (StateM σ) α) : Prop := ∀ s, R s (a.run s).2

/-- A relation that holds of a state and itself, and over two steps if it holds of each. -/
structure Chains (R : σ → σ → Prop) : Prop where
  refl : ∀ s, R s s
  trans : ∀ {s s' s''}, R s s' → R s' s'' → R s s''

/-- A value leaves the state. -/
theorem staysIn_pure (hR : Chains R) (x : α) : StaysIn R (pure x : ExceptT ε (StateM σ) α) :=
  fun s => hR.refl s

/-- So does an error. -/
theorem staysIn_throw (hR : Chains R) (e : ε) : StaysIn R (throw e : ExceptT ε (StateM σ) α) :=
  fun s => hR.refl s

/-- Two actions one after the other. -/
theorem StaysIn.bind (hR : Chains R) {a : ExceptT ε (StateM σ) α}
    {f : α → ExceptT ε (StateM σ) β} (ha : StaysIn R a) (hf : ∀ x, StaysIn R (f x)) :
    StaysIn R (a >>= f) := by
  intro s
  have hfirst := ha s
  rw [run_bind]
  rcases hrun : a.run s with ⟨e | x, s'⟩
  · rwa [hrun] at hfirst
  · rw [hrun] at hfirst
    exact hR.trans hfirst (hf x s')

/-- An action that begins with a look at the state. -/
theorem staysIn_get {f : σ → ExceptT ε (StateM σ) α} (hf : ∀ s, R s ((f s).run s).2) :
    StaysIn R (get >>= f) := by
  intro s
  rw [run_bind, run_get]
  exact hf s

/-- An action with another one for the case that it fails. -/
theorem StaysIn.tryCatch (hR : Chains R) {a : ExceptT ε (StateM σ) α}
    {f : ε → ExceptT ε (StateM σ) α} (ha : StaysIn R a) (hf : ∀ e, StaysIn R (f e)) :
    StaysIn R (tryCatch a f) := by
  intro s
  have hfirst := ha s
  rw [run_tryCatch]
  rcases hrun : a.run s with ⟨e | x, s'⟩
  · rw [hrun] at hfirst
    exact hR.trans hfirst (hf e s')
  · rwa [hrun] at hfirst

/-- An action whose value is not used. -/
theorem StaysIn.discard (hR : Chains R) {a : ExceptT ε (StateM σ) α} (ha : StaysIn R a) :
    StaysIn R (discard a) :=
  .bind hR ha fun _ => staysIn_pure hR _

/-- The same action for each of some values, one after the other. -/
theorem StaysIn.mapM (hR : Chains R) {f : β → ExceptT ε (StateM σ) α}
    (hf : ∀ x, StaysIn R (f x)) (xs : List β) : StaysIn R (xs.mapM f) := by
  induction xs with
  | nil =>
    rw [List.mapM_nil]
    exact staysIn_pure hR _
  | cons x xs ih =>
    rw [List.mapM_cons]
    exact .bind hR (hf x) fun _ => .bind hR ih fun _ => staysIn_pure hR _

end StaysIn

/-- What gives names and the time is the same. -/
structure Host.SameSupply (h h' : Host) : Prop where
  now : h'.now = h.now
  ids : h'.ids = h.ids
  idStart : h'.idStart = h.idStart

/-- The supply is the same, and the tree has all that it had, and directories besides. -/
def Host.Gains (h h' : Host) : Prop := h.SameSupply h' ∧ h.tree.Gains h'.tree

/-- The supply is the same the other way round. -/
theorem Host.SameSupply.symm {h h' : Host} (a : h.SameSupply h') : h'.SameSupply h :=
  ⟨a.now.symm, a.ids.symm, a.idStart.symm⟩

/-- It is the same over several steps. -/
theorem Host.SameSupply.trans {h h' h'' : Host} (a : h.SameSupply h') (b : h'.SameSupply h'') :
    h.SameSupply h'' :=
  ⟨b.now.trans a.now, b.ids.trans a.ids, b.idStart.trans a.idStart⟩

/-- So an action stays in it as its parts do. -/
theorem Host.chains_sameSupply : Chains Host.SameSupply where
  refl := fun _ => ⟨rfl, rfl, rfl⟩
  trans := .trans

/-- The same of the tree that gains directories. -/
theorem Host.chains_gains : Chains Host.Gains where
  refl := fun h => ⟨chains_sameSupply.refl h, .refl _⟩
  trans := fun a b => ⟨a.1.trans b.1, a.2.trans b.2⟩

/-! ## File operations -/

namespace FileAction

variable {R : Host → Host → Prop}

/-- A primitive, whose effect stays in the relation. -/
theorem staysIn_call {α : Type} {c : Call} {f : Tree → Except Errno (α × Tree)}
    (hcounted : ∀ h, R h h.counted)
    (heffect : ∀ h a t, f h.tree = .ok (a, t) → R h { h.counted with tree := t }) :
    StaysIn R (call c f) := by
  intro h
  rw [run_call]
  cases h.faults h.calls c with
  | some e => exact hcounted h
  | none =>
    simp only
    cases hf : f h.tree with
    | error e => exact hcounted h
    | ok r => exact heffect h r.1 r.2 hf

/-- A primitive that only changes the tree. -/
theorem staysIn_change {c : Call} {f : Tree → Except Errno Tree} (hcounted : ∀ h, R h h.counted)
    (heffect : ∀ h t, f h.tree = .ok t → R h { h.counted with tree := t }) :
    StaysIn R (change c f) := by
  refine staysIn_call hcounted ?_
  rintro h ⟨⟩ t ht
  cases hf : f h.tree with
  | error e => rw [hf] at ht; cases ht
  | ok t' =>
    rw [hf] at ht
    cases ht
    exact heffect h t hf

/-- Asking whether a directory can be written to. -/
theorem staysIn_isWritable (hR : Chains R) (hcounted : ∀ h, R h h.counted) (p : Path) :
    StaysIn R (isWritable p) := by
  refine StaysIn.tryCatch hR (.bind hR (staysIn_change hcounted ?_) fun _ => staysIn_pure hR true)
    fun _ => staysIn_pure hR false
  rintro h t ht
  obtain rfl := Except.ok.inj ht
  exact hcounted h

/-- Making directories, each of which lies on the way to the last one. -/
theorem staysIn_makeDirs (hR : Chains R) (hcounted : ∀ h, R h h.counted) {p : Path}
    (hdir : ∀ h q t, q <+: p → withDir q h.tree = .ok t → R h { h.counted with tree := t }) :
    StaysIn R (makeDirs p) := by
  -- By the names of the path from the last one, as the directories are tried.
  induction hn : p.length generalizing p with
  | zero =>
    obtain rfl := List.length_eq_zero_iff.1 hn
    exact fun h => ends_makeDirs (Q := fun _ h' => R h h') (fun _ _ => hcounted h)
      (fun t ht => hdir h _ t (List.prefix_refl _) ht) (fun _ _ _ => hcounted h)
      fun _ hne => absurd rfl hne
  | succ n ih =>
    refine fun h => ends_makeDirs (Q := fun _ h' => R h h') (fun _ _ => hcounted h)
      (fun t ht => hdir h _ t (List.prefix_refl _) ht) (fun _ _ _ => hcounted h) fun _ _ => ?_
    have hinit : StaysIn R (makeDirs p.dropLast) :=
      ih (fun h q t hq => hdir h q t (hq.trans (List.dropLast_prefix p)))
        (by rw [List.length_dropLast, hn]; rfl)
    have hup : StaysIn R (makeDirs p.dropLast >>= fun _ => makeDir p) :=
      .bind hR hinit fun _ =>
        staysIn_change hcounted fun h t ht => hdir h p t (List.prefix_refl _) ht
    exact hR.trans (hcounted h) (hup h.counted)

/-- Directories that are there or are made are all that is new. -/
theorem gains_of_withDir {h : Host} {p : Path} {t : Tree} (ht : withDir p h.tree = .ok t) :
    h.Gains { h.counted with tree := t } := by
  refine ⟨⟨rfl, rfl, rfl⟩, ?_⟩
  unfold withDir at ht
  split at ht
  · rename_i t' hmade
    obtain rfl := Except.ok.inj ht
    exact Tree.gains_of_makeDir hmade
  · split_ifs at ht
    obtain rfl := Except.ok.inj ht
    exact .refl _

/-- Reading a file takes nothing from the supply. -/
theorem staysIn_read (p : Path) : StaysIn Host.SameSupply (read p) :=
  staysIn_call (fun _ => ⟨rfl, rfl, rfl⟩) fun _ _ _ _ => ⟨rfl, rfl, rfl⟩

/-- Nor does a change of the tree. -/
theorem staysIn_change_supply (c : Call) (f : Tree → Except Errno Tree) :
    StaysIn Host.SameSupply (change c f) :=
  staysIn_change (fun _ => ⟨rfl, rfl, rfl⟩) fun _ _ _ => ⟨rfl, rfl, rfl⟩

/-- Nor does writing a file whole or not at all. -/
theorem staysIn_writeWhole (p : Path) (text : String) :
    StaysIn Host.SameSupply (writeWhole p text) := by
  have hR := Host.chains_sameSupply
  refine .tryCatch hR (.bind hR (staysIn_makeDirs hR ?_ ?_) fun _ => ?_) fun e => ?_
  · exact fun _ => ⟨rfl, rfl, rfl⟩
  · exact fun _ _ _ _ _ => ⟨rfl, rfl, rfl⟩
  · have hstep := staysIn_change_supply
    exact .bind hR (hstep _ _) fun _ => .bind hR (hstep _ _) fun _ => .bind hR (hstep _ _) fun _ =>
      hstep _ _
  · refine .bind hR (.tryCatch hR ?_ fun _ => staysIn_pure hR ()) fun _ => staysIn_throw hR e
    exact staysIn_change_supply _ _

end FileAction

/-! ## Operations on a store -/

namespace State

/-- The workspace is the same, and the hosts are in a relation. -/
def OnHosts (R : Host → Host → Prop) (s s' : State) : Prop :=
  s'.store.root = s.store.root ∧ R s.host s'.host

/-- Over several steps if the hosts are. -/
theorem chains_onHosts {R : Host → Host → Prop} (hR : Chains R) : Chains (OnHosts R) where
  refl := fun s => ⟨rfl, hR.refl s.host⟩
  trans := fun a b => ⟨b.1.trans a.1, hR.trans a.2 b.2⟩

end State

namespace StoreAction

/-- File operations as a part of an operation on a store. -/
theorem staysIn_files {α : Type} {R : Host → Host → Prop} {a : FileAction α}
    (ha : StaysIn R a) : StaysIn (State.OnHosts R) (files a) := by
  intro s
  rw [run_files]
  exact ⟨rfl, ha s.host⟩

/-- A change of what is kept about documents. -/
theorem staysIn_changeStore {R : Host → Host → Prop} (hR : Chains R) {f : Store → Store}
    (hf : ∀ s, (f s).root = s.root) : StaysIn (State.OnHosts R) (changeStore f) :=
  fun s => ⟨hf s.store, hR.refl s.host⟩

/-- Making the workspace ready is asking whether it can be written to and making directories. -/
theorem onHosts_ensureReady {R : Host → Host → Prop} (hR : Chains R) (s : State)
    (hwritable : StaysIn R (FileAction.isWritable s.store.root.path))
    (hdirs : ∀ dir ∈ Document.dirs, StaysIn R (FileAction.makeDirs (s.store.base.below dir).path)) :
    s.OnHosts R (ensureReady.run s).2 := by
  have hS := State.chains_onHosts hR
  have hmemory := staysIn_changeStore hR (f := fun s => { s with memory := some [] })
    fun _ => rfl
  have hlast := staysIn_changeStore hR (f := fun s => { s with isReady := true })
    fun _ => rfl
  unfold ensureReady
  rw [run_bind, run_get]
  dsimp only
  -- A store that is ready is left as it is, and so is one whose workspace is missing.
  split_ifs
  · exact hS.refl s
  · exact hS.refl s
  refine StaysIn.bind hS (staysIn_files hwritable) (fun writable => ?_) s
  split
  · refine .bind hS (staysIn_files ?_) fun made => ?_
    · exact .bind hR (hdirs _ (by decide)) fun _ => hdirs _ (by decide)
    cases made with
    | ok => exact hlast
    | error e =>
      dsimp only
      split_ifs
      · exact .bind hS hmemory fun _ => hlast
      · exact .bind hS (staysIn_throw hS _) fun _ => hlast
  · exact .bind hS hmemory fun _ => hlast

/-- Making the workspace ready takes nothing from the supply and makes directories only. -/
theorem staysIn_ensureReady : StaysIn (State.OnHosts Host.Gains) ensureReady := by
  have hcounted : ∀ h : Host, h.Gains h.counted := fun _ => ⟨⟨rfl, rfl, rfl⟩, .refl _⟩
  refine fun s => onHosts_ensureReady Host.chains_gains s
    (FileAction.staysIn_isWritable Host.chains_gains hcounted _) fun dir _ => ?_
  exact FileAction.staysIn_makeDirs Host.chains_gains hcounted fun _ _ _ _ =>
    FileAction.gains_of_withDir

/-- An error of a document's file. -/
theorem staysIn_fileError {α : Type} {R : State → State → Prop} (hR : Chains R) (d : Document)
    (e : Errno) :
    StaysIn R (fileError d e >>= fun e => throw e : StoreAction α) :=
  .bind hR (staysIn_get fun s => hR.refl s) fun e => staysIn_throw hR e

/-- Reading a document is reading a file, if it is not kept in memory. -/
theorem onHosts_readText {R : Host → Host → Prop} (hR : Chains R)
    (hread : ∀ p, StaysIn R (FileAction.read p)) (d : Document) :
    StaysIn (State.OnHosts R) (readText d) := by
  have hS := State.chains_onHosts hR
  refine staysIn_get fun s => ?_
  cases s.store.memory with
  | some kept => exact hS.refl s
  | none =>
    refine StaysIn.bind hS (staysIn_files (hread _)) (fun res => ?_) s
    cases res with
    | ok bytes => exact staysIn_pure hS _
    | error e =>
      dsimp only
      split_ifs
      · exact staysIn_pure hS none
      · exact staysIn_fileError hS d e

/-- Reading a document takes nothing from the supply. -/
theorem staysIn_readText (d : Document) :
    StaysIn (State.OnHosts Host.SameSupply) (readText d) :=
  onHosts_readText Host.chains_sameSupply FileAction.staysIn_read d

/-- Nor does writing one. -/
theorem staysIn_writeText (d : Document) (text : String) :
    StaysIn (State.OnHosts Host.SameSupply) (writeText d text) := by
  have hR := State.chains_onHosts Host.chains_sameSupply
  refine .bind hR (fun s => ?_) fun _ => staysIn_get fun s => ?_
  · exact (staysIn_ensureReady s).imp_right And.left
  cases s.store.memory with
  | some kept => exact staysIn_changeStore Host.chains_sameSupply (fun _ => rfl) s
  | none =>
    refine StaysIn.bind hR (staysIn_files (FileAction.staysIn_writeWhole _ _)) (fun res => ?_) s
    cases res with
    | ok => exact staysIn_pure hR ()
    | error e => exact staysIn_fileError hR d e

/-- Nor does removing one. -/
theorem staysIn_remove (d : Document) : StaysIn (State.OnHosts Host.SameSupply) (remove d) := by
  have hR := State.chains_onHosts Host.chains_sameSupply
  refine staysIn_get fun s => ?_
  cases s.store.memory with
  | some kept =>
    refine StaysIn.bind hR (staysIn_changeStore Host.chains_sameSupply ?_)
      (fun _ => staysIn_pure hR _) s
    exact fun _ => rfl
  | none =>
    refine StaysIn.bind hR (staysIn_files (FileAction.staysIn_change_supply _ _)) (fun res => ?_) s
    cases res with
    | ok => exact staysIn_pure hR true
    | error e =>
      dsimp only
      split_ifs
      · exact staysIn_pure hR false
      · exact staysIn_fileError hR d e

/-- When making a workspace ready succeeds, it is ready. -/
theorem isReady_of_ensureReady (s : State) :
    Ends ensureReady s fun r s' => r = .ok () → s'.store.isReady := by
  -- Every way through that does not fail ends by marking the store as ready.
  have hlast : ∀ {α : Type} (a : StoreAction α) (s : State),
      Ends (a >>= fun _ => changeStore fun s => { s with isReady := true }) s
        fun r s' => r = .ok () → s'.store.isReady := fun a s =>
    Ends.bind (P := fun _ _ => True) trivial (by simp) fun _ _ _ => ends_changeStore fun _ => rfl
  unfold ensureReady
  refine ends_get ?_
  split_ifs with hready
  · exact Ends.of_eq (run_pure () s) fun _ => hready
  · exact ends_throw (by simp)
  refine Ends.bind (P := fun _ _ => True) trivial (by simp) fun writable s₁ _ => ?_
  split
  · refine Ends.bind (P := fun _ _ => True) trivial (by simp) fun made s₂ _ => ?_
    cases made with
    | ok => exact ends_changeStore fun _ => rfl
    | error e =>
      dsimp only
      split_ifs <;> exact hlast _ s₂
  · exact hlast _ s₁

end StoreAction

end CodeSurvey.Storage
