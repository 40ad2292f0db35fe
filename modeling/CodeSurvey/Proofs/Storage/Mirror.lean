import CodeSurvey.Proofs.Storage.Supply

/-!
# A store in memory beside one in files

Two stores are run side by side: one keeps its documents in memory, the other one in files where no
primitive fails. They are level (`Level`) when the files of the second one are the texts of the
first one, under the same paths, and both draw the same names at the same moment. Making the
workspaces ready, reading, writing and removing give the same on both sides and leave them level
(`agree_ensureReady`, `agree_readText`, `agree_writeText`, `agree_remove`), so an operation that is
put together from these does, too (`Agree`).

No text has carriage returns, so what is read from a file is what was written to it.
-/

namespace CodeSurvey.Storage

open CodeSurvey.Artifact CodeSurvey.Files
open FileAction (temporary)
open State (Moves)
open StoreAction

namespace State

/-- The text that is kept in memory at a path below the control directory. -/
def keptAt? (s : State) (x : Path) : Option String :=
  ((s.store.memory.getD []).find? (·.1 == x)).map (·.2)

/-- A state at another moment. -/
def setClock (s : State) (now : Time.Moment) : State := { s with host := { s.host with now } }

end State

/-! ## Level states -/

/-- Two states whose documents have the same texts: those of `m` are in memory, and those of `d` in
files at a site, where nothing is in the way. The files of `m` are those of a tree. -/
structure Level (site : Site) (t : Tree) (m d : State) : Prop where
  clear : d.Clear site
  inFiles : d.store.memory = none
  root : d.store.root.text = m.store.root.text
  supply : m.host.SameSupply d.host
  tree : t.Gains m.host.tree
  texts : ∀ x, d.fileAt? site x = (m.keptAt? x).map String.toUTF8
  documents : ∀ x text, m.keptAt? x = some text →
    (∃ doc : Document, x = doc.path) ∧ '\r' ∉ text.toList

/-- Level states that operations start in: making the workspace of `m` ready keeps its documents in
memory, whenever that is done. -/
structure Beside (site : Site) (t : Tree) (m d : State) : Prop extends Level site t m d where
  opens : ∀ now, ∃ m', ensureReady.run (m.setClock now) = (.ok (), m') ∧
    m'.store.memory.isSome ∧ ∀ x, m'.keptAt? x = m.keptAt? x

/-- Level states whose workspaces are ready. -/
structure Mirrors (site : Site) (t : Tree) (m d : State) : Prop extends Level site t m d where
  isReady : m.store.isReady
  inMemory : m.store.memory.isSome
  isReadyDisk : d.store.isReady

variable {site : Site} {t : Tree} {m m' d d' : State}

/-- Operations may start in level states whose workspaces are ready. -/
theorem Mirrors.beside (h : Mirrors site t m d) : Beside site t m d where
  toLevel := h.toLevel
  opens := fun now => ⟨m.setClock now, run_ensureReady h.isReady, h.inMemory, fun _ => rfl⟩

namespace Level

/-- A document has the text in its file that is kept of it in memory. -/
theorem holds (h : Level site t m d) (doc : Document) : d.Holds doc (m.keptAt? doc.path) := by
  have htext := h.texts doc.path
  have hfree := h.clear.documents doc
  rw [State.holds_iff_disk h.inFiles, h.clear.disk?_eq]
  unfold State.fileAt? at htext
  cases hentry : d.host.tree.entry? (site.place doc.path) with
  | none =>
    simp only [hentry] at htext
    rw [eq_comm, Option.map_eq_none_iff] at htext
    rw [htext]
    rfl
  | some e =>
    obtain ⟨content, rfl⟩ := hfree e hentry
    simp only [hentry] at htext
    obtain ⟨text, hkept, rfl⟩ := Option.map_eq_some_iff.1 htext.symm
    rw [hkept]
    rfl

/-- So it has that text when it is read. -/
theorem text?_eq (h : Level site t m d) (doc : Document) :
    d.text? doc = m.keptAt? doc.path :=
  (h.holds doc).text? fun text htext => (h.documents doc.path text htext).2

/-- No temporary file is left over. -/
theorem temporary?_eq (h : Level site t m d) (doc : Document) : d.temporary? doc = none := by
  rw [h.clear.temporary?_eq]
  by_contra hne
  obtain ⟨e, hentry⟩ := Option.ne_none_iff_exists'.1 hne
  obtain ⟨content, rfl⟩ := h.clear.temporaries doc e hentry
  have htext := h.texts (temporary doc.path)
  simp only [State.fileAt?, hentry] at htext
  obtain ⟨text, hkept, -⟩ := Option.map_eq_some_iff.1 htext.symm
  obtain ⟨doc', hpath⟩ := (h.documents _ _ hkept).1
  exact doc'.path_ne_temporary doc hpath.symm

/-- Operations that change no document on either side leave level states. -/
theorem next (h : Level site t m d) (hmoves : Moves site [] d d') (hmem : d'.store.memory = none)
    (hroot : m'.store.root = m.store.root) (htree : m.host.tree.Gains m'.host.tree)
    (hkept : ∀ x, m'.keptAt? x = m.keptAt? x) (hsupply : m'.host.SameSupply d'.host) :
    Level site t m' d' where
  clear := hmoves.clear h.clear
  inFiles := hmem
  root := by rw [hmoves.root, h.root, hroot]
  supply := hsupply
  tree := h.tree.trans htree
  texts := by
    intro x
    rw [hmoves.fileAt?_eq h.clear h.temporary?_eq (by simp), h.texts, hkept]
  documents := fun x text htext => h.documents x text (by rwa [hkept] at htext)

/-- Operations that change one document, and in the same way on both sides, leave level states. -/
theorem change (h : Level site t m d) {doc : Document} {text : Option String}
    {kept : List (Path × String)}
    (hkept : ∀ x, (kept.find? (·.1 == x)).map (·.2) =
      if x = doc.path then text else m.keptAt? x)
    (hreturn : ∀ s, text = some s → '\r' ∉ s.toList) (hmoves : Moves site [doc] d d')
    (hmem : d'.store.memory = none) (hholds : d'.Holds doc text)
    (hsupply : d.host.SameSupply d'.host) :
    Level site t { m with store := { m.store with memory := some kept } } d' where
  clear := hmoves.clear h.clear
  inFiles := hmem
  root := by rw [hmoves.root, h.root]
  supply := h.supply.trans hsupply
  tree := h.tree
  texts := by
    intro x
    refine Eq.trans ?_ (congrArg _ (hkept x).symm)
    split_ifs with hx
    · subst hx
      rw [State.holds_iff_disk hmem, (hmoves.clear h.clear).disk?_eq] at hholds
      rw [State.fileAt?, hholds]
      cases text <;> rfl
    · -- At any other path nothing is changed, on either side.
      rw [hmoves.fileAt?_eq h.clear h.temporary?_eq (by simpa using hx), h.texts]
  documents := by
    intro x s hs
    have hs' := (hkept x).symm.trans hs
    split_ifs at hs' with hx
    · exact ⟨⟨doc, hx⟩, hreturn s hs'⟩
    · exact h.documents x s hs'

/-- Level states at another moment. -/
theorem setClock (h : Level site t m d) (now : Time.Moment) :
    Level site t (m.setClock now) (d.setClock now) where
  clear := h.clear.congr rfl rfl rfl (fun hnot => ⟨hnot, rfl⟩) h.clear.ready
  inFiles := h.inFiles
  root := h.root
  supply := ⟨rfl, h.supply.ids, h.supply.idStart⟩
  tree := h.tree
  texts := h.texts
  documents := h.documents

end Level

/-- The same of states that operations start in. -/
theorem Beside.setClock (h : Beside site t m d) (now : Time.Moment) :
    Beside site t (m.setClock now) (d.setClock now) where
  toLevel := h.toLevel.setClock now
  opens := h.opens

/-- Operations that change no document leave the states of workspaces that are ready. -/
theorem Mirrors.next (h : Mirrors site t m d) (hmoves : Moves site [] d d')
    (hstore : m'.store = m.store) (htree : m'.host.tree = m.host.tree)
    (hsupply : m'.host.SameSupply d'.host) : Mirrors site t m' d' := by
  obtain ⟨hready, hmode⟩ := hmoves.mode h.isReadyDisk
  rw [h.inFiles, Option.isSome_none, Option.isSome_eq_false_iff,
    Option.isNone_iff_eq_none] at hmode
  refine ⟨h.toLevel.next hmoves hmode (by rw [hstore]) ?_ ?_ hsupply, ?_, ?_, hready⟩
  · rw [htree]
    exact .refl _
  · intro x
    rw [State.keptAt?, State.keptAt?, hstore]
  · rw [hstore]
    exact h.isReady
  · rw [hstore]
    exact h.inMemory

/-- So do operations that change one in the same way on both sides. -/
theorem Mirrors.change (h : Mirrors site t m d) {doc : Document} {text : Option String}
    {kept : List (Path × String)}
    (hkept : ∀ x, (kept.find? (·.1 == x)).map (·.2) =
      if x = doc.path then text else m.keptAt? x)
    (hreturn : ∀ s, text = some s → '\r' ∉ s.toList) (hmoves : Moves site [doc] d d')
    (hholds : d'.Holds doc text) (hsupply : d.host.SameSupply d'.host) :
    Mirrors site t { m with store := { m.store with memory := some kept } } d' := by
  obtain ⟨hready, hmode⟩ := hmoves.mode h.isReadyDisk
  rw [h.inFiles, Option.isSome_none, Option.isSome_eq_false_iff,
    Option.isNone_iff_eq_none] at hmode
  exact ⟨h.toLevel.change hkept hreturn hmoves hmode hholds hsupply, h.isReady, rfl, hready⟩

/-! ## Actions that agree -/

section Agree

variable {α β : Type} {P Q : State → State → Prop}

/-- From two states of which `P` holds, an operation gives the same, and leaves two of which `Q`
holds. -/
def Agree (P Q : State → State → Prop) (a : StoreAction α) : Prop :=
  ∀ m d, P m d → (a.run m).1 = (a.run d).1 ∧ Q (a.run m).2 (a.run d).2

/-- What holds before may be strengthened, and what holds after that weakened. -/
theorem Agree.mono {P' Q' : State → State → Prop} {a : StoreAction α} (h : Agree P Q a)
    (hP : ∀ m d, P' m d → P m d) (hQ : ∀ m d, Q m d → Q' m d) : Agree P' Q' a :=
  fun m d hm => (h m d (hP m d hm)).imp_right (hQ _ _)

/-- A value. -/
theorem agree_pure (x : α) : Agree P P (pure x : StoreAction α) :=
  fun _ _ h => ⟨rfl, h⟩

/-- An error. -/
theorem agree_throw (e : StoreError) : Agree P P (throw e : StoreAction α) :=
  fun _ _ h => ⟨rfl, h⟩

/-- Two operations one after the other. -/
theorem Agree.bind {a : StoreAction α} {f : α → StoreAction β} (ha : Agree P Q a)
    (hf : ∀ x, Agree Q Q (f x)) : Agree P Q (a >>= f) := by
  intro m d h
  obtain ⟨hsame, hQ⟩ := ha m d h
  rw [run_bind, run_bind]
  rcases hrun : a.run m with ⟨r, m'⟩
  rcases hrun' : a.run d with ⟨r', d'⟩
  rw [hrun, hrun'] at hsame hQ
  obtain rfl : r = r' := hsame
  cases r with
  | error e => exact ⟨rfl, hQ⟩
  | ok x => exact hf x m' d' hQ

/-- An operation that begins with a look at the state, and goes on in the same way from both. -/
theorem agree_get {f : State → StoreAction α} (hsame : ∀ m d, P m d → f m = f d)
    (hf : ∀ s, Agree P Q (f s)) : Agree P Q (get >>= f) := by
  intro m d h
  rw [run_bind, run_bind, run_get, run_get]
  simp only [hsame m d h]
  exact hf d m d h

/-- An operation whose failure to read or write is suppressed. -/
theorem Agree.suppress {a : StoreAction Unit} (ha : Agree P P a) :
    Agree P P (StoreAction.suppress a) := by
  intro m d h
  obtain ⟨hsame, hP⟩ := ha m d h
  unfold StoreAction.suppress
  rw [run_tryCatch, run_tryCatch]
  rcases hrun : a.run m with ⟨r, m'⟩
  rcases hrun' : a.run d with ⟨r', d'⟩
  rw [hrun, hrun'] at hsame hP
  obtain rfl : r = r' := hsame
  cases r with
  | ok x => exact ⟨rfl, hP⟩
  | error e => cases e <;> exact ⟨rfl, hP⟩

/-- An operation whose value is not used. -/
theorem Agree.discard {a : StoreAction α} (ha : Agree P Q a) : Agree P Q (discard a) :=
  ha.bind fun _ => agree_pure _

/-- The same operation for each of some values, one after the other. -/
theorem Agree.mapM {f : β → StoreAction α} (hf : ∀ x, Agree P P (f x)) (xs : List β) :
    Agree P P (xs.mapM f) := by
  induction xs with
  | nil =>
    rw [List.mapM_nil]
    exact agree_pure _
  | cons x xs ih =>
    rw [List.mapM_cons]
    exact (hf x).bind fun _ => ih.bind fun _ => agree_pure _

end Agree

/-! ## The steps of operations -/

/-- Making the workspaces ready. -/
theorem agree_ensureReady : Agree (Beside site t) (Mirrors site t) ensureReady := by
  intro m d h
  obtain ⟨m', hrun, hmemory, hkept⟩ := h.opens m.host.now
  have hrun : ensureReady.run m = (.ok (), m') := hrun
  have hready := (isReady_of_ensureReady m).of_run hrun rfl
  have hm := staysIn_ensureReady m
  rw [hrun] at hm ⊢
  have hd := staysIn_ensureReady d
  rcases hrun' : ensureReady.run d with ⟨r, d'⟩
  rw [hrun'] at hd
  have hr := (ensureReady_spec h.clear.toSited h.clear.ready).of_run hrun'
  obtain ⟨rfl, hmode⟩ := hr.clear h.clear
  have hsupply : m'.host.SameSupply d'.host := (hm.2.1.symm.trans h.supply).trans hd.2.1
  exact ⟨rfl, h.toLevel.next hr.moves (hmode.trans h.inFiles) hm.1 hm.2.2 hkept hsupply, hready,
    hmemory, hr.isReady rfl⟩

/-- The text that is read on both sides has no carriage returns. -/
theorem agree_readText {α : Type} {doc : Document} {f : Option String → StoreAction α}
    (hf : ∀ text, (∀ s, text = some s → '\r' ∉ s.toList) →
      Agree (Mirrors site t) (Mirrors site t) (f text)) :
    Agree (Mirrors site t) (Mirrors site t) (readText doc >>= f) := by
  intro m d h
  have hrun : (readText doc).run m = (.ok (m.keptAt? doc.path), m) := by
    obtain ⟨kept, hkept⟩ := Option.isSome_iff_exists.1 h.inMemory
    unfold readText State.keptAt?
    rw [run_bind, run_get]
    simp only [hkept]
    rfl
  have hd := staysIn_readText doc d
  rcases hrun' : (readText doc).run d with ⟨r, d'⟩
  rw [hrun'] at hd
  have hr := (readText_spec h.clear.toSited doc).of_run hrun'
  obtain rfl := hr.clear h.clear
  rw [run_bind, run_bind, hrun, hrun', h.text?_eq]
  exact hf _ (fun s hs => (h.documents _ s hs).2) m d'
    (h.next hr.moves rfl rfl (h.supply.trans hd.2))

/-- Reading a value. -/
theorem agree_readJson (doc : Document) :
    Agree (Mirrors site t) (Mirrors site t) (readJson doc) := by
  refine agree_readText fun text _ => ?_
  cases text with
  | none => exact agree_pure none
  | some text =>
    dsimp only
    cases Json.read text with
    | ok j => exact agree_pure (some j)
    | error e =>
      cases e with
      | malformed => exact agree_pure none
      | _ => exact agree_throw _

/-- Writing a text without carriage returns. -/
theorem agree_writeText (doc : Document) {text : String} (htext : '\r' ∉ text.toList) :
    Agree (Mirrors site t) (Mirrors site t) (writeText doc text) := by
  intro m d h
  obtain ⟨kept, hkept⟩ := Option.isSome_iff_exists.1 h.inMemory
  have hrun : (writeText doc text).run m =
      (.ok (), { m with store := { m.store with memory := some (keep doc.path text kept) } }) := by
    unfold writeText
    rw [run_bind, run_ensureReady h.isReady]
    simp only
    rw [run_bind, run_get]
    simp only [hkept]
    rfl
  have hd := staysIn_writeText doc text d
  rcases hrun' : (writeText doc text).run d with ⟨r, d'⟩
  rw [hrun'] at hd
  have hr := (writeText_spec h.clear.toSited h.isReadyDisk doc text).of_run hrun'
  rw [hrun]
  -- In a clear place writing a file cannot fail, which it never does in memory.
  cases r with
  | error e => exact absurd h.clear hr.2.2
  | ok u =>
    refine ⟨rfl, h.change ?_ ?_ hr.1 hr.2 hd.2⟩
    · intro x
      rw [find?_keep, State.keptAt?, hkept]
      rfl
    · rintro s ⟨⟩
      exact htext

/-- Writing a value. -/
theorem agree_writeJson (doc : Document) (j : Json) :
    Agree (Mirrors site t) (Mirrors site t) (writeJson doc j) := by
  unfold writeJson
  split_ifs
  · exact agree_writeText doc (Json.return_notMem_stored j)
  · exact agree_throw .longNumber

/-- Removing a document. -/
theorem agree_remove (doc : Document) : Agree (Mirrors site t) (Mirrors site t) (remove doc) := by
  intro m d h
  obtain ⟨kept, hkept⟩ := Option.isSome_iff_exists.1 h.inMemory
  have hfind : m.keptAt? doc.path = (kept.find? (·.1 == doc.path)).map (·.2) := by
    rw [State.keptAt?, hkept]
    rfl
  have hrun : (remove doc).run m = (.ok (m.keptAt? doc.path).isSome,
      { m with store := { m.store with memory := some (kept.filter (·.1 != doc.path)) } }) := by
    rw [hfind, Option.isSome_map, List.isSome_find?]
    unfold remove
    rw [run_bind, run_get]
    simp only [hkept]
    rfl
  have hd := staysIn_remove doc d
  rcases hrun' : (remove doc).run d with ⟨r, d'⟩
  rw [hrun'] at hd
  obtain ⟨hr, hthere⟩ := (remove_spec h.clear.toSited doc).of_run hrun'
  obtain rfl := hthere h.clear _ (h.holds doc)
  rw [hrun]
  -- In either case it is not there any more.
  have hgone : Moves site [doc] d d' ∧ d'.Holds doc none := by
    cases hold : m.keptAt? doc.path with
    | some text =>
      rw [hold] at hr
      exact hr
    | none =>
      rw [hold] at hr
      have hmoves : Moves site [] d d' := hr
      refine ⟨hmoves.mono (List.nil_subset _), ?_⟩
      rw [hmoves.holds_iff (hmoves.mode h.isReadyDisk).2 List.not_mem_nil, ← hold]
      exact h.holds doc
  refine ⟨rfl, h.change ?_ (by simp) hgone.1 hgone.2 hd.2⟩
  intro x
  rw [find?_drop, State.keptAt?, hkept]
  rfl

/-- Keeping an earlier generation. -/
theorem agree_backUp (doc earlier : Document) :
    Agree (Mirrors site t) (Mirrors site t) (backUp doc earlier) := by
  refine Agree.suppress (agree_readText fun text htext => ?_)
  cases text with
  | none => exact agree_pure ()
  | some text => exact agree_writeText earlier (htext text rfl)

/-- Drawing a name. -/
theorem agree_drawId : Agree (Mirrors site t) (Mirrors site t) drawId := by
  intro m d h
  have hsupply := h.supply
  have hmoves := (drawId_spec site d).of_run
    (show drawId.run d = (.ok (d.host.idStart ++ toString (d.host.ids + 1)),
      { d with host := { d.host with ids := d.host.ids + 1 } }) from rfl)
  refine ⟨?_, h.next hmoves.2.1 rfl rfl ⟨hsupply.now, ?_, hsupply.idStart⟩⟩
  · change Except.ok (m.host.idStart ++ toString (m.host.ids + 1)) =
      .ok (d.host.idStart ++ toString (d.host.ids + 1))
    rw [hsupply.ids, hsupply.idStart]
  · exact congrArg (· + 1) hsupply.ids

/-- Looking at the time. -/
theorem agree_nowText : Agree (Mirrors site t) (Mirrors site t) nowText := by
  intro m d h
  refine ⟨?_, h⟩
  change Except.ok m.host.nowText = .ok d.host.nowText
  rw [Host.nowText, Host.nowText, h.supply.now]

end CodeSurvey.Storage
