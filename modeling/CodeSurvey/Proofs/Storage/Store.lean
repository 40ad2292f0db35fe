import CodeSurvey.Proofs.Storage.State

/-!
# What the steps of operations on a store do

The steps are making the workspace ready (`ensureReady_spec`) and reading, writing and removing a
document (`readText_spec`, `writeText_spec`, `remove_spec`). Each is told by the documents that it
changes and by its result, and by when it cannot fail. Where a failure is suppressed, a step that
changes a document may have been made or not (`ends_suppress`).
-/

namespace CodeSurvey.Storage

open CodeSurvey.Artifact CodeSurvey.Files
open FileAction (temporary)

namespace StoreAction

open State (Moves)

variable {site : Site} {s : State}

/-- A run of file operations as a part of an operation on a store. -/
theorem run_files {α : Type} (a : FileAction α) (s : State) :
    (files a).run s = (.ok (a.run s.host).1, { s with host := (a.run s.host).2 }) := by
  unfold files
  rw [run_bind, run_get]
  rfl

/-- File operations that an operation on a store begins with. -/
theorem ends_files {α β : Type} {a : FileAction α} {f : Except Errno α → StoreAction β}
    {P : Except Errno α → Host → Prop} {Q : Except StoreError β → State → Prop}
    (h : Ends a s.host P) (hf : ∀ res host, P res host → Ends (f res) { s with host } Q) :
    Ends (files a >>= f) s Q := by
  unfold Ends
  rw [run_bind, run_files]
  exact hf _ _ h

/-- An operation that begins with a look at the state. -/
theorem ends_get {ε σ α : Type} {f : σ → ExceptT ε (StateM σ) α} {t : σ}
    {Q : Except ε α → σ → Prop} (h : Ends (f t) t Q) : Ends (get >>= f) t Q := by
  unfold Ends at h ⊢
  rwa [run_bind, run_get]

/-- An operation that begins with a look at the time. -/
theorem ends_nowText {α : Type} {f : String → StoreAction α}
    {Q : Except StoreError α → State → Prop} (h : Ends (f s.host.nowText) s Q) :
    Ends (nowText >>= f) s Q := by
  unfold Ends at h ⊢
  rwa [run_bind, show nowText.run s = (.ok s.host.nowText, s) from rfl]

/-- An operation that fails at once. -/
theorem ends_throw {ε σ α β : Type} {e : ε} {f : α → ExceptT ε (StateM σ) β} {t : σ}
    {Q : Except ε β → σ → Prop} (h : Q (.error e) t) : Ends (throw e >>= f) t Q := by
  unfold Ends
  rwa [run_bind, run_throw]

/-- A change of the store. -/
theorem ends_changeStore {f : Store → Store} {Q : Except StoreError Unit → State → Prop}
    (h : Q (.ok ()) { s with store := f s.store }) : Ends (changeStore f) s Q :=
  Ends.of_eq (run_modify _ s) h

/-- An operation that begins with a change of the store. -/
theorem ends_changeStore_bind {α : Type} {f : Store → Store} {g : Unit → StoreAction α}
    {Q : Except StoreError α → State → Prop} (h : Ends (g ()) { s with store := f s.store } Q) :
    Ends (changeStore f >>= g) s Q := by
  unfold Ends at h ⊢
  rw [run_bind, show (changeStore f).run s = (.ok (), { s with store := f s.store }) from rfl]
  exact h

/-! ## Making the workspace ready -/

/-- Asking whether a directory can be written to changes nothing; without faults it can. -/
theorem isWritable_spec (p : Path) (h : Host) :
    Ends (FileAction.isWritable p) h fun res h' => h.Follows h' ∧ h'.tree = h.tree ∧
      (h.faults = Faults.none → res = .ok true) := by
  have hasked : Ends (do FileAction.change ⟨.access, p⟩ .ok; return true : FileAction Bool) h
      fun res h' =>
        h.Follows h' ∧ h'.tree = h.tree ∧ (h.faults = Faults.none → res = .ok true) := by
    refine (FileAction.ends_unchanged h ⟨.access, p⟩).bind ?_ ?_
    · rintro e h' ⟨hf, hsame, hok⟩
      exact ⟨hf, hsame, fun hnone => by cases hok hnone⟩
    · rintro ⟨⟩ h' ⟨hf, hsame, -⟩
      exact Ends.of_eq (run_pure true h') ⟨hf, hsame, fun _ => rfl⟩
  refine hasked.tryCatch (fun x h' hend => hend) ?_
  rintro e h' ⟨hf, hsame, hok⟩
  exact Ends.of_eq (run_pure false h') ⟨hf, hsame, fun hnone => by cases hok hnone⟩

/-- Making the directory of some documents leaves all documents as they are. -/
theorem makeDirs_spec (hs : s.Sited site) {dir : Path} (hdir : dir ∈ Document.dirs) :
    Ends (FileAction.makeDirs (s.store.base.below dir).path) s.host fun res host =>
      Moves site [] s { s with host } ∧ (s.Clear site → res = .ok ()) := by
  have hup : ".." ∉ dir := by
    have hall : ∀ dir ∈ Document.dirs, ".." ∉ dir := by decide
    exact hall dir hdir
  have hpath : (s.store.base.below dir).path = site.start ++ (site.names ++ dir) := by
    rw [Place.below_path, hs.path, List.append_assoc]
  rw [hpath]
  refine (FileAction.makeDirs_spec s.host (hs.route hup) (List.prefix_refl _)).mono ?_
  rintro res host ⟨hf, ht, -, hok⟩
  refine ⟨.of_touches hs hdir hf ht (by simp) (by simp) ?_,
    fun hc => hok hc.faults (hc.dirs _ hdir)⟩
  intro d hnone hleft
  rw [State.entry?_of_touches ht hdir (.inr rfl) List.not_mem_nil] at hleft
  exact absurd hnone hleft

/-- The change of a store that was not ready, in either mode, leaves all documents as they are. -/
theorem moves_setReady (site : Site) (s : State) (hready : s.store.isReady = false)
    (hmem : s.store.memory = none) {memory : Option (List (Path × String))}
    (hkept : memory.getD [] = []) :
    Moves site [] s { s with store := { s.store with memory, isReady := true } } where
  root := rfl
  controlDir := rfl
  host := .refl _
  mode := fun h => by rw [hready] at h; cases h
  disk := fun _ _ => rfl
  kept := fun d _ => by rw [State.kept?, State.kept?, hmem, hkept]; rfl
  others := fun _ _ _ => rfl
  left := fun _ hnone hleft => absurd hnone hleft
  sited := fun h => h.congr rfl rfl
  clear := fun h => h.congr rfl rfl rfl (fun hnot => by cases hnot) fun _ => rfl
  ready := fun _ _ => rfl

/-- How making the workspace ready ends: no document is changed, a store that is ready is left as it
is, and in a clear state it is made ready and documents are kept as before. -/
structure Readies (site : Site) (s : State) (r : Except StoreError Unit) (s' : State) : Prop where
  moves : Moves site [] s s'
  same : s.store.isReady → r = .ok () ∧ s' = s
  isReady : r = .ok () → s'.store.isReady
  clear : s.Clear site → r = .ok () ∧ s'.store.memory = s.store.memory

/-- Setting a store ready in either mode after documents were left as they are. -/
theorem setReady_spec {host : Host} {memory : Option (List (Path × String))}
    (hready : s.store.isReady = false) (hmem : s.store.memory = none)
    (hm : Moves site [] s { s with host }) (hkept : memory.getD [] = [])
    (hclear : s.Clear site → memory = s.store.memory) :
    Ends (changeStore fun s => { s with isReady := true })
      { s with host, store := { s.store with memory } } (Readies site s) := by
  have hlast := moves_setReady site { s with host } hready hmem hkept
  refine ends_changeStore ⟨hm.trans hlast, fun h => ?_, fun _ => rfl, fun hc => ⟨rfl, hclear hc⟩⟩
  rw [hready] at h
  cases h

/-- Setting a store ready to keep documents in memory, which is not done in a clear state. -/
theorem setInMemory_spec {host : Host} (hready : s.store.isReady = false)
    (hmem : s.store.memory = none) (hm : Moves site [] s { s with host })
    (hclear : ¬ s.Clear site) :
    Ends (changeStore (fun s => { s with memory := some [] }) >>= fun _ =>
      changeStore fun s => { s with isReady := true }) { s with host } (Readies site s) :=
  ends_changeStore_bind (setReady_spec hready hmem hm rfl fun hc => absurd hc hclear)

/-- Making the directories of all documents leaves all documents as they are. -/
theorem makeAllDirs_spec (hs : s.Sited site) :
    Ends (do
        FileAction.makeDirs (s.store.base.below Document.artifactsDir).path
        FileAction.makeDirs (s.store.base.below Document.cacheDir).path) s.host fun res host =>
      Moves site [] s { s with host } ∧ (s.Clear site → res = .ok ()) := by
  refine (makeDirs_spec hs (show Document.artifactsDir ∈ Document.dirs by decide)).bind ?_ ?_
  · rintro e host ⟨hm, hok⟩
    exact ⟨hm, hok⟩
  · rintro ⟨⟩ host ⟨hm, -⟩
    refine (makeDirs_spec (hm.sited hs) (show Document.cacheDir ∈ Document.dirs by decide)).mono ?_
    rintro res host' ⟨hm', hok⟩
    exact ⟨hm.trans hm', fun hc => hok (hm.clear hc)⟩

/-- Making the workspace ready. -/
theorem ensureReady_spec (hs : s.Sited site) (hmem : s.store.memory.isSome → s.store.isReady) :
    Ends ensureReady s (Readies site s) := by
  unfold ensureReady
  refine ends_get ?_
  by_cases hready : s.store.isReady = true
  · rw [if_pos hready]
    exact Ends.of_eq (run_pure () s)
      ⟨.refl s, fun _ => ⟨rfl, rfl⟩, fun _ => hready, fun _ => ⟨rfl, rfl⟩⟩
  rw [if_neg hready]
  have hnotReady : s.store.isReady = false := by simpa using hready
  have hnoMemory : s.store.memory = none := by
    cases hm : s.store.memory with
    | none => rfl
    | some kept => exact absurd (hmem (by rw [hm]; rfl)) hready
  dsimp only
  by_cases hroot : (!s.host.tree.isDir s.store.root.path) = true
  · -- There is no workspace.
    rw [if_pos hroot]
    refine ends_throw ⟨.refl s, fun h => absurd h hready, by simp, fun hc => ?_⟩
    rw [hc.root hnotReady] at hroot
    cases hroot
  rw [if_neg hroot]
  refine ends_files (isWritable_spec s.store.root.path s.host) ?_
  rintro res host ⟨hf, htree, hwritable⟩
  have hm₁ : Moves site [] s { s with host } := .of_tree hf htree
  split
  · -- The directories of documents are made.
    refine ends_files (makeAllDirs_spec (hm₁.sited hs)) ?_
    rintro res host' ⟨hm, hok⟩
    have hm₂ : Moves site [] s { s with host := host' } := hm₁.trans hm
    cases res with
    | ok u =>
      have hmode : s.store = { s.store with memory := none } := by rw [← hnoMemory]
      have hkept : (none : Option (List (Path × String))).getD [] = [] := rfl
      have hset := setReady_spec hnotReady hnoMemory hm₂ hkept fun _ => hnoMemory.symm
      rwa [← hmode] at hset
    | error e =>
      have hclear : ¬ s.Clear site := fun hc => by cases hok (hm₁.clear hc)
      dsimp only
      split_ifs
      · exact setInMemory_spec hnotReady hnoMemory hm₂ hclear
      · exact ends_throw ⟨hm₂, fun h => absurd h hready, by simp, fun hc => absurd hc hclear⟩
  · -- The workspace cannot be written to.
    rename_i hno
    exact setInMemory_spec hnotReady hnoMemory hm₁ fun hc => hno (hwritable hc.faults)

/-- Making a workspace ready that is ready changes nothing. -/
theorem run_ensureReady (hready : s.store.isReady) : ensureReady.run s = (.ok (), s) := by
  unfold ensureReady
  rw [run_bind, run_get]
  simp only
  rw [if_pos hready, run_pure]

/-- An operation that begins with making a workspace ready that is ready. -/
theorem ends_ensureReady_bind {α : Type} {f : Unit → StoreAction α}
    {Q : Except StoreError α → State → Prop} (hready : s.store.isReady) (h : Ends (f ()) s Q) :
    Ends (ensureReady >>= f) s Q := by
  unfold Ends at h ⊢
  rwa [run_bind, run_ensureReady hready]

/-- The error of a document's file is one of the storage. -/
theorem ends_fileError {α : Type} {d : Document} {e : Errno}
    {Q : Except StoreError α → State → Prop} (h : ∀ e', Q (.error (.storage e')) s) :
    Ends (fileError d e >>= fun e => throw e) s Q := by
  unfold Ends
  rw [run_bind]
  exact h _

/-! ## Reading -/

/-- How reading a document ends: nothing is changed, and what is read is its text. No text is read
from a file that has none, or by the schedule. -/
structure Reads (site : Site) (d : Document) (s : State) (r : Except StoreError (Option String))
    (s' : State) : Prop where
  moves : Moves site [] s s'
  store : s'.store = s.store
  text : ∀ text, r = .ok (some text) → s.text? d = some text
  absent : r = .ok none → s.text? d = none ∨ s.Hidden s' d
  error : ∀ e, r = .error e → ∃ e', e = .storage e'
  clear : s.Clear site → r = .ok (s.text? d)

/-- What a document holds is read, and nothing is changed. -/
theorem Reads.of_text? {d : Document} {s' : State} (hm : Moves site [] s s')
    (hstore : s'.store = s.store) : Reads site d s (.ok (s.text? d)) s' where
  moves := hm
  store := hstore
  text := fun _ h => Except.ok.inj h
  absent := fun h => .inl (Except.ok.inj h)
  error := by simp
  clear := fun _ => rfl

/-- Reading the file of a document: without one it fails, and in a clear state for no other
reason. -/
theorem read_spec (hs : s.Sited site) (hmem : s.store.memory = none) (d : Document) :
    Ends (FileAction.read (s.store.place d).path) s.host fun res host =>
      host = s.host.counted ∧ match res with
      | .ok bytes => s.text? d = (utf8? bytes).map universalLines
      | .error e =>
        (s.host.faults s.host.calls ⟨.read, (s.store.place d).path⟩ = some e ∨
          s.text? d = none) ∧
        (s.Clear site → e = Errno.noEntry) := by
  have hdisk : ¬ s.store.memory.isSome = true := by rw [hmem]; exact Bool.false_ne_true
  have hne : site.names ++ d.path ≠ [] := by rw [d.path_eq]; simp
  have hread := FileAction.read_spec s.host (hs.route d.plain_paths.1) hne
  rw [← hs.place_path] at hread
  refine hread.mono ?_
  rintro (e | bytes) host ⟨hhost, hres⟩
  · refine ⟨hhost, ?_, fun hc => ?_⟩
    · refine hres.imp_right fun ⟨_, hnofile, _⟩ => ?_
      rw [State.text?, if_neg hdisk, hs.disk?_eq]
      split
      · rename_i bytes hfile
        exact absurd hfile (hnofile bytes)
      · rfl
    · obtain ⟨-, hnofile, hno⟩ := hres.resolve_left (s.host.faults_ne_some hc.faults _ _ e)
      -- A document can only be a file in a clear state, so there is nothing in its place.
      have hfree : s.host.tree.entry? (site.place d.path) = none := by
        by_contra hentry
        obtain ⟨entry, hentry⟩ := Option.ne_none_iff_exists'.1 hentry
        obtain ⟨content, rfl⟩ := hc.documents d entry hentry
        exact hnofile content hentry
      exact hno hfree (hc.fileFree hfree)
  · refine ⟨hhost, ?_⟩
    rw [State.text?, if_neg hdisk, hs.disk?_eq]
    simp only [Site.place, hres]

/-- Reading a document. -/
theorem readText_spec (hs : s.Sited site) (d : Document) :
    Ends (readText d) s (Reads site d s) := by
  unfold readText
  refine ends_get ?_
  cases hmem : s.store.memory with
  | some kept =>
    have htext : s.text? d = (kept.find? (·.1 == d.path)).map (·.2) := by
      rw [State.text?, if_pos (by rw [hmem]; rfl), State.kept?, hmem]
      rfl
    have hreads : Reads site d s (.ok (s.text? d)) s := .of_text? (.refl s) rfl
    rw [htext] at hreads
    exact Ends.of_eq (run_pure _ s) hreads
  | none =>
    refine ends_files (read_spec hs hmem d) ?_
    have hmoves : Moves site [] s { s with host := s.host.counted } :=
      .of_tree (s.host.follows_counted s.host.tree) rfl
    rintro (e | bytes) host ⟨rfl, hres⟩
    · -- A missing file is an absent document; any other error is passed on.
      obtain ⟨hwhy, hclear⟩ := hres
      dsimp only
      split_ifs with he
      · refine Ends.of_eq (run_pure _ _) ⟨hmoves, rfl, by simp, fun _ => ?_, by simp, fun hc => ?_⟩
        · subst he
          exact hwhy.symm.imp_right fun h => ⟨_, Nat.le_refl _, Nat.lt_succ_self _, h⟩
        · rw [hwhy.resolve_left (s.host.faults_ne_some hc.faults _ _ e)]
      · exact ends_fileError fun e' => ⟨hmoves, rfl, by simp, by simp,
          fun e he => ⟨e', (Except.error.inj he).symm⟩, fun hc => absurd (hclear hc) he⟩
    · have hreads : Reads site d s (.ok (s.text? d)) { s with host := s.host.counted } :=
        .of_text? hmoves rfl
      rw [show s.text? d = (utf8? bytes).map universalLines from hres] at hreads
      exact Ends.of_eq (run_pure _ _) hreads

/-- How reading the value of a document ends: nothing is changed, and what is read is its value. -/
structure ReadsJson (site : Site) (d : Document) (s : State)
    (r : Except StoreError (Option Json)) (s' : State) : Prop where
  moves : Moves site [] s s'
  store : s'.store = s.store
  value : ∀ j, r = .ok (some j) → s.value? d = some j
  absent : r = .ok none → s.value? d = none ∨ s.Hidden s' d
  /-- In a clear state only a text that cannot be read is an error. -/
  clear : s.Clear site → (∀ text, s.text? d = some text → ∃ j, Json.read text = .ok j) →
    r = .ok (s.value? d)

/-- Reading the value of a document. -/
theorem readJson_spec (hs : s.Sited site) (d : Document) :
    Ends (readJson d) s (ReadsJson site d s) := by
  unfold readJson
  refine (readText_spec hs d).bind ?_ ?_
  · rintro e s' h
    refine ⟨h.moves, h.store, by simp, by simp, fun hc => ?_⟩
    cases h.clear hc
  rintro (_ | text) s' h
  · refine Ends.of_eq (run_pure _ s') ⟨h.moves, h.store, by simp, fun _ => ?_, fun hc _ => ?_⟩
    · exact (h.absent rfl).imp_left fun hnone => by rw [State.value?, hnone]; rfl
    · rw [State.value?, ← Except.ok.inj (h.clear hc)]
      rfl
  · have htext := h.text text rfl
    dsimp only
    cases hread : Json.read text with
    | ok j =>
      have hvalue : s.value? d = some j := by rw [State.value?, htext, Option.bind_some, hread]; rfl
      refine Ends.of_eq (run_pure _ s') ⟨h.moves, h.store, ?_, by simp, fun _ _ => by rw [hvalue]⟩
      rintro j' hj
      rw [hvalue, Except.ok.inj hj]
    | error e =>
      have hvalue : s.value? d = none := by rw [State.value?, htext, Option.bind_some, hread]; rfl
      have hbad : ¬ ∀ text, s.text? d = some text → ∃ j, Json.read text = .ok j := by
        intro hgood
        obtain ⟨j, hj⟩ := hgood text htext
        cases hread.symm.trans hj
      -- Malformed text counts as none, and a text out of bounds is an error.
      cases e with
      | malformed =>
        exact Ends.of_eq (run_pure _ s') ⟨h.moves, h.store, by simp, fun _ => .inl hvalue,
          fun _ hgood => absurd hgood hbad⟩
      | _ =>
        exact Ends.of_eq (run_throw _ s') ⟨h.moves, h.store, by simp, by simp,
          fun _ hgood => absurd hgood hbad⟩

/-! ## Writing and removing -/

/-- A text is found under its path, and all others as before. -/
theorem find?_keep (path p : Path) (text : String) (kept : List (Path × String)) :
    ((keep path text kept).find? (·.1 == p)).map (·.2) =
      if p = path then some text else (kept.find? (·.1 == p)).map (·.2) := by
  induction kept with
  | nil =>
    by_cases hp : p = path
    · subst hp
      simp [keep]
    · simp [keep, hp, Ne.symm hp]
  | cons x kept ih =>
    obtain ⟨q, t⟩ := x
    rw [keep]
    -- The first entry is either replaced, and the search ends there, or left alone.
    by_cases hq : q = path
    · subst hq
      rw [if_pos rfl]
      by_cases hp : p = q
      · subst hp
        simp
      · simp [hp, Ne.symm hp]
    · rw [if_neg hq]
      by_cases hp : q = p
      · subst hp
        simp [hq]
      · rw [List.find?_cons_of_neg (by simpa using hp), ih,
          List.find?_cons_of_neg (by simpa using hp)]

/-- A text is not found under the path from which it is dropped, and all others are as before. -/
theorem find?_drop (path p : Path) (kept : List (Path × String)) :
    ((kept.filter (·.1 != path)).find? (·.1 == p)).map (·.2) =
      if p = path then none else (kept.find? (·.1 == p)).map (·.2) := by
  rw [List.find?_filter]
  by_cases hp : p = path
  · subst hp
    simp
  · rw [if_neg hp]
    congr 2
    funext x
    by_cases hx : x.1 = p
    · simp [hx, hp]
    · simp [hx]

/-- A document whose text is put in memory has it, and the others are as before. -/
theorem kept?_keep {kept : List (Path × String)} (hmem : s.store.memory = some kept)
    (d d' : Document) (text : String) :
    ((keep d.path text kept).find? (·.1 == d'.path)).map (·.2) =
      if d' = d then some text else s.kept? d' := by
  rw [find?_keep, State.kept?, hmem]
  by_cases hd : d' = d
  · rw [if_pos hd, if_pos (by rw [hd])]
  · rw [if_neg hd, if_neg fun h => hd (Document.path_injective h)]
    rfl

/-- A document whose text is dropped from memory has none, and the others are as before. -/
theorem kept?_drop {kept : List (Path × String)} (hmem : s.store.memory = some kept)
    (d d' : Document) :
    ((kept.filter (·.1 != d.path)).find? (·.1 == d'.path)).map (·.2) =
      if d' = d then none else s.kept? d' := by
  rw [find?_drop, State.kept?, hmem]
  by_cases hd : d' = d
  · rw [if_pos hd, if_pos (by rw [hd])]
  · rw [if_neg hd, if_neg fun h => hd (Document.path_injective h)]
    rfl

/-- Writing a document of a workspace that is ready to its file. -/
theorem run_writeText (hready : s.store.isReady) (hmem : s.store.memory = none) (d : Document)
    (text : String) :
    (writeText d text).run s =
      match (FileAction.writeWhole (s.store.place d).path text).run s.host with
      | (.ok (), host) => (.ok (), { s with host })
      | (.error e, host) =>
        (.error (.storage (.ofSystem (.ofErrno e) (s.store.place d).text)), { s with host }) := by
  unfold writeText
  rw [run_bind, run_ensureReady hready]
  simp only
  rw [run_bind, run_get]
  simp only [hmem]
  rw [run_bind, run_files]
  rcases (FileAction.writeWhole (s.store.place d).path text).run s.host with ⟨_ | _, host⟩ <;> rfl

/-- How writing a document ends: it has the text then, or nothing is changed. -/
def Writes (site : Site) (d : Document) (text : String) (s : State) (r : Except StoreError Unit)
    (s' : State) : Prop :=
  match r with
  | .ok () => Moves site [d] s s' ∧ s'.Holds d (some text)
  | .error e => Moves site [] s s' ∧ (∃ e', e = .storage e') ∧ ¬ s.Clear site

/-- Writing the file of a document whole or not at all, told by the places in the tree. -/
theorem writeWhole_place (hs : s.Sited site) (d : Document) (text : String) :
    Ends (FileAction.writeWhole (s.store.place d).path text) s.host fun res host =>
      s.host.Follows host ∧ match res with
      | .ok () =>
        Tree.Touches (site.place d.dir) [site.place d.path, site.place (temporary d.path)]
          s.host.tree host.tree ∧
        host.tree.entry? (site.place d.path) = some (.file text.toUTF8) ∧
        host.tree.entry? (site.place (temporary d.path)) = none
      | .error _ =>
        Tree.Touches (site.place d.dir) [site.place (temporary d.path)] s.host.tree host.tree ∧
        (s.host.tree.entry? (site.place (temporary d.path)) = none →
          host.tree.entry? (site.place (temporary d.path)) ≠ none →
          ∃ n, s.host.calls ≤ n ∧ n < host.calls ∧
            (s.host.faults n ⟨.unlink, temporary (s.store.place d).path⟩).isSome) ∧
        ¬ s.Clear site := by
  have hroute := hs.route d.plain_paths.1
  have hroute' := hs.route d.plain_paths.2
  rw [d.path_eq, ← List.append_assoc] at hroute
  rw [d.temporary_path, ← List.append_assoc] at hroute'
  have hwrite := FileAction.writeWhole_spec s.host text hroute hroute'
  rw [← hs.place_path_split, ← site.place_path, ← site.place_temporary] at hwrite
  refine hwrite.mono ?_
  rintro (e | ⟨⟩) host ⟨hf, hend⟩
  · obtain ⟨ht, hleft, hclear⟩ := hend
    exact ⟨hf, ht, hleft, fun hc => hclear ⟨hc.faults, hc.dirs _ d.dir_mem, hc.documents d,
      hc.temporaries d⟩⟩
  · exact ⟨hf, hend⟩

/-- Writing the file of a document. -/
theorem writeWhole_spec (hs : s.Sited site) (d : Document) (text : String) :
    Ends (FileAction.writeWhole (s.store.place d).path text) s.host fun res host => match res with
      | .ok () => Moves site [d] s { s with host } ∧
        ({ s with host } : State).disk? d = some (.file text.toUTF8)
      | .error _ => Moves site [] s { s with host } ∧ ¬ s.Clear site := by
  refine (writeWhole_place hs d text).mono ?_
  rintro (e | ⟨⟩) host ⟨hf, hend⟩
  · obtain ⟨ht, hleft, hclear⟩ := hend
    refine ⟨.of_touches_document hs hf ht ?_ ?_ hleft, hclear⟩
    · exact fun p hp => .inr (List.mem_singleton.1 hp)
    · intro hin
      exact absurd (Site.place_inj.1 (List.mem_singleton.1 hin)) (d.path_ne_temporary d)
  · obtain ⟨ht, hfile, hgone⟩ := hend
    refine ⟨.of_touches_document hs hf ht (fun p hp => List.mem_pair.1 hp) ?_ ?_, ?_⟩
    · exact fun _ => List.mem_singleton_self d
    · exact fun _ hleft => absurd hgone hleft
    · rw [(hs.of_touches ht).disk?_eq, hfile]

/-- Writing a document of a store that is ready. -/
theorem writeText_spec (hs : s.Sited site) (hready : s.store.isReady) (d : Document)
    (text : String) : Ends (writeText d text) s (Writes site d text s) := by
  unfold writeText
  refine ends_ensureReady_bind hready (ends_get ?_)
  cases hmem : s.store.memory with
  | some kept =>
    refine ends_changeStore ⟨.of_memory (by rw [hmem]; rfl) ?_, ?_⟩
    · intro d' hd'
      rw [kept?_keep hmem, if_neg (by simpa using hd')]
    · exact (State.holds_iff_kept rfl d _).2 ((kept?_keep hmem d d text).trans (if_pos rfl))
  | none =>
    refine ends_files (writeWhole_spec hs d text) ?_
    rintro (e | ⟨⟩) host hend
    · exact ends_fileError fun e' => ⟨hend.1, ⟨e', rfl⟩, hend.2⟩
    · exact Ends.of_eq (run_pure _ _) ⟨hend.1,
        (State.holds_iff_disk (s := { s with host }) hmem d _).2 hend.2⟩

/-- Writing the value of a document of a store that is ready: its numbers must be short enough. -/
theorem writeJson_spec (hs : s.Sited site) (hready : s.store.isReady) (d : Document) (j : Json) :
    Ends (writeJson d j) s fun r s' => match r with
      | .ok () => Moves site [d] s s' ∧ s'.Holds d (some j.stored) ∧ j.hasShortInts
      | .error e => Moves site [] s s' ∧
        ((e = .longNumber ∧ ¬ j.hasShortInts) ∨ ((∃ e', e = .storage e') ∧ ¬ s.Clear site)) := by
  unfold writeJson
  split_ifs with hshort
  · refine (writeText_spec hs hready d j.stored).mono ?_
    rintro (e | ⟨⟩) s' h
    · exact ⟨h.1, .inr h.2⟩
    · exact ⟨h.1, h.2, hshort⟩
  · exact Ends.of_eq (run_throw _ s) ⟨.refl s, .inl ⟨rfl, hshort⟩⟩

/-- How removing a document ends: it is gone then, or nothing is changed. -/
def Removes (site : Site) (d : Document) (s : State) (r : Except StoreError Bool) (s' : State) :
    Prop :=
  match r with
  | .ok true => Moves site [d] s s' ∧ s'.Holds d none
  | .ok false => Moves site [] s s'
  | .error e => Moves site [] s s' ∧ ∃ e', e = .storage e'

/-- Removing the file of a document: unless the schedule says so it only fails where there is no
file. -/
theorem unlink_spec (hs : s.Sited site) (d : Document) :
    Ends (FileAction.unlink (s.store.place d).path) s.host fun res host => match res with
      | .ok () => Moves site [d] s { s with host } ∧ ({ s with host } : State).disk? d = none ∧
        ∃ content, s.disk? d = some (.file content)
      | .error e => Moves site [] s { s with host } ∧ (s.Clear site →
        (∀ content, s.disk? d ≠ some (.file content)) ∧
        (s.disk? d = none → e = Errno.noEntry)) := by
  have hne : site.names ++ d.path ≠ [] := by rw [d.path_eq]; simp
  have hunlink := FileAction.unlink_spec (site.place d.dir) s.host (hs.route d.plain_paths.1) hne
  rw [← hs.place_path] at hunlink
  refine hunlink.mono ?_
  rintro (e | ⟨⟩) host ⟨hf, -, hend⟩
  · obtain ⟨hsame, hwhy⟩ := hend
    refine ⟨.of_tree hf hsame, fun hc => ?_⟩
    -- In a clear state the schedule has no faults, so the removal failed for a reason.
    obtain ⟨hnofile, hno⟩ := hwhy (by rw [hc.faults]; rfl)
    rw [hs.disk?_eq]
    exact ⟨hnofile, fun hnone => hno hnone (hc.fileFree hnone)⟩
  · obtain ⟨ht, hthere, hgone⟩ := hend
    rw [(hs.of_touches ht).disk?_eq, hs.disk?_eq]
    refine ⟨.of_touches_document hs hf ht ?_ ?_ ?_, hgone, hthere⟩
    · exact fun p hp => .inl (List.mem_singleton.1 hp)
    · exact fun _ => List.mem_singleton_self d
    · intro hnone hleft
      rw [State.entry?_of_touches ht d.dir_mem (.inr rfl) fun hin => ?_] at hleft
      · exact absurd hnone hleft
      · exact d.path_ne_temporary d (Site.place_inj.1 (List.mem_singleton.1 hin)).symm

/-- A document is among those kept in memory if it holds a text. -/
theorem any_kept {kept : List (Path × String)} (hmem : s.store.memory = some kept) {d : Document}
    {text : Option String} (htext : s.Holds d text) :
    kept.any (·.1 == d.path) = text.isSome := by
  rw [← (State.holds_iff_kept hmem d text).1 htext, Option.isSome_map, List.isSome_find?]

/-- Dropping the text of a document from memory removes it, if it was there. -/
theorem removes_kept {kept : List (Path × String)} (hmem : s.store.memory = some kept)
    (d : Document) :
    Removes site d s (.ok (kept.any (·.1 == d.path)))
      { s with store := { s.store with memory := some (kept.filter (·.1 != d.path)) } } := by
  cases hthere : kept.any (·.1 == d.path) with
  | true =>
    refine ⟨.of_memory (by rw [hmem]; rfl) fun d' hd' => ?_, ?_⟩
    · rw [kept?_drop hmem, if_neg (by simpa using hd')]
    · exact (State.holds_iff_kept rfl d _).2 ((kept?_drop hmem d d).trans (if_pos rfl))
  | false =>
    -- What is not there is as before.
    refine .of_memory (by rw [hmem]; rfl) fun d' _ => ?_
    rw [kept?_drop hmem]
    split_ifs with hd
    · subst hd
      have habsent := any_kept hmem ((State.holds_iff_kept hmem d' _).2 rfl)
      rw [hthere, eq_comm, Option.isSome_eq_false_iff, Option.isNone_iff_eq_none] at habsent
      rw [State.kept?, hmem]
      exact habsent.symm
    · rfl

/-- Removing a document; in a clear state the result tells whether it was there. -/
theorem remove_spec (hs : s.Sited site) (d : Document) :
    Ends (remove d) s fun r s' => Removes site d s r s' ∧
      (s.Clear site → ∀ text, s.Holds d text → r = .ok text.isSome) := by
  unfold remove
  refine ends_get ?_
  cases hmem : s.store.memory with
  | some kept =>
    refine ends_changeStore_bind (Ends.of_eq (run_pure _ _)
      ⟨removes_kept hmem d, fun _ text htext => ?_⟩)
    rw [any_kept hmem htext]
  | none =>
    refine ends_files (unlink_spec hs d) ?_
    rintro (e | ⟨⟩) host hend
    · obtain ⟨hmoves, hwhy⟩ := hend
      -- In a clear state there was nothing to remove.
      have hclear : s.Clear site → ∀ text, s.Holds d text → e = Errno.noEntry ∧ text = none := by
        intro hc text htext
        rw [State.holds_iff_disk hmem] at htext
        cases text with
        | some t => exact absurd htext ((hwhy hc).1 t.toUTF8)
        | none => exact ⟨(hwhy hc).2 htext, rfl⟩
      dsimp only
      split_ifs with he
      · refine Ends.of_eq (run_pure _ _) ⟨hmoves, fun hc text htext => ?_⟩
        rw [(hclear hc text htext).2]
        rfl
      · exact ends_fileError fun e' =>
          ⟨⟨hmoves, e', rfl⟩, fun hc text htext => absurd (hclear hc text htext).1 he⟩
    · obtain ⟨hmoves, hgone, content, hfile⟩ := hend
      refine Ends.of_eq (run_pure _ _) ⟨⟨hmoves, ?_⟩, fun _ text htext => ?_⟩
      · exact (State.holds_iff_disk (s := { s with host }) hmem d none).2 hgone
      · rw [State.holds_iff_disk hmem] at htext
        cases text with
        | some t => rfl
        | none => cases htext.symm.trans hfile

/-! ## Suppressed failures -/

/-- An operation whose failure to read or write is suppressed. -/
theorem ends_suppress {a : StoreAction Unit} {P Q : Except StoreError Unit → State → Prop}
    (h : Ends a s P) (hok : ∀ s', P (.ok ()) s' → Q (.ok ()) s')
    (hstorage : ∀ e s', P (.error (.storage e)) s' → Q (.ok ()) s')
    (herror : ∀ e s', (∀ e', e ≠ .storage e') → P (.error e) s' → Q (.error e) s') :
    Ends (suppress a) s Q := by
  refine h.tryCatch (fun _ s' => hok s') ?_
  intro e s' hP
  cases e with
  | storage e => exact Ends.of_eq (run_pure () s') (hstorage e s' hP)
  | _ => exact Ends.of_eq (run_throw _ s') (herror _ s' (by simp) hP)

end StoreAction

end CodeSurvey.Storage
