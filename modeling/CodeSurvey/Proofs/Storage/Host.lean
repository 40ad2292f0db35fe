import CodeSurvey.Proofs.Files.Route
import CodeSurvey.Storage.Host

/-!
# What file actions do

A file action ends with a result and leaves a host (`Ends`). On a route the actions are told by what
stands at its end: directories are made on the way (`makeDirs_spec`), a file is removed
(`unlink_spec`) or read (`read_spec`), and a file is written whole or not at all
(`writeWhole_spec`). When writing fails, at most the temporary file is left, and only if it could
not be removed.

Each action is cut into its primitives, and each primitive either fails and leaves the tree or has
its effect (`ends_change`). What the schedule of faults says is not looked at but for that.
-/

namespace CodeSurvey.Storage

open CodeSurvey.Files

/-! ## Actions with a state and an error -/

section Ends

variable {ε σ α β : Type}

/-- An action that starts in `s` ends with a result and a state of which `Q` holds. -/
def Ends (a : ExceptT ε (StateM σ) α) (s : σ) (Q : Except ε α → σ → Prop) : Prop :=
  Q (a.run s).1 (a.run s).2

/-- What holds at the end may be weakened. -/
theorem Ends.mono {a : ExceptT ε (StateM σ) α} {s : σ} {P Q : Except ε α → σ → Prop}
    (h : Ends a s P) (hPQ : ∀ r s', P r s' → Q r s') : Ends a s Q :=
  hPQ _ _ h

/-- Two things that hold at the end hold together. -/
theorem Ends.and {a : ExceptT ε (StateM σ) α} {s : σ} {P Q : Except ε α → σ → Prop}
    (h : Ends a s P) (h' : Ends a s Q) : Ends a s fun r s' => P r s' ∧ Q r s' :=
  ⟨h, h'⟩

/-- What holds at the end holds of the result and the state of a run. -/
theorem Ends.of_run {a : ExceptT ε (StateM σ) α} {s s' : σ} {r : Except ε α}
    {Q : Except ε α → σ → Prop} (h : Ends a s Q) (hrun : a.run s = (r, s')) : Q r s' := by
  unfold Ends at h
  rwa [hrun] at h

/-- What a run ends with holds at the end. -/
theorem Ends.of_eq {a : ExceptT ε (StateM σ) α} {s s' : σ} {r : Except ε α}
    {Q : Except ε α → σ → Prop} (hrun : a.run s = (r, s')) (h : Q r s') : Ends a s Q := by
  unfold Ends
  rwa [hrun]

/-- A run of two actions: the second one is left out if the first one fails. -/
theorem run_bind (a : ExceptT ε (StateM σ) α) (f : α → ExceptT ε (StateM σ) β) (s : σ) :
    (a >>= f).run s = match a.run s with
      | (.ok x, s') => (f x).run s'
      | (.error e, s') => (.error e, s') := by
  change (StateT.bind a.run (ExceptT.bindCont f)) s = _
  rcases h : a.run s with ⟨r, s'⟩
  unfold StateT.bind
  simp only [h]
  cases r <;> rfl

/-- A run of an action with another one for the case that it fails. -/
theorem run_tryCatch (a : ExceptT ε (StateM σ) α) (f : ε → ExceptT ε (StateM σ) α) (s : σ) :
    (tryCatch a f).run s = match a.run s with
      | (.ok x, s') => (.ok x, s')
      | (.error e, s') => (f e).run s' := by
  simp only [tryCatch, tryCatchThe, MonadExceptOf.tryCatch, ExceptT.tryCatch, ExceptT.run_mk]
  change (StateT.bind a.run _) s = _
  rcases h : a.run s with ⟨r, s'⟩
  unfold StateT.bind
  simp only [h]
  cases r <;> rfl

/-- A run that gives a value. -/
theorem run_pure (x : α) (s : σ) : (pure x : ExceptT ε (StateM σ) α).run s = (.ok x, s) := rfl

/-- A run that fails. -/
theorem run_throw (e : ε) (s : σ) :
    (throw e : ExceptT ε (StateM σ) α).run s = (.error e, s) := rfl

/-- A run that gives the state. -/
theorem run_get (s : σ) : (get : ExceptT ε (StateM σ) σ).run s = (.ok s, s) := rfl

/-- A run that sets the state. -/
theorem run_set (s t : σ) : (set t : ExceptT ε (StateM σ) PUnit).run s = (.ok ⟨⟩, t) := rfl

/-- A run that changes the state. -/
theorem run_modify (f : σ → σ) (s : σ) :
    (modify f : ExceptT ε (StateM σ) PUnit).run s = (.ok ⟨⟩, f s) := rfl

/-- A run of an action whose value is not used. -/
theorem run_discard (a : ExceptT ε (StateM σ) α) (s : σ) :
    (discard a).run s = match a.run s with
      | (.ok _, s') => (.ok ⟨⟩, s')
      | (.error e, s') => (.error e, s') :=
  run_bind a (fun _ => pure PUnit.unit) s

/-- Two actions one after the other. -/
theorem Ends.bind {a : ExceptT ε (StateM σ) α} {f : α → ExceptT ε (StateM σ) β} {s : σ}
    {P : Except ε α → σ → Prop} {Q : Except ε β → σ → Prop} (h : Ends a s P)
    (herror : ∀ e s', P (.error e) s' → Q (.error e) s')
    (hok : ∀ x s', P (.ok x) s' → Ends (f x) s' Q) : Ends (a >>= f) s Q := by
  unfold Ends at h ⊢
  rw [run_bind]
  rcases hrun : a.run s with ⟨r, s'⟩
  rw [hrun] at h
  cases r with
  | ok x => exact hok x s' h
  | error e => exact herror e s' h

/-- Two actions one after the other, the first of which gives a value that is known. -/
theorem Ends.bind_ok {a : ExceptT ε (StateM σ) α} {f : α → ExceptT ε (StateM σ) β} {s : σ} {x : α}
    {P : σ → Prop} {Q : Except ε β → σ → Prop} (h : Ends a s fun r s' => r = .ok x ∧ P s')
    (hok : ∀ s', P s' → Ends (f x) s' Q) : Ends (a >>= f) s Q := by
  refine h.bind ?_ ?_
  · rintro e s' ⟨hr, -⟩
    cases hr
  · rintro y s' ⟨hr, hP⟩
    obtain rfl := Except.ok.inj hr
    exact hok s' hP

/-- An action whose value is not used. -/
theorem Ends.discard {a : ExceptT ε (StateM σ) α} {s : σ} {P : Except ε α → σ → Prop}
    {Q : Except ε PUnit → σ → Prop} (h : Ends a s P)
    (herror : ∀ e s', P (.error e) s' → Q (.error e) s')
    (hok : ∀ x s', P (.ok x) s' → Q (.ok ⟨⟩) s') : Ends (discard a) s Q :=
  h.bind herror fun x s' hP => Ends.of_eq (run_pure PUnit.unit s') (hok x s' hP)

/-- An action with another one for the case that it fails. -/
theorem Ends.tryCatch {a : ExceptT ε (StateM σ) α} {f : ε → ExceptT ε (StateM σ) α} {s : σ}
    {P Q : Except ε α → σ → Prop} (h : Ends a s P) (hok : ∀ x s', P (.ok x) s' → Q (.ok x) s')
    (herror : ∀ e s', P (.error e) s' → Ends (f e) s' Q) : Ends (tryCatch a f) s Q := by
  unfold Ends at h ⊢
  rw [run_tryCatch]
  rcases hrun : a.run s with ⟨r, s'⟩
  rw [hrun] at h
  cases r with
  | ok x => exact hok x s' h
  | error e => exact herror e s' h

end Ends

/-! ## Hosts -/

/-- A host after some primitives: the schedule and the time are the same. -/
structure Host.Follows (h h' : Host) : Prop where
  faults : h'.faults = h.faults
  now : h'.now = h.now
  calls : h.calls ≤ h'.calls

/-- A host follows itself. -/
theorem Host.Follows.refl (h : Host) : h.Follows h := ⟨rfl, rfl, Nat.le_refl _⟩

/-- A host follows those before the one that it follows. -/
theorem Host.Follows.trans {h h' h'' : Host} (a : h.Follows h') (b : h'.Follows h'') :
    h.Follows h'' :=
  ⟨b.faults.trans a.faults, b.now.trans a.now, Nat.le_trans a.calls b.calls⟩

/-- No primitive is to fail by a schedule without faults. -/
theorem Host.faults_ne_some {h : Host} (hnone : h.faults = Faults.none) (n : Nat) (c : Call)
    (e : Errno) : h.faults n c ≠ some e := by
  simp [hnone, Faults.none]

/-- All files can be read then. -/
theorem Host.unreadable_eq {h : Host} (hnone : h.faults = Faults.none) :
    h.unreadable = fun _ => false := by
  funext p
  rw [Host.unreadable, hnone]
  rfl

/-- A host with one primitive more. -/
def Host.counted (h : Host) : Host := { h with calls := h.calls + 1 }

/-- A host with one primitive more follows it, whatever the primitive does to the tree. -/
theorem Host.follows_counted (h : Host) (t : Tree) : h.Follows { h.counted with tree := t } :=
  ⟨rfl, rfl, Nat.le_succ _⟩

namespace FileAction

/-! ## Primitives -/

/-- A primitive that is to fail fails, and any other one is counted only. -/
theorem run_check (c : Call) (h : Host) :
    (check c).run h = match h.faults h.calls c with
      | some e => (.error e, h.counted)
      | none => (.ok (), h.counted) := by
  unfold check
  rw [run_bind, run_get]
  simp only
  rw [run_bind, run_set]
  simp only
  cases h.faults h.calls c <;> rfl

/-- A primitive fails by the schedule, by its effect or not at all. -/
theorem run_call {α : Type} (c : Call) (f : Tree → Except Errno (α × Tree)) (h : Host) :
    (call c f).run h = match h.faults h.calls c with
      | some e => (.error e, h.counted)
      | none => match f h.tree with
        | .error e => (.error e, h.counted)
        | .ok (a, t) => (.ok a, { h.counted with tree := t }) := by
  unfold call
  rw [run_bind, run_check]
  cases h.faults h.calls c with
  | some e => rfl
  | none =>
    simp only
    unfold effect
    rw [run_bind, run_get]
    simp only [show h.counted.tree = h.tree from rfl]
    rcases f h.tree with e | ⟨a, t⟩ <;> rfl

/-- What holds after a primitive: it fails by the schedule, by its effect, or it has its effect. -/
theorem ends_change {c : Call} {f : Tree → Except Errno Tree} {h : Host}
    {Q : Except Errno Unit → Host → Prop}
    (hfault : ∀ e, h.faults h.calls c = some e → Q (.error e) h.counted)
    (herror : h.faults h.calls c = none → ∀ e, f h.tree = .error e → Q (.error e) h.counted)
    (hok : h.faults h.calls c = none → ∀ t, f h.tree = .ok t →
      Q (.ok ()) { h.counted with tree := t }) : Ends (change c f) h Q := by
  unfold Ends change
  rw [run_call]
  cases hc : h.faults h.calls c with
  | some e => exact hfault e hc
  | none =>
    simp only
    cases hf : f h.tree with
    | error e => exact herror hc e hf
    | ok t => exact hok hc t hf

/-! ## Directories -/

section Directories

open CodeSurvey.Files.Tree (Route Touches FileFree)

variable {t : Tree} {start top ps : Path}

/-- The directory that a route leads from is there already. -/
theorem withDir_start (hleads : t.at? start = .ok (top, .dir)) : withDir start t = .ok t := by
  obtain ⟨q, hq⟩ := (Tree.at?_eq_dir.1 hleads).1.locate
  simp only [withDir, Tree.makeDir, Tree.locate, hq, Tree.isDir, hleads]
  exact if_pos ⟨by decide, trivial⟩

/-- Making sure of a directory at the end of a route: it is there, it is made at a free name, or
something else is in the way. -/
theorem withDir_spec (r : t.Route start top ps) (hne : ps ≠ []) :
    (t.entry? (top ++ ps) = some .dir ∧ withDir (start ++ ps) t = .ok t) ∨
    (t.entry? (top ++ ps) = none ∧ t.entry? (top ++ ps.dropLast) = some .dir ∧
      withDir (start ++ ps) t = .ok (t.put (top ++ ps) .dir)) ∨
    ∃ e, withDir (start ++ ps) t = .error e ∧ (FileFree t top ps →
      e = Errno.noEntry ∧ t.entry? (top ++ ps) = none ∧
        t.entry? (top ++ ps.dropLast) ≠ some .dir) := by
  cases hentry : t.entry? (top ++ ps) with
  | some e =>
    simp only [withDir, r.makeDir_of_entry hne hentry, Tree.isDir, r.at?_of_entry hne hentry]
    cases e with
    | dir => exact .inl ⟨rfl, if_pos ⟨by decide, rfl⟩⟩
    | file content =>
      refine .inr (.inr ⟨Errno.exists_, if_neg (by simp), fun hfree => ?_⟩)
      exact absurd hentry (hfree ps content (List.prefix_refl _))
    | link target => exact absurd hentry (r.noLink ps target (List.prefix_refl _))
  | none =>
    -- At a free name it depends on the directory above whether one can be made.
    by_cases hparent : t.entry? (top ++ ps.dropLast) = some .dir
    · refine .inr (.inl ⟨rfl, hparent, ?_⟩)
      simp only [withDir, r.makeDir_of_free hne hparent hentry]
    · obtain ⟨e, hmade, hclear⟩ := r.makeDir_of_lost hne hparent
      obtain ⟨e', hat, -⟩ := r.at?_of_none hne hentry
      refine .inr (.inr ⟨e, ?_, fun hfree => ⟨hclear hfree, rfl, hparent⟩⟩)
      simp only [withDir, hmade, Tree.isDir, hat]
      rw [if_neg (by simp)]

/-- What making sure of a directory changes. -/
theorem touches_of_withDir (r : t.Route start top ps) (hne : ps ≠ []) {dir : Path}
    {files : List Path} (hdir : top ++ ps <+: dir) {t' : Tree}
    (h : withDir (start ++ ps) t = .ok t') :
    Touches dir files t t' ∧ t'.entry? (top ++ ps) = some .dir := by
  rcases withDir_spec r hne with ⟨hentry, hok⟩ | ⟨hentry, hparent, hok⟩ | ⟨e, herror, -⟩
  · rw [hok] at h
    obtain rfl := Except.ok.inj h
    exact ⟨.refl r.sound, hentry⟩
  · rw [hok] at h
    obtain rfl := Except.ok.inj h
    have hsplit : top ++ ps = top ++ ps.dropLast ++ [ps.getLast hne] := by
      rw [List.append_assoc, List.dropLast_concat_getLast]
    rw [hsplit] at hdir hentry ⊢
    refine ⟨.put_dir r.sound hparent hentry hdir, ?_⟩
    rw [Tree.entry?_put t (by simp), if_pos rfl]
  · rw [herror] at h
    cases h

/-- What holds after directories are made, one level further up where there is no directory to make
one in. -/
theorem ends_makeDirs {p : Path} {h : Host} {Q : Except Errno Unit → Host → Prop}
    (hfault : ∀ e, h.faults h.calls ⟨.makeDir, p⟩ = some e → Q (.error e) h.counted)
    (hok : ∀ t, withDir p h.tree = .ok t → Q (.ok ()) { h.counted with tree := t })
    (hstop : ∀ e, withDir p h.tree = .error e → e ≠ Errno.noEntry ∨ p = [] →
      Q (.error e) h.counted)
    (hup : withDir p h.tree = .error Errno.noEntry → p ≠ [] →
      Ends (makeDirs p.dropLast >>= fun _ => makeDir p) h.counted Q) : Ends (makeDirs p) h Q := by
  unfold Ends
  rw [makeDirs, run_bind, run_check]
  cases hc : h.faults h.calls ⟨.makeDir, p⟩ with
  | some e => exact hfault e hc
  | none =>
    simp only
    rw [run_bind, run_get]
    simp only [show h.counted.tree = h.tree from rfl]
    cases hmade : withDir p h.tree with
    | ok t => exact hok t hmade
    | error e =>
      simp only
      -- Only a missing entry further up is mended, and only below the root.
      split_ifs with hcase
      · exact hstop e hmade hcase
      · rw [not_or, not_not] at hcase
        exact hup (by rw [hmade, hcase.1]) hcase.2

/-- Making directories where the last one can be made at once. -/
theorem run_makeDirs {p : Path} {h : Host} (hfault : h.faults h.calls ⟨.makeDir, p⟩ = none)
    (hmade : withDir p h.tree = .ok t) :
    (makeDirs p).run h = (.ok (), { h.counted with tree := t }) := by
  rw [makeDirs, run_bind, run_check, hfault]
  simp only
  rw [run_bind, run_get]
  simp only [show h.counted.tree = h.tree from rfl, hmade]
  rfl

/-- What making directories on a route ends with: nothing but the directories on the way to `dir` is
changed, and it fails only by the schedule or because of a file that is in the way. -/
structure Makes (dir top ps : Path) (h : Host) (res : Except Errno Unit) (h' : Host) : Prop where
  follows : h.Follows h'
  touches : Touches dir [] h.tree h'.tree
  made : res = .ok () → h'.tree.entry? (top ++ ps) = some .dir
  succeeds : h.faults = Faults.none → FileFree h.tree top ps → res = .ok ()

/-- The primitive fails by the schedule. -/
theorem Makes.of_fault {dir : Path} {h : Host} {c : Call} {e : Errno}
    (r : h.tree.Route start top ps) (hfault : h.faults h.calls c = some e) :
    Makes dir top ps h (.error e) h.counted where
  follows := h.follows_counted _
  touches := .refl r.sound
  made := by simp
  succeeds := fun hnone => absurd hfault (h.faults_ne_some hnone _ _ e)

/-- The directory is there, or it is made. -/
theorem Makes.of_withDir {dir : Path} {h : Host} (r : h.tree.Route start top ps) (hne : ps ≠ [])
    (hdir : top ++ ps <+: dir) (hok : withDir (start ++ ps) h.tree = .ok t) :
    Makes dir top ps h (.ok ()) { h.counted with tree := t } := by
  obtain ⟨htouch, hentry⟩ := touches_of_withDir r hne hdir hok
  exact ⟨h.follows_counted _, htouch, fun _ => hentry, fun _ _ => rfl⟩

/-- It fails, which no clear route allows: without a file in the way the error is that there is no
directory to make one in. -/
theorem Makes.of_error {dir : Path} {h : Host} {e : Errno} (r : h.tree.Route start top ps)
    (hne : ps ≠ []) (herror : withDir (start ++ ps) h.tree = .error e)
    (hother : e = Errno.noEntry → h.tree.entry? (top ++ ps.dropLast) = some .dir) :
    Makes dir top ps h (.error e) h.counted := by
  refine ⟨h.follows_counted _, .refl r.sound, by simp, fun _ hfree => ?_⟩
  rcases withDir_spec r hne with ⟨-, hok⟩ | ⟨-, -, hok⟩ | ⟨e', herror', hlost⟩
  · cases hok.symm.trans herror
  · cases hok.symm.trans herror
  · obtain rfl := Except.error.inj (herror'.symm.trans herror)
    obtain ⟨hno, -, hparent⟩ := hlost hfree
    exact absurd (hother hno) hparent

/-- Making a directory where the one above it is there: nothing else is changed. -/
theorem makeDir_spec {dir : Path} (h : Host) (r : h.tree.Route start top ps) (hne : ps ≠ [])
    (hdir : top ++ ps <+: dir) (hparent : h.tree.entry? (top ++ ps.dropLast) = some .dir) :
    Ends (makeDir (start ++ ps)) h (Makes dir top ps h) :=
  ends_change (fun _ hfault => .of_fault r hfault)
    (fun _ _ herror => .of_error r hne herror fun _ => hparent)
    fun _ _ hok => .of_withDir r hne hdir hok

/-- The directory that a route leads from is found at the first try. -/
theorem makeDirs_start {dir : Path} (h : Host) (r : h.tree.Route start top []) :
    Ends (makeDirs start) h (Makes dir top [] h) := by
  have hthere := withDir_start r.leads
  refine ends_makeDirs (fun _ hfault => .of_fault r hfault) ?_ ?_ ?_
  · intro t hok
    obtain rfl := Except.ok.inj (hthere.symm.trans hok)
    exact ⟨h.follows_counted _, .refl r.sound, fun _ => by simpa using r.top_isDir, fun _ _ => rfl⟩
  · intro e herror
    cases hthere.symm.trans herror
  · intro herror
    cases hthere.symm.trans herror

/-- What making the directories on a route changes: nothing else than these. It fails only by the
schedule or because of a file that is in the way. -/
theorem makeDirs_spec {dir : Path} (h : Host) (r : h.tree.Route start top ps)
    (hdir : top ++ ps <+: dir) : Ends (makeDirs (start ++ ps)) h (Makes dir top ps h) := by
  -- By the names on the route from the last one, as the directories are tried.
  induction hn : ps.length generalizing ps h with
  | zero =>
    obtain rfl := List.length_eq_zero_iff.1 hn
    rw [List.append_nil]
    exact makeDirs_start h r
  | succ n ih =>
    have hne : ps ≠ [] := by rintro rfl; cases hn
    have hinitdir : top ++ ps.dropLast <+: dir :=
      ((List.prefix_append_right_inj top).2 (List.dropLast_prefix ps)).trans hdir
    refine ends_makeDirs (fun _ hfault => .of_fault r hfault)
      (fun _ hok => .of_withDir r hne hdir hok) ?_ ?_
    · -- The search stops here: the error is another one, as the path is not empty.
      intro e herror hcase
      refine .of_error r hne herror fun hno => ?_
      exact absurd hno (hcase.resolve_right fun hnil => hne (List.append_eq_nil_iff.1 hnil).2)
    · intro _ _
      rw [List.dropLast_append_of_ne_nil hne]
      have hinit := ih h.counted (r.of_prefix (List.dropLast_prefix ps)) hinitdir
        (by rw [List.length_dropLast, hn]; rfl)
      refine hinit.bind ?_ ?_
      · rintro e h' ⟨hfollows, htouch, -, hok⟩
        refine ⟨(h.follows_counted h.tree).trans hfollows, htouch, by simp,
          fun hnone hfree => ?_⟩
        cases hok hnone fun qs content hqs =>
          hfree qs content (hqs.trans (List.dropLast_prefix ps))
      · -- The directory above is there now.
        rintro ⟨⟩ h' ⟨hfollows, htouch, hparent, -⟩
        have hfollows' := (h.follows_counted h.tree).trans hfollows
        refine (makeDir_spec h' (htouch.route r) hne hdir (hparent rfl)).mono ?_
        rintro res h'' ⟨hf, ht, hmade, hok⟩
        refine ⟨hfollows'.trans hf, htouch.trans ht, hmade, fun hnone hfree => ?_⟩
        exact hok (hfollows'.faults.trans hnone) (htouch.fileFree hfree)

end Directories

/-! ## Files -/

section Files

open CodeSurvey.Files.Tree (Route Touches FileFree FileOrFree)

variable {start top dir : Path} {name : String}

/-- The temporary file lies beside the file. -/
theorem temporary_append (p : Path) (name : String) :
    temporary (p ++ [name]) = p ++ [name ++ ".tmp"] := by
  simp only [temporary, List.getLast?_concat, List.dropLast_concat]

/-- The same on a route. -/
theorem temporary_route (start dir : Path) (name : String) :
    temporary (start ++ (dir ++ [name])) = start ++ (dir ++ [name ++ ".tmp"]) := by
  rw [← List.append_assoc, temporary_append, List.append_assoc]

/-- What lies in a directory is not on the way to it. -/
theorem not_prefix_dir (name : String) : ¬ top ++ (dir ++ [name]) <+: top ++ dir := by
  intro h
  have := h.length_le
  simp only [List.length_append, List.length_cons, List.length_nil] at this
  omega

/-- The temporary file is another one. -/
theorem ne_temporary (name : String) : name ++ ".tmp" ≠ name := by
  intro h
  have := congrArg String.length h
  rw [String.length_append] at this
  simp at this

/-- Writing a file in its place: it has its content then, unless the writing fails, and nothing
else is changed. -/
theorem write_spec (h : Host) (prim : Primitive) (content : ByteArray)
    (r : h.tree.Route start top (dir ++ [name])) :
    Ends (change ⟨prim, start ++ (dir ++ [name])⟩
        fun t => t.write (start ++ (dir ++ [name])) content) h
      fun res h' => h.Follows h' ∧
        Touches (top ++ dir) [top ++ (dir ++ [name])] h.tree h'.tree ∧
        (res = .ok () → h'.tree.entry? (top ++ (dir ++ [name])) = some (.file content)) ∧
        (h.faults = Faults.none → h.tree.entry? (top ++ dir) = some .dir →
          h.tree.FileOrFree (top ++ (dir ++ [name])) → res = .ok ()) := by
  refine ends_change ?_ ?_ ?_
  · intro e hfault
    refine ⟨h.follows_counted _, .refl r.sound, by simp, fun hnone => ?_⟩
    exact absurd hfault (h.faults_ne_some hnone _ _ e)
  · intro _ e herror
    refine ⟨h.follows_counted _, .refl r.sound, by simp, fun _ hdir hfree => ?_⟩
    -- With a directory above and no other entry in place, writing would have gone through.
    have hok := r.write_of_fileOrFree (by simp) (by simpa using hdir) hfree content
    cases hok.symm.trans herror
  · intro _ t hok
    obtain ⟨hparent, hfree, rfl⟩ := r.eq_put_of_write (by simp) hok
    rw [List.dropLast_concat] at hparent
    rw [← List.append_assoc] at hfree ⊢
    refine ⟨h.follows_counted _, .put_file r.sound hparent hfree (by simp) content, fun _ => ?_,
      fun _ _ _ => rfl⟩
    rw [Tree.entry?_put _ (by simp), if_pos rfl]

/-- Moving the temporary file over its target: the target has its content then, and the temporary
file is gone. -/
theorem replace_spec (h : Host) (c : Call) {content : ByteArray}
    (r : h.tree.Route start top (dir ++ [name]))
    (r' : h.tree.Route start top (dir ++ [name ++ ".tmp"]))
    (htmp : h.tree.entry? (top ++ (dir ++ [name ++ ".tmp"])) = some (.file content)) :
    Ends (change c
        fun t => t.rename (start ++ (dir ++ [name ++ ".tmp"])) (start ++ (dir ++ [name]))) h
      fun res h' => h.Follows h' ∧ match res with
        | .ok () =>
          Touches (top ++ dir) [top ++ (dir ++ [name]), top ++ (dir ++ [name ++ ".tmp"])]
            h.tree h'.tree ∧
          h'.tree.entry? (top ++ (dir ++ [name])) = some (.file content) ∧
          h'.tree.entry? (top ++ (dir ++ [name ++ ".tmp"])) = none
        | .error _ => h'.tree = h.tree ∧
          ¬ (h.faults = Faults.none ∧ h.tree.FileOrFree (top ++ (dir ++ [name]))) := by
  refine ends_change ?_ ?_ ?_
  · intro e hfault
    refine ⟨h.follows_counted _, rfl, fun hfree => ?_⟩
    exact h.faults_ne_some hfree.1 _ _ e hfault
  · intro _ e herror
    refine ⟨h.follows_counted _, rfl, fun hfree => ?_⟩
    have hok := r'.rename_of_fileOrFree r (ne_temporary name) htmp hfree.2
    cases hok.symm.trans herror
  · intro _ t hok
    obtain ⟨moved, hmoved, hfree, rfl⟩ := r'.eq_put_of_rename r (ne_temporary name) hok
    obtain rfl : Entry.file content = moved := Option.some.inj (htmp.symm.trans hmoved)
    simp only [← List.append_assoc] at htmp hfree ⊢
    have hne : top ++ dir ++ [name ++ ".tmp"] ≠ top ++ dir ++ [name] := by simp
    refine ⟨h.follows_counted _, .move_file r.sound htmp (ne_temporary name).symm hfree (by simp)
      (by simp), ?_, ?_⟩
    · rw [Tree.entry?_put _ (by simp), if_pos rfl]
    · rw [Tree.entry?_put _ (by simp), if_neg hne, Tree.entry?_erase _ (by simp), if_pos rfl]

/-- A primitive that changes nothing. -/
theorem ends_unchanged (h : Host) (c : Call) :
    Ends (change c .ok) h fun res h' => h.Follows h' ∧ h'.tree = h.tree ∧
      (h.faults = Faults.none → res = .ok ()) := by
  refine ends_change ?_ ?_ ?_
  · intro e hfault
    refine ⟨h.follows_counted _, rfl, fun hnone => ?_⟩
    exact absurd hfault (h.faults_ne_some hnone _ _ e)
  · intro _ e herror
    cases herror
  · intro _ t hok
    obtain rfl := Except.ok.inj hok
    exact ⟨h.follows_counted _, rfl, fun _ => rfl⟩

/-- Removing the file at the end of a route: when it fails nothing is changed, and unless that is by
the schedule there was no file. -/
theorem unlink_spec {ps : Path} (dir : Path) (h : Host) (r : h.tree.Route start top ps)
    (hne : ps ≠ []) :
    Ends (unlink (start ++ ps)) h fun res h' => h.Follows h' ∧ h'.calls = h.calls + 1 ∧
      match res with
      | .ok () => Touches dir [top ++ ps] h.tree h'.tree ∧
        (∃ content, h.tree.entry? (top ++ ps) = some (.file content)) ∧
        h'.tree.entry? (top ++ ps) = none
      | .error e => h'.tree = h.tree ∧ (h.faults h.calls ⟨.unlink, start ++ ps⟩ = none →
        (∀ content, h.tree.entry? (top ++ ps) ≠ some (.file content)) ∧
        (h.tree.entry? (top ++ ps) = none → FileFree h.tree top ps → e = Errno.noEntry)) := by
  refine ends_change ?_ ?_ ?_
  · intro e hfault
    refine ⟨h.follows_counted _, rfl, rfl, fun hnone => ?_⟩
    cases hnone.symm.trans hfault
  · intro _ e herror
    refine ⟨h.follows_counted _, rfl, rfl,
      fun _ => ⟨fun content hfile => ?_, fun hnone hfree => ?_⟩⟩
    · cases (r.unlink_of_file hne hfile).symm.trans herror
    · -- Nothing was there, so the error is the one for a missing entry.
      obtain ⟨e', hun, hclear⟩ := r.unlink_of_none hne hnone
      obtain rfl := Except.error.inj (hun.symm.trans herror)
      exact hclear hfree
  · intro _ t hok
    obtain ⟨⟨content, hfile⟩, rfl⟩ := r.eq_erase_of_unlink hne hok
    have hnil : top ++ ps ≠ [] := by simp [hne]
    refine ⟨h.follows_counted _, rfl, .erase_file r.sound hfile (by simp), ⟨content, hfile⟩, ?_⟩
    rw [Tree.entry?_erase _ hnil, if_pos rfl]

/-- Reading the file at the end of a route: unless it fails by the schedule, there is a file if
something is read. -/
theorem read_spec {ps : Path} (h : Host) (r : h.tree.Route start top ps) (hne : ps ≠ []) :
    Ends (read (start ++ ps)) h fun res h' => h' = h.counted ∧ match res with
      | .ok content => h.tree.entry? (top ++ ps) = some (.file content)
      | .error e => h.faults h.calls ⟨.read, start ++ ps⟩ = some e ∨
        h.faults h.calls ⟨.read, start ++ ps⟩ = none ∧
          (∀ content, h.tree.entry? (top ++ ps) ≠ some (.file content)) ∧
          (h.tree.entry? (top ++ ps) = none → FileFree h.tree top ps → e = Errno.noEntry) := by
  unfold Ends read
  rw [run_call]
  cases hc : h.faults h.calls ⟨.read, start ++ ps⟩ with
  | some e => exact ⟨rfl, .inl rfl⟩
  | none =>
    cases hread : h.tree.bytes (start ++ ps) with
    | ok content => exact ⟨rfl, r.file_of_bytes hne hread⟩
    | error e =>
      refine ⟨rfl, .inr ⟨rfl, fun content hfile => ?_, fun hnone hfree => ?_⟩⟩
      · cases (r.bytes_of_file hne hfile).symm.trans hread
      · exact Except.error.inj (hread.symm.trans (r.bytes_of_none hne hnone hfree))

/-- Writing by way of a temporary file: when all steps are made the file has the text and the
temporary one is gone, and when one fails the file is as before. -/
theorem writeThrough_spec (h : Host) (text : String) (r : h.tree.Route start top (dir ++ [name]))
    (r' : h.tree.Route start top (dir ++ [name ++ ".tmp"])) :
    Ends (writeThrough (start ++ (dir ++ [name])) text) h fun res h' =>
      h.Follows h' ∧ match res with
      | .ok () =>
        Touches (top ++ dir) [top ++ (dir ++ [name]), top ++ (dir ++ [name ++ ".tmp"])]
          h.tree h'.tree ∧
        h'.tree.entry? (top ++ (dir ++ [name])) = some (.file text.toUTF8) ∧
        h'.tree.entry? (top ++ (dir ++ [name ++ ".tmp"])) = none
      | .error _ => Touches (top ++ dir) [top ++ (dir ++ [name ++ ".tmp"])] h.tree h'.tree ∧
        ¬ (h.faults = Faults.none ∧ FileFree h.tree top dir ∧
          h.tree.FileOrFree (top ++ (dir ++ [name])) ∧
          h.tree.FileOrFree (top ++ (dir ++ [name ++ ".tmp"]))) := by
  unfold writeThrough
  rw [temporary_route, ← List.append_assoc start dir, List.dropLast_concat, List.append_assoc]
  have hdirs := makeDirs_spec h (r.of_prefix (List.prefix_append dir [name]))
    (List.prefix_refl (top ++ dir))
  refine hdirs.bind ?_ ?_
  · rintro e h₁ ⟨hf, ht, -, hprogress⟩
    refine ⟨hf, ht.mono (by simp), fun hfree => ?_⟩
    cases hprogress hfree.1 hfree.2.1
  -- The temporary file is created empty.
  rintro ⟨⟩ h₁ ⟨hf₁, htouch₁, hdir, -⟩
  have ht₁ := htouch₁.mono (List.nil_subset [top ++ (dir ++ [name ++ ".tmp"])])
  have hdir₁ := hdir rfl
  refine (write_spec h₁ .create ByteArray.empty (ht₁.route r')).bind ?_ ?_
  · rintro e h₂ ⟨hf₂, ht₂, -, hprogress⟩
    refine ⟨hf₁.trans hf₂, ht₁.trans ht₂, fun hfree => ?_⟩
    cases hprogress (by rw [hf₁.faults, hfree.1]) hdir₁
      (ht₁.fileOrFree (not_prefix_dir _) hfree.2.2.2)
  -- The text is written into it.
  rintro ⟨⟩ h₂ ⟨hf₂, htouch₂, hempty, -⟩
  have hf₂ := hf₁.trans hf₂
  have ht₂ := ht₁.trans htouch₂
  have hdir₂ := htouch₂.keeps _ _ hdir₁ (by simp)
  refine (write_spec h₂ .write text.toUTF8 (ht₂.route r')).bind ?_ ?_
  · rintro e h₃ ⟨hf₃, ht₃, -, hprogress⟩
    refine ⟨hf₂.trans hf₃, ht₂.trans ht₃, fun hfree => ?_⟩
    cases hprogress (by rw [hf₂.faults, hfree.1]) hdir₂ (Tree.fileOrFree_of_file (hempty rfl))
  -- The device is to keep it.
  rintro ⟨⟩ h₃ ⟨hf₃, ht₃, htext, -⟩
  have hf₃ := hf₂.trans hf₃
  have ht₃ := ht₂.trans ht₃
  refine (ends_unchanged h₃ _).bind ?_ ?_
  · rintro e h₄ ⟨hf₄, hsame, hprogress⟩
    refine ⟨hf₃.trans hf₄, by rw [hsame]; exact ht₃, fun hfree => ?_⟩
    cases hprogress (by rw [hf₃.faults, hfree.1])
  -- It is moved over the file.
  rintro ⟨⟩ h₄ ⟨hf₄, hsame, -⟩
  have hf₄ := hf₃.trans hf₄
  rw [← hsame] at ht₃ htext
  refine (replace_spec h₄ _ (ht₃.route r) (ht₃.route r') (htext rfl)).mono ?_
  rintro (e | ⟨⟩) h₅ ⟨hf₅, hend⟩
  · refine ⟨hf₄.trans hf₅, by rw [hend.1]; exact ht₃, fun hfree => hend.2 ⟨?_, ?_⟩⟩
    · rw [hf₄.faults, hfree.1]
    · exact ht₃.fileOrFree (not_prefix_dir _) hfree.2.2.1
  · exact ⟨hf₄.trans hf₅, (ht₃.mono (by simp)).trans hend.1, hend.2⟩

/-- Writing a file whole or not at all in a directory that is there already. -/
theorem run_writeWhole {p : Path} {h : Host} (text : String)
    (hfault : h.faults h.calls ⟨.makeDir, p.dropLast⟩ = none)
    (hdir : withDir p.dropLast h.tree = .ok h.tree) :
    (writeWhole p text).run h = (tryCatch (do
      change ⟨.create, temporary p⟩ fun t => t.write (temporary p) ByteArray.empty
      change ⟨.write, temporary p⟩ fun t => t.write (temporary p) text.toUTF8
      change ⟨.sync, temporary p⟩ .ok
      change ⟨.replace, p⟩ fun t => t.rename (temporary p) p) fun e => do
        suppress (unlink (temporary p))
        throw e : FileAction Unit).run h.counted := by
  rw [writeWhole, run_tryCatch, writeThrough, run_bind, run_makeDirs hfault hdir, run_tryCatch]
  rfl

/-- Removing a temporary file, whether or not this can be done: something is left in its place only
if it was no file, or if the schedule keeps it from being removed. -/
theorem suppress_unlink_spec {ps : Path} (dir : Path) (h : Host) (r : h.tree.Route start top ps)
    (hne : ps ≠ []) :
    Ends (suppress (unlink (start ++ ps))) h fun res h' =>
      res = .ok () ∧ h.Follows h' ∧ Touches dir [top ++ ps] h.tree h'.tree ∧
        (h'.tree.entry? (top ++ ps) ≠ none → ¬ h.tree.FileOrFree (top ++ ps) ∨
          (h'.calls = h.calls + 1 ∧ (h.faults h.calls ⟨.unlink, start ++ ps⟩).isSome)) := by
  refine (unlink_spec dir h r hne).tryCatch ?_ ?_
  · rintro ⟨⟩ h' ⟨hf, -, ht, -, hgone⟩
    exact ⟨rfl, hf, ht, fun hleft => absurd hgone hleft⟩
  · rintro e h' ⟨hf, hcalls, hsame, hwhy⟩
    refine Ends.of_eq (run_pure () h')
      ⟨rfl, hf, by rw [hsame]; exact .refl r.sound, fun hleft => ?_⟩
    rw [hsame] at hleft
    cases hfault : h.faults h.calls ⟨.unlink, start ++ ps⟩ with
    | some _ => exact .inr ⟨hcalls, rfl⟩
    | none =>
      -- What is left then is no file.
      refine .inl fun hfree => ?_
      obtain ⟨entry, hentry⟩ := Option.ne_none_iff_exists'.1 hleft
      obtain ⟨content, rfl⟩ := hfree entry hentry
      exact (hwhy hfault).1 content hentry

/-- Writing a file whole or not at all: when it fails, the file is as before, and a temporary file
that was not there is only left if the schedule keeps it from being removed. -/
theorem writeWhole_spec (h : Host) (text : String) (r : h.tree.Route start top (dir ++ [name]))
    (r' : h.tree.Route start top (dir ++ [name ++ ".tmp"])) :
    Ends (writeWhole (start ++ (dir ++ [name])) text) h fun res h' => h.Follows h' ∧ match res with
      | .ok () =>
        Touches (top ++ dir) [top ++ (dir ++ [name]), top ++ (dir ++ [name ++ ".tmp"])]
          h.tree h'.tree ∧
        h'.tree.entry? (top ++ (dir ++ [name])) = some (.file text.toUTF8) ∧
        h'.tree.entry? (top ++ (dir ++ [name ++ ".tmp"])) = none
      | .error _ => Touches (top ++ dir) [top ++ (dir ++ [name ++ ".tmp"])] h.tree h'.tree ∧
        (h.tree.entry? (top ++ (dir ++ [name ++ ".tmp"])) = none →
          h'.tree.entry? (top ++ (dir ++ [name ++ ".tmp"])) ≠ none →
          ∃ n, h.calls ≤ n ∧ n < h'.calls ∧
            (h.faults n ⟨.unlink, temporary (start ++ (dir ++ [name]))⟩).isSome) ∧
        ¬ (h.faults = Faults.none ∧ FileFree h.tree top dir ∧
          h.tree.FileOrFree (top ++ (dir ++ [name])) ∧
          h.tree.FileOrFree (top ++ (dir ++ [name ++ ".tmp"]))) := by
  unfold writeWhole
  refine (writeThrough_spec h text r r').tryCatch ?_ ?_
  · rintro ⟨⟩ h' hend
    exact hend
  rintro e h₁ ⟨hf₁, ht₁, hprogress⟩
  -- After a failure the temporary file is removed, and an error of that is passed over.
  have hclean := suppress_unlink_spec (top ++ dir) h₁ (ht₁.route r') (by simp)
  rw [← temporary_route] at hclean
  refine hclean.bind ?_ ?_
  · rintro e' h₂ ⟨hok, -⟩
    cases hok
  rintro ⟨⟩ h₂ ⟨-, hf₂, ht₂, hwhy⟩
  refine Ends.of_eq (run_throw e h₂)
    ⟨hf₁.trans hf₂, ht₁.trans ht₂, fun hnone hleft => ?_, hprogress⟩
  rcases hwhy hleft with hother | ⟨hcalls, hfault⟩
  · exact absurd (ht₁.fileOrFree (not_prefix_dir _) (Tree.fileOrFree_of_none hnone)) hother
  · exact ⟨h₁.calls, hf₁.calls, by omega, by rw [← hf₁.faults]; exact hfault⟩

end Files

end FileAction

end CodeSurvey.Storage
