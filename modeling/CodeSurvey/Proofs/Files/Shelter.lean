import CodeSurvey.Proofs.Files.Tidy

/-!
# Files that a walk passes by

Two trees are the same but for some places if everything else is the same, and at each of the places
either tree has a file or nothing (`Tree.SameBut`). A path that leads elsewhere in one of them leads
there in the other as well (`SameBut.at?_eq`), as it cannot go on from a file. So a walk that lists
no path to one of the places lists the same in both, wherever links lead (`walk_eq_of_past`): it
enters the same directories in the same order, and the names that are in one of them only are passed
by.
-/

namespace CodeSurvey.Files

namespace Tree

/-- Two trees with the same entries but for some places, where each has a file or nothing. -/
structure SameBut (places : List Path) (t t' : Tree) : Prop where
  entry : ∀ p ∉ places, t'.entry? p = t.entry? p
  free : ∀ p ∈ places, t.FileOrFree p
  free' : ∀ p ∈ places, t'.FileOrFree p

/-- A path that does not lead to one of some places. -/
def Past (t : Tree) (places : List Path) (p : Path) : Prop :=
  ∀ q e, t.at? p = .ok (q, e) → q ∉ places

/-- A tree without what stands at some places. -/
def without (t : Tree) (places : List Path) : Tree := ⟨t.entries.filter fun x => x.1 ∉ places⟩

variable {t t' t'' : Tree} {places places' : List Path}

/-- A tree without what stands at some places. -/
theorem entry?_without (t : Tree) {p : Path} (hne : p ≠ []) :
    Tree.entry? (t.without places) p = if p ∈ places then none else t.entry? p := by
  rw [entry?_of_ne_nil _ hne, entry?_of_ne_nil _ hne, without, List.find?_filter]
  split_ifs with hp
  · simpa using fun a e _ hin heq => hin (heq ▸ hp)
  · congr 2
    funext x
    by_cases hx : x.1 = p <;> simp [hx, hp]

/-- What a path leads to stands there. -/
theorem entry?_of_at? {p q : Path} {e : Entry} (hat : t.at? p = .ok (q, e)) :
    t.entry? q = some e := by
  unfold at? at hat
  split at hat
  · cases hat
  · split at hat
    · rename_i hentry
      obtain ⟨rfl, rfl⟩ := Prod.mk.inj (Except.ok.inj hat)
      exact hentry
    · cases hat

/-- A path leads to a directory if what it leads to is one. -/
theorem isDir_iff {p : Path} : t.isDir p = true ↔ ∃ q, t.at? p = .ok (q, .dir) := by
  unfold isDir
  constructor
  · intro h
    split at h
    · exact ⟨_, ‹_›⟩
    · cases h
  · rintro ⟨q, hat⟩
    rw [hat]

/-- Nothing is listed in what is no directory. -/
theorem list_eq_nil {p : Path} (h : ¬ t.isDir p = true) : t.list p = [] := by
  unfold list
  split
  · exact absurd (isDir_iff.2 ⟨_, ‹_›⟩) h
  · rfl

/-- A name in a directory that a path leads to leads to what stands there, if that is no link. -/
theorem at?_concat {p q : Path} {name : String} {e : Entry} (hat : t.at? p = .ok (q, .dir))
    (hup : name ≠ "..") (hentry : t.entry? (q ++ [name]) = some e)
    (hlink : ∀ target, e ≠ .link target) : t.at? (p ++ [name]) = .ok (q ++ [name], e) := by
  obtain ⟨m, hm⟩ := (at?_eq_dir.1 hat).1.append
  have hres : t.resolve (p ++ [name]) = .ok (q ++ [name]) := by
    rw [resolve, hm _ _ (by simp)]
    cases e with
    | link target => exact absurd rfl (hlink target)
    | _ => simp [resolveOver, follow, hup, hentry]
  simp only [at?, hres, hentry]

namespace SameBut

/-- The other way round. -/
theorem symm (h : SameBut places t t') : SameBut places t' t where
  entry := fun p hp => (h.entry p hp).symm
  free := h.free'
  free' := h.free

/-- What is a file or free in one tree is so in the other. -/
theorem fileOrFree (h : SameBut places t t') {p : Path} (hp : t.FileOrFree p) :
    t'.FileOrFree p := by
  by_cases hin : p ∈ places
  · exact h.free' p hin
  · exact fun e he => hp e ((h.entry p hin).symm.trans he)

/-- More places may differ where both trees have files or nothing. -/
theorem mono (h : SameBut places t t') (hsub : places ⊆ places')
    (hfree : ∀ p ∈ places', t.FileOrFree p) : SameBut places' t t' where
  entry := fun p hp => h.entry p fun hin => hp (hsub hin)
  free := hfree
  free' := fun p hp => h.fileOrFree (hfree p hp)

/-- Over several steps. -/
theorem trans (h : SameBut places t t') (h' : SameBut places t' t'') : SameBut places t t'' where
  entry := fun p hp => (h'.entry p hp).trans (h.entry p hp)
  free := h.free
  free' := h'.free'

/-- Over several steps that differ at places of their own. -/
theorem append (h : SameBut places t t') (h' : SameBut places' t' t'') :
    SameBut (places ++ places') t t'' where
  entry := by
    intro p hp
    rw [List.mem_append, not_or] at hp
    exact (h'.entry p hp.2).trans (h.entry p hp.1)
  free := fun p hp => (List.mem_append.1 hp).elim (h.free p) fun hin =>
    h.symm.fileOrFree (h'.free p hin)
  free' := fun p hp => (List.mem_append.1 hp).elim (fun hin => h'.fileOrFree (h.free' p hin))
    (h'.free' p)

/-- What is no file stands at none of the places. -/
theorem notMem (h : SameBut places t t') {q : Path} {e : Entry} (hentry : t.entry? q = some e)
    (hfile : ∀ content, e ≠ .file content) : q ∉ places := by
  intro hq
  obtain ⟨content, rfl⟩ := h.free q hq e hentry
  exact hfile content rfl

/-- A path that is resolved to another place is resolved to it in the other tree. -/
theorem resolveOver_eq (h : SameBut places t t') {ending : Ending} {n : Nat} {from_ p q : Path}
    (hq : q ∉ places) (hres : t.resolveOver ending n from_ p = .ok q) :
    t'.resolveOver ending n from_ p = .ok q := by
  refine resolveOver_induction
    (motive := fun n from_ p => t'.resolveOver ending n from_ p = .ok q) ?_ ?_ ?_ ?_ ?_ hres
  · exact fun _ => rfl
  · intro n from_ part hname hplace _ hlink hstop
    simp only [resolveOver, follow, if_neg hname, ← hplace, h.entry q hq] at hstop ⊢
    cases hentry : t.entry? q with
    | none => simpa only [hentry] using hstop
    | some e =>
      cases e with
      | link target => simp [hlink target hentry]
      | _ => rfl
  · intro n from_ rest ih
    rwa [resolveOver_up]
  · -- What the path goes on from is no file, so it stands at none of the places.
    intro n from_ part rest hname hentry ih
    have hother := (h.entry _ (h.notMem hentry (by simp))).trans hentry
    rwa [resolveOver_dir hname hother]
  · intro n from_ part target rest hname hentry hgoes ih
    have hother := (h.entry _ (h.notMem hentry (by simp))).trans hentry
    rwa [resolveOver_link hname hother hgoes]

/-- A path that leads to another place leads there in the other tree. -/
theorem at?_eq (h : SameBut places t t') {p q : Path} {e : Entry} (hat : t.at? p = .ok (q, e))
    (hq : q ∉ places) : t'.at? p = .ok (q, e) := by
  unfold at? resolve at hat ⊢
  cases hres : t.resolveOver .followed maxLinks [] p with
  | error e' => simp [hres] at hat
  | ok q' =>
    simp only [hres] at hat
    cases hentry : t.entry? q' with
    | none => simp [hentry] at hat
    | some e' =>
      simp only [hentry, Except.ok.injEq, Prod.mk.injEq] at hat
      obtain ⟨rfl, rfl⟩ := hat
      simp only [h.resolveOver_eq hq hres, h.entry _ hq, hentry]

/-- A path that leads to a directory leads to it in the other tree. -/
theorem at?_dir (h : SameBut places t t') {p q : Path} (hat : t.at? p = .ok (q, .dir)) :
    t'.at? p = .ok (q, .dir) :=
  h.at?_eq hat (h.notMem (at?_eq_dir.1 hat).2 (by simp))

/-- The same paths lead to directories. -/
theorem isDir_eq (h : SameBut places t t') (p : Path) : t'.isDir p = t.isDir p := by
  have himp {t t' : Tree} (h : SameBut places t t') : t.isDir p = true → t'.isDir p = true := by
    rw [isDir_iff, isDir_iff]
    exact fun ⟨q, hat⟩ => ⟨q, h.at?_dir hat⟩
  exact Bool.eq_iff_iff.2 ⟨himp h.symm, himp h⟩

/-- The same paths are links. -/
theorem isLink_eq (h : SameBut places t t') (p : Path) : t'.isLink p = t.isLink p := by
  have himp {t t' : Tree} (h : SameBut places t t') : t.isLink p = true → t'.isLink p = true := by
    unfold isLink locate
    intro hlink
    split at hlink
    · rename_i q hres
      split at hlink
      · rename_i target hentry
        have hq := h.notMem hentry (by simp)
        simp only [h.resolveOver_eq hq hres, h.entry _ hq, hentry]
      · cases hlink
    · cases hlink
  exact Bool.eq_iff_iff.2 ⟨himp h.symm, himp h⟩

/-- A path past the places in both trees leads to the same, or nowhere. -/
theorem toOption_at?_eq (h : SameBut places t t') {p : Path} (hpast : t.Past places p)
    (hpast' : t'.Past places p) : (t'.at? p).toOption = (t.at? p).toOption := by
  cases hat : t.at? p with
  | ok x => rw [h.at?_eq hat (hpast _ _ hat)]
  | error e =>
    cases hat' : t'.at? p with
    | error e' => rfl
    | ok x => cases hat.symm.trans (h.symm.at?_eq hat' (hpast' _ _ hat'))

/-- So what can be read there is the same. -/
theorem toOption_bytes_eq (h : SameBut places t t') {p : Path} (hpast : t.Past places p)
    (hpast' : t'.Past places p) : (t'.bytes p).toOption = (t.bytes p).toOption := by
  have hread (t : Tree) (content : ByteArray) : (t.bytes p).toOption = some content ↔
      ∃ q, (t.at? p).toOption = some (q, .file content) := by
    unfold bytes
    rcases t.at? p with _ | ⟨_, _ | _ | _⟩ <;> simp [Except.toOption]
  ext1 content
  rw [hread, hread, h.toOption_at?_eq hpast hpast']

/-- As many directories lie in both trees. -/
theorem dirCount_eq (h : SameBut places t t') (ht : t.Tidy) (ht' : t'.Tidy) :
    t'.dirCount = t.dirCount := by
  obtain ⟨isDir, hcount, hisDir⟩ : ∃ isDir : Path × Entry → Bool,
      (∀ t : Tree, t.dirCount = (t.entries.filter isDir).length + 1) ∧
        ∀ q e, isDir (q, e) = true ↔ e = .dir :=
    ⟨_, fun _ => rfl, fun q e => by cases e <;> simp⟩
  have hmem {t t' : Tree} (h : SameBut places t t') (ht : t.Tidy) (ht' : t'.Tidy) :
      ∀ x ∈ t.entries.filter isDir, x ∈ t'.entries.filter isDir := by
    rintro ⟨q, e⟩ hx
    obtain ⟨hx, hdir⟩ := List.mem_filter.1 hx
    obtain rfl := (hisDir q e).1 hdir
    have hne := ht.below _ hx
    have hentry := (ht.entry?_eq_some hne).2 hx
    rw [← h.entry q (h.notMem hentry (by simp)), ht'.entry?_eq_some hne] at hentry
    exact List.mem_filter.2 ⟨hentry, hdir⟩
  have hperm : (t'.entries.filter isDir).Perm (t.entries.filter isDir) :=
    (List.perm_ext_iff_of_nodup (ht'.once.of_map.filter _) (ht.once.of_map.filter _)).2
      fun x => ⟨hmem h.symm ht' ht x, hmem h ht ht' x⟩
  rw [hcount, hcount, hperm.length_eq]

/-- Where the other tree has nothing at the places, it has the names that are not those of
places. -/
theorem names_eq (h : SameBut places t t') (ht : t.Tidy) (ht' : t'.Tidy)
    (hnone : ∀ p ∈ places, t'.entry? p = none) (q : Path) :
    t'.names q = (t.names q).filter fun name => q ++ [name] ∉ places := by
  have hirrefl : Std.Irrefl fun a b : String => a < b := ⟨fun a => lt_irrefl _⟩
  have hantisymm : Std.Antisymm fun a b : String => a < b :=
    ⟨fun a b hab hba => absurd hba (lt_asymm hab)⟩
  refine (pairwise_names ht'.once q).eq_of_mem_iff ((pairwise_names ht.once q).filter _)
    fun name => ?_
  rw [List.mem_filter, mem_names, mem_names, decide_eq_true_eq]
  by_cases hplace : q ++ [name] ∈ places
  · simp [hplace, hnone _ hplace]
  · simp [hplace, h.entry _ hplace]

/-- The places are below the top. -/
theorem ne_nil (h : SameBut places t t') {p : Path} (hp : p ∈ places) : p ≠ [] := by
  rintro rfl
  exact h.notMem t.entry?_nil (by simp) hp

/-- Nothing stands at the places in a tree without what stands there. -/
theorem entry?_without_of_mem (h : SameBut places t t') {p : Path} (hp : p ∈ places) :
    Tree.entry? (t.without places) p = none := by
  rw [entry?_without t (h.ne_nil hp), if_pos hp]

/-- A tree is the same without what stands at the places. -/
theorem without (h : SameBut places t t') : SameBut places t (t.without places) where
  entry := by
    intro p hp
    rcases eq_or_ne p [] with rfl | hne
    · rfl
    · rw [entry?_without t hne, if_neg hp]
  free := h.free
  free' := fun p hp => fileOrFree_of_none (h.entry?_without_of_mem hp)

end SameBut

/-- File operations in a directory that is there already change files only. -/
theorem Touches.sameBut {dir : Path} {files : List Path} (h : Touches dir files t t')
    (hs : t.Sound) (hdir : t.entry? dir = some .dir) (hfree : ∀ p ∈ files, t.FileOrFree p) :
    SameBut files t t' := by
  have hentry (p : Path) : t'.entry? p = t.entry? p ∨
      (p ∈ files ∧ t.FileOrFree p ∧ t'.FileOrFree p) := by
    rcases h.entry p with hsame | ⟨⟨rest, hrest⟩, hold, -⟩ | hfile
    · exact .inl hsame
    · -- What is on the way to the directory is one.
      have hp : t.entry? p = some .dir := by
        rcases eq_or_ne rest [] with rfl | hne
        · rwa [← hrest, List.append_nil] at hdir
        · exact hs.of_append hne (by rw [hrest, hdir]; rfl)
      exact absurd hold (not_fileOrFree_of_dir hp)
    · exact .inr hfile
  refine ⟨fun p hp => (hentry p).resolve_right fun h => hp h.1, hfree, fun p hp => ?_⟩
  rcases hentry p with hsame | ⟨-, -, hnew⟩
  · exact fun e he => hfree p hp e (hsame ▸ he)
  · exact hnew

end Tree

namespace Workspace

variable {w : Workspace} {t : Tree} {limits : WalkLimits} {m : Ignore.Matcher}
  {places : List Path}

/-- What the walk gives for one path in a directory. -/
def visit (w : Workspace) (limits : WalkLimits) (m : Ignore.Matcher) (depth : Nat)
    (enter : Path → List Path → List WalkEntry × List Path) (p : Path) (seen : List Path) :
    List WalkEntry × List Path :=
  if !limits.followLinks && w.tree.isLink (w.locate p) then ([], seen)
  else if m.ignoresParts p (w.isDir p) then ([], seen)
  else
    match w.tree.at? (w.locate p) with
    | .error _ => ([], seen)
    | .ok (real, _) =>
      if !w.isDir p then ([⟨p, false, depth⟩], seen)
      else if seen.contains real then ([], seen)
      else
        let r := if depth < limits.maxDepth then enter p (real :: seen) else ([], real :: seen)
        (⟨p, true, depth⟩ :: r.1, r.2)

/-- The names of a directory are visited one after the other. -/
theorem walkNames_cons (w : Workspace) (limits : WalkLimits) (m : Ignore.Matcher) (depth : Nat)
    (dir : Path) (enter : Path → List Path → List WalkEntry × List Path) (name : String)
    (names : List String) (seen : List Path) :
    w.walkNames limits m depth dir enter (name :: names) seen =
      let r := w.visit limits m depth enter (dir ++ [name]) seen
      let r' := w.walkNames limits m depth dir enter names r.2
      (r.1 ++ r'.1, r'.2) := by
  rw [walkNames, visit]
  dsimp only
  cases w.tree.at? (w.locate (dir ++ [name])) with
  | error e =>
    dsimp only
    split_ifs <;> rfl
  | ok x =>
    dsimp only
    split_ifs <;> rfl

/-- A path is visited in the same way in a tree without the places. -/
theorem visit_eq_of_past (h : Tree.SameBut places w.tree t)
    (hnone : ∀ p ∈ places, t.entry? p = none) {depth : Nat}
    {enter enter' : Path → List Path → List WalkEntry × List Path}
    (henter : ∀ p seen, (∀ e ∈ (enter p seen).1, w.tree.Past places (w.locate e.parts)) →
      enter' p seen = enter p seen) {p : Path} {seen : List Path}
    (hpast : ∀ e ∈ (w.visit limits m depth enter p seen).1,
      w.tree.Past places (w.locate e.parts)) :
    ({ w with tree := t } : Workspace).visit limits m depth enter' p seen =
      w.visit limits m depth enter p seen := by
  have hlink := h.isLink_eq (w.locate p)
  have hdir : ({ w with tree := t } : Workspace).isDir p = w.isDir p := h.isDir_eq _
  have hlocate : ({ w with tree := t } : Workspace).locate p = w.locate p := rfl
  unfold visit at hpast ⊢
  simp only [hdir, hlocate, hlink]
  by_cases hskip : (!limits.followLinks && w.tree.isLink (w.locate p)) = true
  · simp only [hskip, if_true]
  by_cases hignored : m.ignoresParts p (w.isDir p) = true
  · simp only [hignored, if_true]
  simp only [if_neg hskip, if_neg hignored] at hpast ⊢
  cases hat : w.tree.at? (w.locate p) with
  | error e =>
    cases hat' : t.at? (w.locate p) with
    | error e' => rfl
    | ok x =>
      -- What stands in the other tree stands at no place.
      have hx : x.1 ∉ places := fun hin => by
        have hentry := Tree.entry?_of_at? hat'
        rw [hnone _ hin] at hentry
        cases hentry
      cases hat.symm.trans (h.symm.at?_eq hat' hx)
  | ok x =>
    obtain ⟨real, e⟩ := x
    simp only [hat] at hpast
    cases hfile : w.isDir p with
    | false =>
      -- A file is listed, so the path leads past the places.
      simp only [hfile, Bool.not_false, if_true] at hpast ⊢
      rw [h.at?_eq hat (hpast _ List.mem_cons_self _ _ hat)]
    | true =>
      have he : e = .dir := by
        rw [isDir, Tree.isDir, hat] at hfile
        cases e <;> first | rfl | cases hfile
      subst he
      rw [h.at?_dir hat]
      simp only [hfile, Bool.not_true, Bool.false_eq_true, if_false] at hpast ⊢
      split_ifs at hpast ⊢
      · rfl
      · rw [henter _ _ fun e he => hpast e (List.mem_cons_of_mem _ he)]
      · rfl

/-- So are the names of a directory, but those of places, where files are passed by. -/
theorem walkNames_eq_of_past (h : Tree.SameBut places w.tree t)
    (hnone : ∀ p ∈ places, t.entry? p = none) {depth : Nat} {dir q : Path}
    (hat : w.tree.at? (w.locate dir) = .ok (q, .dir)) {names : List String}
    (hup : ".." ∉ names) (hthere : ∀ name ∈ names, (w.tree.entry? (q ++ [name])).isSome)
    {enter enter' : Path → List Path → List WalkEntry × List Path}
    (henter : ∀ p seen, (∀ e ∈ (enter p seen).1, w.tree.Past places (w.locate e.parts)) →
      enter' p seen = enter p seen) {seen : List Path}
    (hpast : ∀ e ∈ (w.walkNames limits m depth dir enter names seen).1,
      w.tree.Past places (w.locate e.parts)) :
    ({ w with tree := t } : Workspace).walkNames limits m depth dir enter'
        (names.filter fun name => q ++ [name] ∉ places) seen =
      w.walkNames limits m depth dir enter names seen := by
  induction names generalizing seen with
  | nil => rfl
  | cons name names ih =>
    obtain ⟨hname, hup⟩ : ".." ≠ name ∧ ".." ∉ names := by simpa using hup
    have ih := @ih hup fun name hname => hthere name (List.mem_cons_of_mem _ hname)
    rw [walkNames_cons] at hpast ⊢
    have hvisit : ∀ e ∈ (w.visit limits m depth enter (dir ++ [name]) seen).1,
        w.tree.Past places (w.locate e.parts) := fun e he => hpast e (List.mem_append_left _ he)
    have hrest := ih fun e he => hpast e (List.mem_append_right _ he)
    by_cases hplace : q ++ [name] ∈ places
    · -- The path leads to a file at a place, so it is not listed.
      obtain ⟨e, he⟩ := Option.isSome_iff_exists.1 (hthere name List.mem_cons_self)
      obtain ⟨content, rfl⟩ := h.free _ hplace e he
      have hfile : w.tree.at? (w.locate (dir ++ [name])) = .ok (q ++ [name], .file content) := by
        rw [locate, ← List.append_assoc]
        exact Tree.at?_concat hat (Ne.symm hname) he (by simp)
      have hnothing : w.visit limits m depth enter (dir ++ [name]) seen = ([], seen) := by
        have hnotDir : w.isDir (dir ++ [name]) = false := by rw [isDir, Tree.isDir, hfile]
        rw [visit] at hvisit ⊢
        simp only [hnotDir, hfile, Bool.not_false, if_true] at hvisit ⊢
        split_ifs at hvisit ⊢
        · rfl
        · rfl
        · exact absurd hplace (hvisit _ List.mem_cons_self _ _ hfile)
      rw [List.filter_cons_of_neg (by simpa using hplace)]
      simp only [hnothing] at hrest ⊢
      rw [hrest, List.nil_append]
    · rw [List.filter_cons_of_pos (by simpa using hplace), walkNames_cons]
      simp only [visit_eq_of_past h hnone henter hvisit, hrest]

/-- So is what the walk gives for a directory. -/
theorem walkFrom_eq_of_past (h : Tree.SameBut places w.tree t) (ht : w.tree.Tidy) (ht' : t.Tidy)
    (hnone : ∀ p ∈ places, t.entry? p = none) {fuel depth : Nat} {dir : Path} {seen : List Path}
    (hpast : ∀ e ∈ (w.walkFrom limits m fuel depth dir seen).1,
      w.tree.Past places (w.locate e.parts)) :
    ({ w with tree := t } : Workspace).walkFrom limits m fuel depth dir seen =
      w.walkFrom limits m fuel depth dir seen := by
  induction fuel generalizing depth dir seen with
  | zero => rfl
  | succ fuel ih =>
    have henter : ∀ p seen, (∀ e ∈ (w.walkFrom limits m fuel (depth + 1) p seen).1,
        w.tree.Past places (w.locate e.parts)) →
        ({ w with tree := t } : Workspace).walkFrom limits m fuel (depth + 1) p seen =
          w.walkFrom limits m fuel (depth + 1) p seen := fun p seen => ih
    rw [walkFrom] at hpast ⊢
    rw [walkFrom]
    by_cases hdir : w.isDir dir = true
    · obtain ⟨q, hat⟩ := Tree.isDir_iff.1 hdir
      have hlist : w.tree.list (w.locate dir) = w.tree.names q := by rw [Tree.list, hat]
      have hlist' : t.list (w.locate dir) =
          (w.tree.names q).filter fun name => q ++ [name] ∉ places := by
        rw [Tree.list, h.at?_dir hat]
        exact h.names_eq ht ht' hnone q
      rw [hlist] at hpast ⊢
      change ({ w with tree := t } : Workspace).walkNames limits m depth dir _
        (t.list (w.locate dir)) seen = _
      rw [hlist']
      refine walkNames_eq_of_past h hnone hat (fun hin => ?_) (fun name => Tree.mem_names.1) henter
        hpast
      obtain ⟨e, he⟩ := Option.isSome_iff_exists.1 (Tree.mem_names.1 hin)
      exact (ht.isWritten he ".." (by simp)).2.2.2 rfl
    · -- Nothing is in what is no directory in either tree.
      have hdir' : t.isDir (w.locate dir) ≠ true := by
        rw [h.isDir_eq]
        exact hdir
      change ({ w with tree := t } : Workspace).walkNames limits m depth dir _
        (t.list (w.locate dir)) seen = _
      rw [Tree.list_eq_nil hdir, Tree.list_eq_nil hdir']
      rfl

/-- A walk that lists no path to a place is the same in a tree without the places. -/
theorem walk_eq_of_none (h : Tree.SameBut places w.tree t) (ht : w.tree.Tidy) (ht' : t.Tidy)
    (hnone : ∀ p ∈ places, t.entry? p = none) (hroot : w.isDir [])
    (hpast : ∀ e ∈ w.walk limits m, w.tree.Past places (w.locate e.parts)) :
    ({ w with tree := t } : Workspace).walk limits m = w.walk limits m := by
  obtain ⟨top, hat⟩ := Tree.isDir_iff.1 hroot
  have hreal {t : Tree} (hat : t.at? (w.locate []) = .ok (top, .dir)) :
      ({ w with tree := t } : Workspace).real [] = top := by
    have hresolve : t.resolve (w.locate []) = .ok top := (Tree.at?_eq_dir.1 hat).1.resolveOver
    rw [real, show ({ w with tree := t } : Workspace).locate [] = w.locate [] from rfl, hresolve]
  have hsame : ({ w with tree := t } : Workspace).real [] = w.real [] :=
    (hreal (h.at?_dir hat)).trans (hreal hat).symm
  unfold walk at hpast ⊢
  rw [hsame]
  dsimp only
  rw [h.dirCount_eq ht ht', walkFrom_eq_of_past h ht ht' hnone hpast]

/-- A walk that lists no path to a place in either tree is the same in both. -/
theorem walk_eq_of_past (h : Tree.SameBut places w.tree t) (ht : w.tree.Tidy) (ht' : t.Tidy)
    (hroot : w.isDir [])
    (hpast : ∀ e ∈ w.walk limits m, w.tree.Past places (w.locate e.parts))
    (hpast' : ∀ e ∈ ({ w with tree := t } : Workspace).walk limits m,
      t.Past places (w.locate e.parts)) :
    ({ w with tree := t } : Workspace).walk limits m = w.walk limits m := by
  -- Both walks are that of the tree without the places.
  have hbare : Tree.SameBut places w.tree (w.tree.without places) := h.without
  have hnone : ∀ p ∈ places, Tree.entry? (w.tree.without places) p = none :=
    fun p hp => h.entry?_without_of_mem hp
  have hbare' : Tree.SameBut places t (w.tree.without places) := h.symm.trans hbare
  have hroot' : ({ w with tree := t } : Workspace).isDir [] := (h.isDir_eq _).trans hroot
  have hwalk := walk_eq_of_none hbare ht (ht.filter _) hnone hroot hpast
  have hwalk' := walk_eq_of_none (w := { w with tree := t }) hbare' ht' (ht.filter _) hnone hroot'
    hpast'
  exact hwalk'.symm.trans hwalk

/-! ## The paths of a walk -/

/-- Entries at a path or below it, each at another path, which a text can be cut into. -/
structure Spread (p : Path) (es : List WalkEntry) : Prop where
  start : ∀ e ∈ es, p <+: e.parts
  cut : ∀ e ∈ es, IsCut e.parts
  once : (es.map (·.parts)).Nodup

/-- No entries. -/
theorem Spread.nil (p : Path) : Spread p [] := ⟨by simp, by simp, List.nodup_nil⟩

/-- Entries below a directory with one for the directory. -/
theorem Spread.cons {p : Path} {es : List WalkEntry} (h : Spread p es) (hp : IsCut p)
    (hne : ∀ e ∈ es, e.parts ≠ p) (isDir : Bool) (depth : Nat) :
    Spread p (⟨p, isDir, depth⟩ :: es) where
  start := List.forall_mem_cons.2 ⟨List.prefix_refl p, h.start⟩
  cut := List.forall_mem_cons.2 ⟨hp, h.cut⟩
  once := by
    refine List.nodup_cons.2 ⟨fun hin => ?_, h.once⟩
    obtain ⟨e, he, heq⟩ := List.mem_map.1 hin
    exact hne e he heq

/-- What is listed at a path is listed at it or below. -/
theorem spread_visit {depth : Nat} {enter : Path → List Path → List WalkEntry × List Path}
    {p : Path} (hp : IsCut p)
    (henter : ∀ seen, Spread p (enter p seen).1 ∧ ∀ e ∈ (enter p seen).1, e.parts ≠ p)
    (seen : List Path) : Spread p (w.visit limits m depth enter p seen).1 := by
  unfold visit
  dsimp only
  cases w.tree.at? (w.locate p) with
  | error e =>
    dsimp only
    split_ifs <;> exact .nil p
  | ok x =>
    dsimp only
    split_ifs
    · exact .nil p
    · exact .nil p
    · exact (Spread.nil p).cons hp (by simp) _ _
    · exact .nil p
    · exact (henter _).1.cons hp (henter _).2 _ _
    · exact (Spread.nil p).cons hp (by simp) _ _

/-- What is listed for some names of a directory is listed at these or below. -/
theorem spread_walkNames {depth : Nat} {enter : Path → List Path → List WalkEntry × List Path}
    {dir : Path} {names : List String} (hnodup : names.Nodup)
    (hnames : ∀ name ∈ names, IsCut (dir ++ [name]))
    (henter : ∀ name ∈ names, ∀ seen, Spread (dir ++ [name]) (enter (dir ++ [name]) seen).1 ∧
      ∀ e ∈ (enter (dir ++ [name]) seen).1, e.parts ≠ dir ++ [name]) (seen : List Path) :
    Spread dir (w.walkNames limits m depth dir enter names seen).1 ∧
      ∀ e ∈ (w.walkNames limits m depth dir enter names seen).1,
        ∃ name ∈ names, dir ++ [name] <+: e.parts := by
  induction names generalizing seen with
  | nil => exact ⟨.nil dir, by simp [walkNames]⟩
  | cons name names ih =>
    obtain ⟨hname, hnodup⟩ := List.nodup_cons.1 hnodup
    have hvisit : Spread (dir ++ [name]) (w.visit limits m depth enter (dir ++ [name]) seen).1 :=
      spread_visit (hnames name List.mem_cons_self) (henter name List.mem_cons_self) seen
    obtain ⟨hrest, hwhere⟩ := ih hnodup (fun n hn => hnames n (List.mem_cons_of_mem _ hn))
      (fun n hn => henter n (List.mem_cons_of_mem _ hn))
      (w.visit limits m depth enter (dir ++ [name]) seen).2
    rw [walkNames_cons]
    dsimp only
    refine ⟨⟨?_, ?_, ?_⟩, ?_⟩
    · refine List.forall_mem_append.2 ⟨fun e he => ?_, hrest.start⟩
      exact (List.prefix_append _ _).trans (hvisit.start e he)
    · exact List.forall_mem_append.2 ⟨hvisit.cut, hrest.cut⟩
    · -- No path lies at two names of a directory.
      rw [List.map_append]
      refine hvisit.once.append hrest.once fun p hp hp' => ?_
      obtain ⟨e, he, rfl⟩ := List.mem_map.1 hp
      obtain ⟨e', he', heq⟩ := List.mem_map.1 hp'
      obtain ⟨name', hname', hstart'⟩ := hwhere e' he'
      rw [heq] at hstart'
      have hsame := (List.prefix_of_prefix_length_le (hvisit.start e he) hstart'
        (by simp)).eq_of_length (by simp)
      obtain rfl : name = name' := by simpa using hsame
      exact hname hname'
    · refine List.forall_mem_append.2 ⟨fun e he => ?_, fun e he => ?_⟩
      · exact ⟨name, List.mem_cons_self, hvisit.start e he⟩
      · obtain ⟨n, hn, hstart⟩ := hwhere e he
        exact ⟨n, List.mem_cons_of_mem _ hn, hstart⟩

/-- What the walk gives for a directory lies below it. -/
theorem spread_walkFrom (ht : w.tree.Tidy) {fuel depth : Nat} {dir : Path} (hdir : IsCut dir)
    (seen : List Path) : Spread dir (w.walkFrom limits m fuel depth dir seen).1 ∧
      ∀ e ∈ (w.walkFrom limits m fuel depth dir seen).1, e.parts ≠ dir := by
  induction fuel generalizing depth dir seen with
  | zero => exact ⟨.nil dir, by simp [walkFrom]⟩
  | succ fuel ih =>
    rw [walkFrom]
    -- A tidy tree has no entry whose name is a sign for another path, so the paths are cut at each
    -- name.
    have hnames : ∀ name ∈ w.tree.list (w.locate dir), IsCut (dir ++ [name]) := by
      intro name hname
      unfold Tree.list at hname
      split at hname
      · obtain ⟨e, he⟩ := Option.isSome_iff_exists.1 (Tree.mem_names.1 hname)
        have hname := (isWritten_append.1 (ht.isWritten he)).2
        exact List.forall_mem_append.2 ⟨hdir, hname.isCut⟩
      · cases hname
    have hnodup : (w.tree.list (w.locate dir)).Nodup := by
      unfold Tree.list
      split
      · exact (Tree.pairwise_names ht.once _).imp fun hlt => ne_of_lt hlt
      · exact List.nodup_nil
    obtain ⟨hspread, hwhere⟩ := spread_walkNames hnodup hnames
      (fun name hname => ih (hnames name hname)) seen
    refine ⟨hspread, fun e he heq => ?_⟩
    obtain ⟨name, -, hstart⟩ := hwhere e he
    have := hstart.length_le
    rw [heq, List.length_append, List.length_singleton] at this
    omega

/-- The texts of the paths that the walk gives for a directory are all different. -/
theorem nodup_paths_walkFrom (ht : w.tree.Tidy) (fuel depth : Nat) {dir : Path} (hdir : IsCut dir)
    (seen : List Path) :
    ((w.walkFrom limits m fuel depth dir seen).1.map WalkEntry.path).Nodup := by
  obtain ⟨hspread, hne⟩ : Spread dir (w.walkFrom limits m fuel depth dir seen).1 ∧
      ∀ e ∈ (w.walkFrom limits m fuel depth dir seen).1, e.parts ≠ dir :=
    spread_walkFrom ht hdir seen
  generalize (w.walkFrom limits m fuel depth dir seen).1 = es at hspread hne ⊢
  -- No path is empty, so the text of each is cut into its parts again.
  have hparts : ∀ e ∈ es, pathParts (pathText e.parts) = e.parts := by
    intro e he
    refine pathParts_pathText_of_cut (fun hnil => hne e he ?_) (hspread.cut e he)
    have hstart := hspread.start e he
    rw [hnil] at hstart ⊢
    exact (List.prefix_nil.1 hstart).symm
  have hpaths : es.map WalkEntry.path = (es.map (·.parts)).map pathText := by
    rw [List.map_map]
    rfl
  rw [hpaths]
  refine hspread.once.map_on fun p hp p' hp' heq => ?_
  obtain ⟨e, he, rfl⟩ := List.mem_map.1 hp
  obtain ⟨e', he', rfl⟩ := List.mem_map.1 hp'
  rw [← hparts e he, heq, hparts e' he']

/-- The texts of the paths of a walk are all different. -/
theorem nodup_paths_walk (ht : w.tree.Tidy) :
    ((w.walk limits m).map WalkEntry.path).Nodup :=
  nodup_paths_walkFrom ht (w.tree.dirCount + 1) 1 (by simp [IsCut]) [w.real []]

end Workspace

end CodeSurvey.Files
