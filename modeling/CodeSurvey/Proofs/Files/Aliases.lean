import CodeSurvey.Proofs.Files.Visits

/-!
# Files behind links

A directory is listed under the first path that leads to it, which may be an alias: a path over a
link. What lies in it is listed there, but for what is too deep or ignored under that path, and its
own path is passed by. So a file that is neither too deep nor ignored under its own path is listed
under some path, unless there is such an alias of a directory on the way to it
(`real_file_is_listed_or_hidden`).

A walk goes through every directory that it lists and that is not too deep (`Closed.covers`): each
name is ignored, leads nowhere, is listed or leads to a directory that was seen. A directory is seen
only when it is listed (`Visits.only`), so on the way to a file the walk comes from one listed
directory to the next (`next_on_way`).

There are aliases that hide a file (`links_hide_files`): one under which the file is ignored, and
one that is as deep as the walk may go.
-/

namespace CodeSurvey.Files.Workspace

variable {w : Workspace} {limits : WalkLimits} {m : Ignore.Matcher} {top : Path}

/-! ## What a walk goes through -/

/-- What a part of the walk does with a path: unless it is ignored or leads nowhere, it is listed as
a file or leads to a directory that was seen. -/
def Handles (w : Workspace) (m : Ignore.Matcher) (r : List WalkEntry × List Path) (p : Path) :
    Prop :=
  ∀ q x, w.tree.at? (w.locate p) = .ok (q, x) → m.ignoresParts p x.isDir = false →
    if x.isDir then q ∈ r.2 else ∃ e ∈ r.1, e.isDir = false ∧ e.parts = p

/-- It does so with all names of a directory. -/
def Covers (w : Workspace) (m : Ignore.Matcher) (r : List WalkEntry × List Path) (dir : Path) :
    Prop :=
  ∀ name ∈ w.tree.list (w.locate dir), w.Handles m r (dir ++ [name])

/-- What holds of the entries of a part of the walk. -/
structure Closed (w : Workspace) (limits : WalkLimits) (m : Ignore.Matcher)
    (r : List WalkEntry × List Path) : Prop where
  /-- It goes through the directories that are not too deep. -/
  covers : ∀ e ∈ r.1, e.isDir → (e.depth : Int) < limits.maxDepth → w.Covers m r e.parts
  depth : ∀ e ∈ r.1, e.depth = e.parts.length
  /-- Each entry leads to something of its sort. -/
  leads : ∀ e ∈ r.1, ∃ q x, w.tree.at? (w.locate e.parts) = .ok (q, x) ∧ e.isDir = x.isDir

section Parts

variable {r r' : List WalkEntry × List Path} {p dir : Path}

/-- What was done with a path stays so when more is listed and seen. -/
theorem Handles.mono (h : w.Handles m r p) (hlisted : r.1 ⊆ r'.1) (hseen : r.2 ⊆ r'.2) :
    w.Handles m r' p := by
  intro q x hat hkept
  have hp := h q x hat hkept
  split_ifs at hp ⊢
  · exact hseen hp
  · obtain ⟨e, he, hfile⟩ := hp
    exact ⟨e, hlisted he, hfile⟩

/-- So does what was done with the names of a directory. -/
theorem Covers.mono (h : w.Covers m r dir) (hlisted : r.1 ⊆ r'.1) (hseen : r.2 ⊆ r'.2) :
    w.Covers m r' dir :=
  fun name hname => (h name hname).mono hlisted hseen

/-- No entries. -/
theorem Closed.nothing (w : Workspace) (limits : WalkLimits) (m : Ignore.Matcher)
    (seen : List Path) : w.Closed limits m ([], seen) :=
  ⟨by simp, by simp, by simp⟩

/-- An entry before others. If it is a directory that is not too deep, the others are those that lie
in it. -/
theorem Closed.cons (h : w.Closed limits m r) {q : Path} {x : Entry} {depth : Nat}
    (hat : w.tree.at? (w.locate p) = .ok (q, x)) (hdepth : depth = p.length)
    (hcovers : x.isDir → (depth : Int) < limits.maxDepth → w.Covers m r p) :
    w.Closed limits m (⟨p, x.isDir, depth⟩ :: r.1, r.2) where
  covers := by
    intro e he hdir hdeep
    have hmore : r.1 ⊆ ⟨p, x.isDir, depth⟩ :: r.1 := List.subset_cons_self _ _
    rcases List.mem_cons.1 he with rfl | he
    · exact (hcovers hdir hdeep).mono hmore (List.Subset.refl _)
    · exact (h.covers e he hdir hdeep).mono hmore (List.Subset.refl _)
  depth := List.forall_mem_cons.2 ⟨hdepth, h.depth⟩
  leads := List.forall_mem_cons.2 ⟨⟨q, x, hat, rfl⟩, h.leads⟩

/-- Two parts of the walk one after the other, where what was seen stays so. -/
theorem Closed.append (h : w.Closed limits m r) (h' : w.Closed limits m r') (hgrows : r.2 ⊆ r'.2) :
    w.Closed limits m (r.1 ++ r'.1, r'.2) where
  covers := by
    intro e he hdir hdeep
    rcases List.mem_append.1 he with he | he
    · exact (h.covers e he hdir hdeep).mono (List.subset_append_left _ _) hgrows
    · exact (h'.covers e he hdir hdeep).mono (List.subset_append_right _ _) (List.Subset.refl _)
  depth := List.forall_mem_append.2 ⟨h.depth, h'.depth⟩
  leads := List.forall_mem_append.2 ⟨h.leads, h'.leads⟩

end Parts

section Walks

variable {depth left : Nat} {dir : Path} {seen : List Path}
  {enter : Path → List Path → List WalkEntry × List Path}

/-- A path that is visited is dealt with, if a directory that is entered is gone through. -/
theorem closed_visit (hfollow : limits.followLinks = true)
    (hvisits : ∀ p seen, w.Visits seen (enter p seen)) {p : Path} (hdepth : depth = p.length)
    (henter : ∀ seen, w.tree.unseen seen < left →
      w.Closed limits m (enter p seen) ∧ w.Covers m (enter p seen) p)
    (hleft : w.tree.unseen seen ≤ left) :
    w.Handles m (w.visit limits m depth enter p seen) p ∧
      w.Closed limits m (w.visit limits m depth enter p seen) := by
  have hvisited := w.visited_visit limits m depth enter p seen
  generalize w.visit limits m depth enter p seen = r at hvisited ⊢
  -- What the path leads to is known in each case.
  have hsame : ∀ {q x q' x'}, w.tree.at? (w.locate p) = .ok (q, x) →
      w.tree.at? (w.locate p) = .ok (q', x') → q = q' ∧ x = x' := by
    intro q x q' x' hat hat'
    exact Prod.mk.inj (Except.ok.inj (hat.symm.trans hat'))
  cases hvisited with
  | unfollowed hoff => cases hfollow.symm.trans hoff
  | nowhere hat =>
    refine ⟨fun q x hat' => ?_, .nothing w limits m seen⟩
    cases hat.symm.trans hat'
  | ignored hat hignored =>
    refine ⟨fun q x hat' hkept => ?_, .nothing w limits m seen⟩
    obtain ⟨rfl, rfl⟩ := hsame hat hat'
    cases hignored.symm.trans hkept
  | @file q x hat hfile =>
    have hclosed : w.Closed limits m (⟨p, x.isDir, depth⟩ :: [], seen) :=
      (Closed.nothing w limits m seen).cons hat hdepth fun hdir => by cases hfile.symm.trans hdir
    rw [hfile] at hclosed
    refine ⟨fun q' x' hat' _ => ?_, hclosed⟩
    obtain ⟨rfl, rfl⟩ := hsame hat hat'
    rw [hfile, if_neg Bool.false_ne_true]
    exact ⟨_, List.mem_cons_self, rfl, rfl⟩
  | again hat hold =>
    refine ⟨fun q' x' hat' _ => ?_, .nothing w limits m seen⟩
    obtain ⟨rfl, rfl⟩ := hsame hat hat'
    exact hold
  | tooDeep hat hnew hkept hdeep =>
    refine ⟨fun q' x' hat' _ => ?_, ?_⟩
    · obtain ⟨rfl, rfl⟩ := hsame hat hat'
      exact List.mem_cons_self
    · exact (Closed.nothing w limits m _).cons hat hdepth fun _ hshallow =>
        absurd hshallow (not_lt.2 hdeep)
  | @entered q hat hnew =>
    have hdir : w.tree.entry? q = some .dir := Tree.entry?_of_at? hat
    have hlt := Tree.unseen_cons_lt hdir hnew
    obtain ⟨hclosed, hcovers⟩ := henter (q :: seen) (by omega)
    refine ⟨fun q' x' hat' _ => ?_, hclosed.cons hat hdepth fun _ _ => hcovers⟩
    obtain ⟨rfl, rfl⟩ := hsame hat hat'
    exact (hvisits p (q :: seen)).grows List.mem_cons_self

/-- The same of the names of a directory. -/
theorem closed_walkNames (hfollow : limits.followLinks = true)
    (hvisits : ∀ p seen, w.Visits seen (enter p seen)) (hdepth : depth = dir.length + 1)
    (henter : ∀ name seen, w.tree.unseen seen < left →
      w.Closed limits m (enter (dir ++ [name]) seen) ∧
        w.Covers m (enter (dir ++ [name]) seen) (dir ++ [name]))
    {names : List String} (hleft : w.tree.unseen seen ≤ left) :
    (∀ name ∈ names, w.Handles m (w.walkNames limits m depth dir enter names seen)
      (dir ++ [name])) ∧
      w.Closed limits m (w.walkNames limits m depth dir enter names seen) := by
  -- By the names in their order: each is visited with what was seen at those before it, which only
  -- grows.
  induction names generalizing seen with
  | nil => exact ⟨by simp, .nothing w limits m seen⟩
  | cons name names ih =>
    obtain ⟨hfirst, hclosed⟩ :=
      closed_visit (p := dir ++ [name]) hfollow hvisits (by simpa using hdepth) (henter name) hleft
    have hgrows : seen ⊆ (w.visit limits m depth enter (dir ++ [name]) seen).2 :=
      (visits_visit hvisits (dir ++ [name]) seen).grows
    obtain ⟨hrest, hclosed'⟩ := ih (Nat.le_trans (Tree.unseen_anti hgrows) hleft)
    rw [walkNames_cons]
    generalize w.visit limits m depth enter (dir ++ [name]) seen = r at *
    have hgrows' : r.2 ⊆ (w.walkNames limits m depth dir enter names r.2).2 :=
      (visits_walkNames hvisits names r.2).grows
    refine ⟨List.forall_mem_cons.2 ⟨?_, fun n hn => ?_⟩, hclosed.append hclosed' hgrows'⟩
    · exact hfirst.mono (List.subset_append_left _ _) hgrows'
    · exact (hrest n hn).mono (List.subset_append_right _ _) (List.Subset.refl _)

/-- A walk with more levels than unseen directories goes through the directory that it starts in. -/
theorem closed_walkFrom (hfollow : limits.followLinks = true) {levels : Nat} (dir : Path)
    (seen : List Path) (hlevels : w.tree.unseen seen < levels) :
    w.Closed limits m (w.walkFrom limits m levels (dir.length + 1) dir seen) ∧
      w.Covers m (w.walkFrom limits m levels (dir.length + 1) dir seen) dir := by
  -- By the levels: below a directory that is entered there is one less, and so are the directories
  -- that are left.
  induction levels generalizing dir seen with
  | zero => exact absurd hlevels (Nat.not_lt_zero _)
  | succ levels ih =>
    have henter : ∀ name seen, w.tree.unseen seen < levels →
        w.Closed limits m (w.walkFrom limits m levels (dir.length + 1 + 1) (dir ++ [name]) seen) ∧
          w.Covers m (w.walkFrom limits m levels (dir.length + 1 + 1) (dir ++ [name]) seen)
            (dir ++ [name]) := by
      intro name seen hlt
      have hinner := ih (dir ++ [name]) seen hlt
      rwa [List.length_append, List.length_singleton] at hinner
    obtain ⟨hcovers, hclosed⟩ := closed_walkNames hfollow
      (fun p seen => visits_walkFrom levels (dir.length + 1 + 1) p seen) rfl henter
      (Nat.le_of_lt_succ hlevels)
    exact ⟨hclosed, hcovers⟩

end Walks

/-! ## The way to a file -/

/-- An alias that hides what is at a path: a directory on the way there is listed under another
path, and the next name on the way is not listed there, as the directory is too deep to be entered
or as the name is ignored in it. -/
structure Hides (w : Workspace) (limits : WalkLimits) (m : Ignore.Matcher) (top ps : Path)
    (e : WalkEntry) : Prop where
  isDir : e.isDir = true
  way : ∃ qs name rest, ps = qs ++ name :: rest ∧
    w.real e.parts = top ++ qs ∧ e.parts ≠ qs ∧
    (limits.maxDepth ≤ e.depth ∨ m.ignoresParts (e.parts ++ [name]) (decide (rest ≠ [])) = true)

section Way

variable {r : List WalkEntry × List Path} {ps : Path} {content : ByteArray}

/-- What stands on the way to a file: directories, and the file at the end. -/
theorem entry?_on_way (hs : w.tree.Sound)
    (hfile : w.tree.entry? (top ++ ps) = some (.file content)) {qs rest : Path}
    (hps : ps = qs ++ rest) : ∃ x, w.tree.entry? (top ++ qs) = some x ∧
      (∀ target, x ≠ .link target) ∧ x.isDir = decide (rest ≠ []) ∧
      (rest = [] → x = .file content) := by
  subst hps
  rcases eq_or_ne rest [] with rfl | hne
  · rw [List.append_nil] at hfile
    exact ⟨_, hfile, by simp, by simp [Entry.isDir], fun _ => rfl⟩
  · have hdir : w.tree.entry? (top ++ qs) = some .dir := by
      refine hs.of_append hne ?_
      rw [List.append_assoc, hfile]
      rfl
    exact ⟨_, hdir, by simp, by simp [Entry.isDir, hne], fun hnil => absurd hnil hne⟩

/-- If the next name on the way is ignored under its own path, so is what the way leads to. -/
theorem ignoresParts_of_next {qs rest : Path} {name : String} (hps : ps = qs ++ name :: rest)
    (hignored : m.ignoresParts (qs ++ [name]) (decide (rest ≠ [])) = true) :
    m.ignoresParts ps false = true := by
  rcases eq_or_ne rest [] with rfl | hne
  · rw [hps]
    simpa using hignored
  · have hnext : ps = (qs ++ [name]) ++ rest := by rw [hps, List.append_cons]
    rw [decide_eq_true hne] at hignored
    refine m.ignoresParts_of_prefix (by simp) ⟨rest, hnext.symm⟩ ?_ hignored false
    rw [hnext]
    simpa using hne

/-- From a directory on the way to a file that a walk goes through, under its own path or an alias,
the walk goes on by the next name, unless that is ignored under an alias. -/
theorem next_on_way (ht : w.tree.Tidy) (hs : w.tree.Sound)
    (hfile : w.tree.entry? (top ++ ps) = some (.file content))
    (hkept : m.ignoresParts ps false = false) {qs p rest : Path} {name : String}
    (hps : ps = qs ++ name :: rest) (hat : w.tree.at? (w.locate p) = .ok (top ++ qs, .dir))
    (hcovers : w.Covers m r p) :
    (p ≠ qs ∧ m.ignoresParts (p ++ [name]) (decide (rest ≠ [])) = true) ∨
    (rest = [] ∧ ∃ e ∈ r.1, e.isDir = false ∧
      w.tree.at? (w.locate e.parts) = .ok (top ++ ps, .file content)) ∨
    (rest ≠ [] ∧ top ++ (qs ++ [name]) ∈ r.2) := by
  have hnext : ps = (qs ++ [name]) ++ rest := by rw [hps, List.append_cons]
  obtain ⟨x, hx, hlink, hdir, hlast⟩ := entry?_on_way hs hfile hnext
  -- The name is listed in the directory and leads to what stands there.
  rw [← List.append_assoc] at hx
  have hlisted : name ∈ w.tree.list (w.locate p) := by
    rw [Tree.list, hat]
    exact Tree.mem_names.2 (by rw [hx]; rfl)
  have hup : name ≠ ".." := (ht.isWritten hx name (by simp)).2.2.2
  have hat' : w.tree.at? (w.locate (p ++ [name])) = .ok (top ++ qs ++ [name], x) := by
    rw [locate, ← List.append_assoc]
    exact Tree.at?_concat hat hup hx hlink
  have hhandled := hcovers name hlisted _ x hat'
  rw [hdir] at hhandled
  by_cases hignored : m.ignoresParts (p ++ [name]) (decide (rest ≠ [])) = true
  · -- Under its own path nothing on the way is ignored.
    refine .inl ⟨fun hown => ?_, hignored⟩
    rw [hown] at hignored
    cases hkept.symm.trans (ignoresParts_of_next hps hignored)
  · rw [Bool.not_eq_true] at hignored
    have hdone := hhandled hignored
    rcases eq_or_ne rest [] with rfl | hne
    · simp only [ne_eq, not_true_eq_false, decide_false, Bool.false_eq_true, if_false] at hdone
      obtain ⟨e, he, hfile', hparts⟩ := hdone
      refine .inr (.inl ⟨rfl, e, he, hfile', ?_⟩)
      rw [hparts, hat', hlast rfl, hps, List.append_assoc]
    · rw [if_pos (decide_eq_true hne), List.append_assoc] at hdone
      exact .inr (.inr ⟨hne, hdone⟩)

/-- So it comes to the file or to an alias that hides it. -/
theorem listed_or_hidden_below (ht : w.tree.Tidy) (hs : w.tree.Sound)
    (hclosed : w.Closed limits m r) (hvisits : w.Visits [top] r)
    (hfile : w.tree.entry? (top ++ ps) = some (.file content))
    (hdepth : (ps.length : Int) ≤ limits.maxDepth) (hkept : m.ignoresParts ps false = false)
    {qs p rest : Path} {name : String} (hps : ps = qs ++ name :: rest)
    (hat : w.tree.at? (w.locate p) = .ok (top ++ qs, .dir)) (hcovers : w.Covers m r p)
    (hlisted : p = qs ∨ ∃ e ∈ r.1, e.isDir = true ∧ e.parts = p) :
    (∃ e ∈ r.1, e.isDir = false ∧
      w.tree.at? (w.locate e.parts) = .ok (top ++ ps, .file content)) ∨
    ∃ e ∈ r.1, w.Hides limits m top ps e := by
  -- By the names that are still to come.
  induction rest generalizing qs p name with
  | nil =>
    rcases next_on_way ht hs hfile hkept hps hat hcovers with ⟨hne, hig⟩ | ⟨-, hdone⟩ | ⟨hnil, -⟩
    · obtain ⟨e, he, hdir, rfl⟩ := hlisted.resolve_left hne
      exact .inr ⟨e, he, hdir, qs, name, [], hps, real_of_at? hat, hne, .inr hig⟩
    · exact .inl hdone
    · exact absurd rfl hnil
  | cons name' rest ih =>
    rcases next_on_way ht hs hfile hkept hps hat hcovers with ⟨hne, hig⟩ | ⟨hnil, -⟩ | ⟨-, hseen⟩
    · obtain ⟨e, he, hdir, rfl⟩ := hlisted.resolve_left hne
      exact .inr ⟨e, he, hdir, qs, name, name' :: rest, hps, real_of_at? hat, hne, .inr hig⟩
    · cases hnil
    -- The next directory was seen, so it is listed under some path.
    have hnotTop : top ++ (qs ++ [name]) ∉ [top] := by simp
    obtain ⟨e, he, hdir, hreal⟩ := (hvisits.only _ hseen).resolve_left hnotTop
    have hnext : ps = (qs ++ [name]) ++ name' :: rest := by rw [hps, List.append_cons]
    have hat' : w.tree.at? (w.locate e.parts) = .ok (top ++ (qs ++ [name]), .dir) := by
      obtain ⟨q, x, hx, hisDir⟩ := hclosed.leads e he
      have hxdir : x = .dir := by
        rw [hdir] at hisDir
        cases x <;> first | rfl | cases hisDir
      rw [hx, hxdir, ← hreal, real_of_at? hx]
    by_cases hdeep : limits.maxDepth ≤ e.depth
    · -- Under its own path it is not too deep, for the file is not.
      refine .inr ⟨e, he, hdir, qs ++ [name], name', rest, hnext, hreal, fun hown => ?_, .inl hdeep⟩
      have hlength := hclosed.depth e he
      rw [hown] at hlength
      have hlonger := congrArg List.length hnext
      rw [List.length_append, List.length_cons] at hlonger
      omega
    · have hcovers' := hclosed.covers e he hdir (not_le.1 hdeep)
      exact ih hnext hat' hcovers' (.inr ⟨e, he, hdir, rfl⟩)

end Way

/-- When links are followed, a file that is neither too deep nor ignored under its own path is
listed under some path, or there is an alias of a directory on the way to it that hides it: the
directory is listed under another path, where the next name on the way is too deep or ignored. -/
theorem real_file_is_listed_or_hidden (ht : w.tree.Tidy) (hs : w.tree.Sound)
    (hroot : w.tree.at? w.root = .ok (top, .dir)) (hfollow : limits.followLinks = true) {ps : Path}
    {content : ByteArray} (hfile : w.tree.entry? (top ++ ps) = some (.file content))
    (hdepth : (ps.length : Int) ≤ limits.maxDepth) (hkept : m.ignoresParts ps false = false) :
    (∃ e ∈ w.walk limits m, e.isDir = false ∧
      w.tree.at? (w.locate e.parts) = .ok (top ++ ps, .file content)) ∨
    ∃ e ∈ w.walk limits m, w.Hides limits m top ps e := by
  have hat : w.tree.at? (w.locate []) = .ok (top ++ [], .dir) := by
    rw [locate, List.append_nil, List.append_nil, hroot]
  have hreal : w.real [] = top := by
    rw [real_of_at? hat, List.append_nil]
  have hlt : w.tree.unseen [top] < w.tree.dirCount + 1 :=
    Nat.lt_succ_of_le (w.tree.unseen_le [top])
  obtain ⟨hclosed, hcovers⟩ := closed_walkFrom (m := m) hfollow [] [top] hlt
  have hvisits : w.Visits [top] (w.walkFrom limits m (w.tree.dirCount + 1) 1 [] [top]) :=
    visits_walkFrom _ 1 [] [top]
  unfold walk
  rw [hreal]
  cases ps with
  | nil =>
    -- The root is no file.
    rw [List.append_nil, (Tree.at?_eq_dir.1 hroot).2] at hfile
    cases hfile
  | cons name rest =>
    exact listed_or_hidden_below ht hs hclosed hvisits hfile hdepth hkept (List.nil_append _).symm
      hat hcovers (.inl rfl)

/-! ## Files that are hidden -/

/-- A walk misses a file that is neither too deep nor ignored under its own path. -/
structure Misses (w : Workspace) (limits : WalkLimits) (m : Ignore.Matcher) (top ps : Path) :
    Prop where
  file : ∃ content, w.tree.entry? (top ++ ps) = some (.file content)
  depth : (ps.length : Int) ≤ limits.maxDepth
  kept : m.ignoresParts ps false = false
  missed : ∀ e ∈ w.walk limits m, w.real e.parts ≠ top ++ ps

/-- Without rules and denied names nothing is ignored. -/
theorem ignoresParts_nothing (p : Path) (isDir : Bool) :
    (⟨[], []⟩ : Ignore.Matcher).ignoresParts p isDir = false := by
  simp [Ignore.Matcher.ignoresParts, Ignore.Matcher.deniesName, Ignore.ruledOut,
    Ignore.ruledOut.go]

/-- A workspace with a link to a directory beside it. -/
def ofAlias : Workspace :=
  ofEntries [(["a"], .link "b"), (["b"], .dir), (["b", "f.txt"], .file ByteArray.empty)]

/-- The same with the link in another directory. -/
def ofDeepAlias : Workspace :=
  ofEntries [(["a"], .dir), (["a", "l"], .link "../b"), (["b"], .dir),
    (["b", "f.txt"], .file ByteArray.empty)]

/-- A rule for the file under the path of the link. -/
def aliasRules : Ignore.Matcher := ⟨(Ignore.rulesOf "/a/f.txt").toOption.getD [], []⟩

/-- The walk of the first workspace lists the file under the link, unless it is ignored there. -/
theorem walk_ofAlias (m : Ignore.Matcher) (hkept : ∀ dir ∈ [["a"], ["b"]],
    m.ignoresParts dir true = false) :
    ofAlias.walk ⟨20, true⟩ m = ⟨["a"], true, 1⟩ ::
      if m.ignoresParts ["a", "f.txt"] false then [] else [⟨["a", "f.txt"], false, 2⟩] := by
  have hnames : ofAlias.tree.names ["ws"] = ["a", "b"] :=
    List.mergeSort_of_pairwise (by decide)
  have hinner : ofAlias.tree.names ["ws", "b"] = ["f.txt"] := List.mergeSort_singleton _
  have hroot : ofAlias.tree.at? (ofAlias.locate []) = .ok (["ws"], .dir) := by rfl
  have ha : ofAlias.tree.at? (ofAlias.locate ["a"]) = .ok (["ws", "b"], .dir) := by rfl
  have hb : ofAlias.tree.at? (ofAlias.locate ["b"]) = .ok (["ws", "b"], .dir) := by rfl
  have hf : ofAlias.tree.at? (ofAlias.locate ["a", "f.txt"]) =
      .ok (["ws", "b", "f.txt"], .file ByteArray.empty) := by rfl
  have hcount : ofAlias.tree.dirCount = 3 := by rfl
  have hkeptA := hkept ["a"] (by simp)
  have hkeptB := hkept ["b"] (by simp)
  -- Both names lead to one directory, which is entered at the first of them only.
  cases hignored : m.ignoresParts ["a", "f.txt"] false with
  | true | false =>
    simp [walk, hcount, real_of_at? hroot, walkFrom, walkNames, Tree.list, hroot, hnames, hinner,
      ha, hb, hf, isDir_of_at? ha, isDir_of_at? hb, isDir_of_at? hf, hkeptA, hkeptB, hignored,
      Entry.isDir]

/-- The walk of the second one lists the link, and does not enter it if it is as deep as it may
go. -/
theorem walk_ofDeepAlias :
    ofDeepAlias.walk ⟨2, true⟩ ⟨[], []⟩ = [⟨["a"], true, 1⟩, ⟨["a", "l"], true, 2⟩] := by
  have hnames : ofDeepAlias.tree.names ["ws"] = ["a", "b"] :=
    List.mergeSort_of_pairwise (by decide)
  have hinner : ofDeepAlias.tree.names ["ws", "a"] = ["l"] := List.mergeSort_singleton _
  have hroot : ofDeepAlias.tree.at? (ofDeepAlias.locate []) = .ok (["ws"], .dir) := by rfl
  have ha : ofDeepAlias.tree.at? (ofDeepAlias.locate ["a"]) = .ok (["ws", "a"], .dir) := by rfl
  have hl : ofDeepAlias.tree.at? (ofDeepAlias.locate ["a", "l"]) = .ok (["ws", "b"], .dir) := by rfl
  have hb : ofDeepAlias.tree.at? (ofDeepAlias.locate ["b"]) = .ok (["ws", "b"], .dir) := by rfl
  have hcount : ofDeepAlias.tree.dirCount = 4 := by rfl
  simp [walk, hcount, real_of_at? hroot, walkFrom, walkNames, Tree.list, hroot, hnames, hinner, ha,
    hl, hb, isDir_of_at? ha, isDir_of_at? hl, isDir_of_at? hb, ignoresParts_nothing, Entry.isDir]

/-- The file is missed where it is ignored under the link, and where the link is too deep. -/
theorem links_hide_files :
    ofAlias.Misses ⟨20, true⟩ aliasRules ["ws"] ["b", "f.txt"] ∧
      ofDeepAlias.Misses ⟨2, true⟩ ⟨[], []⟩ ["ws"] ["b", "f.txt"] := by
  constructor
  · have hwalk := walk_ofAlias aliasRules (by decide +kernel)
    rw [if_pos (by decide +kernel)] at hwalk
    refine ⟨⟨_, rfl⟩, by decide, by decide +kernel, ?_⟩
    rw [hwalk, List.forall_mem_singleton]
    decide +kernel
  · refine ⟨⟨_, rfl⟩, by decide, ignoresParts_nothing _ _, ?_⟩
    rw [walk_ofDeepAlias]
    decide +kernel

/-- The file is listed under the link where nothing is ignored. -/
theorem real_file_is_listed_under_alias :
    ofAlias.tree.entry? (["ws"] ++ ["b", "f.txt"]) = some (.file ByteArray.empty) ∧
    ∃ e ∈ ofAlias.walk ⟨20, true⟩ ⟨[], []⟩, e.isDir = false ∧
      ofAlias.tree.at? (ofAlias.locate e.parts) =
        .ok (["ws", "b", "f.txt"], .file ByteArray.empty) := by
  have htidy : ofAlias.tree.Tidy := by
    have hwritten : ∀ x ∈ ofAlias.tree.entries, ∀ name ∈ x.1,
        name ≠ "" ∧ '/' ∉ name.toList ∧ name ≠ "." ∧ name ≠ ".." := by decide
    exact ⟨by decide, by decide, hwritten⟩
  have hsound : ofAlias.tree.Sound := Tree.sound_of_entries (by decide)
  have hroot : ofAlias.tree.at? ofAlias.root = .ok (["ws"], .dir) := by rfl
  have hfile : ofAlias.tree.entry? (["ws"] ++ ["b", "f.txt"]) = some (.file ByteArray.empty) := rfl
  have hfollow : (⟨20, true⟩ : WalkLimits).followLinks = true := rfl
  have hlisted := real_file_is_listed_or_hidden htidy hsound hroot hfollow hfile (by decide)
    (ignoresParts_nothing ["b", "f.txt"] false)
  refine ⟨hfile, hlisted.resolve_right ?_⟩
  -- The only directory on the walk is the link, which is entered.
  rintro ⟨e, he, hdir, qs, name, rest, -, -, -, hwhy⟩
  rw [walk_ofAlias ⟨[], []⟩ fun dir _ => ignoresParts_nothing dir true, ignoresParts_nothing] at he
  simp only [ignoresParts_nothing, Bool.false_eq_true, or_false] at hwhy
  rcases List.mem_pair.1 he with rfl | rfl
  · exact absurd hwhy (by decide)
  · cases hdir

end CodeSurvey.Files.Workspace
