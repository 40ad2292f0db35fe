import CodeSurvey.Proofs.Files.Shelter
import Mathlib.Logic.Function.Iterate

/-!
# A walk visits each directory once

Links may lead anywhere, also back to where the walk came from, so there may be no end of paths
below a workspace. The walk ends as it enters only directories that were not seen before, and of
these there are fewer with every level (`Tree.unseen`): it never comes to a level below as many as
there are directories, so it makes no difference how such levels would be walked
(`iterate_level_eq`).

What one part of the walk leaves behind is told by the directories that were seen before it
(`Visits`): it lists others, each once, and has seen these as well then. So no two directories of a
walk are the same, and none is one that the walk starts with (`each_directory_is_visited_once`).
-/

namespace CodeSurvey.Files

namespace Tree

variable {t : Tree} {seen seen' : List Path} {q : Path}

/-! ## Directories that were not seen -/

/-- The directories of a tree. -/
def dirs (t : Tree) : List Path := [] :: (t.entries.filter (·.2.isDir)).map (·.1)

/-- There are as many as are counted. -/
theorem length_dirs (t : Tree) : t.dirs.length = t.dirCount := by
  rw [dirs, List.length_cons, List.length_map, dirCount]
  rfl

/-- What stands as a directory is one of them. -/
theorem mem_dirs (h : t.entry? q = some .dir) : q ∈ t.dirs := by
  rcases eq_or_ne q [] with rfl | hne
  · exact List.mem_cons_self
  · refine List.mem_cons_of_mem _ (List.mem_map.2 ⟨(q, .dir), ?_, rfl⟩)
    exact List.mem_filter.2 ⟨mem_entries hne h, rfl⟩

/-- The number of directories that were not seen. -/
def unseen (t : Tree) (seen : List Path) : Nat :=
  (t.dirs.filter fun q => !seen.contains q).length

/-- No more than there are directories. -/
theorem unseen_le (t : Tree) (seen : List Path) : t.unseen seen ≤ t.dirCount := by
  rw [unseen, ← length_dirs]
  exact List.length_filter_le _ _

/-- When more were seen, no more are left. -/
theorem unseen_anti (h : seen ⊆ seen') : t.unseen seen' ≤ t.unseen seen := by
  have hsub : ∀ q ∈ t.dirs, (!seen'.contains q) = true → (!seen.contains q) = true := by
    intro q _ hq
    rw [Bool.not_eq_true', List.contains_eq_mem, decide_eq_false_iff_not] at hq ⊢
    exact fun hin => hq (h hin)
  rw [unseen, unseen, ← List.countP_eq_length_filter, ← List.countP_eq_length_filter]
  exact List.countP_mono_left hsub

/-- When a directory is seen for the first time, fewer are left. -/
theorem unseen_cons_lt (hdir : t.entry? q = some .dir) (hq : q ∉ seen) :
    t.unseen (q :: seen) < t.unseen seen := by
  have hleft : (t.dirs.filter fun q' => !(q :: seen).contains q') =
      (t.dirs.filter fun q' => !seen.contains q').filter fun q' => q' ≠ q := by
    rw [List.filter_filter]
    refine List.filter_congr fun q' _ => ?_
    simp
  rw [unseen, unseen, hleft, List.length_filter_lt_length_iff_exists]
  exact ⟨q, List.mem_filter.2 ⟨mem_dirs hdir, by simpa using hq⟩, by simp⟩

end Tree

namespace Workspace

variable {w : Workspace} {limits : WalkLimits} {m : Ignore.Matcher}

/-! ## Visiting a path -/

/-- The real directory of a path that leads to something. -/
theorem real_of_at? {p q : Path} {x : Entry} (hat : w.tree.at? (w.locate p) = .ok (q, x)) :
    w.real p = q := by
  unfold Tree.at? at hat
  unfold real
  cases hresolve : w.tree.resolve (w.locate p) with
  | error e => simp [hresolve] at hat
  | ok q' =>
    simp only [hresolve] at hat
    split at hat
    · exact (Prod.mk.inj (Except.ok.inj hat)).1
    · cases hat

/-- A path leads to a directory if what it leads to is one. -/
theorem isDir_of_at? {p q : Path} {x : Entry} (hat : w.tree.at? (w.locate p) = .ok (q, x)) :
    w.isDir p = x.isDir := by
  rw [isDir, Tree.isDir, hat]
  cases x <;> rfl

/-- What visiting a path gives, by what it leads to. -/
inductive Visited (w : Workspace) (limits : WalkLimits) (m : Ignore.Matcher) (depth : Nat)
    (enter : Path → List Path → List WalkEntry × List Path) (p : Path) (seen : List Path) :
    List WalkEntry × List Path → Prop
  /-- Links may be passed by if they are not followed. -/
  | unfollowed (off : limits.followLinks = false) :
      Visited w limits m depth enter p seen ([], seen)
  | nowhere {e : Errno} (at_ : w.tree.at? (w.locate p) = .error e) :
      Visited w limits m depth enter p seen ([], seen)
  | ignored {q : Path} {x : Entry} (at_ : w.tree.at? (w.locate p) = .ok (q, x))
      (ignored : m.ignoresParts p x.isDir = true) :
      Visited w limits m depth enter p seen ([], seen)
  | file {q : Path} {x : Entry} (at_ : w.tree.at? (w.locate p) = .ok (q, x))
      (isFile : x.isDir = false) (kept : m.ignoresParts p false = false) :
      Visited w limits m depth enter p seen ([⟨p, false, depth⟩], seen)
  | again {q : Path} (at_ : w.tree.at? (w.locate p) = .ok (q, .dir)) (old : q ∈ seen) :
      Visited w limits m depth enter p seen ([], seen)
  /-- A directory that is too deep is not entered. -/
  | tooDeep {q : Path} (at_ : w.tree.at? (w.locate p) = .ok (q, .dir)) (new : q ∉ seen)
      (kept : m.ignoresParts p true = false) (deep : limits.maxDepth ≤ depth) :
      Visited w limits m depth enter p seen ([⟨p, true, depth⟩], q :: seen)
  | entered {q : Path} (at_ : w.tree.at? (w.locate p) = .ok (q, .dir)) (new : q ∉ seen)
      (kept : m.ignoresParts p true = false) (shallow : (depth : Int) < limits.maxDepth) :
      Visited w limits m depth enter p seen
        (⟨p, true, depth⟩ :: (enter p (q :: seen)).1, (enter p (q :: seen)).2)

/-- Visiting a path gives one of these. -/
theorem visited_visit (w : Workspace) (limits : WalkLimits) (m : Ignore.Matcher) (depth : Nat)
    (enter : Path → List Path → List WalkEntry × List Path) (p : Path) (seen : List Path) :
    w.Visited limits m depth enter p seen (w.visit limits m depth enter p seen) := by
  unfold visit
  by_cases hoff : (!limits.followLinks && w.tree.isLink (w.locate p)) = true
  · rw [if_pos hoff]
    rw [Bool.and_eq_true, Bool.not_eq_true'] at hoff
    exact .unfollowed hoff.1
  rw [if_neg hoff]
  cases hat : w.tree.at? (w.locate p) with
  | error e =>
    rw [ite_self]
    exact .nowhere hat
  | ok found =>
    obtain ⟨q, x⟩ := found
    rw [isDir_of_at? hat]
    dsimp only
    split_ifs with hignored hfile hseen hdeep
    · exact .ignored hat hignored
    all_goals rw [Bool.not_eq_true] at hignored
    · rw [Bool.not_eq_true'] at hfile
      exact .file hat hfile (hfile ▸ hignored)
    all_goals
      -- What it leads to is a directory.
      have hdir : x = .dir := by cases x <;> first | rfl | exact absurd rfl hfile
      subst hdir
    · exact .again hat (List.contains_iff_mem.1 hseen)
    · exact .entered hat (by simpa using hseen) hignored hdeep
    · exact .tooDeep hat (by simpa using hseen) hignored (not_lt.1 hdeep)

/-! ## What a part of the walk leaves -/

/-- What a part of the walk leaves, where `seen` are the directories that were seen before. -/
structure Visits (w : Workspace) (seen : List Path) (r : List WalkEntry × List Path) : Prop where
  /-- What was seen stays so. -/
  grows : seen ⊆ r.2
  /-- Only directories that are listed are seen. -/
  only : ∀ q ∈ r.2, q ∈ seen ∨ ∃ e ∈ r.1, e.isDir ∧ w.real e.parts = q
  /-- Each directory that is listed was not seen before, and is seen then. -/
  fresh : ∀ e ∈ r.1, e.isDir → w.real e.parts ∉ seen ∧ w.real e.parts ∈ r.2
  /-- No directory is listed twice. -/
  once : ((r.1.filter (·.isDir)).map fun e => w.real e.parts).Nodup

namespace Visits

variable {seen : List Path} {r r' : List WalkEntry × List Path}

/-- Nothing is listed. -/
theorem nothing (w : Workspace) (seen : List Path) : w.Visits seen ([], seen) where
  grows := List.Subset.refl _
  only := fun _ hq => .inl hq
  fresh := by simp
  once := List.nodup_nil

/-- A file is listed. -/
theorem file (w : Workspace) (seen : List Path) (p : Path) (depth : Nat) :
    w.Visits seen ([⟨p, false, depth⟩], seen) where
  grows := List.Subset.refl _
  only := fun _ hq => .inl hq
  fresh := by simp
  once := List.nodup_nil

/-- A directory is listed that was not seen before, and then what lies in it. -/
theorem directory {p q : Path} (hreal : w.real p = q) (hq : q ∉ seen)
    (h : w.Visits (q :: seen) r) (depth : Nat) :
    w.Visits seen (⟨p, true, depth⟩ :: r.1, r.2) where
  grows := List.Subset.trans (List.subset_cons_self _ _) h.grows
  only := by
    intro q' hq'
    rcases h.only q' hq' with hseen | ⟨e, he, hdir, hreal'⟩
    · rcases List.mem_cons.1 hseen with rfl | hseen
      · exact .inr ⟨_, List.mem_cons_self, rfl, hreal⟩
      · exact .inl hseen
    · exact .inr ⟨e, List.mem_cons_of_mem _ he, hdir, hreal'⟩
  fresh := by
    intro e he hdir
    rcases List.mem_cons.1 he with rfl | he
    · rw [hreal]
      exact ⟨hq, h.grows List.mem_cons_self⟩
    · obtain ⟨hnot, hin⟩ := h.fresh e he hdir
      exact ⟨fun hseen => hnot (List.mem_cons_of_mem _ hseen), hin⟩
  once := by
    rw [List.filter_cons_of_pos rfl, List.map_cons, List.nodup_cons]
    refine ⟨fun hin => ?_, h.once⟩
    -- The directory was seen when those in it were listed.
    obtain ⟨e, he, heq⟩ := List.mem_map.1 hin
    obtain ⟨he, hdir⟩ := List.mem_filter.1 he
    refine (h.fresh e he hdir).1 ?_
    rw [heq, hreal]
    exact List.mem_cons_self

/-- Two parts of the walk one after the other. -/
theorem append (h : w.Visits seen r) (h' : w.Visits r.2 r') :
    w.Visits seen (r.1 ++ r'.1, r'.2) where
  grows := List.Subset.trans h.grows h'.grows
  only := by
    intro q hq
    rcases h'.only q hq with hq | ⟨e, he, hdir, hreal⟩
    · rcases h.only q hq with hq | ⟨e, he, hdir, hreal⟩
      · exact .inl hq
      · exact .inr ⟨e, List.mem_append_left _ he, hdir, hreal⟩
    · exact .inr ⟨e, List.mem_append_right _ he, hdir, hreal⟩
  fresh := by
    intro e he hdir
    rcases List.mem_append.1 he with he | he
    · obtain ⟨hnot, hin⟩ := h.fresh e he hdir
      exact ⟨hnot, h'.grows hin⟩
    · obtain ⟨hnot, hin⟩ := h'.fresh e he hdir
      exact ⟨fun hseen => hnot (h.grows hseen), hin⟩
  once := by
    rw [List.filter_append, List.map_append]
    refine h.once.append h'.once fun q hq hq' => ?_
    -- What the first part lists was seen when the second one began.
    obtain ⟨e, he, rfl⟩ := List.mem_map.1 hq
    obtain ⟨e', he', heq⟩ := List.mem_map.1 hq'
    obtain ⟨he, hdir⟩ := List.mem_filter.1 he
    obtain ⟨he', hdir'⟩ := List.mem_filter.1 he'
    refine (h'.fresh e' he' hdir').1 ?_
    rw [heq]
    exact (h.fresh e he hdir).2

end Visits

/-- Visiting a path. -/
theorem visits_visit {depth : Nat} {enter : Path → List Path → List WalkEntry × List Path}
    (henter : ∀ p seen, w.Visits seen (enter p seen)) (p : Path) (seen : List Path) :
    w.Visits seen (w.visit limits m depth enter p seen) := by
  have hvisited := w.visited_visit limits m depth enter p seen
  generalize w.visit limits m depth enter p seen = r at hvisited ⊢
  cases hvisited with
  | unfollowed | nowhere | ignored | again => exact .nothing w seen
  | file => exact .file w seen p depth
  | tooDeep hat hnew => exact .directory (real_of_at? hat) hnew (.nothing w _) depth
  | entered hat hnew => exact .directory (real_of_at? hat) hnew (henter _ _) depth

/-- Visiting the names of a directory. -/
theorem visits_walkNames {depth : Nat} {dir : Path}
    {enter : Path → List Path → List WalkEntry × List Path}
    (henter : ∀ p seen, w.Visits seen (enter p seen)) (names : List String) (seen : List Path) :
    w.Visits seen (w.walkNames limits m depth dir enter names seen) := by
  induction names generalizing seen with
  | nil => exact .nothing w seen
  | cons name names ih =>
    rw [walkNames_cons]
    exact (visits_visit henter (dir ++ [name]) seen).append (ih _)

/-- Visiting what lies below a directory. -/
theorem visits_walkFrom (fuel depth : Nat) (dir : Path) (seen : List Path) :
    w.Visits seen (w.walkFrom limits m fuel depth dir seen) := by
  induction fuel generalizing depth dir seen with
  | zero => exact .nothing w seen
  | succ fuel ih => exact visits_walkNames (fun p seen => ih (depth + 1) p seen) _ seen

/-! ## The walk ends -/

/-- One level of a walk, where `deeper` gives what lies below the directories that it enters. -/
def level (w : Workspace) (limits : WalkLimits) (m : Ignore.Matcher)
    (deeper : Nat → Path → List Path → List WalkEntry × List Path) :
    Nat → Path → List Path → List WalkEntry × List Path :=
  fun depth dir seen =>
    w.walkNames limits m depth dir (deeper (depth + 1)) (w.tree.list (w.locate dir)) seen

section Levels

variable {enter enter' : Path → List Path → List WalkEntry × List Path} {depth left : Nat}
  {seen : List Path}

/-- A path is visited in the same way if all directories are that have fewer unseen ones left. -/
theorem visit_eq_of_unseen
    (hsame : ∀ p seen, w.tree.unseen seen < left → enter p seen = enter' p seen)
    (hleft : w.tree.unseen seen ≤ left) (p : Path) :
    w.visit limits m depth enter p seen = w.visit limits m depth enter' p seen := by
  unfold visit
  cases hat : w.tree.at? (w.locate p) with
  | error e => rfl
  | ok x =>
    obtain ⟨q, e⟩ := x
    dsimp only
    split_ifs with hlink hignored hfile hseen hdeep
    · rfl
    · rfl
    · rfl
    · rfl
    · -- A directory is entered that was not seen.
      have hdir : w.tree.entry? q = some .dir := by
        have hentry := Tree.entry?_of_at? hat
        rw [isDir, Tree.isDir, hat] at hfile
        cases e with
        | dir => exact hentry
        | _ => exact absurd rfl hfile
      have hnew : q ∉ seen := by simpa using hseen
      have hlt := Tree.unseen_cons_lt hdir hnew
      rw [hsame p (q :: seen) (by omega)]
    · rfl

/-- So are the names of a directory. -/
theorem walkNames_eq_of_unseen {dir : Path} {names : List String}
    (hvisits : ∀ p seen, w.Visits seen (enter' p seen))
    (hsame : ∀ p seen, w.tree.unseen seen < left → enter p seen = enter' p seen)
    (hleft : w.tree.unseen seen ≤ left) :
    w.walkNames limits m depth dir enter names seen =
      w.walkNames limits m depth dir enter' names seen := by
  induction names generalizing seen with
  | nil => rfl
  | cons name names ih =>
    have hgrows : seen ⊆ (w.visit limits m depth enter' (dir ++ [name]) seen).2 :=
      (visits_visit hvisits (dir ++ [name]) seen).grows
    have hrest := ih (Nat.le_trans (Tree.unseen_anti hgrows) hleft)
    rw [walkNames_cons, walkNames_cons, visit_eq_of_unseen hsame hleft]
    dsimp only
    rw [hrest]

end Levels

/-- A walk with more levels than unseen directories gives the same however deeper levels would be
walked, as it does not come to them. -/
theorem iterate_level_eq {levels depth : Nat} {dir : Path} {seen : List Path}
    (h : w.tree.unseen seen < levels)
    (deeper : Nat → Path → List Path → List WalkEntry × List Path) :
    (w.level limits m)^[levels] deeper depth dir seen =
      w.walkFrom limits m levels depth dir seen := by
  -- By the levels: below a directory that is entered there is one less, and so are the directories
  -- that are left.
  induction levels generalizing depth dir seen with
  | zero => exact absurd h (Nat.not_lt_zero _)
  | succ levels ih =>
    have hsame : ∀ p seen, w.tree.unseen seen < levels →
        (w.level limits m)^[levels] deeper (depth + 1) p seen =
          w.walkFrom limits m levels (depth + 1) p seen := fun p seen hlt => ih hlt
    rw [Function.iterate_succ_apply']
    exact walkNames_eq_of_unseen (fun p seen => visits_walkFrom levels (depth + 1) p seen) hsame
      (Nat.le_of_lt_succ h)

/-! ## Walks -/

/-- The walk of a workspace, or of what lies below a directory of it; an empty path is none. -/
def walkAt (w : Workspace) (limits : WalkLimits) (m : Ignore.Matcher) (start : String) :
    List WalkEntry :=
  if start.isEmpty then w.walk limits m else w.walkBelow limits m start

/-- The directory that a walk starts in. -/
def startDir (start : String) : Path := pathParts (Text.trimChar '/' start)

/-- A walk is empty, or it is what is given for the directory that it starts in when that and the
root were seen. -/
theorem walkAt_cases (w : Workspace) (limits : WalkLimits) (m : Ignore.Matcher) (start : String) :
    w.walkAt limits m start = [] ∨ ∃ depth seen,
      w.walkAt limits m start =
        (w.walkFrom limits m (w.tree.dirCount + 1) depth (startDir start) seen).1 ∧
      w.real [] ∈ seen ∧ w.real (startDir start) ∈ seen := by
  unfold walkAt
  split_ifs with hempty
  · have hdir : startDir start = [] := by
      rw [String.isEmpty_iff.1 hempty]
      rfl
    refine .inr ⟨1, [w.real []], by rw [walk, hdir], List.mem_cons_self, ?_⟩
    rw [hdir]
    exact List.mem_cons_self
  · unfold walkBelow
    dsimp only
    split_ifs
    · exact .inl rfl
    · exact .inl rfl
    · exact .inr ⟨_, _, rfl, by simp, by simp [startDir]⟩

/-- Whatever links there are, and however deep a walk may go: no call of the walk comes to a level
below as many as there are directories and one. Wherever it starts, no two directories that it lists
are the same, and none is the root or the directory that it starts in. All paths that it lists are
different. -/
theorem each_directory_is_visited_once (ht : w.tree.Tidy) (start : String) :
    (∀ deeper depth dir seen, (w.level limits m)^[w.tree.dirCount + 1] deeper depth dir seen =
      w.walkFrom limits m (w.tree.dirCount + 1) depth dir seen) ∧
    (((w.walkAt limits m start).filter (·.isDir)).map fun e => w.real e.parts).Nodup ∧
    (∀ e ∈ w.walkAt limits m start, e.isDir →
      w.real e.parts ≠ w.real [] ∧ w.real e.parts ≠ w.real (startDir start)) ∧
    ((w.walkAt limits m start).map WalkEntry.path).Nodup := by
  refine ⟨fun deeper depth dir seen => ?_, ?_⟩
  · have hlt : w.tree.unseen seen < w.tree.dirCount + 1 :=
      Nat.lt_succ_of_le (w.tree.unseen_le seen)
    exact iterate_level_eq hlt deeper
  · rcases w.walkAt_cases limits m start with hnil | ⟨depth, seen, hwalk, hroot, hstart⟩
    · rw [hnil]
      exact ⟨List.nodup_nil, by simp, List.nodup_nil⟩
    · -- The walk starts with the root and the directory of the start among what it has seen.
      have hvisits : w.Visits seen
          (w.walkFrom limits m (w.tree.dirCount + 1) depth (startDir start) seen) :=
        visits_walkFrom _ depth (startDir start) seen
      rw [hwalk]
      refine ⟨hvisits.once, fun e he hdir => ?_, ?_⟩
      · have hnew := (hvisits.fresh e he hdir).1
        exact ⟨(ne_of_mem_of_not_mem hroot hnew).symm, (ne_of_mem_of_not_mem hstart hnew).symm⟩
      · exact nodup_paths_walkFrom ht _ depth (isCut_pathParts _) seen

/-- A workspace with links to themselves, to what is above, to each other, out of it and to
nothing. -/
def ofLinks : Workspace where
  tree := ⟨[(["ws"], .dir), (["ws", "a"], .dir), (["ws", "a", "up"], .link ".."),
    (["ws", "a", "b"], .link "../b"), (["ws", "b"], .dir), (["ws", "b", "a"], .link "../a"),
    (["ws", "out"], .link "../other"), (["ws", "self"], .link "self"),
    (["ws", "gone"], .link "nowhere"), (["other"], .dir), (["other", "f"], .file ByteArray.empty)]⟩
  root := ["ws"]
  unreadable := fun _ => false

/-- A deep walk of that workspace, and one below a directory of it. -/
theorem each_directory_is_visited_once_of_links :
    ofLinks.tree.Tidy ∧
    (((ofLinks.walkAt ⟨1000, true⟩ ⟨[], []⟩ "").filter (·.isDir)).map
      fun e => ofLinks.real e.parts).Nodup ∧
    ((ofLinks.walkAt ⟨1000, true⟩ ⟨[], []⟩ "a/up/b/").map WalkEntry.path).Nodup := by
  have htidy : ofLinks.tree.Tidy := by
    have hwritten : ∀ x ∈ ofLinks.tree.entries, ∀ name ∈ x.1,
        name ≠ "" ∧ '/' ∉ name.toList ∧ name ≠ "." ∧ name ≠ ".." := by decide
    exact ⟨by decide, by decide, hwritten⟩
  exact ⟨htidy, (each_directory_is_visited_once htidy "").2.1,
    (each_directory_is_visited_once htidy "a/up/b/").2.2.2⟩

end Workspace

end CodeSurvey.Files
