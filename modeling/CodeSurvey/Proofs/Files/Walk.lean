import CodeSurvey.Files.Walk
import CodeSurvey.Proofs.Files.Route
import CodeSurvey.Proofs.Ignore.Decision
import Mathlib.Data.List.Nodup
import Mathlib.Data.List.Perm.Subperm
import Mathlib.Data.String.Basic

/-!
# The walk lists what is not ignored

In a workspace without links the walk lists exactly the entries that are not ignored and not too
deep, each of them once, in increasing order of their paths (`walk_lists_kept_entries`). It does not
enter ignored directories; what lies below these is ignored itself, so nothing is missed.

The directories that were seen never keep the walk from a directory, as every directory has one path
only, and the walk never runs out of fuel, as every level lies in another directory
(`length_lt_dirCount`).
-/

namespace CodeSurvey.Files

/-! ## Names in a directory -/

namespace Tree

/-- The name of a path in a directory. -/
theorem childName_eq_some {p q : Path} {name : String} :
    (if q.length == p.length + 1 && p.isPrefixOf q then q.getLast? else none) = some name ↔
      q = p ++ [name] := by
  constructor
  · intro h
    split_ifs at h with hq
    simp only [Bool.and_eq_true, beq_iff_eq, List.isPrefixOf_iff_prefix] at hq
    obtain ⟨hlength, rest, rfl⟩ := hq
    obtain ⟨last, rfl⟩ : ∃ last, rest = [last] := by
      rw [List.length_append] at hlength
      exact List.length_eq_one_iff.1 (by omega)
    rw [List.getLast?_concat] at h
    rw [Option.some.inj h]
  · rintro rfl
    simp

/-- The names in a directory are those of the entries that lie in it. -/
theorem mem_names {t : Tree} {p : Path} {name : String} :
    name ∈ t.names p ↔ (t.entry? (p ++ [name])).isSome := by
  simp only [names, List.mem_mergeSort, List.mem_filterMap, childName_eq_some]
  rw [t.entry?_of_ne_nil (by simp), Option.isSome_map, List.find?_isSome]
  simp only [beq_iff_eq]

/-- The names in a directory are in strictly increasing order. -/
theorem pairwise_names {t : Tree} (h : (t.entries.map (·.1)).Nodup) (p : Path) :
    (t.names p).Pairwise (· < ·) := by
  have hsorted : (t.names p).Pairwise fun a b => decide (a ≤ b) = true := by
    unfold names
    refine List.pairwise_mergeSort ?_ ?_ _
    · intro a b c hab hbc
      exact decide_eq_true (String.le_trans (of_decide_eq_true hab) (of_decide_eq_true hbc))
    · intro a b
      rw [Bool.or_eq_true, decide_eq_true_eq, decide_eq_true_eq]
      exact String.le_total a b
  have hnodup : (t.names p).Nodup := by
    -- Two entries of one name would have one path.
    have hpaths : t.entries.filterMap (fun x =>
        if x.1.length == p.length + 1 && p.isPrefixOf x.1 then x.1.getLast? else none) =
        (t.entries.map (·.1)).filterMap fun q =>
          if q.length == p.length + 1 && p.isPrefixOf q then q.getLast? else none := by
      rw [List.filterMap_map]
      rfl
    rw [names, List.nodup_mergeSort, hpaths]
    refine h.filterMap fun q q' name hq hq' => ?_
    rw [childName_eq_some.1 hq, childName_eq_some.1 hq']
  refine (hsorted.and hnodup).imp ?_
  rintro a b ⟨hle, hne⟩
  exact lt_of_le_of_ne (of_decide_eq_true hle) hne

/-- A directory lies below fewer directories than there are. -/
theorem length_lt_dirCount {t : Tree} (hs : t.Sound) {top ps : Path}
    (h : t.entry? (top ++ ps) = some .dir) : ps.length < t.dirCount := by
  -- The directories on the way from `top`, which are all different.
  have hnodup : ((List.range ps.length).map fun i => top ++ ps.take (i + 1)).Nodup := by
    refine List.Nodup.map_on (fun i hi j hj hij => ?_) List.nodup_range
    have := congrArg List.length (List.append_cancel_left hij)
    rw [List.mem_range] at hi hj
    rw [List.length_take, List.length_take] at this
    omega
  obtain ⟨isDir, hcount, hisDir⟩ : ∃ isDir : Path × Entry → Bool,
      t.dirCount = (t.entries.filter isDir).length + 1 ∧ ∀ q, isDir (q, .dir) = true :=
    ⟨_, rfl, fun _ => rfl⟩
  have hsubset : ((List.range ps.length).map fun i => top ++ ps.take (i + 1)) ⊆
      (t.entries.filter isDir).map (·.1) := by
    intro q hq
    obtain ⟨i, hi, rfl⟩ := List.mem_map.1 hq
    rw [List.mem_range] at hi
    have hdir : t.entry? (top ++ ps.take (i + 1)) = some .dir := by
      rcases eq_or_ne (ps.drop (i + 1)) [] with hnil | hne
      · rw [← List.take_append_drop (i + 1) ps, hnil, List.append_nil] at h
        exact h
      · refine hs.of_append hne ?_
        rw [List.append_assoc, List.take_append_drop, h]
        rfl
    have hne : top ++ ps.take (i + 1) ≠ [] := by
      intro hnil
      have := congrArg List.length hnil
      rw [List.length_append, List.length_take, List.length_nil] at this
      omega
    exact List.mem_map.2 ⟨_, List.mem_filter.2 ⟨mem_entries hne hdir, hisDir _⟩, rfl⟩
  have hle := (List.subperm_of_subset hnodup hsubset).length_le
  rw [List.length_map, List.length_map, List.length_range] at hle
  rw [hcount]
  exact Nat.lt_succ_of_le hle

end Tree

/-! ## Workspaces without links -/

/-- A name that a file may have. -/
structure IsName (name : String) : Prop where
  ne_empty : name ≠ ""
  noSlash : '/' ∉ name.toList
  ne_parent : name ≠ ".."

/-- A workspace that is the directory `top` of a tree, without links in it. -/
structure Workspace.Plain (w : Workspace) (top : Path) : Prop where
  /-- Every entry lies in a directory. -/
  sound : w.tree.Sound
  /-- No path has two entries. -/
  once : (w.tree.entries.map (·.1)).Nodup
  leads : w.tree.at? w.root = .ok (top, .dir)
  names : ∀ ps, (w.tree.entry? (top ++ ps)).isSome → ∀ name ∈ ps, IsName name
  noLink : ∀ ps target, w.tree.entry? (top ++ ps) ≠ some (.link target)

namespace Workspace

variable {w : Workspace} {top : Path} {limits : WalkLimits} {m : Ignore.Matcher}

namespace Plain

/-- There is a route to whatever stands in the workspace. -/
theorem route (hw : w.Plain top) {ps : Path} {e : Entry}
    (he : w.tree.entry? (top ++ ps) = some e) : w.tree.Route w.root top ps where
  sound := hw.sound
  leads := hw.leads
  plain := fun hup => (hw.names ps (by rw [he]; rfl) _ hup).ne_parent rfl
  noLink := fun qs target _ => hw.noLink qs target

/-- What stands at a path in the workspace is where the path leads. -/
theorem at?_locate (hw : w.Plain top) {ps : Path} {e : Entry}
    (he : w.tree.entry? (top ++ ps) = some e) : w.tree.at? (w.locate ps) = .ok (top ++ ps, e) := by
  unfold locate
  rcases eq_or_ne ps [] with rfl | hne
  · rw [List.append_nil] at he ⊢
    obtain rfl := Option.some.inj ((Tree.at?_eq_dir.1 hw.leads).2.symm.trans he)
    rw [List.append_nil, hw.leads]
  · exact (hw.route he).at?_of_entry hne he

/-- A path leads to a directory if one stands there. -/
theorem isDir_eq (hw : w.Plain top) {ps : Path} {e : Entry}
    (he : w.tree.entry? (top ++ ps) = some e) : w.isDir ps = e.isDir := by
  rw [isDir, Tree.isDir, hw.at?_locate he]
  cases e <;> rfl

/-- No path in the workspace is a link. -/
theorem isLink_eq_false (hw : w.Plain top) {ps : Path} {e : Entry} (hne : ps ≠ [])
    (he : w.tree.entry? (top ++ ps) = some e) : w.tree.isLink (w.locate ps) = false := by
  have hlocate : w.tree.locate (w.locate ps) = .ok (top ++ ps) :=
    (hw.route he).resolveOver_of_entry hne he .asIs
  simp only [Tree.isLink, hlocate, he]
  cases e with
  | link target => exact absurd he (hw.noLink ps target)
  | _ => rfl

end Plain

/-! ## The order of paths -/

/-- The paths below a name come before those below a greater name of the same directory. -/
theorem lt_of_name_lt {ps p q : Path} {name name' : String} (hlt : name < name')
    (hp : ps ++ [name] <+: p) (hq : ps ++ [name'] <+: q) : p < q := by
  obtain ⟨x, rfl⟩ := hp
  obtain ⟨y, rfl⟩ := hq
  rw [List.append_assoc, List.append_assoc]
  exact List.append_left_lt (List.cons_lt_cons_iff.2 (.inl hlt))

/-- A directory comes before what lies below it. -/
theorem lt_of_below {p q : Path} (hp : p <+: q) (hne : q ≠ p) : p < q := by
  obtain ⟨x, rfl⟩ := hp
  cases x with
  | nil => exact absurd (List.append_nil p) hne
  | cons name x =>
    have h : p ++ [] < p ++ name :: x := List.append_left_lt (List.nil_lt_cons name x)
    rwa [List.append_nil] at h

/-! ## What is to be listed -/

/-- An entry that the walk is to list: something stands at its path, and it is neither ignored nor
too deep. -/
structure Lists (w : Workspace) (top : Path) (limits : WalkLimits) (m : Ignore.Matcher)
    (e : WalkEntry) : Prop where
  below : e.parts ≠ []
  depth : e.depth = e.parts.length
  limit : (e.depth : Int) ≤ limits.maxDepth
  kept : m.ignoresParts e.parts e.isDir = false
  entry : ∃ x, w.tree.entry? (top ++ e.parts) = some x ∧ e.isDir = x.isDir

/-- Nothing is to be listed below what is ignored. -/
theorem Lists.not_prefix (hw : w.Plain top) {e : WalkEntry} (he : w.Lists top limits m e) {p : Path}
    {x : Entry} (hp : w.tree.entry? (top ++ p) = some x) (hnil : p ≠ [])
    (hignored : m.ignoresParts p x.isDir) : ¬ p <+: e.parts := by
  intro hstart
  have hkept := he.kept
  obtain ⟨y, hy, hdir⟩ := he.entry
  by_cases hne : p = e.parts
  · subst hne
    obtain rfl := Option.some.inj (hp.symm.trans hy)
    rw [hdir, hignored] at hkept
    cases hkept
  · -- Something lies below, so it is a directory.
    obtain ⟨rest, hrest⟩ := hstart
    have hrestNe : rest ≠ [] := by
      rintro rfl
      exact hne (by simpa using hrest)
    have hpdir : w.tree.entry? (top ++ p) = some .dir := by
      refine hw.sound.of_append hrestNe ?_
      rw [List.append_assoc, hrest, hy]
      rfl
    obtain rfl := Option.some.inj (hp.symm.trans hpdir)
    rw [m.ignoresParts_of_prefix hnil ⟨rest, hrest⟩ hne hignored] at hkept
    cases hkept

/-- Nothing is to be listed below a directory that is too deep to be entered. -/
theorem Lists.not_below {e : WalkEntry} (he : w.Lists top limits m e) {p : Path}
    (hdeep : limits.maxDepth ≤ p.length) : ¬ (p <+: e.parts ∧ e.parts ≠ p) := by
  rintro ⟨hstart, hne⟩
  have hlt : p.length < e.parts.length :=
    Nat.lt_of_le_of_ne hstart.length_le fun heq => hne (hstart.eq_of_length heq).symm
  have hdepth := he.depth
  have hlimit := he.limit
  omega

/-- What a part of the walk gives, where `seen` are the directories seen before: the entries whose
paths are in `In`, in increasing order, and no other directories than these are seen. -/
structure Walks (w : Workspace) (top : Path) (limits : WalkLimits) (m : Ignore.Matcher)
    (In : Path → Prop) (seen : List Path) (r : List WalkEntry × List Path) : Prop where
  mem : ∀ e, e ∈ r.1 ↔ w.Lists top limits m e ∧ In e.parts
  sorted : r.1.Pairwise fun a b => a.parts < b.parts
  seen : ∀ q ∈ r.2, q ∈ seen ∨ ∃ p, In p ∧ q = top ++ p

namespace Walks

variable {In In' : Path → Prop} {seen seen' : List Path} {r r' : List WalkEntry × List Path}

/-- Nothing is listed where nothing is to be listed. -/
theorem nothing (h : ∀ e, w.Lists top limits m e → ¬ In e.parts) :
    w.Walks top limits m In seen ([], seen) where
  mem := fun e => ⟨by simp, fun he => absurd he.2 (h e he.1)⟩
  sorted := .nil
  seen := fun _ hq => .inl hq

/-- One entry is listed. -/
theorem single {e : WalkEntry} (he : w.Lists top limits m e)
    (hseen : ∀ q ∈ seen', q ∈ seen ∨ q = top ++ e.parts) :
    w.Walks top limits m (· = e.parts) seen ([e], seen') where
  mem := by
    intro e'
    rw [List.mem_singleton]
    constructor
    · rintro rfl
      exact ⟨he, rfl⟩
    · -- The path of an entry tells all of it.
      rintro ⟨he', hparts⟩
      obtain ⟨x, hx, hdir⟩ := he.entry
      obtain ⟨x', hx', hdir'⟩ := he'.entry
      rw [hparts, hx] at hx'
      obtain rfl := Option.some.inj hx'
      rcases e with ⟨parts, isDir, depth⟩
      rcases e' with ⟨parts', isDir', depth'⟩
      obtain rfl : parts' = parts := hparts
      obtain rfl : isDir' = isDir := hdir'.trans hdir.symm
      obtain rfl : depth' = depth := he'.depth.trans he.depth.symm
      rfl
  sorted := List.pairwise_singleton _ _
  seen := fun q hq => (hseen q hq).imp_right fun h => ⟨e.parts, rfl, h⟩

/-- Two parts of the walk one after the other. -/
theorem append (h : w.Walks top limits m In seen r) (h' : w.Walks top limits m In' r.2 r')
    (hlt : ∀ p p', In p → In' p' → p < p') :
    w.Walks top limits m (fun p => In p ∨ In' p) seen (r.1 ++ r'.1, r'.2) where
  mem := by
    intro e
    rw [List.mem_append, h.mem, h'.mem, and_or_left]
  sorted := by
    refine List.pairwise_append.2 ⟨h.sorted, h'.sorted, fun a ha b hb => ?_⟩
    exact hlt _ _ ((h.mem a).1 ha).2 ((h'.mem b).1 hb).2
  seen := by
    intro q hq
    rcases h'.seen q hq with hq | ⟨p, hp, rfl⟩
    · exact (h.seen q hq).imp_right fun ⟨p, hp, hq⟩ => ⟨p, .inl hp, hq⟩
    · exact .inr ⟨p, .inr hp, rfl⟩

/-- The same paths may be told in another way. -/
theorem mono (h : w.Walks top limits m In seen r) (hsub : ∀ p, In p → In' p)
    (hmore : ∀ e, w.Lists top limits m e → In' e.parts → In e.parts) :
    w.Walks top limits m In' seen r where
  mem := fun e => ⟨fun he => ((h.mem e).1 he).imp_right (hsub _),
    fun he => (h.mem e).2 ⟨he.1, hmore e he.1 he.2⟩⟩
  sorted := h.sorted
  seen := fun q hq => (h.seen q hq).imp_right fun ⟨p, hp, hq⟩ => ⟨p, hsub p hp, hq⟩

/-- A file is listed, and nothing below it. -/
theorem file (hw : w.Plain top) {e : WalkEntry} {content : ByteArray}
    (he : w.Lists top limits m e)
    (hfile : w.tree.entry? (top ++ e.parts) = some (.file content)) :
    w.Walks top limits m (e.parts <+: ·) seen ([e], seen) := by
  refine (single he fun q hq => .inl hq).mono ?_ ?_
  · rintro p rfl
    exact List.prefix_refl _
  · rintro e' he' ⟨rest, hrest⟩
    obtain ⟨x, hx, -⟩ := he'.entry
    rcases eq_or_ne rest [] with rfl | hne
    · simpa using hrest.symm
    · rw [← hrest, ← List.append_assoc, hw.sound.entry?_append hne (by rw [hfile]; simp)] at hx
      cases hx

/-- A directory is listed, and then what is listed below it. -/
theorem directory {e : WalkEntry} (he : w.Lists top limits m e)
    (h : w.Walks top limits m (fun p => e.parts <+: p ∧ p ≠ e.parts)
      ((top ++ e.parts) :: seen) r) :
    w.Walks top limits m (e.parts <+: ·) seen (e :: r.1, r.2) := by
  have hseen : ∀ q ∈ (top ++ e.parts) :: seen, q ∈ seen ∨ q = top ++ e.parts :=
    fun q hq => (List.mem_cons.1 hq).symm
  refine ((single he hseen).append h ?_).mono ?_ ?_
  · rintro p q rfl ⟨hq, hne⟩
    exact lt_of_below hq hne
  · rintro p (rfl | hp)
    · exact List.prefix_refl _
    · exact hp.1
  · intro e' _ hp
    by_cases heq : e'.parts = e.parts
    · exact .inl heq
    · exact .inr ⟨hp, heq⟩

/-- What is listed at a name is followed by what is listed at greater names of the directory. -/
theorem cons {ps : Path} {name : String} {names : List String}
    (h : w.Walks top limits m (ps ++ [name] <+: ·) seen r)
    (h' : w.Walks top limits m (fun p => ∃ n ∈ names, ps ++ [n] <+: p) r.2 r')
    (hlt : ∀ n ∈ names, name < n) :
    w.Walks top limits m (fun p => ∃ n ∈ name :: names, ps ++ [n] <+: p) seen
      (r.1 ++ r'.1, r'.2) := by
  refine (h.append h' ?_).mono ?_ ?_
  · rintro p q hp ⟨n, hn, hq⟩
    exact lt_of_name_lt (hlt n hn) hp hq
  · rintro p (hp | ⟨n, hn, hp⟩)
    · exact ⟨name, List.mem_cons_self, hp⟩
    · exact ⟨n, List.mem_cons_of_mem _ hn, hp⟩
  · rintro e - ⟨n, hn, hp⟩
    rcases List.mem_cons.1 hn with rfl | hn
    · exact .inl hp
    · exact .inr ⟨n, hn, hp⟩

end Walks

/-! ## The walk -/

/-- What the walk gives below a directory that it comes to, if it gives this for directories that
are entered. -/
theorem walks_inner {p : Path} {seen : List Path} (enter : List Path → List WalkEntry × List Path)
    (hfresh : ∀ q, p <+: q → top ++ q ∉ seen)
    (henter : ∀ seen, (p.length : Int) < limits.maxDepth →
      (∀ q, p <+: q → q ≠ p → top ++ q ∉ seen) →
      w.Walks top limits m (fun q => p <+: q ∧ q ≠ p) seen (enter seen)) :
    w.Walks top limits m (fun q => p <+: q ∧ q ≠ p) ((top ++ p) :: seen)
      (if (p.length : Int) < limits.maxDepth then enter ((top ++ p) :: seen)
        else ([], (top ++ p) :: seen)) := by
  split_ifs with hdeep
  · refine henter _ hdeep fun q hq hne hin => ?_
    rcases List.mem_cons.1 hin with heq | hin
    · exact hne (List.append_cancel_left heq)
    · exact hfresh q hq hin
  · exact .nothing fun e he => he.not_below (by omega)

/-- What the walk gives for a name of a directory, and how it goes on with the names after it. -/
theorem exists_walks_name (hw : w.Plain top) {ps : Path} {name : String} (names : List String)
    {seen : List Path} {enter : Path → List Path → List WalkEntry × List Path}
    (hthere : (w.tree.entry? (top ++ (ps ++ [name]))).isSome)
    (hlimit : ((ps.length + 1 : Nat) : Int) ≤ limits.maxDepth)
    (hfresh : ∀ q, ps ++ [name] <+: q → top ++ q ∉ seen)
    (henter : ∀ seen, w.tree.entry? (top ++ (ps ++ [name])) = some .dir →
      ((ps.length + 1 : Nat) : Int) < limits.maxDepth →
      (∀ q, ps ++ [name] <+: q → q ≠ ps ++ [name] → top ++ q ∉ seen) →
      w.Walks top limits m (fun p => ps ++ [name] <+: p ∧ p ≠ ps ++ [name]) seen
        (enter (ps ++ [name]) seen)) :
    ∃ r, w.Walks top limits m (ps ++ [name] <+: ·) seen r ∧
      w.walkNames limits m (ps.length + 1) ps enter (name :: names) seen =
        (r.1 ++ (w.walkNames limits m (ps.length + 1) ps enter names r.2).1,
          (w.walkNames limits m (ps.length + 1) ps enter names r.2).2) := by
  obtain ⟨e, he⟩ := Option.isSome_iff_exists.1 hthere
  have hnil : ps ++ [name] ≠ [] := by simp
  have hlength : (ps ++ [name]).length = ps.length + 1 := by simp
  rw [walkNames]
  simp only [hw.isLink_eq_false hnil he, hw.isDir_eq he, hw.at?_locate he, Bool.and_false,
    Bool.false_eq_true, if_false]
  by_cases hignored : m.ignoresParts (ps ++ [name]) e.isDir = true
  · -- Nothing is listed at an ignored name or below it.
    rw [if_pos hignored]
    exact ⟨([], seen), .nothing fun e' he' => he'.not_prefix hw he hnil hignored, rfl⟩
  rw [if_neg hignored]
  have hlists : w.Lists top limits m ⟨ps ++ [name], e.isDir, ps.length + 1⟩ := {
    below := hnil
    depth := hlength.symm
    limit := hlimit
    kept := Bool.not_eq_true _ ▸ hignored
    entry := ⟨e, he, rfl⟩ }
  cases e with
  | link target => exact absurd he (hw.noLink _ target)
  | file content => exact ⟨([⟨ps ++ [name], false, ps.length + 1⟩], seen), .file hw hlists he, rfl⟩
  | dir =>
    -- The directory was not seen before, as all that was seen lies elsewhere.
    have hunseen : seen.contains (top ++ (ps ++ [name])) = false := by
      simpa using hfresh _ (List.prefix_refl _)
    simp only [Entry.isDir, Bool.not_true, Bool.false_eq_true, if_false, hunseen]
    have hinner := walks_inner (enter (ps ++ [name])) hfresh fun seen hdeep =>
      henter seen he (by rwa [hlength] at hdeep)
    rw [hlength] at hinner
    exact ⟨(⟨ps ++ [name], true, ps.length + 1⟩ :: _, _), .directory hlists hinner, rfl⟩

/-- What is seen at a name lies at no greater name of the directory. -/
theorem Walks.fresh_further {ps : Path} {name next : String} {seen : List Path}
    {r : List WalkEntry × List Path} (h : w.Walks top limits m (ps ++ [name] <+: ·) seen r)
    (hlt : name < next) (hfresh : ∀ q, ps ++ [next] <+: q → top ++ q ∉ seen) :
    ∀ q, ps ++ [next] <+: q → top ++ q ∉ r.2 := by
  intro q hq hin
  rcases h.seen _ hin with hin | ⟨p, hp, heq⟩
  · exact hfresh q hq hin
  · obtain rfl := List.append_cancel_left heq
    exact lt_irrefl q (lt_of_name_lt hlt hp hq)

/-- What the walk gives for the names of a directory, if it gives what lies below each of them. -/
theorem walkNames_spec (hw : w.Plain top) {ps : Path} {names : List String} {seen : List Path}
    {enter : Path → List Path → List WalkEntry × List Path}
    (hnames : names.Pairwise (· < ·))
    (hthere : ∀ name ∈ names, (w.tree.entry? (top ++ (ps ++ [name]))).isSome)
    (hlimit : ((ps.length + 1 : Nat) : Int) ≤ limits.maxDepth)
    (hfresh : ∀ name ∈ names, ∀ q, ps ++ [name] <+: q → top ++ q ∉ seen)
    (henter : ∀ name ∈ names, ∀ seen, w.tree.entry? (top ++ (ps ++ [name])) = some .dir →
      ((ps.length + 1 : Nat) : Int) < limits.maxDepth →
      (∀ q, ps ++ [name] <+: q → q ≠ ps ++ [name] → top ++ q ∉ seen) →
      w.Walks top limits m (fun p => ps ++ [name] <+: p ∧ p ≠ ps ++ [name]) seen
        (enter (ps ++ [name]) seen)) :
    w.Walks top limits m (fun p => ∃ name ∈ names, ps ++ [name] <+: p) seen
      (w.walkNames limits m (ps.length + 1) ps enter names seen) := by
  -- By the names, from the least one; what was seen before grows with what is listed.
  induction names generalizing seen with
  | nil => exact Walks.nothing fun e _ he => by simp at he
  | cons name names ih =>
    obtain ⟨hlt, hnames⟩ := List.pairwise_cons.1 hnames
    obtain ⟨hname, hthere⟩ := List.forall_mem_cons.1 hthere
    obtain ⟨hnameFresh, hfresh⟩ := List.forall_mem_cons.1 hfresh
    obtain ⟨hnameEnter, henter⟩ := List.forall_mem_cons.1 henter
    obtain ⟨r, hr, heq⟩ := exists_walks_name hw names hname hlimit hnameFresh hnameEnter
    have hrest := ih hnames hthere (fun n hn => hr.fresh_further (hlt n hn) (hfresh n hn)) henter
    rw [heq]
    exact hr.cons hrest hlt

/-- What the walk gives for a directory: what lies below it. -/
theorem walkFrom_spec (hw : w.Plain top) (fuel : Nat) (ps : Path) (seen : List Path)
    (hdir : w.tree.entry? (top ++ ps) = some .dir) (hfuel : w.tree.dirCount < fuel + ps.length)
    (hlimit : ((ps.length + 1 : Nat) : Int) ≤ limits.maxDepth)
    (hfresh : ∀ q, ps <+: q → q ≠ ps → top ++ q ∉ seen) :
    w.Walks top limits m (fun p => ps <+: p ∧ p ≠ ps) seen
      (w.walkFrom limits m fuel (ps.length + 1) ps seen) := by
  induction fuel generalizing ps seen with
  | zero =>
    -- No directory lies that deep.
    have := Tree.length_lt_dirCount hw.sound hdir
    omega
  | succ fuel ih =>
    have hbelow : ∀ {name : String} {p : Path}, ps ++ [name] <+: p → ps <+: p ∧ p ≠ ps := by
      intro name p hp
      refine ⟨(List.prefix_append _ _).trans hp, ?_⟩
      rintro rfl
      have := hp.length_le
      rw [List.length_append, List.length_singleton] at this
      omega
    have hthere : ∀ name, name ∈ w.tree.names (top ++ ps) ↔
        (w.tree.entry? (top ++ (ps ++ [name]))).isSome := by
      intro name
      rw [Tree.mem_names, List.append_assoc]
    rw [walkFrom, Tree.list, hw.at?_locate hdir]
    simp only
    refine (walkNames_spec hw (Tree.pairwise_names hw.once _)
      (fun name hname => (hthere name).1 hname) hlimit
      (fun name _ q hq => hfresh q (hbelow hq).1 (hbelow hq).2) ?_).mono ?_ ?_
    · intro name _ seen' hname hdeep hfresh'
      have hlength : (ps ++ [name]).length = ps.length + 1 := by simp
      have hinner := ih (ps ++ [name]) seen' hname (by omega) (by omega) hfresh'
      rwa [hlength] at hinner
    · rintro p ⟨name, -, hp⟩
      exact hbelow hp
    · -- What lies below the directory lies at one of its names or below it.
      rintro e he ⟨⟨rest, hrest⟩, hne⟩
      obtain ⟨x, hx, -⟩ := he.entry
      cases rest with
      | nil => exact absurd (by simpa using hrest.symm) hne
      | cons name rest =>
        rw [List.append_cons] at hrest
        refine ⟨name, (hthere name).2 ?_, ⟨rest, hrest⟩⟩
        rcases eq_or_ne rest [] with rfl | hrestNe
        · rw [List.append_nil] at hrest
          rw [hrest, hx]
          rfl
        · rw [hw.sound.of_append hrestNe (by rw [List.append_assoc, hrest, hx]; rfl)]
          rfl

/-- The walk lists exactly the entries of the workspace that are not too deep and not ignored by
themselves, each once, in increasing order of their paths part by part. -/
theorem walk_lists_kept_entries (hw : w.Plain top) (hdepth : 1 ≤ limits.maxDepth) :
    (∀ e, e ∈ w.walk limits m ↔ e.parts ≠ [] ∧ e.depth = e.parts.length ∧
      (e.depth : Int) ≤ limits.maxDepth ∧ m.ignores e.path e.isDir = false ∧
      ∃ x, w.tree.entry? (top ++ e.parts) = some x ∧ e.isDir = x.isDir) ∧
    (w.walk limits m).Nodup ∧ (w.walk limits m).Pairwise fun a b => a.parts < b.parts := by
  have hreal : w.real [] = top := by
    have hresolve : w.tree.resolve (w.locate []) = .ok top := by
      rw [locate, List.append_nil]
      exact (Tree.at?_eq_dir.1 hw.leads).1.resolveOver
    rw [real, hresolve]
  have hwalks : w.Walks top limits m (fun p => [] <+: p ∧ p ≠ []) [top]
      (w.walkFrom limits m (w.tree.dirCount + 1) 1 [] [top]) := by
    refine walkFrom_spec hw _ [] [top] ?_ (Nat.lt_succ_self _) hdepth fun q _ hne hin => ?_
    · rw [List.append_nil]
      exact (Tree.at?_eq_dir.1 hw.leads).2
    · exact hne (List.append_right_eq_self.1 (List.mem_singleton.1 hin))
  unfold walk
  rw [hreal]
  refine ⟨fun e => ?_, ?_, hwalks.sorted⟩
  · rw [hwalks.mem]
    -- The path of an entry as a text has its names as parts.
    have hpath : ∀ {x}, e.parts ≠ [] → w.tree.entry? (top ++ e.parts) = some x →
        m.ignores e.path e.isDir = m.ignoresParts e.parts e.isDir := by
      intro x hne hx
      refine m.ignores_pathText hne (fun p hp => ?_) _
      have hname := hw.names e.parts (by rw [hx]; rfl) p hp
      exact ⟨hname.ne_empty, hname.noSlash⟩
    constructor
    · rintro ⟨he, -⟩
      obtain ⟨x, hx, hdir⟩ := he.entry
      exact ⟨he.below, he.depth, he.limit, by rw [hpath he.below hx, he.kept], x, hx, hdir⟩
    · rintro ⟨hne, hdepth', hlimit, hkept, x, hx, hdir⟩
      rw [hpath hne hx] at hkept
      exact ⟨⟨hne, hdepth', hlimit, hkept, x, hx, hdir⟩, List.nil_prefix, hne⟩
  · refine hwalks.sorted.imp ?_
    rintro a b hlt rfl
    exact lt_irrefl _ hlt

/-- A workspace with a directory, a file in it and one beside it. -/
def ofThree : Workspace where
  tree := ⟨[(["ws"], .dir), (["ws", "b.txt"], .file ByteArray.empty), (["ws", "a"], .dir),
    (["ws", "a", "c.ts"], .file ByteArray.empty)]⟩
  root := ["ws"]
  unreadable := fun _ => false

/-- The walk of that workspace when one name is denied. -/
theorem walk_lists_kept_entries_of_three :
    ofThree.Plain ["ws"] ∧ (ofThree.walk ⟨20, false⟩ ⟨[], ["b.txt"]⟩).Nodup ∧
      (⟨["a", "c.ts"], false, 2⟩ : WalkEntry) ∈ ofThree.walk ⟨20, false⟩ ⟨[], ["b.txt"]⟩ := by
  have hw : ofThree.Plain ["ws"] := {
    sound := Tree.sound_of_entries (by decide)
    once := by decide
    leads := rfl
    names := by
      have hall : ∀ x ∈ ofThree.tree.entries, ∀ name ∈ x.1,
          name ≠ "" ∧ '/' ∉ name.toList ∧ name ≠ ".." := by decide
      intro ps hps name hname
      obtain ⟨e, he⟩ := Option.isSome_iff_exists.1 hps
      obtain ⟨h₁, h₂, h₃⟩ := hall _ (Tree.mem_entries (by simp) he) name (by simp [hname])
      exact ⟨h₁, h₂, h₃⟩
    noLink := by
      intro ps target hlink
      have hmem := Tree.mem_entries (by simp) hlink
      simp [ofThree] at hmem }
  -- The theorem says what is listed; that the file is kept is evaluated.
  have hwalk := walk_lists_kept_entries (m := ⟨[], ["b.txt"]⟩) hw
    (show 1 ≤ (⟨20, false⟩ : WalkLimits).maxDepth by decide)
  refine ⟨hw, hwalk.2.1, (hwalk.1 _).2 ⟨by simp, rfl, by decide, ?_, _, rfl, rfl⟩⟩
  decide +kernel

end Workspace

end CodeSurvey.Files
