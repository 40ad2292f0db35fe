import CodeSurvey.Directory.Outline
import Mathlib.Algebra.BigOperators.Group.List.Basic
import Mathlib.Algebra.GroupWithZero.Nat
import Mathlib.Data.List.Infix
import Mathlib.Data.List.Nodup
import Mathlib.Data.List.Perm.Subperm
import Mathlib.Data.String.Basic

/-!
# What an outline counts

The outline of entries that form a tree has as many files as there are entries that are no
directories (`fileCount_ofWalk`): every entry is reached from the root over directories that are
entries as well, and it is reached only once.

The files below a directory are counted child by child. A file belongs to the child that is the
first step of its path from there on (`IsTree.exists_child`), which is the file itself or a
directory above it.

The entries in preorder are those in a directory in the order of siblings, each followed by the
entries below it (`preorder`). These are all entries below the directory, each once
(`preorder_perm`), so the size of a directory is that of the files below it (`sizes_childrenOf`).
-/

namespace CodeSurvey.Directory

open CodeSurvey.Files

/-! ## Counting by keys -/

/-- The ones of the elements that satisfy a condition add up to their number. -/
theorem sum_map_ite_eq_countP {α : Type} (p : α → Bool) (xs : List α) :
    (xs.map fun x => if p x then 1 else 0).sum = xs.countP p := by
  induction xs with
  | nil => rfl
  | cons x xs ih => rw [List.map_cons, List.sum_cons, ih, List.countP_cons, Nat.add_comm]

/-- The elements that satisfy a condition are those of each key, if the keys are different ones and
each of these elements has one of them. -/
theorem countP_eq_sum_keys {α β κ : Type} [BEq κ] [LawfulBEq κ] {p : α → Bool} {key : α → κ}
    {keyOf : β → κ} {cs : List β} (honce : (cs.map keyOf).Nodup) {xs : List α}
    (hkeys : ∀ x ∈ xs, p x = true → key x ∈ cs.map keyOf) :
    xs.countP p = (cs.map fun c => xs.countP fun x => p x && keyOf c == key x).sum := by
  induction xs with
  | nil => simp
  | cons x xs ih =>
    obtain ⟨hx, hxs⟩ := List.forall_mem_cons.1 hkeys
    have hone : (if p x then 1 else 0) =
        (cs.map fun c => if p x && keyOf c == key x then 1 else 0).sum := by
      rw [sum_map_ite_eq_countP]
      by_cases hp : p x = true
      · have hcount : (cs.map keyOf).count (key x) = 1 := List.count_eq_one_of_mem honce (hx hp)
        rw [List.count, List.countP_map] at hcount
        simpa only [hp, Bool.true_and, if_true, Function.comp_def] using hcount.symm
      · simp [hp]
    simp only [List.countP_cons]
    rw [List.sum_map_add, ← ih hxs, ← hone]

/-! ## Entries that form a tree -/

/-- Entries that form a tree: each path has one entry, and each entry lies in the root or in a
directory that is an entry as well. -/
structure IsTree (entries : List WalkEntry) : Prop where
  once : (entries.map WalkEntry.parts).Nodup
  below : ∀ e ∈ entries, e.parts ≠ []
  listed : ∀ e ∈ entries, e.parent = [] ∨ ∃ d ∈ entries, d.isDir = true ∧ d.parts = e.parent

/-- A path above another is above the directory that this lies in, or is that directory. -/
theorem prefix_parent {e : WalkEntry} {p : Path} (hp : p <+: e.parts) (hne : p ≠ e.parts) :
    p <+: e.parent := by
  have hparts : e.parts ≠ [] := by
    intro hnil
    rw [hnil, List.prefix_nil] at hp
    exact hne (hp.trans hnil.symm)
  rw [← List.dropLast_append_getLast hparts, List.prefix_concat_iff,
    List.dropLast_append_getLast hparts] at hp
  exact hp.resolve_left hne

namespace IsTree

variable {entries : List WalkEntry} (h : IsTree entries)
include h

/-- The path of an entry has one name more than that of the directory that it lies in. -/
theorem length_parts {e : WalkEntry} (he : e ∈ entries) :
    e.parts.length = e.parent.length + 1 := by
  have hpos := List.length_pos_iff.2 (h.below e he)
  rw [WalkEntry.parent, List.length_dropLast]
  omega

/-- An entry is told by its path. -/
theorem eq_of_parts {e d : WalkEntry} (he : e ∈ entries) (hd : d ∈ entries)
    (heq : e.parts = d.parts) : e = d :=
  List.inj_on_of_nodup_map h.once he hd heq

/-- The directories above an entry are entries. -/
theorem exists_above {e : WalkEntry} (he : e ∈ entries) {p : Path} (hne : p ≠ [])
    (hp : p <+: e.parts) (hproper : p ≠ e.parts) :
    ∃ d ∈ entries, d.isDir = true ∧ d.parts = p := by
  -- Upwards, from the directory that the entry lies in.
  induction hlength : e.parts.length using Nat.strong_induction_on generalizing e with
  | h n ih =>
    have hparent := prefix_parent hp hproper
    rcases h.listed e he with hroot | ⟨d, hd, hdir, hparts⟩
    · rw [hroot, List.prefix_nil] at hparent
      exact absurd hparent hne
    · by_cases heq : p = d.parts
      · exact ⟨d, hd, hdir, heq.symm⟩
      · refine ih d.parts.length ?_ hd (hparts ▸ hparent) heq rfl
        have hlonger := h.length_parts he
        rw [hparts]
        omega

/-- The first step from a directory to an entry below it is an entry in this directory: the entry
itself or a directory. -/
theorem exists_child {e : WalkEntry} (he : e ∈ entries) {dir : Path} (hdir : dir <+: e.parent) :
    ∃ c ∈ entries, c.parent = dir ∧ c.parts = e.parts.take (dir.length + 1) ∧
      (c = e ∨ c.isDir = true) := by
  have hne := h.below e he
  have hlength : dir.length + 1 ≤ e.parts.length := by
    rw [h.length_parts he]
    exact Nat.succ_le_succ hdir.length_le
  have hfirst : (e.parts.take (dir.length + 1)).dropLast = dir := by
    have hpath : dir <+: e.parts := hdir.trans (List.dropLast_prefix _)
    rw [List.dropLast_eq_take, List.length_take, Nat.min_eq_left hlength, List.take_take,
      Nat.add_sub_cancel, Nat.min_eq_left (Nat.le_succ _)]
    exact (List.prefix_iff_eq_take.1 hpath).symm
  by_cases hself : e.parts.take (dir.length + 1) = e.parts
  · refine ⟨e, he, ?_, hself.symm, .inl rfl⟩
    rw [WalkEntry.parent, ← hself, hfirst]
  · have hstep : e.parts.take (dir.length + 1) ≠ [] := by simpa using hne
    obtain ⟨c, hc, hcdir, hparts⟩ := h.exists_above he hstep (List.take_prefix _ _) hself
    refine ⟨c, hc, ?_, hparts, .inr hcdir⟩
    rw [WalkEntry.parent, hparts, hfirst]

/-- No path is longer than there are entries. -/
theorem length_parts_le {e : WalkEntry} (he : e ∈ entries) : e.parts.length ≤ entries.length := by
  -- Each start of the path is that of an entry, and they are different ones.
  have hstarts : ∀ p ∈ (List.range e.parts.length).map fun i => e.parts.take (i + 1),
      p ∈ entries.map WalkEntry.parts := by
    intro p hp
    obtain ⟨i, hi, rfl⟩ := List.mem_map.1 hp
    by_cases hself : e.parts.take (i + 1) = e.parts
    · rw [hself]
      exact List.mem_map_of_mem he
    · have hstep : e.parts.take (i + 1) ≠ [] := by simpa using h.below e he
      obtain ⟨d, hd, -, hparts⟩ := h.exists_above he hstep (List.take_prefix _ _) hself
      exact hparts ▸ List.mem_map_of_mem hd
  have honce : ((List.range e.parts.length).map fun i => e.parts.take (i + 1)).Nodup := by
    refine List.Nodup.map_on ?_ List.nodup_range
    intro i hi j hj heq
    have hlengths := congrArg List.length heq
    rw [List.length_take, List.length_take] at hlengths
    have hi' := List.mem_range.1 hi
    have hj' := List.mem_range.1 hj
    omega
  have hle := (honce.subperm hstarts).length_le
  rwa [List.length_map, List.length_map, List.length_range] at hle

end IsTree

/-! ## Files below a directory -/

/-- Whether an entry is a file below a directory, at most `depth` steps from there. -/
def isFileBelow (depth : Nat) (dir : Path) (e : WalkEntry) : Bool :=
  !e.isDir && decide (dir <+: e.parent) && decide (e.parts.length ≤ dir.length + depth)

variable {entries : List WalkEntry} {sizeOf : Path → Nat}

/-- The files of siblings are those of each of them. -/
theorem fileCounts_eq_sum (cs : List Outline) :
    Outline.fileCount.fileCounts cs = (cs.map Outline.fileCount).sum := by
  induction cs with
  | nil => rfl
  | cons c cs ih => rw [Outline.fileCount.fileCounts, ih, List.map_cons, List.sum_cons]

/-- A file below a directory whose path goes on there with a file is that file. -/
theorem isFileBelow_file_iff (h : IsTree entries) (depth : Nat) {c e : WalkEntry}
    (hc : c ∈ entries) (he : e ∈ entries) (hfile : c.isDir = false) :
    isFileBelow (depth + 1) c.parent e = true ∧ c.parts = e.parts.take (c.parent.length + 1) ↔
      e.parts = c.parts := by
  constructor
  · rintro ⟨hbelow, hstep⟩
    simp only [isFileBelow, Bool.and_eq_true, decide_eq_true_eq] at hbelow
    -- The entry at the next step is the file, and a file has nothing below it.
    obtain ⟨c', hc', -, hparts, hself⟩ := h.exists_child he hbelow.1.2
    obtain rfl := h.eq_of_parts hc' hc (hparts.trans hstep.symm)
    rcases hself with rfl | hdir
    · rfl
    · exact absurd hdir (by simp [hfile])
  · intro heq
    obtain rfl := h.eq_of_parts he hc heq
    have hlength := h.length_parts he
    refine ⟨?_, ?_⟩
    · simp only [isFileBelow, hfile, Bool.not_false, Bool.true_and, Bool.and_eq_true,
        decide_eq_true_eq]
      exact ⟨List.prefix_refl _, by omega⟩
    · rw [← hlength, List.take_length]

/-- A file below a directory whose path goes on there with another directory is below that. -/
theorem isFileBelow_directory_iff (h : IsTree entries) (depth : Nat) {c e : WalkEntry}
    (hc : c ∈ entries) (he : e ∈ entries) (hdir : c.isDir = true) :
    isFileBelow (depth + 1) c.parent e = true ∧ c.parts = e.parts.take (c.parent.length + 1) ↔
      isFileBelow depth c.parts e = true := by
  have hlength := h.length_parts hc
  simp only [isFileBelow, Bool.and_eq_true, Bool.not_eq_true', decide_eq_true_eq]
  constructor
  · rintro ⟨⟨⟨hfile, -⟩, hdepth⟩, hstep⟩
    have hproper : c.parts ≠ e.parts := by
      intro heq
      rw [h.eq_of_parts hc he heq, hfile] at hdir
      cases hdir
    refine ⟨⟨hfile, prefix_parent (hstep ▸ List.take_prefix _ _) hproper⟩, by omega⟩
  · rintro ⟨⟨hfile, habove⟩, hdepth⟩
    have hparent : c.parent <+: e.parent := (List.dropLast_prefix _).trans habove
    refine ⟨⟨⟨hfile, hparent⟩, by omega⟩, ?_⟩
    rw [← hlength]
    exact List.prefix_iff_eq_take.1 (habove.trans (List.dropLast_prefix _))

/-- What is counted for a child is the file itself, or the files below the directory. -/
theorem countP_child (h : IsTree entries) (depth : Nat) {c : WalkEntry} (hc : c ∈ entries) :
    (entries.countP fun e => isFileBelow (depth + 1) c.parent e &&
      c.parts == e.parts.take (c.parent.length + 1)) =
    if c.isDir then entries.countP (isFileBelow depth c.parts) else 1 := by
  split_ifs with hdir
  · refine List.countP_congr fun e he => ?_
    rw [Bool.and_eq_true, beq_iff_eq]
    exact isFileBelow_directory_iff h depth hc he hdir
  · have hfile : c.isDir = false := by simpa using hdir
    calc entries.countP (fun e => isFileBelow (depth + 1) c.parent e &&
          c.parts == e.parts.take (c.parent.length + 1))
        = entries.countP (fun e => e.parts == c.parts) := by
          refine List.countP_congr fun e he => ?_
          rw [Bool.and_eq_true, beq_iff_eq, beq_iff_eq]
          exact isFileBelow_file_iff h depth hc he hfile
      _ = (entries.map WalkEntry.parts).count c.parts := by
          rw [List.count, List.countP_map]
          rfl
      _ = 1 := List.count_eq_one_of_mem h.once (List.mem_map_of_mem hc)

/-- The outline below a directory has the files below it. -/
theorem fileCounts_childrenOf (h : IsTree entries) (depth : Nat) (dir : Path) :
    Outline.fileCount.fileCounts (Outline.childrenOf entries sizeOf depth dir) =
      entries.countP (isFileBelow depth dir) := by
  -- By the steps that are left, where each directory is the first step to what lies below it.
  induction depth generalizing dir with
  | zero =>
    symm
    apply List.countP_eq_zero.2
    intro e he
    simp only [isFileBelow, Bool.and_eq_true, decide_eq_true_eq, not_and]
    intro hbelow hdepth
    have hle := hbelow.2.length_le
    have hlength := h.length_parts he
    omega
  | succ depth ih =>
    have honce : ((entries.filter (·.parent == dir)).map WalkEntry.parts).Nodup :=
      h.once.sublist (List.filter_sublist.map _)
    have hkeys : ∀ e ∈ entries, isFileBelow (depth + 1) dir e = true →
        e.parts.take (dir.length + 1) ∈
          (entries.filter (·.parent == dir)).map WalkEntry.parts := by
      intro e he hbelow
      simp only [isFileBelow, Bool.and_eq_true, decide_eq_true_eq] at hbelow
      obtain ⟨c, hc, hparent, hparts, -⟩ := h.exists_child he hbelow.1.2
      exact List.mem_map.2 ⟨c, List.mem_filter.2 ⟨hc, beq_iff_eq.2 hparent⟩, hparts⟩
    -- A file below is counted with the child that is the first step to it; how the children are
    -- sorted does not matter.
    rw [Outline.childrenOf, fileCounts_eq_sum, ((List.mergeSort_perm _ _).map _).sum_eq,
      List.map_map, countP_eq_sum_keys honce hkeys]
    congr 1
    refine List.map_congr_left fun c hc => ?_
    obtain ⟨hmem, hparent⟩ := List.mem_filter.1 hc
    rw [beq_iff_eq] at hparent
    subst hparent
    rw [countP_child h depth hmem, Function.comp_apply]
    split_ifs
    · rw [Outline.fileCount, ih]
    · rfl

/-- The outline of entries that form a tree has as many files as they are. -/
theorem fileCount_ofWalk (h : IsTree entries) (name : String) :
    (Outline.ofWalk name entries sizeOf).fileCount = entries.countP fun e => !e.isDir := by
  unfold Outline.ofWalk
  rw [Outline.fileCount, fileCounts_childrenOf h]
  refine List.countP_congr fun e he => ?_
  have hlength := h.length_parts_le he
  simp [isFileBelow, List.nil_prefix]
  omega

/-! ## The entries in preorder -/

variable {depth : Nat} {dir : Path}

/-- The order of siblings, strictly: directories come first, then names decide. -/
def Precedes (a b : Outline) : Prop :=
  (a.isDirectory = true ∧ b.isDirectory = false) ∨
    (a.isDirectory = b.isDirectory ∧ a.name < b.name)

/-- The order of siblings, for entries. -/
def entryBefore (e f : WalkEntry) : Bool :=
  if e.isDir == f.isDir then e.name ≤ f.name else e.isDir

/-- The entries in a directory in the order of siblings. -/
def entriesIn (entries : List WalkEntry) (dir : Path) : List WalkEntry :=
  (entries.filter (·.parent == dir)).mergeSort entryBefore

/-- The entries below a directory in preorder, down to a depth. -/
def preorder (entries : List WalkEntry) : Nat → Path → List WalkEntry
  | 0, _ => []
  | depth + 1, dir => (entriesIn entries dir).flatMap fun e =>
      e :: if e.isDir then preorder entries depth e.parts else []

/-- The node of an entry, down to a depth. -/
def nodeOf (entries : List WalkEntry) (sizeOf : Path → Nat) (depth : Nat) (e : WalkEntry) :
    Outline :=
  if e.isDir then .directory e.name (Outline.childrenOf entries sizeOf depth e.parts)
  else .file e.name (sizeOf e.parts)

/-- The node of an entry has its name. -/
theorem name_nodeOf (e : WalkEntry) : (nodeOf entries sizeOf depth e).name = e.name := by
  unfold nodeOf
  split_ifs <;> rfl

/-- It is a directory if the entry is one. -/
theorem isDirectory_nodeOf (e : WalkEntry) :
    (nodeOf entries sizeOf depth e).isDirectory = e.isDir := by
  unfold nodeOf
  split_ifs with hdir
  · exact hdir.symm
  · exact (Bool.eq_false_iff.2 hdir).symm

/-- What lies in a directory are the nodes of the entries in it. -/
theorem childrenOf_succ : Outline.childrenOf entries sizeOf (depth + 1) dir =
    (entriesIn entries dir).map (nodeOf entries sizeOf depth) := by
  have hbefore : ∀ e ∈ entries.filter (·.parent == dir),
      ∀ f ∈ entries.filter (·.parent == dir), entryBefore e f =
        (nodeOf entries sizeOf depth e).before (nodeOf entries sizeOf depth f) := by
    intro e _ f _
    simp only [Outline.before, isDirectory_nodeOf, name_nodeOf, entryBefore]
  rw [entriesIn, List.map_mergeSort hbefore, Outline.childrenOf]
  rfl

/-- The entries in a directory are those with the directory as their parent. -/
theorem mem_entriesIn {e : WalkEntry} :
    e ∈ entriesIn entries dir ↔ e ∈ entries ∧ e.parent = dir := by
  rw [entriesIn, List.mem_mergeSort, List.mem_filter, beq_iff_eq]

/-! ## Siblings -/

/-- The path of an entry is that of the directory it lies in, and its name. -/
theorem parts_eq_parent_append (h : IsTree entries) {e : WalkEntry} (he : e ∈ entries) :
    e.parts = e.parent ++ [e.name] := by
  rw [WalkEntry.parent, WalkEntry.name, List.getLast?_eq_getLast_of_ne_nil (h.below e he),
    Option.getD_some, List.dropLast_append_getLast]

/-- The entries in a directory are in order and have different names. -/
theorem pairwise_entriesIn (h : IsTree entries) (dir : Path) :
    (entriesIn entries dir).Pairwise fun e f => entryBefore e f = true ∧ e.name ≠ f.name := by
  have hsorted : (entriesIn entries dir).Pairwise fun e f => entryBefore e f = true := by
    refine List.pairwise_mergeSort (fun e f g => ?_) (fun e f => ?_) _
    · cases he : e.isDir <;> cases hf : f.isDir <;> cases hg : g.isDir <;>
        simp only [entryBefore, he, hf, hg] <;> simp
      all_goals exact le_trans
    · cases he : e.isDir <;> cases hf : f.isDir <;> simp only [entryBefore, he, hf] <;> simp
      all_goals exact le_total _ _
  have honce : ((entriesIn entries dir).map WalkEntry.parts).Nodup := by
    rw [entriesIn, ((List.mergeSort_perm _ _).map WalkEntry.parts).nodup_iff]
    exact h.once.sublist (List.filter_sublist.map _)
  have hparts := List.pairwise_map.1 honce
  refine (hsorted.and hparts).imp_of_mem fun he hf hboth => ⟨hboth.1, fun hname => hboth.2 ?_⟩
  obtain ⟨he, heparent⟩ := mem_entriesIn.1 he
  obtain ⟨hf, hfparent⟩ := mem_entriesIn.1 hf
  rw [parts_eq_parent_append h he, parts_eq_parent_append h hf, heparent, hfparent, hname]

/-- Siblings are in their order, and no two of them are the same. -/
theorem pairwise_childrenOf (h : IsTree entries) (depth : Nat) (dir : Path) :
    (Outline.childrenOf entries sizeOf depth dir).Pairwise Precedes := by
  cases depth with
  | zero => exact List.Pairwise.nil
  | succ depth =>
    rw [childrenOf_succ, List.pairwise_map]
    refine (pairwise_entriesIn h dir).imp fun {e f} hboth => ?_
    obtain ⟨hbefore, hname⟩ := hboth
    simp only [Precedes, isDirectory_nodeOf, name_nodeOf]
    unfold entryBefore at hbefore
    split_ifs at hbefore with hdirs
    · exact .inr ⟨beq_iff_eq.1 hdirs, lt_of_le_of_ne (of_decide_eq_true hbefore) hname⟩
    · rw [hbefore] at hdirs
      exact .inl ⟨hbefore, by simpa using hdirs⟩

/-! ## All entries below a directory -/

/-- What follows an entry in preorder lies below it. -/
theorem prefix_of_mem {c e : WalkEntry} {below : List WalkEntry}
    (hbelow : ∀ e ∈ below, c.parts <+: e.parent) (he : e ∈ c :: below) : c.parts <+: e.parts := by
  rcases List.mem_cons.1 he with rfl | he
  · exact List.prefix_refl _
  · exact (hbelow e he).trans (List.dropLast_prefix _)

/-- In the preorder below a directory are the entries on paths through it, as deep as it goes. -/
theorem mem_preorder (h : IsTree entries) {e : WalkEntry} :
    e ∈ preorder entries depth dir ↔
      e ∈ entries ∧ dir <+: e.parent ∧ e.parts.length ≤ dir.length + depth := by
  induction depth generalizing dir with
  | zero =>
    refine iff_of_false List.not_mem_nil ?_
    rintro ⟨he, hdir, hlength⟩
    have hparent := hdir.length_le
    have hparts := h.length_parts he
    omega
  | succ depth ih =>
    simp only [preorder, List.mem_flatMap, List.mem_cons, mem_entriesIn]
    constructor
    · rintro ⟨c, ⟨hc, rfl⟩, rfl | hbelow⟩
      · have hparts := h.length_parts hc
        exact ⟨hc, List.prefix_refl _, by omega⟩
      · split_ifs at hbelow
        · obtain ⟨he, hdir, hlength⟩ := ih.1 hbelow
          have hparts := h.length_parts hc
          exact ⟨he, (List.dropLast_prefix _).trans hdir, by omega⟩
        · cases hbelow
    · rintro ⟨he, hdir, hlength⟩
      -- The way to the entry goes through one child of the directory, which is the entry or lies
      -- above it.
      obtain ⟨c, hc, rfl, hstep, hkind⟩ := h.exists_child he hdir
      refine ⟨c, ⟨hc, rfl⟩, ?_⟩
      by_cases hself : e = c
      · exact .inl hself
      · have hcdir := hkind.resolve_left (Ne.symm hself)
        have hproper : c.parts ≠ e.parts := fun heq => hself (h.eq_of_parts he hc heq.symm)
        have habove : c.parts <+: e.parent := prefix_parent (hstep ▸ List.take_prefix _ _) hproper
        have hparts := h.length_parts hc
        rw [if_pos hcdir]
        exact .inr (ih.2 ⟨he, habove, by omega⟩)

/-- No entry is in the preorder twice. -/
theorem nodup_preorder (h : IsTree entries) : (preorder entries depth dir).Nodup := by
  induction depth generalizing dir with
  | zero => exact List.nodup_nil
  | succ depth ih =>
    have hbelow (c : WalkEntry) :
        ∀ e ∈ (if c.isDir then preorder entries depth c.parts else []), c.parts <+: e.parent := by
      intro e he
      split_ifs at he
      · exact ((mem_preorder h).1 he).2.1
      · cases he
    rw [preorder, List.nodup_flatMap]
    constructor
    · intro c hc
      obtain ⟨hc, -⟩ := mem_entriesIn.1 hc
      refine List.nodup_cons.2 ⟨fun hmem => ?_, ?_⟩
      · -- No entry lies below itself.
        have hle := (hbelow c c hmem).length_le
        have hparts := h.length_parts hc
        omega
      · split_ifs
        · exact ih
        · exact List.nodup_nil
    · -- What lies below two siblings has different paths, since theirs are different.
      refine (pairwise_entriesIn h dir).imp_of_mem fun {c d} hc hd hboth e hec hed => hboth.2 ?_
      obtain ⟨hc, hcparent⟩ := mem_entriesIn.1 hc
      obtain ⟨hd, hdparent⟩ := mem_entriesIn.1 hd
      have hlengths : c.parts.length = d.parts.length := by
        rw [h.length_parts hc, h.length_parts hd, hcparent, hdparent]
      have hprefix := (prefix_of_mem (hbelow c) hec)
      have hparts : c.parts = d.parts :=
        (List.prefix_of_prefix_length_le hprefix (prefix_of_mem (hbelow d) hed)
          hlengths.le).eq_of_length hlengths
      rw [h.eq_of_parts hc hd hparts]

/-- Far enough down these are all entries below the directory. -/
theorem preorder_perm (h : IsTree entries) (hdepth : entries.length ≤ dir.length + depth) :
    (preorder entries depth dir).Perm (entries.filter fun e => decide (dir <+: e.parent)) := by
  have hentries : entries.Nodup := h.once.of_map _
  rw [List.perm_ext_iff_of_nodup (nodup_preorder h) (hentries.filter _)]
  intro e
  rw [mem_preorder h, List.mem_filter, decide_eq_true_eq]
  refine and_congr_right fun he => and_iff_left ?_
  have hlength := h.length_parts_le he
  omega

/-! ## Sizes and counts -/

/-- The size of siblings is that of the files among the entries, as they are in preorder. -/
theorem sizes_preorder (depth : Nat) (dir : Path) :
    Outline.size.sizes (Outline.childrenOf entries sizeOf depth dir) =
      (((preorder entries depth dir).filter (!·.isDir)).map fun e => sizeOf e.parts).sum := by
  induction depth generalizing dir with
  | zero => rfl
  | succ depth ih =>
    rw [childrenOf_succ, preorder]
    -- One sibling after the other.
    generalize entriesIn entries dir = siblings
    induction siblings with
    | nil => rfl
    | cons c rest ihrest =>
      rw [List.map_cons, Outline.size.sizes, ihrest, List.flatMap_cons, List.filter_append,
        List.map_append, List.sum_append]
      congr 1
      by_cases hdir : c.isDir = true
      · rw [nodeOf, if_pos hdir, if_pos hdir, Outline.size, ih,
          List.filter_cons_of_neg (by simp [hdir])]
      · rw [nodeOf, if_neg hdir, if_neg hdir, Outline.size,
          List.filter_cons_of_pos (by simp [hdir])]
        simp

/-- The files below a directory. -/
def filesBelow (entries : List WalkEntry) (dir : Path) : List WalkEntry :=
  entries.filter fun e => !e.isDir && decide (dir <+: e.parent)

/-- The children of a directory are together as large as the files below it. -/
theorem sizes_childrenOf (h : IsTree entries) (hdepth : entries.length ≤ dir.length + depth) :
    Outline.size.sizes (Outline.childrenOf entries sizeOf depth dir) =
      ((filesBelow entries dir).map fun e => sizeOf e.parts).sum := by
  have hperm := (preorder_perm h hdepth).filter (!·.isDir)
  rw [List.filter_filter] at hperm
  rw [sizes_preorder, (hperm.map _).sum_eq]
  rfl

/-- There are as many files in them as below the directory. -/
theorem fileCounts_childrenOf_eq (h : IsTree entries)
    (hdepth : entries.length ≤ dir.length + depth) :
    Outline.fileCount.fileCounts (Outline.childrenOf entries sizeOf depth dir) =
      (filesBelow entries dir).length := by
  rw [fileCounts_childrenOf h, filesBelow, ← List.countP_eq_length_filter]
  refine List.countP_congr fun e he => ?_
  have hlength := h.length_parts_le he
  simp only [isFileBelow, Bool.and_eq_true, decide_eq_true_eq, and_iff_left_iff_imp]
  omega

end CodeSurvey.Directory
