import CodeSurvey.Proofs.Glob.Match
import CodeSurvey.Proofs.Glob.Refusal
import Mathlib.Tactic.SplitIfs

/-!
# Patterns of plain segments

A pattern of plain segments is compiled to the parts of these segments (`compile_plain`), and below
any directories to the same parts after one for the directories (`compile_anywhere`).
-/

namespace CodeSurvey.Glob

open CodeSurvey

/-! ## Plain segments -/

/-- The characters of plain segments: letters, digits, some signs, and the two wildcards. -/
def isPlain (c : Char) : Bool := c.isAlphanum || ['.', '_', '-', '*', '?'].contains c

/-- A plain segment: some plain characters, and not the two stars that stand for directories. -/
structure IsPlainSegment (seg : List Char) : Prop where
  ne_nil : seg ≠ []
  ne_anyDirs : seg ≠ anyDirs
  plain : ∀ c ∈ seg, isPlain c = true

instance (seg : List Char) : Decidable (IsPlainSegment seg) :=
  decidable_of_iff (seg ≠ [] ∧ seg ≠ anyDirs ∧ seg.all isPlain = true)
    ⟨fun ⟨hne, hany, hplain⟩ => ⟨hne, hany, List.all_eq_true.1 hplain⟩,
      fun ⟨hne, hany, hplain⟩ => ⟨hne, hany, List.all_eq_true.2 hplain⟩⟩

/-- Plain characters lie between the star and the letter z. -/
theorem toNat_of_isPlain {c : Char} (h : isPlain c = true) : 42 ≤ c.toNat ∧ c.toNat ≤ 122 := by
  rcases Bool.or_eq_true_iff.1 h with h | h
  · rcases Bool.or_eq_true_iff.1 h with h | hdigit
    · rcases Bool.or_eq_true_iff.1 h with hupper | hlower
      · have hrange : 65 ≤ c.toNat ∧ c.toNat ≤ 90 := of_decide_eq_true hupper
        omega
      · have hrange := Bool.and_eq_true_iff.1 hlower
        have hlow : 97 ≤ c.toNat := of_decide_eq_true hrange.1
        have hhigh : c.toNat ≤ 122 := of_decide_eq_true hrange.2
        omega
    · have hrange := Bool.and_eq_true_iff.1 hdigit
      have hlow : 48 ≤ c.toNat := of_decide_eq_true hrange.1
      have hhigh : c.toNat ≤ 57 := of_decide_eq_true hrange.2
      omega
  · have hsigns : ∀ d ∈ ['.', '_', '-', '*', '?'], 42 ≤ d.toNat ∧ d.toNat ≤ 122 := by simp
    exact hsigns c (List.contains_iff_mem.1 h)

/-- They are no white space. -/
theorem isBlank_of_isPlain {c : Char} (h : isPlain c = true) : Text.isBlank c = false := by
  obtain ⟨hlow, hhigh⟩ := toNat_of_isPlain h
  simp only [Text.isBlank, Bool.or_eq_false_iff, Bool.and_eq_false_iff, decide_eq_false_iff_not,
    beq_eq_false_iff_ne]
  omega

/-- They do not end a line. -/
theorem isLineEnd_of_isPlain {c : Char} (h : isPlain c = true) : Text.isLineEnd c = false := by
  obtain ⟨hlow, hhigh⟩ := toNat_of_isPlain h
  simp only [Text.isLineEnd, Bool.or_eq_false_iff, Bool.and_eq_false_iff, decide_eq_false_iff_not,
    beq_eq_false_iff_ne]
  omega

/-- They are no other characters. -/
theorem ne_of_isPlain {c d : Char} (hc : isPlain c = true) (hd : isPlain d = false) : c ≠ d := by
  rintro rfl
  cases hd.symm.trans hc

variable {seg : List Char} {segs : List (List Char)}

/-- There is no slash in a plain segment. -/
theorem IsPlainSegment.unslashed (h : IsPlainSegment seg) : Unslashed seg :=
  fun c hc => ne_of_isPlain (h.plain c hc) (by decide)

/-- Nor does a class of characters begin in it. -/
theorem IsPlainSegment.bracket_notMem (h : IsPlainSegment seg) : '[' ∉ seg :=
  fun hc => ne_of_isPlain (h.plain '[' hc) (by decide) rfl

/-- The parts of a plain segment are those of its characters. -/
theorem segmentPartsFrom_plain {fuel : Nat} {cs : List Char} (hfuel : cs.length ≤ fuel)
    (h : ∀ c ∈ cs, isPlain c = true) : segmentPartsFrom fuel cs = .ok (cs.map partOf) := by
  have hbackslash : isPlain '\\' = false := by decide
  have hbracket : isPlain '[' = false := by decide
  fun_induction segmentPartsFrom fuel cs with
  | case1 cs =>
    rw [List.length_eq_zero_iff.1 (Nat.le_zero.1 hfuel)]
    rfl
  | case2 => rfl
  | case3 | case4 => cases hbackslash.symm.trans (h '\\' List.mem_cons_self)
  | case5 fuel rest ih | case6 fuel rest ih =>
    rw [ih (Nat.le_of_succ_le_succ hfuel) (List.forall_mem_cons.1 h).2]
    rfl
  | case7 | case8 => cases hbracket.symm.trans (h '[' List.mem_cons_self)
  | case9 fuel c rest _ _ hstar hone _ ih =>
    have hpart : partOf c = .char c := by
      rw [partOf, if_neg hstar, if_neg hone]
    rw [ih (Nat.le_of_succ_le_succ hfuel) (List.forall_mem_cons.1 h).2, List.map_cons, hpart]
    rfl

/-- The parts of a plain segment that is not a star by itself. -/
theorem segmentParts_plain (h : IsPlainSegment seg) : segmentParts seg = .ok (seg.map partOf) :=
  segmentPartsFrom_plain (Nat.le_refl _) h.plain

/-- The parts of plain segments are those of each, with a slash between each two of them. -/
theorem segmentsParts_plain (first : Bool) (slash : List PathPart) (hne : segs ≠ [])
    (h : ∀ seg ∈ segs, IsPlainSegment seg) :
    segmentsParts first slash segs = .ok (slash ++ chain segs) := by
  fun_induction segmentsParts first slash segs with
  | case1 => exact absurd rfl hne
  | case2 => exact absurd rfl (h anyDirs List.mem_cons_self).ne_anyDirs
  -- A last segment, which is a star by itself or not.
  | case3 first slash =>
    rw [chain, partsOf, if_pos rfl]
    rfl
  | case4 first slash seg _ hstar =>
    rw [segmentParts_plain (h seg List.mem_cons_self), chain, partsOf, if_neg hstar,
      ← List.append_assoc]
    rfl
  | case5 | case6 => exact absurd rfl (h anyDirs List.mem_cons_self).ne_anyDirs
  | case7 first slash seg rest _ _ e hown =>
    rw [segmentParts_plain (h seg List.mem_cons_self)] at hown
    split_ifs at hown
  | case8 first slash seg rest hrest _ own hown ih =>
    -- A segment with others after it has its own parts, whichever of the two it is.
    obtain ⟨hseg, hsegs⟩ := List.forall_mem_cons.1 h
    have hparts : own = partsOf seg := by
      rw [segmentParts_plain hseg] at hown
      unfold partsOf
      split_ifs at hown ⊢
      · exact (Except.ok.inj hown).symm
      · exact (Except.ok.inj hown).symm
    rw [ih hrest hsegs, hparts, chain]
    · simp [Except.map]
    · exact hrest

/-- Among plain segments there are no runs of `**`. -/
theorem collapseAnyDirs_plain (h : ∀ seg ∈ segs, IsPlainSegment seg) :
    collapseAnyDirs segs = segs := by
  fun_induction collapseAnyDirs segs with
  | case1 a b rest hboth => exact absurd hboth.1 (h a List.mem_cons_self).ne_anyDirs
  | case2 a b rest _ ih => rw [ih (List.forall_mem_cons.1 h).2]
  | case3 => rfl

/-- Segments that are not empty need no closing. -/
theorem closeSegments_eq_self (h : [] ∉ segs) : closeSegments segs = segs := by
  unfold closeSegments
  split
  · rename_i before hreverse
    refine absurd (List.mem_reverse.1 ?_) h
    rw [hreverse]
    exact List.mem_cons_self
  · rfl

/-! ## Patterns -/

/-- A pattern is compiled to the parts of its segments, where none of the exceptions is made. -/
theorem compile_of_segments {pattern : List Char} {ps : List PathPart} (hne : pattern ≠ [])
    (hblank : ∀ c ∈ pattern, Text.isBlank c = false)
    (hcollapse : collapseAnyDirs (Text.splitOn '/' pattern) = segs) (hempty : [] ∉ segs)
    (hany : segs ≠ [anyDirs]) (hall : segs ≠ [anyDirs, ['*']])
    (hbracket : ∀ seg ∈ segs, '[' ∉ seg) (hparts : segmentsParts true [] segs = .ok ps) :
    compile pattern = .ok (.parts ps) := by
  have htrim : trimPattern pattern = pattern := by
    unfold trimPattern
    split
    · rfl
    · exact Text.dropEndWhile_eq_self hblank
  -- The exceptions are patterns that match everything, or everything below a directory.
  have hbelow : segs ≠ [anyDirs, []] := by
    rintro rfl
    simp at hempty
  -- Without a bracket there is no range that could be in the wrong order.
  have hgood : ps.any (·.isBad) = false := by
    rw [Bool.eq_false_iff]
    intro hbad
    obtain ⟨seg, hseg, hrange⟩ := hasBackwardRange_of_segmentsParts hparts rfl hbad
    exact hbracket seg hseg hrange.bracket_mem
  unfold compile
  rw [htrim]
  split
  · exact absurd rfl hne
  · dsimp only
    rw [hcollapse, if_neg (not_or.2 ⟨hany, hall⟩), if_neg hbelow, closeSegments_eq_self hempty,
      hparts]
    simp only [hgood, Bool.false_eq_true, if_false]

/-- There is no white space in a pattern of plain segments. -/
theorem isBlank_of_mem_plain (h : ∀ seg ∈ segs, IsPlainSegment seg) {c : Char}
    (hc : c ∈ List.intercalate ['/'] segs) : Text.isBlank c = false := by
  rcases Text.exists_of_mem_intercalate hc with rfl | ⟨seg, hseg, hmem⟩
  · rfl
  · exact isBlank_of_isPlain ((h seg hseg).plain c hmem)

section Plain

variable (hne : segs ≠ []) (h : ∀ seg ∈ segs, IsPlainSegment seg)
include hne h

/-- A pattern of plain segments is split into these. -/
theorem splitOn_plain : Text.splitOn '/' (List.intercalate ['/'] segs) = segs :=
  Text.splitOn_intercalate hne fun seg hseg hslash => (h seg hseg).unslashed '/' hslash rfl

/-- A pattern of plain segments is not empty. -/
theorem intercalate_plain_ne_nil : List.intercalate ['/'] segs ≠ [] := by
  cases segs with
  | nil => exact absurd rfl hne
  | cons seg segs =>
    rw [intercalate_cons]
    exact List.append_ne_nil_of_left_ne_nil (h seg List.mem_cons_self).ne_nil _

/-- A pattern of plain segments has the parts of these. -/
theorem compile_plain :
    compile (List.intercalate ['/'] segs) = .ok (.parts (chain segs)) := by
  have hempty : [] ∉ segs := fun hmem => (h [] hmem).ne_nil rfl
  have hany : anyDirs ∉ segs := fun hmem => (h anyDirs hmem).ne_anyDirs rfl
  refine compile_of_segments (intercalate_plain_ne_nil hne h)
    (fun c => isBlank_of_mem_plain h) ?_ hempty ?_ ?_ (fun seg hseg => (h seg hseg).bracket_notMem)
    (segmentsParts_plain true [] hne h)
  · rw [splitOn_plain hne h, collapseAnyDirs_plain h]
  · rintro rfl
    exact hany List.mem_cons_self
  · rintro rfl
    exact hany List.mem_cons_self

/-- Below any directories there is one part more. -/
theorem compile_anywhere (htwo : segs ≠ [['*']]) :
    compile ('*' :: '*' :: '/' :: List.intercalate ['/'] segs) =
      .ok (.parts (.anyStart :: chain segs)) := by
  have hblank : ∀ c ∈ '*' :: '*' :: '/' :: List.intercalate ['/'] segs,
      Text.isBlank c = false := by
    simp only [List.forall_mem_cons]
    exact ⟨by decide, by decide, by decide, fun c => isBlank_of_mem_plain h⟩
  have hsplit : Text.splitOn '/' ('*' :: '*' :: '/' :: List.intercalate ['/'] segs) =
      anyDirs :: segs := by
    have hslash : '/' ∉ anyDirs := by decide
    have hcut := Text.splitOn_append hslash (List.intercalate ['/'] segs)
    rwa [splitOn_plain hne h] at hcut
  have hempty : [] ∉ segs := fun hmem => (h [] hmem).ne_nil rfl
  cases hsegs : segs with
  | nil => exact absurd hsegs hne
  | cons seg rest =>
    rw [hsegs] at hsplit hempty htwo h hblank
    have hseg := (h seg List.mem_cons_self).ne_anyDirs
    -- The first segment stands alone for any directories, since the next one does not.
    have hcollapse : collapseAnyDirs (anyDirs :: seg :: rest) = anyDirs :: seg :: rest := by
      rw [collapseAnyDirs, if_neg (fun hboth => hseg hboth.2), collapseAnyDirs_plain h]
    have hparts : segmentsParts true [] (anyDirs :: seg :: rest) =
        .ok (.anyStart :: chain (seg :: rest)) := by
      rw [segmentsParts, if_pos rfl, if_pos rfl,
        segmentsParts_plain false [] (List.cons_ne_nil _ _) h]
      · rfl
      · exact List.cons_ne_nil _ _
    rw [← hsplit] at hcollapse
    refine compile_of_segments (List.cons_ne_nil _ _) hblank (hcollapse.trans hsplit) ?_ ?_ ?_ ?_
      hparts
    · rw [List.mem_cons, not_or]
      exact ⟨by decide, hempty⟩
    · simp
    · intro heq
      exact htwo (List.cons.inj heq).2
    · exact List.forall_mem_cons.2 ⟨by decide, fun seg hseg => (h seg hseg).bracket_notMem⟩

end Plain

/-! ## What they match -/

variable {names : List (List Char)}

/-- A pattern of plain segments matches a path that begins with names that the segments match. -/
theorem matchesPath_chain (hne : segs ≠ []) (h : ∀ seg ∈ segs, IsPlainSegment seg)
    (hne' : names ≠ []) (hnames : ∀ name ∈ names, IsName name) :
    (PathPattern.parts (chain segs)).matchesPath (List.intercalate ['/'] names) = true ↔
      BeginsWith segs names := by
  rw [matchesPath_parts, leads_chain (fun seg hseg => (h seg hseg).unslashed) hne hnames hne']

/-- Below any directories it matches a path that has such names one after the other. -/
theorem matchesPath_anywhere (hne : segs ≠ []) (h : ∀ seg ∈ segs, IsPlainSegment seg)
    (hne' : names ≠ []) (hnames : ∀ name ∈ names, IsName name) :
    (PathPattern.parts (.anyStart :: chain segs)).matchesPath (List.intercalate ['/'] names) =
        true ↔
      ∃ run, run <:+: names ∧ Match segs run := by
  rw [matchesPath_parts, leads_anyStart hne' hnames]
  have hsegs : ∀ seg ∈ segs, Unslashed seg := fun seg hseg => (h seg hseg).unslashed
  constructor
  · rintro ⟨last, hlast, hsuffix, hleads⟩
    have hlastNames : ∀ name ∈ last, IsName name := fun name hname =>
      hnames name (hsuffix.subset hname)
    obtain ⟨run, hrun, hmatch⟩ := (leads_chain hsegs hne hlastNames hlast).1 hleads
    exact ⟨run, hrun.isInfix.trans hsuffix.isInfix, hmatch⟩
  · rintro ⟨run, hinfix, hmatch⟩
    -- A run within the path is the beginning of one of its ends.
    obtain ⟨last, hrun, hsuffix⟩ := List.infix_iff_prefix_suffix.1 hinfix
    have hlastNames : ∀ name ∈ last, IsName name := fun name hname =>
      hnames name (hsuffix.subset hname)
    have hlast : last ≠ [] := by
      rintro rfl
      obtain rfl := List.prefix_nil.1 hrun
      cases hmatch
      exact hne rfl
    exact ⟨last, hlast, hsuffix, (leads_chain hsegs hne hlastNames hlast).2 ⟨run, hrun, hmatch⟩⟩

end CodeSurvey.Glob
