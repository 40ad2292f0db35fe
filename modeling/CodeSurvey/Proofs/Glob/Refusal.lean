import CodeSurvey.Glob.PathPattern
import CodeSurvey.Proofs.Text.Pieces
import Mathlib.Data.List.Infix

/-!
# Patterns that are refused

A pattern is refused for its ranges only if it has a bracket, and after that a hyphen between two
characters that are in the wrong order (`hasBackwardRange_of_compile`). So whatever else is wrong
with a pattern, a bracket that is not closed for instance, it is compiled to something.

A range of a set is found where it is written, part by part of the pattern: in the text between the
brackets (`mem_ofText`), in the segment (`hasBackwardRange_of_segmentPartsFrom`), and among the
segments (`hasBackwardRange_of_segmentsParts`).
-/

namespace CodeSurvey.Glob

open CodeSurvey

/-- A text with a bracket and, after that, a hyphen between two characters in the wrong order. -/
def HasBackwardRange (cs : List Char) : Prop :=
  ∃ before between lo hi after,
    cs = before ++ '[' :: between ++ lo :: '-' :: hi :: after ∧ hi < lo

/-- So has every text that it is a part of. -/
theorem HasBackwardRange.of_isInfix {cs cs' : List Char} (h : HasBackwardRange cs)
    (hpart : cs <:+: cs') : HasBackwardRange cs' := by
  obtain ⟨before, between, lo, hi, after, rfl, hlt⟩ := h
  obtain ⟨start, rest, rfl⟩ := hpart
  refine ⟨start ++ before, between, lo, hi, after ++ rest, ?_, hlt⟩
  simp [List.append_assoc]

/-- There is a bracket in it. -/
theorem HasBackwardRange.bracket_mem {cs : List Char} (h : HasBackwardRange cs) : '[' ∈ cs := by
  obtain ⟨before, between, lo, hi, after, rfl, -⟩ := h
  exact List.mem_append_left _ (List.mem_append_right _ List.mem_cons_self)

/-- The first character of such a text is its bracket, or the text goes on to have one. -/
theorem HasBackwardRange.of_cons {c : Char} {cs : List Char} (h : HasBackwardRange (c :: cs))
    (hc : c ≠ '[') : HasBackwardRange cs := by
  obtain ⟨before, between, lo, hi, after, heq, hlt⟩ := h
  cases before with
  | nil => exact absurd (List.cons.inj heq).1 hc
  | cons d before => exact ⟨before, between, lo, hi, after, (List.cons.inj heq).2, hlt⟩

/-! ## Ranges of a set -/

/-- A range is written in the text of the items. -/
theorem mem_setItems {cs : List Char} {lo hi : Char} (h : SetItem.range lo hi ∈ setItems cs) :
    [lo, '-', hi] <:+: cs := by
  fun_induction setItems cs with
  | case1 lo' hi' rest ih =>
    rcases List.mem_cons.1 h with heq | hrest
    · obtain ⟨rfl, rfl⟩ := SetItem.range.inj heq
      exact ⟨[], rest, rfl⟩
    · exact (ih hrest).trans (List.suffix_append [lo', '-', hi'] rest).isInfix
  | case2 c rest _ ih =>
    rcases List.mem_cons.1 h with heq | hrest
    · cases heq
    · exact (ih hrest).trans (List.suffix_cons c rest).isInfix
  | case3 => cases h

/-- A range of a set is written in the text of the set. -/
theorem mem_ofText {negators cs : List Char} {lo hi : Char}
    (h : SetItem.range lo hi ∈ (CharSet.ofText negators cs).items) : [lo, '-', hi] <:+: cs := by
  unfold CharSet.ofText at h
  split at h
  · rename_i c rest
    -- The first character may be a sign, which is no item.
    split_ifs at h
    · exact (mem_setItems h).trans (List.suffix_cons c rest).isInfix
    · exact mem_setItems h
  · cases h

/-- The text between brackets is followed by the closing one. -/
theorem bracketText?_eq_some {negators cs text after : List Char}
    (h : bracketText? negators cs = some (text, after)) : cs = text ++ ']' :: after := by
  unfold bracketText? at h
  split at h
  rename_i sign body hsign
  split at h
  rename_i first body' hfirst
  split at h
  · rename_i rest hrest
    obtain ⟨rfl, rfl⟩ := Prod.mk.inj (Option.some.inj h)
    -- A sign and a bracket at the start belong to the text.
    have hcs : cs = sign ++ body := by
      cases cs with
      | nil =>
        obtain ⟨rfl, rfl⟩ := Prod.mk.inj hsign
        rfl
      | cons c rest =>
        dsimp only at hsign
        split_ifs at hsign
        all_goals
          obtain ⟨rfl, rfl⟩ := Prod.mk.inj hsign
          rfl
    have hbody : body = first ++ body' := by
      split at hfirst
      all_goals
        obtain ⟨rfl, rfl⟩ := Prod.mk.inj hfirst
        rfl
    calc cs = sign ++ (first ++ body') := by rw [hcs, hbody]
      _ = sign ++ (first ++ (body'.takeWhile (· != ']') ++ body'.dropWhile (· != ']'))) := by
          rw [List.takeWhile_append_dropWhile]
      _ = sign ++ first ++ body'.takeWhile (· != ']') ++ ']' :: rest := by
          rw [hrest]
          simp only [List.append_assoc]
  · cases h

/-! ## Parts of a pattern -/

/-- A result that is made from another one is made from a result. -/
theorem exists_of_map_eq_ok {ε α β : Type} {f : α → β} {read : Except ε α} {b : β}
    (h : read.map f = .ok b) : ∃ a, read = .ok a ∧ f a = b := by
  cases read with
  | error e => cases h
  | ok a => exact ⟨a, rfl, Except.ok.inj h⟩

/-- A bad part is a set with a range in the wrong order. -/
theorem PathPart.exists_of_isBad {p : PathPart} (h : p.isBad = true) :
    ∃ s lo hi, p = .set s ∧ SetItem.range lo hi ∈ s.items ∧ hi < lo := by
  cases p with
  | set s =>
    obtain ⟨item, hitem, hreversed⟩ := List.any_eq_true.1 h
    cases item with
    | one c => cases hreversed
    | range lo hi => exact ⟨s, lo, hi, rfl, hitem, of_decide_eq_true hreversed⟩
  | _ => cases h

/-- A set between brackets that is bad has a range in the wrong order in its text. -/
theorem hasBackwardRange_of_set {text after : List Char}
    (h : (PathPart.set (CharSet.ofText ['!', '^'] text)).isBad = true) :
    HasBackwardRange ('[' :: (text ++ ']' :: after)) := by
  obtain ⟨s, lo, hi, hs, hitem, hlt⟩ := PathPart.exists_of_isBad h
  obtain rfl := PathPart.set.inj hs
  obtain ⟨between, rest, htext⟩ := mem_ofText hitem
  refine ⟨[], between, lo, hi, rest ++ ']' :: after, ?_, hlt⟩
  rw [← htext]
  simp [List.append_assoc]

/-- A segment with a bad part has a range in the wrong order. -/
theorem hasBackwardRange_of_segmentPartsFrom {fuel : Nat} {cs : List Char} {ps : List PathPart}
    (h : segmentPartsFrom fuel cs = .ok ps) (hbad : ps.any (·.isBad) = true) :
    HasBackwardRange cs := by
  fun_induction segmentPartsFrom fuel cs generalizing ps with
  | case1 | case2 =>
    obtain rfl := Except.ok.inj h
    cases hbad
  | case3 | case8 => cases h
  | case4 fuel c rest ih =>
    obtain ⟨qs, hqs, rfl⟩ := exists_of_map_eq_ok h
    exact (ih hqs hbad).of_isInfix (List.suffix_append ['\\', c] rest).isInfix
  | case5 fuel rest ih | case6 fuel rest ih | case9 fuel c rest _ _ _ _ _ ih =>
    -- The first part is no set, so a later one is bad.
    obtain ⟨qs, hqs, rfl⟩ := exists_of_map_eq_ok h
    exact (ih hqs hbad).of_isInfix (List.suffix_cons _ rest).isInfix
  | case7 fuel rest text after hbracket ih =>
    obtain rfl := bracketText?_eq_some hbracket
    obtain ⟨qs, hqs, rfl⟩ := exists_of_map_eq_ok h
    rcases Bool.or_eq_true_iff.1 hbad with hset | hrest
    · exact hasBackwardRange_of_set hset
    · exact (ih hqs hrest).of_isInfix ⟨'[' :: text ++ [']'], [], by simp⟩

/-! ## Segments of a pattern -/

/-- Segments with a bad part have a range in the wrong order in one of them. -/
theorem hasBackwardRange_of_segmentsParts {first : Bool} {slash : List PathPart}
    {segs : List (List Char)} {ps : List PathPart} (h : segmentsParts first slash segs = .ok ps)
    (hslash : slash.any (·.isBad) = false) (hbad : ps.any (·.isBad) = true) :
    ∃ seg ∈ segs, HasBackwardRange seg := by
  have hchar : [PathPart.char '/'].any (·.isBad) = false := rfl
  fun_induction segmentsParts first slash segs generalizing ps with
  | case1 | case2 =>
    obtain rfl := Except.ok.inj h
    cases hbad
  | case3 first slash =>
    -- A star by itself has no set, and neither has what stands before it.
    obtain rfl := Except.ok.inj h
    rw [List.any_append, hslash] at hbad
    cases hbad
  | case4 first slash seg =>
    obtain ⟨qs, hqs, rfl⟩ := exists_of_map_eq_ok h
    rw [List.any_append, List.any_append, hslash, Bool.false_or] at hbad
    have hseg : qs.any (·.isBad) = true := (Bool.or_eq_true_iff.1 hbad).resolve_right nofun
    exact ⟨seg, List.mem_cons_self, hasBackwardRange_of_segmentPartsFrom hqs hseg⟩
  | case5 slash rest _ ih =>
    -- The part for any directories is no set, so the range is in a later segment.
    obtain ⟨qs, hqs, rfl⟩ := exists_of_map_eq_ok h
    obtain ⟨seg, hseg, hrange⟩ := ih hqs rfl hbad
    exact ⟨seg, List.mem_cons_of_mem _ hseg, hrange⟩
  | case6 first slash rest _ _ ih =>
    obtain ⟨qs, hqs, rfl⟩ := exists_of_map_eq_ok h
    obtain ⟨seg, hseg, hrange⟩ := ih hqs hchar hbad
    exact ⟨seg, List.mem_cons_of_mem _ hseg, hrange⟩
  | case7 => cases h
  | case8 first slash seg rest _ _ own hown ih =>
    obtain ⟨qs, hqs, rfl⟩ := exists_of_map_eq_ok h
    rw [List.any_append, List.any_append, hslash, Bool.false_or] at hbad
    -- The bad part is one of this segment or of a later one.
    rcases Bool.or_eq_true_iff.1 hbad with hfirst | hrest
    · refine ⟨seg, List.mem_cons_self, ?_⟩
      split_ifs at hown
      · obtain rfl := Except.ok.inj hown
        cases hfirst
      · exact hasBackwardRange_of_segmentPartsFrom hown hfirst
    · obtain ⟨seg', hseg', hrange⟩ := ih hqs hchar hrest
      exact ⟨seg', List.mem_cons_of_mem _ hseg', hrange⟩

/-- Segments are left as they are or left out where runs of `**` are made one. -/
theorem mem_of_mem_collapseAnyDirs {seg : List Char} {segs : List (List Char)}
    (h : seg ∈ collapseAnyDirs segs) : seg ∈ segs := by
  fun_induction collapseAnyDirs segs with
  | case1 a b rest hboth ih => exact List.mem_cons_of_mem _ (ih h)
  | case2 a b rest hboth ih =>
    rcases List.mem_cons.1 h with rfl | h
    · exact List.mem_cons_self
    · exact List.mem_cons_of_mem _ (ih h)
  | case3 => exact h

/-- The end of a pattern is closed with `**` at most. -/
theorem mem_of_mem_closeSegments {seg : List Char} {segs : List (List Char)}
    (h : seg ∈ closeSegments segs) : seg = anyDirs ∨ seg ∈ segs := by
  unfold closeSegments at h
  split at h
  · rename_i before hreverse
    split_ifs at h
    · exact .inr h
    · rcases List.mem_cons.1 (List.mem_reverse.1 h) with rfl | hbefore
      · exact .inl rfl
      · refine .inr (List.mem_reverse.1 ?_)
        rw [hreverse]
        exact List.mem_cons_of_mem _ hbefore
  · exact .inr h

/-- What remains of a pattern without the white space at its end is its start. -/
theorem trimPattern_isPrefix (pattern : List Char) : trimPattern pattern <+: pattern := by
  unfold trimPattern
  split
  · exact List.prefix_refl pattern
  · obtain ⟨stripped, hstripped, -⟩ := Text.dropEndWhile_append_stripped Text.isBlank pattern
    exact ⟨stripped, hstripped.symm⟩

/-- A pattern that is refused for its ranges has one in the wrong order. -/
theorem hasBackwardRange_of_compile {pattern : List Char}
    (h : compile pattern = .error .badRange) : HasBackwardRange pattern := by
  unfold compile at h
  split at h
  · cases h
  · dsimp only at h
    split_ifs at h
    split at h
    · cases h
    · cases h
    · rename_i ps hps
      split_ifs at h with hbad
      obtain ⟨seg, hseg, hrange⟩ := hasBackwardRange_of_segmentsParts hps rfl hbad
      have hne : seg ≠ anyDirs := by
        rintro rfl
        exact absurd hrange.bracket_mem (by decide)
      -- The segment was not put in for any directories: it is a piece of the pattern.
      have hpiece : seg ∈ Text.splitOn '/' (trimPattern pattern) :=
        mem_of_mem_collapseAnyDirs ((mem_of_mem_closeSegments hseg).resolve_left hne)
      apply hrange.of_isInfix
      exact (Text.isInfix_of_mem_splitOn hpiece).trans (trimPattern_isPrefix pattern).isInfix

end CodeSurvey.Glob
