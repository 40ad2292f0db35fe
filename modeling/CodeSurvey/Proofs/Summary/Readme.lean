import CodeSurvey.Proofs.Text.Blanks
import CodeSurvey.Proofs.Text.Parts
import CodeSurvey.Summary.Readme
import Mathlib.Data.Option.Basic

/-!
# Descriptions without tags

A text has a tag (`HasTag`) if an opening angle bracket is followed by a text that closes it
(`Closes`): one with a closing bracket, which is not its first character. When the tags have been
taken out there is none, although brackets may be left (`not_hasTag_sweep_tag`).

The passes after that, the trimming and the shortening take parts of the text out, and none that
begins with a closing bracket (`Thinned`). So what follows an opening bracket closes it only if it
did so before (`Thinned.closes`), and no tag comes back (`no_tag_survives`). What is shown of a pass
is shown of one match; a sweep over a text replaces all matches from left to right (`Swept`), and
its bound on the steps is never reached, as every match has a character
(`Thins.swept_sweepFrom`).
-/

namespace CodeSurvey.Summary.Readme

open CodeSurvey.Text

variable {cs out : List Char} {pass : Pass}

/-! ## Tags -/

/-- An opening angle bracket, at least one character other than a closing one, and a closing one. -/
def IsTag (cs : List Char) : Prop :=
  ∃ inner, inner ≠ [] ∧ '>' ∉ inner ∧ cs = '<' :: (inner ++ ['>'])

/-- Some part of the text is a tag. -/
def HasTag (cs : List Char) : Prop := ∃ part, IsTag part ∧ part <:+: cs

/-- The text ends a tag that is opened right before it. -/
def Closes (cs : List Char) : Prop := '>' ∈ cs ∧ cs.head? ≠ some '>'

/-- What goes up to the first closing bracket closes a tag if something comes before it. -/
theorem closes_append_iff {inner : List Char} (hinner : '>' ∉ inner) (after : List Char) :
    Closes (inner ++ '>' :: after) ↔ inner ≠ [] := by
  cases inner with
  | nil => simp [Closes]
  | cons c inner =>
    have hc : c ≠ '>' := (List.ne_of_not_mem_cons hinner).symm
    simp [Closes, hc]

/-- A tag is closed behind at least one character. -/
theorem closes_iff :
    Closes cs ↔ ∃ inner after, inner ≠ [] ∧ '>' ∉ inner ∧ cs = inner ++ '>' :: after := by
  constructor
  · intro h
    obtain ⟨inner, after, rfl, hinner⟩ := List.eq_append_cons_of_mem h.1
    exact ⟨inner, after, (closes_append_iff hinner after).1 h, hinner, rfl⟩
  · rintro ⟨inner, after, hne, hinner, rfl⟩
    exact (closes_append_iff hinner after).2 hne

/-- There is no tag in an empty text. -/
theorem not_hasTag_nil : ¬ HasTag [] := by
  rintro ⟨part, ⟨inner, -, -, rfl⟩, hpart⟩
  cases List.infix_nil.1 hpart

/-- A tag begins with the first character, or stands in the rest. -/
theorem hasTag_cons_iff {c : Char} : HasTag (c :: cs) ↔ c = '<' ∧ Closes cs ∨ HasTag cs := by
  constructor
  · rintro ⟨part, htag, hpart⟩
    rcases List.infix_cons_iff.1 hpart with hprefix | hpart
    · obtain ⟨inner, hne, hinner, rfl⟩ := htag
      obtain ⟨rfl, after, rfl⟩ := List.cons_prefix_cons.1 hprefix
      refine .inl ⟨rfl, closes_iff.2 ⟨inner, after, hne, hinner, ?_⟩⟩
      rw [List.append_assoc, List.singleton_append]
    · exact .inr ⟨part, htag, hpart⟩
  · rintro (⟨rfl, hcloses⟩ | ⟨part, htag, hpart⟩)
    · obtain ⟨inner, after, hne, hinner, rfl⟩ := closes_iff.1 hcloses
      refine ⟨_, ⟨inner, hne, hinner, rfl⟩, [], after, ?_⟩
      rw [List.nil_append, List.cons_append, List.append_assoc, List.singleton_append]
    · exact ⟨part, htag, List.infix_cons hpart⟩

/-! ## Thinned texts -/

/-- What is left of a text when parts of it are taken out that do not begin with a closing angle
bracket, and possibly its end. -/
inductive Thinned : List Char → List Char → Prop
  | stop (cs : List Char) : Thinned cs []
  | keep (c : Char) {cs out : List Char} (hrest : Thinned cs out) : Thinned (c :: cs) (c :: out)
  | drop {part cs out : List Char} (hpart : part.head? ≠ some '>') (hrest : Thinned cs out) :
      Thinned (part ++ cs) out

namespace Thinned

/-- What is left of a text are characters of it, in their order. -/
theorem sublist (h : Thinned cs out) : out.Sublist cs := by
  induction h with
  | stop cs => exact List.nil_sublist cs
  | keep c _ ih => exact ih.cons_cons c
  | drop _ _ ih => exact ih.trans (List.sublist_append_right _ _)

/-- A part in front may stay. -/
theorem append (part : List Char) (h : Thinned cs out) : Thinned (part ++ cs) (part ++ out) := by
  induction part with
  | nil => exact h
  | cons c part ih => exact .keep c ih

/-- The end may go. -/
theorem front (h : out <+: cs) : Thinned cs out := by
  obtain ⟨rest, rfl⟩ := h
  have hstop := (stop rest).append out
  rwa [List.append_nil] at hstop

/-- What closes a tag after the thinning did so before. -/
theorem closes (h : Thinned cs out) (hout : Closes out) : Closes cs := by
  induction h with
  | stop cs => exact absurd hout.1 List.not_mem_nil
  | keep c hrest _ => exact ⟨((hrest.keep c).sublist.subset hout.1), hout.2⟩
  | @drop part cs out hpart _ ih =>
    obtain ⟨hmem, hhead⟩ := ih hout
    refine ⟨List.mem_append_right _ hmem, ?_⟩
    cases part with
    | nil => exact hhead
    | cons c part => exact hpart

/-- No tag comes about by thinning. -/
theorem hasTag (h : Thinned cs out) (hout : HasTag out) : HasTag cs := by
  induction h with
  | stop cs => exact absurd hout not_hasTag_nil
  | keep c hrest ih =>
    rw [hasTag_cons_iff] at hout ⊢
    exact hout.imp (And.imp_right hrest.closes) ih
  | @drop part cs out _ _ ih =>
    obtain ⟨tag, htag, hinfix⟩ := ih hout
    exact ⟨tag, htag, hinfix.trans (List.suffix_append part cs).isInfix⟩

end Thinned

/-! ## Sweeps -/

/-- In a text that stands behind a character the matches of a rule are replaced, from left to right;
what comes of it stands last. -/
inductive Swept (pass : Pass) : Option Char → List Char → List Char → Prop
  | done (before : Option Char) : Swept pass before [] []
  | keep {before : Option Char} {c : Char} {rest out : List Char}
      (hmatch : pass before (c :: rest) = none) (hrest : Swept pass (some c) rest out) :
      Swept pass before (c :: rest) (c :: out)
  | replace {before : Option Char} {c : Char} {rest put after out : List Char}
      (hmatch : pass before (c :: rest) = some (put, after))
      (hrest : Swept pass (lastBefore (c :: rest) after) after out) :
      Swept pass before (c :: rest) (put ++ out)

/-- A rule that thins texts. -/
structure Thins (pass : Pass) : Prop where
  /-- A match is not empty. -/
  shorter : ∀ {before cs put after}, pass before cs = some (put, after) →
    after.length < cs.length
  /-- What is put in place of a match, and what is left of the text after it, are left of both. -/
  thinned : ∀ {before cs put after out}, pass before cs = some (put, after) →
    Thinned after out → Thinned cs (put ++ out)

namespace Thins

/-- There are as many steps as a sweep needs, since every match has a character. -/
theorem swept_sweepFrom (h : Thins pass) {n : Nat} (before : Option Char)
    (hn : cs.length ≤ n) : Swept pass before cs (sweepFrom pass n before cs) := by
  induction n generalizing before cs with
  | zero =>
    obtain rfl := List.length_eq_zero_iff.1 (Nat.le_zero.1 hn)
    exact .done before
  | succ n ih =>
    cases cs with
    | nil => exact .done before
    | cons c rest =>
      rw [sweepFrom]
      split
      · next put after hmatch =>
        have hshorter := h.shorter hmatch
        exact .replace hmatch (ih _ (by omega))
      · next hmatch => exact .keep hmatch (ih _ (Nat.le_of_succ_le_succ hn))

/-- A sweep replaces the matches of a rule by which texts are thinned. -/
theorem swept (h : Thins pass) (cs : List Char) : Swept pass none cs (sweep pass cs) :=
  h.swept_sweepFrom none le_rfl

/-- A sweep thins the text. -/
theorem thinned_of_swept (h : Thins pass) {before : Option Char}
    (hswept : Swept pass before cs out) : Thinned cs out := by
  induction hswept with
  | done before => exact .stop []
  | keep _ _ ih => exact .keep _ ih
  | replace hmatch _ ih => exact h.thinned hmatch ih

/-- A sweep brings no tag about. -/
theorem hasTag_sweep (h : Thins pass) (hout : HasTag (sweep pass cs)) : HasTag cs :=
  (h.thinned_of_swept (h.swept cs)).hasTag hout

/-- Two rules, of which the first one goes first. -/
theorem or {other : Pass} (h : Thins pass) (h' : Thins other) :
    Thins fun before cs => (pass before cs).or (other before cs) where
  shorter hmatch := by
    rcases Option.or_eq_some_iff.1 hmatch with hmatch | ⟨-, hmatch⟩
    · exact h.shorter hmatch
    · exact h'.shorter hmatch
  thinned hmatch := by
    rcases Option.or_eq_some_iff.1 hmatch with hmatch | ⟨-, hmatch⟩
    · exact h.thinned hmatch
    · exact h'.thinned hmatch

end Thins

/-- A rule by which matches are taken out that do not begin with a closing angle bracket. -/
def Removes (pass : Pass) : Prop := ∀ {before cs put after}, pass before cs = some (put, after) →
  put = [] ∧ ∃ c part, c ≠ '>' ∧ cs = c :: part ++ after

/-- A text of which such matches are taken out is thinned. -/
theorem Removes.thins (h : Removes pass) : Thins pass where
  shorter hmatch := by
    obtain ⟨-, c, part, -, rfl⟩ := h hmatch
    rw [List.length_append, List.length_cons]
    omega
  thinned hmatch hrest := by
    obtain ⟨rfl, c, part, hc, rfl⟩ := h hmatch
    refine .drop ?_ hrest
    rwa [List.head?_cons, Ne, Option.some_inj]

/-! ## The passes -/

/-- Tags are taken out. -/
theorem removes_tag : Removes tag := by
  intro before cs put after h
  unfold tag at h
  split at h
  · next rest =>
    obtain ⟨inner, rest', hspan⟩ : ∃ inner rest', rest.span (· != '>') = (inner, rest') :=
      ⟨_, _, rfl⟩
    simp only [hspan] at h
    split at h
    · split_ifs at h
      cases h
      refine ⟨rfl, '<', inner ++ ['>'], by decide, ?_⟩
      rw [(append_of_span hspan).1, List.cons_append, List.append_assoc, List.singleton_append]
    · cases h
  · cases h

/-- Where the rule for tags does not match, no tag is opened. -/
theorem not_closes_of_tag {before : Option Char} (h : tag before ('<' :: cs) = none) :
    ¬ Closes cs := by
  intro hcloses
  obtain ⟨inner, after, hne, hinner, rfl⟩ := closes_iff.1 hcloses
  have hspan : (inner ++ '>' :: after).span (· != '>') = (inner, '>' :: after) :=
    span_append (bne_of_notMem hinner) (by simp)
  simp only [tag, hspan] at h
  rw [if_neg (by simpa using hne)] at h
  cases h

/-- So are headings. -/
theorem removes_heading : Removes heading := by
  intro before cs put after h
  unfold heading at h
  obtain ⟨signs, rest, hspan⟩ : ∃ signs rest, cs.span (· == '#') = (signs, rest) := ⟨_, _, rfl⟩
  obtain ⟨rfl, hsigns⟩ := append_of_span hspan
  simp only [hspan] at h
  split_ifs at h with hcount
  -- There is at least one sign, and a character that is no end of line behind them.
  cases signs with
  | nil => simp at hcount
  | cons sign signs =>
    obtain rfl : sign = '#' := by simpa using hsigns sign List.mem_cons_self
    cases rest with
    | nil => cases h
    | cons c rest =>
      simp only at h
      split_ifs at h
      cases h
      refine ⟨rfl, '#', signs ++ c :: rest.takeWhile (· != '\n'), by decide, ?_⟩
      rw [List.cons_append, List.cons_append, List.append_assoc, List.cons_append,
        List.takeWhile_append_dropWhile]

/-- And blanks at the end of a line. -/
theorem removes_lineEnd : Removes lineEnd := by
  intro before cs put after h
  unfold lineEnd at h
  obtain ⟨blanks, rest, hspan⟩ : ∃ blanks rest,
      cs.span (fun c => c == ' ' || c == '\t') = (blanks, rest) := ⟨_, _, rfl⟩
  obtain ⟨rfl, hblanks⟩ := append_of_span hspan
  simp only [hspan] at h
  split_ifs at h with hends
  cases h
  cases blanks with
  | nil => simp at hends
  | cons blank blanks =>
    refine ⟨rfl, blank, blanks, ?_, rfl⟩
    rintro rfl
    simpa using hblanks '>' List.mem_cons_self

/-- The line ends that go stand behind those that stay. -/
theorem eq_of_emptyLines {before : Option Char} {put after : List Char}
    (h : emptyLines before cs = some (put, after)) :
    ∃ more, cs = put ++ ('\n' :: List.replicate more '\n' ++ after) := by
  unfold emptyLines at h
  obtain ⟨feeds, rest, hspan⟩ : ∃ feeds rest, cs.span (· == '\n') = (feeds, rest) := ⟨_, _, rfl⟩
  obtain ⟨rfl, hfeeds⟩ := append_of_span hspan
  simp only [hspan] at h
  split_ifs at h with hcount
  cases h
  have hreplicate : feeds = List.replicate feeds.length '\n' :=
    List.eq_replicate_of_mem fun c hc => by simpa using hfeeds c hc
  obtain ⟨more, hmore⟩ := Nat.exists_eq_add_of_le' hcount
  refine ⟨more, ?_⟩
  rw [hreplicate, hmore]
  rfl

/-- Taking out empty lines thins a text. -/
theorem thins_emptyLines : Thins emptyLines where
  shorter {before cs put after} h := by
    obtain ⟨more, rfl⟩ := eq_of_emptyLines h
    simp only [List.length_append, List.length_cons]
    omega
  thinned {before cs put after out} h hrest := by
    obtain ⟨more, rfl⟩ := eq_of_emptyLines h
    refine .append put (.drop ?_ hrest)
    rw [List.head?_cons]
    decide

section Marks

variable {mark taken put after : List Char} {mayBegin : Option Char → Bool}
  {mayEnd : List Char → Bool}

/-- Where a mark ends what was passed, this is put in place and the text goes on behind the mark. -/
theorem eq_of_closedBy? (h : closedBy? mark mayEnd taken cs = some (put, after)) :
    put = taken.reverse ∧ cs = mark ++ after := by
  unfold closedBy? at h
  split at h
  · cases h
  · split_ifs at h
    split at h
    · next hmark =>
      split_ifs at h
      cases h
      exact ⟨rfl, dropStart?_eq_some_iff.1 hmark⟩
    · cases h

/-- Up to a mark the text stays. -/
theorem eq_of_untilMark? (h : untilMark? mark mayEnd taken cs = some (put, after)) :
    taken.reverse ++ cs = put ++ (mark ++ after) := by
  induction cs generalizing taken with
  | nil =>
    rw [untilMark?] at h
    cases h
  | cons c rest ih =>
    rw [untilMark?] at h
    split at h
    · next out hclosed =>
      obtain rfl := Option.some.inj h
      obtain ⟨rfl, hrest⟩ := eq_of_closedBy? hclosed
      rw [hrest]
    · split_ifs at h
      rw [← ih h, List.reverse_cons, List.append_assoc, List.singleton_append]

/-- A match has a mark at either end. -/
theorem eq_of_between {before : Option Char}
    (h : between mark mayBegin mayEnd before cs = some (put, after)) :
    cs = mark ++ (put ++ (mark ++ after)) := by
  simp only [between, Option.bind_eq_bind, Option.bind_eq_some_iff] at h
  obtain ⟨-, -, rest, hrest, -, -, huntil⟩ := h
  rw [dropStart?_eq_some_iff.1 hrest, ← eq_of_untilMark? huntil, List.reverse_nil, List.nil_append]

/-- Two marks go, and the text between them stays. -/
theorem thins_between (mayBegin : Option Char → Bool) (mayEnd : List Char → Bool)
    (hne : mark ≠ []) (hmark : mark.head? ≠ some '>') : Thins (between mark mayBegin mayEnd) where
  shorter {before cs put after} h := by
    obtain rfl := eq_of_between h
    have hpos := List.length_pos_iff.2 hne
    simp only [List.length_append]
    omega
  thinned {before cs put after out} h hrest := by
    obtain rfl := eq_of_between h
    exact .drop hmark (.append put (.drop hmark hrest))

end Marks

/-- So does taking out the marks around strong text. -/
theorem thins_strong : Thins strong :=
  (thins_between _ _ (by decide) (by decide)).or (thins_between _ _ (by decide) (by decide))

/-- And those around emphasis. -/
theorem thins_emphasis : Thins emphasis := thins_between _ _ (by decide) (by decide)

/-- And the underscores around a text. -/
theorem thins_underscored : Thins underscored := thins_between _ _ (by decide) (by decide)

/-! ## Descriptions -/

/-- A text after the first passes. -/
def afterPasses (n : Nat) (cs : List Char) : List Char :=
  (passes.take n).foldl (fun cs pass => sweep pass cs) cs

/-- Tags are taken out. -/
theorem not_hasTag_of_swept {before : Option Char} (h : Swept tag before cs out) :
    ¬ HasTag out := by
  induction h with
  | done before => exact not_hasTag_nil
  | @keep before c rest out hmatch hrest ih =>
    rw [hasTag_cons_iff, not_or]
    refine ⟨?_, ih⟩
    -- A bracket is left only where nothing closes it, and nothing does so after the sweep.
    rintro ⟨rfl, hcloses⟩
    exact not_closes_of_tag hmatch ((removes_tag.thins.thinned_of_swept hrest).closes hcloses)
  | replace hmatch _ ih => rwa [(removes_tag hmatch).1, List.nil_append]

/-- After the sweep for tags there are none. -/
theorem not_hasTag_sweep_tag (cs : List Char) : ¬ HasTag (sweep tag cs) :=
  not_hasTag_of_swept (removes_tag.thins.swept cs)

/-- The passes behind the one that takes out the tags. -/
theorem thins_of_mem_drop : ∀ pass ∈ passes.drop 5, Thins pass := by
  simp [passes, removes_heading.thins, thins_strong, thins_emphasis, thins_underscored,
    removes_lineEnd.thins, thins_emptyLines]

/-- No tag comes about in several sweeps. -/
theorem hasTag_foldl {ps : List Pass} (hps : ∀ pass ∈ ps, Thins pass)
    (h : HasTag (ps.foldl (fun cs pass => sweep pass cs) cs)) : HasTag cs := by
  induction ps generalizing cs with
  | nil => exact h
  | cons pass ps ih =>
    obtain ⟨hpass, hps⟩ := List.forall_mem_cons.1 hps
    exact hpass.hasTag_sweep (ih hps h)

/-- There are none after any further passes. -/
theorem not_hasTag_afterPasses (more : Nat) (cs : List Char) :
    ¬ HasTag (afterPasses (5 + more) cs) := by
  intro h
  rw [afterPasses, List.take_add, List.foldl_append] at h
  exact not_hasTag_sweep_tag _
    (hasTag_foldl (fun pass hpass => thins_of_mem_drop pass (List.mem_of_mem_take hpass)) h)

/-- Trimming thins a text. -/
theorem thinned_stripBlanks (cs : List Char) : Thinned cs (stripBlanks cs) := by
  obtain ⟨before, after, hcs, hbefore, -⟩ := exists_stripBlanks cs
  rw [List.append_assoc] at hcs
  conv_lhs => rw [hcs]
  refine .drop ?_ (.front (List.prefix_append _ _))
  intro hhead
  have hblank := hbefore '>' (List.mem_of_head? hhead)
  revert hblank
  decide

/-- A description has 500 characters at most and no tag. After the tags are taken out, there is none
after any number of further passes, none after the trimming, and none after the shortening. -/
theorem no_tag_survives (text : String) :
    (clean text).length ≤ 500 ∧
    (∀ more, ¬ HasTag (afterPasses (5 + more) text.toList)) ∧
    ¬ HasTag (stripBlanks (afterPasses passes.length text.toList)) ∧
    ¬ HasTag (clean text).toList := by
  have hpasses := fun more => not_hasTag_afterPasses more text.toList
  have htrimmed : ¬ HasTag (stripBlanks (afterPasses passes.length text.toList)) :=
    mt (thinned_stripBlanks _).hasTag (hpasses 6)
  have hclean : (clean text).toList =
      (stripBlanks (afterPasses passes.length text.toList)).take maxChars := by
    rw [clean, String.toList_ofList, afterPasses, List.take_length]
  refine ⟨?_, hpasses, htrimmed, ?_⟩
  · rw [← String.length_toList, hclean]
    exact List.length_take_le _ _
  · rw [hclean]
    exact mt (Thinned.front (List.take_prefix _ _)).hasTag htrimmed

example : clean "x <> y, <b>1 < 2</b>" = "x <> y, 1" := by decide +kernel

end CodeSurvey.Summary.Readme
