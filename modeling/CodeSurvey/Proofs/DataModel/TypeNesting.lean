import CodeSurvey.Proofs.DataModel.TypeText
import CodeSurvey.Proofs.Text.Nesting

/-!
# Brackets that are left of a type

A type is nested if its angle, round, square and curly brackets are (`typeBrackets`). Two things can
tear a nested type apart (`isNested_simplify_iff`): a qualifier in whose brackets another one opens,
as only what comes before the first that closes is dropped, and an array whose bracket closes before
the end of the type, as the last one is taken with it.
-/

namespace CodeSurvey.DataModel

open CodeSurvey.Text

variable {cs element kept q rest : List Char}

/-- The brackets of types. -/
def typeBrackets : Brackets where
  pairs := [('<', '>'), ('(', ')'), ('[', ']'), ('\x7b', '\x7d')]
  nodup := by decide

/-- Angle brackets are brackets of types. -/
theorem angle_mem : ('<', '>') ∈ typeBrackets.pairs := by decide

/-- Round brackets are brackets of types. -/
theorem round_mem : ('(', ')') ∈ typeBrackets.pairs := by decide

/-! ## Qualifiers -/

/-- No round bracket opens inside the brackets of a qualifier. -/
def ImportsAreFlat (cs : List Char) : Prop := ∀ q, IsQualifier q → q <:+: cs → q.count '(' = 1

/-- What holds of the qualifiers of a text holds of those of its rest. -/
theorem ImportsAreFlat.of_append {front : List Char} (h : ImportsAreFlat (front ++ rest)) :
    ImportsAreFlat rest :=
  fun q hq hpart => h q hq (hpart.trans (List.suffix_append front rest).isInfix)

/-- The brackets that a qualifier has. -/
theorem IsQualifier.count (hq : IsQualifier q) : 1 ≤ q.count '(' ∧ q.count ')' = 1 := by
  obtain ⟨name, hname, rfl⟩ := hq
  rw [List.count_append, List.count_append, List.count_append, List.count_append,
    List.count_eq_zero_of_not_mem hname]
  have hfront : "import(".toList.count '(' = 1 := by decide
  have hfront' : "import(".toList.count ')' = 0 := by decide
  have hend : ").".toList.count ')' = 1 := by decide
  omega

/-- In a flat qualifier stands no round bracket but its own. -/
theorem IsQualifier.exists_name (hq : IsQualifier q) (hflat : q.count '(' = 1) : ∃ name,
    '(' ∉ name ∧ ')' ∉ name ∧ q = "import".toList ++ '(' :: (name ++ ").".toList) := by
  obtain ⟨name, hname, rfl⟩ := hq
  refine ⟨name, ?_, hname, by simp⟩
  rw [List.count_append, List.count_append] at hflat
  have hfront : "import(".toList.count '(' = 1 := by decide
  rw [← List.count_eq_zero]
  omega

/-- A flat qualifier is dropped without an effect on what is pending. -/
theorem unclosed?_of_qualifier {pending after : List Char} (hq : IsQualifier q)
    (hflat : q.count '(' = 1)
    (h : typeBrackets.unclosed? pending (q ++ rest) = some after) :
    typeBrackets.unclosed? pending rest = some after := by
  obtain ⟨name, hopen, hclose, rfl⟩ := hq.exists_name hflat
  have hword : typeBrackets.IsNested "import".toList := by decide
  have hdot : ¬ typeBrackets.Has '.' := by decide
  have hparts : "import".toList ++ '(' :: (name ++ ").".toList) ++ rest =
      "import".toList ++ '(' :: (name ++ ')' :: '.' :: rest) := by simp
  rw [hparts, Brackets.unclosed?_append, hword.unclosed?_eq, Option.bind_some] at h
  rw [← Brackets.unclosed?_other hdot]
  exact Brackets.unclosed?_of_wrapped round_mem hopen hclose h

/-- A nested type is nested without its qualifiers, if they are flat. -/
theorem DropsTo.unclosed? (h : DropsTo cs kept) (hflat : ImportsAreFlat cs)
    {pending after : List Char} (hcs : typeBrackets.unclosed? pending cs = some after) :
    typeBrackets.unclosed? pending kept = some after := by
  -- What is pending is the same in both texts where a qualifier ends.
  induction h generalizing pending with
  | nil => exact hcs
  | @qualifier q rest kept hq _ ih =>
    have hone := hflat q hq (List.prefix_append q rest).isInfix
    exact ih hflat.of_append (unclosed?_of_qualifier hq hone hcs)
  | @char c rest kept _ _ ih =>
    rw [Brackets.unclosed?_cons] at hcs ⊢
    obtain ⟨next, hstep, hrest⟩ := Option.bind_eq_some_iff.1 hcs
    rw [hstep]
    have htail : ImportsAreFlat ([c] ++ rest) := hflat
    exact ih htail.of_append hrest

/-- Where a flat qualifier is dropped, no other one begins. -/
theorem IsQualifier.infix_append {other : List Char} (hq : IsQualifier q) (hflat : q.count '(' = 1)
    (hother : IsQualifier other) (h : other <:+: q ++ rest) :
    other.count '(' = 1 ∨ other <:+: rest := by
  obtain ⟨name, hopen, hclose, rfl⟩ := hq.exists_name hflat
  obtain ⟨name', hclose', rfl⟩ := hother
  obtain ⟨before, after, heq⟩ := h
  -- The bracket that `other` opens is that of `q`, or one that comes after `q`.
  have hsplit : "import".toList ++ '(' :: (name ++ ").".toList ++ rest) =
      (before ++ "import".toList) ++ '(' :: (name' ++ ").".toList ++ after) := by
    simpa using heq.symm
  obtain ⟨between, hfront, hrest⟩ := exists_of_append_eq (by decide) hsplit
  cases between with
  | nil =>
    left
    obtain ⟨-, htail⟩ := List.cons.inj hrest
    obtain ⟨rfl, -⟩ := append_inj_of_front (p := (· != ')'))
      (by simpa using htail : name ++ ')' :: '.' :: rest = name' ++ ')' :: '.' :: after)
      (bne_of_notMem hclose) (by simp) (bne_of_notMem hclose') (by simp)
    simpa using hflat
  | cons c between =>
    right
    obtain ⟨-, htail⟩ := List.cons.inj hrest
    have hq' : '(' ∉ name ++ ").".toList := by simp [hopen]
    obtain ⟨between, rfl, rfl⟩ := exists_of_append_eq hq' htail
    have hword : "import".toList <:+
        ("import".toList ++ c :: (name ++ [')'])) ++ '.' :: between :=
      ⟨before, by rw [hfront]; simp⟩
    obtain ⟨front, rfl⟩ := (suffix_append_sep_iff (by decide)).1 hword
    exact ⟨front, after, by simp⟩

/-- The brackets that open and close in qualifiers, counted. -/
theorem DropsTo.count (h : DropsTo cs kept) :
    kept.count '(' + cs.count ')' ≤ cs.count '(' + kept.count ')' ∧
      (kept.count '(' + cs.count ')' = cs.count '(' + kept.count ')' → ImportsAreFlat cs) := by
  induction h with
  | nil =>
    refine ⟨le_refl _, fun _ q hq hpart => ?_⟩
    obtain rfl := List.eq_nil_of_infix_nil hpart
    have hone := hq.count.1
    simp at hone
  | @qualifier q rest kept hq _ ih =>
    obtain ⟨hle, hflat⟩ := ih
    obtain ⟨hopen, hclose⟩ := hq.count
    -- A qualifier closes one bracket and opens one or more. If it opens more, those are missed in
    -- `kept` for good: nothing that comes after it can make up for them.
    rw [List.count_append, List.count_append, hclose]
    refine ⟨by omega, fun heq other hother hpart => ?_⟩
    have hone : q.count '(' = 1 := by omega
    exact (hq.infix_append hone hother hpart).elim id (hflat (by omega) other hother)
  | @char c rest kept hnone _ ih =>
    obtain ⟨hle, hflat⟩ := ih
    simp only [List.count_cons]
    refine ⟨by omega, fun heq other hother hpart => ?_⟩
    rcases List.infix_cons_iff.1 hpart with hbegins | hpart
    · exact absurd hbegins (hnone other hother)
    · exact hflat (by omega) other hother hpart

/-- White space is no bracket. -/
theorem has_of_isBlank (c : Char) (hc : isBlank c = true) :
    decide (typeBrackets.Has c) = false := by
  have hbrackets : ∀ c ∈ typeBrackets.pairs.map Prod.fst ++ typeBrackets.pairs.map Prod.snd,
      isBlank c = false := eq_false_of_all (by decide)
  rw [decide_eq_false_iff_not]
  intro hhas
  rw [hbrackets c hhas] at hc
  cases hc

/-- White space at the ends makes no difference for the nesting of brackets. -/
theorem isNested_stripBlanks_iff :
    typeBrackets.IsNested (stripBlanks cs) ↔ typeBrackets.IsNested cs :=
  Brackets.isNested_congr (filter_stripBlanks has_of_isBlank cs)

/-- Nor does white space that is collapsed. -/
theorem isNested_collapseBlanks_iff :
    typeBrackets.IsNested (collapseBlanks cs) ↔ typeBrackets.IsNested cs :=
  Brackets.isNested_congr (filter_collapseBlanks has_of_isBlank cs)

/-- A nested type is still nested in its plain form exactly if its qualifiers are flat. -/
theorem isNested_plainChars_iff (h : typeBrackets.IsNested cs) :
    typeBrackets.IsNested (plainChars cs) ↔ ImportsAreFlat cs := by
  have hdrops := dropsTo_dropQualifiers cs
  rw [plainChars, isNested_stripBlanks_iff, isNested_collapseBlanks_iff]
  constructor
  · intro hkept
    apply hdrops.count.2
    rw [hkept.count_eq round_mem, h.count_eq round_mem, Nat.add_comm]
  · intro hflat
    rw [Brackets.isNested_iff_unclosed?] at h ⊢
    exact hdrops.unclosed? hflat h

/-! ## Arrays -/

/-- The bracket that the head of an array opens is closed before the end of the text, which ends
with another one. -/
def ClosesEarly (cs : List Char) : Prop :=
  ∃ head ∈ arrayHeads, ∃ inner rest,
    cs = head ++ (inner ++ '>' :: rest) ++ ['>'] ∧ typeBrackets.IsNested inner

/-- A text that closes its first bracket early still begins and ends like an array. -/
theorem ClosesEarly.isArrayText (h : ClosesEarly cs) : IsArrayText cs := by
  obtain ⟨head, hhead, inner, rest, heq, -⟩ := h
  exact ⟨inner ++ '>' :: rest, by simp, head, hhead, heq⟩

/-- Only one head of an array is in front of a text. -/
theorem head_eq {head head' rest' : List Char} (hhead : head ∈ arrayHeads)
    (hhead' : head' ∈ arrayHeads) (h : head ++ rest = head' ++ rest') :
    head = head' ∧ rest = rest' := by
  simp only [arrayHeads, List.mem_cons, List.not_mem_nil, or_false] at hhead hhead'
  rcases hhead with rfl | rfl <;> rcases hhead' with rfl | rfl <;> simp at h
  · exact ⟨rfl, h⟩
  · exact ⟨rfl, h⟩

/-- The head of an array opens one angle bracket. -/
theorem unclosed?_head {head : List Char} (hhead : head ∈ arrayHeads) (pending rest : List Char) :
    typeBrackets.unclosed? pending (head ++ rest) =
      typeBrackets.unclosed? ('>' :: pending) rest := by
  have hheads : ∀ head ∈ arrayHeads,
      typeBrackets.IsNested head.dropLast ∧ head = head.dropLast ++ ['<'] := by decide
  obtain ⟨hword, heq⟩ := hheads head hhead
  rw [heq, List.append_assoc, Brackets.unclosed?_append, hword.unclosed?_eq, Option.bind_some]
  exact Brackets.unclosed?_opening angle_mem pending rest

/-- What stands in the brackets of an array is nested exactly if the array is and its brackets
belong together. -/
theorem IsArrayOf.isNested_iff (h : IsArrayOf cs element) :
    typeBrackets.IsNested element ↔ typeBrackets.IsNested cs ∧ ¬ ClosesEarly cs := by
  obtain ⟨-, head, hhead, rfl⟩ := h
  have hread : typeBrackets.IsNested (head ++ element ++ ['>']) ↔
      typeBrackets.unclosed? ['>'] (element ++ ['>']) = some [] := by
    rw [Brackets.isNested_iff_unclosed?, List.append_assoc, unclosed?_head hhead]
  constructor
  · intro helement
    constructor
    · rw [hread, Brackets.unclosed?_append, helement.unclosed?_eq, Option.bind_some]
      exact Brackets.unclosed?_closing angle_mem [] []
    · rintro ⟨head', hhead', inner, rest, heq, hinner⟩
      rw [List.append_assoc, List.append_assoc] at heq
      obtain ⟨-, htail⟩ := head_eq hhead hhead' heq
      rw [List.append_cancel_right htail, Brackets.isNested_append_iff hinner] at helement
      exact Brackets.not_isNested_closing angle_mem helement
  · rintro ⟨hcs, hearly⟩
    obtain ⟨inner, rest, heq, hinner, -⟩ := Brackets.exists_of_unclosed?_singleton (hread.1 hcs)
    -- The bracket that closes the one of the head is the last of the text.
    rcases List.eq_nil_or_concat' rest with rfl | ⟨rest, c, rfl⟩
    · rwa [List.append_cancel_right heq]
    · have hparts : element ++ ['>'] = (inner ++ '>' :: rest) ++ [c] := by simpa using heq
      obtain ⟨rfl, -⟩ := List.append_inj' hparts rfl
      exact absurd ⟨head, hhead, inner, rest, rfl, hinner⟩ hearly

/-- What is left of a type is nested exactly if its plain form is and no array closes early. -/
theorem isNested_simplifyChars_iff :
    typeBrackets.IsNested (simplifyChars cs) ↔
      typeBrackets.IsNested (plainChars cs) ∧ ¬ ClosesEarly (plainChars cs) := by
  have hmark : typeBrackets.IsNested "[]".toList := by decide
  rcases simplifyChars_cases cs with ⟨element, harray, heq⟩ | heq | ⟨harray, -, heq⟩
  · rw [← harray.isNested_iff, heq, isNested_stripBlanks_iff]
  · have hearly : ¬ ClosesEarly (plainChars cs) := by
      intro h
      obtain ⟨element, harray⟩ := h.isArrayText
      exact harray.not_suffix ⟨simplifyChars cs, heq.symm⟩
    rw [and_iff_left hearly, heq, Brackets.isNested_append_iff_left hmark]
  · have hearly : ¬ ClosesEarly (plainChars cs) := by
      intro h
      obtain ⟨element, h⟩ := h.isArrayText
      exact harray element h
    rw [and_iff_left hearly, heq]

/-- A union that is taken for an array in angle brackets begins with one, which closes early. -/
theorem isArrayText_union_iff {front : List Char} (hfront : typeBrackets.IsNested front) :
    IsArrayText (front ++ '|' :: rest) ↔ ClosesEarly (front ++ '|' :: rest) := by
  constructor
  · rintro ⟨element, -, head, hhead, heq⟩
    have hbar : '|' ∉ head := by
      have hheads : ∀ head ∈ arrayHeads, '|' ∉ head := by decide
      exact hheads head hhead
    rw [List.append_assoc] at heq
    obtain ⟨tail, rfl, htail⟩ := exists_of_append_eq hbar heq.symm
    -- The first alternative closes the bracket that the head opens.
    have hclosed : typeBrackets.unclosed? ['>'] tail = some [] := by
      rw [← unclosed?_head hhead, Brackets.isNested_iff_unclosed?.1 hfront]
    obtain ⟨inner, between, rfl, hinner, -⟩ := Brackets.exists_of_unclosed?_singleton hclosed
    rcases List.eq_nil_or_concat' rest with rfl | ⟨rest, c, rfl⟩
    · simpa using (List.append_inj' htail rfl).2
    · have hparts : element ++ ['>'] = (inner ++ '>' :: between ++ '|' :: rest) ++ [c] := by
        simpa using htail
      obtain ⟨-, hlast⟩ := List.append_inj' hparts rfl
      obtain rfl : '>' = c := (List.cons.inj hlast).1
      exact ⟨head, hhead, inner, between ++ '|' :: rest, by simp, hinner⟩
  · exact ClosesEarly.isArrayText

/-- Of a nested type is left a nested one exactly if its qualifiers are flat and no array closes
early. A union, from which no mark should be taken, is taken for an array exactly if its last
alternative ends with the mark, or the array that it begins with closes early. -/
theorem isNested_simplify_iff (type : String) (h : typeBrackets.IsNested type.toList) :
    (typeBrackets.IsNested (simplify type).toList ↔
        ImportsAreFlat type.toList ∧ ¬ ClosesEarly (plainType type).toList) ∧
      ∀ first others, (plainType type).toList = first ++ '|' :: others →
        typeBrackets.IsNested first →
        (simplify type ≠ plainType type ↔
          "[]".toList <:+ others ∨ ClosesEarly (plainType type).toList) := by
  have hplain : (plainType type).toList = plainChars type.toList := String.toList_ofList
  have hsimplify : (simplify type).toList = simplifyChars type.toList := String.toList_ofList
  rw [hplain, hsimplify, isNested_simplifyChars_iff, isNested_plainChars_iff h]
  refine ⟨Iff.rfl, ?_⟩
  intro first others hunion hfirst
  rw [simplify_ne_plainType_iff, hunion, suffix_append_sep_iff (by decide),
    isArrayText_union_iff hfirst]

/-- A union whose alternatives are in brackets, with a qualifier. -/
theorem nested_union_of_generics :
    typeBrackets.IsNested "Promise<A[]> | import(\"./b\").List<B>".toList ∧
      (plainType "Promise<A[]> | import(\"./b\").List<B>").toList =
        "Promise<A[]> ".toList ++ '|' :: " List<B>".toList ∧
      typeBrackets.IsNested "Promise<A[]> ".toList ∧
      ImportsAreFlat "Promise<A[]> | import(\"./b\").List<B>".toList ∧
      ¬ ClosesEarly (plainType "Promise<A[]> | import(\"./b\").List<B>").toList ∧
      simplify "Promise<A[]> | import(\"./b\").List<B>" =
        plainType "Promise<A[]> | import(\"./b\").List<B>" := by
  have htype : typeBrackets.IsNested "Promise<A[]> | import(\"./b\").List<B>".toList := by
    decide +kernel
  have hunion : (plainType "Promise<A[]> | import(\"./b\").List<B>").toList =
      "Promise<A[]> ".toList ++ '|' :: " List<B>".toList := by decide +kernel
  have hfirst : typeBrackets.IsNested "Promise<A[]> ".toList := by decide
  -- The texts are evaluated; what can be taken from the union is told by the theorem.
  obtain ⟨hnested, hsame⟩ := isNested_simplify_iff _ htype
  obtain ⟨hflat, hearly⟩ := hnested.1 (by decide +kernel)
  refine ⟨htype, hunion, hfirst, hflat, hearly, ?_⟩
  by_contra htaken
  rcases (hsame _ _ hunion hfirst).1 htaken with hmark | h
  · revert hmark
    decide
  · exact hearly h

/-- A union of arrays in angle brackets is torn apart. -/
theorem union_of_arrays_is_torn :
    ¬ ∀ type : String, typeBrackets.IsNested type.toList → ¬ "=>".toList <:+: type.toList →
      typeBrackets.IsNested (simplify type).toList := by
  intro h
  have htorn : ¬ typeBrackets.IsNested (simplify "Array<A> | Array<B>").toList := by decide +kernel
  exact htorn (h _ (by decide +kernel) (by decide +kernel))

end CodeSurvey.DataModel
