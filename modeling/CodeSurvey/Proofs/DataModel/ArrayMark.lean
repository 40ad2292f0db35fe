import CodeSurvey.Proofs.DataModel.TypeText
import CodeSurvey.Syntax.Token

/-!
# Whether a type is an array, and whether its mark is taken away

The mark of an array is taken from the plain type, in which there is neither a qualifier nor the end
of a line; whether a type is an array is read off its text as it stands. So the two agree on plain
types, and of the others they agree on all but two kinds of arrays in angle brackets: those in more
than one line and those behind a qualifier (`mark_taken_iff_isArrayType_iff`).
-/

namespace CodeSurvey.DataModel

open CodeSurvey.Text
open CodeSurvey.Syntax.Token (isNameChar)

variable {before cs front inner rest : List Char} {w : Char}

/-! ## The two functions, on the text between the white space -/

/-- Collapsing white space makes no difference for whether a text is an array in angle brackets. -/
theorem isArrayText_collapseBlanks : IsArrayText (collapseBlanks cs) ↔ IsArrayText cs := by
  have hend : ∀ c ∈ ['>'], isBlank c = false := eq_false_of_all (by decide)
  constructor
  · rintro ⟨element, hne, head, hhead, heq⟩
    rw [List.append_assoc] at heq
    obtain ⟨ds, rfl, hds⟩ := exists_of_collapseBlanks_eq_word_append (isBlank_of_mem_head hhead) heq
    obtain ⟨inner, rfl, hinner⟩ := exists_of_collapseBlanks_eq_append_word hend hds
    refine ⟨inner, ?_, head, hhead, (List.append_assoc _ _ _).symm⟩
    rintro rfl
    exact hne hinner.symm
  · rintro ⟨element, hne, head, hhead, rfl⟩
    refine ⟨collapseBlanks element, mt collapseBlanks_eq_nil_iff.1 hne, head, hhead, ?_⟩
    rw [collapseBlanks_append_word hend, collapseBlanks_word_append (isBlank_of_mem_head hhead)]

/-- Nor does it for whether the text ends with the mark of an array. -/
theorem suffix_collapseBlanks : "[]".toList <:+ collapseBlanks cs ↔ "[]".toList <:+ cs := by
  have hmark : ∀ c ∈ "[]".toList, isBlank c = false := eq_false_of_all (by decide)
  constructor
  · rintro ⟨front, heq⟩
    obtain ⟨ds, rfl, -⟩ := exists_of_collapseBlanks_eq_append_word hmark heq.symm
    exact ⟨ds, rfl⟩
  · rintro ⟨front, rfl⟩
    exact ⟨collapseBlanks front, (collapseBlanks_append_word hmark front).symm⟩

/-- White space is in neither mark, so single spaces make no difference for them. -/
theorem marks_plainChars (cs : List Char) :
    ("[]".toList <:+ plainChars cs ↔ "[]".toList <:+ stripBlanks (dropQualifiers cs)) ∧
      (IsArrayText (plainChars cs) ↔ IsArrayText (stripBlanks (dropQualifiers cs))) := by
  rw [plainChars, stripBlanks_collapseBlanks]
  exact ⟨suffix_collapseBlanks, isArrayText_collapseBlanks⟩

/-- A type is an array if it has a mark, which is not seen if the text has more than one line
between angle brackets. -/
theorem isArrayType_iff (type : String) :
    isArrayType type = true ↔
      "[]".toList <:+ stripBlanks type.toList ∨
        IsArrayText (stripBlanks type.toList) ∧ '\n' ∉ stripBlanks type.toList := by
  -- The marks have no line break of their own: the text has one if the element has.
  have hline : ∀ {cs element : List Char}, IsArrayOf cs element →
      ('\n' ∉ element ↔ '\n' ∉ cs) := by
    rintro cs element ⟨-, head, hhead, rfl⟩
    have hhead : '\n' ∉ head := by
      have hheads : ∀ head ∈ arrayHeads, '\n' ∉ head := by decide
      exact hheads head hhead
    simp [hhead]
  have hsome : (arrayElement? (stripBlanks type.toList)).isSome = true ↔
      IsArrayText (stripBlanks type.toList) ∧ '\n' ∉ stripBlanks type.toList := by
    rw [Option.isSome_iff_exists]
    constructor
    · rintro ⟨element, h⟩
      obtain ⟨harray, hnot⟩ := arrayElement?_eq_some_iff.1 h
      exact ⟨⟨element, harray⟩, (hline harray).1 hnot⟩
    · rintro ⟨⟨element, harray⟩, hnot⟩
      exact ⟨element, arrayElement?_eq_some_iff.2 ⟨harray, (hline harray).2 hnot⟩⟩
  rw [isArrayType, Bool.or_eq_true, List.isSuffixOf_iff_suffix, hsome]

/-! ## Qualifiers -/

/-- Each qualifier of a text leads to a name: that follows it, perhaps after white space, and none
stands directly before it. -/
def QualifiersLead (cs : List Char) : Prop :=
  ∀ before q after, cs = before ++ q ++ after → IsQualifier q →
    (∀ c, before.getLast? = some c → isNameChar c = false) ∧
      ∃ c, (after.dropWhile isBlank).head? = some c ∧ isNameChar c = true

/-- What is asked of one qualifier, by what stands before it and after it. -/
def leadsToName (before after : List Char) : Bool :=
  before.getLast?.all (!isNameChar ·) && (after.dropWhile isBlank).head?.any isNameChar

/-- At one place of a text begins at most one qualifier, so only the places are to be tried. -/
theorem qualifiersLead_iff : QualifiersLead cs ↔ ∀ n < cs.length + 1,
    (afterQualifier? (cs.drop n)).all (leadsToName (cs.take n)) = true := by
  have hleads (before after : List Char) : leadsToName before after = true ↔
      (∀ c, before.getLast? = some c → isNameChar c = false) ∧
        ∃ c, (after.dropWhile isBlank).head? = some c ∧ isNameChar c = true := by
    simp [leadsToName, Option.all_eq_true, Option.any_eq_true]
  constructor
  · intro h n _
    rw [Option.all_eq_true]
    intro after hafter
    obtain ⟨q, hq, hdrop⟩ := afterQualifier?_eq_some_iff.1 hafter
    apply (hleads _ _).2 (h (cs.take n) q after _ hq)
    rw [List.append_assoc, ← hdrop, List.take_append_drop]
  · rintro h before q after rfl hq
    have hplace := h before.length (by simp only [List.length_append]; omega)
    rw [List.append_assoc, List.drop_left, List.take_left,
      afterQualifier?_eq_some_iff.2 ⟨q, hq, rfl⟩] at hplace
    exact (hleads _ _).1 hplace

instance (cs : List Char) : Decidable (QualifiersLead cs) :=
  decidable_of_iff _ qualifiersLead_iff.symm

/-- The mark at the end of a type stands after all of its names. -/
theorem suffix_append_name_iff (hw : isNameChar w = true) :
    "[]".toList <:+ cs ++ w :: rest ↔ "[]".toList <:+ rest := by
  apply suffix_append_sep_iff
  have hmark : ∀ c ∈ "[]".toList, isNameChar c = false := eq_false_of_all (by decide)
  intro hmem
  rw [hmark w hmem] at hw
  cases hw

/-- Whether a type is an array in angle brackets is told by what stands before and after its names,
if no name is cut there. -/
theorem isArrayText_append_name_iff (hfront : front ≠ [])
    (hlast : ∀ c, front.getLast? = some c → isNameChar c = false) (hw : isNameChar w = true) :
    IsArrayText (front ++ inner ++ w :: rest) ↔
      (∃ head ∈ arrayHeads, head <+: front) ∧ rest.getLast? = some '>' := by
  constructor
  · rintro ⟨element, hne, head, hhead, heq⟩
    constructor
    · refine ⟨head, hhead, ?_⟩
      rw [List.append_assoc, List.append_assoc] at heq
      rcases List.append_eq_append_iff.1 heq with ⟨tail, htail, -⟩ | ⟨tail, htail, -⟩
      · -- All of the head but its last character is a name, and `front` does not end in one.
        rcases List.eq_nil_or_concat' tail with rfl | ⟨tail, d, rfl⟩
        · exact ⟨[], by rw [htail, List.append_nil, List.append_nil]⟩
        · obtain ⟨front, c, rfl⟩ := (List.eq_nil_or_concat' front).resolve_left hfront
          have hname : ∀ head ∈ arrayHeads, head.dropLast.all isNameChar = true := by decide
          have hc := List.all_eq_true.1 (hname head hhead) c
            (by rw [htail]; simp [← List.append_assoc])
          rw [hlast c List.getLast?_concat] at hc
          cases hc
      · exact ⟨tail, htail.symm⟩
    · have hend := congrArg List.getLast? heq
      rw [List.getLast?_concat, List.getLast?_append, List.getLast?_cons] at hend
      cases hrest : rest.getLast? with
      | some c => simpa [hrest] using hend
      | none =>
        obtain rfl : w = '>' := by simpa [hrest] using hend
        revert hw
        decide +kernel
  · rintro ⟨⟨head, hhead, tail, rfl⟩, hend⟩
    obtain ⟨init, rfl⟩ := List.getLast?_eq_some_iff.1 hend
    refine ⟨tail ++ inner ++ w :: init, by simp, head, hhead, ?_⟩
    simp

/-- An array in angle brackets does not begin with a qualifier. -/
theorem IsArrayText.not_qualified (h : IsArrayText cs) : ¬ "import(".toList <+: cs := by
  obtain ⟨element, -, head, hhead, rfl⟩ := h
  have hheads : ∀ head ∈ arrayHeads, ∃ c rest, head = c :: rest ∧ c ≠ 'i' := by
    simp [arrayHeads]
  obtain ⟨c, rest, rfl, hc⟩ := hheads head hhead
  rintro ⟨tail, htail⟩
  exact hc (List.cons.inj htail).1.symm

/-- The text of a type and the one without qualifiers are the same from a name on, and before a
place where no name ends. In the text, a qualifier stands at that place. -/
theorem QualifiersLead.exists_name (h : QualifiersLead cs) : dropQualifiers cs = cs ∨
    ∃ before inner inner' w rest, cs = before ++ inner ++ w :: rest ∧
      dropQualifiers cs = before ++ inner' ++ w :: rest ∧
      (∀ c, before.getLast? = some c → isNameChar c = false) ∧ "import(".toList <+: inner ∧
      isBlank w = false ∧ isNameChar w = true := by
  rcases (dropsTo_dropQualifiers cs).exists_outer with
    heq | ⟨before, inner, inner', after, hcs, hkept, ⟨q, hq, hfirst⟩, q', hq', hlast⟩
  · exact .inl heq
  · right
    obtain ⟨part, hpart⟩ := hfirst
    obtain ⟨part', hpart'⟩ := hlast
    have hbefore := (h before q (part ++ after) (by rw [hcs, ← hpart]; simp) hq).1
    obtain ⟨w, hhead, hw⟩ := (h (before ++ part') q' after (by rw [hcs, ← hpart']; simp) hq').2
    obtain ⟨rest, hrest⟩ := List.head?_eq_some_iff.1 hhead
    have hafter : after = after.takeWhile isBlank ++ w :: rest := by
      rw [← hrest, List.takeWhile_append_dropWhile]
    have hblank : isBlank w = false := by
      have hnot := List.head?_dropWhile_not isBlank after
      rw [hhead] at hnot
      simpa using hnot
    have hqualifier : "import(".toList <+: inner := by
      obtain ⟨name, -, rfl⟩ := hq
      exact ⟨name ++ ").".toList ++ part, by rw [← hpart]; simp⟩
    -- The white space before the name goes with the qualifiers.
    refine ⟨before, inner ++ after.takeWhile isBlank, inner' ++ after.takeWhile isBlank, w, rest,
      ?_, ?_, hbefore, hqualifier.trans (List.prefix_append _ _), hblank, hw⟩
    · rw [hcs, ← List.append_assoc, List.append_assoc (before ++ inner), ← hafter]
    · rw [hkept, ← List.append_assoc, List.append_assoc (before ++ inner'), ← hafter]

/-- With something before it, a qualifier makes no difference for the angle brackets. -/
theorem isArrayText_stripBlanks_iff (hfront : before.dropWhile isBlank ≠ [])
    (hlast : ∀ c, before.getLast? = some c → isNameChar c = false) (hblank : isBlank w = false)
    (hw : isNameChar w = true) (inner rest : List Char) :
    IsArrayText (stripBlanks (before ++ inner ++ w :: rest)) ↔
      (∃ head ∈ arrayHeads, head <+: before.dropWhile isBlank) ∧
        (dropEndWhile isBlank rest).getLast? = some '>' := by
  have hkeep : (before ++ inner).dropWhile isBlank = before.dropWhile isBlank ++ inner := by
    rw [List.dropWhile_append, if_neg (by simpa using hfront)]
  have hlast' : ∀ c, (before.dropWhile isBlank).getLast? = some c → isNameChar c = false := by
    intro c hc
    apply hlast
    rw [← hc, ← List.getLast?_append_of_ne_nil (before.takeWhile isBlank) hfront,
      List.takeWhile_append_dropWhile]
  rw [stripBlanks_around hblank, hkeep, isArrayText_append_name_iff hfront hlast' hw]

/-- With nothing before it, a qualifier is in front of the type. -/
theorem qualifier_front_stripBlanks (hfront : before.dropWhile isBlank = [])
    (hinner : "import(".toList <+: inner) (hblank : isBlank w = false) (rest : List Char) :
    "import(".toList <+: stripBlanks (before ++ inner ++ w :: rest) := by
  obtain ⟨tail, rfl⟩ := hinner
  rw [stripBlanks_around hblank, List.dropWhile_append, hfront]
  exact ⟨tail ++ w :: dropEndWhile isBlank rest, by simp [show isBlank 'i' = false by decide]⟩

/-- A qualifier takes part in no mark but at the front, where it hides an array in angle
brackets. -/
theorem QualifiersLead.marks (h : QualifiersLead cs) :
    ("[]".toList <:+ stripBlanks (dropQualifiers cs) ↔ "[]".toList <:+ stripBlanks cs) ∧
      (IsArrayText (stripBlanks cs) ↔
        IsArrayText (stripBlanks (dropQualifiers cs)) ∧ ¬ "import(".toList <+: stripBlanks cs) := by
  rcases h.exists_name with
    heq | ⟨before, inner, inner', w, rest, hcs, hkept, hlast, hinner, hblank, hw⟩
  · rw [heq]
    exact ⟨Iff.rfl, fun harray => ⟨harray, harray.not_qualified⟩, And.left⟩
  · rw [hkept, hcs]
    constructor
    · rw [stripBlanks_around hblank, stripBlanks_around hblank, suffix_append_name_iff hw,
        suffix_append_name_iff hw]
    · -- If nothing stands before the qualifier, the text begins with it and is no array; else both
      -- texts have the same front.
      by_cases hfront : before.dropWhile isBlank = []
      · have hbegins := qualifier_front_stripBlanks hfront hinner hblank rest
        exact ⟨fun harray => absurd hbegins harray.not_qualified,
          fun harray => absurd hbegins harray.2⟩
      · have hiff := isArrayText_stripBlanks_iff hfront hlast hblank hw
        constructor
        · intro harray
          exact ⟨(hiff inner' rest).2 ((hiff inner rest).1 harray), harray.not_qualified⟩
        · intro harray
          exact (hiff inner rest).2 ((hiff inner' rest).1 harray.1)

/-- A mark is taken from the plain type exactly if that is an array. A type whose qualifiers lead
to names is an array exactly then as well, but for an array in angle brackets that stands in more
than one line or behind a qualifier: the brackets are taken and the type is no array. -/
theorem mark_taken_iff_isArrayType_iff (type : String) :
    (simplify type ≠ plainType type ↔ isArrayType (plainType type) = true) ∧
      (QualifiersLead type.toList →
        ((simplify type ≠ plainType type ↔ isArrayType type = true) ↔
          ¬ (IsArrayText (plainType type).toList ∧ ('\n' ∈ stripBlanks type.toList ∨
            "import(".toList <+: stripBlanks type.toList)))) := by
  have hchars : (plainType type).toList = plainChars type.toList := String.toList_ofList
  have hplain : stripBlanks (plainChars type.toList) = plainChars type.toList :=
    stripBlanks_stripBlanks _
  rw [simplify_ne_plainType_iff, isArrayType_iff, isArrayType_iff, hchars, hplain]
  constructor
  · rw [and_iff_left (newline_notMem_plainChars type.toList)]
  · intro hlead
    obtain ⟨hsuffix, harray⟩ := marks_plainChars type.toList
    obtain ⟨hsuffix', harray'⟩ := hlead.marks
    have hone : IsArrayText (plainChars type.toList) → ¬ "[]".toList <:+ plainChars type.toList :=
      fun ⟨_, h⟩ => h.not_suffix
    rw [← hsuffix', ← hsuffix, harray', ← harray]
    -- The two can only differ for an array in angle brackets, which does not end in a mark.
    by_cases hbrackets : IsArrayText (plainChars type.toList)
    · simp only [hbrackets, hone hbrackets, or_true, false_or, true_and, true_iff, not_or, and_comm]
    · simp [hbrackets]

/-- A type whose qualifier stands between the brackets. -/
theorem mark_of_imported_element_is_array :
    QualifiersLead "ReadonlyArray<import(\"./tag\").Tag | null>".toList ∧
      (simplify "ReadonlyArray<import(\"./tag\").Tag | null>" ≠
          plainType "ReadonlyArray<import(\"./tag\").Tag | null>" ↔
        isArrayType "ReadonlyArray<import(\"./tag\").Tag | null>" = true) := by
  have hlead : QualifiersLead "ReadonlyArray<import(\"./tag\").Tag | null>".toList := by
    decide +kernel
  refine ⟨hlead, ((mark_taken_iff_isArrayType_iff _).2 hlead).2 ?_⟩
  rintro ⟨-, hline | hfront⟩
  · revert hline
    decide +kernel
  · revert hfront
    decide +kernel

/-- Of an array in more than one line the angle brackets are taken, but it is no array. -/
theorem mark_taken_in_lines_is_no_array :
    ¬ ∀ type : String, simplify type ≠ plainType type ↔ isArrayType type = true := by
  intro h
  have htaken : simplify "Array<\n  Tag\n>" ≠ plainType "Array<\n  Tag\n>" := by decide +kernel
  have hno : isArrayType "Array<\n  Tag\n>" = false := by decide +kernel
  rw [(h _).1 htaken] at hno
  cases hno

end CodeSurvey.DataModel
