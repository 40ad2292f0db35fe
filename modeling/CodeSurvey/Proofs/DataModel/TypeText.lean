import CodeSurvey.DataModel.TypeText
import CodeSurvey.Proofs.Text.Spacing

/-!
# What is read out of a type

A qualifier is `import("…").` in front of a name of another module. The type without them
(`DropsTo`) differs from the text only between the first and the last of them
(`DropsTo.exists_outer`). An array is written `Array<…>` or `ReadonlyArray<…>` (`IsArrayOf`) or ends
with `[]`. One of the two marks is taken from the plain type (`plainType`), which is without
qualifiers, in single spaces and stripped (`simplifyChars_cases`).
-/

namespace CodeSurvey.DataModel

open CodeSurvey.Text

variable {cs element kept q rest : List Char}

/-! ## Qualifiers -/

/-- A text is `import(…).`, with no bracket in it that closes before the last. -/
def IsQualifier (q : List Char) : Prop :=
  ∃ name, ')' ∉ name ∧ q = "import(".toList ++ name ++ ").".toList

/-- What stands behind a qualifier is the rest of a text that begins with one. -/
theorem afterQualifier?_eq_some_iff :
    afterQualifier? cs = some rest ↔ ∃ q, IsQualifier q ∧ cs = q ++ rest := by
  constructor
  · intro h
    unfold afterQualifier? at h
    split at h
    · rename_i tail htail
      split at h
      · rename_i rest' hrest
        obtain rfl : rest' = rest := Option.some.inj h
        refine ⟨_, ⟨tail.takeWhile (· != ')'), ?_, rfl⟩, ?_⟩
        · intro hmem
          simpa using List.mem_takeWhile_imp hmem
        · rw [dropStart?_eq_some_iff.1 htail]
          have htail' := List.takeWhile_append_dropWhile (p := (· != ')')) (l := tail)
          rw [hrest] at htail'
          -- The name goes up to the first closing parenthesis, behind which a point has to stand.
          calc "import(".toList ++ tail
              = "import(".toList ++ (tail.takeWhile (· != ')') ++ ')' :: '.' :: rest') := by
                rw [htail']
            _ = "import(".toList ++ tail.takeWhile (· != ')') ++ ").".toList ++ rest' := by simp
      · cases h
    · cases h
  · rintro ⟨q, ⟨name, hclose, rfl⟩, rfl⟩
    have hstart : dropStart? "import(".toList ("import(".toList ++ name ++ ").".toList ++ rest) =
        some (name ++ ')' :: '.' :: rest) := dropStart?_eq_some_iff.2 (by simp)
    have hend : (name ++ ')' :: '.' :: rest).dropWhile (· != ')') = ')' :: '.' :: rest :=
      dropWhile_append (bne_of_notMem hclose) (by simp)
    simp only [afterQualifier?, hstart, hend]

/-- `kept` is a text without the qualifiers that are found in it, the first one first. -/
inductive DropsTo : List Char → List Char → Prop where
  | nil : DropsTo [] []
  | qualifier {q rest kept : List Char} : IsQualifier q → DropsTo rest kept →
      DropsTo (q ++ rest) kept
  | char {c : Char} {rest kept : List Char} : (∀ q, IsQualifier q → ¬ q <+: c :: rest) →
      DropsTo rest kept → DropsTo (c :: rest) (c :: kept)

/-- Dropping qualifiers takes them out of a text, the first one first. -/
theorem dropsTo_dropQualifiers (cs : List Char) : DropsTo cs (dropQualifiers cs) := by
  fun_induction dropQualifiers cs with
  | case1 => exact .nil
  | case2 c rest after h ih =>
    obtain ⟨q, hq, heq⟩ := afterQualifier?_eq_some_iff.1 h
    rw [heq]
    exact .qualifier hq ih
  | case3 c rest h ih =>
    refine .char ?_ ih
    rintro q hq ⟨after, heq⟩
    rw [afterQualifier?_eq_some_iff.2 ⟨q, hq, heq.symm⟩] at h
    cases h

/-- A text is what it is without its qualifiers, but for what stands from the beginning of the first
to the end of the last. -/
theorem DropsTo.exists_outer (h : DropsTo cs kept) : kept = cs ∨
    ∃ before inner inner' after, cs = before ++ inner ++ after ∧ kept = before ++ inner' ++ after ∧
      (∃ q, IsQualifier q ∧ q <+: inner) ∧ ∃ q, IsQualifier q ∧ q <:+ inner := by
  induction h with
  | nil => exact .inl rfl
  | @qualifier q rest kept hq _ ih =>
    right
    -- The qualifier is the first one, and the last one if there is none in the rest.
    rcases ih with rfl | ⟨before, inner, inner', after, rfl, rfl, -, q', hq', hlast⟩
    · exact ⟨[], q, [], kept, rfl, rfl, ⟨q, hq, List.prefix_refl q⟩, q, hq, List.suffix_refl q⟩
    · refine ⟨[], q ++ before ++ inner, before ++ inner', after, ?_, ?_, ⟨q, hq, ?_⟩, q', hq', ?_⟩
      · simp
      · simp
      · exact (List.prefix_append q before).trans (List.prefix_append _ inner)
      · exact hlast.trans (List.suffix_append _ inner)
  | @char c rest kept _ _ ih =>
    rcases ih with rfl | ⟨before, inner, inner', after, rfl, rfl, hends⟩
    · exact .inl rfl
    · exact .inr ⟨c :: before, inner, inner', after, rfl, rfl, hends⟩

/-! ## Arrays -/

/-- What stands before the type of the elements of an array. -/
def arrayHeads : List (List Char) := ["Array<".toList, "ReadonlyArray<".toList]

/-- What stands before the type of elements holds no white space. -/
theorem isBlank_of_mem_head {head : List Char} (hhead : head ∈ arrayHeads) :
    ∀ c ∈ head, isBlank c = false := by
  have hheads : ∀ head ∈ arrayHeads, head.all (!isBlank ·) = true := by decide
  exact eq_false_of_all (hheads head hhead)

/-- A text is an array around a type, which is not empty. -/
def IsArrayOf (cs element : List Char) : Prop :=
  element ≠ [] ∧ ∃ head ∈ arrayHeads, cs = head ++ element ++ ['>']

/-- A text is an array in angle brackets. -/
def IsArrayText (cs : List Char) : Prop := ∃ element, IsArrayOf cs element

/-- The rest of a text after the head of an array. -/
theorem dropHead?_eq_some_iff :
    dropStart? "Array<".toList ((dropStart? "Readonly".toList cs).getD cs) = some rest ↔
      ∃ head ∈ arrayHeads, cs = head ++ rest := by
  simp only [arrayHeads, List.mem_cons, List.not_mem_nil, or_false, exists_eq_or_imp,
    exists_eq_left]
  cases hread : dropStart? "Readonly".toList cs with
  | none =>
    have hnot : ∀ rest, cs ≠ "Readonly".toList ++ rest := by
      rintro rest rfl
      rw [dropStart?_eq_some_iff.2 rfl] at hread
      cases hread
    rw [Option.getD_none, dropStart?_eq_some_iff]
    have hlong : cs ≠ "ReadonlyArray<".toList ++ rest := hnot ("Array<".toList ++ rest)
    simp only [hlong, or_false]
  | some tail =>
    obtain rfl := dropStart?_eq_some_iff.1 hread
    rw [Option.getD_some, dropStart?_eq_some_iff]
    simp

/-- The type of the elements is found if it stands in one line. -/
theorem arrayElement?_eq_some_iff :
    arrayElement? cs = some element ↔ IsArrayOf cs element ∧ '\n' ∉ element := by
  unfold arrayElement?
  constructor
  · intro h
    split at h
    · rename_i rest hrest
      obtain ⟨head, hhead, rfl⟩ := dropHead?_eq_some_iff.1 hrest
      split_ifs at h with hmark
      simp only [Bool.and_eq_true, Bool.not_eq_true', beq_iff_eq, decide_eq_true_eq,
        List.contains_eq_mem, decide_eq_false_iff_not] at hmark
      -- What is behind the opening bracket ends with the closing one and has more than that.
      obtain ⟨⟨hlast, hlength⟩, hline⟩ := hmark
      obtain ⟨element', rfl⟩ := List.getLast?_eq_some_iff.1 hlast
      obtain rfl : element' = element := by simpa using h
      refine ⟨⟨?_, head, hhead, (List.append_assoc head element' ['>']).symm⟩, ?_⟩
      · rintro rfl
        simp at hlength
      · exact fun hmem => hline (List.mem_append_left _ hmem)
    · cases h
  · rintro ⟨⟨hne, head, hhead, rfl⟩, hline⟩
    have hlength := List.length_pos_iff.2 hne
    have hrest := dropHead?_eq_some_iff.2
      ⟨head, hhead, List.append_assoc head element ['>']⟩
    rw [hrest]
    simp [hline, hlength]

/-- An array in angle brackets has no mark at its end as well. -/
theorem IsArrayOf.not_suffix (h : IsArrayOf cs element) : ¬ "[]".toList <:+ cs := by
  obtain ⟨-, head, -, rfl⟩ := h
  intro hsuffix
  have hlast := List.IsSuffix.getLast hsuffix (by simp)
  simp at hlast

/-- The type of the elements is a part of that of the array. -/
theorem IsArrayOf.subset (h : IsArrayOf cs element) : element ⊆ cs := by
  obtain ⟨-, head, -, rfl⟩ := h
  intro c hc
  exact List.mem_append_left _ (List.mem_append_right _ hc)

/-- Without white space at its ends it is shorter than that of the array. -/
theorem IsArrayOf.length_stripBlanks_lt (h : IsArrayOf cs element) :
    (stripBlanks element).length < cs.length := by
  obtain ⟨-, head, -, rfl⟩ := h
  obtain ⟨before, after, heq, -⟩ := exists_stripBlanks element
  have hlength := congrArg List.length heq
  simp only [List.length_append] at hlength
  simp only [List.length_append, List.length_singleton]
  omega

/-! ## The plain type -/

/-- A type without qualifiers, in single spaces and stripped. -/
def plainChars (cs : List Char) : List Char := stripBlanks (collapseBlanks (dropQualifiers cs))

/-- A type without qualifiers, in single spaces and stripped. -/
def plainType (type : String) : String := String.ofList (plainChars type.toList)

/-- The plain type stands in one line. -/
theorem newline_notMem_plainChars (cs : List Char) : '\n' ∉ plainChars cs := by
  intro hmem
  rw [plainChars, stripBlanks_collapseBlanks] at hmem
  have hspace := eq_space_of_mem_collapseBlanks hmem (by decide)
  cases hspace

/-- What is taken from the plain type: the angle brackets of an array, or the mark at its end, or
nothing. -/
theorem simplifyChars_cases (cs : List Char) :
    (∃ element, IsArrayOf (plainChars cs) element ∧ simplifyChars cs = stripBlanks element) ∨
      plainChars cs = simplifyChars cs ++ "[]".toList ∨
      (∀ element, ¬ IsArrayOf (plainChars cs) element) ∧ ¬ "[]".toList <:+ plainChars cs ∧
        simplifyChars cs = plainChars cs := by
  cases hfound : arrayElement? (plainChars cs) with
  | some element =>
    refine .inl ⟨element, (arrayElement?_eq_some_iff.1 hfound).1, ?_⟩
    unfold plainChars at hfound
    simp only [simplifyChars, hfound]
  | none =>
    right
    have harray : ∀ element, ¬ IsArrayOf (plainChars cs) element := by
      intro element h
      -- No line break is left in a plain type, so an array is never overlooked for that.
      have hline : '\n' ∉ element := fun hmem => newline_notMem_plainChars cs (h.subset hmem)
      rw [arrayElement?_eq_some_iff.2 ⟨h, hline⟩] at hfound
      cases hfound
    have hmark : simplifyChars cs =
        if "[]".toList.isSuffixOf (plainChars cs) then (plainChars cs).dropLast.dropLast
        else plainChars cs := by
      unfold plainChars at hfound ⊢
      simp only [simplifyChars, hfound]
    rw [hmark]
    by_cases hsuffix : "[]".toList <:+ plainChars cs
    · left
      rw [if_pos (List.isSuffixOf_iff_suffix.2 hsuffix)]
      obtain ⟨type, htype⟩ := hsuffix
      rw [← htype]
      simp
    · right
      rw [if_neg (mt List.isSuffixOf_iff_suffix.1 hsuffix)]
      exact ⟨harray, hsuffix, rfl⟩

/-- A mark is taken from a plain type exactly if it has one. -/
theorem simplify_ne_plainType_iff (type : String) :
    simplify type ≠ plainType type ↔
      "[]".toList <:+ plainChars type.toList ∨ IsArrayText (plainChars type.toList) := by
  have hchars : simplify type = plainType type ↔
      simplifyChars type.toList = plainChars type.toList := String.ofList_inj
  rw [Ne, hchars]
  -- What is left is shorter if a mark is taken away.
  rcases simplifyChars_cases type.toList with ⟨element, harray, heq⟩ | heq | ⟨harray, hsuffix, heq⟩
  · have hne : simplifyChars type.toList ≠ plainChars type.toList := by
      intro h
      have hshort := harray.length_stripBlanks_lt
      rw [← heq, h] at hshort
      exact lt_irrefl _ hshort
    exact ⟨fun _ => .inr ⟨element, harray⟩, fun _ => hne⟩
  · have hne : simplifyChars type.toList ≠ plainChars type.toList := by
      intro h
      rw [h] at heq
      simp at heq
    exact ⟨fun _ => .inl ⟨_, heq.symm⟩, fun _ => hne⟩
  · constructor
    · exact fun hne => absurd heq hne
    · rintro (h | ⟨element, h⟩)
      · exact absurd h hsuffix
      · exact absurd h (harray element)

end CodeSurvey.DataModel
