import CodeSurvey.Json.Writer
import CodeSurvey.Proofs.Text.Digits

/-!
# The characters of stored texts

Whatever a value holds, its stored text is made of printable ASCII characters and line feeds
(`isStoredText_layout`). So it is the same in every encoding that extends ASCII, and no line
boundary in it is changed when it is read (`return_notMem_stored`).
-/

namespace CodeSurvey.Json

open CodeSurvey.Text (hexDigits)

/-- The characters of stored texts: printable ASCII and line feeds. -/
def IsStoredChar (c : Char) : Prop := c = '\n' ∨ 32 ≤ c.toNat ∧ c.toNat ≤ 126

instance (c : Char) : Decidable (IsStoredChar c) :=
  inferInstanceAs (Decidable (c = '\n' ∨ 32 ≤ c.toNat ∧ c.toNat ≤ 126))

/-- A text of such characters. -/
def IsStoredText (cs : List Char) : Prop := ∀ c ∈ cs, IsStoredChar c

instance (cs : List Char) : Decidable (IsStoredText cs) := List.decidableBAll IsStoredChar cs

namespace IsStoredText

variable {cs ds : List Char} {s t : String}

/-- No characters are stored text. -/
@[simp] theorem nil : IsStoredText [] := fun _ hc => absurd hc List.not_mem_nil

/-- A text is stored text if its first character is a stored one and the others are stored text. -/
@[simp] theorem cons_iff {c : Char} :
    IsStoredText (c :: cs) ↔ IsStoredChar c ∧ IsStoredText cs :=
  List.forall_mem_cons

/-- Of two texts one after the other both are stored text. -/
@[simp] theorem append_iff :
    IsStoredText (cs ++ ds) ↔ IsStoredText cs ∧ IsStoredText ds :=
  List.forall_mem_append

/-- Parts of such a text are such texts. -/
theorem subset (h : IsStoredText cs) (hsub : ds ⊆ cs) : IsStoredText ds :=
  fun c hc => h c (hsub hc)

/-- So is a stored character any number of times. -/
theorem replicate {c : Char} (hc : IsStoredChar c) (n : Nat) :
    IsStoredText (List.replicate n c) := by
  intro d hd
  rwa [List.eq_of_mem_replicate hd]

end IsStoredText

/-! ## Strings -/

/-- The escape of a UTF-16 unit is stored as it is. -/
theorem isStoredText_unitEscape {n : Nat} (hn : n < 0x10000) : IsStoredText (unitEscape n) := by
  have hdigit : ∀ d : Fin 16, IsStoredChar d.val.digitChar := by decide
  rw [unitEscape, Text.toList_hexDigits_four hn]
  simp only [IsStoredText.cons_iff, IsStoredText.nil, and_true]
  exact ⟨by decide, by decide, hdigit ⟨n / 4096, by omega⟩, hdigit ⟨n / 256 % 16, by omega⟩,
    hdigit ⟨n / 16 % 16, by omega⟩, hdigit ⟨n % 16, by omega⟩⟩

/-- An escaped character is stored as it is. -/
theorem isStoredText_escapeChar (c : Char) : IsStoredText (escapeChar isPlainAscii c) := by
  unfold escapeChar
  cases hs : shortEscape? c with
  | some e =>
    have he : IsStoredChar e := by
      unfold shortEscape? at hs
      split_ifs at hs <;> (obtain rfl := Option.some.inj hs; decide)
    simp only [IsStoredText.cons_iff, IsStoredText.nil, and_true]
    exact ⟨by decide, he⟩
  | none =>
    simp only
    split_ifs with hplain
    · simp only [isPlainAscii, Bool.and_eq_true, decide_eq_true_eq] at hplain
      simp only [IsStoredText.cons_iff, IsStoredText.nil, and_true]
      exact .inr hplain
    · rw [unicodeEscape]
      split_ifs with hc
      · exact isStoredText_unitEscape hc
      · -- A character beyond the basic plane is a pair of units.
        have hvalid : c.toNat < 0x110000 := by
          have := c.valid
          simp only [UInt32.isValidChar, Nat.isValidChar] at this
          simp only [Char.toNat]
          omega
        exact IsStoredText.append_iff.2
          ⟨isStoredText_unitEscape (by omega), isStoredText_unitEscape (by omega)⟩

/-- A quoted text is stored as it is. -/
theorem isStoredText_quoted (s : String) : IsStoredText (quoted isPlainAscii s) := by
  have hinner : IsStoredText (s.toList.flatMap (escapeChar isPlainAscii)) := by
    intro e he
    obtain ⟨c, -, hec⟩ := List.mem_flatMap.1 he
    exact isStoredText_escapeChar c e hec
  simp only [quoted, List.cons_append, IsStoredText.cons_iff, IsStoredText.append_iff,
    IsStoredText.nil, and_true]
  exact ⟨by decide, hinner, by decide⟩

/-! ## Numbers -/

/-- Decimal digits are stored as they are. -/
theorem isStoredText_toDigits (n : Nat) : IsStoredText (Nat.toDigits 10 n) := by
  intro c hc
  have hbounds := Text.toNat_of_isDigit (Text.isDigit_of_mem_toDigits hc)
  exact .inr (by omega)

/-- So are the digits of a number. -/
theorem isStoredText_nat (n : Nat) : IsStoredText (toString n).toList := by
  rw [Text.toList_toString]
  exact isStoredText_toDigits n

/-- A whole number is stored as it is. -/
theorem isStoredText_int (n : Int) : IsStoredText (toString n).toList := by
  rw [Int.toString_eq_repr, Int.repr_eq_if]
  split_ifs
  · exact isStoredText_nat _
  · rw [String.toList_append, IsStoredText.append_iff]
    exact ⟨by decide, isStoredText_nat _⟩

/-- Digits in a layout are stored as they are. -/
theorem isStoredText_write (l : Decimal.Layout) (d : Decimal.Digits) :
    IsStoredText (l.write d).toList := by
  have hdigits := isStoredText_nat d.digits
  have htake : ∀ n, IsStoredText ((toString d.digits).toList.take n) := fun n =>
    hdigits.subset (List.take_subset _ _)
  have hdrop : ∀ n, IsStoredText ((toString d.digits).toList.drop n) := fun n =>
    hdigits.subset (List.drop_subset _ _)
  have hzeros : ∀ n, IsStoredText (Decimal.zeros n).toList := by
    intro n
    rw [Decimal.zeros, String.toList_ofList]
    exact .replicate (by decide) _
  have hexponent : ∀ e, IsStoredText (Decimal.exponentText e).toList := by
    intro e
    rw [Decimal.exponentText, String.toList_append, Text.padded, String.toList_ofList]
    simp only [IsStoredText.append_iff]
    refine ⟨?_, .replicate (by decide) _, isStoredText_toDigits _⟩
    split_ifs <;> decide
  -- Whatever the layout is, the text is made of digits, points, zeros and an exponent.
  unfold Decimal.Layout.write
  dsimp only
  split_ifs <;>
    simp only [String.toList_append, String.toList_ofList, IsStoredText.append_iff, htake, hdrop,
      hzeros, hexponent, hdigits, true_and, and_true] <;> decide

/-- A fractional number is stored as it is. -/
theorem isStoredText_float (x : Float) : IsStoredText (floatToken x).toList := by
  unfold floatToken
  split
  · decide
  · split_ifs <;> decide
  · unfold Decimal.floatText
    have hsign : ∀ neg, IsStoredText (Decimal.signText neg).toList := by decide
    split
    · decide
    · rw [String.toList_append, IsStoredText.append_iff]
      exact ⟨hsign _, by decide⟩
    · rw [String.toList_append, IsStoredText.append_iff]
      refine ⟨hsign _, ?_⟩
      split_ifs
      · decide
      · exact isStoredText_write _ _

/-! ## Values -/

/-- A line break is stored as it is. -/
theorem isStoredText_newLine (level : Nat) : IsStoredText (newLine level) := by
  rw [newLine, IsStoredText.cons_iff]
  exact ⟨by decide, .replicate (by decide) _⟩

/-- And what stands between a name and its value. -/
theorem isStoredText_colon : IsStoredText ": ".toList := by decide

mutual

/-- Every value is stored in printable ASCII and line feeds. -/
theorem isStoredText_layout (level : Nat) : ∀ j : Json, IsStoredText (layout level j)
  | .null => by rw [layout]; decide
  | .bool b => by rw [layout]; cases b <;> decide
  | .int n => by rw [layout]; exact isStoredText_int n
  | .float x => by rw [layout]; exact isStoredText_float x
  | .str s => by rw [layout]; exact isStoredText_quoted s
  | .arr [] => by rw [layout]; decide
  | .arr (item :: items) => by
    rw [layout]
    -- What stands between the items is stored as it is, the items by recursion.
    simp only [List.cons_append, IsStoredText.cons_iff, IsStoredText.append_iff,
      isStoredText_newLine, isStoredText_layout (level + 1) item,
      isStoredText_layoutItems (level + 1) items, IsStoredText.nil, and_true]
    decide
  | .obj [] => by rw [layout]; decide
  | .obj ((key, value) :: members) => by
    rw [layout]
    simp only [List.cons_append, IsStoredText.cons_iff, IsStoredText.append_iff,
      isStoredText_newLine, isStoredText_quoted, isStoredText_colon,
      isStoredText_layout (level + 1) value, isStoredText_layoutMembers (level + 1) members,
      IsStoredText.nil, and_true]
    decide

/-- The further items of an array. -/
theorem isStoredText_layoutItems (level : Nat) :
    ∀ items : List Json, IsStoredText (layoutItems level items)
  | [] => by rw [layoutItems]; exact .nil
  | item :: items => by
    rw [layoutItems]
    simp only [List.cons_append, IsStoredText.cons_iff, IsStoredText.append_iff,
      isStoredText_newLine, isStoredText_layout level item, isStoredText_layoutItems level items,
      and_true]
    decide

/-- The further members of an object. -/
theorem isStoredText_layoutMembers (level : Nat) :
    ∀ members : List (String × Json), IsStoredText (layoutMembers level members)
  | [] => by rw [layoutMembers]; exact .nil
  | (key, value) :: members => by
    rw [layoutMembers]
    simp only [List.cons_append, IsStoredText.cons_iff, IsStoredText.append_iff,
      isStoredText_newLine, isStoredText_quoted, isStoredText_colon,
      isStoredText_layout level value, isStoredText_layoutMembers level members, and_true]
    decide

end

/-- A stored text has no carriage returns. -/
theorem return_notMem_stored (j : Json) : '\r' ∉ j.stored.toList := by
  intro hmem
  rw [stored, String.toList_ofList] at hmem
  exact absurd (isStoredText_layout 0 j _ hmem) (by decide)

end CodeSurvey.Json
