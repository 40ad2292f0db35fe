import CodeSurvey.Directory.Outline
import CodeSurvey.Proofs.Text.Digits
import CodeSurvey.Proofs.Text.Pieces
import Mathlib.Algebra.Order.Field.Rat
import Mathlib.Tactic.Linarith
import Mathlib.Tactic.NormNum
import Mathlib.Tactic.Ring

/-!
# Sizes as they are shown

The text of a size is read back as a number of tenths and a unit (`Shown.ofText?`). The unit is the
largest of which there is at least one (`unitOf_spec`), and the number is the exact one, rounded to
a tenth (`ofText?_sizeText`).

The unit is chosen before the number is rounded. The number is still at least one but in bytes, and
of a larger size no less is shown (`bytes_shownOf_mono`); but a size that is at most half a tenth
under 1024 of its unit is shown as 1024 of it, and not as one of the next
(`shown_number_below_limit_iff`).
-/

namespace CodeSurvey.Decimal

/-- A fraction is rounded past a number if it is past the middle between that number and the next,
or in the middle if the next number is the even one. -/
theorem Ratio.lt_round_iff {r : Ratio} (hden : 0 < r.den) {n : Nat} :
    n < r.round ↔ (2 * n + 1) * r.den < 2 * r.num ∨
      (2 * n + 1) * r.den = 2 * r.num ∧ n % 2 = 1 := by
  obtain ⟨num, den⟩ := r
  simp only at hden ⊢
  have hless : num % den < den := Nat.mod_lt num hden
  have hnum : 2 * num = 2 * (num / den * den) + 2 * (num % den) := by
    rw [← Nat.mul_add, Nat.div_add_mod']
  have hmiddle : (2 * n + 1) * den = 2 * (n * den) + den := by ring
  rw [hnum, hmiddle]
  unfold round
  simp only
  -- Behind the whole part of the fraction the middle is not reached, and before it it is passed.
  rcases Nat.lt_trichotomy n (num / den) with hn | rfl | hn
  · have hmul : n * den + den ≤ num / den * den := by
      rw [← Nat.succ_mul]
      exact Nat.mul_le_mul_right den hn
    split_ifs <;> omega
  · split_ifs <;> omega
  · have hmul : num / den * den + den ≤ n * den := by
      rw [← Nat.succ_mul]
      exact Nat.mul_le_mul_right den hn
    split_ifs <;> omega

end CodeSurvey.Decimal

namespace CodeSurvey.Directory

open CodeSurvey.Decimal

/-! ## Reading a text -/

/-- The units by name, with the bytes that each holds. -/
def allUnits : List (String × Nat) := ("B", 1) :: units

/-- The number that a text of digits writes. -/
def digits? (s : String) : Option Nat :=
  if !s.isEmpty && s.toList.all Text.isDigit then some (Text.decimalValue s.toList) else none

/-- The tenths of a number that is written with one place after the point, or with no point. -/
def tenths? (s : String) : Option Nat :=
  match Text.split s '.' with
  | [whole] => (digits? whole).map (10 * ·)
  | [whole, tenth] =>
    if tenth.length = 1 then do return 10 * (← digits? whole) + (← digits? tenth) else none
  | _ => none

/-- What the text of a size shows. -/
structure Shown where
  /-- The number, in tenths. -/
  tenths : Nat
  /-- The name of the unit, and the bytes that it holds. -/
  unit : String × Nat
deriving DecidableEq, Repr

namespace Shown

/-- The number that is shown. -/
def number (s : Shown) : ℚ := s.tenths / 10

/-- The quantity that is shown, in bytes. -/
def bytes (s : Shown) : ℚ := s.number * s.unit.2

/-- What a text shows: a number, a space and the name of a unit. -/
def ofText? (text : String) : Option Shown :=
  match Text.split text ' ' with
  | [number, name] => do
    return ⟨← tenths? number, ← allUnits.find? (·.1 == name)⟩
  | _ => none

end Shown

/-- A number is read back. -/
theorem digits?_toString (n : Nat) : digits? (toString n) = some n := by
  have hdigits : (toString n).toList.all Text.isDigit = true := by
    rw [Text.toList_toString]
    exact List.all_eq_true.2 fun c => Text.isDigit_of_mem_toDigits
  have hne : (toString n).isEmpty = false := by
    rw [← Bool.not_eq_true, String.isEmpty_iff, ← String.toList_eq_nil_iff, Text.toList_toString]
    exact Nat.toDigits_ne_nil
  rw [digits?, hdigits, hne, Text.toList_toString, Text.decimalValue_toDigits]
  rfl

/-- A number without a point has ten times as many tenths. -/
theorem tenths?_toString (n : Nat) : tenths? (toString n) = some (10 * n) := by
  rw [tenths?, Text.split_of_notMem (Text.notMem_toString (by decide) n)]
  simp only [digits?_toString, Option.map_some]

/-- What is written with one place after the point is read back. -/
theorem tenths?_tenthsText (r : Ratio) : tenths? (tenthsText r) = some (r.shift 1).round := by
  have hplace : (toString ((r.shift 1).round % 10)).length = 1 := by
    rw [← String.length_toList, Text.toList_toString,
      Nat.toDigits_of_lt_base (Nat.mod_lt _ (by decide))]
    rfl
  have hpoint : ".".toList = ['.'] := by decide
  have hdigit : Text.isDigit '.' = false := by decide
  rw [tenths?, tenthsText,
    Text.split_pair hpoint (Text.notMem_toString hdigit _) (Text.notMem_toString hdigit _)]
  simp only [if_pos hplace, digits?_toString]
  exact congrArg some (Nat.div_add_mod _ 10)

/-- There is no space in a number with tenths. -/
theorem space_notMem_tenthsText (r : Ratio) : ' ' ∉ (tenthsText r).toList := by
  have hdigit : Text.isDigit ' ' = false := by decide
  have hpoint : ' ' ∉ ".".toList := by decide
  rw [tenthsText, String.toList_append, String.toList_append, List.mem_append, List.mem_append]
  rintro ((h | h) | h)
  · exact Text.notMem_toString hdigit _ h
  · exact hpoint h
  · exact Text.notMem_toString hdigit _ h

/-- A number and a unit are read back. -/
theorem Shown.ofText?_append {number : String} (hnumber : ' ' ∉ number.toList)
    {u : String × Nat} (hu : u ∈ allUnits) :
    Shown.ofText? (number ++ " " ++ u.1) = (tenths? number).map fun tenths => ⟨tenths, u⟩ := by
  have hspace : " ".toList = [' '] := by decide
  have hname : ∀ u ∈ allUnits, ' ' ∉ u.1.toList := by decide
  have hfind : ∀ u ∈ allUnits, allUnits.find? (·.1 == u.1) = some u := by decide
  rw [ofText?, Text.split_pair hspace hnumber (hname u hu)]
  simp only [hfind u hu]
  cases tenths? number with
  | none => rfl
  | some tenths => rfl

/-! ## The unit of a size -/

/-- The unit in which a size is shown. -/
def unitOf (size : Nat) : String × Nat := if size < 1024 then ("B", 1) else unitFor size units

/-- The units with what they hold. -/
theorem unitOf_eq (size : Nat) : unitOf size =
    if size < 1024 then ("B", 1) else if size < 1024 * 1024 then ("KB", 1024)
    else if size < 1024 * (1024 * 1024) then ("MB", 1024 * 1024)
    else ("GB", 1024 * 1024 * 1024) := rfl

/-- There is at least one of the unit but in bytes, and there are fewer than 1024 but in the
largest one. -/
theorem unitOf_spec (size : Nat) : unitOf size ∈ allUnits ∧
    ((unitOf size).1 ≠ "B" → (unitOf size).2 ≤ size) ∧
    ((unitOf size).1 ≠ "GB" → size < 1024 * (unitOf size).2) := by
  rw [unitOf_eq]
  split_ifs with hbytes hkilo hmega
  · exact ⟨by decide, fun h => absurd rfl h, fun _ => by omega⟩
  · exact ⟨by decide, fun _ => by omega, fun _ => by omega⟩
  · exact ⟨by decide, fun _ => by omega, fun _ => by omega⟩
  · exact ⟨by decide, fun _ => by omega, fun h => absurd rfl h⟩

/-- Every unit holds at least one byte. -/
theorem pos_of_mem_allUnits : ∀ u ∈ allUnits, 0 < u.2 := by decide

/-- Of two units one holds at least 1024 of the other. -/
theorem units_apart : ∀ u ∈ allUnits, ∀ v ∈ allUnits, u = v ∨
    (1024 * u.2 ≤ v.2 ∧ u.1 ≠ "GB" ∧ v.1 ≠ "B") ∨ (1024 * v.2 ≤ u.2 ∧ v.1 ≠ "GB" ∧ u.1 ≠ "B") := by
  decide

variable {size size' unit : Nat}

/-- A larger size is shown in the same unit, or between the two sizes lies the smaller one of their
units taken 1024 times. -/
theorem unitOf_mono (h : size ≤ size') : unitOf size = unitOf size' ∨
    size < 1024 * (unitOf size).2 ∧ 1024 * (unitOf size).2 ≤ (unitOf size').2 ∧
      (unitOf size').2 ≤ size' := by
  obtain ⟨hmem, hleast, hmost⟩ := unitOf_spec size
  obtain ⟨hmem', hleast', hmost'⟩ := unitOf_spec size'
  rcases units_apart _ hmem _ hmem' with heq | ⟨happart, hunit, hunit'⟩ | ⟨happart, hunit', hunit⟩
  · exact .inl heq
  · exact .inr ⟨hmost hunit, happart, hleast' hunit'⟩
  · have hle := hleast hunit
    have hlt := hmost' hunit'
    omega

/-! ## The number of a size -/

/-- The tenths of a size in a unit. -/
def tenthsIn (size unit : Nat) : Nat := ((Ratio.mk size unit).shift 1).round

/-- There are more than a number of tenths if the size is past the middle between this number and
the next, or in the middle and the next one is even. -/
theorem lt_tenthsIn_iff (hunit : 0 < unit) {n : Nat} :
    n < tenthsIn size unit ↔
      (2 * n + 1) * unit < 20 * size ∨ (2 * n + 1) * unit = 20 * size ∧ n % 2 = 1 := by
  have htwice : 2 * (size * Nat.pow 10 (1 : Int).toNat) = 20 * size := by
    rw [show Nat.pow 10 (1 : Int).toNat = 10 from rfl]
    omega
  rw [tenthsIn, Ratio.lt_round_iff hunit]
  exact htwice ▸ Iff.rfl

/-- A larger size has no fewer tenths. -/
theorem tenthsIn_mono (hunit : 0 < unit) (h : size ≤ size') :
    tenthsIn size unit ≤ tenthsIn size' unit := by
  refine le_of_forall_lt fun n hn => ?_
  rw [lt_tenthsIn_iff hunit] at hn ⊢
  omega

/-- In bytes there are ten tenths for each. -/
theorem tenthsIn_one (size : Nat) : tenthsIn size 1 = 10 * size := by
  refine eq_of_forall_lt_iff fun n => ?_
  rw [lt_tenthsIn_iff Nat.one_pos]
  omega

/-- A size of at least one unit has ten tenths or more. -/
theorem ten_le_tenthsIn (hunit : 0 < unit) (h : unit ≤ size) : 10 ≤ tenthsIn size unit := by
  rw [Nat.succ_le_iff, lt_tenthsIn_iff hunit]
  omega

/-- Up to 1024 of a unit there are 10240 tenths at most. -/
theorem tenthsIn_le (hunit : 0 < unit) (h : size ≤ 1024 * unit) :
    tenthsIn size unit ≤ 10240 := by
  rw [← Nat.not_lt, lt_tenthsIn_iff hunit]
  omega

/-- From half a tenth under 1024 on, 1024 is shown. -/
theorem tenthsIn_lt_iff (hunit : 0 < unit) :
    tenthsIn size unit < 10240 ↔ 20 * size < 20479 * unit := by
  rw [Nat.lt_succ_iff, ← Nat.not_lt, lt_tenthsIn_iff hunit]
  omega

/-! ## What is shown of a size -/

/-- What is shown of a size. -/
def shownOf (size : Nat) : Shown := ⟨tenthsIn size (unitOf size).2, unitOf size⟩

/-- Up to the 53rd power of two every number is a double. -/
theorem nearestDouble?_of_le {n : Nat} (h : n ≤ 2 ^ 53) : nearestDouble? n = some n := by
  rcases Nat.lt_or_eq_of_le h with hlt | rfl
  · have hbits : n.log2 + 1 ≤ 53 := by
      rcases Nat.eq_zero_or_pos n with rfl | hpos
      · decide
      · exact (Nat.log2_lt hpos.ne').2 hlt
    exact if_pos hbits
  · decide +kernel

/-- What the text of a size shows is read off it. -/
theorem ofText?_sizeText (h : size ≤ 2 ^ 53) :
    Shown.ofText? (sizeText size) = some (shownOf size) := by
  have htext : sizeText size = doubleSizeText size := by
    have hpositive : ¬ (size : Int) < 0 := by omega
    unfold sizeText sizeText?
    rw [Int.natAbs_natCast, nearestDouble?_of_le h, Option.map_some, if_neg hpositive,
      Option.getD_some]
  obtain ⟨hmem, -⟩ := unitOf_spec size
  rw [htext, doubleSizeText, shownOf]
  -- Bytes are shown as they are, greater units with one digit after the point.
  split_ifs with hbytes
  · have hunit : unitOf size = ("B", 1) := if_pos hbytes
    have hspace : toString size ++ " B" = toString size ++ " " ++ (unitOf size).1 := by
      rw [hunit, String.append_assoc]
      rfl
    rw [hspace, Shown.ofText?_append (Text.notMem_toString (by decide) size) hmem, tenths?_toString,
      hunit, tenthsIn_one]
    rfl
  · have hunit : unitOf size = unitFor size units := if_neg hbytes
    rw [← hunit, Shown.ofText?_append (space_notMem_tenthsText _) hmem, tenths?_tenthsText]
    rfl

namespace Shown

variable {s s' : Shown}

/-- The number shown is compared with a whole one by their tenths. -/
theorem number_lt_iff {n : Nat} : s.number < n ↔ s.tenths < 10 * n := by
  rw [number, div_lt_iff₀ (by norm_num), mul_comm]
  exact_mod_cast Iff.rfl

/-- The number shown is at most a whole one if its tenths are. -/
theorem number_le_iff {n : Nat} : s.number ≤ n ↔ s.tenths ≤ 10 * n := by
  rw [number, div_le_iff₀ (by norm_num), mul_comm]
  exact_mod_cast Iff.rfl

/-- The number shown is at least a whole one if its tenths are. -/
theorem le_number_iff {n : Nat} : (n : ℚ) ≤ s.number ↔ 10 * n ≤ s.tenths := by
  rw [← not_lt, number_lt_iff, not_lt]

/-- Quantities are compared by their tenths. -/
theorem bytes_le_iff : s.bytes ≤ s'.bytes ↔ s.tenths * s.unit.2 ≤ s'.tenths * s'.unit.2 := by
  have hbytes (s : Shown) : s.bytes = ((s.tenths * s.unit.2 : Nat) : ℚ) / 10 := by
    rw [bytes, number, div_mul_eq_mul_div, Nat.cast_mul]
  rw [hbytes, hbytes, div_le_div_iff_of_pos_right (by norm_num), Nat.cast_le]

end Shown

/-- Of a larger size no less is shown. -/
theorem bytes_shownOf_mono (h : size ≤ size') : (shownOf size).bytes ≤ (shownOf size').bytes := by
  rw [Shown.bytes_le_iff]
  have hpos := pos_of_mem_allUnits _ (unitOf_spec size).1
  have hpos' := pos_of_mem_allUnits _ (unitOf_spec size').1
  rcases unitOf_mono h with hunit | ⟨hlt, happart, hle⟩
  · rw [shownOf, shownOf, ← hunit]
    exact Nat.mul_le_mul_right _ (tenthsIn_mono hpos h)
  · -- Rounding takes the smaller size to 1024 of its unit at most, and the other has not less.
    calc tenthsIn size (unitOf size).2 * (unitOf size).2
        ≤ 10240 * (unitOf size).2 := Nat.mul_le_mul_right _ (tenthsIn_le hpos hlt.le)
      _ = 10 * (1024 * (unitOf size).2) := by omega
      _ ≤ 10 * (unitOf size').2 := Nat.mul_le_mul_left 10 happart
      _ ≤ tenthsIn size' (unitOf size').2 * (unitOf size').2 :=
        Nat.mul_le_mul_right _ (ten_le_tenthsIn hpos' hle)

/-- Below the largest unit the number is 1024 at most, and it is less exactly if the size is more
than half a tenth under 1024 of the unit. But in bytes it is one at least. Of a larger size no less
is shown. -/
theorem shown_number_below_limit_iff (hle : size ≤ size') (hlimit : size' ≤ 2 ^ 53) :
    ∃ s s', Shown.ofText? (sizeText size) = some s ∧ Shown.ofText? (sizeText size') = some s' ∧
      (s.unit.1 ≠ "GB" → s.number ≤ 1024 ∧
        (s.number < 1024 ↔ (size : ℚ) / s.unit.2 < 1024 - 1 / 20)) ∧
      (s.unit.1 ≠ "B" → 1 ≤ s.number) ∧
      s.bytes ≤ s'.bytes := by
  obtain ⟨hmem, hleast, hmost⟩ := unitOf_spec size
  have hpos := pos_of_mem_allUnits _ hmem
  refine ⟨shownOf size, shownOf size', ofText?_sizeText (hle.trans hlimit), ofText?_sizeText hlimit,
    fun hunit => ⟨?_, ?_⟩, fun hunit => ?_, bytes_shownOf_mono hle⟩
  · exact_mod_cast Shown.number_le_iff.2 (tenthsIn_le hpos (hmost hunit).le)
  · -- The number is in tenths: it is rounded up to the limit from half a tenth below it.
    calc (shownOf size).number < 1024
        ↔ (shownOf size).tenths < 10 * 1024 := by exact_mod_cast Shown.number_lt_iff (n := 1024)
      _ ↔ 20 * size < 20479 * (unitOf size).2 := tenthsIn_lt_iff hpos
      _ ↔ (20 * size : ℚ) < 20479 * (unitOf size).2 := by exact_mod_cast Iff.rfl
      _ ↔ (size : ℚ) < (1024 - 1 / 20) * (unitOf size).2 := by
        constructor <;> intro h <;> linarith
      _ ↔ (size : ℚ) / (unitOf size).2 < 1024 - 1 / 20 := by
        rw [div_lt_iff₀ (by exact_mod_cast hpos)]
  · exact_mod_cast Shown.le_number_iff.2 (ten_le_tenthsIn hpos (hleast hunit))

/-- A byte under a megabyte 1024 kilobytes are shown. -/
theorem number_reaches_limit : sizeText 1048575 = "1024.0 KB" ∧
    ¬ ∀ size ≤ 2 ^ 53, ∀ s, Shown.ofText? (sizeText size) = some s →
      s.unit.1 ≠ "GB" → s.number < 1024 := by
  refine ⟨by decide +kernel, fun h => ?_⟩
  have hlt := h 1048575 (by norm_num) _ (ofText?_sizeText (by norm_num)) (by decide)
  have htenths : (shownOf 1048575).tenths < 10 * 1024 := by
    exact_mod_cast Shown.number_lt_iff (n := 1024).1 hlt
  exact absurd htenths (by decide)

/-- The least size that is shown as 1024 kilobytes, and a megabyte. -/
theorem number_at_limit_is_shown : 1048525 ≤ 1048576 ∧ 1048576 ≤ 2 ^ 53 ∧
    ∃ s s', Shown.ofText? (sizeText 1048525) = some s ∧
      Shown.ofText? (sizeText 1048576) = some s' ∧
      (s.unit.1 ≠ "GB" → s.number ≤ 1024 ∧
        (s.number < 1024 ↔ ((1048525 : Nat) : ℚ) / s.unit.2 < 1024 - 1 / 20)) ∧
      (s.unit.1 ≠ "B" → 1 ≤ s.number) ∧
      s.bytes ≤ s'.bytes :=
  ⟨by norm_num, by norm_num, shown_number_below_limit_iff (by norm_num) (by norm_num)⟩

end CodeSurvey.Directory
