import CodeSurvey.Text.Basic
import Mathlib.Data.Nat.Digits.Defs
import Mathlib.Tactic.Common

/-!
# Digits of numbers

The digits that a number is written with, decimal ones of any number and four hexadecimal ones of a
UTF-16 unit, and that they are read back as the number.
-/

namespace CodeSurvey.Text

/-- The ten ASCII digits are those of the core library. -/
theorem isDigit_eq (c : Char) : isDigit c = c.isDigit := by
  rw [Bool.eq_iff_iff]
  simp only [isDigit, Char.isDigit, Bool.and_eq_true, decide_eq_true_eq]
  rfl

/-- Where the ten ASCII digits stand. -/
theorem toNat_of_isDigit {c : Char} (h : isDigit c = true) : 48 ≤ c.toNat ∧ c.toNat ≤ 57 := by
  simpa [isDigit, Char.le_def, UInt32.le_iff_toNat_le] using h

/-- Every character of a number in base ten is a digit. -/
theorem isDigit_of_mem_toDigits {n : Nat} {c : Char} (h : c ∈ Nat.toDigits 10 n) :
    isDigit c = true := by
  rw [isDigit_eq]
  exact Nat.isDigit_of_mem_toDigits (by decide) (by decide) h

/-- A number in base ten is read back. -/
theorem decimalValue_toDigits (n : Nat) : decimalValue (Nat.toDigits 10 n) = n := by
  have h := Nat.ofDigitChars_ten_toDigits (n := n)
  rw [Nat.ofDigitChars_eq_foldl] at h
  simpa only [decimalValue, Nat.mul_comm] using h

/-- A number is written with its decimal digits. -/
theorem toList_toString (n : Nat) : (toString n).toList = Nat.toDigits 10 n := Nat.toList_repr

/-- The text of a number has digits only. -/
theorem notMem_toString {c : Char} (hc : isDigit c = false) (n : Nat) :
    c ∉ (toString n).toList := by
  intro h
  rw [toList_toString] at h
  rw [isDigit_of_mem_toDigits h] at hc
  cases hc

/-- Digits after a number do not take it to the number after it. -/
theorem foldl_decimal_lt {ds : List Char} (hds : ∀ c ∈ ds, isDigit c = true) (n : Nat) :
    ds.foldl (fun n d => n * 10 + (d.toNat - '0'.toNat)) n < (n + 1) * 10 ^ ds.length := by
  induction ds generalizing n with
  | nil => simp
  | cons d ds ih =>
    obtain ⟨hd, hds⟩ := List.forall_mem_cons.1 hds
    have hdigit : d.toNat - '0'.toNat ≤ 9 := by
      have hbounds := toNat_of_isDigit hd
      have hzero : '0'.toNat = 48 := rfl
      omega
    calc ds.foldl (fun n d => n * 10 + (d.toNat - '0'.toNat)) (n * 10 + (d.toNat - '0'.toNat))
        < (n * 10 + (d.toNat - '0'.toNat) + 1) * 10 ^ ds.length := ih hds _
      _ ≤ ((n + 1) * 10) * 10 ^ ds.length := Nat.mul_le_mul_right _ (by omega)
      _ = (n + 1) * 10 ^ (d :: ds).length := by
        rw [List.length_cons, Nat.pow_succ', Nat.mul_assoc]

/-- Digits write a number that has no more digits. -/
theorem decimalValue_lt {ds : List Char} (hds : ∀ c ∈ ds, isDigit c = true) :
    decimalValue ds < 10 ^ ds.length := by
  have h := foldl_decimal_lt hds 0
  rwa [Nat.zero_add, Nat.one_mul] at h

/-- Digits continue the number that is written in front of them. -/
theorem foldl_decimal (ds : List Char) (n : Nat) :
    ds.foldl (fun n d => n * 10 + (d.toNat - '0'.toNat)) n =
      n * 10 ^ ds.length + decimalValue ds := by
  induction ds generalizing n with
  | nil => simp [decimalValue]
  | cons d ds ih =>
    have hvalue : decimalValue (d :: ds) =
        (0 * 10 + (d.toNat - '0'.toNat)) * 10 ^ ds.length + decimalValue ds := ih _
    rw [List.foldl_cons, ih, hvalue, List.length_cons]
    ring

/-- The first digit counts the most. -/
theorem decimalValue_cons (d : Char) (ds : List Char) :
    decimalValue (d :: ds) = (d.toNat - '0'.toNat) * 10 ^ ds.length + decimalValue ds := by
  have hvalue : decimalValue (d :: ds) =
      (0 * 10 + (d.toNat - '0'.toNat)) * 10 ^ ds.length + decimalValue ds := foldl_decimal ds _
  rw [hvalue, Nat.zero_mul, Nat.zero_add]

/-- Texts that begin with as many digits are ordered by the numbers there, and then by the rest. -/
theorem digits_append_lt_iff {ds ds' rest rest' : List Char} (hds : ∀ c ∈ ds, isDigit c = true)
    (hds' : ∀ c ∈ ds', isDigit c = true) (hlength : ds.length = ds'.length) :
    ds ++ rest < ds' ++ rest' ↔ decimalValue ds < decimalValue ds' ∨
      decimalValue ds = decimalValue ds' ∧ rest < rest' := by
  induction ds generalizing ds' with
  | nil =>
    obtain rfl := List.length_eq_zero_iff.1 hlength.symm
    simp
  | cons d ds ih =>
    obtain ⟨d', ds', rfl⟩ := List.exists_cons_of_length_eq_add_one hlength.symm
    obtain ⟨hd, hds⟩ := List.forall_mem_cons.1 hds
    obtain ⟨hd', hds'⟩ := List.forall_mem_cons.1 hds'
    have hlengths : ds.length = ds'.length := Nat.succ.inj hlength
    have hbounds := toNat_of_isDigit hd
    have hbounds' := toNat_of_isDigit hd'
    have hzero : '0'.toNat = 48 := rfl
    have hlt : d < d' ↔ d.toNat < d'.toNat := Iff.rfl
    have hless := decimalValue_lt hds
    have hless' := decimalValue_lt hds'
    rw [List.cons_append, List.cons_append, List.cons_lt_cons_iff, ih hds hds' hlengths,
      decimalValue_cons, decimalValue_cons, hlt, ← Char.toNat_inj]
    rw [← hlengths] at hless' ⊢
    rcases Nat.lt_trichotomy d.toNat d'.toNat with hfirst | heq | hfirst
    · -- A smaller first digit is not made up for by the others.
      have hnext : (d.toNat - '0'.toNat + 1) * 10 ^ ds.length ≤
          (d'.toNat - '0'.toNat) * 10 ^ ds.length := Nat.mul_le_mul_right _ (by omega)
      rw [Nat.add_one_mul] at hnext
      omega
    · rw [heq, Nat.add_lt_add_iff_left, Nat.add_left_cancel_iff]
      simp
    · have hnext : (d'.toNat - '0'.toNat + 1) * 10 ^ ds.length ≤
          (d.toNat - '0'.toNat) * 10 ^ ds.length := Nat.mul_le_mul_right _ (by omega)
      rw [Nat.add_one_mul] at hnext
      omega

/-- Every character of a number with zeros in front is a digit. -/
theorem isDigit_of_mem_padded {width n : Nat} {c : Char} (h : c ∈ (padded width n).toList) :
    isDigit c = true := by
  rw [padded, String.toList_ofList] at h
  rcases List.mem_append.1 h with hc | hc
  · rw [List.eq_of_mem_replicate hc]
    rfl
  · exact isDigit_of_mem_toDigits hc

/-- A number that has at most as many digits is written with just as many. -/
theorem padded_spec {width n : Nat} (hwidth : 0 < width) (h : n < 10 ^ width) :
    (padded width n).toList.length = width ∧ decimalValue (padded width n).toList = n := by
  have hlength : (Nat.toDigits 10 n).length ≤ width := Nat.toDigits_length 10 n width hwidth h
  have hzeros : ∀ count (ds : List Char),
      decimalValue (List.replicate count '0' ++ ds) = decimalValue ds := by
    intro count ds
    induction count with
    | zero => rfl
    | succ count ih => exact ih
  rw [padded, String.toList_ofList]
  refine ⟨?_, by rw [hzeros, decimalValue_toDigits]⟩
  rw [List.length_append, List.length_replicate]
  omega

/-- Texts that begin with such numbers are ordered by these, and then by the rest. -/
theorem padded_append_lt_iff {width n n' : Nat} (hwidth : 0 < width) (h : n < 10 ^ width)
    (h' : n' < 10 ^ width) {rest rest' : List Char} :
    (padded width n).toList ++ rest < (padded width n').toList ++ rest' ↔
      n < n' ∨ n = n' ∧ rest < rest' := by
  obtain ⟨hlength, hvalue⟩ := padded_spec hwidth h
  obtain ⟨hlength', hvalue'⟩ := padded_spec hwidth h'
  rw [digits_append_lt_iff (fun _ => isDigit_of_mem_padded) (fun _ => isDigit_of_mem_padded)
    (hlength.trans hlength'.symm), hvalue, hvalue']

/-- A positive number does not begin with a zero. -/
theorem head_toDigits_ne_zero {n : Nat} (hn : 0 < n) {c : Char} {cs : List Char}
    (h : Nat.toDigits 10 n = c :: cs) : c ≠ '0' := by
  induction n using Nat.strongRecOn generalizing c cs with
  | _ n ih =>
    rw [Nat.toDigits_eq_if (by decide)] at h
    split at h
    · -- A single digit.
      obtain ⟨rfl, -⟩ := List.cons.inj h
      rintro hc
      have := congrArg Char.toNat hc
      rw [Nat.toNat_digitChar_of_lt_ten (by omega)] at this
      simp at this
      omega
    · -- The head is that of the leading digits.
      cases hd : Nat.toDigits 10 (n / 10) with
      | nil => exact absurd hd Nat.toDigits_ne_nil
      | cons d ds =>
        rw [hd] at h
        obtain ⟨rfl, -⟩ := List.cons.inj h
        exact ih (n / 10) (by omega) (by omega) hd

/-- The digits of a number in base ten, up to the first character that is none. -/
theorem takeWhile_isDigit_append {ds rest : List Char} (hds : ∀ c ∈ ds, isDigit c = true)
    (hrest : ∀ c cs, rest = c :: cs → isDigit c = false) :
    (ds ++ rest).takeWhile isDigit = ds ∧ (ds ++ rest).dropWhile isDigit = rest := by
  rw [List.takeWhile_append_of_pos hds, List.dropWhile_append_of_pos hds]
  cases rest with
  | nil => simp
  | cons c cs => simp [hrest c cs rfl]

/-- The value of a hexadecimal digit. -/
theorem hexValue?_digitChar {d : Nat} (h : d < 16) : hexValue? d.digitChar = some d := by
  have hall : ∀ d : Fin 16, hexValue? d.val.digitChar = some d.val := by decide
  exact hall ⟨d, h⟩

/-- The four hexadecimal digits of a UTF-16 unit. -/
theorem toList_hexDigits_four {n : Nat} (h : n < 0x10000) :
    (hexDigits 4 n).toList =
      [(n / 4096).digitChar, (n / 256 % 16).digitChar, (n / 16 % 16).digitChar,
        (n % 16).digitChar] := by
  have zero : Nat.digitChar 0 = '0' := rfl
  simp only [hexDigits, String.toList_ofList]
  -- By the number of digits without the padding, from one to four.
  rcases Nat.lt_or_ge n 16 with h1 | h1
  · rw [Nat.toDigits_of_lt_base h1]
    rw [show n / 4096 = 0 by omega, show n / 256 % 16 = 0 by omega, show n / 16 % 16 = 0 by omega,
      Nat.mod_eq_of_lt h1, zero]
    rfl
  rcases Nat.lt_or_ge n 256 with h2 | h2
  · rw [Nat.toDigits_of_base_le (by decide) h1, Nat.toDigits_of_lt_base (by omega)]
    rw [show n / 4096 = 0 by omega, show n / 256 % 16 = 0 by omega,
      show n / 16 % 16 = n / 16 by omega, zero]
    rfl
  rcases Nat.lt_or_ge n 4096 with h3 | h3
  · rw [Nat.toDigits_of_base_le (by decide) h1, Nat.toDigits_of_base_le (by decide) (by omega),
      Nat.toDigits_of_lt_base (by omega), Nat.div_div_eq_div_mul]
    rw [show n / 4096 = 0 by omega, show n / 256 % 16 = n / 256 by omega, zero]
    rfl
  · rw [Nat.toDigits_of_base_le (by decide) h1, Nat.toDigits_of_base_le (by decide) (by omega),
      Nat.div_div_eq_div_mul, Nat.toDigits_of_base_le (by decide) (by omega),
      Nat.toDigits_of_lt_base (by omega), Nat.div_div_eq_div_mul]
    rfl

end CodeSurvey.Text
