import CodeSurvey.Json.Reader
import CodeSurvey.Json.Writer
import CodeSurvey.Proofs.Text.Digits
import Mathlib.Algebra.Group.Nat.Defs

/-!
# Stored values are read back

The reader takes the stored text of a value for the value itself (`read_stored`), if the value is
one that documents are made of (`Readable`): it has no fractional numbers, its whole numbers are
short enough to be converted, no key of an object occurs twice, and it is not nested too deeply.

The proof goes from the characters to the values. An escaped character is one step of the string
reader (`stringBody_escapeChar`), so a quoted text is read whole (`stringRest_quoted`). The digits
of a number are read up to the first character that cannot belong to it (`number_toDigits`). A value
in any layout is then read by induction on how it is built (`value_layout`), where the fuel is
measured against the length of the text.
-/

namespace CodeSurvey.Json

open CodeSurvey.Text (isDigit hexDigits)

/-- The values that are read back, by the levels of nesting that they may have. -/
inductive Readable : Nat → Json → Prop where
  | null {d : Nat} : Readable d .null
  | bool {d : Nat} (b : Bool) : Readable d (.bool b)
  | int {d : Nat} {n : Int} (short : (Nat.toDigits 10 n.natAbs).length ≤ maxIntDigits) :
      Readable d (.int n)
  | str {d : Nat} (s : String) : Readable d (.str s)
  | arr {d : Nat} {items : List Json} (inner : ∀ j ∈ items, Readable d j) :
      Readable (d + 1) (.arr items)
  | obj {d : Nat} {members : List (String × Json)} (keys : (members.map Prod.fst).Nodup)
      (inner : ∀ m ∈ members, Readable d m.2) : Readable (d + 1) (.obj members)

/-- A record is read back if its members that are there are. -/
theorem Readable.record {d : Nat} {xs : List (String × Option Json)}
    (keys : (xs.map Prod.fst).Nodup) (inner : ∀ x ∈ xs, ∀ j, x.2 = some j → Readable d j) :
    Readable (d + 1) (record xs) := by
  refine .obj (keys.sublist ?_) ?_
  · induction xs with
    | nil => simp
    | cons x xs ih =>
      have hxs := ih (List.nodup_cons.1 keys).2 fun y hy => inner y (List.mem_cons_of_mem _ hy)
      obtain ⟨key, value⟩ := x
      cases value with
      | none => exact hxs.cons key
      | some j => exact hxs.cons_cons key
  · intro m hm
    obtain ⟨x, hx, hxm⟩ := List.mem_filterMap.1 hm
    obtain ⟨j, hj, rfl⟩ := Option.map_eq_some_iff.1 hxm
    exact inner x hx j hj

/-- The numbers of an object are short if those of all members are. -/
theorem membersHaveShortInts_iff (ms : List (String × Json)) :
    membersHaveShortInts ms ↔ ∀ m ∈ ms, m.2.hasShortInts := by
  induction ms with
  | nil => simp [membersHaveShortInts]
  | cons m ms ih =>
    rw [membersHaveShortInts, Bool.and_eq_true, ih, List.forall_mem_cons]

/-- The numbers of a record are short if those of all members that are there are. -/
theorem hasShortInts_record (xs : List (String × Option Json)) :
    (record xs).hasShortInts ↔ ∀ x ∈ xs, ∀ j, x.2 = some j → j.hasShortInts := by
  rw [record, hasShortInts, membersHaveShortInts_iff]
  constructor
  · intro h x hx j hj
    exact h (x.1, j) (List.mem_filterMap.2 ⟨x, hx, by rw [hj]; rfl⟩)
  · intro h m hm
    obtain ⟨x, hx, hxm⟩ := List.mem_filterMap.1 hm
    obtain ⟨j, hj, rfl⟩ := Option.map_eq_some_iff.1 hxm
    exact h x hx j hj

/-- A number is short if it has few digits. -/
theorem hasShortInts_int (n : Int) :
    (int n).hasShortInts ↔ (Nat.toDigits 10 n.natAbs).length ≤ maxIntDigits := by
  rw [hasShortInts, decide_eq_true_eq]

/-- A number is short if it is small enough. -/
theorem hasShortInts_int_iff (n : Int) :
    (int n).hasShortInts ↔ n.natAbs < 10 ^ maxIntDigits := by
  rw [hasShortInts_int, Nat.length_toDigits_le_iff (by decide) (by decide)]

/-! ## Strings -/

/-- The digits of a UTF-16 unit are read if something follows them. -/
theorem unit?_hexDigits {n : Nat} (h : n < 0x10000) (c : Char) (rest : List Char) :
    unit? ((hexDigits 4 n).toList ++ c :: rest) = some (n, c :: rest) := by
  rw [Text.toList_hexDigits_four h]
  simp only [List.cons_append, List.nil_append, unit?,
    Text.hexValue?_digitChar (show n / 4096 < 16 by omega),
    Text.hexValue?_digitChar (show n / 256 % 16 < 16 by omega),
    Text.hexValue?_digitChar (show n / 16 % 16 < 16 by omega),
    Text.hexValue?_digitChar (show n % 16 < 16 by omega), Option.bind_eq_bind, Option.bind_some]
  rw [show ((n / 4096 * 16 + n / 256 % 16) * 16 + n / 16 % 16) * 16 + n % 16 = n by omega]

/-- A short escape stands for the character that it was made for. -/
theorem ofShortEscape?_of_shortEscape? {c e : Char} (h : shortEscape? c = some e) :
    ofShortEscape? e = some c ∧ e ≠ 'u' := by
  unfold shortEscape? at h
  split_ifs at h with h1 h2 h3 h4 h5 h6 h7 <;>
    (obtain rfl := Option.some.inj h; subst c; decide)

/-- A character of the basic plane that is escaped by its unit is one step of the string reader. -/
theorem stringBody_unitEscape (opened fuel : Nat) (read : List Char) (c e : Char)
    (rest : List Char) (hc : c.toNat < 0x10000) :
    stringBody opened (fuel + 1) read (unitEscape c.toNat ++ e :: rest) =
      stringBody opened fuel (c :: read) (e :: rest) := by
  have hvalid := c.valid
  simp only [UInt32.isValidChar, Nat.isValidChar] at hvalid
  rw [unitEscape, List.cons_append, List.cons_append, stringBody, unit?_hexDigits hc]
  have hof : ofUnit c.toNat (e :: rest) = .ok (c, e :: rest) := by
    unfold ofUnit
    rw [if_neg, if_neg, Char.ofNat_toNat]
    · simp only [Char.toNat]; omega
    · simp only [Char.toNat]; omega
  simp only [hof]

/-- Two units that are a pair stand for one character. -/
theorem ofUnit_pair (high low : Nat) (hhigh : 0xD800 ≤ high ∧ high ≤ 0xDBFF)
    (hlow : 0xDC00 ≤ low ∧ low ≤ 0xDFFF) (e : Char) (rest : List Char) :
    ofUnit high ('\\' :: 'u' :: ((hexDigits 4 low).toList ++ e :: rest)) =
      .ok (Char.ofNat (0x10000 + (high - 0xD800) * 0x400 + (low - 0xDC00)), e :: rest) := by
  simp only [ofUnit, unit?_hexDigits (show low < 0x10000 by omega)]
  rw [if_pos hhigh, if_pos hlow]

/-- The two units of a character beyond the basic plane give it back. -/
theorem ofNat_pair {c : Char} {n : Nat} (hc : c.toNat = 0x10000 + n) :
    Char.ofNat (0x10000 + (0xD800 + n / 0x400 - 0xD800) * 0x400 +
      (0xDC00 + n % 0x400 - 0xDC00)) = c := by
  have hsum : 0x10000 + (0xD800 + n / 0x400 - 0xD800) * 0x400 + (0xDC00 + n % 0x400 - 0xDC00) =
      c.toNat := by omega
  rw [hsum, Char.ofNat_toNat]

/-- A character beyond the basic plane, which is escaped by two units, is one step of the string
reader. -/
theorem stringBody_pairEscape (opened fuel : Nat) (read : List Char) (c e : Char)
    (rest : List Char) {n : Nat} (hc : c.toNat = 0x10000 + n) :
    stringBody opened (fuel + 1) read
        (unitEscape (0xD800 + n / 0x400) ++ (unitEscape (0xDC00 + n % 0x400) ++ e :: rest)) =
      stringBody opened fuel (c :: read) (e :: rest) := by
  have hn : n < 0x100000 := by
    have := c.valid
    simp only [UInt32.isValidChar, Nat.isValidChar] at this
    simp only [Char.toNat] at hc
    omega
  have hpair := ofUnit_pair (0xD800 + n / 0x400) (0xDC00 + n % 0x400) (by omega) (by omega) e rest
  rw [ofNat_pair hc] at hpair
  simp only [unitEscape, List.cons_append]
  rw [stringBody, unit?_hexDigits (by omega)]
  simp only [hpair]

/-- An escaped character is one step of the string reader. -/
theorem stringBody_escapeChar (opened fuel : Nat) (read : List Char) (c e : Char)
    (rest : List Char) :
    stringBody opened (fuel + 1) read (escapeChar isPlainAscii c ++ e :: rest) =
      stringBody opened fuel (c :: read) (e :: rest) := by
  unfold escapeChar
  cases hs : shortEscape? c with
  | some s =>
    -- A backslash and the letter that stands for the character.
    obtain ⟨hof, hu⟩ := ofShortEscape?_of_shortEscape? hs
    simp only [List.cons_append, List.nil_append]
    rw [stringBody]
    · simp only [hof]
    · exact hu
  | none =>
    simp only
    split_ifs with hplain
    · -- A printable ASCII character that is neither the quote nor the backslash.
      have hquote : c ≠ '"' := by rintro rfl; simp [shortEscape?] at hs
      have hslash : c ≠ '\\' := by rintro rfl; simp [shortEscape?] at hs
      simp only [isPlainAscii, Bool.and_eq_true, decide_eq_true_eq] at hplain
      rw [List.singleton_append, stringBody]
      · rw [if_neg (by omega)]
      · exact hquote
      · exact fun h => absurd h hslash
      · exact fun _ h => absurd h hslash
      · exact fun _ _ h => absurd h hslash
    · unfold unicodeEscape
      simp only
      split_ifs with hc
      · -- One unit.
        exact stringBody_unitEscape opened fuel read c e rest hc
      · -- Two units.
        obtain ⟨n, hn⟩ := Nat.exists_eq_add_of_le (Nat.le_of_not_lt hc)
        rw [hn, Nat.add_sub_cancel_left, List.append_assoc]
        exact stringBody_pairEscape opened fuel read c e rest hn

/-- An escaped character has at least one character. -/
theorem escapeChar_ne_nil (c : Char) : escapeChar isPlainAscii c ≠ [] := by
  unfold escapeChar
  split
  · exact List.cons_ne_nil _ _
  · split_ifs
    · exact List.cons_ne_nil _ _
    · rw [unicodeEscape]
      split_ifs
      · exact List.cons_ne_nil _ _
      · exact List.cons_ne_nil _ _

/-- The escaped characters of a text are read up to the quote that follows. -/
theorem stringBody_flatMap (opened : Nat) (cs : List Char) :
    ∀ (fuel : Nat) (read rest : List Char), cs.length < fuel →
      stringBody opened fuel read (cs.flatMap (escapeChar isPlainAscii) ++ '"' :: rest) =
        .ok (String.ofList (read.reverse ++ cs), rest) := by
  induction cs with
  | nil =>
    intro fuel read rest hf
    obtain ⟨fuel, rfl⟩ := Nat.exists_eq_add_of_lt hf
    simp [stringBody]
  | cons c cs ih =>
    intro fuel read rest hf
    rw [List.length_cons] at hf
    obtain ⟨fuel, rfl⟩ : ∃ k, fuel = k + 1 := ⟨fuel - 1, by omega⟩
    -- What follows the character is not empty: the closing quote is still to come.
    obtain ⟨e, more, hmore⟩ : ∃ e more,
        cs.flatMap (escapeChar isPlainAscii) ++ '"' :: rest = e :: more :=
      List.exists_cons_of_ne_nil (by simp)
    rw [List.flatMap_cons, List.append_assoc, hmore, stringBody_escapeChar, ← hmore,
      ih fuel (c :: read) rest (by omega)]
    simp

/-- A text has at least as many characters when it is escaped. -/
theorem length_le_length_flatMap (cs : List Char) :
    cs.length ≤ (cs.flatMap (escapeChar isPlainAscii)).length := by
  induction cs with
  | nil => simp
  | cons c cs ih =>
    have := List.length_pos_iff.2 (escapeChar_ne_nil c)
    simp only [List.flatMap_cons, List.length_append, List.length_cons]
    omega

/-- A string literal whose opening quote has been taken is read as its text. -/
theorem stringRest_quoted (s : String) (rest : List Char) :
    stringRest (s.toList.flatMap (escapeChar isPlainAscii) ++ '"' :: rest) = .ok (s, rest) := by
  have := length_le_length_flatMap s.toList
  unfold stringRest
  rw [stringBody_flatMap _ _ _ _ _ (by simp only [List.length_append, List.length_cons]; omega)]
  simp

/-! ## Numbers -/

/-- A text that does not go on with a character that may belong to a number. -/
def EndsNumber (rest : List Char) : Prop :=
  ∀ c cs, rest = c :: cs → isDigit c = false ∧ c ≠ '.' ∧ c ≠ 'e' ∧ c ≠ 'E'

/-- Nothing ends a number. -/
theorem endsNumber_nil : EndsNumber [] := fun _ _ h => by cases h

/-- A character that belongs to no number ends one. -/
theorem endsNumber_cons {c : Char} {cs : List Char}
    (h : isDigit c = false ∧ c ≠ '.' ∧ c ≠ 'e' ∧ c ≠ 'E') : EndsNumber (c :: cs) := by
  rintro c' cs' h'
  obtain ⟨rfl, -⟩ := List.cons.inj h'
  exact h

/-- No fraction and no exponent begins where a number ends. -/
theorem fraction?_exponent?_of_endsNumber {rest : List Char} (h : EndsNumber rest) :
    fraction? rest = none ∧ exponent? rest = none := by
  cases rest with
  | nil => exact ⟨rfl, rfl⟩
  | cons c cs =>
    obtain ⟨-, hpoint, he, hE⟩ := h c cs rfl
    constructor
    · unfold fraction?
      split
      · exact absurd (List.cons.inj ‹c :: cs = _›).1 hpoint
      · rfl
    · simp [exponent?, he, hE]

/-- The digits of a number are its whole part: only the number zero begins with a zero. -/
theorem wholeDigits_toDigits {n : Nat} {rest : List Char} (h : EndsNumber rest) :
    wholeDigits (Nat.toDigits 10 n ++ rest) = (Nat.toDigits 10 n, rest) := by
  rcases Nat.eq_zero_or_pos n with rfl | hn
  · simp [wholeDigits]
  · have hdigits : ∀ c ∈ Nat.toDigits 10 n, isDigit c = true := fun _ hc =>
      Text.isDigit_of_mem_toDigits hc
    obtain ⟨htake, hdrop⟩ := Text.takeWhile_isDigit_append hdigits fun c cs hrest =>
      (h c cs hrest).1
    unfold wholeDigits
    split
    · -- No digits of a greater number begin with a zero.
      rename_i more heq
      obtain ⟨d, ds, hd⟩ := List.exists_cons_of_ne_nil (Nat.toDigits_ne_nil (n := n) (b := 10))
      rw [hd] at heq
      exact absurd (List.cons.inj heq).1 (Text.head_toDigits_ne_zero hn hd)
    · rw [htake, hdrop]

/-- The digits of a number are read as the number. -/
theorem number_toDigits (neg : Bool) {n : Nat} {rest : List Char}
    (short : (Nat.toDigits 10 n).length ≤ maxIntDigits) (h : EndsNumber rest) :
    number neg (Nat.toDigits 10 n ++ rest) = .ok (.int (if neg then -n else n), rest) := by
  obtain ⟨hfrac, hexp⟩ := fraction?_exponent?_of_endsNumber h
  unfold number
  simp only [wholeDigits_toDigits h, hfrac, hexp]
  rw [if_neg (by omega), Text.decimalValue_toDigits]

/-- A whole number in text form is read as the number. -/
theorem scalar_int {n : Int} {rest : List Char}
    (short : (Nat.toDigits 10 n.natAbs).length ≤ maxIntDigits) (h : EndsNumber rest) :
    scalar ((toString n).toList ++ rest) = .ok (.int n, rest) := by
  have hnum := fun neg => number_toDigits neg short h
  obtain ⟨d, ds, hd⟩ : ∃ d ds, Nat.toDigits 10 n.natAbs = d :: ds :=
    List.exists_cons_of_ne_nil Nat.toDigits_ne_nil
  have hdigit : isDigit d = true := Text.isDigit_of_mem_toDigits (n := n.natAbs) (by simp [hd])
  rw [Int.toString_eq_repr, Int.repr_eq_if]
  split_ifs with hn
  · -- A number that is not negative.
    rw [Nat.toList_repr, show n.toNat = n.natAbs by omega]
    have hminus : d ≠ '-' := by rintro rfl; simp [isDigit] at hdigit
    specialize hnum false
    rw [hd, List.cons_append] at hnum ⊢
    rw [scalar]
    · rw [if_pos hdigit, hnum, if_neg Bool.false_ne_true, show (n.natAbs : Int) = n by omega]
    · exact fun h => absurd h hminus
  · -- A negative number.
    rw [String.toList_append, Nat.toList_repr, show (-n).toNat = n.natAbs by omega]
    specialize hnum true
    rw [hd] at hnum ⊢
    simp only [String.reduceToList, List.cons_append, List.nil_append] at hnum ⊢
    unfold scalar
    simp only [hdigit, if_true]
    rw [hnum, if_pos trivial, show -(n.natAbs : Int) = n by omega]

/-! ## Values -/

/-- A character that is no gap is not skipped. -/
theorem skipGaps_cons {c : Char} {cs : List Char} (h : isGap c = false) :
    skipGaps (c :: cs) = c :: cs := by
  simp [skipGaps, h]

/-- A line break and the blanks after it are skipped. -/
theorem skipGaps_newLine (level : Nat) (cs : List Char) :
    skipGaps (newLine level ++ cs) = skipGaps cs := by
  unfold newLine skipGaps
  rw [List.cons_append, List.dropWhile_cons_of_pos (by decide), List.dropWhile_append_of_pos]
  intro c hc
  rw [List.eq_of_mem_replicate hc]
  decide

/-- A whole number begins with a minus sign or a digit. -/
theorem toList_int_head (n : Int) :
    ∃ c cs, (toString n).toList = c :: cs ∧ (c = '-' ∨ 48 ≤ c.toNat ∧ c.toNat ≤ 57) := by
  rw [Int.toString_eq_repr, Int.repr_eq_if]
  split_ifs with hn
  · obtain ⟨c, cs, hcs⟩ := List.exists_cons_of_ne_nil (Nat.toDigits_ne_nil (n := n.toNat) (b := 10))
    have hdigit : isDigit c = true := Text.isDigit_of_mem_toDigits (n := n.toNat) (by simp [hcs])
    exact ⟨c, cs, by rw [Nat.toList_repr, hcs], .inr (Text.toNat_of_isDigit hdigit)⟩
  · exact ⟨'-', (-n).toNat.repr.toList, by simp, .inl rfl⟩

/-- A character that stands outside a range of characters is none of them. -/
theorem ne_of_toNat_between {c e : Char} (hc : 48 ≤ c.toNat ∧ c.toNat ≤ 57)
    (he : e.toNat < 48 ∨ 57 < e.toNat) : c ≠ e := by
  rintro rfl
  omega

/-- A value begins with an ASCII character that is no gap and closes no array. -/
theorem layout_head {d : Nat} {j : Json} (h : Readable d j) (level : Nat) :
    ∃ c cs, layout level j = c :: cs ∧ isGap c = false ∧ c ≠ ']' ∧ c.toNat < 128 := by
  cases h with
  | null => exact ⟨_, _, rfl, by decide, by decide, by decide⟩
  | bool b => cases b <;> exact ⟨_, _, rfl, by decide, by decide, by decide⟩
  | @int d n short =>
    obtain ⟨c, cs, hcs, rfl | hdigit⟩ := toList_int_head n
    · exact ⟨_, _, hcs, by decide, by decide, by decide⟩
    · refine ⟨c, cs, hcs, ?_, ne_of_toNat_between hdigit (by decide), by omega⟩
      simp only [isGap, Bool.or_eq_false_iff, beq_eq_false_iff_ne]
      refine ⟨⟨⟨?_, ?_⟩, ?_⟩, ?_⟩ <;> exact ne_of_toNat_between hdigit (by decide)
  | str s => exact ⟨_, _, rfl, by decide, by decide, by decide⟩
  | @arr d items inner => cases items <;> exact ⟨_, _, rfl, by decide, by decide, by decide⟩
  | @obj d members keys inner =>
    cases members <;> exact ⟨_, _, rfl, by decide, by decide, by decide⟩

/-- Reading gives a value back wherever it is laid out, if something that ends a number follows. -/
def ReadsBack (d : Nat) (j : Json) : Prop :=
  ∀ (level fuel : Nat) (rest : List Char), 2 * (layout level j).length ≤ fuel →
    EndsNumber rest → value d fuel (layout level j ++ rest) = .ok (j, rest)

/-- A text that goes on with a line break ends a number. -/
theorem endsNumber_newLine (level : Nat) (cs : List Char) : EndsNumber (newLine level ++ cs) :=
  endsNumber_cons (by decide)

/-- The items of an array are read up to its end, after those that were read before. -/
theorem items_layoutItems {d : Nat} (level outer : Nat) (rest : List Char) (js : List Json) :
    ∀ (j : Json) (fuel : Nat) (read : List Json), (∀ x ∈ j :: js, Readable d x ∧ ReadsBack d x) →
      2 * (layout level j ++ layoutItems level js ++ newLine outer).length + 3 ≤ fuel →
      items d fuel read
          (layout level j ++ (layoutItems level js ++ (newLine outer ++ ']' :: rest))) =
        .ok (.arr (read.reverse ++ j :: js), rest) := by
  -- By the items after the one that is read next; each takes one unit of the fuel.
  induction js with
  | nil =>
    intro j fuel read hjs hf
    obtain ⟨fuel, rfl⟩ : ∃ k, fuel = k + 1 := ⟨fuel - 1, by omega⟩
    simp only [layoutItems, List.length_append, List.length_nil] at hf
    have hj := (hjs j (by simp)).2 level fuel (newLine outer ++ ']' :: rest) (by omega)
      (endsNumber_newLine _ _)
    rw [items, layoutItems, List.nil_append, hj]
    simp only [skipGaps_newLine, skipGaps_cons (show isGap ']' = false by decide),
      List.reverse_cons]
  | cons next js ih =>
    intro j fuel read hjs hf
    obtain ⟨fuel, rfl⟩ : ∃ k, fuel = k + 1 := ⟨fuel - 1, by omega⟩
    simp only [layoutItems, List.length_append, List.length_cons] at hf
    have hj := (hjs j (by simp)).2 level fuel (',' :: (newLine level ++ (layout level next ++
      (layoutItems level js ++ (newLine outer ++ ']' :: rest))))) (by omega)
      (endsNumber_cons (by decide))
    -- The next item begins with a character that is no gap, so only the line break before it is
    -- skipped.
    obtain ⟨c, cs, hhead, hgap, -⟩ := layout_head (hjs next (by simp)).1 level
    have hrest := ih next fuel (j :: read) (fun x hx => hjs x (List.mem_cons_of_mem _ hx))
      (by simp only [List.length_append]; omega)
    rw [items]
    simp only [layoutItems, List.cons_append, List.append_assoc, hj,
      skipGaps_cons (show isGap ',' = false by decide), skipGaps_newLine]
    rw [hhead, List.cons_append, skipGaps_cons hgap, ← List.cons_append, ← hhead, hrest]
    simp

/-- A member that is new is put behind the others. -/
theorem putMember_of_notMem {key : String} (value : Json) {members : List (String × Json)}
    (h : key ∉ members.map Prod.fst) : putMember key value members = members ++ [(key, value)] := by
  induction members with
  | nil => rfl
  | cons m members ih =>
    simp only [List.map_cons, List.mem_cons, not_or] at h
    rw [putMember, if_neg (Ne.symm h.1), ih h.2, List.cons_append]

/-- A key and the value after it, as the reader takes them. -/
theorem members_quoted {d fuel level : Nat} {read : List (String × Json)} {key : String} {j : Json}
    {rest : List Char} (hj : Readable d j) (hback : ReadsBack d j)
    (hf : 2 * (layout level j).length ≤ fuel) (hrest : EndsNumber rest) :
    members d (fuel + 1) read
        (quoted isPlainAscii key ++ (": ".toList ++ (layout level j ++ rest))) =
      match skipGaps rest with
      | '}' :: rest => .ok (.obj (putMember key j read), rest)
      | ',' :: rest => members d fuel (putMember key j read) (skipGaps rest)
      | rest => .error (.flaw .noComma rest.length) := by
  obtain ⟨c, cs, hhead, hgap, -⟩ := layout_head hj level
  have hvalue := hback level fuel rest hf hrest
  simp only [quoted, List.cons_append, List.append_assoc, List.nil_append, String.reduceToList]
  rw [members, stringRest_quoted]
  simp only [skipGaps_cons (show isGap ':' = false by decide)]
  have hblank : skipGaps (' ' :: (layout level j ++ rest)) = layout level j ++ rest := by
    rw [show skipGaps (' ' :: (layout level j ++ rest)) =
      skipGaps (layout level j ++ rest) from rfl, hhead, List.cons_append, skipGaps_cons hgap]
  exact hblank.symm ▸ hvalue.symm ▸ rfl

/-- No blanks stand before a quoted text. -/
theorem skipGaps_quoted (s : String) (cs : List Char) :
    skipGaps (quoted isPlainAscii s ++ cs) = quoted isPlainAscii s ++ cs :=
  skipGaps_cons (by decide)

/-- The key of the next member is none of those before it. -/
theorem notMem_of_nodup_append {read ms : List (String × Json)} {key : String} {j : Json}
    (h : ((read ++ (key, j) :: ms).map Prod.fst).Nodup) : key ∉ read.map Prod.fst := by
  rw [List.map_append, List.nodup_append] at h
  exact fun hkey => h.2.2 key hkey key (by simp) rfl

/-- The members of an object are read up to its end, after those that were read before. -/
theorem members_layoutMembers {d : Nat} (level outer : Nat) (rest : List Char)
    (ms : List (String × Json)) :
    ∀ (key : String) (j : Json) (fuel : Nat) (read : List (String × Json)),
      (∀ m ∈ (key, j) :: ms, Readable d m.2 ∧ ReadsBack d m.2) →
      ((read ++ (key, j) :: ms).map Prod.fst).Nodup →
      2 * (layout level j ++ layoutMembers level ms ++ newLine outer).length + 3 ≤ fuel →
      members d fuel read (quoted isPlainAscii key ++ (": ".toList ++ (layout level j ++
        (layoutMembers level ms ++ (newLine outer ++ '}' :: rest))))) =
        .ok (.obj (read ++ (key, j) :: ms), rest) := by
  -- By the members after the one that is read next; its key is new, so its value is put at the end.
  induction ms with
  | nil =>
    intro key j fuel read hms hkeys hf
    obtain ⟨fuel, rfl⟩ : ∃ k, fuel = k + 1 := ⟨fuel - 1, by omega⟩
    simp only [layoutMembers, List.length_append, List.length_nil] at hf
    obtain ⟨hj, hback⟩ : Readable d j ∧ ReadsBack d j := hms (key, j) (by simp)
    rw [layoutMembers, List.nil_append,
      members_quoted hj hback (by omega) (endsNumber_newLine _ _)]
    simp only [skipGaps_newLine, skipGaps_cons (show isGap '}' = false by decide),
      putMember_of_notMem j (notMem_of_nodup_append hkeys)]
  | cons next ms ih =>
    intro key j fuel read hms hkeys hf
    obtain ⟨key', j'⟩ := next
    obtain ⟨fuel, rfl⟩ : ∃ k, fuel = k + 1 := ⟨fuel - 1, by omega⟩
    simp only [layoutMembers, List.length_append, List.length_cons] at hf
    obtain ⟨hj, hback⟩ : Readable d j ∧ ReadsBack d j := hms (key, j) (by simp)
    have hrest := ih key' j' fuel (read ++ [(key, j)])
      (fun m hm => hms m (List.mem_cons_of_mem _ hm)) (by simpa using hkeys)
      (by simp only [List.length_append]; omega)
    simp only [layoutMembers, List.cons_append, List.append_assoc]
    rw [members_quoted hj hback (by omega) (endsNumber_cons (by decide))]
    simp only [skipGaps_cons (show isGap ',' = false by decide), skipGaps_newLine,
      putMember_of_notMem j (notMem_of_nodup_append hkeys)]
    rw [skipGaps_quoted, hrest]
    simp

/-- A value takes fuel: its text has at least one character. -/
theorem exists_fuel {d level fuel : Nat} {j : Json} (h : Readable d j)
    (hf : 2 * (layout level j).length ≤ fuel) : ∃ k, fuel = k + 1 := by
  obtain ⟨c, cs, hhead, -⟩ := layout_head h level
  rw [hhead, List.length_cons] at hf
  exact ⟨fuel - 1, by omega⟩

/-- The null value is read back from its word. -/
theorem readsBack_null (d : Nat) : ReadsBack d .null := by
  intro level fuel rest hf _
  obtain ⟨fuel, rfl⟩ := exists_fuel (.null (d := d)) hf
  simp [layout, value, scalar, isDigit, Text.dropStart?]

/-- So is a truth value. -/
theorem readsBack_bool (d : Nat) (b : Bool) : ReadsBack d (.bool b) := by
  intro level fuel rest hf _
  obtain ⟨fuel, rfl⟩ := exists_fuel (.bool b (d := d)) hf
  cases b <;> simp [layout, value, scalar, isDigit, Text.dropStart?]

/-- A whole number is read back: its first character begins no other kind of value. -/
theorem readsBack_int {d : Nat} {n : Int}
    (short : (Nat.toDigits 10 n.natAbs).length ≤ maxIntDigits) : ReadsBack d (.int n) := by
  intro level fuel rest hf hrest
  obtain ⟨fuel, rfl⟩ := exists_fuel (.int short (d := d)) hf
  obtain ⟨c, cs, hcs, hc⟩ := toList_int_head n
  have hother : c ≠ '"' ∧ c ≠ '[' ∧ c ≠ '{' := by
    rcases hc with rfl | hdigit
    · decide
    · exact ⟨ne_of_toNat_between hdigit (by decide), ne_of_toNat_between hdigit (by decide),
        ne_of_toNat_between hdigit (by decide)⟩
  have hscalar := scalar_int short hrest
  rw [layout]
  rw [hcs, List.cons_append] at hscalar ⊢
  rw [value, hscalar]
  · exact fun _ h => absurd (List.cons.inj h).1 hother.1
  · exact fun _ h => absurd (List.cons.inj h).1 hother.2.1
  · exact fun _ h => absurd (List.cons.inj h).1 hother.2.2

/-- A string is read back. -/
theorem readsBack_str (d : Nat) (s : String) : ReadsBack d (.str s) := by
  intro level fuel rest hf _
  obtain ⟨fuel, rfl⟩ := exists_fuel (.str s (d := d)) hf
  simp only [layout, quoted, List.cons_append, List.append_assoc, List.nil_append]
  rw [value, stringRest_quoted]
  rfl

/-- An array is read back if its items are, since none of them begins with the end of the array. -/
theorem readsBack_arr {d : Nat} {xs : List Json} (inner : ∀ j ∈ xs, Readable d j ∧ ReadsBack d j) :
    ReadsBack (d + 1) (.arr xs) := by
  intro level fuel rest hf _
  obtain ⟨fuel, rfl⟩ := exists_fuel (.arr fun j hj => (inner j hj).1) hf
  cases xs with
  | nil => simp [layout, value, skipGaps_cons (show isGap ']' = false by decide)]
  | cons j js =>
    obtain ⟨c, cs, hhead, hgap, hclose, -⟩ := layout_head (inner j (by simp)).1 (level + 1)
    have hread := items_layoutItems (level + 1) level rest js j fuel [] inner
      (by simp only [layout, List.length_append, List.length_cons, newLine] at hf ⊢; omega)
    simp only [layout, List.cons_append, List.append_assoc, List.nil_append]
    rw [value]
    simp only [skipGaps_newLine]
    rw [hhead, List.cons_append, skipGaps_cons hgap]
    split
    · rename_i heq
      exact absurd (List.cons.inj heq).1 hclose
    · rw [← List.cons_append, ← hhead, hread]
      rfl

/-- An object is read back if the values of its members are, since every member begins with the
quote of its key. -/
theorem readsBack_obj {d : Nat} {ms : List (String × Json)} (keys : (ms.map Prod.fst).Nodup)
    (inner : ∀ m ∈ ms, Readable d m.2 ∧ ReadsBack d m.2) : ReadsBack (d + 1) (.obj ms) := by
  intro level fuel rest hf _
  obtain ⟨fuel, rfl⟩ := exists_fuel (.obj keys fun m hm => (inner m hm).1) hf
  cases ms with
  | nil => simp [layout, value, skipGaps_cons (show isGap '}' = false by decide)]
  | cons m ms =>
    obtain ⟨key, j⟩ := m
    have hread := members_layoutMembers (level + 1) level rest ms key j fuel [] inner
      (by simpa using keys)
      (by simp only [layout, List.length_append, List.length_cons, newLine] at hf ⊢; omega)
    simp only [layout, List.cons_append, List.append_assoc, List.nil_append]
    rw [value]
    simp only [skipGaps_newLine]
    rw [skipGaps_quoted]
    exact hread

/-- A value is read back wherever it is laid out. -/
theorem value_layout {d : Nat} {j : Json} (h : Readable d j) : ReadsBack d j := by
  induction h with
  | null => exact readsBack_null _
  | bool b => exact readsBack_bool _ b
  | int short => exact readsBack_int short
  | str s => exact readsBack_str _ s
  | arr inner ih => exact readsBack_arr fun j hj => ⟨inner j hj, ih j hj⟩
  | obj keys inner ih => exact readsBack_obj keys fun m hm => ⟨inner m hm, ih m hm⟩

/-- The text of a value is read as the value. -/
theorem read_stored {j : Json} (h : Readable maxNesting j) : read j.stored = .ok j := by
  have hvalue := value_layout h 0 (2 * (layout 0 j).length + 2) [] (by omega) endsNumber_nil
  obtain ⟨c, cs, hhead, hgap, -, hascii⟩ := layout_head h 0
  rw [List.append_nil] at hvalue
  have hdocument : readChars.document (layout 0 j) = .ok j := by
    rw [readChars.document]
    rw [hhead, skipGaps_cons hgap, ← hhead, hvalue]
    rfl
  have hchars : readChars (layout 0 j) = .ok j := by
    have hmark : c ≠ Char.ofNat 0xFEFF := by
      rintro rfl
      exact absurd hascii (by decide)
    rw [hhead, readChars, if_neg hmark]
    rw [← hhead, hdocument]
  simp only [read, stored, String.toList_ofList, hchars]

end CodeSurvey.Json
