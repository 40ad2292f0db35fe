import CodeSurvey.Proofs.Json.RoundTrip

/-!
# What is read is well formed

Every value that a text is read as (`proper_of_read`) has each key of an object once and no whole
number with more digits than are written (`Proper`), so it could be written again. The reader goes
into values, items and members in turn and spends fuel at each of them; the invariant is carried
through all three by one induction on the fuel (`reads_proper`). A text that is a number with more
digits is not read at all (`read_long`).
-/

namespace CodeSurvey.Json

open CodeSurvey.Text (isDigit)

/-- The values that texts are read as. -/
inductive Proper : Json → Prop where
  | null : Proper .null
  | bool (b : Bool) : Proper (.bool b)
  | int {n : Int} (short : (int n).hasShortInts = true) : Proper (.int n)
  | float (x : Float) : Proper (.float x)
  | str (s : String) : Proper (.str s)
  | arr {items : List Json} (inner : ∀ j ∈ items, Proper j) : Proper (.arr items)
  | obj {members : List (String × Json)} (keys : (members.map Prod.fst).Nodup)
      (inner : ∀ m ∈ members, Proper m.2) : Proper (.obj members)

namespace Proper

/-- The members of a proper value are proper. -/
theorem get? {j v : Json} {key : String} (h : j.Proper) (hv : j.get? key = some v) : v.Proper := by
  cases h with
  | @obj members keys inner =>
    rw [Json.get?, findMember, Option.map_eq_some_iff] at hv
    obtain ⟨m, hm, rfl⟩ := hv
    exact inner m (List.mem_of_find?_eq_some hm)
  | _ => exact absurd hv (by simp [Json.get?])

/-- A count of a proper value is short. -/
theorem short_of_count? {j : Json} {n : Nat} (h : j.Proper) (hn : j.count? = some n) :
    (count n).hasShortInts = true := by
  cases h with
  | @int m short =>
    rw [Json.count?, Option.ite_none_right_eq_some] at hn
    obtain ⟨hpos, hn⟩ := hn
    obtain rfl := Option.some.inj hn
    rwa [count, Int.toNat_of_nonneg hpos]
  | _ => exact absurd hn (by simp [Json.count?])

end Proper

/-! ## Values that are neither arrays nor objects -/

/-- The digits before the point of a number are digits. -/
theorem isDigit_of_mem_wholeDigits {cs : List Char} :
    ∀ c ∈ (wholeDigits cs).1, isDigit c = true := by
  intro c hc
  unfold wholeDigits at hc
  split at hc
  · rw [List.mem_singleton.1 hc]
    decide
  · exact List.all_eq_true.1 List.all_takeWhile c hc

/-- A number is short or has a point or an exponent. -/
theorem proper_of_number {neg : Bool} {cs rest : List Char} {j : Json}
    (h : number neg cs = .ok (j, rest)) : j.Proper := by
  unfold number at h
  simp only at h
  split at h
  · -- The digits of a whole number were counted.
    split at h
    · cases h
    · rename_i hshort
      obtain ⟨rfl, -⟩ := Prod.mk.inj (Except.ok.inj h)
      refine .int ((hasShortInts_int_iff _).2 ?_)
      have hvalue : Text.decimalValue (wholeDigits cs).1 < 10 ^ (wholeDigits cs).1.length :=
        Text.decimalValue_lt isDigit_of_mem_wholeDigits
      have hlength : (wholeDigits cs).1.length ≤ maxIntDigits := Nat.le_of_not_lt hshort
      calc Int.natAbs (if neg then -(Text.decimalValue (wholeDigits cs).1 : Int)
              else Text.decimalValue (wholeDigits cs).1)
          = Text.decimalValue (wholeDigits cs).1 := by cases neg <;> simp
        _ < 10 ^ (wholeDigits cs).1.length := hvalue
        _ ≤ 10 ^ maxIntDigits := Nat.pow_le_pow_right (by decide) hlength
  · obtain ⟨rfl, -⟩ := Prod.mk.inj (Except.ok.inj h)
    exact .float _

/-- A value that is neither a string nor an array nor an object is proper. -/
theorem proper_of_scalar {cs rest : List Char} {j : Json} (h : scalar cs = .ok (j, rest)) :
    j.Proper := by
  have hok : ∀ {v : Json} {r : List Char}, (Except.ok (v, r) : Step Json) = .ok (j, rest) →
      v.Proper → j.Proper := by
    intro v r heq hv
    obtain ⟨rfl, -⟩ := Prod.mk.inj (Except.ok.inj heq)
    exact hv
  unfold scalar at h
  split at h
  · cases h
  · split at h
    · split at h
      · exact proper_of_number h
      · split at h
        · exact hok h (.float _)
        · cases h
    · cases h
  · -- A digit, or one of the words in turn.
    split at h
    · exact proper_of_number h
    · split at h
      · exact hok h .null
      · split at h
        · exact hok h (.bool _)
        · split at h
          · exact hok h (.bool _)
          · split at h
            · exact hok h (.float _)
            · split at h
              · exact hok h (.float _)
              · cases h

/-! ## Arrays and objects -/

/-- A member is put in under its key. -/
theorem mem_putMember {key : String} {value : Json} {members : List (String × Json)}
    {m : String × Json} (h : m ∈ putMember key value members) : m = (key, value) ∨ m ∈ members := by
  induction members with
  | nil => exact .inl (List.mem_singleton.1 h)
  | cons n rest ih =>
    rw [putMember] at h
    split at h
    · rename_i heq
      rcases List.mem_cons.1 h with rfl | h
      · exact .inl (by rw [heq])
      · exact .inr (List.mem_cons_of_mem _ h)
    · rcases List.mem_cons.1 h with rfl | h
      · exact .inr List.mem_cons_self
      · exact (ih h).imp_right (List.mem_cons_of_mem _)

/-- A key that is there keeps its place, so no key comes to stand twice. -/
theorem nodup_putMember {key : String} {value : Json} {members : List (String × Json)}
    (h : (members.map Prod.fst).Nodup) : ((putMember key value members).map Prod.fst).Nodup := by
  by_cases hkey : key ∈ members.map Prod.fst
  · -- The keys are the same ones in the same order.
    have hsame : (putMember key value members).map Prod.fst = members.map Prod.fst := by
      clear h
      induction members with
      | nil => simp at hkey
      | cons n rest ih =>
        rw [putMember]
        split
        · rfl
        · rename_i hne
          have hrest : key ∈ rest.map Prod.fst := by
            rcases List.mem_cons.1 hkey with heq | hrest
            · exact absurd heq.symm hne
            · exact hrest
          rw [List.map_cons, List.map_cons, ih hrest]
    rwa [hsame]
  · rw [putMember_of_notMem value hkey, List.map_append, List.map_singleton, List.nodup_append]
    refine ⟨h, by simp, fun k hk k' hk' => ?_⟩
    rw [List.mem_singleton.1 hk']
    rintro rfl
    exact hkey hk

/-- The members that were read before the next one. -/
def ProperMembers (members : List (String × Json)) : Prop :=
  (members.map Prod.fst).Nodup ∧ ∀ m ∈ members, m.2.Proper

/-- A proper member can be put among proper members. -/
theorem ProperMembers.put {members : List (String × Json)} (h : ProperMembers members)
    {j : Json} (hj : j.Proper) (key : String) : ProperMembers (putMember key j members) := by
  refine ⟨nodup_putMember h.1, fun m hm => ?_⟩
  rcases mem_putMember hm with rfl | hm
  · exact hj
  · exact h.2 m hm

/-- With this much fuel a value, the items of an array and the members of an object are read as
proper values, if what was read of the array or object before is proper. -/
structure ReadsProper (fuel : Nat) : Prop where
  ofValue : ∀ {depth cs j rest}, value depth fuel cs = .ok (j, rest) → j.Proper
  ofItems : ∀ {depth read cs j rest}, (∀ i ∈ read, i.Proper) →
    items depth fuel read cs = .ok (j, rest) → j.Proper
  ofMembers : ∀ {depth read cs j rest}, ProperMembers read →
    members depth fuel read cs = .ok (j, rest) → j.Proper

namespace ReadsProper

variable {fuel depth : Nat} {cs rest : List Char} {j : Json}

/-- Without fuel nothing is read. -/
theorem zero : ReadsProper 0 where
  ofValue h := by cases h
  ofItems _ h := by cases h
  ofMembers _ h := by cases h

/-- A value is a string, an array or an object by its first character, or none of these. -/
theorem value_succ (ih : ReadsProper fuel) (h : value depth (fuel + 1) cs = .ok (j, rest)) :
    j.Proper := by
  rw [value.eq_def] at h
  simp only at h
  split at h
  · -- A string.
    rename_i s
    cases hs : stringRest s with
    | error e => rw [hs] at h; cases h
    | ok r =>
      rw [hs] at h
      obtain ⟨rfl, -⟩ := Prod.mk.inj (Except.ok.inj h)
      exact .str _
  · -- An array.
    split at h
    · cases h
    · split at h
      · obtain ⟨rfl, -⟩ := Prod.mk.inj (Except.ok.inj h)
        exact .arr (by simp)
      · exact ih.ofItems (by simp) h
  · -- An object.
    split at h
    · cases h
    · split at h
      · obtain ⟨rfl, -⟩ := Prod.mk.inj (Except.ok.inj h)
        exact .obj (by simp) (by simp)
      · exact ih.ofMembers ⟨by simp, by simp⟩ h
  · exact proper_of_scalar h

/-- The next item joins those that were read before it. -/
theorem items_succ (ih : ReadsProper fuel) {read : List Json} (hread : ∀ i ∈ read, i.Proper)
    (h : items depth (fuel + 1) read cs = .ok (j, rest)) : j.Proper := by
  rw [items] at h
  split at h
  · cases h
  · rename_i item after hitem
    have hall : ∀ i ∈ item :: read, i.Proper :=
      List.forall_mem_cons.2 ⟨ih.ofValue hitem, hread⟩
    split at h
    · -- The array ends here.
      obtain ⟨rfl, -⟩ := Prod.mk.inj (Except.ok.inj h)
      exact .arr fun i hi => hall i (List.mem_reverse.1 hi)
    · exact ih.ofItems hall h
    · cases h

/-- The next member is put among those that were read before it. -/
theorem members_succ (ih : ReadsProper fuel) {read : List (String × Json)}
    (hread : ProperMembers read) (h : members depth (fuel + 1) read cs = .ok (j, rest)) :
    j.Proper := by
  rw [members.eq_def] at h
  simp only at h
  split at h
  · split at h
    · cases h
    · rename_i key _ _
      split at h
      · split at h
        · cases h
        · rename_i member after hmember
          have hput := hread.put (ih.ofValue hmember) key
          split at h
          · -- The object ends here.
            obtain ⟨rfl, -⟩ := Prod.mk.inj (Except.ok.inj h)
            exact .obj hput.1 hput.2
          · exact ih.ofMembers hput h
          · cases h
      · cases h
  · cases h

end ReadsProper

/-- The readers read proper values with any fuel. -/
theorem reads_proper (fuel : Nat) : ReadsProper fuel := by
  -- Each reader calls the others with one unit of fuel less, so all three go through together.
  induction fuel with
  | zero => exact .zero
  | succ fuel ih => exact ⟨ih.value_succ, ih.items_succ, ih.members_succ⟩

/-- What a text is read as is proper. -/
theorem proper_of_read {text : String} {j : Json} (h : read text = .ok j) : j.Proper := by
  have hdocument : ∀ cs, readChars.document cs = .ok j → j.Proper := by
    intro cs h
    rw [readChars.document] at h
    split at h
    · cases h
    · rename_i v rest hv
      split at h
      · obtain rfl := Except.ok.inj h
        exact (reads_proper _).ofValue hv
      · cases h
  have hchars : readChars text.toList = .ok j := by
    unfold read at h
    simp only at h
    split at h
    · rename_i v hv
      rw [hv, Except.ok.inj h]
    · cases h
    · cases h
    · cases h
  -- A text that begins with a byte-order mark is not read.
  unfold readChars at hchars
  split at hchars
  · split at hchars
    · cases hchars
    · exact hdocument _ hchars
  · exact hdocument _ hchars

/-! ## Numbers that are too long -/

variable {n : Nat}

/-- A whole number with more digits than are read is out of bounds. -/
theorem number_long (h : maxIntDigits < (Nat.toDigits 10 n).length) :
    number false (Nat.toDigits 10 n) = .error (.tooManyDigits (Nat.toDigits 10 n).length) := by
  obtain ⟨hfrac, hexp⟩ := fraction?_exponent?_of_endsNumber endsNumber_nil
  have hwhole := wholeDigits_toDigits (n := n) endsNumber_nil
  rw [List.append_nil] at hwhole
  unfold number
  simp only [hwhole, hfrac, hexp]
  rw [if_pos h]

/-- So is a text that is such a number. -/
theorem read_long (h : maxIntDigits < (Nat.toDigits 10 n).length) :
    read (toString n) = .error (.tooManyDigits (Nat.toDigits 10 n).length) := by
  have hnumber := number_long h
  obtain ⟨d, ds, hd⟩ : ∃ d ds, Nat.toDigits 10 n = d :: ds :=
    List.exists_cons_of_ne_nil Nat.toDigits_ne_nil
  have hdigit : Text.isDigit d = true := Text.isDigit_of_mem_toDigits (n := n) (by simp [hd])
  have hrange := Text.toNat_of_isDigit hdigit
  have hgap : isGap d = false := by
    simp only [isGap, Bool.or_eq_false_iff, beq_eq_false_iff_ne]
    refine ⟨⟨⟨?_, ?_⟩, ?_⟩, ?_⟩ <;> exact ne_of_toNat_between hrange (by decide)
  have hmark : d ≠ Char.ofNat 0xFEFF := ne_of_toNat_between hrange (by decide)
  rw [hd] at hnumber
  -- The first digit begins neither a string nor an array nor an object.
  have hvalue (depth fuel : Nat) :
      value depth (fuel + 1) (d :: ds) = .error (.tooManyDigits (d :: ds).length) := by
    rw [value]
    · rw [scalar, if_pos hdigit, hnumber]
      exact ne_of_toNat_between hrange (by decide)
    all_goals
      intro rest
      exact fun h => absurd (List.cons.inj h).1 (ne_of_toNat_between hrange (by decide))
  unfold read readChars
  rw [Text.toList_toString, hd]
  simp only [if_neg hmark, readChars.document, skipGaps_cons hgap, hvalue]

/-- It is not read back from its own text either. -/
theorem read_stored_long (h : maxIntDigits < (Nat.toDigits 10 n).length) :
    read (Json.int n).stored = .error (.tooManyDigits (Nat.toDigits 10 n).length) := by
  rw [stored, layout, String.ofList_toList]
  exact read_long h

/-- The first number with more digits than are read. -/
theorem toDigits_bound_long :
    maxIntDigits < (Nat.toDigits 10 (10 ^ maxIntDigits)).length := by
  rw [← Nat.not_le, Nat.length_toDigits_le_iff (by decide) (by decide)]
  exact Nat.lt_irrefl _

end CodeSurvey.Json
