import Mathlib.Data.List.Basic
import Mathlib.Data.List.Nodup
import Mathlib.Tactic.Common

/-!
# Nested brackets

A text is nested (`Brackets.IsNested`) if its brackets come in pairs, one inside the other or one
after the other. The definition is a grammar; `Brackets.unclosed?` reads a text once and keeps the
closing brackets that are still to come. The two agree (`Brackets.isNested_iff_unclosed?`), and the
grammar of texts that close what was open before them (`Brackets.Closes`) says where each of the
pending brackets is closed. Nothing but the brackets counts (`Brackets.isNested_congr`), and a pair
without another one of its kind inside can be taken out (`Brackets.unclosed?_of_wrapped`).
-/

namespace CodeSurvey.Text

/-- Pairs of brackets. No character plays two parts. -/
structure Brackets where
  /-- Each opening bracket with the one that closes it. -/
  pairs : List (Char × Char)
  nodup : (pairs.map Prod.fst ++ pairs.map Prod.snd).Nodup

namespace Brackets

variable (b : Brackets)

/-- A character is a bracket. -/
def Has (c : Char) : Prop := c ∈ b.pairs.map Prod.fst ++ b.pairs.map Prod.snd

instance (c : Char) : Decidable (b.Has c) := inferInstanceAs (Decidable (_ ∈ _))

/-- The brackets of a text come in pairs, properly nested. -/
inductive IsNested : List Char → Prop where
  | nil : IsNested []
  | other {c : Char} {cs : List Char} : ¬ b.Has c → IsNested cs → IsNested (c :: cs)
  | pair {o c : Char} {inner rest : List Char} : (o, c) ∈ b.pairs → IsNested inner →
      IsNested rest → IsNested (o :: (inner ++ c :: rest))

/-- The bracket that closes an opening one. -/
def closing? (o : Char) : Option Char := (b.pairs.find? (·.1 == o)).map Prod.snd

/-- Reads one character while the brackets `pending` are still to be closed, innermost first, and
tells which are then. There is no answer if a closing bracket comes that is not the next one. -/
def step? (pending : List Char) (c : Char) : Option (List Char) :=
  match b.closing? c with
  | some d => some (d :: pending)
  | none =>
    if b.Has c then (if pending.head? = some c then some pending.tail else none)
    else some pending

/-- Reads a text. -/
def unclosed? (pending cs : List Char) : Option (List Char) := cs.foldlM b.step? pending

variable {b} {c d o : Char} {cs ds pending : List Char}

/-! ## What one character does -/

/-- A bracket is closed by the one that it is paired with. -/
theorem closing?_eq_some_iff : b.closing? o = some c ↔ (o, c) ∈ b.pairs := by
  constructor
  · intro h
    obtain ⟨p, hfind, rfl⟩ := Option.map_eq_some_iff.1 h
    obtain rfl : p.1 = o := by simpa using List.find?_some hfind
    exact List.mem_of_find?_eq_some hfind
  · intro h
    have hopening : (b.pairs.map Prod.fst).Nodup := (List.nodup_append'.1 b.nodup).1
    cases hfind : b.pairs.find? (·.1 == o) with
    | none => exact absurd (List.find?_eq_none.1 hfind _ h) (by simp)
    | some p =>
      obtain hp : p.1 = o := by simpa using List.find?_some hfind
      have heq : p = (o, c) :=
        List.inj_on_of_nodup_map hopening (List.mem_of_find?_eq_some hfind) h hp
      rw [closing?, hfind, heq]
      rfl

/-- Each bracket that opens has one that closes it, and the other way round. -/
theorem opening_eq_iff {o' c' : Char} (h : (o, c) ∈ b.pairs) (h' : (o', c') ∈ b.pairs) :
    o = o' ↔ c = c' := by
  obtain ⟨hopening, hclosing, -⟩ := List.nodup_append'.1 b.nodup
  constructor
  · exact fun heq => congrArg Prod.snd (List.inj_on_of_nodup_map hopening h h' heq)
  · exact fun heq => congrArg Prod.fst (List.inj_on_of_nodup_map hclosing h h' heq)

/-- No bracket opens and closes. -/
theorem opening_ne_closing {o' c' : Char} (h : (o, c) ∈ b.pairs) (h' : (o', c') ∈ b.pairs) :
    o ≠ c' := by
  rintro rfl
  have hopening : o ∈ b.pairs.map Prod.fst := List.mem_map.2 ⟨_, h, rfl⟩
  have hclosing : o ∈ b.pairs.map Prod.snd := List.mem_map.2 ⟨_, h', rfl⟩
  exact (List.nodup_append'.1 b.nodup).2.2 hopening hclosing

/-- A bracket that closes is not closed by any. -/
theorem closing?_eq_none_of_closes (h : (o, c) ∈ b.pairs) : b.closing? c = none := by
  by_contra hsome
  obtain ⟨d, hd⟩ := Option.ne_none_iff_exists'.1 hsome
  exact opening_ne_closing (closing?_eq_some_iff.1 hd) h rfl

/-- A bracket opens or closes. -/
theorem has_iff : b.Has c ↔ (∃ d, (c, d) ∈ b.pairs) ∨ ∃ o, (o, c) ∈ b.pairs := by
  simp [Has]

/-- Of an opening bracket the closing one is still to come. -/
theorem unclosed?_opening (h : (o, c) ∈ b.pairs) (pending cs : List Char) :
    b.unclosed? pending (o :: cs) = b.unclosed? (c :: pending) cs := by
  rw [unclosed?, List.foldlM_cons, step?, closing?_eq_some_iff.2 h]
  rfl

/-- A closing bracket that is next is done. -/
theorem unclosed?_closing (h : (o, c) ∈ b.pairs) (pending cs : List Char) :
    b.unclosed? (c :: pending) (c :: cs) = b.unclosed? pending cs := by
  rw [unclosed?, List.foldlM_cons, step?, closing?_eq_none_of_closes h]
  simp [has_iff.2 (.inr ⟨o, h⟩), unclosed?]

/-- If it is not next, there is no answer. -/
theorem unclosed?_closing_other (h : (o, c) ∈ b.pairs) (hhead : pending.head? ≠ some c)
    (cs : List Char) : b.unclosed? pending (c :: cs) = none := by
  rw [unclosed?, List.foldlM_cons, step?, closing?_eq_none_of_closes h]
  simp [has_iff.2 (.inr ⟨o, h⟩), hhead]

/-- What is no bracket makes no difference. -/
theorem unclosed?_other (h : ¬ b.Has c) (pending cs : List Char) :
    b.unclosed? pending (c :: cs) = b.unclosed? pending cs := by
  have hnone : b.closing? c = none := by
    by_contra hsome
    obtain ⟨d, hd⟩ := Option.ne_none_iff_exists'.1 hsome
    exact h (has_iff.2 (.inl ⟨d, closing?_eq_some_iff.1 hd⟩))
  rw [unclosed?, List.foldlM_cons, step?, hnone]
  simp [h, unclosed?]

/-- The three parts that a character can play. -/
theorem opening_or_closing_or_other (b : Brackets) (c : Char) :
    (∃ d, (c, d) ∈ b.pairs) ∨ (∃ o, (o, c) ∈ b.pairs) ∨ ¬ b.Has c := by
  by_cases h : b.Has c
  · rcases has_iff.1 h with h | h
    · exact .inl h
    · exact .inr (.inl h)
  · exact .inr (.inr h)

/-- A text is read one character after the other. -/
theorem unclosed?_cons (pending : List Char) (c : Char) (cs : List Char) :
    b.unclosed? pending (c :: cs) = (b.step? pending c).bind (b.unclosed? · cs) :=
  List.foldlM_cons

/-- One text is read after another. -/
theorem unclosed?_append (pending cs ds : List Char) :
    b.unclosed? pending (cs ++ ds) = (b.unclosed? pending cs).bind (b.unclosed? · ds) :=
  List.foldlM_append

/-- Only the brackets of a text make a difference. -/
theorem unclosed?_filter (pending cs : List Char) :
    b.unclosed? pending (cs.filter (b.Has ·)) = b.unclosed? pending cs := by
  induction cs generalizing pending with
  | nil => rfl
  | cons c cs ih =>
    by_cases hc : b.Has c
    · rw [List.filter_cons_of_pos (by simpa using hc), unclosed?_cons, unclosed?_cons]
      exact congrArg _ (funext ih)
    · rw [List.filter_cons_of_neg (by simpa using hc), unclosed?_other hc, ih]

/-! ## Reading follows the grammar -/

/-- A text without brackets is nested. -/
theorem isNested_of_no_bracket (h : ∀ c ∈ cs, ¬ b.Has c) : b.IsNested cs := by
  induction cs with
  | nil => exact .nil
  | cons c cs ih =>
    obtain ⟨hc, hcs⟩ := List.forall_mem_cons.1 h
    exact .other hc (ih hcs)

/-- One nested text after another is nested. -/
theorem IsNested.append (hcs : b.IsNested cs) (hds : b.IsNested ds) : b.IsNested (cs ++ ds) := by
  induction hcs with
  | nil => exact hds
  | other hc _ ih => exact .other hc ih
  | pair hpair hinner _ _ ih =>
    rw [List.cons_append, List.append_assoc, List.cons_append]
    exact .pair hpair hinner ih

/-- A nested text leaves what is pending as it is. -/
theorem IsNested.unclosed?_eq (h : b.IsNested cs) (pending : List Char) :
    b.unclosed? pending cs = some pending := by
  induction h generalizing pending with
  | nil => rfl
  | other hc _ ih => rw [unclosed?_other hc, ih]
  | pair hpair _ _ ihinner ihrest =>
    rw [unclosed?_opening hpair, unclosed?_append, ihinner, Option.bind_some,
      unclosed?_closing hpair, ihrest]

variable (b) in
/-- A text closes brackets that are open before it: before each of them, and after the last, it is
nested. -/
inductive Closes : List Char → List Char → Prop where
  | nil {cs : List Char} : b.IsNested cs → Closes [] cs
  | cons {d : Char} {outer inner rest : List Char} : b.IsNested inner → Closes outer rest →
      Closes (d :: outer) (inner ++ d :: rest)

/-- What closes brackets does so after a nested text as well. -/
theorem Closes.after (h : b.Closes pending ds) (hcs : b.IsNested cs) :
    b.Closes pending (cs ++ ds) := by
  cases h with
  | nil hds => exact .nil (hcs.append hds)
  | cons hinner hrest =>
    rw [← List.append_assoc]
    exact .cons (hcs.append hinner) hrest

/-- A text after which nothing is pending closes all that was pending before. -/
theorem closes_of_unclosed? (h : b.unclosed? pending cs = some []) : b.Closes pending cs := by
  induction cs generalizing pending with
  | nil =>
    obtain rfl : pending = [] := Option.some.inj h
    exact .nil .nil
  | cons c cs ih =>
    rcases opening_or_closing_or_other b c with ⟨d, hpair⟩ | ⟨o, hpair⟩ | hc
    · -- The bracket is closed by what closes the pending ones, before it comes to them.
      rw [unclosed?_opening hpair] at h
      cases ih h with
      | @cons _ _ inner rest hinner hrest =>
        have hwrapped : c :: (inner ++ d :: rest) = c :: (inner ++ d :: []) ++ rest := by simp
        rw [hwrapped]
        exact hrest.after (.pair hpair hinner .nil)
    · by_cases hhead : pending.head? = some c
      · obtain ⟨outer, rfl⟩ := List.head?_eq_some_iff.1 hhead
        rw [unclosed?_closing hpair] at h
        exact .cons .nil (ih h)
      · rw [unclosed?_closing_other hpair hhead] at h
        cases h
    · rw [unclosed?_other hc] at h
      have hone : b.IsNested [c] := .other hc .nil
      exact (ih h).after hone

/-- A text that closes one bracket does so between two nested texts. -/
theorem exists_of_unclosed?_singleton (h : b.unclosed? [d] cs = some []) :
    ∃ inner rest, cs = inner ++ d :: rest ∧ b.IsNested inner ∧ b.IsNested rest := by
  cases closes_of_unclosed? h with
  | @cons _ _ inner rest hinner hcloses =>
    cases hcloses with
    | nil hrest => exact ⟨inner, rest, rfl, hinner, hrest⟩

/-- The grammar and the reading of a text agree. -/
theorem isNested_iff_unclosed? : b.IsNested cs ↔ b.unclosed? [] cs = some [] := by
  constructor
  · exact fun h => h.unclosed?_eq []
  · intro h
    cases closes_of_unclosed? h with
    | nil hcs => exact hcs

instance (cs : List Char) : Decidable (b.IsNested cs) :=
  decidable_of_iff _ isNested_iff_unclosed?.symm

/-- What follows a nested text is nested if both together are. -/
theorem isNested_append_iff (hcs : b.IsNested cs) : b.IsNested (cs ++ ds) ↔ b.IsNested ds := by
  rw [isNested_iff_unclosed?, isNested_iff_unclosed?, unclosed?_append, hcs.unclosed?_eq,
    Option.bind_some]

/-- What stands before a nested text is nested if both together are. -/
theorem isNested_append_iff_left (hds : b.IsNested ds) : b.IsNested (cs ++ ds) ↔ b.IsNested cs := by
  rw [isNested_iff_unclosed?, isNested_iff_unclosed?, unclosed?_append]
  cases b.unclosed? [] cs with
  | none => rfl
  | some pending => rw [Option.bind_some, hds.unclosed?_eq]

/-- Texts with the same brackets are nested alike. -/
theorem isNested_congr (h : cs.filter (b.Has ·) = ds.filter (b.Has ·)) :
    b.IsNested cs ↔ b.IsNested ds := by
  rw [isNested_iff_unclosed?, isNested_iff_unclosed?, ← unclosed?_filter, h, unclosed?_filter]

/-- No nested text begins with a bracket that closes. -/
theorem not_isNested_closing (h : (o, c) ∈ b.pairs) : ¬ b.IsNested (c :: cs) := by
  rw [isNested_iff_unclosed?, unclosed?_closing_other h (by simp)]
  simp

/-- In a nested text, each bracket opens as often as it closes. -/
theorem IsNested.count_eq (h : b.IsNested cs) (hpair : (o, c) ∈ b.pairs) :
    cs.count o = cs.count c := by
  induction h with
  | nil => rfl
  | @other d cs hd _ ih =>
    have hopening : d ≠ o := by
      rintro rfl
      exact hd (has_iff.2 (.inl ⟨c, hpair⟩))
    have hclosing : d ≠ c := by
      rintro rfl
      exact hd (has_iff.2 (.inr ⟨o, hpair⟩))
    rw [List.count_cons_of_ne hopening, List.count_cons_of_ne hclosing, ih]
  | @pair o' c' inner rest hpair' _ _ ihinner ihrest =>
    have hopening : o' ≠ c := opening_ne_closing hpair' hpair
    have hclosing : c' ≠ o := (opening_ne_closing hpair hpair').symm
    have hiff := opening_eq_iff hpair' hpair
    simp only [List.count_cons, List.count_append, beq_iff_eq, hopening, hclosing, hiff, ihinner,
      ihrest, if_false]
    omega

/-! ## A pair around a text -/

/-- A bracket stays pending as long as the text has none of its kind. -/
theorem exists_of_unclosed?_above (hpair : (o, d) ∈ b.pairs) (ho : o ∉ cs) (hd : d ∉ cs)
    {above after : List Char} (habove : d ∉ above)
    (h : b.unclosed? (above ++ d :: pending) cs = some after) :
    ∃ above', d ∉ above' ∧ after = above' ++ d :: pending := by
  -- What is above `d` was opened by the text, so `d` itself is not among it.
  induction cs generalizing above with
  | nil => exact ⟨above, habove, (Option.some.inj h).symm⟩
  | cons c cs ih =>
    have hoc := List.ne_of_not_mem_cons ho
    have hdc := List.ne_of_not_mem_cons hd
    replace ho := List.not_mem_of_not_mem_cons ho
    replace hd := List.not_mem_of_not_mem_cons hd
    rcases opening_or_closing_or_other b c with ⟨e, hc⟩ | ⟨e, hc⟩ | hc
    · rw [unclosed?_opening hc] at h
      have hde : d ≠ e := mt (opening_eq_iff hpair hc).2 hoc
      exact ih ho hd (List.not_mem_cons_of_ne_of_not_mem hde habove) h
    · cases above with
      | nil =>
        rw [List.nil_append, unclosed?_closing_other hc (by simpa using hdc)] at h
        cases h
      | cons a above =>
        by_cases hac : a = c
        · subst hac
          rw [List.cons_append, unclosed?_closing hc] at h
          exact ih ho hd (List.not_mem_of_not_mem_cons habove) h
        · rw [unclosed?_closing_other hc (by simpa using hac)] at h
          cases h
    · rw [unclosed?_other hc] at h
      exact ih ho hd habove h

/-- Between a bracket and the first one that closes it, without another one of its kind, all other
brackets come in pairs. -/
theorem unclosed?_of_wrapped (hpair : (o, d) ∈ b.pairs) (ho : o ∉ cs) (hd : d ∉ cs)
    {after : List Char} (h : b.unclosed? pending (o :: (cs ++ d :: ds)) = some after) :
    b.unclosed? pending ds = some after := by
  rw [unclosed?_opening hpair, unclosed?_append] at h
  obtain ⟨between, hbetween, hrest⟩ := Option.bind_eq_some_iff.1 h
  have hnone : d ∉ ([] : List Char) := List.not_mem_nil
  obtain ⟨above, habove, rfl⟩ := exists_of_unclosed?_above hpair ho hd hnone hbetween
  -- The bracket can be closed only if nothing is above it.
  cases above with
  | nil =>
    rw [List.nil_append, unclosed?_closing hpair] at hrest
    exact hrest
  | cons a above =>
    have hne : a ≠ d := (List.ne_of_not_mem_cons habove).symm
    rw [unclosed?_closing_other hpair (by simpa using hne)] at hrest
    cases hrest

end Brackets

end CodeSurvey.Text
