import CodeSurvey.Proofs.DataModel.ArrayMark
import CodeSurvey.Proofs.DataModel.TypeNesting
import CodeSurvey.Proofs.DataModel.UnionText
import Mathlib.Data.List.Permutation

/-!
# The order of the alternatives

Whether a union is an array is told by its two ends (`isArrayType_union`). Whether it leads to an
entity is told by its alternatives one by one; but if the first one begins like an array and the
last one ends like one, they are looked at without these marks (`isRelationType_union`). So the
order of the alternatives makes no difference exactly if any two of them tell the same as the ends
(`order_is_told_iff`).
-/

namespace CodeSurvey.DataModel

open CodeSurvey.Text

variable {cs front rest : List Char}

/-! ## Arrays -/

/-- A text begins like an array in angle brackets. -/
def BeginsArray (cs : List Char) : Prop := ∃ head ∈ arrayHeads, head <+: cs

instance (cs : List Char) : Decidable (BeginsArray cs) :=
  inferInstanceAs (Decidable (∃ head ∈ arrayHeads, head <+: cs))

/-- A text ends like one. -/
def EndsArray (cs : List Char) : Prop := cs.getLast? = some '>'

instance (cs : List Char) : Decidable (EndsArray cs) := inferInstanceAs (Decidable (_ = _))

/-- What stands in no head keeps the two ends of an array apart. -/
theorem isArrayText_append_cons_iff {c : Char} (hheads : ∀ head ∈ arrayHeads, c ∉ head)
    (hc : c ≠ '>') : IsArrayText (front ++ c :: rest) ↔ BeginsArray front ∧ EndsArray rest := by
  constructor
  · rintro ⟨element, -, head, hhead, heq⟩
    have hprefix : head <+: front ++ c :: rest :=
      ⟨element ++ ['>'], by rw [heq, List.append_assoc]⟩
    refine ⟨⟨head, hhead, (prefix_append_cons_iff (hheads head hhead)).1 hprefix⟩, ?_⟩
    have hlast := congrArg List.getLast? heq
    rw [List.getLast?_append_cons, List.getLast?_concat, List.getLast?_cons] at hlast
    unfold EndsArray
    cases hrest : rest.getLast? with
    | none => simp [hrest, hc] at hlast
    | some d => simpa [hrest] using hlast
  · rintro ⟨⟨head, hhead, tail, rfl⟩, hlast⟩
    obtain ⟨init, rfl⟩ := List.getLast?_eq_some_iff.1 hlast
    exact ⟨tail ++ c :: init, by simp, head, hhead, by simp⟩

/-- An alternative begins and ends with characters that are no white space. -/
theorem Alternative.ends_spec (m : Alternative) :
    (∃ c, m.text.toList.head? = some c ∧ isBlank c = false) ∧
      ∃ c, m.text.toList.getLast? = some c ∧ isBlank c = false := by
  have hne : m.text.toList ≠ [] := mt String.toList_eq_nil_iff.1 m.text_ne
  obtain ⟨-, -, -, -, -, hhead, hlast⟩ := exists_stripBlanks m.text.toList
  rw [m.trimmed] at hhead hlast
  exact ⟨⟨_, List.head?_eq_some_head hne, hhead _ (List.head?_eq_some_head hne)⟩,
    ⟨_, List.getLast?_eq_some_getLast hne, hlast _ (List.getLast?_eq_some_getLast hne)⟩⟩

/-- What stands before a space does not end an array. -/
theorem endsArray_append_space_iff : EndsArray (front ++ ' ' :: rest) ↔ EndsArray rest := by
  unfold EndsArray
  rw [List.getLast?_append_cons, List.getLast?_cons]
  cases rest.getLast? <;> simp

/-- A union is what its ends are, with spaces next to them. -/
theorem exists_toList_union (a b : Alternative) (middle : List Alternative) : ∃ inner,
    (union (a :: (middle ++ [b]))).toList =
        a.text.toList ++ ' ' :: (inner ++ ' ' :: b.text.toList) ∧
      ('\n' ∉ inner ↔ ∀ m ∈ middle, '\n' ∉ m.text.toList) := by
  refine ⟨'|' :: (middle.map fun m => spaced m.text.toList).flatMap (· ++ ['|']), ?_, ?_⟩
  · rw [toList_union]
    simp [barred]
  · simp [spaced]

/-- There is nothing to strip of a union. -/
theorem stripBlanks_union (a b : Alternative) (middle : List Alternative) :
    stripBlanks (union (a :: (middle ++ [b]))).toList =
      (union (a :: (middle ++ [b]))).toList := by
  obtain ⟨inner, heq, -⟩ := exists_toList_union a b middle
  obtain ⟨⟨c, hc, hblank⟩, -⟩ := a.ends_spec
  obtain ⟨-, d, hd, hblank'⟩ := b.ends_spec
  refine stripBy_eq_self ?_ ?_
  · rw [heq, List.head?_append, hc]
    rintro e ⟨rfl⟩
    exact hblank
  · rw [heq, List.getLast?_append_cons, ← List.cons_append, List.getLast?_append_cons,
      List.getLast?_cons, hd]
    rintro e ⟨rfl⟩
    exact hblank'

/-- A union is an array if its last alternative ends with the mark of one, or if the first one
begins and the last one ends like an array and all of them are on one line. -/
theorem isArrayType_union (a b : Alternative) (middle : List Alternative) :
    isArrayType (union (a :: (middle ++ [b]))) = true ↔
      "[]".toList <:+ b.text.toList ∨
        (BeginsArray a.text.toList ∧ EndsArray b.text.toList) ∧
          ∀ m ∈ a :: (middle ++ [b]), '\n' ∉ m.text.toList := by
  obtain ⟨inner, heq, hline⟩ := exists_toList_union a b middle
  have hheads : ∀ head ∈ arrayHeads, ' ' ∉ head := by decide
  rw [isArrayType_iff, stripBlanks_union, heq, suffix_append_sep_iff (by decide),
    suffix_append_sep_iff (by decide), isArrayText_append_cons_iff hheads (by decide),
    endsArray_append_space_iff]
  refine or_congr_right (and_congr_right fun _ => ?_)
  rw [List.forall_mem_cons, List.forall_mem_append, List.forall_mem_singleton, ← hline]
  simp

/-! ## Entities -/

/-- What follows the head of an array, if a text begins with one. -/
def afterHead? (cs : List Char) : Option (List Char) :=
  dropStart? "Array<".toList ((dropStart? "Readonly".toList cs).getD cs)

/-- What is looked at of the first and the last alternative: if the one begins and the other one
ends like an array, both without these marks. -/
def lookedAt (first last : List Char) : List Char × List Char :=
  match afterHead? first with
  | some rest => if EndsArray last then (rest, last.dropLast) else (first, last)
  | none => (first, last)

/-- No head of an array is dropped from a text that begins with none. -/
theorem afterHead?_eq_none_iff : afterHead? cs = none ↔ ¬ BeginsArray cs := by
  have hsome : afterHead? cs ≠ none ↔ BeginsArray cs := by
    rw [Option.ne_none_iff_exists']
    constructor
    · rintro ⟨rest, hrest⟩
      obtain ⟨head, hhead, rfl⟩ := dropHead?_eq_some_iff.1 hrest
      exact ⟨head, hhead, rest, rfl⟩
    · rintro ⟨head, hhead, rest, rfl⟩
      exact ⟨rest, dropHead?_eq_some_iff.2 ⟨head, hhead, rfl⟩⟩
  rw [← hsome, not_not]

/-- If the first text does not begin or the last one does not end like an array, both are looked at
as they are. -/
theorem lookedAt_of_not {first last : List Char} (h : ¬ (BeginsArray first ∧ EndsArray last)) :
    lookedAt first last = (first, last) := by
  unfold lookedAt
  split
  · rename_i rest hrest
    have hbegins : BeginsArray first := by
      by_contra hnot
      rw [afterHead?_eq_none_iff.2 hnot] at hrest
      cases hrest
    rw [if_neg fun hends => h ⟨hbegins, hends⟩]
  · rfl

/-- If they do, the head of the array and its closing bracket are left out. -/
theorem exists_of_lookedAt {first last : List Char} (hbegins : BeginsArray first)
    (hends : EndsArray last) : ∃ head ∈ arrayHeads, ∃ rest init,
      first = head ++ rest ∧ last = init ++ ['>'] ∧ lookedAt first last = (rest, init) := by
  obtain ⟨head, hhead, rest, rfl⟩ := hbegins
  obtain ⟨init, rfl⟩ := List.getLast?_eq_some_iff.1 hends
  have hafter : afterHead? (head ++ rest) = some rest := dropHead?_eq_some_iff.2 ⟨head, hhead, rfl⟩
  refine ⟨head, hhead, rest, init, rfl, rfl, ?_⟩
  rw [lookedAt, hafter]
  dsimp only
  rw [if_pos hends, List.dropLast_concat]

/-- White space around the ends of a union makes no difference for what they begin and end like. -/
theorem beginsArray_append_blanks {after : List Char} (hafter : ∀ c ∈ after, isBlank c = true) :
    BeginsArray (cs ++ after) ↔ BeginsArray cs := by
  cases after with
  | nil => rw [List.append_nil]
  | cons c after =>
    have hc : ∀ head ∈ arrayHeads, c ∉ head := by
      intro head hhead hmem
      have hblank := isBlank_of_mem_head hhead c hmem
      rw [hafter c List.mem_cons_self] at hblank
      cases hblank
    exact exists_congr fun head => and_congr_right fun hhead =>
      prefix_append_cons_iff (hc head hhead)

/-- Nothing but an alternative ends like an array. -/
theorem endsArray_of_append_blanks {pieces : List (List Char)} {before : List Char}
    (hbefore : ∀ c ∈ before, isBlank c = true)
    (h : EndsArray (pieces.flatMap (· ++ ['|']) ++ (before ++ cs))) : EndsArray cs := by
  have hbefore' : before.getLast? ≠ some '>' :=
    fun h => absurd (hbefore _ (List.mem_of_getLast? h)) (by decide)
  have hpieces : (pieces.flatMap (· ++ ['|'])).getLast? ≠ some '>' := by
    rcases List.eq_nil_or_concat' pieces with rfl | ⟨init, p, rfl⟩ <;> simp
  unfold EndsArray at h ⊢
  rw [List.getLast?_append, List.getLast?_append] at h
  cases hcs : cs.getLast? with
  | some c => simpa [hcs] using h
  | none =>
    rw [hcs, Option.none_or] at h
    cases hlast : before.getLast? with
    | some c =>
      rw [hlast, Option.some_or] at h
      exact absurd (hlast.trans h) hbefore'
    | none => exact absurd (by rwa [hlast, Option.none_or] at h) hpieces

/-- Of an array in angle brackets the element is left. -/
theorem simplifyChars_of_isArrayOf {type element : List Char}
    (h : IsArrayOf (plainChars type) element) : simplifyChars type = stripBlanks element := by
  have hline : '\n' ∉ element := fun hmem => newline_notMem_plainChars type (h.subset hmem)
  have hfound := arrayElement?_eq_some_iff.2 ⟨h, hline⟩
  unfold plainChars at hfound
  simp only [simplifyChars, hfound]

/-- If the first alternative begins and the last one ends like an array, what is left of the union
begins and ends inside them. -/
theorem isArrayOf_barred {first last : List Char} (hbegins : BeginsArray first)
    (hends : EndsArray last) (after before : List Char) (pieces : List (List Char)) :
    IsArrayOf (barred (first ++ after) pieces (before ++ last))
      (barred ((lookedAt first last).1 ++ after) pieces (before ++ (lookedAt first last).2)) := by
  obtain ⟨head, hhead, rest, init, rfl, rfl, hlooked⟩ := exists_of_lookedAt hbegins hends
  rw [hlooked]
  exact ⟨by simp [barred], head, hhead, by simp [barred]⟩

/-- Otherwise the union is no array in angle brackets. -/
theorem ends_of_isArrayText_barred {first last after before : List Char}
    {pieces : List (List Char)} (hafter : ∀ c ∈ after, isBlank c = true)
    (hbefore : ∀ c ∈ before, isBlank c = true)
    (h : IsArrayText (barred (first ++ after) pieces (before ++ last))) :
    BeginsArray first ∧ EndsArray last := by
  have hheads : ∀ head ∈ arrayHeads, '|' ∉ head := by decide
  rw [barred, isArrayText_append_cons_iff hheads (by decide),
    beginsArray_append_blanks hafter] at h
  exact ⟨h.1, endsArray_of_append_blanks hbefore h.2⟩

/-- A union leads to an entity if one of its alternatives does, of which the first and the last one
are looked at without the marks of an array if they begin and end like one. -/
theorem isRelationType_union (a b : Alternative) (middle : List Alternative) :
    isRelationType (union (a :: (middle ++ [b]))) =
      (refers (lookedAt a.plain b.plain).1 || middle.any (fun m => refers m.plain) ||
        refers (lookedAt a.plain b.plain).2) := by
  obtain ⟨after, before, hafter, hbefore, hplain⟩ := plainChars_union a b middle
  obtain ⟨ha, -⟩ := a.bar_notMem
  obtain ⟨hb, -⟩ := b.bar_notMem
  show anyRefers (simplifyChars (union (a :: (middle ++ [b]))).toList) = _
  by_cases hends : BeginsArray a.plain ∧ EndsArray b.plain
  · -- The marks are taken from the two ends, as if they were those of one array.
    obtain ⟨head, -, rest, init, hfirst, hlast, hlooked⟩ := exists_of_lookedAt hends.1 hends.2
    rw [hfirst] at ha
    rw [hlast] at hb
    have ha' : '|' ∉ rest := fun h => ha (List.mem_append_right head h)
    have hb' : '|' ∉ init := fun h => hb (List.mem_append_left ['>'] h)
    have harray := isArrayOf_barred hends.1 hends.2 after before (middle.map Alternative.piece)
    rw [← hplain, hlooked] at harray
    rw [simplifyChars_of_isArrayOf harray, hlooked]
    exact (anyRefers_pieces ha' hb' hafter hbefore middle).2
  · rw [lookedAt_of_not hends, ← (anyRefers_pieces ha hb hafter hbefore middle).1, ← hplain]
    rcases simplifyChars_cases (union (a :: (middle ++ [b]))).toList with
      ⟨element, harray, -⟩ | heq | ⟨-, -, heq⟩
    · rw [hplain] at harray
      exact absurd (ends_of_isArrayText_barred hafter hbefore ⟨element, harray⟩) hends
    · rw [heq, anyRefers_append_mark]
    · rw [heq]

/-! ## Order -/

/-- The first two of some alternatives as the ends of a union, and the others between them. What a
function tells of the union is the same in every order exactly if it is the same whichever two
alternatives are the ends. -/
theorem forall_perm_iff {α β : Type} {f : List α → β} {g : α → α → List α → β}
    (hends : ∀ a b middle, f (a :: (middle ++ [b])) = g a b middle) (xs : List α) :
    (∀ ys, xs.Perm ys → f ys = f xs) ↔ ∃ v, ∀ a b middle, xs.Perm (a :: b :: middle) →
      g a b middle = v := by
  have hperm (a b : α) (middle : List α) : (a :: b :: middle).Perm (a :: (middle ++ [b])) :=
    (List.perm_append_singleton b middle).symm.cons a
  constructor
  · intro h
    refine ⟨f xs, fun a b middle hxs => ?_⟩
    rw [← hends, h _ (hxs.trans (hperm a b middle))]
  · rintro ⟨v, hv⟩ ys hys
    match xs with
    | [] => rw [List.nil_perm.1 hys]
    | [x] => rw [List.singleton_perm.1 hys]
    | x :: x' :: rest =>
      -- Both lists have two ends.
      have hvalue {zs : List α} (hzs : (x :: x' :: rest).Perm zs) : f zs = v := by
        obtain ⟨a, b, middle, rfl⟩ : ∃ a b middle, zs = a :: (middle ++ [b]) := by
          have hlength := hzs.length_eq
          cases zs with
          | nil => simp at hlength
          | cons a zs =>
            rcases List.eq_nil_or_concat' zs with rfl | ⟨middle, b, rfl⟩
            · simp at hlength
            · exact ⟨a, b, middle, rfl⟩
        rw [hends, hv a b middle (hzs.trans (hperm a b middle).symm)]
      rw [hvalue hys, hvalue (List.Perm.refl _)]

/-- Whether a union with these ends is an array. -/
def arrayByEnds (a b : Alternative) (middle : List Alternative) : Bool :=
  decide ("[]".toList <:+ b.text.toList ∨
    (BeginsArray a.text.toList ∧ EndsArray b.text.toList) ∧
      ∀ m ∈ a :: (middle ++ [b]), '\n' ∉ m.text.toList)

/-- Whether a union with these ends leads to an entity. -/
def relationByEnds (a b : Alternative) (middle : List Alternative) : Bool :=
  refers (lookedAt a.plain b.plain).1 || middle.any (fun m => refers m.plain) ||
    refers (lookedAt a.plain b.plain).2

/-- A text as an alternative, by the brackets of types. -/
def Alternative.of (text : String) (h : text ≠ "" ∧ stripBlanks text.toList = text.toList ∧
    '|' ∉ text.toList ∧ typeBrackets.IsNested text.toList) : Alternative where
  text := text
  brackets := typeBrackets
  text_ne := h.1
  trimmed := h.2.1
  no_bar := h.2.2.1
  round_mem := DataModel.round_mem
  nested := h.2.2.2

/-- The alternative that stands for no value. -/
def nullAlternative : Alternative := .of "null" (by decide)

/-- What may be null is no array with `null` behind it. -/
theorem isArrayType_before_null (m : Alternative) :
    isArrayType (union [m, nullAlternative]) = false := by
  have hmark : ¬ "[]".toList <:+ nullAlternative.text.toList := by decide
  have hends : ¬ EndsArray nullAlternative.text.toList := by decide
  refine Bool.eq_false_iff.2 fun harray => ?_
  rcases (isArrayType_union m nullAlternative []).1 harray with h | ⟨⟨-, h⟩, -⟩
  · exact hmark h
  · exact hends h

/-- With `null` before it, it is one if it ends with the mark of one. -/
theorem isArrayType_after_null (m : Alternative) :
    isArrayType (union [nullAlternative, m]) = true ↔ "[]".toList <:+ m.text.toList := by
  have hbegins : ¬ BeginsArray nullAlternative.text.toList := by decide
  exact (isArrayType_union nullAlternative m []).trans (or_iff_left fun h => hbegins h.1.1)

/-- In every order of some alternatives it is the same whether their union is an array, and whether
it leads to an entity, exactly if it is the same whichever two of them are its ends. For what may be
null it is the same in both orders whether it is an array, unless it ends with `[]`. -/
theorem order_is_told_iff (ms : List Alternative) :
    ((∀ ms', ms.Perm ms' → isArrayType (union ms') = isArrayType (union ms)) ↔
      ∃ v, ∀ a b middle, ms.Perm (a :: b :: middle) → arrayByEnds a b middle = v) ∧
    ((∀ ms', ms.Perm ms' → isRelationType (union ms') = isRelationType (union ms)) ↔
      ∃ v, ∀ a b middle, ms.Perm (a :: b :: middle) → relationByEnds a b middle = v) ∧
    ∀ m, isArrayType (union [m, nullAlternative]) = false ∧
      (isArrayType (union [nullAlternative, m]) = true ↔ "[]".toList <:+ m.text.toList) := by
  have hends (a b : Alternative) (middle : List Alternative) :
      isArrayType (union (a :: (middle ++ [b]))) = arrayByEnds a b middle := by
    rw [Bool.eq_iff_iff, isArrayType_union, arrayByEnds, decide_eq_true_iff]
  exact ⟨forall_perm_iff hends ms, forall_perm_iff isRelationType_union ms,
    fun m => ⟨isArrayType_before_null m, isArrayType_after_null m⟩⟩

/-- What may be null is the same in every order if it is a reference. -/
theorem nullable_reference_in_any_order : ∃ m : Alternative, m.text = "User" ∧
    ∀ ms', [m, nullAlternative].Perm ms' →
      isArrayType (union ms') = false ∧ isRelationType (union ms') = true := by
  let m : Alternative := .of "User" (by decide)
  have hpair {a b : Alternative} {middle : List Alternative}
      (h : [m, nullAlternative].Perm (a :: b :: middle)) :
      (a = m ∧ b = nullAlternative ∧ middle = []) ∨
        a = nullAlternative ∧ b = m ∧ middle = [] := by
    simpa only [List.cons.injEq] using List.pair_perm.1 h
  obtain ⟨harray, hrelation, -⟩ := order_is_told_iff [m, nullAlternative]
  refine ⟨m, rfl, fun ms' hms => ⟨?_, ?_⟩⟩
  · rw [harray.2 ⟨false, fun a b middle h => ?_⟩ ms' hms, isArrayType_before_null]
    rcases hpair h with ⟨rfl, rfl, rfl⟩ | ⟨rfl, rfl, rfl⟩ <;> decide +kernel
  · have hfirst : isRelationType (union [m, nullAlternative]) = true := by decide +kernel
    rw [hrelation.2 ⟨true, fun a b middle h => ?_⟩ ms' hms, hfirst]
    rcases hpair h with ⟨rfl, rfl, rfl⟩ | ⟨rfl, rfl, rfl⟩ <;> decide +kernel

/-- Where an array stands among the alternatives makes a difference: for whether it is one, and,
between arrays, for whether it leads to an entity. -/
theorem order_is_told :
    (∃ a b : Alternative, a.text = "Post[]" ∧ b.text = "null" ∧
      union [a, b] = "Post[] | null" ∧ isArrayType (union [a, b]) = false ∧
      union [b, a] = "null | Post[]" ∧ isArrayType (union [b, a]) = true) ∧
    ∃ a b c : Alternative, union [a, b, c] = "Array<string> | Array<number> | null" ∧
      isRelationType (union [a, b, c]) = false ∧
      union [a, c, b] = "Array<string> | null | Array<number>" ∧
      isRelationType (union [a, c, b]) = true := by
  refine ⟨⟨.of "Post[]" ?_, nullAlternative, ?_⟩,
    ⟨.of "Array<string>" ?_, .of "Array<number>" ?_, nullAlternative, ?_⟩⟩
  all_goals decide +kernel

end CodeSurvey.DataModel
