import CodeSurvey.Proofs.Text.Pieces
import CodeSurvey.Text.Case

/-!
# Parts of texts

What the functions on texts do to a text that is put together from parts: one that occurs in it
(`hasPart_iff`), the rest behind one at the front (`dropStart?_append`), those before and after the
last separator (`afterLast_append`, `beforeLast?_append`), and the end that is stripped
(`dropEndWhile_of_getLast?`).

A text is put in lower case character by character but for its sigmas, whose form depends on what
stands around them. A part of ASCII characters does not see this (`prefix_lowerChars_iff`).
-/

namespace CodeSurvey.Text

variable {sep : Char} {xs ys : List Char}

/-- One text occurs in another if it is a part of it. -/
theorem hasPart_iff {needle cs : List Char} : hasPart needle cs = true ↔ needle <:+: cs := by
  induction cs with
  | nil => rw [hasPart, List.isEmpty_iff, List.infix_nil]
  | cons c cs ih =>
    rw [hasPart, Bool.or_eq_true, List.isPrefixOf_iff_prefix, ih, List.infix_cons_iff]

/-- A text begins what a character that it has not cuts apart if it begins the first part. -/
theorem prefix_append_cons_iff {needle : List Char} (h : sep ∉ needle) :
    needle <+: xs ++ sep :: ys ↔ needle <+: xs := by
  induction needle generalizing xs with
  | nil => simp
  | cons c needle ih =>
    obtain ⟨hc, hneedle⟩ : sep ≠ c ∧ sep ∉ needle := by simpa using h
    cases xs with
    | nil => simp [List.cons_prefix_cons, Ne.symm hc]
    | cons x xs => rw [List.cons_append, List.cons_prefix_cons, List.cons_prefix_cons, ih hneedle]

/-- It occurs in it if it occurs on one side. -/
theorem infix_append_cons_iff {needle : List Char} (h : sep ∉ needle) :
    needle <:+: xs ++ sep :: ys ↔ needle <:+: xs ∨ needle <:+: ys := by
  induction xs with
  | nil =>
    have hprefix := @prefix_append_cons_iff sep [] ys needle h
    rw [List.nil_append] at hprefix
    rw [List.nil_append, List.infix_cons_iff, hprefix, List.prefix_nil, List.infix_nil]
  | cons x xs ih =>
    rw [List.cons_append, List.infix_cons_iff, List.infix_cons_iff, ← List.cons_append,
      prefix_append_cons_iff h, ih, or_assoc]

/-- A text that ends with its only separator begins what a separator cuts apart if it begins the
first part with the separator. -/
theorem prefix_append_sep_iff {part : List Char} (h : sep ∉ part) :
    part ++ [sep] <+: xs ++ sep :: ys ↔ part ++ [sep] <+: xs ++ [sep] := by
  induction part generalizing xs with
  | nil => cases xs <;> simp [List.cons_prefix_cons]
  | cons c part ih =>
    obtain ⟨hc, hpart⟩ : sep ≠ c ∧ sep ∉ part := by simpa using h
    cases xs with
    | nil => simp [List.cons_prefix_cons, Ne.symm hc]
    | cons x xs =>
      simp only [List.cons_append, List.cons_prefix_cons, ih hpart]

/-- A part between separators occurs in what a separator cuts apart if it occurs on one side, with
the separator. -/
theorem infix_append_sep_iff {part : List Char} (h : sep ∉ part) :
    sep :: (part ++ [sep]) <:+: xs ++ sep :: ys ↔
      sep :: (part ++ [sep]) <:+: xs ++ [sep] ∨ sep :: (part ++ [sep]) <:+: sep :: ys := by
  induction xs with
  | nil =>
    refine ⟨.inr, fun h => h.elim (fun h => h.trans ?_) id⟩
    exact (List.prefix_append [sep] ys).isInfix
  | cons x xs ih =>
    rw [List.cons_append, List.cons_append, List.infix_cons_iff, List.infix_cons_iff, ih,
      List.cons_prefix_cons, List.cons_prefix_cons, prefix_append_sep_iff h, or_assoc]

/-- The test for characters that are no separators, where there is none. -/
theorem bne_of_notMem (hys : sep ∉ ys) : ∀ c ∈ ys, (c != sep) = true := by
  intro c hc
  rw [bne_iff_ne]
  rintro rfl
  exact hys hc

/-- Read from its end, a list without the separator has none. -/
theorem bne_of_mem_reverse (hys : sep ∉ ys) : ∀ c ∈ ys.reverse, (c != sep) = true :=
  bne_of_notMem (mt List.mem_reverse.1 hys)

/-- What stands after the last separator. -/
theorem afterLast_append (xs : List Char) (hys : sep ∉ ys) :
    afterLast sep (String.ofList (xs ++ sep :: ys)) = String.ofList ys := by
  rw [afterLast, String.toList_ofList, List.reverse_append, List.reverse_cons, List.append_assoc,
    List.takeWhile_append_of_pos (bne_of_mem_reverse hys), List.singleton_append,
    List.takeWhile_cons_of_neg (by simp), List.append_nil, List.reverse_reverse]

/-- What stands before the last separator. -/
theorem beforeLast?_append (xs : List Char) (hys : sep ∉ ys) :
    beforeLast? sep (String.ofList (xs ++ sep :: ys)) = some (String.ofList xs) := by
  rw [beforeLast?, String.toList_ofList, List.reverse_append, List.reverse_cons, List.append_assoc,
    List.dropWhile_append_of_pos (bne_of_mem_reverse hys), List.singleton_append,
    List.dropWhile_cons_of_neg (by simp)]
  simp

/-- The characters of joined texts: those of the first, and for each other one the separator and its
own. -/
theorem toList_join_cons {between : String} (hbetween : between.toList = [sep]) (s : String)
    (rest : List String) :
    (join between (s :: rest)).toList = s.toList ++ rest.flatMap fun t => sep :: t.toList := by
  induction rest generalizing s with
  | nil => rw [join, List.foldl_nil, List.flatMap_nil, List.append_nil]
  | cons t rest ih =>
    rw [join_cons_cons, String.toList_append, String.toList_append, ih, hbetween,
      List.flatMap_cons]
    simp only [List.append_assoc, List.cons_append, List.nil_append]

/-- Nothing is stripped at the end of a list whose last element does not satisfy the condition. -/
theorem dropEndWhile_of_getLast? {p : Char → Bool} {cs : List Char}
    (h : ∀ c, cs.getLast? = some c → p c = false) : dropEndWhile p cs = cs := by
  unfold dropEndWhile
  cases hcs : cs.reverse with
  | nil => rw [List.dropWhile_nil, List.reverse_eq_nil_iff.1 hcs, List.reverse_nil]
  | cons c rest =>
    have hlast : cs.getLast? = some c := by
      rw [List.getLast?_eq_head?_reverse, hcs, List.head?_cons]
    rw [List.dropWhile_cons_of_neg (by rw [h c hlast]; exact Bool.false_ne_true), ← hcs,
      List.reverse_reverse]

/-- What is stripped at the end is not part of what stands before it. -/
theorem dropEndWhile_prefix (p : Char → Bool) (cs : List Char) : dropEndWhile p cs <+: cs := by
  have h := List.reverse_prefix.2 (List.dropWhile_suffix p (l := cs.reverse))
  rwa [List.reverse_reverse] at h

/-- What does not satisfy the condition is not stripped. -/
theorem mem_dropEndWhile {p : Char → Bool} {cs : List Char} {c : Char} (hc : c ∈ cs)
    (hp : p c = false) : c ∈ dropEndWhile p cs := by
  rw [← List.mem_reverse, ← List.takeWhile_append_dropWhile (p := p) (l := cs.reverse),
    List.mem_append] at hc
  rcases hc with hc | hc
  · exact absurd (List.mem_takeWhile_imp hc) (by rw [hp]; exact Bool.false_ne_true)
  · exact List.mem_reverse.2 hc

/-- Nothing of what does not satisfy the condition is stripped. -/
theorem count_dropEndWhile {p : Char → Bool} {c : Char} (hp : p c = false) (cs : List Char) :
    (dropEndWhile p cs).count c = cs.count c := by
  have hnone : c ∉ cs.reverse.takeWhile p := by
    intro hc
    rw [List.mem_takeWhile_imp hc] at hp
    cases hp
  rw [dropEndWhile, List.count_reverse, ← List.count_reverse (l := cs),
    ← List.takeWhile_append_dropWhile (p := p) (l := cs.reverse), List.count_append,
    List.count_eq_zero_of_not_mem hnone, Nat.zero_add]
  simp

/-- A text begins with another one if the rest follows that. -/
theorem dropStart?_eq_some_iff {start cs rest : List Char} :
    dropStart? start cs = some rest ↔ cs = start ++ rest := by
  induction start generalizing cs with
  | nil => simp [dropStart?, eq_comm]
  | cons s start ih =>
    cases cs with
    | nil => simp [dropStart?]
    | cons c cs =>
      rw [dropStart?]
      split_ifs with h
      · rw [ih, h, List.cons_append, List.cons.injEq, eq_self, true_and]
      · simp [Ne.symm h]

/-- Whether what is put together begins with a text is told by the first part, if the second one
begins with a character that the text has not. -/
theorem dropStart?_append {start ys : List Char} (h : ∀ c ∈ ys.head?, c ∉ start) (xs : List Char) :
    dropStart? start (xs ++ ys) = (dropStart? start xs).map (· ++ ys) := by
  induction start generalizing xs with
  | nil => rfl
  | cons s start ih =>
    have ih := ih fun c hc => List.not_mem_of_not_mem_cons (h c hc)
    cases xs with
    | nil =>
      cases ys with
      | nil => rfl
      | cons y ys =>
        have hne : s ≠ y := (List.ne_of_not_mem_cons (h y rfl)).symm
        exact if_neg hne
    | cons x xs =>
      simp only [List.cons_append, dropStart?, ih]
      split_ifs <;> rfl

/-- Nothing is stripped at or before a character that does not satisfy the condition. -/
theorem dropEndWhile_append_cons {p : Char → Bool} {c : Char} (hc : p c = false)
    (cs ds : List Char) : dropEndWhile p (cs ++ c :: ds) = cs ++ c :: dropEndWhile p ds := by
  unfold dropEndWhile
  rw [List.reverse_append, List.reverse_cons, List.append_assoc, List.dropWhile_append,
    List.singleton_append, List.dropWhile_cons_of_neg (by rw [hc]; exact Bool.false_ne_true)]
  split_ifs with hempty
  · rw [List.isEmpty_iff.1 hempty]
    simp
  · simp

/-- An end without the separator is one of what stands after a separator. -/
theorem suffix_append_sep_iff {ending : List Char} (hsep : sep ∉ ending) :
    ending <:+ xs ++ sep :: ys ↔ ending <:+ ys := by
  constructor
  · intro h
    rcases List.suffix_or_suffix_of_suffix h (List.suffix_append xs (sep :: ys)) with h | h
    · rcases List.suffix_cons_iff.1 h with rfl | h
      · exact absurd List.mem_cons_self hsep
      · exact h
    · exact absurd (h.subset List.mem_cons_self) hsep
  · exact fun h => (h.trans (List.suffix_cons _ _)).trans (List.suffix_append _ _)

/-- The pieces of a part between two separators are pieces of the whole. -/
theorem mem_splitOn_of_infix {part cs : List Char}
    (h : sep :: (part ++ [sep]) <:+: sep :: (cs ++ [sep])) {p : List Char}
    (hp : p ∈ splitOn sep part) (hne : p ≠ []) : p ∈ splitOn sep cs := by
  obtain ⟨front, back, heq⟩ := h
  have hwhole : splitOn sep (sep :: (cs ++ [sep])) = [] :: (splitOn sep cs ++ [[]]) := by
    calc splitOn sep ([] ++ sep :: (cs ++ [sep]))
        = splitOn sep [] ++ splitOn sep (cs ++ sep :: []) := splitOn_append_sep _ _
      _ = [] :: (splitOn sep cs ++ [[]]) := by rw [splitOn_append_sep]; rfl
  have hparts : splitOn sep (front ++ sep :: (part ++ [sep]) ++ back) =
      splitOn sep front ++ (splitOn sep part ++ splitOn sep back) := by
    rw [List.append_assoc, List.cons_append, List.append_assoc, List.singleton_append,
      splitOn_append_sep, splitOn_append_sep]
  have hmem : p ∈ [] :: (splitOn sep cs ++ [[]]) := by
    rw [← hwhole, ← heq, hparts]
    exact List.mem_append_right _ (List.mem_append_left _ hp)
  simpa [hne] using hmem

/-! ## Words at the front of a text in lower case -/

/-- A small sigma in its common form. -/
def commonSigma (c : Char) : Char := if c = Char.ofNat 0x3C2 then Char.ofNat 0x3C3 else c

/-- But for their form all small sigmas are the same. -/
theorem commonSigma_lowerSigma (before after : List Char) :
    [commonSigma (lowerSigma before after)] = (lowerChar capitalSigma).map commonSigma := by
  have himage : (lowerChar capitalSigma).map commonSigma = [Char.ofNat 0x3C3] := by
    decide +kernel
  rw [himage, lowerSigma]
  split_ifs <;> decide

/-- Nor does the form of the sigmas matter to what was put in lower case before. -/
theorem map_commonSigma_go (before rest out : List Char) :
    (lowerChars.go before rest out).map commonSigma =
      (out.reverse ++ rest.flatMap lowerChar).map commonSigma := by
  induction rest generalizing before out with
  | nil => rw [lowerChars.go, List.flatMap_nil, List.append_nil]
  | cons c rest ih =>
    rw [lowerChars.go, ih, List.flatMap_cons, List.reverse_append, List.reverse_reverse]
    simp only [List.map_append, List.append_assoc]
    split_ifs with hc
    · rw [List.map_singleton, commonSigma_lowerSigma, hc]
    · rfl

/-- But for the form of the sigmas a text is put in lower case character by character. -/
theorem map_commonSigma_lowerChars (cs : List Char) :
    (lowerChars cs).map commonSigma = (cs.flatMap lowerChar).map commonSigma := by
  unfold lowerChars
  split_ifs
  · rw [map_commonSigma_go, List.reverse_nil, List.nil_append]
  · rfl

/-- The form of the sigmas makes no difference for whether a text begins with ASCII characters. -/
theorem prefix_map_commonSigma_iff {word : List Char} (h : ∀ c ∈ word, c.toNat < 128)
    {cs : List Char} : word <+: cs.map commonSigma ↔ word <+: cs := by
  induction word generalizing cs with
  | nil => exact iff_of_true (List.nil_prefix) (List.nil_prefix)
  | cons c word ih =>
    obtain ⟨hc, hword⟩ := List.forall_mem_cons.1 h
    cases cs with
    | nil => rfl
    | cons d cs =>
      have hsame : c = commonSigma d ↔ c = d := by
        unfold commonSigma
        split_ifs with hd
        · subst hd
          refine iff_of_false ?_ ?_ <;> rintro rfl <;> exact absurd hc (by decide)
        · rfl
      rw [List.map_cons, List.cons_prefix_cons, List.cons_prefix_cons, ih hword, hsame]

/-- A text in lower case begins with ASCII characters if it does so character by character. -/
theorem prefix_lowerChars_iff {word : List Char} (h : ∀ c ∈ word, c.toNat < 128)
    (cs : List Char) : word <+: lowerChars cs ↔ word <+: cs.flatMap lowerChar := by
  rw [← prefix_map_commonSigma_iff h, map_commonSigma_lowerChars, prefix_map_commonSigma_iff h]

end CodeSurvey.Text
