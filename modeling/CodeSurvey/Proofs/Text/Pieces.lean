import CodeSurvey.Text.Basic
import Mathlib.Data.List.Induction
import Mathlib.Data.List.Nodup
import Mathlib.Data.List.TakeWhile
import Mathlib.Tactic.Common

/-!
# Joined texts are split again

A text that is joined from pieces without the separator is split into these pieces
(`split_join`). If no piece is empty, the text neither begins nor ends with the separator
(`trimChar_join`).

When repeated elements of a list are left out, the first of each remains (`mem_distinct`), in the
order in which they first occur (`pairwise_distinct`). The different elements of a list are those of
its parts (`distinct_append`), and those that are kept of them are the different ones of what is
kept (`distinct_filter`).
-/

namespace CodeSurvey.Text

variable {sep : Char}

/-- A list without the separator is one piece. -/
theorem splitOn_of_notMem {p : List Char} (hp : sep ∉ p) : splitOn sep p = [p] := by
  induction p with
  | nil => rfl
  | cons c p ih =>
    obtain ⟨hc, hp⟩ : sep ≠ c ∧ sep ∉ p := by simpa using hp
    have hrest := ih hp
    simp only [splitOn, List.cons.injEq] at hrest ⊢
    simp only [List.foldr_cons, if_neg hc.symm, hrest.1, hrest.2, and_self]

/-- No piece has the separator. -/
theorem notMem_of_mem_splitOn {cs p : List Char} (h : p ∈ splitOn sep cs) : sep ∉ p := by
  induction cs generalizing p with
  | nil =>
    obtain rfl : p = [] := by simpa [splitOn] using h
    exact List.not_mem_nil
  | cons c cs ih =>
    -- A character begins a piece anew or is put before the first one.
    simp only [splitOn, List.foldr_cons, List.mem_cons] at h ih
    by_cases hc : c = sep
    · simp only [if_pos hc] at h
      rcases h with rfl | h
      · exact List.not_mem_nil
      · exact ih (List.mem_cons.1 h)
    · simp only [if_neg hc] at h
      rcases h with rfl | h
      · exact List.not_mem_cons_of_ne_of_not_mem (Ne.symm hc) (ih (.inl rfl))
      · exact ih (.inr h)

/-- A piece is a part of the list. -/
theorem isInfix_of_mem_splitOn {cs p : List Char} (h : p ∈ splitOn sep cs) : p <:+: cs := by
  -- The first piece is where the list begins, so that a character may be put before it.
  have hpieces : ∀ cs : List Char, (splitOn sep cs).head (List.cons_ne_nil _ _) <+: cs ∧
      ∀ p ∈ (splitOn sep cs).tail, p <:+: cs := by
    intro cs
    induction cs with
    | nil => exact ⟨List.nil_prefix, fun p hp => absurd hp List.not_mem_nil⟩
    | cons c cs ih =>
      obtain ⟨hfirst, hrest⟩ := ih
      simp only [splitOn, List.foldr_cons, List.head_cons, List.tail_cons] at hfirst hrest ⊢
      by_cases hc : c = sep
      · simp only [if_pos hc]
        refine ⟨List.nil_prefix, fun p hp => ?_⟩
        rcases List.mem_cons.1 hp with rfl | hp
        · exact hfirst.isInfix.trans (List.suffix_cons c cs).isInfix
        · exact (hrest p hp).trans (List.suffix_cons c cs).isInfix
      · simp only [if_neg hc]
        refine ⟨List.cons_prefix_cons.2 ⟨rfl, hfirst⟩, fun p hp => ?_⟩
        exact (hrest p hp).trans (List.suffix_cons c cs).isInfix
  rcases List.mem_cons.1 h with rfl | hp
  · exact (hpieces cs).1.isInfix
  · exact (hpieces cs).2 p hp

/-- There is one piece more than there are separators. -/
theorem length_splitOn (sep : Char) (cs : List Char) :
    (splitOn sep cs).length = cs.count sep + 1 := by
  induction cs with
  | nil => rfl
  | cons c cs ih =>
    simp only [splitOn, List.length_cons, Nat.add_right_cancel_iff] at ih ⊢
    by_cases hc : c = sep
    · simp [hc, ih]
    · simp [hc, ih]

/-- The pieces on the two sides of a separator are cut apart. -/
theorem splitOn_append_sep (p cs : List Char) :
    splitOn sep (p ++ sep :: cs) = splitOn sep p ++ splitOn sep cs := by
  induction p with
  | nil => simp [splitOn]
  | cons c p ih =>
    simp only [splitOn, List.cons_append, List.cons.injEq] at ih ⊢
    by_cases hc : c = sep
    · simp only [List.foldr_cons, if_pos hc, ih.1, ih.2, List.cons_append, and_self]
    · simp only [List.foldr_cons, if_neg hc, ih.1, ih.2, and_self]

/-- What stands before the first separator is the first piece. -/
theorem splitOn_append {p : List Char} (hp : sep ∉ p) (cs : List Char) :
    splitOn sep (p ++ sep :: cs) = p :: splitOn sep cs := by
  rw [splitOn_append_sep, splitOn_of_notMem hp, List.singleton_append]

/-- What is in joined pieces is in one of them, or the separator. -/
theorem exists_of_mem_intercalate {c : Char} {parts : List (List Char)}
    (h : c ∈ List.intercalate [sep] parts) : c = sep ∨ ∃ p ∈ parts, c ∈ p := by
  induction parts with
  | nil => cases h
  | cons p rest ih =>
    cases rest with
    | nil => exact .inr ⟨p, List.mem_cons_self, by rwa [List.intercalate_singleton] at h⟩
    | cons q rest =>
      rw [List.intercalate_cons_cons, List.append_assoc, List.singleton_append,
        List.mem_append, List.mem_cons] at h
      rcases h with hp | hc | hrest
      · exact .inr ⟨p, List.mem_cons_self, hp⟩
      · exact .inl hc
      · refine (ih hrest).imp_right ?_
        rintro ⟨r, hr, hmem⟩
        exact ⟨r, List.mem_cons_of_mem _ hr, hmem⟩

/-- Joined pieces without the separator are split again. -/
theorem splitOn_intercalate {parts : List (List Char)} (hne : parts ≠ [])
    (hparts : ∀ p ∈ parts, sep ∉ p) : splitOn sep (List.intercalate [sep] parts) = parts := by
  induction parts with
  | nil => exact absurd rfl hne
  | cons p rest ih =>
    obtain ⟨hp, hrest⟩ := List.forall_mem_cons.1 hparts
    cases rest with
    | nil => rw [List.intercalate_singleton, splitOn_of_notMem hp]
    | cons q rest =>
      rw [List.intercalate_cons_cons, List.append_assoc, List.singleton_append, splitOn_append hp,
        ih (List.cons_ne_nil _ _) hrest]

/-- Pieces before others are joined with a separator between the two. -/
theorem intercalate_append {first last : List (List Char)} (hfirst : first ≠ [])
    (hlast : last ≠ []) : List.intercalate [sep] (first ++ last) =
      List.intercalate [sep] first ++ sep :: List.intercalate [sep] last := by
  induction first with
  | nil => exact absurd rfl hfirst
  | cons p rest ih =>
    cases rest with
    | nil =>
      cases last with
      | nil => exact absurd rfl hlast
      | cons q last =>
        rw [List.singleton_append, List.intercalate_cons_cons, List.intercalate_singleton,
          List.append_assoc, List.singleton_append]
    | cons q rest =>
      rw [List.cons_append, List.cons_append, List.intercalate_cons_cons, ← List.cons_append,
        ih (List.cons_ne_nil _ _), List.intercalate_cons_cons]
      simp only [List.append_assoc]

/-- Split pieces are joined again. -/
theorem intercalate_splitOn (cs : List Char) : List.intercalate [sep] (splitOn sep cs) = cs := by
  induction cs with
  | nil => rfl
  | cons c cs ih =>
    by_cases hc : c = sep
    · subst hc
      have hpieces : splitOn c (c :: cs) = [] :: splitOn c cs := by simp [splitOn]
      rw [hpieces, splitOn, List.intercalate_cons_cons, ← splitOn, ih]
      rfl
    · -- Another character is put before the first piece, which is there in any case.
      obtain ⟨first, rest, hsplit⟩ : ∃ first rest, splitOn sep cs = first :: rest := ⟨_, _, rfl⟩
      have hpieces : splitOn sep (c :: cs) = (c :: first) :: rest := by
        simp only [splitOn, List.cons.injEq] at hsplit ⊢
        simp only [List.foldr_cons, if_neg hc, hsplit.1, hsplit.2, and_self]
      rw [hsplit] at ih
      rw [hpieces, ← ih]
      cases rest with
      | nil => rw [List.intercalate_singleton, List.intercalate_singleton]
      | cons p rest =>
        rw [List.intercalate_cons_cons, List.intercalate_cons_cons, List.cons_append,
          List.cons_append]

/-- What stands before joined texts may be put before the first of them. -/
theorem foldl_append (between : String) (start s : String) (rest : List String) :
    rest.foldl (fun acc t => acc ++ between ++ t) (start ++ s) =
      start ++ rest.foldl (fun acc t => acc ++ between ++ t) s := by
  induction rest generalizing s with
  | nil => rfl
  | cons t rest ih =>
    rw [List.foldl_cons, List.foldl_cons, ← ih]
    simp only [String.append_assoc]

/-- Joining the first text with all others. -/
theorem join_cons_cons (between s t : String) (rest : List String) :
    join between (s :: t :: rest) = s ++ between ++ join between (t :: rest) := by
  rw [join, List.foldl_cons, foldl_append]
  rfl

/-- The characters of joined texts are joined as well. -/
theorem toList_join (between : String) (texts : List String) :
    (join between texts).toList = List.intercalate between.toList (texts.map String.toList) := by
  induction texts with
  | nil => rfl
  | cons s rest ih =>
    cases rest with
    | nil => rw [List.map_singleton, List.intercalate_singleton, join, List.foldl_nil]
    | cons t rest =>
      rw [join_cons_cons, String.toList_append, String.toList_append, ih, List.map_cons,
        List.map_cons, List.map_cons, List.intercalate_cons_cons]

/-- Joined texts begin with the first of them. -/
theorem join_eq_append (between s : String) (rest : List String) :
    ∃ after, join between (s :: rest) = s ++ after := by
  cases rest with
  | nil => exact ⟨"", (String.append_empty).symm⟩
  | cons t rest =>
    exact ⟨between ++ join between (t :: rest), by rw [join_cons_cons, String.append_assoc]⟩

/-- They end with the last of them. -/
theorem join_eq_append_getLast (between : String) {texts : List String} (hne : texts ≠ []) :
    ∃ before, join between texts = before ++ texts.getLast hne := by
  induction texts with
  | nil => exact absurd rfl hne
  | cons s rest ih =>
    cases rest with
    | nil => exact ⟨"", (String.empty_append).symm⟩
    | cons t rest =>
      obtain ⟨before, hbefore⟩ := ih (List.cons_ne_nil t rest)
      refine ⟨s ++ between ++ before, ?_⟩
      rw [join_cons_cons, hbefore, List.getLast_cons_cons]
      simp only [String.append_assoc]

/-- Texts without the separator are split again after they were joined with it. -/
theorem split_join {between : String} (hbetween : between.toList = [sep]) {parts : List String}
    (hne : parts ≠ []) (hparts : ∀ p ∈ parts, sep ∉ p.toList) :
    split (join between parts) sep = parts := by
  unfold split
  induction parts with
  | nil => exact absurd rfl hne
  | cons p rest ih =>
    obtain ⟨hp, hrest⟩ := List.forall_mem_cons.1 hparts
    cases rest with
    | nil =>
      rw [join, List.foldl_nil, splitOn_of_notMem hp]
      simp
    | cons q rest =>
      have htoList : (join between (p :: q :: rest)).toList =
          p.toList ++ sep :: (join between (q :: rest)).toList := by
        rw [join_cons_cons, String.toList_append, String.toList_append, hbetween,
          List.append_assoc, List.singleton_append]
      rw [htoList, splitOn_append hp, List.map_cons, ih (by simp) hrest, String.ofList_toList]

/-- A text without the separator is one piece. -/
theorem split_of_notMem {s : String} (hs : sep ∉ s.toList) : split s sep = [s] := by
  rw [split, splitOn_of_notMem hs, List.map_singleton, String.ofList_toList]

/-- Two pieces with the separator between them. -/
theorem split_pair {between : String} (hbetween : between.toList = [sep]) {s t : String}
    (hs : sep ∉ s.toList) (ht : sep ∉ t.toList) : split (s ++ between ++ t) sep = [s, t] := by
  have hjoin : join between [s, t] = s ++ between ++ t := by
    rw [join_cons_cons, join, List.foldl_nil]
  rw [← hjoin]
  exact split_join hbetween (List.cons_ne_nil _ _)
    (List.forall_mem_cons.2 ⟨hs, List.forall_mem_singleton.2 ht⟩)

/-- A list that does not begin or end with what is stripped is left as it is. -/
theorem stripBy_eq_self {p : Char → Bool} {cs : List Char}
    (hhead : ∀ c, cs.head? = some c → p c = false)
    (hlast : ∀ c, cs.getLast? = some c → p c = false) : stripBy p cs = cs := by
  have hdrop : ∀ cs : List Char, (∀ c, cs.head? = some c → p c = false) → cs.dropWhile p = cs := by
    intro cs h
    cases cs with
    | nil => rfl
    | cons c cs => rw [List.dropWhile_cons, h c rfl]; rfl
  rw [stripBy, hdrop cs hhead, dropEndWhile, hdrop cs.reverse, List.reverse_reverse]
  intro c hc
  exact hlast c (by rwa [List.head?_reverse] at hc)

/-- What is stripped at the end of a list is stripped at the end of any list that it ends, unless
nothing else is in it. -/
theorem dropEndWhile_append {p : Char → Bool} {cs : List Char} (hcs : dropEndWhile p cs ≠ [])
    (before : List Char) : dropEndWhile p (before ++ cs) = before ++ dropEndWhile p cs := by
  unfold dropEndWhile at hcs ⊢
  have hkept : (cs.reverse.dropWhile p).isEmpty = false := by simpa using hcs
  rw [List.reverse_append, List.dropWhile_append, hkept, if_neg (by simp), List.reverse_append,
    List.reverse_reverse]

/-- What is stripped at the end satisfies the condition. -/
theorem dropEndWhile_append_stripped (p : Char → Bool) (cs : List Char) :
    ∃ stripped, cs = dropEndWhile p cs ++ stripped ∧ ∀ c ∈ stripped, p c = true := by
  refine ⟨(cs.reverse.takeWhile p).reverse, ?_, fun c hc => ?_⟩
  · rw [dropEndWhile, ← List.reverse_append, List.takeWhile_append_dropWhile, List.reverse_reverse]
  · exact List.all_eq_true.1 (List.all_takeWhile (p := p)) c (List.mem_reverse.1 hc)

/-- Nothing is stripped at the end of a list in which nothing satisfies the condition. -/
theorem dropEndWhile_eq_self {p : Char → Bool} {cs : List Char} (h : ∀ c ∈ cs, p c = false) :
    dropEndWhile p cs = cs := by
  obtain ⟨stripped, hcs, hstripped⟩ := dropEndWhile_append_stripped p cs
  cases stripped with
  | nil => rw [List.append_nil] at hcs; exact hcs.symm
  | cons c stripped =>
    have hc : p c = false := h c (by rw [hcs]; simp)
    exact absurd (hstripped c List.mem_cons_self) (by simp [hc])

/-- Two lists with a separator between them are stripped at their outer ends; what separators stood
at the inner end of the first come after the first of them. -/
theorem stripBy_append_sep {cs ds : List Char} (hcs : stripBy (· == sep) cs ≠ [])
    (hds : stripBy (· == sep) ds ≠ []) :
    ∃ rest, stripBy (· == sep) (cs ++ sep :: ds) = stripBy (· == sep) cs ++ sep :: rest := by
  have hkept : cs.dropWhile (· == sep) ≠ [] := by
    intro hnil
    rw [stripBy, hnil] at hcs
    exact hcs rfl
  have hend : dropEndWhile (· == sep) ds ≠ [] := by
    -- A list of separators alone is empty once its start is stripped.
    intro hnil
    have hall : ∀ c ∈ ds, (c == sep) = true := by
      obtain ⟨stripped, hstripped, hall⟩ := dropEndWhile_append_stripped (· == sep) ds
      rw [hnil, List.nil_append] at hstripped
      rwa [hstripped]
    rw [stripBy, List.dropWhile_eq_nil_iff.2 hall] at hds
    exact hds rfl
  have hstart : (cs ++ sep :: ds).dropWhile (· == sep) =
      cs.dropWhile (· == sep) ++ sep :: ds := by
    rw [List.dropWhile_append, if_neg (by simpa using hkept)]
  obtain ⟨stripped, hstripped, hall⟩ :=
    dropEndWhile_append_stripped (· == sep) (cs.dropWhile (· == sep))
  have hboth : stripBy (· == sep) (cs ++ sep :: ds) =
      stripBy (· == sep) cs ++ (stripped ++ sep :: dropEndWhile (· == sep) ds) := by
    have hcons := dropEndWhile_append hend (cs.dropWhile (· == sep) ++ [sep])
    rw [List.append_assoc, List.append_assoc, List.singleton_append, List.singleton_append] at hcons
    rw [stripBy, hstart, hcons, stripBy, ← List.append_assoc, ← hstripped]
  rw [hboth]
  cases stripped with
  | nil => exact ⟨_, rfl⟩
  | cons c stripped =>
    obtain rfl : c = sep := by simpa using hall c List.mem_cons_self
    exact ⟨_, rfl⟩

/-- Texts that are not empty and without the separator are joined to a text that is not trimmed. -/
theorem trimChar_join (between : String) {parts : List String} (hne : parts ≠ [])
    (hparts : ∀ p ∈ parts, p ≠ "" ∧ sep ∉ p.toList) :
    trimChar sep (join between parts) = join between parts := by
  rw [trimChar, stripBy_eq_self, String.ofList_toList]
  · intro c hc
    cases parts with
    | nil => exact absurd rfl hne
    | cons p rest =>
      obtain ⟨hp, hsep⟩ := hparts p (by simp)
      obtain ⟨after, hafter⟩ := join_eq_append between p rest
      have hnil : p.toList ≠ [] := by simpa using hp
      rw [hafter, String.toList_append, List.head?_append,
        List.head?_eq_some_head hnil, Option.some_or] at hc
      obtain rfl := Option.some.inj hc
      rw [beq_eq_false_iff_ne]
      intro heq
      exact hsep (heq ▸ List.head_mem hnil)
  · intro c hc
    obtain ⟨hp, hsep⟩ := hparts _ (List.getLast_mem hne)
    -- The end is as the beginning, with the last part in place of the first.
    obtain ⟨before, hbefore⟩ := join_eq_append_getLast between hne
    have hnil : (parts.getLast hne).toList ≠ [] := by simpa using hp
    rw [hbefore, String.toList_append, List.getLast?_append,
      List.getLast?_eq_some_getLast hnil, Option.some_or] at hc
    obtain rfl := Option.some.inj hc
    rw [beq_eq_false_iff_ne]
    intro heq
    exact hsep (heq ▸ List.getLast_mem hnil)

/-! ## Different elements -/

/-- What is among different elements was there before. -/
theorem mem_of_mem_distinct {α : Type} [BEq α] {xs : List α} {x : α} (h : x ∈ distinct xs) :
    x ∈ xs := by
  have hfold : ∀ (xs seen : List α), x ∈ xs.foldl
      (fun seen x => if seen.contains x then seen else x :: seen) seen → x ∈ seen ∨ x ∈ xs := by
    intro xs
    induction xs with
    | nil => exact fun seen hx => .inl hx
    | cons y ys ih =>
      intro seen hx
      rcases ih _ hx with hseen | hys
      · dsimp only at hseen
        split at hseen
        · exact .inl hseen
        · rcases List.mem_cons.1 hseen with rfl | hseen
          · exact .inr List.mem_cons_self
          · exact .inl hseen
      · exact .inr (List.mem_cons_of_mem _ hys)
  exact (hfold xs [] (List.mem_reverse.1 h)).resolve_left List.not_mem_nil

/-- A further element is one of the different elements unless it was there before. -/
theorem distinct_concat {α : Type} [BEq α] (xs : List α) (x : α) :
    distinct (xs ++ [x]) =
      if (distinct xs).contains x then distinct xs else distinct xs ++ [x] := by
  simp only [distinct, List.foldl_append, List.foldl_cons, List.foldl_nil, List.contains_reverse]
  split_ifs <;> simp

/-- Every element is among the different elements. -/
theorem mem_distinct {α : Type} [BEq α] [LawfulBEq α] {xs : List α} {x : α} :
    x ∈ distinct xs ↔ x ∈ xs := by
  refine ⟨mem_of_mem_distinct, fun hx => ?_⟩
  induction xs using List.reverseRecOn with
  | nil => cases hx
  | append_singleton xs y ih =>
    rw [distinct_concat]
    rcases List.mem_append.1 hx with hx | hx
    · split_ifs
      · exact ih hx
      · exact List.mem_append_left _ (ih hx)
    · obtain rfl := List.mem_singleton.1 hx
      split_ifs with hthere
      · exact List.contains_iff_mem.1 hthere
      · exact List.mem_append_right _ (List.mem_singleton_self x)

/-- The elements that are left are different. -/
theorem nodup_distinct {α : Type} [BEq α] [LawfulBEq α] (xs : List α) : (distinct xs).Nodup := by
  induction xs using List.reverseRecOn with
  | nil => exact List.nodup_nil
  | append_singleton xs x ih =>
    rw [distinct_concat]
    split_ifs with hx
    · exact ih
    · exact List.nodup_append'.2 ⟨ih, List.nodup_singleton x, by simpa using hx⟩

/-- The first of the different elements that satisfies a condition is the first of all. -/
theorem find?_distinct {α : Type} [BEq α] [LawfulBEq α] (p : α → Bool) (xs : List α) :
    (distinct xs).find? p = xs.find? p := by
  induction xs using List.reverseRecOn with
  | nil => rfl
  | append_singleton xs x ih =>
    rw [distinct_concat, List.find?_append]
    split_ifs with hthere
    · rw [ih]
      cases hfind : xs.find? p with
      | some y => rfl
      | none =>
        -- A repeated element satisfies the condition only if one before it does.
        have hx : x ∈ xs := mem_distinct.1 (List.contains_iff_mem.1 hthere)
        rw [Option.none_or, List.find?_cons_of_neg (List.find?_eq_none.1 hfind x hx),
          List.find?_nil]
    · rw [List.find?_append, ih]

/-- Elements that are left out make no difference for which there are if each of them repeats one
before it that is kept. -/
theorem distinct_map_filter {α β : Type} [BEq β] [LawfulBEq β] {f : α → β} {keep : α → Bool}
    {xs : List α} (h : ∀ before x after, xs = before ++ x :: after → keep x = false →
      ∃ y ∈ before, keep y = true ∧ f y = f x) :
    distinct ((xs.filter keep).map f) = distinct (xs.map f) := by
  induction xs using List.reverseRecOn with
  | nil => rfl
  | append_singleton xs x ih =>
    have hxs := ih fun before y after heq =>
      h before y (after ++ [x]) (by rw [heq, List.append_assoc, List.cons_append])
    rw [List.filter_append, List.map_append, List.map_append, List.map_singleton, distinct_concat,
      ← hxs]
    cases hx : keep x with
    | true => simp [hx, distinct_concat]
    | false =>
      obtain ⟨y, hy, hkept, heq⟩ := h xs x [] rfl hx
      have hthere : f x ∈ distinct ((xs.filter keep).map f) :=
        mem_distinct.2 (List.mem_map.2 ⟨y, List.mem_filter.2 ⟨hy, hkept⟩, heq⟩)
      simp [hx, hthere]

/-- The different elements of a list are in its order. -/
theorem distinct_sublist {α : Type} [BEq α] (xs : List α) : (distinct xs).Sublist xs := by
  induction xs using List.reverseRecOn with
  | nil => exact List.Sublist.slnil
  | append_singleton xs x ih =>
    rw [distinct_concat]
    split_ifs
    · exact ih.trans (List.sublist_append_left xs [x])
    · exact ih.append (List.Sublist.refl [x])

section Distinct

variable {α : Type} [BEq α] [LawfulBEq α]

/-- Elements that are different already are kept. -/
theorem distinct_eq_self {xs : List α} (h : xs.Nodup) : distinct xs = xs := by
  induction xs using List.reverseRecOn with
  | nil => rfl
  | append_singleton xs x ih =>
    obtain ⟨hxs, -, hx⟩ := List.nodup_append'.1 h
    have hnot : (distinct xs).contains x = false := by
      rw [ih hxs]
      simpa using hx
    rw [distinct_concat, hnot, ih hxs]
    rfl

/-- Repetitions in the first part make no difference. -/
theorem distinct_distinct_append (xs ys : List α) :
    distinct (distinct xs ++ ys) = distinct (xs ++ ys) := by
  induction ys using List.reverseRecOn with
  | nil => rw [List.append_nil, List.append_nil, distinct_eq_self (nodup_distinct xs)]
  | append_singleton ys y ih =>
    rw [← List.append_assoc, ← List.append_assoc, distinct_concat, distinct_concat, ih]

/-- Repetitions in the second part make no difference. -/
theorem distinct_append_distinct (xs ys : List α) :
    distinct (xs ++ distinct ys) = distinct (xs ++ ys) := by
  induction ys using List.reverseRecOn with
  | nil => rfl
  | append_singleton ys y ih =>
    rw [← List.append_assoc, distinct_concat (xs ++ ys), distinct_concat ys]
    split_ifs with hys hall hall
    · exact ih
    · -- What repeats an element of the second part repeats one of the whole.
      have hy : y ∈ ys := mem_distinct.1 (List.contains_iff_mem.1 hys)
      have hmem : y ∈ distinct (xs ++ ys) := mem_distinct.2 (List.mem_append_right xs hy)
      exact absurd (List.contains_iff_mem.2 hmem) hall
    · rw [← List.append_assoc, distinct_concat, ih, if_pos hall]
    · rw [← List.append_assoc, distinct_concat, ih, if_neg hall]

/-- The different elements of a whole are those of the different elements of its parts. -/
theorem distinct_append (xs ys : List α) :
    distinct (distinct xs ++ distinct ys) = distinct (xs ++ ys) := by
  rw [distinct_distinct_append, distinct_append_distinct]

/-- The different elements stand in the order in which they first occur. -/
theorem pairwise_distinct (xs : List α) :
    (distinct xs).Pairwise fun x y => xs.idxOf x < xs.idxOf y := by
  induction xs using List.reverseRecOn with
  | nil => exact List.Pairwise.nil
  | append_singleton xs z ih =>
    -- A further element does not move the first occurrence of those that are there.
    have hkept : (distinct xs).Pairwise fun x y =>
        (xs ++ [z]).idxOf x < (xs ++ [z]).idxOf y := by
      refine ih.imp_of_mem fun {x y} hx hy hlt => ?_
      rwa [List.idxOf_append_of_mem (mem_distinct.1 hx),
        List.idxOf_append_of_mem (mem_distinct.1 hy)]
    rw [distinct_concat]
    split_ifs with hz
    · exact hkept
    · have hnew : z ∉ xs := fun hmem => hz (List.contains_iff_mem.2 (mem_distinct.2 hmem))
      refine List.pairwise_append.2 ⟨hkept, List.pairwise_singleton _ _, fun x hx y hy => ?_⟩
      obtain rfl := List.mem_singleton.1 hy
      have hx : x ∈ xs := mem_distinct.1 hx
      rw [List.idxOf_append_of_mem hx, List.idxOf_append_of_notMem hnew]
      exact Nat.lt_add_right _ (List.idxOf_lt_length_of_mem hx)

/-- The different ones of the elements that are kept are those of all elements that are kept. -/
theorem distinct_filter (keep : α → Bool) (xs : List α) :
    distinct (xs.filter keep) = (distinct xs).filter keep := by
  induction xs using List.reverseRecOn with
  | nil => rfl
  | append_singleton xs x ih =>
    rw [List.filter_append, distinct_concat]
    cases hx : keep x with
    | false =>
      rw [List.filter_singleton, hx, cond_false, List.append_nil, ih]
      split_ifs
      · rfl
      · rw [List.filter_append, List.filter_singleton, hx, cond_false, List.append_nil]
    | true =>
      -- An element that is kept is new among those that are kept if it is new among all.
      have hthere : (distinct (xs.filter keep)).contains x = (distinct xs).contains x := by
        rw [Bool.eq_iff_iff, List.contains_iff_mem, List.contains_iff_mem, mem_distinct,
          mem_distinct, List.mem_filter, and_iff_left hx]
      rw [List.filter_singleton, hx, cond_true, distinct_concat, hthere, ih]
      split_ifs
      · rfl
      · rw [List.filter_append, List.filter_singleton, hx, cond_true]

end Distinct

end CodeSurvey.Text
