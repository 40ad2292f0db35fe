import CodeSurvey.Proofs.Text.Parts
import CodeSurvey.Text.Blank
import CodeSurvey.Text.Case
import Mathlib.Data.List.TakeDrop

/-!
# White space and words

No character of a word is white space (`isBlank_of_isWord`). So a text that is put together from
words and white space is cut at the same places again: a run is read up to its end (`span_append`),
equal texts have equal runs (`append_inj_of_front`, `append_inj_of_end`), what stands around a text
is stripped (`stripBlanks_pad`), and the first word is found (`head?_wordLists`).
-/

namespace CodeSurvey.Text

variable {p : Char → Bool} {cs ds rest start : List Char}

/-! ## Characters -/

/-- The code points of white space. -/
def blankPoints : List Nat :=
  [9, 10, 11, 12, 13, 28, 29, 30, 31, 32, 0x85, 0xA0, 0x1680, 0x2000, 0x2001, 0x2002, 0x2003,
   0x2004, 0x2005, 0x2006, 0x2007, 0x2008, 0x2009, 0x200A, 0x2028, 0x2029, 0x202F, 0x205F, 0x3000]

/-- White space has one of these code points. -/
theorem mem_blankPoints {c : Char} (h : isBlank c = true) : c.toNat ∈ blankPoints := by
  simp only [isBlank, Bool.or_eq_true, Bool.and_eq_true, decide_eq_true_eq, beq_iff_eq] at h
  simp only [blankPoints, List.mem_cons, List.not_mem_nil, or_false]
  omega

/-- The characters of words are no white space. -/
theorem isBlank_of_isWord {c : Char} (h : isWord c = true) : isBlank c = false := by
  have hpoints : ∀ n ∈ blankPoints, isWord (Char.ofNat n) = false := by decide +kernel
  by_contra hblank
  have hword := hpoints _ (mem_blankPoints (by simpa using hblank))
  rw [Char.ofNat_toNat, h] at hword
  cases hword

/-- White space is in no word. -/
theorem isWord_of_isBlank {c : Char} (h : isBlank c = true) : isWord c = false := by
  by_contra hword
  rw [isBlank_of_isWord (by simpa using hword)] at h
  cases h

/-- What ends a line is white space. -/
theorem isBlank_of_isLineEnd {c : Char} (h : isLineEnd c = true) : isBlank c = true := by
  simp only [isLineEnd, isBlank, Bool.or_eq_true, Bool.and_eq_true, decide_eq_true_eq,
    beq_iff_eq] at h ⊢
  omega

/-- The characters of a given text can be tested one after the other. -/
theorem eq_false_of_all (h : cs.all (!p ·) = true) : ∀ c ∈ cs, p c = false := by
  simpa using h

/-! ## Runs -/

/-- A run at the front is dropped up to where it ends. -/
theorem dropWhile_append (hcs : ∀ c ∈ cs, p c = true)
    (hrest : ∀ c, rest.head? = some c → p c = false) : (cs ++ rest).dropWhile p = rest := by
  rw [List.dropWhile_append_of_pos hcs]
  cases rest with
  | nil => rfl
  | cons c rest => rw [List.dropWhile_cons, hrest c rfl]; rfl

/-- A run at the front is read up to where it ends. -/
theorem span_append (hcs : ∀ c ∈ cs, p c = true)
    (hrest : ∀ c, rest.head? = some c → p c = false) : (cs ++ rest).span p = (cs, rest) := by
  rw [List.span_eq_takeWhile_dropWhile, dropWhile_append hcs hrest,
    List.takeWhile_append_of_pos hcs]
  cases rest with
  | nil => rw [List.takeWhile_nil, List.append_nil]
  | cons c rest => rw [List.takeWhile_cons, hrest c rfl]; simp

/-- What is read of a text is a run at its front. -/
theorem append_of_span {xs ys : List Char} (h : cs.span p = (xs, ys)) :
    cs = xs ++ ys ∧ ∀ c ∈ xs, p c = true := by
  rw [List.span_eq_takeWhile_dropWhile, Prod.mk.injEq] at h
  obtain ⟨rfl, rfl⟩ := h
  exact ⟨List.takeWhile_append_dropWhile.symm, fun c => List.mem_takeWhile_imp⟩

/-- Two texts that begin with runs are equal only if the runs are. -/
theorem append_inj_of_front {cs' rest' : List Char} (h : cs ++ rest = cs' ++ rest')
    (hcs : ∀ c ∈ cs, p c = true) (hrest : ∀ c, rest.head? = some c → p c = false)
    (hcs' : ∀ c ∈ cs', p c = true) (hrest' : ∀ c, rest'.head? = some c → p c = false) :
    cs = cs' ∧ rest = rest' := by
  have heq : rest = rest' := by
    rw [← dropWhile_append hcs hrest, h, dropWhile_append hcs' hrest']
  subst heq
  exact ⟨List.append_cancel_right h, rfl⟩

/-- A text without a character is, at the front of another one, before the first of it. -/
theorem exists_of_append_eq {c : Char} {front after : List Char} (hcs : c ∉ cs)
    (h : cs ++ rest = front ++ c :: after) :
    ∃ between, front = cs ++ between ∧ rest = between ++ c :: after := by
  rcases List.append_eq_append_iff.1 h with ⟨between, hfront, hrest⟩ | ⟨more, hmore, hcons⟩
  · exact ⟨between, hfront, hrest⟩
  · cases more with
    | nil => exact ⟨[], by simpa using hmore.symm, by simpa using hcons.symm⟩
    | cons d more =>
      rw [(List.cons.inj hcons).1, hmore] at hcs
      exact absurd (by simp) hcs

/-- A run at the end is dropped up to where it begins. -/
theorem dropEndWhile_append_run (hcs : ∀ c, cs.getLast? = some c → p c = false)
    (hds : ∀ c ∈ ds, p c = true) : dropEndWhile p (cs ++ ds) = cs := by
  rw [dropEndWhile, List.reverse_append, dropWhile_append, List.reverse_reverse]
  · simpa using hds
  · intro c hc
    exact hcs c (by rwa [List.head?_reverse] at hc)

/-- Two texts that end with runs are equal only if the runs are. -/
theorem append_inj_of_end {cs' ds' : List Char} (h : cs ++ ds = cs' ++ ds')
    (hcs : ∀ c, cs.getLast? = some c → p c = false) (hds : ∀ c ∈ ds, p c = true)
    (hcs' : ∀ c, cs'.getLast? = some c → p c = false) (hds' : ∀ c ∈ ds', p c = true) :
    cs = cs' ∧ ds = ds' := by
  have heq : cs = cs' := by
    rw [← dropEndWhile_append_run hcs hds, h, dropEndWhile_append_run hcs' hds']
  subst heq
  exact ⟨rfl, List.append_cancel_left h⟩

/-- What stands around a text is stripped. -/
theorem stripBlanks_pad {before after : List Char} (hbefore : ∀ c ∈ before, isBlank c = true)
    (hhead : ∀ c, cs.head? = some c → isBlank c = false)
    (hlast : ∀ c, cs.getLast? = some c → isBlank c = false)
    (hafter : ∀ c ∈ after, isBlank c = true) : stripBlanks (before ++ cs ++ after) = cs := by
  cases cs with
  | nil =>
    have hall : ∀ c ∈ before ++ [] ++ after, isBlank c = true := by
      rw [List.append_nil]
      exact List.forall_mem_append.2 ⟨hbefore, hafter⟩
    rw [stripBlanks, stripBy, List.dropWhile_eq_nil_iff.2 hall]
    rfl
  | cons c cs =>
    have hfront : ∀ d, (c :: cs ++ after).head? = some d → isBlank d = false :=
      fun d hd => hhead d hd
    rw [stripBlanks, stripBy, List.append_assoc, dropWhile_append hbefore hfront,
      dropEndWhile_append_run hlast hafter]

/-- A text is what is left of it and the run that is dropped at its end. -/
theorem exists_dropEndWhile (p : Char → Bool) (cs : List Char) : ∃ after,
    cs = dropEndWhile p cs ++ after ∧ (∀ c ∈ after, p c = true) ∧
      ∀ c, (dropEndWhile p cs).getLast? = some c → p c = false := by
  refine ⟨(cs.reverse.takeWhile p).reverse, ?_, ?_, ?_⟩
  · rw [dropEndWhile, ← List.reverse_append, List.takeWhile_append_dropWhile, List.reverse_reverse]
  · intro c hc
    exact List.mem_takeWhile_imp (List.mem_reverse.1 hc)
  · intro c hc
    rw [dropEndWhile, List.getLast?_reverse] at hc
    have hnot := List.head?_dropWhile_not p cs.reverse
    rw [hc] at hnot
    simpa using hnot

/-- A text is what is stripped at its ends and what is left between. -/
theorem exists_stripBlanks (cs : List Char) : ∃ before after,
    cs = before ++ stripBlanks cs ++ after ∧
      (∀ c ∈ before, isBlank c = true) ∧ (∀ c ∈ after, isBlank c = true) ∧
      (∀ c, (stripBlanks cs).head? = some c → isBlank c = false) ∧
      ∀ c, (stripBlanks cs).getLast? = some c → isBlank c = false := by
  obtain ⟨after, hcs, hafter, hlast⟩ := exists_dropEndWhile isBlank (cs.dropWhile isBlank)
  refine ⟨cs.takeWhile isBlank, after, ?_, fun c => List.mem_takeWhile_imp, hafter, ?_, hlast⟩
  · calc cs = cs.takeWhile isBlank ++ cs.dropWhile isBlank := List.takeWhile_append_dropWhile.symm
      _ = cs.takeWhile isBlank ++ (stripBlanks cs ++ after) := congrArg (_ ++ ·) hcs
      _ = cs.takeWhile isBlank ++ stripBlanks cs ++ after := (List.append_assoc _ _ _).symm
  · intro c hc
    have hnot := List.head?_dropWhile_not isBlank cs
    rw [hcs] at hnot
    obtain ⟨tail, htail⟩ := List.head?_eq_some_iff.1 hc
    rw [stripBlanks, stripBy] at htail
    rw [htail] at hnot
    simpa using hnot

/-- Nothing is left of a text that is stripped if it has white space only. -/
theorem stripBlanks_eq_nil_iff {cs : List Char} :
    stripBlanks cs = [] ↔ ∀ c ∈ cs, isBlank c = true := by
  constructor
  · intro h
    obtain ⟨before, after, hcs, hbefore, hafter, -⟩ := exists_stripBlanks cs
    rw [hcs, h, List.append_nil]
    exact List.forall_mem_append.2 ⟨hbefore, hafter⟩
  · intro h
    have hpad : stripBlanks (cs ++ [] ++ []) = [] :=
      stripBlanks_pad h (by simp) (by simp) (List.forall_mem_nil _)
    rwa [List.append_nil, List.append_nil] at hpad

/-- White space around a text makes no difference for what is left of it. -/
theorem stripBlanks_append_blanks {before after : List Char}
    (hbefore : ∀ c ∈ before, isBlank c = true) (hafter : ∀ c ∈ after, isBlank c = true)
    (cs : List Char) : stripBlanks (before ++ cs ++ after) = stripBlanks cs := by
  obtain ⟨before', after', hcs, hbefore', hafter', hhead, hlast⟩ := exists_stripBlanks cs
  have hparts : before ++ cs ++ after =
      before ++ before' ++ stripBlanks cs ++ (after' ++ after) := by
    conv_lhs => rw [hcs]
    simp only [List.append_assoc]
  rw [hparts]
  exact stripBlanks_pad (List.forall_mem_append.2 ⟨hbefore, hbefore'⟩) hhead hlast
    (List.forall_mem_append.2 ⟨hafter', hafter⟩)

/-- What is stripped at the front only has white space at its end. -/
theorem exists_dropWhile_isBlank (cs : List Char) : ∃ after,
    cs.dropWhile isBlank = stripBlanks cs ++ after ∧ ∀ c ∈ after, isBlank c = true := by
  obtain ⟨after, hcs, hafter, -⟩ := exists_dropEndWhile isBlank (cs.dropWhile isBlank)
  exact ⟨after, hcs, hafter⟩

/-- What is stripped at the end only has white space in front. -/
theorem exists_dropEndWhile_isBlank (cs : List Char) : ∃ before,
    dropEndWhile isBlank cs = before ++ stripBlanks cs ∧ ∀ c ∈ before, isBlank c = true := by
  obtain ⟨before, after, hcs, hbefore, hafter, -, hlast⟩ := exists_stripBlanks cs
  cases hcore : stripBlanks cs with
  | nil =>
    rw [hcore, List.append_nil] at hcs
    refine ⟨[], ?_, List.forall_mem_nil _⟩
    rw [hcs, ← List.nil_append (before ++ after)]
    exact dropEndWhile_append_run (by simp) (List.forall_mem_append.2 ⟨hbefore, hafter⟩)
  | cons c core =>
    refine ⟨before, ?_, hbefore⟩
    conv_lhs => rw [hcs, hcore]
    rw [hcore] at hlast
    refine dropEndWhile_append_run (fun d hd => hlast d ?_) hafter
    rwa [List.getLast?_append_of_ne_nil _ (List.cons_ne_nil c core)] at hd

/-- Stripping takes nothing but white space. -/
theorem filter_stripBlanks (hp : ∀ c, isBlank c = true → p c = false) (cs : List Char) :
    (stripBlanks cs).filter p = cs.filter p := by
  obtain ⟨before, after, hcs, hbefore, hafter, -⟩ := exists_stripBlanks cs
  have hnone : ∀ ds : List Char, (∀ c ∈ ds, isBlank c = true) → ds.filter p = [] := by
    intro ds hds
    rw [List.filter_eq_nil_iff]
    intro c hc
    simp [hp c (hds c hc)]
  calc (stripBlanks cs).filter p
      = before.filter p ++ (stripBlanks cs).filter p ++ after.filter p := by
        rw [hnone before hbefore, hnone after hafter, List.nil_append, List.append_nil]
    _ = (before ++ stripBlanks cs ++ after).filter p := by
        rw [List.filter_append, List.filter_append]
    _ = cs.filter p := by rw [← hcs]

/-- There is nothing to strip where it is done already. -/
theorem stripBlanks_stripBlanks (cs : List Char) :
    stripBlanks (stripBlanks cs) = stripBlanks cs := by
  obtain ⟨-, -, -, -, -, hhead, hlast⟩ := exists_stripBlanks cs
  simpa using stripBlanks_pad (List.forall_mem_nil _) hhead hlast (List.forall_mem_nil _)

/-- What is stripped before a character that is no white space, and what after it. -/
theorem stripBlanks_around {c : Char} (hc : isBlank c = false) (cs ds : List Char) :
    stripBlanks (cs ++ c :: ds) = cs.dropWhile isBlank ++ c :: dropEndWhile isBlank ds := by
  have hfront : (cs ++ c :: ds).dropWhile isBlank = cs.dropWhile isBlank ++ c :: ds := by
    rw [List.dropWhile_append, List.dropWhile_cons_of_neg (by simp [hc])]
    split_ifs with hempty
    · rw [List.isEmpty_iff.1 hempty, List.nil_append]
    · rfl
  rw [stripBlanks, stripBy, hfront, dropEndWhile_append_cons hc]

/-- White space before a text is stripped, and what is stripped at its end comes after its first
character. -/
theorem stripBlanks_append_cons {before : List Char} {c : Char}
    (hbefore : ∀ c ∈ before, isBlank c = true) (hc : isBlank c = false) (cs : List Char) :
    stripBlanks (before ++ c :: cs) = c :: dropEndWhile isBlank cs := by
  rw [stripBlanks_around hc, List.dropWhile_eq_nil_iff.2 hbefore, List.nil_append]

/-- The first word of a text that begins with one. -/
theorem head?_wordLists {word : List Char} (hne : word ≠ [])
    (hword : ∀ c ∈ word, isBlank c = false)
    (hrest : ∀ c, rest.head? = some c → isBlank c = true) :
    (wordLists (word ++ rest)).head? = some word := by
  -- From its end, a text is read to its first word, if it begins with one, and the others.
  let read (cs : List Char) : List Char × List (List Char) := cs.foldr
    (fun c acc =>
      if isBlank c then ([], if acc.1.isEmpty then acc.2 else acc.1 :: acc.2)
      else (c :: acc.1, acc.2))
    ([], [])
  have hwords (cs : List Char) :
      wordLists cs = if (read cs).1.isEmpty then (read cs).2 else (read cs).1 :: (read cs).2 := rfl
  have hstart : (read rest).1 = [] := by
    cases rest with
    | nil => rfl
    | cons c rest => simp [read, hrest c rfl]
  have hread : ∀ w : List Char, (∀ c ∈ w, isBlank c = false) →
      read (w ++ rest) = (w, (read rest).2) := by
    intro w hw
    induction w with
    | nil => rw [List.nil_append, ← hstart]
    | cons c w ih =>
      obtain ⟨hc, hw⟩ := List.forall_mem_cons.1 hw
      have hstep : read (c :: w ++ rest) = (c :: (read (w ++ rest)).1, (read (w ++ rest)).2) := by
        simp [read, hc]
      rw [hstep, ih hw]
  rw [hwords, hread word hword]
  simp [hne]

end CodeSurvey.Text
