import CodeSurvey.Proofs.Text.Blanks

/-!
# Single spaces

What becomes of a text when each run of its white space is replaced by one space. Nothing else
changes (`filter_collapseBlanks`), words at its front and its end are there exactly if they were
before (`collapseBlanks_word_append`, `exists_of_collapseBlanks_eq_word_append` and the two for the
end), and it can be stripped before or after (`stripBlanks_collapseBlanks`).
-/

namespace CodeSurvey.Text

variable {p : Char → Bool} {cs rest : List Char}

/-- Other characters stay. -/
theorem collapseBlanks_cons {c : Char} (hc : isBlank c = false) (cs : List Char) :
    collapseBlanks (c :: cs) = c :: collapseBlanks cs := by
  simp [collapseBlanks, hc]

/-- White space before a text becomes a space, if there is none in front of the text. -/
theorem collapseBlanks_cons_blank {c : Char} (hc : isBlank c = true) (cs : List Char) :
    collapseBlanks (c :: cs) =
      if (collapseBlanks cs).head? = some ' ' then collapseBlanks cs
      else ' ' :: collapseBlanks cs := by
  rw [collapseBlanks, List.foldr_cons, if_pos hc]
  split
  · rename_i tail heq
    have hhead : (collapseBlanks cs).head? = some ' ' := congrArg List.head? heq
    exact (if_pos hhead).symm
  · rename_i hne
    have hhead : (collapseBlanks cs).head? ≠ some ' ' := by
      intro hhead
      obtain ⟨tail, htail⟩ := List.head?_eq_some_iff.1 hhead
      exact hne tail htail
    exact (if_neg hhead).symm

/-- Only white space is taken out of a text or put into it. -/
theorem filter_collapseBlanks (hp : ∀ c, isBlank c = true → p c = false) (cs : List Char) :
    (collapseBlanks cs).filter p = cs.filter p := by
  induction cs with
  | nil => rfl
  | cons c cs ih =>
    cases hc : isBlank c with
    | false => rw [collapseBlanks_cons hc, List.filter_cons, List.filter_cons, ih]
    | true =>
      have hspace : p ' ' = false := hp ' ' (by decide)
      rw [collapseBlanks_cons_blank hc, List.filter_cons_of_neg (by simp [hp c hc]), ← ih]
      split_ifs
      · rfl
      · exact List.filter_cons_of_neg (by simp [hspace])

/-- All white space that is left is single spaces. -/
theorem eq_space_of_mem_collapseBlanks {c : Char} (hmem : c ∈ collapseBlanks cs)
    (hc : isBlank c = true) : c = ' ' := by
  induction cs with
  | nil => cases hmem
  | cons d cs ih =>
    cases hd : isBlank d with
    | false =>
      rw [collapseBlanks_cons hd, List.mem_cons] at hmem
      rcases hmem with rfl | hmem
      · rw [hc] at hd
        cases hd
      · exact ih hmem
    | true =>
      rw [collapseBlanks_cons_blank hd] at hmem
      split_ifs at hmem
      · exact ih hmem
      · exact (List.mem_cons.1 hmem).elim id ih

/-- What stands before a character that is no white space changes on its own. -/
theorem collapseBlanks_append_cons {c : Char} (hc : isBlank c = false) (cs ds : List Char) :
    collapseBlanks (cs ++ c :: ds) = collapseBlanks cs ++ c :: collapseBlanks ds := by
  have hspace : c ≠ ' ' := by
    rintro rfl
    cases hc
  induction cs with
  | nil => exact collapseBlanks_cons hc ds
  | cons d cs ih =>
    rw [List.cons_append]
    cases hd : isBlank d with
    | false => rw [collapseBlanks_cons hd, collapseBlanks_cons hd, ih, List.cons_append]
    | true =>
      -- A space is in front of the whole exactly if it is in front of the first part.
      have hhead : (collapseBlanks (cs ++ c :: ds)).head? = some ' ' ↔
          (collapseBlanks cs).head? = some ' ' := by
        rw [ih]
        cases collapseBlanks cs <;> simp [hspace]
      rw [collapseBlanks_cons_blank hd, collapseBlanks_cons_blank hd]
      simp only [hhead]
      split_ifs
      · exact ih
      · rw [ih, List.cons_append]

/-- A word at the front of a text stays. -/
theorem collapseBlanks_word_append {word : List Char} (hword : ∀ c ∈ word, isBlank c = false)
    (cs : List Char) : collapseBlanks (word ++ cs) = word ++ collapseBlanks cs := by
  induction word with
  | nil => rfl
  | cons c word ih =>
    obtain ⟨hc, hword⟩ := List.forall_mem_cons.1 hword
    rw [List.cons_append, collapseBlanks_cons hc, ih hword, List.cons_append]

/-- A word at the end of a text stays. -/
theorem collapseBlanks_append_word {word : List Char} (hword : ∀ c ∈ word, isBlank c = false)
    (cs : List Char) : collapseBlanks (cs ++ word) = collapseBlanks cs ++ word := by
  cases word with
  | nil => rw [List.append_nil, List.append_nil]
  | cons c word =>
    obtain ⟨hc, hrest⟩ := List.forall_mem_cons.1 hword
    have hsame : collapseBlanks word = word := by
      simpa [collapseBlanks] using collapseBlanks_word_append hrest []
    rw [collapseBlanks_append_cons hc, hsame]

/-- A word at the front was there before. -/
theorem exists_of_collapseBlanks_eq_word_append {word : List Char}
    (hword : ∀ c ∈ word, isBlank c = false) (h : collapseBlanks cs = word ++ rest) :
    ∃ ds, cs = word ++ ds ∧ collapseBlanks ds = rest := by
  induction word generalizing cs with
  | nil => exact ⟨cs, rfl, h⟩
  | cons w word ih =>
    obtain ⟨hw, hword⟩ := List.forall_mem_cons.1 hword
    cases cs with
    | nil => cases h
    | cons c cs =>
      cases hc : isBlank c with
      | false =>
        rw [collapseBlanks_cons hc, List.cons_append, List.cons.injEq] at h
        obtain ⟨ds, rfl, hds⟩ := ih hword h.2
        exact ⟨ds, by rw [h.1, List.cons_append], hds⟩
      | true =>
        -- In front of the text is a space then, and none in front of the word.
        have hhead : (collapseBlanks (c :: cs)).head? = some ' ' := by
          rw [collapseBlanks_cons_blank hc]
          split_ifs with hspace
          · exact hspace
          · rfl
        rw [h] at hhead
        obtain rfl : w = ' ' := by simpa using hhead
        cases hw

/-- White space becomes white space. -/
theorem isBlank_of_mem_collapseBlanks (hcs : ∀ c ∈ cs, isBlank c = true) :
    ∀ c ∈ collapseBlanks cs, isBlank c = true := by
  have hnone : (collapseBlanks cs).filter (fun c => !isBlank c) = [] := by
    rw [filter_collapseBlanks (by simp), List.filter_eq_nil_iff]
    simpa using hcs
  simpa using hnone

/-- A text is changed to nothing only if it is nothing. -/
theorem collapseBlanks_eq_nil_iff : collapseBlanks cs = [] ↔ cs = [] := by
  cases cs with
  | nil => simp [collapseBlanks]
  | cons c cs =>
    cases hc : isBlank c with
    | false => simp [collapseBlanks_cons hc]
    | true =>
      rw [collapseBlanks_cons_blank hc]
      split_ifs with hhead
      · obtain ⟨tail, htail⟩ := List.head?_eq_some_iff.1 hhead
        simp [htail]
      · simp

/-- What white space at the end becomes. -/
theorem getLast?_collapseBlanks_blank {c : Char} (hc : isBlank c = true) (cs : List Char) :
    (collapseBlanks (cs ++ [c])).getLast? = some ' ' := by
  induction cs with
  | nil => rw [List.nil_append, collapseBlanks_cons_blank hc]; rfl
  | cons d cs ih =>
    rw [List.cons_append]
    cases hd : isBlank d with
    | false => rw [collapseBlanks_cons hd, List.getLast?_cons, ih]; rfl
    | true =>
      rw [collapseBlanks_cons_blank hd]
      split_ifs
      · exact ih
      · rw [List.getLast?_cons, ih]; rfl

/-- A word at the end was there before. -/
theorem exists_of_collapseBlanks_eq_append_word {word : List Char}
    (hword : ∀ c ∈ word, isBlank c = false) (h : collapseBlanks cs = rest ++ word) :
    ∃ ds, cs = ds ++ word ∧ collapseBlanks ds = rest := by
  induction word using List.reverseRecOn generalizing cs rest with
  | nil => exact ⟨cs, (List.append_nil cs).symm, by rw [h, List.append_nil]⟩
  | append_singleton word w ih =>
    obtain ⟨hword, hw⟩ := List.forall_mem_append.1 hword
    have hw : isBlank w = false := hw w (List.mem_singleton_self w)
    rw [← List.append_assoc] at h
    rcases List.eq_nil_or_concat' cs with rfl | ⟨cs, c, rfl⟩
    · simp [collapseBlanks] at h
    · cases hc : isBlank c with
      | false =>
        rw [collapseBlanks_append_cons hc] at h
        obtain ⟨hfront, hlast⟩ := List.append_inj' h rfl
        obtain ⟨ds, rfl, hds⟩ := ih hword hfront
        obtain rfl : c = w := (List.cons.inj hlast).1
        exact ⟨ds, List.append_assoc ds word [c], hds⟩
      | true =>
        -- At the end of the text is a space then, and none at the end of the word.
        have hlast := getLast?_collapseBlanks_blank hc cs
        rw [h, List.getLast?_concat] at hlast
        obtain rfl : w = ' ' := Option.some.inj hlast
        cases hw

/-- A text that ends with no white space still does, and what stands after it changes on its
own. -/
theorem collapseBlanks_append_of_getLast (hcs : ∀ c, cs.getLast? = some c → isBlank c = false) :
    (collapseBlanks cs).getLast? = cs.getLast? ∧
      ∀ ds, collapseBlanks (cs ++ ds) = collapseBlanks cs ++ collapseBlanks ds := by
  rcases List.eq_nil_or_concat' cs with rfl | ⟨cs, c, rfl⟩
  · exact ⟨rfl, fun ds => rfl⟩
  · have hc := hcs c List.getLast?_concat
    have hlast : collapseBlanks (cs ++ [c]) = collapseBlanks cs ++ [c] :=
      collapseBlanks_append_cons hc cs []
    rw [hlast]
    refine ⟨by rw [List.getLast?_concat, List.getLast?_concat], fun ds => ?_⟩
    rw [List.append_assoc, List.singleton_append, collapseBlanks_append_cons hc, List.append_assoc,
      List.singleton_append]

/-- It makes no difference whether a text is stripped before its white space becomes single spaces
or after that. -/
theorem stripBlanks_collapseBlanks (cs : List Char) :
    stripBlanks (collapseBlanks cs) = collapseBlanks (stripBlanks cs) := by
  obtain ⟨before, after, hcs, hbefore, hafter, hhead, hlast⟩ := exists_stripBlanks cs
  cases hcore : stripBlanks cs with
  | nil =>
    -- White space alone is still that when it is made one space, and nothing is left of it.
    have hall : ∀ c ∈ cs, isBlank c = true := by
      rw [hcs, hcore, List.append_nil]
      exact List.forall_mem_append.2 ⟨hbefore, hafter⟩
    have hblank := isBlank_of_mem_collapseBlanks hall
    have hnone := stripBlanks_pad hblank (by simp : ∀ c, [].head? = some c → isBlank c = false)
      (by simp) (List.forall_mem_nil _)
    simpa [collapseBlanks] using hnone
  | cons c core =>
    rw [hcore] at hcs hhead hlast
    have hc := hhead c rfl
    obtain ⟨hlast', hend⟩ := collapseBlanks_append_of_getLast hlast
    -- The three parts change on their own, and what is white space stays white space.
    have hparts : collapseBlanks cs =
        collapseBlanks before ++ collapseBlanks (c :: core) ++ collapseBlanks after :=
      calc collapseBlanks cs = collapseBlanks (before ++ c :: (core ++ after)) := by
            rw [hcs, List.append_assoc, List.cons_append]
        _ = collapseBlanks before ++ collapseBlanks (c :: core ++ after) := by
            rw [collapseBlanks_append_cons hc, List.cons_append, collapseBlanks_cons hc]
        _ = collapseBlanks before ++ collapseBlanks (c :: core) ++ collapseBlanks after := by
            rw [hend, List.append_assoc]
    rw [hparts]
    apply stripBlanks_pad (isBlank_of_mem_collapseBlanks hbefore)
    · rw [collapseBlanks_cons hc]
      exact hhead
    · rwa [hlast']
    · exact isBlank_of_mem_collapseBlanks hafter

end CodeSurvey.Text
