import CodeSurvey.Proofs.Text.Pieces
import CodeSurvey.Text.Blank

/-!
# Joined lines are split again

Lines that are joined with line feeds are the lines of the text again, if none of them is empty or
has a character in it that ends a line (`lineLists_intercalate`). The lines before a line feed do
not depend on what follows it (`lineLists_append_feed`). A text that ends with a line feed is made
of lines (`exists_unlines`).
-/

namespace CodeSurvey.Text

/-- Characters that do not end a line go to the current one. -/
theorem lineLists_go_append {cs : List Char} (hcs : ∀ c ∈ cs, isLineEnd c = false)
    (line : List Char) (done : List (List Char)) (rest : List Char) :
    lineLists.go line done (cs ++ rest) = lineLists.go (cs.reverse ++ line) done rest := by
  induction cs generalizing line with
  | nil => rfl
  | cons c cs ih =>
    obtain ⟨hc, hcs⟩ := List.forall_mem_cons.1 hcs
    -- A carriage return is looked at together with the next character, so it is set apart.
    have hreturn : c ≠ '\r' := by
      rintro rfl
      cases hc
    have hstep : lineLists.go line done (c :: (cs ++ rest)) =
        lineLists.go (c :: line) done (cs ++ rest) := by
      rw [lineLists.go]
      · simp [hc]
      · simp [hreturn]
    rw [List.cons_append, hstep, ih hcs, List.reverse_cons, List.append_assoc,
      List.singleton_append]

/-- A line feed ends a line. -/
theorem lineLists_go_feed (line : List Char) (done : List (List Char)) (rest : List Char) :
    lineLists.go line done ('\n' :: rest) = lineLists.go [] (line.reverse :: done) rest := by
  rw [lineLists.go.eq_3 _ _ _ _ (by simp), if_pos (by decide)]

/-- Lines that are joined with line feeds are split again. -/
theorem lineLists_intercalate {lines : List (List Char)}
    (h : ∀ line ∈ lines, line ≠ [] ∧ ∀ c ∈ line, isLineEnd c = false) :
    lineLists (List.intercalate ['\n'] lines) = lines := by
  have hgo : ∀ (lines : List (List Char)) (done : List (List Char)),
      (∀ line ∈ lines, line ≠ [] ∧ ∀ c ∈ line, isLineEnd c = false) →
        lineLists.go [] done (List.intercalate ['\n'] lines) = done.reverse ++ lines := by
    intro lines
    induction lines with
    | nil =>
      intro done _
      rw [List.append_nil]
      rfl
    | cons line lines ih =>
      intro done h
      obtain ⟨⟨hne, hline⟩, hlines⟩ := List.forall_mem_cons.1 h
      cases lines with
      | nil =>
        -- The last line is kept without a boundary after it, since it is not empty.
        have hopen : line.reverse.isEmpty = false := by simpa using hne
        have hgo := lineLists_go_append hline [] done []
        rw [List.append_nil, List.append_nil] at hgo
        rw [List.intercalate_singleton, hgo, lineLists.go, hopen]
        simp
      | cons next lines =>
        rw [List.intercalate_cons_cons, List.append_assoc, List.singleton_append,
          lineLists_go_append hline]
        rw [lineLists_go_feed, ih _ hlines]
        simp
  exact hgo lines [] h

/-- Lines that were read before come first. -/
theorem lineLists_go_done (line : List Char) (done : List (List Char)) (cs : List Char) :
    lineLists.go line done cs = done.reverse ++ lineLists.go line [] cs := by
  -- The lines before are generalized, since the recursion adds to them.
  suffices hall : ∀ done', lineLists.go line done' cs =
      done'.reverse ++ lineLists.go line [] cs from hall done
  induction line, done, cs using lineLists.go.induct with
  | case1 line _ =>
    intro done
    rw [lineLists.go, lineLists.go]
    split_ifs <;> simp
  | case2 line _ rest ih =>
    intro done
    rw [lineLists.go, lineLists.go, ih, ih [line.reverse], List.reverse_cons, List.append_assoc]
    rfl
  | case3 line _ c rest hreturn hend ih =>
    intro done
    rw [lineLists.go.eq_3 _ _ _ _ hreturn, lineLists.go.eq_3 _ _ _ _ hreturn, if_pos hend,
      if_pos hend, ih, ih [line.reverse], List.reverse_cons, List.append_assoc]
    rfl
  | case4 line _ c rest hreturn hend ih =>
    intro done
    rw [lineLists.go.eq_3 _ _ _ _ hreturn, lineLists.go.eq_3 _ _ _ _ hreturn, if_neg hend,
      if_neg hend, ih]

/-- The lines before a line feed are lines by themselves, and so are those after it. -/
theorem lineLists_append_feed (cs rest : List Char) :
    lineLists (cs ++ '\n' :: rest) = lineLists (cs ++ ['\n']) ++ lineLists rest := by
  have hnext (line : List Char) (done : List (List Char)) :
      lineLists.go line done ('\n' :: rest) =
        lineLists.go line done ['\n'] ++ lineLists.go [] [] rest := by
    rw [lineLists_go_feed, lineLists_go_feed, lineLists_go_done [] (line.reverse :: done) rest]
    rfl
  have hgo : ∀ (line : List Char) (done : List (List Char)) (cs : List Char),
      lineLists.go line done (cs ++ '\n' :: rest) =
        lineLists.go line done (cs ++ ['\n']) ++ lineLists.go [] [] rest := by
    intro line done cs
    induction line, done, cs using lineLists.go.induct with
    | case1 line done => exact hnext line done
    | case2 line done tail ih => exact ih
    | case3 line done c tail hreturn hend ih =>
      by_cases hlast : c = '\r' ∧ tail = []
      · -- A carriage return at the end is part of the boundary.
        obtain ⟨rfl, rfl⟩ := hlast
        exact hnext line done
      · have hfeed (after : List Char) : ∀ rest',
            c = '\r' → tail ++ '\n' :: after = '\n' :: rest' → False := by
          intro rest' hc htail
          cases tail with
          | nil => exact hlast ⟨hc, rfl⟩
          | cons d tail => exact hreturn tail hc (by rw [(List.cons.inj htail).1])
        rw [List.cons_append, List.cons_append, lineLists.go.eq_3 _ _ _ _ (hfeed rest),
          lineLists.go.eq_3 _ _ _ _ (hfeed []), if_pos hend, if_pos hend, ih]
    | case4 line done c tail hreturn hend ih =>
      have hc : c ≠ '\r' := by
        rintro rfl
        exact hend (by decide)
      rw [List.cons_append, List.cons_append, lineLists.go.eq_3 _ _ _ _ (fun _ h => absurd h hc),
        lineLists.go.eq_3 _ _ _ _ (fun _ h => absurd h hc), if_neg hend, if_neg hend, ih]
  exact hgo [] [] cs

/-- A line with its line feed is one line. -/
theorem lineLists_line {line : List Char} (h : ∀ c ∈ line, isLineEnd c = false) :
    lineLists (line ++ ['\n']) = [line] := by
  rw [lineLists, lineLists_go_append h, List.append_nil, lineLists_go_feed, lineLists.go]
  simp

/-! ## Lines put together -/

/-- The text of some lines, each with a line feed. -/
def unlines (lines : List (List Char)) : List Char := lines.flatMap (· ++ ['\n'])

/-- The text of lines is the first one, a line feed and the text of the others. -/
theorem unlines_cons (line : List Char) (lines : List (List Char)) (rest : List Char) :
    unlines (line :: lines) ++ rest = line ++ '\n' :: (unlines lines ++ rest) := by
  simp [unlines]

/-- A text that is empty or ends with a line feed consists of lines. -/
theorem exists_unlines {cs : List Char} (h : cs = [] ∨ cs.getLast? = some '\n') :
    ∃ lines, cs = unlines lines ∧ ∀ line ∈ lines, '\n' ∉ line := by
  induction cs with
  | nil => exact ⟨[], rfl, by simp⟩
  | cons c cs ih =>
    have hlast : (c :: cs).getLast? = some '\n' := h.resolve_left (List.cons_ne_nil c cs)
    cases cs with
    | nil =>
      obtain rfl : c = '\n' := by simpa using hlast
      exact ⟨[[]], rfl, by simp⟩
    | cons d cs =>
      obtain ⟨lines, hlines, hfeeds⟩ := ih (.inr (by rwa [List.getLast?_cons_cons] at hlast))
      -- The character is a line by itself or goes to the front of the first one.
      by_cases hc : c = '\n'
      · exact ⟨[] :: lines, by rw [hc, hlines]; rfl, by simpa using hfeeds⟩
      · cases lines with
        | nil => cases hlines
        | cons line lines =>
          refine ⟨(c :: line) :: lines, by rw [hlines]; rfl, ?_⟩
          simpa [Ne.symm hc] using hfeeds

end CodeSurvey.Text
