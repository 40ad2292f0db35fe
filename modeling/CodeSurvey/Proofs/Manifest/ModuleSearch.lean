import CodeSurvey.Manifest.Lines
import CodeSurvey.Proofs.Text.Blanks
import CodeSurvey.Proofs.Text.Lines

/-!
# Searching a module file

A module file is searched at the starts of its lines. A line where nothing is found is passed over
(`search_line`, `search_unlines`), and after a find the search goes on behind it (`search_found`).
What is found is a block with its lines (`block?_block`), the first operand of a directive
(`operand?_operands`) or the name behind a word (`named?_name`).
-/

namespace CodeSurvey.Manifest

open CodeSurvey.Text

variable {find? : List Char → Option (List Char × List Char)} {atStart : Bool}
  {word cs line rest : List Char} {lines : List (List Char)}

/-! ## The search -/

/-- What is left after a find is shorter than what was searched. -/
def Shortens (find? : List Char → Option (List Char × List Char)) : Prop :=
  ∀ cs found rest, find? cs = some (found, rest) → rest.length < cs.length

/-- All that is found in a text, which begins at the start of a line or within one. -/
def search (find? : List Char → Option (List Char × List Char)) (atStart : Bool)
    (cs : List Char) : List (List Char) :=
  findAll find? (cs.length + 1) atStart cs

/-- What follows the next line feed is shorter than the text. -/
theorem length_afterFeed (hne : cs ≠ []) : (afterFeed cs).length < cs.length := by
  have hpos : 0 < cs.length := List.length_pos_of_ne_nil hne
  have hdrop : (cs.dropWhile (· != '\n')).length ≤ cs.length := List.length_dropWhile_le _ _
  unfold afterFeed
  rw [List.length_drop]
  omega

/-- A find is kept, and the search goes on behind it. -/
theorem findAll_of_some (fuel : Nat) {found : List Char}
    (hfound : (if atStart then find? cs else none) = some (found, rest)) :
    findAll find? (fuel + 1) atStart cs = found :: findAll find? fuel false rest := by
  cases cs <;> simp [findAll, hfound]

/-- Without a find the search goes on at the next line, if there is one. -/
theorem findAll_of_none (fuel : Nat) (hne : cs ≠ [])
    (hnone : (if atStart then find? cs else none) = none) :
    findAll find? (fuel + 1) atStart cs =
      if (cs.dropWhile (· != '\n')).isEmpty then []
      else findAll find? fuel true (afterFeed cs) := by
  cases cs with
  | nil => exact absurd rfl hne
  | cons c cs => simp only [findAll, hnone]

/-- The fuel makes no difference if there is enough of it. -/
theorem findAll_congr (h : Shortens find?) {fuel fuel' : Nat} (hfuel : cs.length < fuel)
    (hfuel' : cs.length < fuel') :
    findAll find? fuel atStart cs = findAll find? fuel' atStart cs := by
  -- By the fuel: every step goes on with a text that is shorter, within what was found or behind a
  -- line.
  induction fuel generalizing fuel' atStart cs with
  | zero => omega
  | succ fuel ih =>
    obtain ⟨fuel', rfl⟩ : ∃ n, fuel' = n + 1 := ⟨fuel' - 1, by omega⟩
    cases hfound : (if atStart then find? cs else none) with
    | some p =>
      obtain ⟨found, rest⟩ := p
      have hstart : find? cs = some (found, rest) := by
        cases atStart with
        | true => exact hfound
        | false => cases hfound
      have hlt : rest.length < cs.length := h cs found rest hstart
      have hrest : findAll find? fuel false rest = findAll find? fuel' false rest :=
        ih (by omega) (by omega)
      rw [findAll_of_some fuel hfound, findAll_of_some fuel' hfound, hrest]
    | none =>
      rcases eq_or_ne cs [] with rfl | hne
      · unfold findAll
        rw [hfound]
      · have hlt : (afterFeed cs).length < cs.length := length_afterFeed hne
        have hrest : findAll find? fuel true (afterFeed cs) =
            findAll find? fuel' true (afterFeed cs) := ih (by omega) (by omega)
        rw [findAll_of_none fuel hne hfound, findAll_of_none fuel' hne hfound, hrest]

/-- After a find the search goes on behind it, within the line. -/
theorem search_found (h : Shortens find?) {found : List Char}
    (hfound : find? cs = some (found, rest)) :
    search find? true cs = found :: search find? false rest := by
  have hlt := h cs found rest hfound
  unfold search
  rw [findAll_of_some _ (by rw [if_pos rfl, hfound]), findAll_congr h hlt (Nat.lt_succ_self _)]

/-- A line where nothing is found is passed over. -/
theorem search_line (h : Shortens find?) (hline : '\n' ∉ line)
    (hnone : atStart = true → find? (line ++ '\n' :: rest) = none) :
    search find? atStart (line ++ '\n' :: rest) = search find? true rest := by
  have hfound : (if atStart then find? (line ++ '\n' :: rest) else none) = none := by
    split_ifs with hstart
    · exact hnone hstart
    · rfl
  have hfeed : (line ++ '\n' :: rest).dropWhile (· != '\n') = '\n' :: rest := by
    refine dropWhile_append (fun c hc => ?_) ?_
    · rw [bne_iff_ne]
      rintro rfl
      exact hline hc
    · rintro c ⟨⟩
      rfl
  -- The search goes on behind the first line break, which is the end of the line.
  have hafter : afterFeed (line ++ '\n' :: rest) = rest := by
    rw [afterFeed, hfeed]
    rfl
  unfold search
  rw [findAll_of_none _ (by simp) hfound, hfeed, hafter]
  refine findAll_congr h ?_ (Nat.lt_succ_self _)
  rw [List.length_append, List.length_cons]
  omega

/-- In an empty text nothing is found if the search finds nothing in it. -/
theorem search_nil (hnone : find? [] = none) : search find? atStart [] = [] := by
  unfold search findAll
  rw [hnone, ite_self]

/-- Lines where nothing is found are passed over. -/
theorem search_unlines (h : Shortens find?)
    (hlines : ∀ line ∈ lines, '\n' ∉ line ∧ ∀ rest, find? (line ++ '\n' :: rest) = none) :
    search find? true (unlines lines ++ rest) = search find? true rest := by
  induction lines with
  | nil => rfl
  | cons line lines ih =>
    obtain ⟨⟨hline, hnone⟩, hlines⟩ := List.forall_mem_cons.1 hlines
    rw [unlines_cons, search_line h hline fun _ => hnone _, ih hlines]

/-! ## Runs of characters -/

/-- The characters that satisfy a condition are those up to the first that does not. -/
theorem takeWhile_append {p : Char → Bool} (hcs : ∀ c ∈ cs, p c = true)
    (hrest : ∀ c, rest.head? = some c → p c = false) : (cs ++ rest).takeWhile p = cs := by
  have hspan := span_append hcs hrest
  rw [List.span_eq_takeWhile_dropWhile] at hspan
  exact congrArg Prod.fst hspan

/-- Blanks before something else are dropped. -/
theorem dropWhile_space {c : Char} (hc : isBlank c = false) :
    (' ' :: c :: rest).dropWhile isBlank = c :: rest := by
  have hspace : ∀ d ∈ [' '], isBlank d = true := List.forall_mem_singleton.2 rfl
  refine dropWhile_append hspace ?_
  rintro d ⟨⟩
  exact hc

/-! ## Blocks -/

/-- Characters of a line are passed over in a block. -/
theorem blockBody?_append (hcs : '\n' ∉ cs) (passed : List Char) :
    blockBody? passed (cs ++ rest) = blockBody? (cs.reverse ++ passed) rest := by
  induction cs generalizing passed with
  | nil => rfl
  | cons c cs ih =>
    have hc : c ≠ '\n' := (List.ne_of_not_mem_cons hcs).symm
    rw [List.cons_append, blockBody?.eq_3 _ _ _ fun _ heq => absurd heq hc,
      ih (List.not_mem_of_not_mem_cons hcs)]
    simp

/-- The body of a block goes up to the bracket at the start of a line. -/
theorem blockBody?_tabbed (hlines : ∀ line ∈ lines, '\n' ∉ line) (passed : List Char) :
    blockBody? passed ('\n' :: (unlines (lines.map ('\t' :: ·)) ++ ')' :: rest)) =
      some (passed.reverse ++ '\n' :: unlines (lines.map ('\t' :: ·)), rest) := by
  induction lines generalizing passed with
  | nil => simp [unlines, blockBody?]
  | cons line lines ih =>
    obtain ⟨hline, hlines⟩ := List.forall_mem_cons.1 hlines
    have htab : '\n' ∉ '\t' :: line := by simpa using hline
    -- The line feed is followed by a tabulator, so the block goes on.
    have hopen : ∀ after, '\t' :: line ++ '\n' :: (unlines (lines.map ('\t' :: ·)) ++ ')' :: rest)
        = ')' :: after → False := by
      intro after heq
      cases heq
    rw [List.map_cons, unlines_cons, blockBody?.eq_3 _ _ _ fun after _ => hopen after,
      blockBody?_append htab, ih hlines]
    simp [unlines]

/-- Without its word there is no block. -/
theorem block?_of_none (hnone : dropStart? word cs = none) : block? word cs = none := by
  rw [block?, hnone]

/-- A block is found with its lines. -/
theorem block?_block (word rest : List Char) (hlines : ∀ line ∈ lines, '\n' ∉ line) :
    block? word (word ++ ' ' :: '(' :: '\n' :: (unlines (lines.map ('\t' :: ·)) ++ ')' :: rest)) =
      some ('\n' :: unlines (lines.map ('\t' :: ·)), rest) := by
  rw [block?, dropStart?_eq_some_iff.2 rfl]
  dsimp only
  rw [dropWhile_space (by decide)]
  exact blockBody?_tabbed hlines []

/-- A directive with an operand is no block. -/
theorem block?_operand {c : Char} (hblank : isBlank c = false) (hbracket : c ≠ '(') :
    block? word (word ++ ' ' :: c :: rest) = none := by
  rw [block?, dropStart?_eq_some_iff.2 rfl]
  dsimp only
  rw [dropWhile_space hblank]
  split
  · rename_i heq
    exact absurd (List.cons.inj heq).1 hbracket
  · rfl

/-- After the body of a block no more is left than there was. -/
theorem shortens_blockBody? (passed : List Char) {found : List Char}
    (h : blockBody? passed cs = some (found, rest)) : rest.length ≤ cs.length := by
  fun_induction blockBody? passed cs with
  | case1 => cases h
  | case2 passed after =>
    obtain ⟨-, rfl⟩ := Prod.mk.inj (Option.some.inj h)
    rw [List.length_cons, List.length_cons]
    omega
  | case3 passed c after _ ih => exact (ih h).trans (Nat.le_succ _)

/-- A block is not empty, so less is left after it. -/
theorem shortens_block? (word : List Char) : Shortens (block? word) := by
  intro cs found rest h
  unfold block? at h
  split at h
  · cases h
  · rename_i after hafter
    obtain rfl := dropStart?_eq_some_iff.1 hafter
    split at h
    · rename_i body hbody
      have hle := shortens_blockBody? [] h
      have hdrop := List.length_dropWhile_le isBlank after
      rw [hbody, List.length_cons] at hdrop
      rw [List.length_append]
      omega
    · cases h

/-! ## Operands and names -/

/-- A character of an operand. -/
def IsPart (c : Char) : Prop := isBlank c = false ∧ c ≠ '('

/-- Without its word there is no directive. -/
theorem operand?_of_none (hnone : dropStart? word cs = none) : operand? word cs = none := by
  rw [operand?, hnone]

/-- A bracket is no operand. -/
theorem operand?_bracket : operand? word (word ++ ' ' :: '(' :: rest) = none := by
  have hblank : isBlank ' ' = true := by decide
  rw [operand?, dropStart?_eq_some_iff.2 rfl]
  dsimp only
  rw [hblank, dropWhile_space (by decide)]
  simp

/-- The first operand of a directive with two of them is found. -/
theorem operand?_operands (word : List Char) {path version : List Char} (hne : path ≠ [])
    (hpath : ∀ c ∈ path, IsPart c) (hne' : version ≠ [])
    (hversion : ∀ c ∈ version, isBlank c = false)
    (hrest : ∀ c, rest.head? = some c → isBlank c = true) :
    operand? word (word ++ ' ' :: (path ++ ' ' :: (version ++ rest))) = some (path, rest) := by
  obtain ⟨c, path, rfl⟩ := List.exists_cons_of_ne_nil hne
  obtain ⟨d, version, rfl⟩ := List.exists_cons_of_ne_nil hne'
  have hblank : isBlank ' ' = true := by decide
  have hc : isBlank c = false := (hpath c List.mem_cons_self).1
  have hd : isBlank d = false := hversion d List.mem_cons_self
  -- The first operand ends at the blank before the second one, and that at the start of the rest.
  have hpart : ∀ e ∈ c :: path, (!isBlank e && e != '(') = true := by
    intro e he
    obtain ⟨heb, hee⟩ := hpath e he
    simpa [heb] using hee
  have hend : ∀ e, (' ' :: (d :: version ++ rest)).head? = some e →
      (!isBlank e && e != '(') = false := by
    rintro e ⟨⟩
    decide
  have hversion' : ∀ e ∈ d :: version, (!isBlank e) = true := by
    intro e he
    rw [hversion e he]
    rfl
  have hrest' : ∀ e, rest.head? = some e → (!isBlank e) = false := by
    intro e he
    rw [hrest e he]
    rfl
  rw [operand?, dropStart?_eq_some_iff.2 rfl]
  dsimp only
  rw [hblank, List.cons_append, dropWhile_space hc, ← List.cons_append,
    takeWhile_append hpart hend, dropWhile_append hpart hend, List.cons_append,
    dropWhile_space hd, ← List.cons_append, dropWhile_append hversion' hrest']
  simp

/-- Nor is a directive empty. -/
theorem shortens_operand? (word : List Char) : Shortens (operand? word) := by
  intro cs found rest h
  unfold operand? at h
  split at h
  · cases h
  · rename_i after hafter
    obtain rfl := dropStart?_eq_some_iff.1 hafter
    split at h
    · rename_i c tail
      dsimp only at h
      split_ifs at h with hblank hparts
      obtain ⟨-, rfl⟩ := Prod.mk.inj (Option.some.inj h)
      have hc : isBlank c = true := by simpa using hblank
      rw [List.dropWhile_cons_of_pos hc]
      -- At least the blank behind the word is taken, and nothing is put back.
      have hfirst := List.length_dropWhile_le isBlank tail
      have hname := List.length_dropWhile_le (fun c => !isBlank c && c != '(')
        (tail.dropWhile isBlank)
      have hgap := List.length_dropWhile_le isBlank
        ((tail.dropWhile isBlank).dropWhile fun c => !isBlank c && c != '(')
      have hlast := List.length_dropWhile_le (fun c => !isBlank c)
        (((tail.dropWhile isBlank).dropWhile fun c => !isBlank c && c != '(').dropWhile isBlank)
      rw [List.length_append, List.length_cons]
      omega
    · cases h

/-- Without its word there is no name. -/
theorem named?_of_none (hnone : dropStart? word cs = none) : named? word cs = none := by
  rw [named?, hnone]

/-- The name behind a word is found. -/
theorem named?_name (word : List Char) {name : List Char} (hne : name ≠ [])
    (hname : ∀ c ∈ name, isBlank c = false)
    (hrest : ∀ c, rest.head? = some c → isBlank c = true) :
    named? word (word ++ ' ' :: (name ++ rest)) = some (name, rest) := by
  obtain ⟨c, name, rfl⟩ := List.exists_cons_of_ne_nil hne
  have hc : isBlank c = false := hname c List.mem_cons_self
  have hname' : ∀ e ∈ c :: name, (!isBlank e) = true := by
    intro e he
    rw [hname e he]
    rfl
  have hrest' : ∀ e, rest.head? = some e → (!isBlank e) = false := by
    intro e he
    rw [hrest e he]
    rfl
  rw [named?, dropStart?_eq_some_iff.2 rfl]
  dsimp only
  rw [List.cons_append, dropWhile_space hc, ← List.cons_append, takeWhile_append hname' hrest',
    dropWhile_append hname' hrest']
  simp

/-- Nor is a name empty. -/
theorem shortens_named? (word : List Char) : Shortens (named? word) := by
  intro cs found rest h
  unfold named? at h
  split at h
  · cases h
  · rename_i after hafter
    obtain rfl := dropStart?_eq_some_iff.1 hafter
    dsimp only at h
    split_ifs at h with hgap
    obtain ⟨-, rfl⟩ := Prod.mk.inj (Option.some.inj h)
    have hlt : after.length ≠ (after.dropWhile isBlank).length := by
      rintro heq
      simp [heq] at hgap
    have hfirst := List.length_dropWhile_le isBlank after
    have hlast := List.length_dropWhile_le (fun c => !isBlank c) (after.dropWhile isBlank)
    rw [List.length_append]
    omega

end CodeSurvey.Manifest
