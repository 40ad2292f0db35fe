import CodeSurvey.DataModel.Schema
import CodeSurvey.Proofs.Text.Blanks
import CodeSurvey.Proofs.Text.Lines
import CodeSurvey.Proofs.Text.Nesting

/-!
# Blocks of a schema

A block is found in two steps that know nothing of each other. Its heading is looked for in every
line, also in those of another block (`blocksFrom_line`), and is a word, a name and an opening
brace, as `Heading` has it (`header?_eq_some_iff`). Its body ends at the brace that closes the one
of the heading: a text in which braces are nested is part of it (`body?_append_nested`), and in
general the braces that are still to be closed tell where it ends (`body?_append`,
`body?_append_closed`).
-/

namespace CodeSurvey.DataModel.Schema

open CodeSurvey.Text

/-! ## Headings -/

/-- The word that a block begins with. -/
def BlockKind.word : BlockKind → List Char
  | .model => "model".toList
  | .enum => "enum".toList

/-- The word of a block is not empty. -/
theorem BlockKind.word_ne_nil (kind : BlockKind) : kind.word ≠ [] := by cases kind <;> decide

/-- It has no characters but those of words. -/
theorem BlockKind.isWord_word (kind : BlockKind) : ∀ c ∈ kind.word, isWord c = true :=
  List.all_eq_true.1 (by cases kind <;> decide)

/-- The heading of a block: a word and a name with white space after each, and an opening brace. -/
structure Heading where
  word : List Char
  /-- White space between the word and the name. -/
  gap : List Char
  name : List Char
  /-- White space between the name and the brace. -/
  space : List Char
  word_ne_nil : word ≠ []
  isWord_word : ∀ c ∈ word, isWord c = true
  gap_ne_nil : gap ≠ []
  isBlank_gap : ∀ c ∈ gap, isBlank c = true
  name_ne_nil : name ≠ []
  isWord_name : ∀ c ∈ name, isWord c = true
  isBlank_space : ∀ c ∈ space, isBlank c = true

namespace Heading

variable (h : Heading)

/-- The heading without its brace. -/
def front : List Char := h.word ++ h.gap ++ h.name ++ h.space

/-- The heading as it is written. -/
def chars : List Char := h.front ++ ['\x7b']

variable {h}

/-- A heading has no characters but those of words, white space and its brace. -/
theorem mem_front {c : Char} (hc : c ∈ h.front) : isWord c = true ∨ isBlank c = true := by
  simp only [front, List.mem_append] at hc
  rcases hc with ((hc | hc) | hc) | hc
  · exact .inl (h.isWord_word c hc)
  · exact .inr (h.isBlank_gap c hc)
  · exact .inl (h.isWord_name c hc)
  · exact .inr (h.isBlank_space c hc)

/-- A character that is neither of a word nor white space is not in the heading without its brace.
-/
theorem notMem_front {c : Char} (hword : isWord c = false) (hblank : isBlank c = false) :
    c ∉ h.front := by
  intro hc
  rcases mem_front hc with hc | hc
  · cases hword.symm.trans hc
  · cases hblank.symm.trans hc

/-- The brace is not in it. -/
theorem brace_notMem_front : '\x7b' ∉ h.front := notMem_front (by decide) (by decide)

/-- Two headings that end at the same brace have the same name, and what stands before the one is
where the word of the other begins. -/
theorem word_eq_of_chars_eq {h' : Heading} {before rest rest' : List Char}
    (hbefore : '\x7b' ∉ before) (heq : h.chars ++ rest = before ++ (h'.chars ++ rest')) :
    h.word = before ++ h'.word ∧ h.name = h'.name ∧ rest = rest' := by
  have hnotBrace : ∀ {cs : List Char}, '\x7b' ∉ cs → ∀ c ∈ cs, (c != '\x7b') = true := by
    intro cs hcs c hc
    rw [bne_iff_ne]
    exact fun h => hcs (h ▸ hc)
  obtain ⟨hfront, hrest⟩ : h.front = before ++ h'.front ∧ '\x7b' :: rest = '\x7b' :: rest' := by
    apply append_inj_of_front (p := (· != '\x7b'))
    · simpa only [chars, List.append_assoc, List.singleton_append] using heq
    · exact hnotBrace brace_notMem_front
    · simp
    · refine hnotBrace fun hmem => ?_
      exact (List.mem_append.1 hmem).elim hbefore brace_notMem_front
    · simp
  -- From the brace backwards: white space, the name, white space again, and the word.
  have hword : ∀ {w : List Char}, w ≠ [] → (∀ c ∈ w, isWord c = true) → ∀ cs c,
      (cs ++ w).getLast? = some c → isBlank c = false := by
    intro w hne hw cs c hc
    rw [List.getLast?_append_of_ne_nil _ hne] at hc
    exact isBlank_of_isWord (hw c (List.mem_of_getLast? hc))
  have hgap : ∀ (g : Heading) (cs : List Char) (c : Char),
      (cs ++ g.gap).getLast? = some c → isWord c = false := by
    intro g cs c hc
    rw [List.getLast?_append_of_ne_nil _ g.gap_ne_nil] at hc
    exact isWord_of_isBlank (g.isBlank_gap c (List.mem_of_getLast? hc))
  simp only [front, ← List.append_assoc] at hfront
  obtain ⟨hnamed, -⟩ := append_inj_of_end hfront (hword h.name_ne_nil h.isWord_name _)
    h.isBlank_space (hword h'.name_ne_nil h'.isWord_name _) h'.isBlank_space
  obtain ⟨hspaced, hnames⟩ := append_inj_of_end hnamed (hgap h _) h.isWord_name (hgap h' _)
    h'.isWord_name
  obtain ⟨hwords, -⟩ := append_inj_of_end hspaced (hword h.word_ne_nil h.isWord_word [])
    h.isBlank_gap (hword h'.word_ne_nil h'.isWord_word before) h'.isBlank_gap
  exact ⟨hwords, hnames, (List.cons.inj hrest).2⟩

end Heading

variable {cs rest : List Char} {kind : BlockKind} {name : List Char}

/-- The name that follows a word at the front of a text, and what follows the brace after it. -/
def named? (cs : List Char) : Option (List Char × List Char) :=
  let named := (cs.dropWhile isBlank).span isWord
  if cs.head?.any isBlank && !named.1.isEmpty then
    match named.2.dropWhile isBlank with
    | '\x7b' :: rest => some (named.1, rest)
    | _ => none
  else none

/-- The sort of block whose word a text begins with, and what follows the word. -/
def kind? (cs : List Char) : Option (BlockKind × List Char) :=
  match dropStart? "model".toList cs with
  | some rest => some (.model, rest)
  | none => (dropStart? "enum".toList cs).map fun rest => (.enum, rest)

/-- The sort of block is told by the word at the front, and the rest is what follows the word. -/
theorem kind?_eq_some_iff : kind? cs = some (kind, rest) ↔ cs = kind.word ++ rest := by
  unfold kind?
  constructor
  · intro h
    split at h
    · rename_i after hafter
      obtain ⟨rfl, rfl⟩ := Prod.mk.inj (Option.some.inj h)
      exact dropStart?_eq_some_iff.1 hafter
    · obtain ⟨after, hafter, heq⟩ := Option.map_eq_some_iff.1 h
      obtain ⟨rfl, rfl⟩ := Prod.mk.inj heq
      exact dropStart?_eq_some_iff.1 hafter
  · rintro rfl
    cases kind <;> rfl

/-- What is read behind the word of a block. -/
theorem header?_word_append (kind : BlockKind) (rest : List Char) :
    header? (kind.word ++ rest) = (named? rest).map fun n => (kind, n) := by
  have hmodel : dropStart? "model".toList (BlockKind.model.word ++ rest) = some rest :=
    dropStart?_eq_some_iff.2 rfl
  have hother : dropStart? "model".toList (BlockKind.enum.word ++ rest) = none := rfl
  have henum : dropStart? "enum".toList (BlockKind.enum.word ++ rest) = some rest :=
    dropStart?_eq_some_iff.2 rfl
  unfold header? named?
  cases kind
  case' model => rw [hmodel]
  case' enum => rw [hother, henum]
  all_goals
    -- Both sides now make the same tests on the text behind the word, in the same order.
    dsimp only [Option.map_some, Option.bind_eq_bind, Option.bind_some]
    generalize (rest.dropWhile isBlank).span isWord = named
    obtain ⟨name, after⟩ := named
    cases rest.head?.any isBlank with
    | false => rfl
    | true =>
      cases name with
      | nil => rfl
      | cons c name =>
        dsimp only
        generalize after.dropWhile isBlank = following
        cases following with
        | nil => rfl
        | cons d rest =>
          by_cases hd : d = '\x7b'
          · subst hd
            rfl
          · simp [hd, guard]

/-- A heading is read in two steps. -/
theorem header?_eq (cs : List Char) :
    header? cs = (kind? cs).bind fun k => (named? k.2).map fun n => (k.1, n) := by
  cases hkind : kind? cs with
  | some k =>
    obtain rfl := kind?_eq_some_iff.1 hkind
    exact header?_word_append k.1 k.2
  | none =>
    unfold kind? at hkind
    unfold header?
    cases hmodel : dropStart? "model".toList cs with
    | some rest =>
      rw [hmodel] at hkind
      cases hkind
    | none =>
      rw [hmodel, Option.map_eq_none_iff] at hkind
      rw [hkind]
      rfl

/-- What is found is a name between white space, with a brace behind it. -/
theorem exists_of_named? (h : named? cs = some (name, rest)) :
    ∃ gap space, cs = gap ++ (name ++ (space ++ '\x7b' :: rest)) ∧ gap ≠ [] ∧ name ≠ [] ∧
      (∀ c ∈ gap, isBlank c = true) ∧ (∀ c ∈ name, isWord c = true) ∧
      ∀ c ∈ space, isBlank c = true := by
  unfold named? at h
  dsimp only at h
  split_ifs at h with hfront
  obtain ⟨hhead, hne⟩ := Bool.and_eq_true_iff.1 hfront
  split at h
  · rename_i after hafter
    obtain ⟨rfl, rfl⟩ := Prod.mk.inj (Option.some.inj h)
    rw [List.span_eq_takeWhile_dropWhile] at hafter hne ⊢
    refine ⟨cs.takeWhile isBlank, (cs.dropWhile isBlank |>.dropWhile isWord).takeWhile isBlank,
      ?_, ?_, by simpa using hne, ?_, ?_, ?_⟩
    · rw [← hafter, List.takeWhile_append_dropWhile, List.takeWhile_append_dropWhile,
        List.takeWhile_append_dropWhile]
    · cases cs with
      | nil => cases hhead
      | cons c cs =>
        have hc : isBlank c = true := by simpa using hhead
        rw [List.takeWhile_cons, if_pos hc]
        exact List.cons_ne_nil _ _
    all_goals exact fun c hc => List.mem_takeWhile_imp hc
  · cases h

/-- A name between white space is found whole. -/
theorem named?_append {gap space : List Char} (hgapne : gap ≠ []) (hnamene : name ≠ [])
    (hgap : ∀ c ∈ gap, isBlank c = true) (hname : ∀ c ∈ name, isWord c = true)
    (hspace : ∀ c ∈ space, isBlank c = true) :
    named? (gap ++ (name ++ (space ++ '\x7b' :: rest))) = some (name, rest) := by
  have hhead : (gap ++ (name ++ (space ++ '\x7b' :: rest))).head?.any isBlank = true := by
    obtain ⟨c, gap, rfl⟩ := List.exists_cons_of_ne_nil hgapne
    simpa using hgap c List.mem_cons_self
  -- The name ends the white space before it, and white space or the brace ends the name.
  have hstart : ∀ c, (name ++ (space ++ '\x7b' :: rest)).head? = some c → isBlank c = false := by
    intro c hc
    rw [List.head?_append_of_ne_nil _ hnamene] at hc
    exact isBlank_of_isWord (hname c (List.mem_of_head? hc))
  have hend : ∀ c, (space ++ '\x7b' :: rest).head? = some c → isWord c = false := by
    intro c hc
    cases space with
    | nil =>
      obtain rfl : '\x7b' = c := by simpa using hc
      decide
    | cons d space =>
      obtain rfl : d = c := by simpa using hc
      exact isWord_of_isBlank (hspace d List.mem_cons_self)
  have hbrace : ∀ c, ('\x7b' :: rest).head? = some c → isBlank c = false := by
    intro c hc
    obtain rfl : '\x7b' = c := by simpa using hc
    decide
  unfold named?
  dsimp only
  rw [hhead, dropWhile_append hgap hstart, span_append hname hend, dropWhile_append hspace hbrace]
  simp [hnamene]

/-- A name is read if white space, the name, more white space or none, and an opening brace stand at
the front. -/
theorem named?_eq_some_iff : named? cs = some (name, rest) ↔
    ∃ gap space, cs = gap ++ (name ++ (space ++ '\x7b' :: rest)) ∧ gap ≠ [] ∧ name ≠ [] ∧
      (∀ c ∈ gap, isBlank c = true) ∧ (∀ c ∈ name, isWord c = true) ∧
      ∀ c ∈ space, isBlank c = true := by
  refine ⟨exists_of_named?, ?_⟩
  rintro ⟨gap, space, rfl, hgapne, hnamene, hgap, hname, hspace⟩
  exact named?_append hgapne hnamene hgap hname hspace

/-- A block begins at the front of a text if a heading with its word does. -/
theorem header?_eq_some_iff : header? cs = some (kind, name, rest) ↔
    ∃ h : Heading, h.word = kind.word ∧ h.name = name ∧ cs = h.chars ++ rest := by
  rw [header?_eq]
  constructor
  · intro h
    obtain ⟨⟨kind', after⟩, hkind, h⟩ := Option.bind_eq_some_iff.1 h
    obtain ⟨⟨name', rest'⟩, hnamed, heq⟩ := Option.map_eq_some_iff.1 h
    obtain ⟨rfl, hpair⟩ := Prod.mk.inj heq
    obtain ⟨rfl, rfl⟩ := Prod.mk.inj hpair
    obtain rfl := kind?_eq_some_iff.1 hkind
    obtain ⟨gap, space, rfl, hgapne, hnamene, hgap, hname, hspace⟩ := named?_eq_some_iff.1 hnamed
    exact ⟨⟨kind'.word, gap, name', space, kind'.word_ne_nil, kind'.isWord_word, hgapne, hgap,
      hnamene, hname, hspace⟩,
      rfl, rfl, by simp [Heading.chars, Heading.front]⟩
  · rintro ⟨h, hword, rfl, rfl⟩
    -- The word of the heading decides the kind, and what follows it is read as the name.
    have hkind : kind? (h.chars ++ rest) =
        some (kind, h.gap ++ (h.name ++ (h.space ++ '\x7b' :: rest))) := by
      rw [kind?_eq_some_iff]
      simp [Heading.chars, Heading.front, hword]
    have hnamed : named? (h.gap ++ (h.name ++ (h.space ++ '\x7b' :: rest))) =
        some (h.name, rest) :=
      named?_eq_some_iff.2 ⟨_, _, rfl, h.gap_ne_nil, h.name_ne_nil, h.isBlank_gap, h.isWord_name,
        h.isBlank_space⟩
    rw [hkind, Option.bind_some, hnamed]
    rfl

/-- A heading with the word of a kind is read. -/
theorem Heading.header?_chars {h : Heading} (hword : h.word = kind.word) (rest : List Char) :
    header? (h.chars ++ rest) = some (kind, h.name, rest) :=
  header?_eq_some_iff.2 ⟨h, hword, rfl, rfl⟩

/-- Any other heading is not. -/
theorem Heading.header?_chars_other {h : Heading} (hother : ∀ kind : BlockKind, h.word ≠ kind.word)
    (rest : List Char) : header? (h.chars ++ rest) = none := by
  by_contra hsome
  obtain ⟨⟨kind, name, rest'⟩, hheader⟩ := Option.ne_none_iff_exists'.1 hsome
  obtain ⟨h', hword, -, heq⟩ := header?_eq_some_iff.1 hheader
  have heq' : h.chars ++ rest = [] ++ (h'.chars ++ rest') := heq
  have hsame := (word_eq_of_chars_eq List.not_mem_nil heq').1
  exact hother kind (hsame.trans hword)

/-! ## Lines -/

/-- The block that begins at the front of a text. -/
def blockAt? (cs : List Char) : Option Block :=
  (header? cs).bind fun h => (body? 1 [] h.2.2).map fun body => ⟨h.1, h.2.1, body⟩

variable {line : List Char}

/-- No text begins with a heading if it does not begin like its word. -/
theorem header?_eq_none {c : Char} (hc : isWord c = false) : header? (c :: cs) = none := by
  by_contra hsome
  obtain ⟨⟨kind, name, rest⟩, h⟩ := Option.ne_none_iff_exists'.1 hsome
  obtain ⟨h, -, -, hchars⟩ := header?_eq_some_iff.1 h
  obtain ⟨d, word, hword⟩ := List.exists_cons_of_ne_nil h.word_ne_nil
  have hcd : c = d := by
    rw [Heading.chars, Heading.front, hword] at hchars
    exact (List.cons.inj hchars).1
  have hd := h.isWord_word d (by rw [hword]; exact List.mem_cons_self)
  rw [← hcd, hc] at hd
  cases hd

/-- Blocks are looked for again in the next line. -/
theorem blocksFrom_false (hline : '\n' ∉ line) (rest : List Char) :
    blocksFrom false (line ++ '\n' :: rest) = blocksFrom true rest := by
  induction line with
  | nil => simp [blocksFrom]
  | cons c line ih =>
    obtain ⟨hc, hline⟩ := not_or.1 (mt List.mem_cons.2 hline)
    rw [List.cons_append, blocksFrom, if_neg (Ne.symm hc), ih hline]
    simp

/-- In each line there is one place where a block may begin: where the white space ends. -/
theorem blocksFrom_line (hline : '\n' ∉ line) (rest : List Char) :
    blocksFrom true (line ++ '\n' :: rest) =
      (blockAt? (line.dropWhile isBlank ++ '\n' :: rest)).toList ++ blocksFrom true rest := by
  induction line with
  | nil =>
    have hnone : blockAt? ('\n' :: rest) = none := by
      rw [blockAt?, header?_eq_none (by decide), Option.bind_none]
    rw [List.dropWhile_nil, List.nil_append, hnone, blocksFrom, if_pos rfl]
    rfl
  | cons c line ih =>
    obtain ⟨hc, hline⟩ := not_or.1 (mt List.mem_cons.2 hline)
    rw [List.cons_append, blocksFrom, if_neg (Ne.symm hc)]
    by_cases hblank : isBlank c = true
    · rw [if_pos hblank, ih hline, List.dropWhile_cons_of_pos hblank]
    · rw [if_neg hblank, List.dropWhile_cons_of_neg hblank, blocksFrom_false hline]
      rfl

/-! ## Bodies -/

/-- The braces of blocks. -/
def braces : Brackets := ⟨[('\x7b', '\x7d')], by decide⟩

/-- The braces of blocks are the curly ones. -/
theorem has_braces_iff {c : Char} : braces.Has c ↔ c = '\x7b' ∨ c = '\x7d' := by
  simp [Brackets.Has, braces]

/-- A brace that opens is passed, and one more is to be closed. -/
theorem body?_opening (depth : Nat) (passed rest : List Char) :
    body? depth passed ('\x7b' :: rest) = body? (depth + 1) ('\x7b' :: passed) rest := by
  simp [body?]

/-- A brace that closes is passed if it closes one inside the body. -/
theorem body?_closing (depth : Nat) (passed rest : List Char) :
    body? (depth + 2) passed ('\x7d' :: rest) = body? (depth + 1) ('\x7d' :: passed) rest := by
  simp [body?]

/-- The body ends at the brace that closes the block. -/
theorem body?_end (passed rest : List Char) :
    body? 1 passed ('\x7d' :: rest) = some passed.reverse := by
  simp [body?]

/-- Any other character is passed. -/
theorem body?_other {c : Char} (hc : ¬ braces.Has c) (depth : Nat) (passed rest : List Char) :
    body? depth passed (c :: rest) = body? depth (c :: passed) rest := by
  obtain ⟨hopen, hclose⟩ := not_or.1 (mt has_braces_iff.2 hc)
  simp [body?, hopen, hclose]

/-- The three things that a character can do to the body that is read. -/
theorem brace_cases (c : Char) : c = '\x7b' ∨ c = '\x7d' ∨ ¬ braces.Has c := by
  rw [has_braces_iff]
  tauto

variable {pending pending' : List Char}

/-- What a text leaves open is what the rest of the body has to close. -/
theorem body?_append (hpending : ∀ d ∈ pending, d = '\x7d')
    (h : braces.unclosed? pending cs = some pending') (passed rest : List Char) :
    body? (pending.length + 1) passed (cs ++ rest) =
      body? (pending'.length + 1) (cs.reverse ++ passed) rest := by
  have hpair : ('\x7b', '\x7d') ∈ braces.pairs := List.mem_singleton_self _
  -- By the characters: the depth of the body is always one more than the braces left open in the
  -- text.
  induction cs generalizing pending passed with
  | nil =>
    obtain rfl : pending = pending' := Option.some.inj h
    rfl
  | cons c cs ih =>
    rw [List.cons_append, List.reverse_cons, List.append_assoc, List.singleton_append]
    rcases brace_cases c with rfl | rfl | hc
    · rw [Brackets.unclosed?_opening hpair] at h
      rw [body?_opening]
      exact ih (List.forall_mem_cons.2 ⟨rfl, hpending⟩) h _
    · cases pending with
      | nil =>
        rw [Brackets.unclosed?_closing_other hpair (by simp)] at h
        cases h
      | cons d outer =>
        obtain ⟨rfl, houter⟩ := List.forall_mem_cons.1 hpending
        rw [Brackets.unclosed?_closing hpair] at h
        rw [List.length_cons, body?_closing]
        exact ih houter h _
    · rw [Brackets.unclosed?_other hc] at h
      rw [body?_other hc]
      exact ih hpending h _

/-- A text that closes more than is open ends the body. -/
theorem body?_append_closed (hpending : ∀ d ∈ pending, d = '\x7d')
    (h : braces.unclosed? pending cs = none) :
    ∃ inner after, cs = inner ++ '\x7d' :: after ∧ ∀ passed rest,
      body? (pending.length + 1) passed (cs ++ rest) = some (passed.reverse ++ inner) := by
  have hpair : ('\x7b', '\x7d') ∈ braces.pairs := List.mem_singleton_self _
  -- The body goes on after a character that does not end it.
  have hstep : ∀ {c : Char} {cs : List Char} {depth depth' : Nat},
      (∀ passed rest, body? depth passed (c :: rest) = body? depth' (c :: passed) rest) →
      (∃ inner after, cs = inner ++ '\x7d' :: after ∧ ∀ passed rest,
        body? depth' passed (cs ++ rest) = some (passed.reverse ++ inner)) →
      ∃ inner after, c :: cs = inner ++ '\x7d' :: after ∧ ∀ passed rest,
        body? depth passed (c :: cs ++ rest) = some (passed.reverse ++ inner) := by
    rintro c cs depth depth' hc ⟨inner, after, rfl, hbody⟩
    refine ⟨c :: inner, after, rfl, fun passed rest => ?_⟩
    rw [List.cons_append, hc, hbody]
    simp
  induction cs generalizing pending with
  | nil => cases h
  | cons c cs ih =>
    rcases brace_cases c with rfl | rfl | hc
    · rw [Brackets.unclosed?_opening hpair] at h
      exact hstep (body?_opening _) (ih (List.forall_mem_cons.2 ⟨rfl, hpending⟩) h)
    · cases pending with
      | nil => exact ⟨[], cs, rfl, fun passed rest => by simp [body?_end]⟩
      | cons d outer =>
        obtain ⟨rfl, houter⟩ := List.forall_mem_cons.1 hpending
        rw [Brackets.unclosed?_closing hpair] at h
        exact hstep (body?_closing _) (ih houter h)
    · rw [Brackets.unclosed?_other hc] at h
      exact hstep (body?_other hc _) (ih hpending h)

/-- A text in which braces are nested is part of the body. -/
theorem body?_append_nested (h : braces.IsNested cs) (depth : Nat) (passed rest : List Char) :
    body? (depth + 1) passed (cs ++ rest) = body? (depth + 1) (cs.reverse ++ passed) rest := by
  have hread := h.unclosed?_eq (List.replicate depth '\x7d')
  have hbody := body?_append (fun d hd => List.eq_of_mem_replicate hd) hread passed rest
  rwa [List.length_replicate] at hbody

/-- What was read before is the front of the body. -/
theorem body?_passed (depth : Nat) (passed cs : List Char) :
    body? depth passed cs = (body? depth [] cs).map (passed.reverse ++ ·) := by
  induction cs generalizing depth passed with
  | nil => rfl
  | cons c cs ih =>
    have hgo (depth' : Nat) : body? depth' (c :: passed) cs =
        (body? depth' [c] cs).map (passed.reverse ++ ·) := by
      rw [ih, ih depth' [c], Option.map_map]
      congr 1
      funext inner
      simp
    rcases brace_cases c with rfl | rfl | hc
    · rw [body?_opening, body?_opening, hgo]
    · match depth with
      | 0 => simp [body?]
      | 1 => simp [body?]
      | depth + 2 => rw [body?_closing, body?_closing, hgo]
    · rw [body?_other hc, body?_other hc, hgo]

/-! ## Lines of a body -/

/-- Whether a line without white space around it declares something. -/
def isDeclaration (line : List Char) : Bool :=
  !line.isEmpty && !"//".toList.isPrefixOf line && !"@@".toList.isPrefixOf line

/-- The lines of a body are those that declare something, without the white space around them. -/
theorem bodyLines_eq (body : List Char) :
    bodyLines body = ((lineLists body).map stripBlanks).filter isDeclaration := rfl

/-- The lines before a line feed and those after it are lines of a body by themselves. -/
theorem bodyLines_append_feed (cs rest : List Char) :
    bodyLines (cs ++ '\n' :: rest) = bodyLines (cs ++ ['\n']) ++ bodyLines rest := by
  rw [bodyLines_eq, lineLists_append_feed, List.map_append, List.filter_append]
  rfl

/-- A single line is kept, without the white space around it, if it declares something. -/
theorem bodyLines_line (hline : ∀ c ∈ line, isLineEnd c = false) :
    bodyLines (line ++ ['\n']) = [stripBlanks line].filter isDeclaration := by
  rw [bodyLines_eq, lineLists_line hline]
  rfl

/-- The last line of a body needs no line feed. -/
theorem bodyLines_last (hline : ∀ c ∈ line, isLineEnd c = false) :
    bodyLines line = [stripBlanks line].filter isDeclaration := by
  have hlines : lineLists line = if line.isEmpty then [] else [line] := by
    have hgo := lineLists_go_append hline [] [] []
    rw [List.append_nil, List.append_nil] at hgo
    rw [lineLists, hgo, lineLists.go]
    cases line <;> simp
  rw [bodyLines_eq, hlines]
  cases line <;> rfl

/-- White space declares nothing. -/
theorem isDeclaration_stripBlanks_of_blank (h : ∀ c ∈ line, isBlank c = true) :
    isDeclaration (stripBlanks line) = false := by
  have hstrip : stripBlanks line = [] := by
    rw [stripBlanks, stripBy, List.dropWhile_eq_nil_iff.2 h]
    rfl
  rw [hstrip]
  rfl

/-- A comment or a setting of the whole block declares nothing. -/
theorem isDeclaration_stripBlanks_of_mark {c : Char} (hc : c = '/' ∨ c = '@') {indent : List Char}
    (hindent : ∀ c ∈ indent, isBlank c = true) (text : List Char) :
    isDeclaration (stripBlanks (indent ++ c :: c :: text)) = false := by
  have hblank : isBlank c = false := by
    rcases hc with rfl | rfl <;> decide
  have hmark : dropEndWhile isBlank (c :: text) = c :: dropEndWhile isBlank text :=
    dropEndWhile_append_cons hblank [] text
  rw [stripBlanks_append_cons hindent hblank, hmark]
  rcases hc with rfl | rfl <;> rfl

end CodeSurvey.DataModel.Schema
