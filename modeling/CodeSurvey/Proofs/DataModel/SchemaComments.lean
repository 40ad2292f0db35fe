import CodeSurvey.Proofs.DataModel.Block

/-!
# Comments in a schema

Comments declare nothing, but they are left out only after the bodies of blocks were cut out of the
text, by their braces. So a line with a comment may be put into a schema without any effect if the
braces in the comment are nested, and only then: any other comment changes what some schema declares
(`comments_are_inert_iff`).
-/

namespace CodeSurvey.DataModel.Schema

open CodeSurvey.Text

/-- A line begins after a text. -/
def EndsLine (before : List Char) : Prop := before = [] ∨ before.getLast? = some '\n'

/-- Each heading of a block stands on one line with its brace. -/
def HeadingsInLine (text : List Char) : Prop :=
  ∀ (before gap rest : List Char) (h : Heading) (kind : BlockKind),
    text = before ++ (gap ++ (h.chars ++ rest)) → EndsLine before →
      (∀ c ∈ gap, isBlank c = true) → h.word = kind.word → '\n' ∉ h.chars

/-- A line with a comment. -/
def commentLine (text : List Char) : List Char := '/' :: '/' :: (text ++ ['\n'])

/-- What is read of a block. -/
def Block.reading (b : Block) : BlockKind × List Char × List (List Char) :=
  (b.kind, b.name, bodyLines b.body)

variable {text before after rest : List Char}

/-- What a schema declares is told by what is read of its blocks. -/
theorem declarations_congr {s t : String}
    (h : (blocks s).map Block.reading = (blocks t).map Block.reading) (path : Option String) :
    declarations path s = declarations path t := by
  -- The kind, the name and the declaring lines of a block are all that is used of it.
  let entity (r : BlockKind × List Char × List (List Char)) : Option Entity :=
    if r.1 == .model then some
      { name := String.ofList r.2.1, fields := r.2.2.filterMap fieldOfLine?
        origin := .schema, path }
    else none
  let enumeration (r : BlockKind × List Char × List (List Char)) : Option Enumeration :=
    if r.1 == .enum then some
      { name := String.ofList r.2.1
        values := r.2.2.filterMap fun line => (wordLists line).head?.map String.ofList
        origin := .schema, path }
    else none
  have hread (s : String) : declarations path s =
      (((blocks s).map Block.reading).filterMap entity,
        ((blocks s).map Block.reading).filterMap enumeration) := by
    simp only [declarations, ← List.filterMap_eq_map, List.filterMap_filter,
      List.filterMap_filterMap]
    rfl
  rw [hread, hread, h]

/-! ## Comments with nested braces -/

/-- In a comment line the braces are nested if they are in its text. -/
theorem isNested_commentLine (h : braces.IsNested text) : braces.IsNested (commentLine text) :=
  .other (by decide) (.other (by decide) (h.append (.other (by decide) .nil)))

/-- A comment on one line has no line end in it. -/
theorem one_line_of_text (htext : ∀ c ∈ text, isLineEnd c = false) :
    ∀ c ∈ '/' :: '/' :: text, isLineEnd c = false :=
  List.forall_mem_cons.2 ⟨by decide, List.forall_mem_cons.2 ⟨by decide, htext⟩⟩

/-- A comment declares nothing. -/
theorem isDeclaration_comment (text : List Char) :
    isDeclaration (stripBlanks ('/' :: '/' :: text)) = false :=
  isDeclaration_stripBlanks_of_mark (.inl rfl) (List.forall_mem_nil _) text

/-- What follows a comment line stands behind its line feed. -/
theorem commentLine_append (text after : List Char) :
    commentLine text ++ after = ('/' :: '/' :: text) ++ '\n' :: after := by
  simp [commentLine]

/-- The lines of a body that declare something do not change when a comment is put in. -/
theorem bodyLines_insert (htext : ∀ c ∈ text, isLineEnd c = false) (before after : List Char) :
    bodyLines (before ++ '\n' :: (commentLine text ++ after)) =
      bodyLines (before ++ '\n' :: after) := by
  have hcomment : bodyLines (('/' :: '/' :: text) ++ ['\n']) = [] := by
    rw [bodyLines_line (one_line_of_text htext), List.filter_singleton, isDeclaration_comment]
    rfl
  rw [bodyLines_append_feed, commentLine_append, bodyLines_append_feed _ after, hcomment,
    List.nil_append, ← bodyLines_append_feed]

/-- The body of a block ends at the same brace. -/
theorem body?_insert (htext : ∀ c ∈ text, isLineEnd c = false) (hnested : braces.IsNested text)
    (hbefore : before.getLast? = some '\n') (after : List Char) :
    (body? 1 [] (before ++ (commentLine text ++ after))).map bodyLines =
      (body? 1 [] (before ++ after)).map bodyLines := by
  cases hread : braces.unclosed? [] before with
  | none =>
    -- The body ends before the comment.
    obtain ⟨inner, -, -, hends⟩ := body?_append_closed (List.forall_mem_nil _) hread
    have hbody (rest : List Char) : body? 1 [] (before ++ rest) = some inner := hends [] rest
    rw [hbody, hbody]
  | some pending =>
    have hbody (rest : List Char) :
        body? 1 [] (before ++ rest) = body? (pending.length + 1) before.reverse rest := by
      have hgoes := body?_append (List.forall_mem_nil _) hread [] rest
      rwa [List.append_nil] at hgoes
    rw [hbody, hbody, body?_append_nested (isNested_commentLine hnested), body?_passed,
      Option.map_map, body?_passed _ before.reverse, Option.map_map]
    congr 1
    funext inner
    obtain ⟨lines, rfl⟩ := List.getLast?_eq_some_iff.1 hbefore
    simpa using bodyLines_insert htext lines inner

/-- No slash is in a heading. -/
theorem slash_notMem_heading (h : Heading) : '/' ∉ h.chars := by
  rw [Heading.chars, List.mem_append]
  rintro (hmem | hmem)
  · exact Heading.notMem_front (by decide) (by decide) hmem
  · exact absurd hmem (by decide)

variable {line : List Char} {lines : List (List Char)}

/-- Either a heading is in the line that it begins in, whatever comes after that, or there is none,
with the comment or without it. -/
theorem header?_insert (text : List Char)
    (hone : ∀ (h : Heading) (kind : BlockKind) (rest : List Char),
      line ++ '\n' :: (unlines lines ++ after) = h.chars ++ rest → h.word = kind.word →
        '\n' ∉ h.chars) :
    (∃ kind name between, ∀ rest,
      header? (line ++ '\n' :: rest) = some (kind, name, between ++ '\n' :: rest)) ∨
    header? (line ++ '\n' :: (unlines lines ++ after)) = none ∧
      header? (line ++ '\n' :: (unlines lines ++ (commentLine text ++ after))) = none := by
  cases hheader : header? (line ++ '\n' :: (unlines lines ++ after)) with
  | some found =>
    obtain ⟨kind, name, rest⟩ := found
    obtain ⟨h, hword, rfl, heq⟩ := header?_eq_some_iff.1 hheader
    obtain ⟨between, hline, -⟩ := exists_of_append_eq (hone h kind rest heq hword) heq.symm
    refine .inl ⟨kind, h.name, between, fun rest => ?_⟩
    rw [hline, List.append_assoc]
    exact Heading.header?_chars hword _
  | none =>
    refine .inr ⟨rfl, ?_⟩
    by_contra hsome
    obtain ⟨⟨kind, name, rest⟩, hfound⟩ := Option.ne_none_iff_exists'.1 hsome
    obtain ⟨h, hword, rfl, heq⟩ := header?_eq_some_iff.1 hfound
    -- The heading ends before the comment, so it is one without the comment as well.
    have hcut : h.chars ++ rest =
        (line ++ '\n' :: unlines lines) ++ '/' :: ('/' :: (text ++ ['\n']) ++ after) := by
      rw [← heq]
      simp [commentLine]
    obtain ⟨between, hfront, -⟩ := exists_of_append_eq (slash_notMem_heading h) hcut
    have hthere : header? (line ++ '\n' :: (unlines lines ++ after)) =
        some (kind, h.name, between ++ after) := by
      have hchars : line ++ '\n' :: (unlines lines ++ after) = h.chars ++ (between ++ after) := by
        rw [← List.append_assoc, ← hfront]
        simp
      rw [hchars]
      exact Heading.header?_chars hword _
    rw [hheader] at hthere
    cases hthere

/-- The last character of a line and more lines is a line feed. -/
theorem getLast?_unlines (line : List Char) (lines : List (List Char)) :
    (line ++ '\n' :: unlines lines).getLast? = some '\n' := by
  induction lines generalizing line with
  | nil => simp [unlines]
  | cons next lines ih =>
    have heq : line ++ '\n' :: unlines (next :: lines) =
        (line ++ '\n' :: next) ++ '\n' :: unlines lines := by
      simp [unlines]
    rw [heq, ih]

/-- What is read of a block does not change. -/
theorem blockAt?_insert (htext : ∀ c ∈ text, isLineEnd c = false)
    (hnested : braces.IsNested text)
    (hone : ∀ (h : Heading) (kind : BlockKind) (rest : List Char),
      line ++ '\n' :: (unlines lines ++ after) = h.chars ++ rest → h.word = kind.word →
        '\n' ∉ h.chars) :
    (blockAt? (line ++ '\n' :: (unlines lines ++ (commentLine text ++ after)))).map
        Block.reading =
      (blockAt? (line ++ '\n' :: (unlines lines ++ after))).map Block.reading := by
  rcases header?_insert text hone with ⟨kind, name, between, hheader⟩ | ⟨hnone, hnone'⟩
  · have hbody := body?_insert htext hnested (getLast?_unlines between lines) after
    rw [List.append_assoc, List.append_assoc, List.cons_append, List.cons_append] at hbody
    have hreading (cs : List Char) :
        ((body? 1 [] cs).map (Block.mk kind name)).map Block.reading =
          ((body? 1 [] cs).map bodyLines).map fun lines => (kind, name, lines) := by
      rw [Option.map_map, Option.map_map]
      rfl
    rw [blockAt?, blockAt?, hheader, hheader, Option.bind_some, Option.bind_some, hreading,
      hreading, hbody]
  · rw [blockAt?, blockAt?, hnone, hnone']

/-- A line more leaves a text at the end of a line. -/
theorem EndsLine.append_line (h : EndsLine before) (line : List Char) :
    EndsLine (line ++ '\n' :: before) := by
  right
  rcases h with rfl | h
  · simp
  · rw [List.getLast?_append, List.getLast?_cons, h]
    rfl

/-- The headings after a line are headings of the text. -/
theorem HeadingsInLine.after_line (h : HeadingsInLine (line ++ '\n' :: rest)) :
    HeadingsInLine rest := by
  intro before gap tail heading kind heq hbefore hgap hword
  apply h (line ++ '\n' :: before) gap tail heading kind _ (hbefore.append_line line) hgap hword
  rw [heq]
  simp

/-- The line of a comment is no heading. -/
theorem blocksFrom_commentLine (htext : ∀ c ∈ text, isLineEnd c = false) (after : List Char) :
    blocksFrom true (commentLine text ++ after) = blocksFrom true after := by
  have hfeed : '\n' ∉ '/' :: '/' :: text :=
    fun hmem => absurd (one_line_of_text htext _ hmem) (by decide)
  have hnone : blockAt? (('/' :: '/' :: text).dropWhile isBlank ++ '\n' :: after) = none := by
    rw [List.dropWhile_cons_of_neg (by decide), blockAt?, List.cons_append,
      header?_eq_none (by decide), Option.bind_none]
  rw [commentLine_append, blocksFrom_line hfeed, hnone]
  rfl

/-- What is read of the blocks of a schema does not change. -/
theorem blocksFrom_insert (htext : ∀ c ∈ text, isLineEnd c = false)
    (hnested : braces.IsNested text) (hlines : ∀ line ∈ lines, '\n' ∉ line)
    (hheadings : HeadingsInLine (unlines lines ++ after)) :
    (blocksFrom true (unlines lines ++ (commentLine text ++ after))).map Block.reading =
      (blocksFrom true (unlines lines ++ after)).map Block.reading := by
  induction lines with
  | nil =>
    rw [unlines, List.flatMap_nil, List.nil_append, List.nil_append,
      blocksFrom_commentLine htext]
  | cons line lines ih =>
    obtain ⟨hline, hlines⟩ := List.forall_mem_cons.1 hlines
    rw [unlines_cons] at hheadings
    -- A heading at the start of a line ends in this line, so the comment cannot come into it.
    have hone : ∀ (h : Heading) (kind : BlockKind) (rest : List Char),
        line.dropWhile isBlank ++ '\n' :: (unlines lines ++ after) = h.chars ++ rest →
          h.word = kind.word → '\n' ∉ h.chars := by
      intro h kind rest heq hword
      apply hheadings [] (line.takeWhile isBlank) rest h kind _ (.inl rfl) _ hword
      · rw [← heq, List.nil_append, ← List.append_assoc, List.takeWhile_append_dropWhile]
      · exact fun c hc => List.mem_takeWhile_imp hc
    have hblock := congrArg Option.toList (blockAt?_insert htext hnested hone)
    rw [Option.toList_map, Option.toList_map] at hblock
    rw [unlines_cons, unlines_cons, blocksFrom_line hline, blocksFrom_line hline, List.map_append,
      List.map_append, ih hlines hheadings.after_line, hblock]

/-! ## Other comments -/

/-- The heading of a schema with one brace stands on one line if that brace is on the first one. -/
theorem headingsInLine_of_one_brace {front : List Char} (hfeed : '\n' ∉ front)
    (hfront : '\x7b' ∉ front) (hrest : '\x7b' ∉ rest) :
    HeadingsInLine (front ++ '\x7b' :: rest) := by
  intro before gap tail h kind heq _ _ _ hmem
  have hbraces : front ++ '\x7b' :: rest = (before ++ gap ++ h.front) ++ '\x7b' :: tail := by
    rw [heq, Heading.chars]
    simp
  obtain ⟨rfl, -, -⟩ := (List.append_cons_inj_of_notMem hfront hrest).1 hbraces
  rcases List.mem_append.1 hmem with hmem | hmem
  · exact hfeed (List.mem_append_right _ hmem)
  · exact absurd hmem (by decide)

/-- The start of a model with one field. -/
def modelStart : List Char := "model A \x7b\n".toList

/-- Its field and its end. -/
def modelEnd : List Char := "  id Int\n\x7d\n".toList

/-- The heading of the model stands on one line. -/
theorem headingsInLine_model : HeadingsInLine (modelStart ++ modelEnd) :=
  @headingsInLine_of_one_brace ('\n' :: modelEnd) "model A ".toList (by decide) (by decide)
    (by decide)

/-- The model is read with the body that is left of it. -/
theorem blocks_model (htext : ∀ c ∈ text, isLineEnd c = false) :
    blocks (String.ofList (modelStart ++ (commentLine text ++ modelEnd))) =
      ((body? 1 [] ('\n' :: (commentLine text ++ modelEnd))).map
        (Block.mk .model ['A'])).toList := by
  have hstart (rest : List Char) : modelStart ++ rest = "model A \x7b".toList ++ '\n' :: rest := rfl
  have hblock (rest : List Char) :
      blockAt? ("model A \x7b".toList.dropWhile isBlank ++ '\n' :: rest) =
        (body? 1 [] ('\n' :: rest)).map (Block.mk .model ['A']) := rfl
  have hend : blocksFrom true modelEnd = [] := by decide
  rw [blocks, String.toList_ofList, hstart, blocksFrom_line (by decide), hblock,
    blocksFrom_commentLine htext, hend, List.append_nil]

/-- A body that ends in the comment declares nothing. -/
theorem bodyLines_cut (htext : ∀ c ∈ text, isLineEnd c = false) {inner after : List Char}
    (h : '\n' :: commentLine text = inner ++ '\x7d' :: after) : bodyLines inner = [] := by
  have hmarks : ['\n', '/', '/'] ++ (text ++ ['\n']) = inner ++ '\x7d' :: after := h
  obtain ⟨cut, rfl, hcut⟩ := exists_of_append_eq (by decide) hmarks
  have hone : ∀ c ∈ '/' :: '/' :: cut, isLineEnd c = false := by
    apply one_line_of_text
    rcases List.append_eq_append_iff.1 hcut with ⟨feed, rfl, hfeed⟩ | ⟨left, rfl, -⟩
    · -- The brace would be the line feed, or come after it.
      cases feed with
      | nil => exact absurd (List.cons.inj hfeed).1 (by decide)
      | cons c feed => simp at hfeed
    · exact (List.forall_mem_append.1 htext).1
  have hsplit : ['\n', '/', '/'] ++ cut = [] ++ '\n' :: ('/' :: '/' :: cut) := rfl
  have hfirst : bodyLines ([] ++ ['\n']) = [] := by decide
  rw [hsplit, bodyLines_append_feed, hfirst, bodyLines_last hone, List.filter_singleton,
    isDeclaration_comment]
  rfl

/-- If the model still has its field after a comment was put before it, it has a body with a line in
it. -/
theorem exists_body_of_declarations_eq (htext : ∀ c ∈ text, isLineEnd c = false)
    (h : declarations none (String.ofList (modelStart ++ (commentLine text ++ modelEnd))) =
      declarations none (String.ofList (modelStart ++ modelEnd))) :
    ∃ body, body? 1 [] ('\n' :: (commentLine text ++ modelEnd)) = some body ∧
      bodyLines body ≠ [] := by
  have hmodel : (declarations none (String.ofList (modelStart ++ modelEnd))).1.map (·.fields) =
      [[{ name := "id", type := "number" }]] := by decide
  rw [← h, declarations, blocks_model htext] at hmodel
  cases hbody : body? 1 [] ('\n' :: (commentLine text ++ modelEnd)) with
  | none =>
    rw [hbody] at hmodel
    cases hmodel
  | some body =>
    refine ⟨body, rfl, fun hnil => ?_⟩
    have hfields : [(bodyLines body).filterMap fieldOfLine?] =
        [[{ name := "id", type := "number" }]] := by rwa [hbody] at hmodel
    rw [hnil] at hfields
    cases hfields

/-- The end of the model closes one brace only. -/
theorem body?_modelEnd (n : Nat) (passed : List Char) : body? (n + 2) passed modelEnd = none := by
  have hfield : braces.IsNested "  id Int\n".toList := by decide
  have hend : modelEnd = "  id Int\n".toList ++ ['\x7d', '\n'] := rfl
  rw [hend, body?_append_nested hfield (n + 1), body?_closing, body?_other (by decide)]
  rfl

/-- If the model has a body with a line in it, the comment neither ends the body nor leaves a brace
open. -/
theorem isNested_of_body? (htext : ∀ c ∈ text, isLineEnd c = false) {body : List Char}
    (hbody : body? 1 [] ('\n' :: (commentLine text ++ modelEnd)) = some body)
    (hlines : bodyLines body ≠ []) : braces.IsNested ('\n' :: commentLine text) := by
  rw [Brackets.isNested_iff_unclosed?]
  cases hread : braces.unclosed? [] ('\n' :: commentLine text) with
  | none =>
    obtain ⟨inner, after, hcut, hends⟩ := body?_append_closed (List.forall_mem_nil _) hread
    have hinner : body? 1 [] ('\n' :: (commentLine text ++ modelEnd)) = some inner :=
      hends [] modelEnd
    obtain rfl := Option.some.inj (hbody.symm.trans hinner)
    exact absurd (bodyLines_cut htext hcut) hlines
  | some pending =>
    cases pending with
    | nil => rfl
    | cons d outer =>
      have hgoes : body? 1 [] ('\n' :: (commentLine text ++ modelEnd)) =
          body? (outer.length + 2) (('\n' :: commentLine text).reverse ++ []) modelEnd :=
        body?_append (List.forall_mem_nil _) hread [] modelEnd
      rw [hgoes, body?_modelEnd] at hbody
      cases hbody

/-- If the model still has its field after a comment was put before it, the braces of the comment
are nested. -/
theorem isNested_of_declarations_eq (htext : ∀ c ∈ text, isLineEnd c = false)
    (h : declarations none (String.ofList (modelStart ++ (commentLine text ++ modelEnd))) =
      declarations none (String.ofList (modelStart ++ modelEnd))) : braces.IsNested text := by
  obtain ⟨body, hbody, hlines⟩ := exists_body_of_declarations_eq htext h
  have hnested := isNested_of_body? htext hbody hlines
  have hmarks : braces.IsNested ['\n', '/', '/'] := by decide
  have hrest : braces.IsNested (text ++ ['\n']) :=
    (Brackets.isNested_append_iff hmarks).1 hnested
  exact (Brackets.isNested_append_iff_left (by decide)).1 hrest

/-! ## Which comments are inert -/

/-- A line with a comment may be put between any two lines of any schema with the headings of its
blocks on one line each, and what the schema declares does not change, if and only if the braces of
the comment are nested. -/
theorem comments_are_inert_iff (text : List Char) (htext : ∀ c ∈ text, isLineEnd c = false) :
    (∀ (path : Option String) (before after : List Char), EndsLine before →
      HeadingsInLine (before ++ after) →
        declarations path (String.ofList (before ++ (commentLine text ++ after))) =
          declarations path (String.ofList (before ++ after))) ↔ braces.IsNested text := by
  constructor
  · intro h
    exact isNested_of_declarations_eq htext
      (h none modelStart modelEnd (.inr (by decide)) headingsInLine_model)
  · intro hnested path before after hbefore hheadings
    obtain ⟨lines, rfl, hlines⟩ := exists_unlines hbefore
    apply declarations_congr
    rw [blocks, blocks, String.toList_ofList, String.toList_ofList]
    exact blocksFrom_insert htext hnested hlines hheadings

/-- A comment with a pair of braces leaves a model as it is. -/
theorem comment_with_pair_is_inert :
    (∀ c ∈ " see \x7b@link B\x7d".toList, isLineEnd c = false) ∧
      declarations none (String.ofList
        (modelStart ++ (commentLine " see \x7b@link B\x7d".toList ++ modelEnd))) =
          declarations none (String.ofList (modelStart ++ modelEnd)) := by
  have htext : ∀ c ∈ " see \x7b@link B\x7d".toList, isLineEnd c = false :=
    eq_false_of_all (by decide)
  have hnested : braces.IsNested " see \x7b@link B\x7d".toList := by decide
  exact ⟨htext, (comments_are_inert_iff _ htext).2 hnested none modelStart modelEnd
    (.inr (by decide)) headingsInLine_model⟩

/-- A closing brace in a comment ends the model that the comment stands in: its field is lost. -/
theorem comment_with_brace_ends_model :
    ¬ ∀ (path : Option String) (text before after : List Char),
      (∀ c ∈ text, isLineEnd c = false) → EndsLine before → HeadingsInLine (before ++ after) →
        declarations path (String.ofList (before ++ (commentLine text ++ after))) =
          declarations path (String.ofList (before ++ after)) := by
  intro h
  have hsame := h none " \x7d".toList modelStart modelEnd (eq_false_of_all (by decide))
    (.inr (by decide)) headingsInLine_model
  have hfields : (declarations none (String.ofList
      (modelStart ++ (commentLine " \x7d".toList ++ modelEnd)))).1.map (·.fields) = [[]] := by
    decide
  rw [hsame] at hfields
  exact absurd hfields (by decide)

end CodeSurvey.DataModel.Schema
