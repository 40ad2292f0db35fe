import CodeSurvey.Proofs.DataModel.WrittenSchema

/-!
# Schemas are read back

What a written schema declares is what is read from it (`declarations_of_items`): all models and all
enumerations that are closed, in order, and nothing of those that are cut off. The proof goes item
by item from the end. Of the text that follows an item two things are known (`Follows`): no heading
that ends in it begins before it, so that lines are not taken for headings; and it closes nothing
that was open before it, so that a block that is cut off has no body.
-/

namespace CodeSurvey.DataModel.Schema

open CodeSurvey.Text

variable {cs rest : List Char}

/-! ## What follows a line -/

/-- No heading that ends in a text begins in a line before it. -/
def Unentered (rest : List Char) : Prop :=
  ∀ front, (∀ c ∈ front, ¬ braces.Has c) → header? (front ++ '\n' :: rest) = none

/-- What is known of a text that items are followed by. -/
structure Follows (rest : List Char) : Prop where
  unentered : Unentered rest
  /-- What is open before is never closed. -/
  unclosed : ∀ depth passed, body? (depth + 1) passed rest = none

/-- A line feed is no brace. -/
theorem not_has_feed : ¬ braces.Has '\n' := by decide

/-- A text without line ends has no line feed. -/
theorem notMem_feed (h : ∀ c ∈ cs, isLineEnd c = false) : '\n' ∉ cs :=
  fun hmem => absurd (h _ hmem) (by decide)

/-- A heading without its brace has no braces. -/
theorem Heading.not_has_front (h : Heading) : ∀ c ∈ h.front, ¬ braces.Has c := by
  intro c hc hbrace
  exact Heading.notMem_front (isWord_of_brace hbrace) (isBlank_of_brace hbrace) hc

/-- A heading ends at the first brace. -/
theorem header?_eq_none_of_closing (hcs : ∀ c ∈ cs, ¬ braces.Has c) (rest : List Char) :
    header? (cs ++ '\x7d' :: rest) = none := by
  by_contra hsome
  obtain ⟨⟨kind, name, rest'⟩, h⟩ := Option.ne_none_iff_exists'.1 hsome
  obtain ⟨h, -, -, heq⟩ := header?_eq_some_iff.1 h
  have hfirst : '\x7d' :: rest = '\x7b' :: rest' := by
    apply (append_inj_of_front (p := fun c => !decide (braces.Has c)) _ _ _ _ _).2
    · exact cs
    · exact h.front
    · simpa [Heading.chars] using heq
    · simpa using hcs
    · simp [has_braces_iff]
    · simpa using h.not_has_front
    · simp [has_braces_iff]
  exact absurd (List.cons.inj hfirst).1 (by decide)

/-- A text without braces begins with no heading. -/
theorem header?_eq_none_of_no_brace (hcs : ∀ c ∈ cs, ¬ braces.Has c) : header? cs = none := by
  by_contra hsome
  obtain ⟨⟨kind, name, rest⟩, h⟩ := Option.ne_none_iff_exists'.1 hsome
  obtain ⟨h, -, -, rfl⟩ := header?_eq_some_iff.1 h
  exact hcs '\x7b' (by simp [Heading.chars]) (by decide)

/-- Items may be followed by nothing. -/
theorem follows_nil : Follows [] where
  unentered := by
    intro front hfront
    apply header?_eq_none_of_no_brace
    simpa [or_imp, forall_and, not_has_feed] using hfront
  unclosed := fun _ _ => rfl

/-- A line may go before what no heading reaches into. -/
theorem Unentered.line (h : Unentered rest) (l : LineText) :
    Unentered (l.chars ++ '\n' :: rest) := by
  intro front hfront
  have heq : front ++ '\n' :: (l.chars ++ '\n' :: rest) =
      (front ++ '\n' :: l.chars) ++ '\n' :: rest := by simp
  rw [heq]
  apply h
  exact List.forall_mem_append.2 ⟨hfront, List.forall_mem_cons.2 ⟨not_has_feed, l.no_brace⟩⟩

/-- So may several lines. -/
theorem Unentered.lines (h : Unentered rest) (lines : List LineText) :
    Unentered (unlines (lines.map LineText.chars) ++ rest) := by
  induction lines with
  | nil => exact h
  | cons l lines ih =>
    rw [List.map_cons, unlines_cons]
    exact ih.line l

/-- A line that is none of a block's heading or end is passed over. -/
theorem Unentered.blocksFrom_line (h : Unentered rest) (l : LineText) :
    blocksFrom true (l.chars ++ '\n' :: rest) = blocksFrom true rest := by
  have hnone : blockAt? (l.chars.dropWhile isBlank ++ '\n' :: rest) = none := by
    rw [blockAt?, h, Option.bind_none]
    exact fun c hc => l.no_brace c ((List.dropWhile_sublist _).subset hc)
  rw [Schema.blocksFrom_line (notMem_feed l.one_line), hnone]
  rfl

/-- Such lines are passed over, too. -/
theorem Unentered.blocksFrom_lines (h : Unentered rest) (lines : List LineText) :
    blocksFrom true (unlines (lines.map LineText.chars) ++ rest) = blocksFrom true rest := by
  induction lines with
  | nil => rfl
  | cons l lines ih =>
    rw [List.map_cons, unlines_cons, (h.lines lines).blocksFrom_line l, ih]

/-- A line may go before what follows. -/
theorem Follows.line (h : Follows rest) (l : LineText) : Follows (l.chars ++ '\n' :: rest) where
  unentered := h.unentered.line l
  unclosed := by
    intro depth passed
    have hnested : braces.IsNested (l.chars ++ ['\n']) :=
      Brackets.isNested_of_no_bracket
        (List.forall_mem_append.2 ⟨l.no_brace, by simpa using not_has_feed⟩)
    have heq : l.chars ++ '\n' :: rest = l.chars ++ ['\n'] ++ rest := by simp
    rw [heq, body?_append_nested hnested]
    exact h.unclosed _ _

/-! ## Blocks -/

variable (f : Frame) (word : Word) (lines : List LineText)

/-- What comes behind the lines of a block: its end, if it has one, and what follows. -/
def Frame.tail (isClosed : Bool) (rest : List Char) : List Char :=
  if isClosed then f.closing.1.chars ++ '\x7d' :: (f.closing.2.chars ++ '\n' :: rest) else rest

/-- What follows a block stands behind its heading, its lines and its end. -/
theorem Frame.chars_append (isClosed : Bool) (rest : List Char) :
    f.chars word lines isClosed ++ rest = f.indent.chars ++ ((f.heading word).chars ++
      (f.after.chars ++ '\n' ::
        (unlines (lines.map LineText.chars) ++ f.tail isClosed rest))) := by
  cases isClosed <;> simp [Frame.chars, Frame.tail]

/-- White space has no braces that are not closed. -/
theorem Gap.isNested (g : Gap) : braces.IsNested g.chars :=
  Brackets.isNested_of_no_bracket g.text.no_brace

/-- Nor have the lines of a block with what stands behind its heading. -/
theorem isNested_lines (after : Gap) :
    braces.IsNested (after.chars ++ '\n' :: unlines (lines.map LineText.chars)) := by
  apply Brackets.isNested_of_no_bracket
  apply List.forall_mem_append.2 ⟨after.text.no_brace, List.forall_mem_cons.2 ⟨not_has_feed, ?_⟩⟩
  intro c hc
  obtain ⟨line, hline, hc⟩ := List.mem_flatMap.1 hc
  obtain ⟨l, -, rfl⟩ := List.mem_map.1 hline
  rcases List.mem_append.1 hc with hc | hc
  · exact l.no_brace c hc
  · rw [List.mem_singleton.1 hc]
    exact not_has_feed

variable {f word lines}

/-- The end of a block, or where it is cut off, closes the block but nothing else. -/
theorem Follows.unclosed_tail (h : Follows rest) (isClosed : Bool) (depth : Nat)
    (passed : List Char) : body? (depth + 2) passed (f.tail isClosed rest) = none := by
  cases isClosed with
  | true =>
    have hafter : braces.IsNested (f.closing.2.chars ++ ['\n']) :=
      f.closing.2.isNested.append (.other not_has_feed .nil)
    have heq : f.closing.2.chars ++ '\n' :: rest = f.closing.2.chars ++ ['\n'] ++ rest := by simp
    rw [Frame.tail, if_pos rfl, body?_append_nested f.closing.1.isNested (depth + 1),
      body?_closing, heq, body?_append_nested hafter]
    exact h.unclosed _ _
  | false => exact h.unclosed (depth + 1) passed

/-- No heading reaches into the end of a block or what follows it. -/
theorem Follows.unentered_tail (h : Follows rest) (isClosed : Bool) :
    Unentered (f.tail isClosed rest) := by
  cases isClosed with
  | true =>
    intro front hfront
    have heq : front ++ '\n' :: f.tail true rest = (front ++ '\n' :: f.closing.1.chars) ++
        '\x7d' :: (f.closing.2.chars ++ '\n' :: rest) := by simp [Frame.tail]
    rw [heq]
    apply header?_eq_none_of_closing
    exact List.forall_mem_append.2
      ⟨hfront, List.forall_mem_cons.2 ⟨not_has_feed, f.closing.1.text.no_brace⟩⟩
  | false => exact h.unentered

/-- A block may go before what follows. -/
theorem Follows.block (h : Follows rest) (f : Frame) (word : Word) (lines : List LineText)
    (isClosed : Bool) : Follows (f.chars word lines isClosed ++ rest) where
  unentered := by
    intro front hfront
    rw [Frame.chars_append]
    by_contra hsome
    obtain ⟨⟨kind, name, rest'⟩, hheader⟩ := Option.ne_none_iff_exists'.1 hsome
    obtain ⟨h', -, -, heq⟩ := header?_eq_some_iff.1 hheader
    -- The word of a heading would begin in the line before.
    have hbefore : '\x7b' ∉ front ++ '\n' :: f.indent.chars := by
      intro hmem
      have hplain : ∀ c ∈ front ++ '\n' :: f.indent.chars, ¬ braces.Has c :=
        List.forall_mem_append.2
          ⟨hfront, List.forall_mem_cons.2 ⟨not_has_feed, f.indent.text.no_brace⟩⟩
      exact hplain _ hmem (by decide)
    have hword := (Heading.word_eq_of_chars_eq hbefore (by simpa using heq.symm)).1
    have hfeed := h'.isWord_word '\n' (by rw [hword]; simp)
    exact absurd hfeed (by decide)
  unclosed := by
    intro depth passed
    have hfront : braces.IsNested (f.heading word).front :=
      Brackets.isNested_of_no_bracket (f.heading word).not_has_front
    have hlines : f.after.chars ++ '\n' :: (unlines (lines.map LineText.chars) ++
        f.tail isClosed rest) = (f.after.chars ++ '\n' :: unlines (lines.map LineText.chars)) ++
          f.tail isClosed rest := by simp
    rw [Frame.chars_append, body?_append_nested f.indent.isNested, Heading.chars,
      List.append_assoc, body?_append_nested hfront, List.singleton_append, body?_opening, hlines,
      body?_append_nested (isNested_lines lines f.after) (depth + 1)]
    exact h.unclosed_tail isClosed depth _

/-! ## Items -/

/-- The block that is read from an item: a model or an enumeration that is closed. -/
def Item.block? : Item → Option Block
  | .model f lines true =>
    some ⟨.model, f.name.chars, f.body (lines.map (Line.text FieldText.text))⟩
  | .enumeration f lines true =>
    some ⟨.enum, f.name.chars, f.body (lines.map (Line.text ValueText.text))⟩
  | _ => none

/-- The end of a block is passed over. -/
theorem blocksFrom_tail (f : Frame) (isClosed : Bool) (rest : List Char) :
    blocksFrom true (f.tail isClosed rest) = blocksFrom true rest := by
  cases isClosed with
  | true =>
    have heq : f.tail true rest =
        (f.closing.1.chars ++ '\x7d' :: f.closing.2.chars) ++ '\n' :: rest := by
      simp [Frame.tail]
    have hfeed : '\n' ∉ f.closing.1.chars ++ '\x7d' :: f.closing.2.chars := by
      apply notMem_feed
      exact List.forall_mem_append.2
        ⟨f.closing.1.one_line, List.forall_mem_cons.2 ⟨by decide, f.closing.2.one_line⟩⟩
    have hdrop : (f.closing.1.chars ++ '\x7d' :: f.closing.2.chars).dropWhile isBlank =
        '\x7d' :: f.closing.2.chars :=
      dropWhile_append f.closing.1.isBlank (by simpa using (by decide : isBlank '\x7d' = false))
    rw [heq, blocksFrom_line hfeed, hdrop, List.cons_append, blockAt?, header?_eq_none (by decide)]
    rfl
  | false => rfl

/-- The heading of a frame stands on one line. -/
theorem Frame.heading_one_line (f : Frame) (word : Word) :
    ∀ c ∈ (f.heading word).chars, isLineEnd c = false := by
  intro c hc
  simp only [Heading.chars, Heading.front, Frame.heading, List.mem_append,
    List.mem_singleton] at hc
  rcases hc with (((hc | hc) | hc) | hc) | rfl
  · exact word.text.one_line c hc
  · exact f.gap.one_line c hc
  · exact f.name.text.one_line c hc
  · exact f.space.one_line c hc
  · decide

/-- At a block, its heading is looked at, and then what follows. -/
theorem Follows.blocksFrom_block (h : Follows rest) (f : Frame) (word : Word)
    (lines : List LineText) (isClosed : Bool) :
    blocksFrom true (f.chars word lines isClosed ++ rest) =
      (blockAt? ((f.heading word).chars ++ (f.after.chars ++ '\n' ::
        (unlines (lines.map LineText.chars) ++ f.tail isClosed rest)))).toList ++
          blocksFrom true rest := by
  have hline : ∀ c ∈ (f.heading word).chars ++ f.after.chars, isLineEnd c = false :=
    List.forall_mem_append.2 ⟨f.heading_one_line word, f.after.one_line⟩
  have hfeed : '\n' ∉ f.indent.chars ++ ((f.heading word).chars ++ f.after.chars) :=
    notMem_feed (List.forall_mem_append.2 ⟨f.indent.one_line, hline⟩)
  have hhead : ∀ c, ((f.heading word).chars ++ f.after.chars).head? = some c →
      isBlank c = false := by
    intro c hc
    obtain ⟨d, cs, hd⟩ := List.exists_cons_of_ne_nil word.ne_nil
    have hchars : ((f.heading word).chars ++ f.after.chars).head? = some d := by
      simp [Heading.chars, Heading.front, Frame.heading, hd]
    obtain rfl : d = c := Option.some.inj (hchars.symm.trans hc)
    exact isBlank_of_isWord (word.isWord d (by rw [hd]; exact List.mem_cons_self))
  -- The first line of the block is its heading, with blanks around it.
  have heq : f.chars word lines isClosed ++ rest =
      (f.indent.chars ++ ((f.heading word).chars ++ f.after.chars)) ++ '\n' ::
        (unlines (lines.map LineText.chars) ++ f.tail isClosed rest) := by
    rw [Frame.chars_append]
    simp only [List.append_assoc]
  rw [heq, blocksFrom_line hfeed, dropWhile_append f.indent.isBlank hhead, List.append_assoc,
    (h.unentered_tail isClosed).blocksFrom_lines, blocksFrom_tail]

/-- A closed block of a kind is read with its body, and one that is cut off is not. -/
theorem Follows.blockAt?_kind (h : Follows rest) (f : Frame) (kind : BlockKind)
    (lines : List LineText) (isClosed : Bool) :
    blockAt? ((f.heading kind.toWord).chars ++ (f.after.chars ++ '\n' ::
        (unlines (lines.map LineText.chars) ++ f.tail isClosed rest))) =
      if isClosed then some ⟨kind, f.name.chars, f.body lines⟩ else none := by
  have hlines : f.after.chars ++ '\n' :: (unlines (lines.map LineText.chars) ++
      f.tail isClosed rest) = (f.after.chars ++ '\n' :: unlines (lines.map LineText.chars)) ++
        f.tail isClosed rest := by simp
  have hword : (f.heading kind.toWord).word = kind.word := rfl
  rw [blockAt?, Heading.header?_chars hword, Option.bind_some, hlines,
    body?_append_nested (isNested_lines lines f.after) 0]
  cases isClosed with
  | true =>
    rw [Frame.tail, if_pos rfl, body?_append_nested f.closing.1.isNested 0, body?_end]
    simp [Frame.body, Frame.heading]
  | false =>
    rw [Frame.tail, if_neg (by simp), h.unclosed]
    rfl

/-- Each item is read by itself. -/
theorem Follows.blocksFrom_item (h : Follows rest) (i : Item) :
    Follows (i.chars ++ rest) ∧
      blocksFrom true (i.chars ++ rest) = i.block?.toList ++ blocksFrom true rest := by
  cases i with
  | model f lines isClosed =>
    refine ⟨h.block f _ _ isClosed, ?_⟩
    rw [Item.chars, h.blocksFrom_block, h.blockAt?_kind]
    cases isClosed <;> rfl
  | enumeration f lines isClosed =>
    refine ⟨h.block f _ _ isClosed, ?_⟩
    rw [Item.chars, h.blocksFrom_block, h.blockAt?_kind]
    cases isClosed <;> rfl
  | settings word other f lines =>
    refine ⟨h.block f word lines true, ?_⟩
    -- The word of a block of settings is that of no kind of block that is read.
    have hother : ∀ kind : BlockKind, (f.heading word).word ≠ kind.word := other
    rw [Item.chars, h.blocksFrom_block, blockAt?, Heading.header?_chars_other hother]
    rfl
  | line text =>
    have heq : (Item.line text).chars ++ rest = text.chars ++ '\n' :: rest := by
      simp [Item.chars]
    rw [heq]
    exact ⟨h.line text, h.unentered.blocksFrom_line text⟩

/-- The blocks of written items are those of each. -/
theorem blocksFrom_items (items : List Item) : Follows (items.flatMap Item.chars) ∧
    blocksFrom true (items.flatMap Item.chars) = items.filterMap Item.block? := by
  induction items with
  | nil => exact ⟨follows_nil, rfl⟩
  | cons i items ih =>
    obtain ⟨hfollows, hblocks⟩ := ih
    obtain ⟨hitem, hread⟩ := hfollows.blocksFrom_item i
    rw [List.flatMap_cons]
    refine ⟨hitem, ?_⟩
    rw [hread, hblocks]
    cases h : i.block? with
    | none => rw [List.filterMap_cons_none h]; rfl
    | some b => rw [List.filterMap_cons_some h]; rfl

/-! ## Declarations -/

variable (path : Option String)

/-- The entity of a model is that of its block. -/
theorem entity_model (f : Frame) (lines : List (Line FieldText)) :
    Block.entity path ⟨.model, f.name.chars, f.body (lines.map (Line.text FieldText.text))⟩ =
      { name := String.ofList f.name.chars
        fields := (lines.filterMap Line.declared?).map FieldText.field
        origin := .schema, path } := by
  have hfields : (bodyLines (f.body (lines.map (Line.text FieldText.text)))).filterMap
      fieldOfLine? = (lines.filterMap Line.declared?).map FieldText.field := by
    rw [f.bodyLines_body FieldText.isDeclaring, List.filterMap_map, ← List.filterMap_eq_map]
    congr 1
    funext t
    exact t.fieldOfLine?_text
  rw [Block.entity, hfields]

/-- The enumeration of an enumeration's block. -/
theorem enumeration_enum (f : Frame) (lines : List (Line ValueText)) :
    Block.enumeration path ⟨.enum, f.name.chars, f.body (lines.map (Line.text ValueText.text))⟩ =
      { name := String.ofList f.name.chars
        values := (lines.filterMap Line.declared?).map fun v => String.ofList v.name.chars
        origin := .schema, path } := by
  have hvalues : (bodyLines (f.body (lines.map (Line.text ValueText.text)))).filterMap
      (fun line => (wordLists line).head?.map String.ofList) =
        (lines.filterMap Line.declared?).map fun v => String.ofList v.name.chars := by
    rw [f.bodyLines_body ValueText.isDeclaring, List.filterMap_map, ← List.filterMap_eq_map]
    congr 1
    funext v
    exact congrArg (Option.map String.ofList) v.head?_wordLists
  rw [Block.enumeration, hvalues]

/-- Reading a written schema gives the models and the enumerations that are closed, each in order,
with all that their lines declare. -/
theorem declarations_of_items (items : List Item) :
    declarations path (String.ofList (items.flatMap Item.chars)) =
      (items.filterMap (Item.entity? path), items.filterMap (Item.enumeration? path)) := by
  have hblocks : blocks (String.ofList (items.flatMap Item.chars)) =
      items.filterMap Item.block? := by
    rw [blocks, String.toList_ofList]
    exact (blocksFrom_items items).2
  simp only [declarations, hblocks, List.filter_filterMap, List.map_filterMap]
  -- By the kinds of items: each of the two lists takes its own from the blocks and leaves the
  -- other.
  congr 2
  · funext i
    cases i with
    | model f lines isClosed =>
      cases isClosed with
      | true => exact congrArg some (entity_model path f lines)
      | false => rfl
    | enumeration f lines isClosed => cases isClosed <;> rfl
    | settings | line => rfl
  · funext i
    cases i with
    | model f lines isClosed => cases isClosed <;> rfl
    | enumeration f lines isClosed =>
      cases isClosed with
      | true => exact congrArg some (enumeration_enum path f lines)
      | false => rfl
    | settings | line => rfl

end CodeSurvey.DataModel.Schema
