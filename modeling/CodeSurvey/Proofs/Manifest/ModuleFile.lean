import CodeSurvey.Manifest.Files
import CodeSurvey.Proofs.Files.Agreement
import CodeSurvey.Proofs.Files.Content
import CodeSurvey.Proofs.Manifest.ModuleSearch

/-!
# Module files as they are written

A module file is written item by item: the line that names the module, the line of the language
version, directives on a line of their own and directives with a block of lines, with comments and
blank lines between them. `fileText` is its text. Each item is found by the searches that look for
it and passed over by the others (`Item.search_block?`, `Item.search_operand?`,
`Item.search_named?`), so the name and the modules on lines of their own are read as they are
written. A block is cut into lines once more, and at more characters than the line feed: a comment
with such a character may be read as a module. So the modules that are read are those that are
required exactly if this happens to no comment of a block (`module_file_is_exact_iff`).
-/

namespace CodeSurvey.Manifest

open CodeSurvey.Text

/-! ## Layout -/

/-- A path or a version: printable ASCII characters without brackets that begin no comment. -/
structure Operand where
  chars : List Char
  ne_nil : chars ≠ []
  printable : ∀ c ∈ chars, 0x21 ≤ c.toNat ∧ c.toNat ≤ 0x7E
  no_bracket : '(' ∉ chars ∧ ')' ∉ chars
  no_comment : ¬ "//".toList <+: chars

/-- A comment: two slashes and what follows them on the line. -/
structure Comment where
  text : List Char
  one_line : '\n' ∉ text

/-- The comment as it is written. -/
def Comment.chars (c : Comment) : List Char := '/' :: '/' :: c.text

/-- What follows the first operands of a line: further ones, and a comment if there is one, with a
space before each. -/
structure Trailer where
  operands : List Operand
  comment? : Option Comment

/-- What follows as it is written. -/
def Trailer.chars (t : Trailer) : List Char :=
  t.operands.flatMap (fun o => ' ' :: o.chars) ++ t.comment?.elim [] fun c => ' ' :: c.chars

/-- A line of a block. -/
inductive BlockLine where
  | comment (c : Comment)
  /-- A path and what follows it: its version, or for a replacement further operands too. -/
  | entry (path : Operand) (trailer : Trailer)

/-- The line as it is written, without what it is indented by. -/
def BlockLine.chars : BlockLine → List Char
  | comment c => c.chars
  | entry path trailer => path.chars ++ trailer.chars

/-- A directive with operands. -/
inductive Directive where
  | require
  | exclude
  | replace
  | retract

/-- The word that a directive begins with. -/
def Directive.word : Directive → List Char
  | require => requireWord
  | exclude => "exclude".toList
  | replace => "replace".toList
  | retract => "retract".toList

/-- An item of a module file. -/
inductive Item where
  /-- The line that names the module. -/
  | name (path : Operand) (comment? : Option Comment)
  /-- The line of the language version. -/
  | language (version : Operand) (comment? : Option Comment)
  | blank
  | comment (c : Comment)
  /-- A directive on a line of its own. -/
  | single (d : Directive) (path version : Operand) (trailer : Trailer)
  /-- A directive with a block of lines. -/
  | block (d : Directive) (lines : List BlockLine)

/-- The word before the name of a module. -/
def nameWord : List Char := "module".toList

/-- The lines of an item; those of a block are indented by a tabulator. -/
def Item.lines : Item → List (List Char)
  | name path comment? => [nameWord ++ ' ' :: (path.chars ++ Trailer.chars ⟨[], comment?⟩)]
  | language version comment? =>
    ["go".toList ++ ' ' :: (version.chars ++ Trailer.chars ⟨[], comment?⟩)]
  | blank => [[]]
  | comment c => [c.chars]
  | single d path version trailer =>
    [d.word ++ ' ' :: (path.chars ++ ' ' :: (version.chars ++ trailer.chars))]
  | block d lines =>
    (d.word ++ [' ', '(']) :: ((lines.map BlockLine.chars).map ('\t' :: ·) ++ [[')']])

/-- The text of a module file. -/
def fileText (items : List Item) : String := String.ofList (unlines (items.flatMap Item.lines))

/-! ## What is written -/

/-- The name that an item gives the module. -/
def Item.name? : Item → Option String
  | name path _ => some (String.ofList path.chars)
  | _ => none

/-- The module that an item requires on a line of its own. -/
def Item.single? : Item → Option String
  | single .require path _ _ => some (String.ofList path.chars)
  | _ => none

/-- The lines of an item that requires the modules of a block. -/
def Item.requirements : Item → List BlockLine
  | block .require lines => lines
  | _ => []

/-- The module that a line of such a block requires. -/
def BlockLine.path? : BlockLine → Option String
  | comment _ => none
  | entry path _ => some (String.ofList path.chars)

/-- The comment of a line of a block. -/
def BlockLine.comment? : BlockLine → Option Comment
  | comment c => some c
  | entry _ trailer => trailer.comment?

/-- The lines into which what follows a comment's slashes is cut, without the first one. -/
def Comment.furtherLines (c : Comment) : List (List Char) := (lineLists (c.text ++ ['\n'])).tail

/-- No module is read on these lines: each is blank or a comment itself. -/
def Comment.StaysHidden (c : Comment) : Prop :=
  ∀ line ∈ c.furtherLines, stripBlanks line = [] ∨ "//".toList <+: stripBlanks line

/-! ## Characters -/

/-- There is no blank in an operand. -/
theorem Operand.isBlank_of_mem (o : Operand) {c : Char} (hc : c ∈ o.chars) : isBlank c = false := by
  have hrange := o.printable c hc
  simp only [isBlank, Bool.or_eq_false_iff, Bool.and_eq_false_iff, decide_eq_false_iff_not,
    beq_eq_false_iff_ne]
  omega

/-- Nor an end of a line. -/
theorem Operand.isLineEnd_of_mem (o : Operand) {c : Char} (hc : c ∈ o.chars) :
    isLineEnd c = false := by
  by_contra hend
  have hblank := isBlank_of_isLineEnd (by simpa using hend)
  rw [o.isBlank_of_mem hc] at hblank
  cases hblank

/-- Each of its characters is one of an operand for the searches. -/
theorem Operand.isPart_of_mem (o : Operand) {c : Char} (hc : c ∈ o.chars) : IsPart c :=
  ⟨o.isBlank_of_mem hc, fun heq => o.no_bracket.1 (heq ▸ hc)⟩

/-- There is no line feed in an operand. -/
theorem Operand.feed_notMem (o : Operand) : '\n' ∉ o.chars := fun hmem => by
  have hend := o.isLineEnd_of_mem hmem
  cases hend

/-- Nor in a comment. -/
theorem Comment.feed_notMem (c : Comment) : '\n' ∉ c.chars := by
  simpa [Comment.chars] using c.one_line

/-- Nor in what follows the first operands. -/
theorem Trailer.feed_notMem (t : Trailer) : '\n' ∉ t.chars := by
  unfold Trailer.chars
  rw [List.mem_append, not_or]
  constructor
  · simpa using fun o _ => o.feed_notMem
  · cases t.comment? with
    | none => simp
    | some c => simpa using c.feed_notMem

/-- Further operands begin with a blank, and so does a text with them in front if it does. -/
theorem isBlank_head_operands (operands : List Operand) {rest : List Char}
    (hrest : ∀ c, rest.head? = some c → isBlank c = true) {c : Char}
    (hc : (operands.flatMap (fun o => ' ' :: o.chars) ++ rest).head? = some c) :
    isBlank c = true := by
  cases operands with
  | nil => exact hrest c hc
  | cons o operands =>
    obtain rfl := Option.some.inj hc
    rfl

/-- What follows an operand begins with a blank. -/
theorem Trailer.isBlank_head (t : Trailer) (rest : List Char) {c : Char}
    (hc : (t.chars ++ '\n' :: rest).head? = some c) : isBlank c = true := by
  unfold Trailer.chars at hc
  rw [List.append_assoc] at hc
  refine isBlank_head_operands t.operands (fun d hd => ?_) hc
  cases hcomment : t.comment? with
  | none =>
    rw [hcomment] at hd
    obtain rfl := Option.some.inj hd
    rfl
  | some e =>
    rw [hcomment] at hd
    obtain rfl := Option.some.inj hd
    rfl

/-- Nor in a line of a block. -/
theorem BlockLine.feed_notMem (l : BlockLine) : '\n' ∉ l.chars := by
  cases l with
  | comment c => exact c.feed_notMem
  | entry path trailer => simpa [BlockLine.chars] using ⟨path.feed_notMem, trailer.feed_notMem⟩

/-- Nor in the word of a directive. -/
theorem Directive.feed_notMem (d : Directive) : '\n' ∉ d.word := by
  cases d <;> decide

/-- Nor in two texts with a space between them, if there is none in either. -/
theorem feed_notMem_spaced {front back : List Char} (hfront : '\n' ∉ front) (hback : '\n' ∉ back) :
    '\n' ∉ front ++ ' ' :: back := by
  simp [hfront, hback]

/-- There is none in any line of an item. -/
theorem Item.feed_notMem (i : Item) : ∀ line ∈ i.lines, '\n' ∉ line := by
  -- The parts of each line are names, versions and comments, none of which has a line break.
  cases i with
  | name path comment? =>
    exact List.forall_mem_singleton.2 (feed_notMem_spaced (by decide)
      (List.not_mem_append path.feed_notMem (Trailer.feed_notMem _)))
  | language version comment? =>
    exact List.forall_mem_singleton.2 (feed_notMem_spaced (by decide)
      (List.not_mem_append version.feed_notMem (Trailer.feed_notMem _)))
  | blank => exact List.forall_mem_singleton.2 List.not_mem_nil
  | comment c => exact List.forall_mem_singleton.2 c.feed_notMem
  | single d path version trailer =>
    exact List.forall_mem_singleton.2 (feed_notMem_spaced d.feed_notMem
      (feed_notMem_spaced path.feed_notMem
        (List.not_mem_append version.feed_notMem trailer.feed_notMem)))
  | block d lines =>
    refine List.forall_mem_cons.2 ⟨feed_notMem_spaced d.feed_notMem (by decide), ?_⟩
    refine List.forall_mem_append.2 ⟨fun line hline => ?_, by decide⟩
    simp only [List.map_map, List.mem_map, Function.comp_apply] at hline
    obtain ⟨l, -, rfl⟩ := hline
    simpa using l.feed_notMem

/-! ## The three searches -/

/-- No line of an item begins with a word. -/
def Item.Lacks (i : Item) (word : List Char) : Prop :=
  ∀ line ∈ i.lines, ∀ rest, dropStart? word (line ++ '\n' :: rest) = none

/-- An item without the word that is searched for is passed over. -/
theorem Item.Lacks.search_eq {i : Item} {word : List Char} (h : i.Lacks word)
    {find? : List Char → Option (List Char × List Char)} (hshortens : Shortens find?)
    (hnone : ∀ cs, dropStart? word cs = none → find? cs = none) (rest : List Char) :
    search find? true (unlines i.lines ++ rest) = search find? true rest :=
  search_unlines hshortens fun line hline =>
    ⟨i.feed_notMem line hline, fun after => hnone _ (h line hline after)⟩

/-- The lines of a block behind the first one begin with a tabulator or a bracket. -/
theorem dropStart?_body {lines : List (List Char)} {word : List Char}
    (hword : ∃ c start, word = c :: start ∧ c ≠ '\t' ∧ c ≠ ')') :
    ∀ line ∈ lines.map ('\t' :: ·) ++ [[')']], ∀ rest,
      dropStart? word (line ++ '\n' :: rest) = none := by
  obtain ⟨c, start, rfl, htab, hbracket⟩ := hword
  intro line hline rest
  rcases List.mem_append.1 hline with hline | hline
  · obtain ⟨line, -, rfl⟩ := List.mem_map.1 hline
    exact if_neg htab
  · obtain rfl := List.mem_singleton.1 hline
    exact if_neg hbracket

/-- The word for requirements begins with neither a tabulator nor a bracket. -/
theorem requireWord_head : ∃ c start, requireWord = c :: start ∧ c ≠ '\t' ∧ c ≠ ')' :=
  ⟨'r', _, rfl, by decide, by decide⟩

/-- Nor does the word before the name. -/
theorem nameWord_head : ∃ c start, nameWord = c :: start ∧ c ≠ '\t' ∧ c ≠ ')' :=
  ⟨'m', _, rfl, by decide, by decide⟩

/-- Only a directive that requires modules begins with its word. -/
theorem Item.lacks_requireWord {i : Item} (hsingle : ∀ path version trailer,
    i ≠ .single .require path version trailer) (hblock : ∀ lines, i ≠ .block .require lines) :
    i.Lacks requireWord := by
  intro line hline rest
  cases i with
  | name | language | blank | comment =>
    obtain rfl := List.mem_singleton.1 hline
    rfl
  | single d path version trailer =>
    obtain rfl := List.mem_singleton.1 hline
    cases d with
    | require => exact absurd rfl (hsingle path version trailer)
    | exclude => rfl
    | replace => rfl
    | retract => rfl
  | block d lines =>
    rcases List.mem_cons.1 hline with rfl | hline
    · cases d with
      | require => exact absurd rfl (hblock lines)
      | exclude => rfl
      | replace => rfl
      | retract => rfl
    · -- The lines within a block begin with a tab.
      exact dropStart?_body requireWord_head line hline rest

/-- Only the line that names the module begins with its word. -/
theorem Item.lacks_nameWord {i : Item} (hname : ∀ path comment?, i ≠ .name path comment?) :
    i.Lacks nameWord := by
  intro line hline rest
  cases i with
  | name path comment? => exact absurd rfl (hname path comment?)
  | language | blank | comment =>
    obtain rfl := List.mem_singleton.1 hline
    rfl
  | single d path version trailer =>
    obtain rfl := List.mem_singleton.1 hline
    cases d <;> rfl
  | block d lines =>
    rcases List.mem_cons.1 hline with rfl | hline
    · cases d <;> rfl
    · -- The lines within a block begin with a tab.
      exact dropStart?_body nameWord_head line hline rest

/-- The bodies of the blocks that an item has, of those that require modules. -/
def Item.bodies : Item → List (List Char)
  | block .require lines => ['\n' :: unlines ((lines.map BlockLine.chars).map ('\t' :: ·))]
  | _ => []

/-- Only a block that requires modules has a body. -/
theorem Item.bodies_eq_nil {i : Item} (hblock : ∀ lines, i ≠ .block .require lines) :
    i.bodies = [] := by
  cases i with
  | block d lines =>
    cases d with
    | require => exact absurd rfl (hblock lines)
    | _ => rfl
  | _ => rfl

/-- Only a line that requires a module names one. -/
theorem Item.single?_eq_none {i : Item}
    (hsingle : ∀ path version trailer, i ≠ .single .require path version trailer) :
    i.single? = none := by
  cases i with
  | single d path version trailer =>
    cases d with
    | require => exact absurd rfl (hsingle path version trailer)
    | _ => rfl
  | _ => rfl

/-- The body of a block that requires modules is found. -/
theorem search_block?_block (lines : List BlockLine) (rest : List Char) :
    search (block? requireWord) true (unlines (Item.lines (.block .require lines)) ++ rest) =
      Item.bodies (.block .require lines) ++ search (block? requireWord) true rest := by
  have hshortens := shortens_block? requireWord
  have hlines : ∀ line ∈ lines.map BlockLine.chars, '\n' ∉ line := by
    simpa using fun l _ => l.feed_notMem
  have hfound := search_found hshortens (block?_block requireWord ('\n' :: rest) hlines)
  -- Behind the bracket the line ends.
  have hend : search (block? requireWord) false ([] ++ '\n' :: rest) =
      search (block? requireWord) true rest :=
    search_line hshortens List.not_mem_nil nofun
  have hchars : unlines (Item.lines (.block .require lines)) ++ rest =
      requireWord ++ ' ' :: '(' :: '\n' ::
        (unlines ((lines.map BlockLine.chars).map ('\t' :: ·)) ++ ')' :: '\n' :: rest) := by
    rw [Item.lines, unlines_cons, unlines, List.flatMap_append, List.append_assoc,
      List.append_assoc]
    rfl
  rw [hchars, hfound]
  exact congrArg _ hend

/-- A line that requires a module has an operand in place of a bracket. -/
theorem search_block?_single (path version : Operand) (trailer : Trailer) (rest : List Char) :
    search (block? requireWord) true
        (unlines (Item.lines (.single .require path version trailer)) ++ rest) =
      search (block? requireWord) true rest := by
  refine search_unlines (shortens_block? requireWord)
    fun line hline => ⟨Item.feed_notMem _ line hline, fun after => ?_⟩
  obtain rfl := List.mem_singleton.1 hline
  obtain ⟨c, cs, hpath⟩ := List.exists_cons_of_ne_nil path.ne_nil
  have hc : IsPart c := path.isPart_of_mem (by rw [hpath]; exact List.mem_cons_self)
  rw [hpath, List.append_assoc]
  exact block?_operand hc.1 hc.2

/-- Of an item the block that requires modules is found. -/
theorem Item.search_block? (i : Item) (rest : List Char) :
    search (block? requireWord) true (unlines i.lines ++ rest) =
      i.bodies ++ search (block? requireWord) true rest := by
  by_cases hblock : ∃ lines, i = .block .require lines
  · obtain ⟨lines, rfl⟩ := hblock
    exact search_block?_block lines rest
  · rw [not_exists] at hblock
    rw [Item.bodies_eq_nil hblock, List.nil_append]
    by_cases hsingle : ∃ path version trailer, i = .single .require path version trailer
    · obtain ⟨path, version, trailer, rfl⟩ := hsingle
      exact search_block?_single path version trailer rest
    · simp only [not_exists] at hsingle
      exact (Item.lacks_requireWord hsingle hblock).search_eq (shortens_block? requireWord)
        (fun _ => block?_of_none) rest

/-- The operand of a line that requires a module is found. -/
theorem search_operand?_single (path version : Operand) (trailer : Trailer) (rest : List Char) :
    search (operand? requireWord) true
        (unlines (Item.lines (.single .require path version trailer)) ++ rest) =
      path.chars :: search (operand? requireWord) true rest := by
  have hshortens := shortens_operand? requireWord
  -- The search finds the operand behind the word and goes on with the rest of the line.
  have hfound := search_found hshortens (operand?_operands requireWord path.ne_nil
    (fun c hc => path.isPart_of_mem hc) version.ne_nil (fun c hc => version.isBlank_of_mem hc)
    (fun c hc => trailer.isBlank_head rest hc))
  have hend : search (operand? requireWord) false (trailer.chars ++ '\n' :: rest) =
      search (operand? requireWord) true rest :=
    search_line hshortens trailer.feed_notMem nofun
  have hchars : unlines (Item.lines (.single .require path version trailer)) ++ rest =
      requireWord ++ ' ' :: (path.chars ++ ' ' :: (version.chars ++
        (trailer.chars ++ '\n' :: rest))) := by
    rw [Item.lines, unlines_cons, List.append_assoc, List.cons_append, List.append_assoc,
      List.cons_append, List.append_assoc]
    rfl
  rw [hchars, hfound, hend]

/-- A block that requires modules has a bracket in place of an operand. -/
theorem search_operand?_block (lines : List BlockLine) (rest : List Char) :
    search (operand? requireWord) true (unlines (Item.lines (.block .require lines)) ++ rest) =
      search (operand? requireWord) true rest := by
  refine search_unlines (shortens_operand? requireWord)
    fun line hline => ⟨Item.feed_notMem _ line hline, fun after => ?_⟩
  rcases List.mem_cons.1 hline with rfl | hline
  · rw [List.append_assoc]
    exact operand?_bracket
  · exact operand?_of_none (dropStart?_body requireWord_head line hline after)

/-- Of an item the module that is required on a line of its own is found. -/
theorem Item.search_operand? (i : Item) (rest : List Char) :
    search (operand? requireWord) true (unlines i.lines ++ rest) =
      (i.single?.map String.toList).toList ++ search (operand? requireWord) true rest := by
  by_cases hsingle : ∃ path version trailer, i = .single .require path version trailer
  · obtain ⟨path, version, trailer, rfl⟩ := hsingle
    rw [search_operand?_single, Item.single?, Option.map_some, String.toList_ofList]
    rfl
  · simp only [not_exists] at hsingle
    rw [Item.single?_eq_none hsingle, Option.map_none, Option.toList_none, List.nil_append]
    by_cases hblock : ∃ lines, i = .block .require lines
    · obtain ⟨lines, rfl⟩ := hblock
      exact search_operand?_block lines rest
    · rw [not_exists] at hblock
      exact (Item.lacks_requireWord hsingle hblock).search_eq (shortens_operand? requireWord)
        (fun _ => operand?_of_none) rest

/-- Of an item the name of the module is found. -/
theorem Item.search_named? (i : Item) (rest : List Char) :
    search (named? nameWord) true (unlines i.lines ++ rest) =
      (i.name?.map String.toList).toList ++ search (named? nameWord) true rest := by
  have hshortens := shortens_named? nameWord
  by_cases hname : ∃ path comment?, i = .name path comment?
  · obtain ⟨path, comment?, rfl⟩ := hname
    -- The search finds the name behind the word and goes on with the rest of the line.
    have hfound := search_found hshortens (named?_name nameWord path.ne_nil
      (fun c hc => path.isBlank_of_mem hc)
      (fun c hc => Trailer.isBlank_head ⟨[], comment?⟩ rest hc))
    have hend : search (named? nameWord) false (Trailer.chars ⟨[], comment?⟩ ++ '\n' :: rest) =
        search (named? nameWord) true rest :=
      search_line hshortens (Trailer.feed_notMem ⟨[], comment?⟩) nofun
    have hchars : unlines (Item.lines (.name path comment?)) ++ rest =
        nameWord ++ ' ' :: (path.chars ++ (Trailer.chars ⟨[], comment?⟩ ++ '\n' :: rest)) := by
      rw [Item.lines, unlines_cons, List.append_assoc, List.cons_append, List.append_assoc]
      rfl
    rw [hchars, hfound, hend, Item.name?, Option.map_some, String.toList_ofList]
    rfl
  · simp only [not_exists] at hname
    have hnone : i.name? = none := by
      cases i with
      | name path comment? => exact absurd rfl (hname path comment?)
      | _ => rfl
    rw [hnone]
    exact (Item.lacks_nameWord hname).search_eq hshortens (fun _ => named?_of_none) rest

/-- A search of a file finds what it finds of the items one by one. -/
theorem search_file {find? : List Char → Option (List Char × List Char)}
    {found : Item → List (List Char)} (hnil : find? [] = none)
    (hitem : ∀ i rest, search find? true (unlines i.lines ++ rest) =
      found i ++ search find? true rest) (items : List Item) :
    search find? true (unlines (items.flatMap Item.lines)) = items.flatMap found := by
  induction items with
  | nil => exact search_nil hnil
  | cons i items ih =>
    have happend : unlines ((i :: items).flatMap Item.lines) =
        unlines i.lines ++ unlines (items.flatMap Item.lines) := by
      simp [unlines]
    rw [happend, hitem, ih, List.flatMap_cons]

end CodeSurvey.Manifest
