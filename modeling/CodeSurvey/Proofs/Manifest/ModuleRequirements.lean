import CodeSurvey.Proofs.Manifest.ModuleFile
import CodeSurvey.Proofs.Manifest.Reading
import Mathlib.Algebra.Order.BigOperators.Group.List

/-!
# The modules that a module file requires

A block is cut into lines once more, and at more characters than the line feed. A line with an
operand in front requires it (`lineModule?_entry`), and so does what stands behind such a character
in a comment (`Comment.leaks`): nothing is read there exactly if the comment stays hidden
(`Comment.leaks_eq_nil_iff`). So the modules that are read are those that are required if and only
if all comments of the blocks stay hidden (`module_file_is_exact_iff`).
-/

namespace CodeSurvey.Manifest

open CodeSurvey.Text

variable {front cs : List Char}

/-! ## Lines of a block -/

/-- A text up to its first line boundary is put to the end of the line before it. -/
theorem lineLists_append (hfront : ∀ c ∈ front, isLineEnd c = false)
    (hend : ∃ c ∈ cs, isLineEnd c = true) :
    lineLists (front ++ cs) =
      (front ++ cs.takeWhile (!isLineEnd ·)) :: (lineLists cs).tail := by
  obtain ⟨e, rest, hdrop⟩ : ∃ e rest, cs.dropWhile (!isLineEnd ·) = e :: rest := by
    refine List.exists_cons_of_ne_nil fun hnil => ?_
    obtain ⟨c, hc, hcend⟩ := hend
    have hnot := List.dropWhile_eq_nil_iff.1 hnil c hc
    rw [hcend] at hnot
    cases hnot
  have he : isLineEnd e = true := by
    have hhead := List.head_dropWhile_not (!isLineEnd ·) (hdrop ▸ List.cons_ne_nil e rest)
    simpa [hdrop] using hhead
  have hline : ∀ c ∈ cs.takeWhile (!isLineEnd ·), isLineEnd c = false := by
    intro c hc
    simpa using List.mem_takeWhile_imp hc
  -- Behind the boundary, which may have two characters, a new line begins.
  obtain ⟨after, hafter⟩ : ∃ after, ∀ line done,
      lineLists.go line done (e :: rest) = lineLists.go [] (line.reverse :: done) after := by
    by_cases hreturn : e = '\r' ∧ ∃ tail, rest = '\n' :: tail
    · obtain ⟨rfl, tail, rfl⟩ := hreturn
      exact ⟨tail, fun _ _ => rfl⟩
    · refine ⟨rest, fun line done => ?_⟩
      rw [lineLists.go.eq_3 _ _ _ _ fun tail hc hrest => hreturn ⟨hc, tail, hrest⟩, if_pos he]
  have hsplit : cs = cs.takeWhile (!isLineEnd ·) ++ e :: rest := by
    rw [← hdrop, List.takeWhile_append_dropWhile]
  have hlines (line : List Char) :
      lineLists.go line [] cs =
        (line.reverse ++ cs.takeWhile (!isLineEnd ·)) :: lineLists.go [] [] after := by
    conv_lhs => rw [hsplit]
    rw [lineLists_go_append hline, hafter, lineLists_go_done, List.reverse_append,
      List.reverse_reverse]
    rfl
  rw [lineLists, lineLists_go_append hfront, lineLists, hlines, hlines]
  simp

/-- The module that is read on a line of a block. -/
def lineModule? (line : List Char) : Option String :=
  if "//".toList.isPrefixOf (stripBlanks line) then none
  else ((wordLists (stripBlanks line)).head?).map String.ofList

/-- The modules of a block are those of its lines. -/
theorem blockModules_eq (body : List Char) :
    blockModules body = (lineLists body).filterMap lineModule? := rfl

/-- A line in front of others is read by itself. -/
theorem blockModules_append (line : List Char) (rest : List Char) :
    blockModules (line ++ '\n' :: rest) = blockModules (line ++ ['\n']) ++ blockModules rest := by
  rw [blockModules_eq, lineLists_append_feed, List.filterMap_append]
  rfl

/-- Each line of a block gives its modules by itself. -/
theorem blockModules_unlines (lines : List (List Char)) :
    blockModules (unlines lines) = lines.flatMap fun line => blockModules (line ++ ['\n']) := by
  induction lines with
  | nil => rfl
  | cons line lines ih =>
    rw [← List.append_nil (unlines _), unlines_cons, List.append_nil, blockModules_append, ih,
      List.flatMap_cons]

/-- What a text begins with when it is stripped: a word with blanks around it, or nothing. -/
theorem exists_stripBlanks_word {word before rest : List Char} (hne : word ≠ [])
    (hword : ∀ c ∈ word, isBlank c = false) (hbefore : ∀ c ∈ before, isBlank c = true)
    (hrest : ∀ c, rest.head? = some c → isBlank c = true) :
    ∃ after, stripBlanks (before ++ (word ++ rest)) = word ++ after ∧
      ∀ c, after.head? = some c → isBlank c = true := by
  obtain ⟨c, tail, rfl⟩ := List.exists_cons_of_ne_nil hne
  obtain ⟨init, z, hlast⟩ : ∃ init z, c :: tail = init ++ [z] :=
    (List.eq_nil_or_concat' _).resolve_left (List.cons_ne_nil c tail)
  have hz : isBlank z = false := hword z (by rw [hlast]; simp)
  have hdrop : (before ++ (c :: tail ++ rest)).dropWhile isBlank = c :: tail ++ rest := by
    refine dropWhile_append hbefore ?_
    rintro d ⟨⟩
    exact hword c List.mem_cons_self
  -- The word has no blank at its end, so stripping stops within the rest at the latest.
  refine ⟨dropEndWhile isBlank rest, ?_, fun d hd => ?_⟩
  · rw [stripBlanks, stripBy, hdrop, hlast, List.append_assoc, List.singleton_append,
      dropEndWhile_append_cons hz]
    simp
  · obtain ⟨more, hmore⟩ := dropEndWhile_prefix isBlank rest
    rw [← hmore, List.head?_append, hd] at hrest
    exact hrest d rfl

/-- A line with an operand in front requires it. -/
theorem lineModule?_entry (path : Operand) {rest : List Char}
    (hrest : ∀ c, rest.head? = some c → isBlank c = true) :
    lineModule? ('\t' :: (path.chars ++ rest)) = some (String.ofList path.chars) := by
  have htab : ∀ c ∈ ['\t'], isBlank c = true := List.forall_mem_singleton.2 rfl
  obtain ⟨after, hstrip, hafter⟩ := exists_stripBlanks_word path.ne_nil
    (fun c hc => path.isBlank_of_mem hc) htab hrest
  have hcomment : "//".toList.isPrefixOf (path.chars ++ after) = false := by
    rw [Bool.eq_false_iff, ne_eq, List.isPrefixOf_iff_prefix]
    intro hprefix
    cases after with
    | nil => exact path.no_comment (by rwa [List.append_nil] at hprefix)
    | cons c after =>
      -- The slashes do not reach the blank behind the operand.
      have hnot : c ∉ "//".toList := by
        intro hmem
        obtain rfl : c = '/' := by simpa using hmem
        cases hafter '/' rfl
      exact path.no_comment ((prefix_append_cons_iff hnot).1 hprefix)
  rw [lineModule?, ← List.singleton_append, hstrip, hcomment,
    head?_wordLists path.ne_nil (fun c hc => path.isBlank_of_mem hc) hafter]
  rfl

/-- On a line nothing is read exactly if it is blank or a comment. -/
theorem lineModule?_eq_none_iff {line : List Char} :
    lineModule? line = none ↔ stripBlanks line = [] ∨ "//".toList <+: stripBlanks line := by
  unfold lineModule?
  split_ifs with hcomment
  · exact iff_of_true rfl (.inr (List.isPrefixOf_iff_prefix.1 hcomment))
  · have hnot : ¬ "//".toList <+: stripBlanks line :=
      fun hprefix => hcomment (List.isPrefixOf_iff_prefix.2 hprefix)
    rw [or_iff_left hnot, Option.map_eq_none_iff]
    constructor
    · intro hnone
      by_contra hne
      -- What is left of a line begins with a word.
      obtain ⟨-, -, -, -, -, hhead, -⟩ := exists_stripBlanks line
      obtain ⟨c, tail, heq⟩ := List.exists_cons_of_ne_nil hne
      rw [heq] at hnone hhead
      have hc : isBlank c = false := hhead c rfl
      have hfront : (c :: tail).takeWhile (!isBlank ·) = c :: tail.takeWhile (!isBlank ·) :=
        List.takeWhile_cons_of_pos (by rw [hc]; rfl)
      have hfirst : (wordLists ((c :: tail).takeWhile (!isBlank ·) ++
          (c :: tail).dropWhile (!isBlank ·))).head? =
          some ((c :: tail).takeWhile (!isBlank ·)) := by
        refine head?_wordLists (by rw [hfront]; exact List.cons_ne_nil _ _) (fun d hd => ?_) ?_
        · simpa using List.mem_takeWhile_imp hd
        · intro d hd
          have hnot := List.head?_dropWhile_not (!isBlank ·) (c :: tail)
          rw [hd] at hnot
          simpa using hnot
      rw [List.takeWhile_append_dropWhile, hnone] at hfirst
      cases hfirst
    · intro hnil
      rw [hnil]
      rfl

/-! ## Comments of a block -/

/-- The modules that are read in a comment: those on its further lines. -/
def Comment.leaks (c : Comment) : List String := c.furtherLines.filterMap lineModule?

/-- Nothing is read in a comment exactly if it stays hidden. -/
theorem Comment.leaks_eq_nil_iff (c : Comment) : c.leaks = [] ↔ c.StaysHidden := by
  unfold leaks StaysHidden
  rw [List.filterMap_eq_nil_iff]
  exact forall₂_congr fun _ _ => lineModule?_eq_none_iff

/-- What is read of a line with a comment at its end. -/
theorem blockModules_comment (c : Comment) (hfront : ∀ d ∈ front, isLineEnd d = false) :
    ∃ rest, blockModules (front ++ (c.text ++ ['\n'])) =
      (lineModule? (front ++ rest)).toList ++ c.leaks := by
  have hend : ∃ d ∈ c.text ++ ['\n'], isLineEnd d = true :=
    ⟨'\n', List.mem_append_right _ (List.mem_singleton_self _), by decide⟩
  refine ⟨(c.text ++ ['\n']).takeWhile (!isLineEnd ·), ?_⟩
  rw [blockModules_eq, lineLists_append hfront hend, List.filterMap_cons]
  unfold Comment.leaks Comment.furtherLines
  cases lineModule? (front ++ (c.text ++ ['\n']).takeWhile (!isLineEnd ·)) <;> rfl

/-- The modules that are read in the comment of a line. -/
def BlockLine.leaks (l : BlockLine) : List String := l.comment?.elim [] Comment.leaks

/-- No line ends within operands. -/
theorem isLineEnd_of_mem_operands {operands : List Operand} {c : Char}
    (hc : c ∈ operands.flatMap fun o => ' ' :: o.chars) : isLineEnd c = false := by
  obtain ⟨o, -, hmem⟩ := List.mem_flatMap.1 hc
  rcases List.mem_cons.1 hmem with rfl | hmem
  · rfl
  · exact o.isLineEnd_of_mem hmem

/-- Nothing is read of a line that begins with the slashes of a comment. -/
theorem lineModule?_slashes (rest : List Char) :
    lineModule? (['\t', '/', '/'] ++ rest) = none := by
  refine lineModule?_eq_none_iff.2 (.inr ?_)
  have htab : ∀ d ∈ ['\t'], isBlank d = true := List.forall_mem_singleton.2 rfl
  have hslash : isBlank '/' = false := by decide
  have hstrip := stripBlanks_append_cons htab hslash ('/' :: rest)
  have hsecond := dropEndWhile_append_cons hslash [] rest
  rw [List.nil_append, List.nil_append] at hsecond
  rw [hsecond] at hstrip
  exact ⟨_, hstrip.symm⟩

/-- No line ends within an entry. -/
theorem isLineEnd_of_mem_entry (path : Operand) (operands : List Operand) :
    ∀ d ∈ '\t' :: (path.chars ++ operands.flatMap fun o => ' ' :: o.chars),
      isLineEnd d = false := by
  refine List.forall_mem_cons.2 ⟨rfl, List.forall_mem_append.2 ⟨fun d hd => ?_, fun d hd => ?_⟩⟩
  · exact path.isLineEnd_of_mem hd
  · exact isLineEnd_of_mem_operands hd

/-- Of an entry without a comment its module is read. -/
theorem blockModules_entry (path : Operand) (operands : List Operand) :
    blockModules ('\t' :: (BlockLine.entry path ⟨operands, none⟩).chars ++ ['\n']) =
      [String.ofList path.chars] := by
  have hchars : (BlockLine.entry path ⟨operands, none⟩).chars =
      path.chars ++ operands.flatMap fun o => ' ' :: o.chars := by
    simp [BlockLine.chars, Trailer.chars]
  have hmodule : lineModule? ('\t' :: (path.chars ++ operands.flatMap fun o => ' ' :: o.chars)) =
      some (String.ofList path.chars) := by
    refine lineModule?_entry path fun c hc => ?_
    rw [← List.append_nil (List.flatMap _ _)] at hc
    exact isBlank_head_operands operands (by simp) hc
  rw [hchars, blockModules_eq, lineLists_line (isLineEnd_of_mem_entry path operands),
    List.filterMap_cons, hmodule]
  rfl

/-- Of an entry with a comment its module is read too, and what the comment does not hide. -/
theorem blockModules_entry_comment (path : Operand) (operands : List Operand) (c : Comment) :
    blockModules ('\t' :: (BlockLine.entry path ⟨operands, some c⟩).chars ++ ['\n']) =
      String.ofList path.chars :: c.leaks := by
  have hchars : '\t' :: (BlockLine.entry path ⟨operands, some c⟩).chars ++ ['\n'] =
      '\t' :: (path.chars ++ operands.flatMap fun o => ' ' :: o.chars) ++ [' ', '/', '/'] ++
        (c.text ++ ['\n']) := by
    simp [BlockLine.chars, Trailer.chars, Comment.chars]
  have hslashes : ∀ d ∈ [' ', '/', '/'], isLineEnd d = false :=
    List.forall_mem_cons.2 ⟨rfl, List.forall_mem_cons.2 ⟨rfl, List.forall_mem_singleton.2 rfl⟩⟩
  obtain ⟨rest, hread⟩ := blockModules_comment c
    (List.forall_mem_append.2 ⟨isLineEnd_of_mem_entry path operands, hslashes⟩)
  have hmodule : lineModule? ('\t' :: (path.chars ++ operands.flatMap fun o => ' ' :: o.chars) ++
      [' ', '/', '/'] ++ rest) = some (String.ofList path.chars) := by
    rw [List.append_assoc, List.cons_append, List.append_assoc]
    refine lineModule?_entry path fun d hd => isBlank_head_operands operands ?_ hd
    rintro e ⟨⟩
    rfl
  rw [hchars, hread, hmodule]
  rfl

/-- Of a line of a block its module is read, and what its comment does not hide. -/
theorem BlockLine.blockModules_chars (l : BlockLine) :
    blockModules ('\t' :: l.chars ++ ['\n']) = l.path?.toList ++ l.leaks := by
  cases l with
  | comment c =>
    have hfront : ∀ d ∈ ['\t', '/', '/'], isLineEnd d = false :=
      List.forall_mem_cons.2 ⟨rfl, List.forall_mem_cons.2 ⟨rfl, List.forall_mem_singleton.2 rfl⟩⟩
    obtain ⟨rest, hread⟩ := blockModules_comment c hfront
    rw [lineModule?_slashes] at hread
    exact hread
  | entry path trailer =>
    obtain ⟨operands, comment?⟩ := trailer
    cases comment? with
    | none => exact blockModules_entry path operands
    | some c => exact blockModules_entry_comment path operands c

/-! ## Whole files -/

/-- What is read of the block of an item. -/
theorem Item.flatMap_bodies (i : Item) :
    i.bodies.flatMap blockModules = i.requirements.flatMap fun l => l.path?.toList ++ l.leaks := by
  by_cases hblock : ∃ lines, i = .block .require lines
  · obtain ⟨lines, rfl⟩ := hblock
    have hbody : '\n' :: unlines ((lines.map BlockLine.chars).map ('\t' :: ·)) =
        unlines ([] :: (lines.map BlockLine.chars).map ('\t' :: ·)) := rfl
    have hempty : blockModules ([] ++ ['\n']) = [] := by rfl
    rw [Item.bodies, List.flatMap_singleton, hbody, blockModules_unlines, List.flatMap_cons, hempty,
      List.nil_append, List.map_map, List.flatMap_map]
    exact List.flatMap_congr fun l _ => l.blockModules_chars
  · rw [not_exists] at hblock
    cases i with
    | block d lines =>
      cases d with
      | require => exact absurd rfl (hblock lines)
      | _ => rfl
    | _ => rfl

/-- The lines of all blocks that require modules. -/
def requirements (items : List Item) : List BlockLine := items.flatMap Item.requirements

/-- The modules that are required on lines of their own. -/
def singles (items : List Item) : List String := items.filterMap Item.single?

/-- The texts that are found of the items of a file are those that the items give. -/
theorem map_flatMap_toList (f : Item → Option String) (items : List Item) :
    (items.flatMap fun i => ((f i).map String.toList).toList).map String.ofList =
      items.filterMap f := by
  rw [← List.filterMap_eq_flatMap_toList, List.map_filterMap]
  refine List.filterMap_congr fun i _ => ?_
  cases f i with
  | none => rfl
  | some s => exact congrArg some String.ofList_toList

/-- The modules that are read of a file are those of its blocks, with what their comments do not
hide, and then those on lines of their own. -/
theorem requiredModules_fileText (items : List Item) :
    requiredModules (fileText items) =
      ((requirements items).flatMap fun l => l.path?.toList ++ l.leaks) ++ singles items := by
  have hblocks : search (block? requireWord) true (unlines (items.flatMap Item.lines)) =
      items.flatMap Item.bodies := search_file rfl Item.search_block? items
  have hsingles : search (operand? requireWord) true (unlines (items.flatMap Item.lines)) =
      items.flatMap fun i => (i.single?.map String.toList).toList :=
    search_file rfl Item.search_operand? items
  have htext : (fileText items).toList = unlines (items.flatMap Item.lines) := String.toList_ofList
  have hread : requiredModules (fileText items) =
      (search (block? requireWord) true (unlines (items.flatMap Item.lines))).flatMap
          blockModules ++
        (search (operand? requireWord) true (unlines (items.flatMap Item.lines))).map
          String.ofList := by
    rw [requiredModules, htext]
    rfl
  rw [hread, hblocks, hsingles, map_flatMap_toList, List.flatMap_assoc, requirements,
    List.flatMap_assoc]
  exact congrArg (· ++ _) (List.flatMap_congr fun i _ => i.flatMap_bodies)

/-- A file names its module where the first item does. -/
theorem moduleName?_fileText (items : List Item) :
    moduleName? (fileText items) = items.findSome? Item.name? := by
  have hnames : search (named? nameWord) true (unlines (items.flatMap Item.lines)) =
      items.flatMap fun i => (i.name?.map String.toList).toList :=
    search_file rfl Item.search_named? items
  have htext : (fileText items).toList = unlines (items.flatMap Item.lines) := String.toList_ofList
  have hread : moduleName? (fileText items) =
      (search (named? nameWord) true (unlines (items.flatMap Item.lines))).head?.map
        String.ofList := by
    rw [moduleName?, htext]
    rfl
  rw [hread, hnames, ← List.head?_map, map_flatMap_toList, List.head?_filterMap]

/-- Parts that are put behind others make no difference exactly if there is nothing in them. -/
theorem flatMap_append_eq_iff {α β : Type} {f g : α → List β} {xs : List α} :
    (xs.flatMap fun x => f x ++ g x) = xs.flatMap f ↔ ∀ x ∈ xs, g x = [] := by
  constructor
  · intro heq x hx
    have hlength := congrArg List.length heq
    simp only [List.length_flatMap, List.length_append, List.sum_map_add] at hlength
    have hzero : (xs.map fun x => (g x).length).sum = 0 := by omega
    exact List.eq_nil_of_length_eq_zero
      (List.sum_eq_zero_iff.1 hzero _ (List.mem_map_of_mem hx))
  · intro h
    refine List.flatMap_congr fun x hx => ?_
    rw [h x hx, List.append_nil]

/-- The modules that a file requires: those of all blocks in order, and then those on lines of
their own. -/
def required (items : List Item) : List String :=
  (requirements items).filterMap BlockLine.path? ++ singles items

/-- A module file is read as it is written, but for the comments of its blocks: the name is that of
the module, and the modules that are read are those that are required, with what is read of each
comment behind the module of its line. They are exactly those that are required if and only if
every comment of a block that requires modules stays hidden. -/
theorem module_file_is_exact_iff {w : Files.Workspace} {items : List Item}
    (h : manifestText? w "go.mod" = some (fileText items)) :
    ∃ i, goMod w = .ok (some i) ∧
      i = { dependencies := i.dependencies, name := items.findSome? Item.name? } ∧
      i.dependencies =
        ((requirements items).flatMap fun l => l.path?.toList ++ l.leaks) ++ singles items ∧
      (i.dependencies = required items ↔
        ∀ l ∈ requirements items, ∀ c, l.comment? = some c → c.StaysHidden) := by
  refine ⟨{ dependencies := requiredModules (fileText items)
            name := moduleName? (fileText items) }, ?_, ?_, ?_, ?_⟩
  · rw [goMod, h]
    rfl
  · rw [moduleName?_fileText]
  · exact requiredModules_fileText items
  · dsimp only
    rw [requiredModules_fileText, required, List.append_cancel_right_eq,
      List.filterMap_eq_flatMap_toList, flatMap_append_eq_iff]
    -- The lists agree if and only if nothing is read of any comment.
    refine forall₂_congr fun l _ => ?_
    unfold BlockLine.leaks
    cases hcomment : l.comment? with
    | none => simp
    | some c => simpa using c.leaks_eq_nil_iff

/-- Whether characters are those of a path or a version. -/
def isOperand (cs : List Char) : Bool :=
  !cs.isEmpty && cs.all (fun c => 0x21 ≤ c.toNat && c.toNat ≤ 0x7E && c != '(' && c != ')') &&
    !"//".toList.isPrefixOf cs

/-- A path or a version that is given by its characters. -/
def Operand.of (cs : List Char) (h : isOperand cs = true) : Operand where
  chars := cs
  ne_nil := by
    rintro rfl
    cases h
  printable := by
    simp only [isOperand, Bool.and_eq_true, List.all_eq_true, decide_eq_true_eq] at h
    exact fun c hc => ⟨(h.1.2 c hc).1.1.1, (h.1.2 c hc).1.1.2⟩
  no_bracket := by
    simp only [isOperand, Bool.and_eq_true, List.all_eq_true, bne_iff_ne] at h
    exact ⟨fun hmem => (h.1.2 _ hmem).1.2 rfl, fun hmem => (h.1.2 _ hmem).2 rfl⟩
  no_comment := by
    rw [isOperand, Bool.and_eq_true, Bool.not_eq_true', Bool.eq_false_iff] at h
    exact fun hprefix => h.2 (List.isPrefixOf_iff_prefix.2 hprefix)

/-- A version. -/
def versionOne : Operand := .of "v1".toList (by decide)

/-- A comment whose second line is a comment as well. -/
def hiddenComment : Comment := ⟨" old\u2028// b v1".toList, by decide⟩

/-- A module file in which a comment of a block has a line separator. -/
def hiddenItems : List Item :=
  [.name (.of "m".toList (by decide)) none,
    .blank,
    .language (.of "1.21".toList (by decide)) none,
    .single .require (.of "c".toList (by decide)) versionOne ⟨[], none⟩,
    .block .exclude [.entry (.of "x".toList (by decide)) ⟨[versionOne], none⟩],
    .block .require
      [.entry (.of "a".toList (by decide)) ⟨[versionOne], some hiddenComment⟩,
        .comment hiddenComment]]

/-- Its comments stay hidden, and it is read as it is written. -/
theorem module_file_with_hidden_comments :
    manifestText? (ofManifest "go.mod" (fileText hiddenItems)) "go.mod" =
        some (fileText hiddenItems) ∧
      ∃ i, goMod (ofManifest "go.mod" (fileText hiddenItems)) = .ok (some i) ∧
        i.name = some "m" ∧ i.dependencies = ["a", "c"] := by
  have htext : manifestText? (ofManifest "go.mod" (fileText hiddenItems)) "go.mod" =
      some (fileText hiddenItems) :=
    manifestText?_of_bytes rfl rfl (by decide) (by decide +kernel)
  have hlines : hiddenComment.furtherLines = ["// b v1".toList] := by decide +kernel
  have hhidden : hiddenComment.StaysHidden := by
    rw [Comment.StaysHidden, hlines]
    decide
  -- The further line of the comment is evaluated; the rest is the theorem.
  obtain ⟨i, hread, hname, -, hexact⟩ := module_file_is_exact_iff htext
  refine ⟨htext, i, hread, by rw [hname]; rfl, hexact.2 fun l hl c hc => ?_⟩
  have hlist : l = .entry (.of "a".toList (by decide)) ⟨[versionOne], some hiddenComment⟩ ∨
      l = .comment hiddenComment := by simpa [requirements, hiddenItems, Item.requirements] using hl
  rcases hlist with rfl | rfl
  · obtain rfl := Option.some.inj hc
    exact hhidden
  · obtain rfl := Option.some.inj hc
    exact hhidden

/-- A module file in which a comment of a block has a form feed. -/
def leakingItems : List Item :=
  [.name (.of "m".toList (by decide)) none,
    .blank,
    .language (.of "1.21".toList (by decide)) none,
    .blank,
    .block .require
      [.entry (.of "a".toList (by decide)) ⟨[versionOne], some ⟨" x\x0cb v2".toList, by decide⟩⟩]]

/-- What stands behind the form feed is read as a module. -/
theorem module_in_comment_is_read :
    goMod (ofManifest "go.mod" (fileText leakingItems)) =
        .ok (some { dependencies := ["a", "b"], name := some "m" }) ∧
      required leakingItems = ["a"] := by
  have htext : manifestText? (ofManifest "go.mod" (fileText leakingItems)) "go.mod" =
      some (fileText leakingItems) :=
    manifestText?_of_bytes rfl rfl (by decide) (by decide +kernel)
  constructor
  · rw [goMod, htext]
    decide +kernel
  · decide

end CodeSurvey.Manifest
