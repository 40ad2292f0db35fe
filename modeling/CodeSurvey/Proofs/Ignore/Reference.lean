import CodeSurvey.Proofs.Glob.Plain
import CodeSurvey.Proofs.Ignore.Decision
import CodeSurvey.Proofs.Ignore.Reading
import CodeSurvey.Proofs.Text.Lines

/-!
# What plain lines of an ignore file mean

A plain line is a pattern of plain segments, maybe with a slash before and after it. It says what it
matches segment by segment: with a slash before it the names that a path begins with, otherwise the
last name, or names one after the other anywhere if there are several segments
(`PlainLine.MatchesAt`). A file of plain lines ignores what one of them matches, and what lies below
that (`plain_lines_match_by_segments`).

On the way from a line to what it matches are its marks (`PlainLine.marksOf_chars`), the patterns
that it is compiled to (`PlainLine.patternsOf_chars`), and the text that these are matched against,
which is a path or the last name on it (`PlainLine.hits_rule`).
-/

namespace CodeSurvey.Ignore

open CodeSurvey Glob

/-- A slash, or nothing. -/
def slashIf (b : Bool) : List Char := if b then ['/'] else []

/-- A line of an ignore file that is plain: its segments, and the slashes around them. -/
structure PlainLine where
  /-- Whether there is a slash before the segments. -/
  rooted : Bool
  segments : List (List Char)
  /-- Whether there is a slash after them. -/
  directoryOnly : Bool
  ne_nil : segments ≠ []
  plain : ∀ seg ∈ segments, IsPlainSegment seg

namespace PlainLine

/-- The segments with a slash between each two of them. -/
def body (l : PlainLine) : List Char := List.intercalate ['/'] l.segments

/-- The line as it is written. -/
def chars (l : PlainLine) : List Char :=
  slashIf l.rooted ++ l.body ++ slashIf l.directoryOnly

/-- A path is matched where the segments match some names on it one by one: those that it begins
with if the line is rooted, else the last one if there is one segment, and any otherwise. -/
def MatchesAt (l : PlainLine) (names : List (List Char)) : Prop :=
  ∃ run, (if l.rooted then run <+: names
    else if l.segments.length = 1 then run <:+ names
    else run <:+: names) ∧ Match l.segments run

/-- A line applies on the way to a path if it matches the path or a directory above it. A line for
directories only does not apply at the path itself unless that is a directory. -/
def AppliesOnTheWay (l : PlainLine) (path : List String) (isDir : Bool) : Prop :=
  ∃ q, q ≠ [] ∧ q <+: path ∧ l.MatchesAt (q.map String.toList) ∧
    (l.directoryOnly = true → q ≠ path ∨ isDir = true)

variable (l : PlainLine)

/-! ## The marks of a line -/

/-- A character of the segments is a slash or plain. -/
theorem mem_body {c : Char} (hc : c ∈ l.body) : c = '/' ∨ isPlain c = true := by
  refine (Text.exists_of_mem_intercalate hc).imp_right ?_
  rintro ⟨seg, hseg, hmem⟩
  exact (l.plain seg hseg).plain c hmem

/-- So is every character of the line. -/
theorem mem_chars {c : Char} (hc : c ∈ l.chars) : c = '/' ∨ isPlain c = true := by
  have hslash (b : Bool) (h : c ∈ slashIf b) : c = '/' := by
    cases b
    · cases h
    · exact List.mem_singleton.1 h
  rcases List.mem_append.1 hc with hc | hc
  · rcases List.mem_append.1 hc with hc | hc
    · exact .inl (hslash _ hc)
    · exact l.mem_body hc
  · exact .inl (hslash _ hc)

/-- The segments begin with a plain character. -/
theorem exists_head_body : ∃ c rest, l.body = c :: rest ∧ isPlain c = true := by
  obtain ⟨seg, segs, hsegs⟩ := List.exists_cons_of_ne_nil l.ne_nil
  have hseg := l.plain seg (by rw [hsegs]; exact List.mem_cons_self)
  obtain ⟨c, rest, rfl⟩ := List.exists_cons_of_ne_nil hseg.ne_nil
  refine ⟨c, rest ++ afterName segs, ?_, hseg.plain c List.mem_cons_self⟩
  rw [body, hsegs, intercalate_cons, List.cons_append]

/-- They end with a plain character. -/
theorem exists_last_body : ∃ before d, l.body = before ++ [d] ∧ isPlain d = true := by
  obtain ⟨segs, seg, hsegs⟩ := (List.eq_nil_or_concat l.segments).resolve_left l.ne_nil
  rw [List.concat_eq_append] at hsegs
  have hseg := l.plain seg (by rw [hsegs]; exact List.mem_append_right _ List.mem_cons_self)
  obtain ⟨before, d, hd⟩ := (List.eq_nil_or_concat seg).resolve_left hseg.ne_nil
  rw [List.concat_eq_append] at hd
  have hplain : isPlain d = true :=
    hseg.plain d (by rw [hd]; exact List.mem_append_right _ List.mem_cons_self)
  rw [body, hsegs]
  by_cases hfirst : segs = []
  · subst hfirst
    exact ⟨before, d, by rw [List.nil_append, List.intercalate_singleton, hd], hplain⟩
  · refine ⟨List.intercalate ['/'] segs ++ '/' :: before, d, ?_, hplain⟩
    rw [Text.intercalate_append hfirst (List.cons_ne_nil _ _), List.intercalate_singleton, hd,
      List.append_assoc, List.cons_append]

/-- There is no white space around a plain line. -/
theorem stripBlanks_chars : Text.stripBlanks l.chars = l.chars := by
  -- Nothing is stripped where no character at all is white space.
  have hblank : ∀ c ∈ l.chars, Text.isBlank c = false := by
    intro c hc
    rcases l.mem_chars hc with rfl | hplain
    · rfl
    · exact isBlank_of_isPlain hplain
  apply Text.stripBy_eq_self
  · exact fun c hc => hblank c (List.mem_of_mem_head? hc)
  · exact fun c hc => hblank c (List.mem_of_getLast? hc)

/-- A slash at the start is seen and taken off before a character that is none. -/
theorem start_slashIf {c : Char} (hc : c ≠ '/') (b : Bool) (cs : List Char) :
    ((slashIf b ++ c :: cs).head? == some '/') = b ∧
      (slashIf b ++ c :: cs).dropWhile (· == '/') = c :: cs := by
  cases b <;> simp [slashIf, hc]

/-- So is one at the end behind such a character. -/
theorem end_slashIf {d : Char} (hd : d ≠ '/') (b : Bool) (cs : List Char) :
    ((cs ++ [d] ++ slashIf b).getLast? == some '/') = b ∧
      Text.dropEndWhile (· == '/') (cs ++ [d] ++ slashIf b) = cs ++ [d] := by
  cases b <;> simp [slashIf, Text.dropEndWhile, hd]

/-- Without an exclamation mark the marks of a line are the slashes at its ends. -/
theorem marksOf_of_head_ne {raw : List Char} (h : raw.head? ≠ some '!') :
    marksOf raw =
      ⟨false, raw.getLast? == some '/', (Text.dropEndWhile (· == '/') raw).head? == some '/',
        (Text.dropEndWhile (· == '/') raw).dropWhile (· == '/')⟩ := by
  unfold marksOf
  split
  rename_i negated body hmark
  split at hmark
  · exact absurd rfl h
  · obtain ⟨rfl, rfl⟩ := Prod.mk.inj hmark
    rfl

/-- The marks of a plain line are the slashes around its segments. -/
theorem marksOf_chars : marksOf l.chars = ⟨false, l.directoryOnly, l.rooted, l.body⟩ := by
  have hmark : l.chars.head? ≠ some '!' := fun hfirst =>
    absurd (l.mem_chars (List.mem_of_mem_head? hfirst)) (by decide)
  obtain ⟨c, rest, hfirst, hc⟩ := l.exists_head_body
  obtain ⟨before, d, hlast, hd⟩ := l.exists_last_body
  obtain ⟨hrooted, hbody⟩ := start_slashIf (ne_of_isPlain hc (by decide)) l.rooted rest
  obtain ⟨hdirectory, hcut⟩ :=
    end_slashIf (ne_of_isPlain hd (by decide)) l.directoryOnly (slashIf l.rooted ++ before)
  -- The slash at the end is taken off first, with what may stand before the segments in place.
  rw [← hfirst] at hrooted hbody
  rw [List.append_assoc (slashIf l.rooted), ← hlast, ← chars] at hdirectory hcut
  rw [marksOf_of_head_ne hmark, hdirectory, hcut, hrooted, hbody]

/-! ## The rule of a line -/

/-- The pattern of a plain line is its segments. -/
theorem patternOf_chars : patternOf l.chars = l.body := by
  rw [patternOf, stripBlanks_chars, marksOf_chars]

/-- There is a pattern in a plain line. -/
theorem hasPattern_chars : HasPattern l.chars := by
  obtain ⟨c, rest, hbody, -⟩ := l.exists_head_body
  have hne : l.body ≠ [] := by rw [hbody]; exact List.cons_ne_nil _ _
  refine ⟨?_, ?_, by rwa [patternOf_chars]⟩
  · rw [stripBlanks_chars, chars]
    exact List.append_ne_nil_of_left_ne_nil (List.append_ne_nil_of_right_ne_nil _ hne) _
  · rw [stripBlanks_chars]
    intro hcomment
    exact absurd (l.mem_chars (List.mem_of_mem_head? hcomment)) (by decide)

/-- It is matched against the whole path if it is rooted or has several segments. -/
theorem isAnchored_chars : isAnchored l.chars = (l.rooted || decide (l.segments.length ≠ 1)) := by
  -- Between each two segments there is a slash, and there is none in a segment.
  have hcount : l.segments.length = l.body.count '/' + 1 := by
    rw [← Text.length_splitOn, body, splitOn_plain l.ne_nil l.plain]
  have hslash : '/' ∈ l.body ↔ l.segments.length ≠ 1 := by
    rw [← List.count_pos_iff]
    omega
  rw [isAnchored, patternOf_chars, stripBlanks_chars, marksOf_chars]
  dsimp only
  congr 1
  rw [Bool.eq_iff_iff, List.contains_iff_mem, hslash, decide_eq_true_iff]

/-- What a plain line is compiled to. -/
def patterns : PathPattern × Option PathPattern :=
  (.parts (chain l.segments),
    if l.rooted || !isAnchored l.chars then none
    else some (.parts (.anyStart :: chain l.segments)))

/-- A plain line is compiled to its patterns. -/
theorem patternsOf_chars : patternsOf l.chars = .ok l.patterns := by
  rw [patternsOf, patternOf_chars, patterns, body, compile_plain l.ne_nil l.plain,
    stripBlanks_chars, marksOf_chars]
  dsimp only [bind, Except.bind]
  split_ifs with hname
  · rfl
  · -- Directories before a star by itself are compiled to another pattern, but such a line has no
    -- slash.
    have htwo : l.segments ≠ [['*']] := by
      intro hone
      rw [isAnchored_chars, hone] at hname
      cases hrooted : l.rooted <;> simp [hrooted] at hname
    rw [compile_anywhere l.ne_nil l.plain htwo]
    rfl

/-- The rule of a plain line. -/
def rule : Rule := ruleWith l.chars l.patterns

/-- It is read as its rule. -/
theorem ofLine?_chars : Rule.ofLine? l.chars = .ok (some l.rule) := by
  rw [ofLine?_of_hasPattern l.hasPattern_chars, patternsOf_chars]
  rfl

/-- It takes nothing in again. -/
theorem rule_negated : l.rule.negated = false := by
  show (marksOf (Text.stripBlanks l.chars)).negated = false
  rw [stripBlanks_chars, marksOf_chars]

/-- The rule is anchored if the line is rooted or has several segments. -/
theorem rule_anchored : l.rule.anchored = (l.rooted || decide (l.segments.length ≠ 1)) :=
  l.isAnchored_chars

/-- It is for directories if a slash ends the line. -/
theorem rule_directoryOnly : l.rule.directoryOnly = l.directoryOnly := by
  show (marksOf (Text.stripBlanks l.chars)).directoryOnly = l.directoryOnly
  rw [stripBlanks_chars, marksOf_chars]

/-- It is matched segment by segment. -/
theorem rule_matcher : l.rule.matcher = .parts (chain l.segments) := by rfl

/-- And below any directories as well, if it has several segments and is not rooted. -/
theorem rule_anywhere : l.rule.anywhere =
    if l.rooted || !isAnchored l.chars then none
    else some (.parts (.anyStart :: chain l.segments)) := by
  rfl

/-! ## What the rule matches -/

/-- One segment matches names at the start of a path of one name if it matches names at the end of a
path that ends with this one. -/
theorem beginsWith_last {segs before : List (List Char)} {name : List Char}
    (hone : segs.length = 1) :
    BeginsWith segs [name] ↔ ∃ run, run <:+ before ++ [name] ∧ Match segs run := by
  have hlast : [name] <:+ before ++ [name] := List.suffix_append _ _
  refine exists_congr fun run => and_congr_left fun hmatch => ?_
  -- Names that one segment matches are one name, and this is the last one either way.
  have hlength : run.length = [name].length := by
    rw [← List.Forall₂.length_eq hmatch, hone, List.length_singleton]
  constructor
  · intro hstart
    rwa [hstart.eq_of_length hlength]
  · intro hsuffix
    have hrun := List.suffix_of_suffix_length_le hsuffix hlast (Nat.le_of_eq hlength)
    rw [hrun.eq_of_length hlength]

/-- The rule of a plain line hits a path where the line matches it. -/
theorem hits_rule {before : List (List Char)} {name : List Char}
    (hnames : ∀ n ∈ before ++ [name], IsName n) :
    l.rule.hits (List.intercalate ['/'] (before ++ [name])) name = true ↔
      l.MatchesAt (before ++ [name]) := by
  have hne : before ++ [name] ≠ [] := List.append_ne_nil_of_right_ne_nil _ (List.cons_ne_nil _ _)
  have hstart := matchesPath_chain l.ne_nil l.plain hne hnames
  rw [Rule.hits, rule_anchored, rule_matcher, rule_anywhere, isAnchored_chars, MatchesAt]
  cases l.rooted with
  | true => simpa [BeginsWith] using hstart
  | false =>
    by_cases hone : l.segments.length = 1
    · -- One segment is matched against the name at the end of the path.
      have hname : ∀ n ∈ [name], IsName n := fun n hn =>
        hnames n (List.mem_append_right _ hn)
      have hlast := matchesPath_chain l.ne_nil l.plain (List.cons_ne_nil _ _) hname
      rw [List.intercalate_singleton] at hlast
      simpa [hone] using hlast.trans (beginsWith_last hone)
    · -- What is matched at the start of the path is matched somewhere.
      have hanywhere := matchesPath_anywhere l.ne_nil l.plain hne hnames
      have himp : BeginsWith l.segments (before ++ [name]) →
          ∃ run, run <:+: before ++ [name] ∧ Match l.segments run := by
        rintro ⟨run, hrun, hmatch⟩
        exact ⟨run, hrun.isInfix, hmatch⟩
      simp only [hone, Bool.false_or, ne_eq, not_false_eq_true, decide_true, if_true,
        Bool.not_true, Bool.false_eq_true, if_false, Bool.or_eq_true, hstart, hanywhere]
      exact or_iff_right_of_imp himp

/-- The rule of a plain line applies where the line matches. -/
theorem appliesAt_rule {q : List String} (hne : q ≠ [])
    (hnames : ∀ name ∈ q, IsName name.toList) {isDir : Bool} :
    l.rule.AppliesAt q isDir ↔
      (l.directoryOnly = false ∨ isDir = true) ∧ l.MatchesAt (q.map String.toList) := by
  obtain ⟨before, name, hq⟩ := (List.eq_nil_or_concat q).resolve_left hne
  rw [List.concat_eq_append] at hq
  subst hq
  -- The path and its last name as the rule looks at them.
  have htext : (Files.pathText (before ++ [name])).toList =
      List.intercalate ['/'] (before.map String.toList ++ [name.toList]) := by
    rw [Files.pathText, Text.toList_join, List.map_append, List.map_singleton]
    rfl
  have hlast : (((before ++ [name]).getLast?).getD "").toList = name.toList := by
    rw [List.getLast?_concat, Option.getD_some]
  have hnames' : ∀ n ∈ before.map String.toList ++ [name.toList], IsName n := by
    intro n hn
    rw [← List.map_singleton, ← List.map_append] at hn
    obtain ⟨s, hs, rfl⟩ := List.mem_map.1 hn
    exact hnames s hs
  rw [Rule.AppliesAt, rule_directoryOnly, htext, hlast, hits_rule l hnames', List.map_append,
    List.map_singleton]

/-- So does it on the way to a path. -/
theorem appliesOnTheWay_iff {path : List String} (hnames : ∀ name ∈ path, IsName name.toList)
    {isDir : Bool} :
    l.AppliesOnTheWay path isDir ↔
      ∃ q isDir', OnTheWay path isDir q isDir' ∧ l.rule.AppliesAt q isDir' := by
  have hnamesOf {q : List String} (hq : q <+: path) : ∀ name ∈ q, IsName name.toList :=
    fun name hname => hnames name (hq.subset hname)
  constructor
  · rintro ⟨q, hne, hq, hmatch, hdirectory⟩
    have happlies (isDir' : Bool) : (l.directoryOnly = false ∨ isDir' = true) →
        l.rule.AppliesAt q isDir' :=
      fun hkind => (l.appliesAt_rule hne (hnamesOf hq)).2 ⟨hkind, hmatch⟩
    by_cases hpath : q = path
    · -- At the path itself it depends on what the path is.
      subst hpath
      refine ⟨q, isDir, ⟨hne, .inr ⟨rfl, rfl⟩⟩, happlies isDir ?_⟩
      cases honly : l.directoryOnly with
      | false => exact .inl rfl
      | true => exact .inr ((hdirectory honly).resolve_left fun h => h rfl)
    · exact ⟨q, true, ⟨hne, .inl ⟨hq, hpath, rfl⟩⟩, happlies true (.inr rfl)⟩
  · rintro ⟨q, isDir', ⟨hne, hway⟩, happlies⟩
    have hq : q <+: path := by
      rcases hway with ⟨hq, -, -⟩ | ⟨rfl, -⟩
      · exact hq
      · exact List.prefix_rfl
    obtain ⟨hdirectory, hmatch⟩ := (l.appliesAt_rule hne (hnamesOf hq)).1 happlies
    refine ⟨q, hne, hq, hmatch, fun honly => ?_⟩
    rcases hway with ⟨-, hpath, -⟩ | ⟨-, rfl⟩
    · exact .inl hpath
    · rw [honly] at hdirectory
      exact .inr (hdirectory.resolve_left Bool.true_eq_false.mp)

end PlainLine

/-! ## A file of plain lines -/

/-- The text of an ignore file with the given lines. -/
def plainText (lines : List PlainLine) : String :=
  String.ofList (List.intercalate ['\n'] (lines.map PlainLine.chars))

/-- Plain lines are the lines of their text. -/
theorem lineLists_plainText (lines : List PlainLine) :
    Text.lineLists (plainText lines).toList = lines.map PlainLine.chars := by
  rw [plainText, String.toList_ofList]
  apply Text.lineLists_intercalate
  intro cs hcs
  obtain ⟨l, -, rfl⟩ := List.mem_map.1 hcs
  constructor
  · intro hnil
    apply l.hasPattern_chars.1
    rw [hnil]
    rfl
  · intro c hc
    rcases l.mem_chars hc with rfl | hplain
    · rfl
    · exact isLineEnd_of_isPlain hplain

/-- The rules of a file of plain lines are the rules of these. -/
theorem rulesOf_plain {lines : List PlainLine} {text : String}
    (htext : Text.lineLists text.toList = lines.map PlainLine.chars) :
    rulesOf text = .ok (lines.map PlainLine.rule) := by
  -- A plain line has a rule, which a refused one would not have.
  have hread : ∀ l ∈ lines, ¬ Refused l.chars := by
    intro l _ hrefused
    have hline := (ofLine?_of_refused hrefused).symm.trans l.ofLine?_chars
    cases hline
  have hrule (l : PlainLine) : rulesOfLine l.chars = [l.rule] := by
    rw [rulesOfLine, l.ofLine?_chars]
    rfl
  rw [rulesOf_eq_flatMap, htext, List.flatMap_map]
  · simp only [hrule, List.map_eq_flatMap]
  · rw [htext]
    exact List.forall_mem_map.2 hread

/-- Without denied names the rules of plain lines ignore a path if a line applies on the way to
it. -/
theorem ignores_plain (lines : List PlainLine) {path : List String}
    (hnames : ∀ name ∈ path, IsName name.toList) (isDir : Bool) :
    (⟨lines.map PlainLine.rule, []⟩ : Matcher).ignores (Files.pathText path) isDir = true ↔
      ∃ l ∈ lines, l.AppliesOnTheWay path isDir := by
  -- The root has no name, and its text has no segment.
  have hsegments : segments (Files.pathText path) = path := by
    by_cases hne : path = []
    · rw [hne]
      rfl
    · apply segments_pathText hne
      intro name hname
      refine ⟨?_, fun hslash => (hnames name hname).unslashed '/' hslash rfl⟩
      rintro rfl
      exact (hnames _ hname).ne_nil rfl
  have hexcluded (q : List String) (isDir' : Bool) :
      ExcludedBy (lines.map PlainLine.rule) q isDir' ↔ ∃ l ∈ lines, l.rule.AppliesAt q isDir' := by
    simp [ExcludedBy, PlainLine.rule_negated]
  rw [Matcher.ignores_iff, hsegments]
  simp only [hexcluded, PlainLine.appliesOnTheWay_iff _ hnames]
  constructor
  · rintro (⟨name, -, hdenied⟩ | ⟨q, isDir', hway, l, hl, happlies⟩)
    · cases hdenied
    · exact ⟨l, hl, q, isDir', hway, happlies⟩
  · rintro ⟨l, hl, q, isDir', hway, happlies⟩
    exact .inr ⟨q, isDir', hway, l, hl, happlies⟩

/-- Any plain lines are the lines of some text. A text of such lines is read, and its rules ignore a
path of names if and only if one of the lines applies on the way to it. -/
theorem plain_lines_match_by_segments (lines : List PlainLine) :
    Text.lineLists (plainText lines).toList = lines.map PlainLine.chars ∧
      ∀ text : String, Text.lineLists text.toList = lines.map PlainLine.chars →
        ∃ rules, rulesOf text = .ok rules ∧
          ∀ (path : List String) (isDir : Bool), (∀ name ∈ path, IsName name.toList) →
            ((⟨rules, []⟩ : Matcher).ignores (Files.pathText path) isDir = true ↔
              ∃ l ∈ lines, l.AppliesOnTheWay path isDir) := by
  refine ⟨lineLists_plainText lines, fun text htext => ?_⟩
  refine ⟨lines.map PlainLine.rule, rulesOf_plain htext, fun path isDir hnames => ?_⟩
  exact ignores_plain lines hnames isDir

/-- The lines `docs/*.m?` and `/out/`. -/
def pagesAndOutput : List PlainLine :=
  [⟨false, ["docs".toList, "*.m?".toList], false, by decide, by decide⟩,
    ⟨true, ["out".toList], true, by decide, by decide⟩]

/-- They ignore a page in any directory `docs`. -/
theorem plain_lines_ignore_page :
    Text.lineLists "docs/*.m?\r\n/out/\n".toList = pagesAndOutput.map PlainLine.chars ∧
      (∀ name ∈ ["lib", "docs", "main.md"], IsName name.toList) ∧
        ∃ rules, rulesOf "docs/*.m?\r\n/out/\n" = .ok rules ∧
          (⟨rules, []⟩ : Matcher).ignores "lib/docs/main.md" false = true := by
  have htext : Text.lineLists "docs/*.m?\r\n/out/\n".toList =
      pagesAndOutput.map PlainLine.chars := by decide
  have hnames : ∀ name ∈ ["lib", "docs", "main.md"], IsName name.toList := by decide
  have happlies : ∃ l ∈ pagesAndOutput, l.AppliesOnTheWay ["lib", "docs", "main.md"] false := by
    refine ⟨_, List.mem_cons_self, ["lib", "docs", "main.md"], List.cons_ne_nil _ _,
      List.prefix_rfl, ⟨["docs".toList, "main.md".toList], ?_, ?_⟩, ?_⟩
    · exact ⟨["lib".toList], [], rfl⟩
    · exact .cons (by decide) (.cons (by decide) .nil)
    · intro honly
      cases honly
  obtain ⟨rules, hrules, hignores⟩ := (plain_lines_match_by_segments pagesAndOutput).2 _ htext
  exact ⟨htext, hnames, rules, hrules, (hignores _ false hnames).2 happlies⟩

end CodeSurvey.Ignore
