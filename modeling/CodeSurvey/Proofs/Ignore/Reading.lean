import CodeSurvey.Ignore.Rule
import CodeSurvey.Proofs.Glob.Refusal

/-!
# How an ignore file is read

Each line of an ignore file is read by itself, and the rules of the file are those of its lines, one
after the other (`rulesOf_eq_flatMap`). A line whose pattern ends in a lone backslash is passed over
as a blank one is (`rulesOf_eq_of_replaced`). But a line with a range whose ends are in the wrong
order is refused, and there are no rules then, whatever the other lines are (`rulesOf_eq_error`).
-/

namespace CodeSurvey.Ignore

open CodeSurvey Glob

/-! ## One line -/

/-- The pattern of a line, without its marks. -/
def patternOf (line : List Char) : List Char := (marksOf (Text.stripBlanks line)).body

/-- A line has a pattern if it is neither blank nor a comment, nor made of marks alone. -/
def HasPattern (line : List Char) : Prop :=
  Text.stripBlanks line ≠ [] ∧ (Text.stripBlanks line).head? ≠ some '#' ∧ patternOf line ≠ []

/-- Whether the pattern of a line is matched against the whole path. -/
def isAnchored (line : List Char) : Bool :=
  (marksOf (Text.stripBlanks line)).rooted || (patternOf line).contains '/'

/-- The compiled pattern of a line and, if it may begin in any directory of a path, the one that it
is matched with below them. -/
def patternsOf (line : List Char) : Except PatternError (PathPattern × Option PathPattern) := do
  let matcher ← compile (patternOf line)
  if (marksOf (Text.stripBlanks line)).rooted || !isAnchored line then return (matcher, none)
  return (matcher, some (← compile ('*' :: '*' :: '/' :: patternOf line)))

/-- The rule of a line with its compiled patterns. -/
def ruleWith (line : List Char) (patterns : PathPattern × Option PathPattern) : Rule where
  raw := String.ofList (Text.stripBlanks line)
  body := String.ofList (patternOf line)
  negated := (marksOf (Text.stripBlanks line)).negated
  directoryOnly := (marksOf (Text.stripBlanks line)).directoryOnly
  anchored := isAnchored line
  rooted := (marksOf (Text.stripBlanks line)).rooted
  matcher := patterns.1
  anywhere := patterns.2

variable {line blank : List Char}

/-- A line without a pattern is no rule. -/
theorem ofLine?_of_not_hasPattern (h : ¬ HasPattern line) : Rule.ofLine? line = .ok none := by
  unfold Rule.ofLine?
  dsimp only
  split
  · rfl
  · rename_i hmarks
    rw [if_pos]
    by_contra hbody
    apply h
    simp only [Bool.or_eq_true, not_or, beq_iff_eq, List.isEmpty_iff] at hmarks hbody
    exact ⟨hmarks.1, hmarks.2, hbody⟩

/-- A line with a pattern is a rule if that is compiled, and else it is passed over or refused. -/
theorem ofLine?_of_hasPattern (h : HasPattern line) :
    Rule.ofLine? line = match patternsOf line with
      | .ok patterns => .ok (some (ruleWith line patterns))
      | .error .loneBackslash => .ok none
      | .error .badRange => .error .badRange := by
  obtain ⟨hraw, hcomment, hbody⟩ := h
  unfold Rule.ofLine? patternsOf
  dsimp only
  rw [if_neg (by simp [hraw, hcomment]), if_neg (by simpa [patternOf] using hbody)]
  unfold patternOf isAnchored patternOf at *
  cases compile (marksOf (Text.stripBlanks line)).body with
  | error e => cases e <;> rfl
  | ok matcher =>
    dsimp only [bind, Except.bind]
    split_ifs with hbelow
    · rfl
    · cases compile ('*' :: '*' :: '/' :: (marksOf (Text.stripBlanks line)).body) with
      | error e => cases e <;> rfl
      | ok anywhere => rfl

/-- A line is refused if it has a pattern with a range whose ends are in the wrong order. -/
def Refused (line : List Char) : Prop :=
  HasPattern line ∧ patternsOf line = .error .badRange

/-- The rules of a line by itself: one, or none. -/
def rulesOfLine (line : List Char) : List Rule :=
  match Rule.ofLine? line with
  | .ok r => r.toList
  | .error _ => []

/-- A refused line cannot be read. -/
theorem ofLine?_of_refused (h : Refused line) : Rule.ofLine? line = .error .badRange := by
  rw [ofLine?_of_hasPattern h.1, h.2]

/-- Any other line is read. -/
theorem ofLine?_of_not_refused (h : ¬ Refused line) :
    ∃ r, Rule.ofLine? line = .ok r ∧ rulesOfLine line = r.toList := by
  unfold rulesOfLine
  by_cases hpattern : HasPattern line
  · rw [ofLine?_of_hasPattern hpattern]
    cases hpatterns : patternsOf line with
    | ok patterns => exact ⟨_, rfl, rfl⟩
    | error e =>
      cases e with
      | loneBackslash => exact ⟨none, rfl, rfl⟩
      | badRange => exact absurd ⟨hpattern, hpatterns⟩ h
  · rw [ofLine?_of_not_hasPattern hpattern]
    exact ⟨none, rfl, rfl⟩

/-- The pattern of a line is a part of the line. -/
theorem patternOf_isInfix (line : List Char) : patternOf line <:+: line := by
  have hstrip (p : Char → Bool) (cs : List Char) : Text.dropEndWhile p cs <:+: cs := by
    obtain ⟨stripped, hstripped, -⟩ := Text.dropEndWhile_append_stripped p cs
    exact ⟨[], stripped, by rw [List.nil_append, ← hstripped]⟩
  have hraw : Text.stripBlanks line <:+: line :=
    (hstrip _ _).trans (List.dropWhile_suffix _).isInfix
  have hbody (cs : List Char) : (marksOf cs).body <:+: cs := by
    unfold marksOf
    split
    rename_i negated body hmark
    have hsuffix : body <:+ cs := by
      split at hmark
      · obtain ⟨-, rfl⟩ := Prod.mk.inj hmark
        exact List.suffix_cons _ _
      · obtain ⟨-, rfl⟩ := Prod.mk.inj hmark
        exact List.suffix_refl _
    exact ((List.dropWhile_suffix _).isInfix.trans (hstrip _ _)).trans hsuffix.isInfix
  exact (hbody _).trans hraw

/-- A refused line has a range whose ends are in the wrong order. -/
theorem Refused.hasBackwardRange (h : Refused line) : HasBackwardRange line := by
  have hfails := h.2
  unfold patternsOf at hfails
  refine HasBackwardRange.of_isInfix ?_ (patternOf_isInfix line)
  cases hmatcher : compile (patternOf line) with
  | error e =>
    rw [hmatcher] at hfails
    obtain rfl := Except.error.inj hfails
    exact hasBackwardRange_of_compile hmatcher
  | ok matcher =>
    rw [hmatcher] at hfails
    dsimp only [bind, Except.bind] at hfails
    split_ifs at hfails
    · cases hfails
    · cases hbelow : compile ('*' :: '*' :: '/' :: patternOf line) with
      | ok anywhere =>
        rw [hbelow] at hfails
        cases hfails
      | error e =>
        -- The range stands in the pattern of the line, behind what was put before it.
        rw [hbelow] at hfails
        obtain rfl := Except.error.inj hfails
        have hrange := hasBackwardRange_of_compile hbelow
        exact ((hrange.of_cons (by decide)).of_cons (by decide)).of_cons (by decide)

/-! ## All lines -/

/-- Reads several lines one after the other, after some rules. -/
def readLines (rules : List Rule) (lines : List (List Char)) : Except PatternError (List Rule) :=
  lines.foldlM (fun rules line => (Rule.ofLine? line).map fun r => rules ++ r.toList) rules

variable {text : String}

/-- Lines that are not refused are read to the rules of each of them. -/
theorem readLines_eq_ok {lines : List (List Char)} (h : ∀ line ∈ lines, ¬ Refused line)
    (rules : List Rule) : readLines rules lines = .ok (rules ++ lines.flatMap rulesOfLine) := by
  induction lines generalizing rules with
  | nil => rw [List.flatMap_nil, List.append_nil]; rfl
  | cons line lines ih =>
    obtain ⟨hline, hlines⟩ := List.forall_mem_cons.1 h
    obtain ⟨r, hread, hrules⟩ := ofLine?_of_not_refused hline
    calc readLines rules (line :: lines)
        = readLines (rules ++ r.toList) lines := by
          rw [readLines, List.foldlM_cons, hread]
          rfl
      _ = .ok (rules ++ (line :: lines).flatMap rulesOfLine) := by
          rw [ih hlines, List.flatMap_cons, hrules, List.append_assoc]

/-- A refused line among them is an error, whatever the others are. -/
theorem readLines_eq_error {lines : List (List Char)} (h : ∃ line ∈ lines, Refused line)
    (rules : List Rule) : readLines rules lines = .error .badRange := by
  induction lines generalizing rules with
  | nil =>
    obtain ⟨line, hline, -⟩ := h
    cases hline
  | cons line lines ih =>
    -- The rules of the lines before the refused one are read, and thrown away with it.
    by_cases hline : Refused line
    · rw [readLines, List.foldlM_cons, ofLine?_of_refused hline]
      rfl
    · obtain ⟨r, hread, -⟩ := ofLine?_of_not_refused hline
      obtain ⟨line', hmem, hrefused⟩ := h
      have hlater : line' ∈ lines := by
        apply (List.mem_cons.1 hmem).resolve_left
        rintro rfl
        exact hline hrefused
      calc readLines rules (line :: lines)
          = readLines (rules ++ r.toList) lines := by
            rw [readLines, List.foldlM_cons, hread]
            rfl
        _ = .error .badRange := ih ⟨line', hlater, hrefused⟩ _

/-- The rules of an ignore file without a refused line are those of its lines, in order. -/
theorem rulesOf_eq_flatMap (h : ∀ line ∈ Text.lineLists text.toList, ¬ Refused line) :
    rulesOf text = .ok ((Text.lineLists text.toList).flatMap rulesOfLine) :=
  readLines_eq_ok h []

/-- An ignore file with a refused line has no rules. -/
theorem rulesOf_eq_error (h : ∃ line ∈ Text.lineLists text.toList, Refused line) :
    rulesOf text = .error .badRange :=
  readLines_eq_error h []

/-- Lines that are no rules may be replaced by each other. -/
theorem rulesOf_eq_of_replaced {text' : String} {before after : List (List Char)}
    (htext : Text.lineLists text.toList = before ++ line :: after)
    (htext' : Text.lineLists text'.toList = before ++ blank :: after)
    (hline : Rule.ofLine? line = .ok none) (hblank : Rule.ofLine? blank = .ok none) :
    rulesOf text' = rulesOf text := by
  unfold rulesOf
  rw [htext, htext', List.foldlM_append, List.foldlM_append]
  congr 1
  funext rules
  rw [List.foldlM_cons, List.foldlM_cons, hline, hblank]

/-- The text of an ignore file is read line by line, and a line that is refused is an error. -/
structure ReadsByLine (text : String) : Prop where
  rules : (∀ line ∈ Text.lineLists text.toList, ¬ Refused line) →
    rulesOf text = .ok ((Text.lineLists text.toList).flatMap rulesOfLine)
  error : (∃ line ∈ Text.lineLists text.toList, Refused line) → rulesOf text = .error .badRange
  /-- A line with a lone backslash at the end of its pattern is as good as a blank line. -/
  passedOver : ∀ text' before line blank after,
    Text.lineLists text.toList = before ++ line :: after →
    Text.lineLists text'.toList = before ++ blank :: after →
    patternsOf line = .error .loneBackslash → Text.stripBlanks blank = [] →
      rulesOf text' = rulesOf text

/-- So are all texts read. -/
theorem readsByLine (text : String) : ReadsByLine text where
  rules := rulesOf_eq_flatMap
  error := rulesOf_eq_error
  passedOver := by
    intro text' before line blank after htext htext' hlone hblank
    refine rulesOf_eq_of_replaced htext htext' ?_ ?_
    · by_cases hpattern : HasPattern line
      · rw [ofLine?_of_hasPattern hpattern, hlone]
      · exact ofLine?_of_not_hasPattern hpattern
    · exact ofLine?_of_not_hasPattern fun hpattern => hpattern.1 hblank

end CodeSurvey.Ignore
