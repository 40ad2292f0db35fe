import CodeSurvey.Proofs.DataModel.Block
import Mathlib.Data.List.Infix

/-!
# Schemas as they are written

A schema is written item by item, with one thing on each line: blocks of models, enumerations and
settings, and lines between them. `Item.chars` is its text and `Item.entity?` and
`Item.enumeration?` are what it declares; a block that is not closed declares nothing. Each line of
a block is read back to what was written in it (`FieldText.fieldOfLine?_text`,
`ValueText.head?_wordLists`), and those of a body that declare something are found again
(`Frame.bodyLines_body`).
-/

namespace CodeSurvey.DataModel.Schema

open CodeSurvey.Text

/-! ## Parts of lines -/

/-- A text within a line, without braces. -/
structure LineText where
  chars : List Char
  one_line : ∀ c ∈ chars, isLineEnd c = false
  no_brace : ∀ c ∈ chars, ¬ braces.Has c

/-- White space within a line. -/
structure Gap where
  chars : List Char
  one_line : ∀ c ∈ chars, isLineEnd c = false
  isBlank : ∀ c ∈ chars, isBlank c = true

/-- A name, or another word. -/
structure Word where
  chars : List Char
  ne_nil : chars ≠ []
  isWord : ∀ c ∈ chars, isWord c = true

/-- What follows on a line, with white space before it, or nothing. -/
structure Attributes extends LineText where
  apart : ∀ c, chars.head? = some c → isBlank c = true
  ends : ∀ c, chars.getLast? = some c → isBlank c = false

/-- Braces are no white space. -/
theorem isBlank_of_brace {c : Char} (h : braces.Has c) : Text.isBlank c = false := by
  rcases has_braces_iff.1 h with rfl | rfl <;> decide

/-- Braces are no characters of words. -/
theorem isWord_of_brace {c : Char} (h : braces.Has c) : Text.isWord c = false := by
  rcases has_braces_iff.1 h with rfl | rfl <;> decide

/-- White space on a line is a plain text. -/
def Gap.text (g : Gap) : LineText where
  chars := g.chars
  one_line := g.one_line
  no_brace := fun c hc h => by
    have hblank := g.isBlank c hc
    rw [isBlank_of_brace h] at hblank
    cases hblank

/-- So is a word. -/
def Word.text (w : Word) : LineText where
  chars := w.chars
  one_line := fun c hc => by
    by_contra hend
    have hblank := isBlank_of_isLineEnd (by simpa using hend)
    rw [isBlank_of_isWord (w.isWord c hc)] at hblank
    cases hblank
  no_brace := fun c hc h => by
    have hword := w.isWord c hc
    rw [isWord_of_brace h] at hword
    cases hword

/-- Marks of the language: a text that is plain by inspection. -/
def LineText.ofMarks (marks : List Char)
    (h : marks.all (fun c => !isLineEnd c && !braces.Has c) = true := by decide) : LineText where
  chars := marks
  one_line := fun c hc => by
    have htest := List.all_eq_true.1 h c hc
    simp only [Bool.and_eq_true, Bool.not_eq_true'] at htest
    exact htest.1
  no_brace := fun c hc => by
    have htest := List.all_eq_true.1 h c hc
    simp only [Bool.and_eq_true, Bool.not_eq_true', decide_eq_false_iff_not] at htest
    exact htest.2

instance : Append LineText where
  append a b :=
    { chars := a.chars ++ b.chars
      one_line := List.forall_mem_append.2 ⟨a.one_line, b.one_line⟩
      no_brace := List.forall_mem_append.2 ⟨a.no_brace, b.no_brace⟩ }

/-- The characters of two texts, one behind the other. -/
theorem LineText.chars_append (a b : LineText) : (a ++ b).chars = a.chars ++ b.chars := rfl

/-! ## Lines -/

/-- A line of a model that declares a field. -/
structure FieldText where
  name : Word
  gap : Gap
  gap_ne_nil : gap.chars ≠ []
  type : Word
  isArray : Bool
  optional : Bool
  attributes : Attributes

/-- The marks behind a type. -/
def FieldText.marks (f : FieldText) : LineText :=
  (if f.isArray then .ofMarks ['[', ']'] else .ofMarks []) ++
    (if f.optional then .ofMarks ['?'] else .ofMarks [])

/-- The line of a field as it is written. -/
def FieldText.text (f : FieldText) : LineText :=
  f.name.text ++ f.gap.text ++ f.type.text ++ f.marks ++ f.attributes.toLineText

/-- The type of the language that a type of the schema stands for. -/
def scalar? (type : Word) : Option String := scalarTypes.lookup (String.ofList type.chars)

/-- The field that a line declares. -/
def FieldText.field (f : FieldText) : Field where
  name := String.ofList f.name.chars
  type := (scalar? f.type).getD (String.ofList f.type.chars)
  optional := f.optional
  isArray := f.isArray
  isRelation := decide ("@relation".toList <:+: f.text.chars) ||
    ((scalar? f.type).isNone && isUpper (f.type.chars.head f.type.ne_nil))

/-- A line of an enumeration that declares a value. -/
structure ValueText where
  name : Word
  attributes : Attributes

/-- The line of a value as it is written. -/
def ValueText.text (v : ValueText) : LineText := v.name.text ++ v.attributes.toLineText

/-- A line of a block: it declares something, or it is blank, a comment or a setting of the whole
block. -/
inductive Line (α : Type) where
  | declares (indent : Gap) (what : α) (after : Gap)
  | blank (space : Gap)
  | comment (indent : Gap) (text : LineText)
  | setting (indent : Gap) (text : LineText)

namespace Line

variable {α : Type}

/-- What the line declares. -/
def declared? : Line α → Option α
  | declares _ what _ => some what
  | _ => none

/-- The line as it is written, given how what it declares is. -/
def text (write : α → LineText) : Line α → LineText
  | declares indent what after => indent.text ++ write what ++ after.text
  | blank space => space.text
  | comment indent text => indent.text ++ .ofMarks ['/', '/'] ++ text
  | setting indent text => indent.text ++ .ofMarks ['@', '@'] ++ text

end Line

/-! ## Blocks -/

/-- How a block is laid out: the white space in it, and its name. -/
structure Frame where
  indent : Gap
  gap : Gap
  gap_ne_nil : gap.chars ≠ []
  name : Word
  space : Gap
  after : Gap
  /-- White space before and after the closing brace. -/
  closing : Gap × Gap

/-- The heading of a block that is laid out so, with the word for its kind. -/
def Frame.heading (f : Frame) (word : Word) : Heading where
  word := word.chars
  gap := f.gap.chars
  name := f.name.chars
  space := f.space.chars
  word_ne_nil := word.ne_nil
  isWord_word := word.isWord
  gap_ne_nil := f.gap_ne_nil
  isBlank_gap := f.gap.isBlank
  name_ne_nil := f.name.ne_nil
  isWord_name := f.name.isWord
  isBlank_space := f.space.isBlank

/-- The word for a kind of blocks. -/
def BlockKind.toWord (kind : BlockKind) : Word where
  chars := kind.word
  ne_nil := kind.word_ne_nil
  isWord := kind.isWord_word

/-- What stands between the braces of a block. -/
def Frame.body (f : Frame) (lines : List LineText) : List Char :=
  f.after.chars ++ '\n' :: (unlines (lines.map LineText.chars) ++ f.closing.1.chars)

/-- The text of a block, with its closing brace or cut off before it. -/
def Frame.chars (f : Frame) (word : Word) (lines : List LineText) (isClosed : Bool) : List Char :=
  f.indent.chars ++ (f.heading word).chars ++ f.after.chars ++ '\n' ::
    (unlines (lines.map LineText.chars) ++
      if isClosed then f.closing.1.chars ++ '\x7d' :: (f.closing.2.chars ++ ['\n']) else [])

/-- A part of a schema: a block, or a line that is in none. -/
inductive Item where
  | model (frame : Frame) (lines : List (Line FieldText)) (isClosed : Bool)
  | enumeration (frame : Frame) (lines : List (Line ValueText)) (isClosed : Bool)
  /-- A block that declares nothing, such as that of a data source or a generator. -/
  | settings (word : Word) (other : ∀ kind : BlockKind, word.chars ≠ kind.word) (frame : Frame)
      (lines : List LineText)
  | line (text : LineText)

namespace Item

/-- The item as it is written. -/
def chars : Item → List Char
  | model f lines isClosed =>
    f.chars (BlockKind.model.toWord) (lines.map (Line.text FieldText.text)) isClosed
  | enumeration f lines isClosed =>
    f.chars (BlockKind.enum.toWord) (lines.map (Line.text ValueText.text)) isClosed
  | settings word _ f lines => f.chars word lines true
  | line text => text.chars ++ ['\n']

/-- The entity that the item declares. -/
def entity? (path : Option String) : Item → Option Entity
  | model f lines true => some
      { name := String.ofList f.name.chars
        fields := (lines.filterMap Line.declared?).map FieldText.field
        origin := .schema, path }
  | _ => none

/-- The enumeration that the item declares. -/
def enumeration? (path : Option String) : Item → Option Enumeration
  | enumeration f lines true => some
      { name := String.ofList f.name.chars
        values := (lines.filterMap Line.declared?).map fun v => String.ofList v.name.chars
        origin := .schema, path }
  | _ => none

end Item

/-! ## Lines are read back -/

variable {α : Type} {cs ds : List Char}

/-- A text that does not end with white space. -/
def EndsApart (cs : List Char) : Prop := ∀ c, cs.getLast? = some c → isBlank c = false

/-- Two texts that do not end with white space do not if they are put together. -/
theorem EndsApart.append (hcs : EndsApart cs) (hds : EndsApart ds) : EndsApart (cs ++ ds) := by
  intro c hc
  rw [List.getLast?_append, Option.or_eq_some_iff] at hc
  rcases hc with hc | ⟨-, hc⟩
  · exact hds c hc
  · exact hcs c hc

/-- Only the end of the last text counts if that is not empty. -/
theorem EndsApart.of_ne_nil (hds : EndsApart ds) (hne : ds ≠ []) (cs : List Char) :
    EndsApart (cs ++ ds) := by
  intro c hc
  rw [List.getLast?_append_of_ne_nil _ hne] at hc
  exact hds c hc

/-- A text without white space does not end with any. -/
theorem endsApart_of_forall (h : ∀ c ∈ cs, isBlank c = false) : EndsApart cs :=
  fun c hc => h c (List.mem_of_getLast? hc)

/-- A word does not end with white space. -/
theorem Word.endsApart (w : Word) : EndsApart w.chars :=
  endsApart_of_forall fun c hc => isBlank_of_isWord (w.isWord c hc)

/-- What is written begins with a word and does not end with white space. -/
structure IsDeclaring (cs : List Char) : Prop where
  begins : ∃ (w : Word) (rest : List Char), cs = w.chars ++ rest
  ends : EndsApart cs

/-- What declares something begins with a character of a word. -/
theorem IsDeclaring.head (h : IsDeclaring cs) : ∃ c rest, cs = c :: rest ∧ isWord c = true := by
  obtain ⟨w, rest, rfl⟩ := h.begins
  obtain ⟨c, word, hword⟩ := List.exists_cons_of_ne_nil w.ne_nil
  exact ⟨c, word ++ rest, by rw [hword, List.cons_append],
    w.isWord c (by rw [hword]; exact List.mem_cons_self)⟩

/-- A line of a field is its name, white space, its type, its marks and its attributes. -/
theorem FieldText.chars_text (f : FieldText) : f.text.chars =
    f.name.chars ++ (f.gap.chars ++ (f.type.chars ++ (f.marks.chars ++ f.attributes.chars))) := by
  simp only [FieldText.text, LineText.chars_append, List.append_assoc]
  rfl

/-- The marks are that of an array and that of an optional field. -/
theorem FieldText.chars_marks (f : FieldText) : f.marks.chars =
    (if f.isArray then ['[', ']'] else []) ++ (if f.optional then ['?'] else []) := by
  unfold FieldText.marks
  cases f.isArray <;> cases f.optional <;> rfl

/-- Marks are neither white space nor parts of words. -/
theorem FieldText.mem_marks (f : FieldText) {c : Char} (hc : c ∈ f.marks.chars) :
    isWord c = false ∧ isBlank c = false := by
  have hmarks : f.marks.chars.all (fun c => !isWord c && !isBlank c) = true := by
    rw [f.chars_marks]
    cases f.isArray <;> cases f.optional <;> decide
  have htest := List.all_eq_true.1 hmarks c hc
  simpa using htest

/-- The line of a field begins with a word and does not end with white space. -/
theorem FieldText.isDeclaring (f : FieldText) : IsDeclaring f.text.chars where
  begins := ⟨f.name, _, f.chars_text⟩
  ends := by
    have hmarks : EndsApart f.marks.chars := endsApart_of_forall fun c hc => (f.mem_marks hc).2
    have htype : EndsApart (f.type.chars ++ (f.marks.chars ++ f.attributes.chars)) :=
      f.type.endsApart.append (hmarks.append f.attributes.ends)
    rw [f.chars_text, ← List.append_assoc]
    exact htype.of_ne_nil (by simp [f.type.ne_nil]) _

/-- So does that of a value. -/
theorem ValueText.isDeclaring (v : ValueText) : IsDeclaring v.text.chars where
  begins := ⟨v.name, v.attributes.chars, rfl⟩
  ends := v.name.endsApart.append v.attributes.ends

/-- A value is read back. -/
theorem ValueText.head?_wordLists (v : ValueText) :
    (wordLists v.text.chars).head? = some v.name.chars :=
  Text.head?_wordLists v.name.ne_nil (fun c hc => isBlank_of_isWord (v.name.isWord c hc))
    v.attributes.apart

/-- The table of scalar types is read from its front. -/
theorem find?_scalarTypes (type : String) :
    (scalarTypes.find? (·.1 == type)).map (·.2) = scalarTypes.lookup type := by
  induction scalarTypes with
  | nil => rfl
  | cons t rest ih =>
    obtain ⟨name, scalar⟩ := t
    by_cases h : name = type
    · subst h
      simp
    · rw [List.find?_cons_of_neg (by simpa using h), ih, List.lookup_cons,
        beq_false_of_ne (Ne.symm h)]

/-- What stands behind a type is the marks of an array, or something else. -/
theorem FieldText.match_marks (f : FieldText) :
    (match f.marks.chars ++ f.attributes.chars with
      | '[' :: ']' :: rest => (true, rest)
      | rest => (false, rest)) =
      (f.isArray, (if f.optional then ['?'] else []) ++ f.attributes.chars) := by
  rw [f.chars_marks]
  cases f.isArray with
  | true => rfl
  | false =>
    cases f.optional with
    | true => rfl
    | false =>
      cases hchars : f.attributes.chars with
      | nil => rfl
      | cons c rest =>
        have hc : c ≠ '[' := by
          rintro rfl
          exact absurd (f.attributes.apart '[' (by rw [hchars]; rfl)) (by decide)
        simp [hc]

/-- A question mark stands behind the mark of an array exactly if the field is optional. -/
theorem FieldText.head?_optional (f : FieldText) :
    (((if f.optional then ['?'] else []) ++ f.attributes.chars).head? == some '?') =
      f.optional := by
  cases f.optional with
  | true => rfl
  | false =>
    have hne : f.attributes.chars.head? ≠ some '?' :=
      fun h => absurd (f.attributes.apart '?' h) (by decide)
    simp [hne]

/-- A field is read back. -/
theorem FieldText.fieldOfLine?_text (f : FieldText) :
    fieldOfLine? f.text.chars = some f.field := by
  -- Each word ends before something that is no part of a word.
  have hgap : ∀ c, (f.gap.chars ++ (f.type.chars ++ (f.marks.chars ++ f.attributes.chars))).head?
      = some c → isBlank c = true := by
    intro c hc
    rw [List.head?_append_of_ne_nil _ f.gap_ne_nil] at hc
    exact f.gap.isBlank c (List.mem_of_head? hc)
  have htype : ∀ c, (f.type.chars ++ (f.marks.chars ++ f.attributes.chars)).head? = some c →
      isBlank c = false := by
    intro c hc
    rw [List.head?_append_of_ne_nil _ f.type.ne_nil] at hc
    exact isBlank_of_isWord (f.type.isWord c (List.mem_of_head? hc))
  have hmarks : ∀ c, (f.marks.chars ++ f.attributes.chars).head? = some c →
      isWord c = false := by
    intro c hc
    rw [List.head?_append, Option.or_eq_some_iff] at hc
    rcases hc with hc | ⟨-, hc⟩
    · exact (f.mem_marks (List.mem_of_head? hc)).1
    · exact isWord_of_isBlank (f.attributes.apart c hc)
  have hname := span_append f.name.isWord fun c hc => isWord_of_isBlank (hgap c hc)
  have hfront : (!f.name.chars.isEmpty && (f.gap.chars ++ (f.type.chars ++
      (f.marks.chars ++ f.attributes.chars))).head?.any isBlank) = true := by
    obtain ⟨c, gap, hchars⟩ := List.exists_cons_of_ne_nil f.gap_ne_nil
    have hc : isBlank c = true := f.gap.isBlank c (by rw [hchars]; exact List.mem_cons_self)
    simp [f.name.ne_nil, hchars, hc]
  have hrelation : hasPart "@relation".toList f.text.chars =
      decide ("@relation".toList <:+: f.text.chars) := by
    rw [Bool.eq_iff_iff, hasPart_iff, decide_eq_true_iff]
  unfold fieldOfLine?
  rw [hrelation, f.chars_text, hname]
  dsimp only
  rw [hfront, dropWhile_append f.gap.isBlank htype, span_append f.type.isWord hmarks]
  dsimp only
  rw [List.head?_eq_some_head f.type.ne_nil, find?_scalarTypes, ← f.chars_text]
  show some _ = some _
  rw [Option.some.injEq, FieldText.field, Field.mk.injEq]
  exact ⟨rfl, rfl, (congrArg (·.2.head? == some '?') f.match_marks).trans f.head?_optional,
    congrArg Prod.fst f.match_marks, rfl⟩

/-! ## Lines of a body -/

variable {write : α → LineText}

/-- A line that begins with a word declares something. -/
theorem isDeclaration_of_isDeclaring (h : IsDeclaring cs) : isDeclaration cs = true := by
  obtain ⟨c, rest, rfl, hc⟩ := h.head
  have hslash : '/' ≠ c := by
    rintro rfl
    exact absurd hc (by decide)
  have hat : '@' ≠ c := by
    rintro rfl
    exact absurd hc (by decide)
  simp [isDeclaration, List.isPrefixOf, hslash, hat]

/-- A comment line is white space, two slashes and a text. -/
theorem Line.chars_comment (indent : Gap) (text : LineText) :
    ((Line.comment indent text).text write).chars = indent.chars ++ '/' :: '/' :: text.chars :=
  List.append_assoc _ _ _

/-- A setting is white space, two at signs and a text. -/
theorem Line.chars_setting (indent : Gap) (text : LineText) :
    ((Line.setting indent text).text write).chars = indent.chars ++ '@' :: '@' :: text.chars :=
  List.append_assoc _ _ _

/-- What a line declares is found when the line is stripped, and nothing else is. -/
theorem Line.bodyLines_text (hwrite : ∀ a, IsDeclaring (write a).chars) (l : Line α) :
    bodyLines ((l.text write).chars ++ ['\n']) =
      (l.declared?.map fun a => (write a).chars).toList := by
  rw [bodyLines_line (l.text write).one_line]
  -- By what the line is: only a declaration is left of it when it is stripped and looked at.
  cases l with
  | declares indent what after =>
    have hhead : ∀ c, (write what).chars.head? = some c → isBlank c = false := by
      intro c hc
      obtain ⟨d, rest, hchars, hd⟩ := (hwrite what).head
      rw [hchars, List.head?_cons, Option.some.injEq] at hc
      rw [← hc]
      exact isBlank_of_isWord hd
    have hstrip : stripBlanks ((Line.declares indent what after).text write).chars =
        (write what).chars :=
      stripBlanks_pad indent.isBlank hhead (hwrite what).ends after.isBlank
    rw [hstrip, List.filter_singleton, isDeclaration_of_isDeclaring (hwrite what)]
    rfl
  | blank space =>
    have hblank : isDeclaration (stripBlanks ((Line.blank space).text write).chars) = false :=
      isDeclaration_stripBlanks_of_blank space.isBlank
    rw [List.filter_singleton, hblank]
    rfl
  | comment indent text =>
    have hcomment :
        isDeclaration (stripBlanks (indent.chars ++ '/' :: '/' :: text.chars)) = false :=
      isDeclaration_stripBlanks_of_mark (.inl rfl) indent.isBlank text.chars
    rw [chars_comment, List.filter_singleton, hcomment]
    rfl
  | setting indent text =>
    have hsetting :
        isDeclaration (stripBlanks (indent.chars ++ '@' :: '@' :: text.chars)) = false :=
      isDeclaration_stripBlanks_of_mark (.inr rfl) indent.isBlank text.chars
    rw [chars_setting, List.filter_singleton, hsetting]
    rfl

/-- The lines of a body that declare something are those that were written so. -/
theorem Frame.bodyLines_body (hwrite : ∀ a, IsDeclaring (write a).chars) (f : Frame)
    (lines : List (Line α)) : bodyLines (f.body (lines.map (Line.text write))) =
      (lines.filterMap Line.declared?).map fun a => (write a).chars := by
  have hafter : bodyLines (f.after.chars ++ ['\n']) = [] := by
    rw [bodyLines_line f.after.one_line, List.filter_singleton,
      isDeclaration_stripBlanks_of_blank f.after.isBlank]
    rfl
  rw [Frame.body, bodyLines_append_feed, hafter, List.nil_append]
  -- By the lines; the last line is what stands before the closing brace.
  induction lines with
  | nil =>
    have hindent := isDeclaration_stripBlanks_of_blank f.closing.1.isBlank
    show bodyLines f.closing.1.chars = []
    rw [bodyLines_last f.closing.1.one_line, List.filter_singleton, hindent]
    rfl
  | cons l lines ih =>
    rw [List.map_cons, List.map_cons, unlines_cons, bodyLines_append_feed, ih,
      l.bodyLines_text hwrite]
    cases h : l.declared? with
    | none => rw [List.filterMap_cons_none h]; rfl
    | some a => rw [List.filterMap_cons_some h]; rfl

end CodeSurvey.DataModel.Schema
