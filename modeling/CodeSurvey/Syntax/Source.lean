import CodeSurvey.Files.Name
import CodeSurvey.Syntax.Grammar.Exchange
import CodeSurvey.Syntax.Grammar.Markup

/-!
# Parsed sources

A text together with its syntax tree. Every text has one: what fits no rule is passed over, and
the tree says that it has faults.
-/

namespace CodeSurvey.Syntax

namespace Rule

/-- One level of the grammar: the rule of each goal, over a reader for the goals inside. -/
def ruleOf (read : Reader) : Goal → Rule Piece
  | .statement => statementRule read
  | .block => blockRule read
  | .sequence => sequenceRule read
  | .expression => expressionRule read
  | .operand => operandRule read
  | .primary => primaryRule read
  | .binding => bindingRule read
  | .type => typeRule read
  | .plainType => plainTypeRule read
  | .markup => markupRule read

/-- The grammar down to a depth. -/
def read : Nat → Reader
  | 0, _ => fail
  | depth + 1, goal => ruleOf (read depth) goal

end Rule

/-- The dialect of a language. -/
def Dialect.of : Files.ScriptLanguage → Dialect
  | .typescript => ⟨true, false⟩
  | .tsx => ⟨true, true⟩
  | .javascript => ⟨false, true⟩

/-- The cursor at the start of a text. -/
def Cursor.atStart (dialect : Dialect) (text : List Char) : Cursor :=
  { token := Token.ofText 1 text, past := text, pastLine := 1, size := text.length + 1, dialect
    faults := 0, hasIn := true, hasResultTypes := true }

/-- A leaf for a first line that names the program to run the text with, and the text after it. -/
def splitFirstLine : List Char → List Node × List Char
  | '#' :: '!' :: rest =>
    let (line, rest) := rest.span (· != '\n')
    ([.leaf none .comment "" (String.ofList ('#' :: '!' :: line)) 1], rest)
  | cs => ([], cs)

/-- A text that was parsed. -/
structure Source where
  path : String
  language : Files.ScriptLanguage
  text : String
  root : Node
  hasFaults : Bool

/-- The tree of a text, and whether the text had to be mended. No construct is nested deeper than
a few times the length of the text. -/
def parse (dialect : Dialect) (text : String) : Node × Bool :=
  let (first, rest) := splitFirstLine text.toList
  let start := Cursor.atStart dialect rest
  match (Rule.statements (Rule.read (16 * start.size + 64)) false).run start with
  | some (pieces, c) =>
    (.branch none .program
      (first ++ pieces.flatMap (fun p => p.notes ++ [p.node]) ++ c.token.notes), c.faults != 0)
  | none => (.branch none .program first, true)

/-- A text parsed as the language that its path tells, if it tells one. -/
def Source.ofText? (path text : String) : Option Source :=
  (Files.scriptLanguage? path).map fun language =>
    let (root, hasFaults) := parse (.of language) text
    { path, language, text, root, hasFaults }

/-- A parser for some of the languages. -/
structure Parser where
  languages : List Files.ScriptLanguage

namespace Parser

/-- The parser for all languages. -/
def all : Parser := ⟨[.typescript, .tsx, .javascript]⟩

/-- The parser for the languages of some names, or for all languages if no names are given. -/
def ofNames (names : List String) : Parser :=
  if names.isEmpty then all else ⟨all.languages.filter fun l => names.contains l.name⟩

/-- Whether a parser knows the language of a name. -/
def supports (p : Parser) (name : String) : Bool := p.languages.any (·.name == name)

/-- A text parsed as the language that its path tells, if the parser knows that language. -/
def source? (p : Parser) (path text : String) : Option Source := do
  let language ← Files.scriptLanguage? path
  guard (p.languages.contains language)
  Source.ofText? path text

end Parser

end CodeSurvey.Syntax
