import CodeSurvey.Syntax.Node
import CodeSurvey.Text.Basic

/-!
# Tokens

The token at the front of a text, together with the blank and the comments before it. What a `/`,
a backquote or a closing brace begins depends on where it stands, so those tokens are read again
by the rules that know: the readers for regular expressions, template parts and markup text are
here too. Every reader splits its text: the token's text and the rest.
-/

namespace CodeSurvey.Syntax

/-- The kinds of tokens. -/
inductive TokenKind
  | word
  /-- A name that begins with `#`. -/
  | privateName
  | number
  | quoted
  | mark
  /-- A template part or a regular expression. -/
  | literal
  | markupText
  /-- A character that begins no token. -/
  | bad
  /-- The end of the text. -/
  | ending
deriving DecidableEq, Repr

/-- A token and where it stands. -/
structure Token where
  kind : TokenKind
  text : String
  /-- The comments before the token, in order. -/
  notes : List Node
  /-- The blank text between the last comment and the token. -/
  gap : String
  /-- The line in which the token begins. -/
  line : Nat
  /-- Whether a line ends between the token before and this one. -/
  onNewLine : Bool
  /-- The text from the token on. -/
  start : List Char
  /-- The text after the token, and the line in which it begins. -/
  rest : List Char
  restLine : Nat

namespace Token

/-- A blank character: a space separator, a tabulator, a line end or a mark of no width. -/
def isBlank (c : Char) : Bool :=
  (0x09 ≤ c.toNat && c.toNat ≤ 0x0d) || c == ' ' || c.toNat == 0xa0 || c.toNat == 0x1680 ||
  (0x2000 ≤ c.toNat && c.toNat ≤ 0x200b) || c.toNat == 0x2028 || c.toNat == 0x2029 ||
  c.toNat == 0x202f || c.toNat == 0x205f || c.toNat == 0x2060 || c.toNat == 0x3000 ||
  c.toNat == 0xfeff

/-- Whether the token is the given punctuation. -/
def isMark (t : Token) (text : String) : Bool := t.kind == .mark && t.text == text

/-- Whether the token is the given word. -/
def isWord (t : Token) (text : String) : Bool := t.kind == .word && t.text == text

/-- The words that name nothing. -/
def reserved : List String :=
  ["break", "case", "catch", "class", "const", "continue", "debugger", "default", "delete", "do",
   "else", "enum", "export", "extends", "false", "finally", "for", "function", "if", "import",
   "in", "instanceof", "new", "null", "return", "super", "switch", "this", "throw", "true", "try",
   "typeof", "var", "void", "while", "with"]

/-- Whether the token is a word that can be a name. -/
def isName (t : Token) : Bool := t.kind == .word && !reserved.contains t.text

/-- A character that ends a line. -/
def endsLine (c : Char) : Bool :=
  c == '\n' || c.toNat == 0x2028 || c.toNat == 0x2029

/-- The characters that stand for themselves and are part of no name. -/
def punctuation : List Char :=
  ":;\x60\"'@#.,|^&<=>+-*/\\%?!~()[]\x7b\x7d".toList

/-- A character of a name: anything but blanks, control characters and punctuation. -/
def isNameChar (c : Char) : Bool :=
  0x1f < c.toNat && !isBlank c && !punctuation.contains c

/-- The name at the front of a text, which may hold characters written as `\u` escapes. -/
def splitName (inBraces : Bool) (taken : List Char) : List Char → List Char × List Char
  | '\\' :: 'u' :: '\x7b' :: rest => splitName true ('\x7b' :: 'u' :: '\\' :: taken) rest
  | '\\' :: 'u' :: rest => splitName false ('u' :: '\\' :: taken) rest
  | c :: rest =>
    if inBraces && c == '\x7d' then splitName false (c :: taken) rest
    else if isNameChar c then splitName inBraces (c :: taken) rest
    else (taken.reverse, c :: rest)
  | [] => (taken.reverse, [])

/-- Whether a name begins here. -/
def beginsName : List Char → Bool
  | '\\' :: 'u' :: _ => true
  | c :: _ => isNameChar c && !c.isDigit
  | [] => false

/-- A run of letters, digits and underscores. -/
def splitAlnum (cs : List Char) : List Char × List Char :=
  cs.span fun c => c.isAlphanum || c == '_'

/-- A run of digits and underscores. -/
def splitDigits (cs : List Char) : List Char × List Char :=
  cs.span fun c => c.isDigit || c == '_'

/-- The exponent and the mark of a large integer that may end a number. -/
def splitExponent : List Char → List Char × List Char
  | e :: s :: d :: rest =>
    if e == 'e' || e == 'E' then
      if s.isDigit then
        let (ds, rest) := splitDigits (s :: d :: rest)
        (e :: ds, rest)
      else if (s == '+' || s == '-') && d.isDigit then
        let (ds, rest) := splitDigits (d :: rest)
        (e :: s :: ds, rest)
      else ([], e :: s :: d :: rest)
    else if e == 'n' then (['n'], s :: d :: rest)
    else ([], e :: s :: d :: rest)
  | e :: rest =>
    if e == 'n' then (['n'], rest)
    else if e == 'e' || e == 'E' then
      match rest with
      | [s] => if s.isDigit then ([e, s], []) else ([], e :: rest)
      | _ => ([], e :: rest)
    else ([], e :: rest)
  | [] => ([], [])

/-- A number at the front of a text that begins with a digit, or with a point and a digit. -/
def splitNumber : List Char → List Char × List Char
  | '0' :: b :: rest =>
    if ['x', 'X', 'b', 'B', 'o', 'O'].contains b then
      let (ds, rest) := splitAlnum rest
      ('0' :: b :: ds, rest)
    else decimal ('0' :: b :: rest)
  | cs => decimal cs
where
  /-- Digits, an optional fraction and an optional exponent. -/
  decimal (cs : List Char) : List Char × List Char :=
    let (whole, rest) := splitDigits cs
    let (fraction, rest) :=
      match rest with
      | '.' :: rest =>
        let (ds, rest) := splitDigits rest
        ('.' :: ds, rest)
      | rest => ([], rest)
    let (exponent, rest) := splitExponent rest
    (whole ++ fraction ++ exponent, rest)

/-- The text up to and with the closing quote; nothing if the line ends first. -/
def splitQuoted? (quote : Char) (taken : List Char) :
    List Char → Option (List Char × List Char)
  | '\\' :: '\r' :: '\n' :: rest => splitQuoted? quote ('\n' :: '\r' :: '\\' :: taken) rest
  | '\\' :: c :: rest => splitQuoted? quote (c :: '\\' :: taken) rest
  | c :: rest =>
    if c == quote then some ((c :: taken).reverse, rest)
    else if c == '\n' then none
    else splitQuoted? quote (c :: taken) rest
  | [] => none

/-- All punctuation of more than one character, the longest first. -/
def longMarks : List String :=
  [">>>=", "...", "===", "!==", "**=", "<<=", ">>=", ">>>", "&&=", "||=", "??=", "=>", "==",
   "!=", "<=", ">=", "&&", "||", "??", "?.", "++", "--", "+=", "-=", "*=", "/=", "%=", "&=",
   "|=", "^=", "<<", ">>", "**"]

/-- The longest punctuation at the front of a text. The mark `?.` is none before a digit, where
the question mark stands alone and the point begins a number. -/
def splitMark (c : Char) (rest : List Char) : List Char × List Char :=
  match longMarks.find? (fun m => m.toList.isPrefixOf (c :: rest)) with
  | some "?." =>
    match rest.drop 1 with
    | d :: _ => if d.isDigit then ([c], rest) else (['?', '.'], rest.drop 1)
    | [] => (['?', '.'], [])
  | some m => (m.toList, (c :: rest).drop m.length)
  | none => ([c], rest)

/-- The kind and the text of the token at the front of a text without blanks before it. -/
def split : List Char → TokenKind × List Char × List Char
  | [] => (.ending, [], [])
  | c :: rest =>
    if beginsName (c :: rest) then
      let (name, rest) := splitName false [] (c :: rest)
      (.word, name, rest)
    else if c.isDigit || (c == '.' && (rest.head?.any Char.isDigit)) then
      let (digits, rest) := splitNumber (c :: rest)
      (.number, digits, rest)
    else if c == '"' || c == '\'' then
      match splitQuoted? c [c] rest with
      | some (text, rest) => (.quoted, text, rest)
      | none => (.bad, [c], rest)
    else if c == '#' && beginsName rest then
      let (name, rest) := splitName false [c] rest
      (.privateName, name, rest)
    else if c == '/' && rest.head? == some '*' then (.bad, c :: rest, [])
    else if punctuation.contains c && c != '\\' && c != '#' then
      let (mark, rest) := splitMark c rest
      (.mark, mark, rest)
    else (.bad, [c], rest)

/-- What stands between two tokens, as far as it is read: comments, blank text since the last of
them, whether a line has ended, and the line reached. Texts are held in reverse. -/
structure Between where
  notes : List Node
  gap : List Char
  onNewLine : Bool
  line : Nat

/-- The line after a character. -/
def lineAfter (c : Char) (line : Nat) : Nat :=
  if c == '\n' then line + 1 else line

/-- Between two tokens, after one more blank character. -/
def Between.blank (b : Between) (c : Char) : Between :=
  { b with
    gap := c :: b.gap
    onNewLine := b.onNewLine || endsLine c
    line := lineAfter c b.line }

/-- Between two tokens, after a comment that was begun in the line `since`. -/
def Between.comment (b : Between) (text : List Char) (since : Nat) : Between :=
  { b with
    notes := .leaf none .comment (String.ofList b.gap.reverse) (String.ofList text.reverse)
      since :: b.notes
    gap := [] }

mutual

/-- Reads blanks and comments up to the next token. A block comment that is never closed is left
where it stands. -/
def skipBlanks (b : Between) : List Char → Between × List Char
  | '/' :: '/' :: rest => skipLine b ['/', '/'] rest
  | '/' :: '*' :: rest =>
    match skipBlock b b.line ['*', '/'] rest with
    | some out => out
    | none => (b, '/' :: '*' :: rest)
  | c :: rest => if isBlank c then skipBlanks (b.blank c) rest else (b, c :: rest)
  | [] => (b, [])

/-- Reads a comment that ends with its line. -/
def skipLine (b : Between) (taken : List Char) : List Char → Between × List Char
  | c :: rest =>
    if endsLine c || c == '\r' then skipBlanks ((b.comment taken b.line).blank c) rest
    else skipLine b (c :: taken) rest
  | [] => (b.comment taken b.line, [])

/-- Reads a comment up to its closing mark. -/
def skipBlock (b : Between) (since : Nat) (taken : List Char) :
    List Char → Option (Between × List Char)
  | '*' :: '/' :: rest => some (skipBlanks (b.comment ('/' :: '*' :: taken) since) rest)
  | c :: rest =>
    skipBlock { b with onNewLine := b.onNewLine || endsLine c, line := lineAfter c b.line } since
      (c :: taken) rest
  | [] => none

end

/-- The line reached after a text. -/
def lineThrough (text : List Char) (line : Nat) : Nat :=
  text.foldl (fun l c => lineAfter c l) line

/-- The token at the front of a text that begins in the given line. -/
def ofText (line : Nat) (cs : List Char) : Token :=
  let (b, start) := skipBlanks ⟨[], [], false, line⟩ cs
  let (kind, text, rest) := split start
  { kind, text := String.ofList text, notes := b.notes.reverse
    gap := String.ofList b.gap.reverse, line := b.line, onNewLine := b.onNewLine
    start, rest, restLine := lineThrough text b.line }

/-- The token after this one. -/
def following (t : Token) : Token := ofText t.restLine t.rest

/-- The same token read again by another rule: its kind and where its text ends. -/
def reread (t : Token) (kind : TokenKind) (text rest : List Char) : Token :=
  { t with kind, text := String.ofList text, rest, restLine := lineThrough text t.line }

/-- The body and the closing `/` of a regular expression, in which a class in brackets may hold
the `/`; nothing if the line ends first. -/
def splitPattern? (inClass : Bool) (taken : List Char) :
    List Char → Option (List Char × List Char)
  | '\\' :: c :: rest =>
    if c == '\n' then none else splitPattern? inClass (c :: '\\' :: taken) rest
  | c :: rest =>
    if c == '\n' then none
    else if c == '/' && !inClass then some (c :: taken, rest)
    else splitPattern? (if c == '[' then true else if c == ']' then false else inClass)
      (c :: taken) rest
  | [] => none

/-- A regular expression that begins at the token. -/
def pattern? (t : Token) : Option Token :=
  match t.start with
  | '/' :: rest =>
    (splitPattern? false ['/'] rest).map fun (body, rest) =>
      let (flags, rest) := rest.span Char.isLower
      t.reread .literal (body.reverse ++ flags) rest
  | _ => none

/-- The part of a template up to its closing backquote, or up to and with the `${` of an
expression. -/
def splitTemplate? (taken : List Char) : List Char → Option (List Char × List Char)
  | '\\' :: c :: rest => splitTemplate? (c :: '\\' :: taken) rest
  | '$' :: '\x7b' :: rest => some (('\x7b' :: '$' :: taken).reverse, rest)
  | c :: rest =>
    if c == '\x60' then some ((c :: taken).reverse, rest) else splitTemplate? (c :: taken) rest
  | [] => none

/-- The template part that begins at the token, a backquote or a closing brace. -/
def templatePart? (t : Token) : Option Token :=
  match t.start with
  | c :: rest => (splitTemplate? [c] rest).map fun (text, rest) => t.reread .literal text rest
  | [] => none

/-- The string in markup that begins at the token: it may hold line ends and has no escapes. -/
def markupString? (t : Token) : Option Token :=
  match t.start with
  | q :: rest =>
    if q == '"' || q == '\'' then
      let (body, rest) := rest.span (· != q)
      match rest with
      | _ :: rest => some (t.reread .quoted (q :: body ++ [q]) rest)
      | [] => none
    else none
  | [] => none

/-- The first character of the token's text as a token of its own. -/
def firstMark (t : Token) : Token :=
  t.reread .mark (t.start.take 1) (t.start.drop 1)

/-- Markup text at the front of a text that begins in the given line, up to the next tag or
brace. -/
def ofMarkup (line : Nat) (cs : List Char) : Token :=
  let (text, rest) := cs.span fun c => c != '<' && c != '\x7b'
  { kind := .markupText, text := String.ofList text, notes := [], gap := "", line
    onNewLine := false, start := cs, rest, restLine := lineThrough text line }

end Token

end CodeSurvey.Syntax
