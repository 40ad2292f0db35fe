import CodeSurvey.Syntax.Token

/-!
# Grammar rules

A rule reads a construct at a cursor and gives its node and the cursor after it, or fails and
leaves no trace. Rules name the constructs they contain by a `Goal`; a rule is given a reader for
goals and is itself not recursive, and `Grammar.Run` ties the knot.
-/

namespace CodeSurvey.Syntax

/-- What is written in a text: whether it may hold types, and whether it may hold markup. -/
structure Dialect where
  hasTypes : Bool
  hasMarkup : Bool

/-- The constructs that contain each other. -/
inductive Goal
  | statement
  | block
  /-- Expressions with commas between them. -/
  | sequence
  /-- One expression, as it stands between commas. -/
  | expression
  /-- An expression as it stands between operators. -/
  | operand
  /-- An expression that needs no brackets before a point. -/
  | primary
  /-- What a declaration binds: a name or a pattern of names. -/
  | binding
  | type
  /-- A type that is not a conditional one. -/
  | plainType
  | markup

/-- A construct that was read: its node, and the comments before it, which belong beside it in
the outermost construct that begins with it. -/
structure Piece where
  notes : List Node
  node : Node

/-- Where a reader stands. -/
structure Cursor where
  /-- The token in front. -/
  token : Token
  /-- The text after the last token that was read, and the line in which it begins. -/
  past : List Char
  pastLine : Nat
  /-- More than the number of tokens of the whole text. -/
  size : Nat
  dialect : Dialect
  /-- The number of places at which the text was mended. -/
  faults : Nat
  /-- Whether `in` is an operator here. -/
  hasIn : Bool
  /-- Whether a colon after parameters begins the type of a function's result here. -/
  hasResultTypes : Bool

/-- A reader of part of a text. -/
abbrev Rule := StateT Cursor Option

namespace Piece

/-- The piece in another role. -/
def as (p : Piece) (r : Role) : Piece := { p with node := p.node.as r }

/-- The kind of the piece's node. -/
def kind (p : Piece) : Kind := p.node.kind

/-- The node made of some pieces. The comments before the first of them stay before the node; all
others become parts of it. -/
def join (kind : Kind) : List Piece → Piece
  | [] => ⟨[], .branch none kind []⟩
  | p :: ps =>
    ⟨p.notes, .branch none kind (p.node :: ps.flatMap fun q => q.notes ++ [q.node])⟩

/-- A single piece as it is, several joined. -/
def joinSeveral (kind : Kind) : List Piece → Piece
  | [p] => p
  | ps => join kind ps

end Piece

namespace Rule

/-- The rule that fits nothing. -/
def fail {α : Type} : Rule α := fun _ => none

/-- Goes on only if the condition holds. -/
def require (b : Bool) : Rule Unit := if b then pure () else fail

/-- The token in front. -/
def token : Rule Token := do return (← get).token

/-- The token after the one in front. -/
def nextToken : Rule Token := do return (← get).token.following

/-- Puts another reading of the token in front. -/
def setToken (t : Token) : Rule Unit := modify fun c => { c with token := t }

/-- Reads the token in front as a leaf. -/
def take (kind : Kind) : Rule Piece := do
  let c ← get
  let t := c.token
  set { c with token := t.following, past := t.rest, pastLine := t.restLine }
  return ⟨t.notes, .leaf none kind t.gap t.text t.line⟩

/-- Reads a token that fits nowhere. -/
def takeFault : Rule Piece := do
  let t ← token
  require (t.kind != .ending)
  modify fun c => { c with faults := c.faults + 1 }
  take .fault

/-- Notes that something is missing here. -/
def noteMissing : Rule Unit := modify fun c => { c with faults := c.faults + 1 }

/-- Whether a punctuation stands in front. -/
def atMark (text : String) : Rule Bool := do return (← token).isMark text

/-- Whether a word stands in front. -/
def atWord (text : String) : Rule Bool := do return (← token).isWord text

/-- Whether nothing is left. -/
def atEnd : Rule Bool := do return (← token).kind == .ending

/-- A punctuation. -/
def mark (text : String) : Rule Piece := do
  require (← atMark text)
  take .mark

/-- A word of the language. -/
def word (text : String) : Rule Piece := do
  require (← atWord text)
  take .mark

/-- The punctuation if it stands in front. -/
def mark? (text : String) : Rule (List Piece) := do
  if ← atMark text then return [← take .mark] else return []

/-- The word if it stands in front. -/
def word? (text : String) : Rule (List Piece) := do
  if ← atWord text then return [← take .mark] else return []

/-- A single character of punctuation, also as the first of a longer mark. -/
def firstMark (c : Char) : Rule Piece := do
  let t ← token
  require (t.kind == .mark && t.start.head? == some c)
  setToken t.firstMark
  take .mark

/-- The first of two rules that does not fail. -/
def either {α : Type} (p q : Rule α) : Rule α := fun c =>
  match p c with
  | some out => some out
  | none => q c

/-- What a rule reads, or nothing if it fails. -/
def optional (p : Rule Piece) : Rule (List Piece) :=
  either (do return [← p]) (pure [])

/-- A rule that fails if it has to mend the text. -/
def flawless {α : Type} (p : Rule α) : Rule α := do
  let before := (← get).faults
  let out ← p
  require ((← get).faults == before)
  return out

/-- Repeats a rule until it has nothing more to read. -/
def many (step : Rule (Option (List Piece))) : Rule (List Piece) := do
  loop (← get).size #[]
where
  loop : Nat → Array Piece → Rule (List Piece)
    | 0, _ => fail
    | n + 1, found => do
      match ← step with
      | none => return found.toList
      | some ps => loop n (ps.foldl Array.push found)

/-- Lets a rule rebuild a piece until it has nothing more to add. -/
def extend (step : Piece → Rule (Option Piece)) (p : Piece) : Rule Piece := do
  loop (← get).size p
where
  loop : Nat → Piece → Rule Piece
    | 0, _ => fail
    | n + 1, p => do
      match ← step p with
      | none => return p
      | some q => loop n q

/-- Items with commas between them, up to the closing punctuation or the end of the text. -/
def commaList (close : String) (item : Rule Piece) : Rule (List Piece) :=
  many do
    if (← atMark close) || (← atEnd) then return none
    else if ← atMark "," then return some [← take .mark]
    else
      let p ← item
      require ((← atMark ",") || (← atMark close) || (← atEnd))
      return some [p]

/-- Inside brackets every operator and every type may stand. -/
def bracketed {α : Type} (p : Rule α) : Rule α := do
  let c ← get
  set { c with hasIn := true, hasResultTypes := true }
  let out ← p
  modify fun d => { d with hasIn := c.hasIn, hasResultTypes := c.hasResultTypes }
  return out

/-- A rule in which `in` is no operator. -/
def withoutIn {α : Type} (p : Rule α) : Rule α := do
  let c ← get
  set { c with hasIn := false }
  let out ← p
  modify fun d => { d with hasIn := c.hasIn }
  return out

/-- A rule in which a colon after parameters begins no type. -/
def withoutResultTypes {α : Type} (p : Rule α) : Rule α := do
  let c ← get
  set { c with hasResultTypes := false }
  let out ← p
  modify fun d => { d with hasResultTypes := c.hasResultTypes }
  return out

/-- Whether the text is in a dialect with types. -/
def hasTypes : Rule Bool := do return (← get).dialect.hasTypes

/-- A name. -/
def identifier : Rule Piece := do
  require ((← token).isName)
  take .identifier

/-- Any word as a name, also a reserved one: a property after a point, or in a declaration. -/
def propertyWord : Rule Piece := do
  let t ← token
  require (t.kind == .word || t.kind == .privateName)
  take .propertyName

/-- The brace after the parts of a construct. It may be missing at the end of the text. -/
def lastBrace : Rule (List Piece) := do
  if ← atEnd then
    noteMissing
    return []
  return [← mark "\x7d"]

/-- The end of a statement: a semicolon, or a place where it may be left out. -/
def semicolon : Rule (List Piece) := do
  let t ← token
  if t.isMark ";" then return [← take .mark]
  require (t.onNewLine || t.kind == .ending || t.isMark "\x7d")
  return []

/-- A string. -/
def quoted : Rule Piece := do
  require ((← token).kind == .quoted)
  take .stringText

/-- A template, whose expressions are read by the given rule. -/
def template (expression : Rule Piece) : Rule Piece := do
  let first ← part
  if ended first then return .join .template [first]
  return .join .template (← bracketed (tail (← get).size #[first]))
where
  /-- One part of the text of a template. -/
  part : Rule Piece := do
    match (← token).templatePart? with
    | some t => setToken t; take .literal
    | none => fail
  ended (p : Piece) : Bool := p.node.text.endsWith "\x60"
  /-- Expressions and text parts in turn, after a part that ends in an opening brace. -/
  tail : Nat → Array Piece → Rule (List Piece)
    | 0, _ => fail
    | n + 1, found => do
      let e ← expression
      require (← atMark "\x7d")
      let p ← part
      if ended p then return (found.push e |>.push p).toList
      else tail n (found.push e |>.push p)

end Rule

end CodeSurvey.Syntax
