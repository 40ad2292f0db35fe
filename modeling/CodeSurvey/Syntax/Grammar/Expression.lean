import CodeSurvey.Syntax.Grammar.Function

/-!
# Expressions

Operators of all ranks stand side by side in one chain: which of them binds closer decides
nothing that is surveyed.
-/

namespace CodeSurvey.Syntax.Rule

/-- An object in braces. Names with defaults may stand in it, because it may turn out to be a
pattern that is assigned to. -/
def objectLiteral (read : Reader) : Rule Piece := do
  let left ← mark "\x7b"
  let members ← bracketed (commaList "\x7d" member)
  return .join .expression ([left] ++ members ++ [← mark "\x7d"])
where
  modifiers : List String := ["get", "set", "async", "static"]
  member : Rule Piece := do
    if ← atMark "..." then return .join .expression [← take .mark, ← read .expression]
    let before ← many do
      let t ← token
      let next ← nextToken
      if t.kind == .word && modifiers.contains t.text &&
          (beginsMemberName next || next.isMark "*") then
        return some [← take .mark]
      else if t.isMark "*" then return some [← take .mark]
      else return none
    let name ← memberName read
    let t ← token
    if t.isMark "(" || t.start.head? == some '<' then
      let shape ← callShape read
      let body ← read .block
      return .join .expression (before ++ [name] ++ shape ++ [body])
    else if t.isMark ":" then
      return .join .expression [name, ← take .mark, ← read .expression]
    else if t.isMark "=" then
      return .join .expression [name, ← take .mark, ← read .expression]
    else return name

/-- A list in brackets, in which places may be left empty. -/
def arrayLiteral (read : Reader) : Rule Piece := do
  let left ← mark "["
  let items ← bracketed (commaList "]" do
    let dots ← mark? "..."
    return .joinSeveral .expression (dots ++ [← read .expression]))
  return .join .expression ([left] ++ items ++ [← mark "]"])

/-- Whether the arguments of a type that were just read are followed by what may follow them. -/
def followsTypeArguments (t : Token) : Bool :=
  t.kind == .ending || t.onNewLine ||
    [")", "]", ",", ";", ":", "\x7d", ".", "?.", "\x7b", "\x60", "("].any (t.isMark ·)

/-- A member of what stands before it: by a point, or in brackets. -/
def memberSuffix (read : Reader) (p : Piece) : Rule (Option Piece) := do
  let t ← token
  if t.isMark "." then
    return some (.join .memberExpression [p, ← take .mark, ← propertyWord])
  else if t.isMark "[" then
    let left ← take .mark
    let index ← bracketed (read .sequence)
    return some (.join .memberExpression [p, left, index, ← mark "]"])
  else return none

/-- A call of what stands before it, with what stands between the two. -/
def call (read : Reader) (p : Piece) (between : List Piece) : Rule Piece := do
  let args ← arguments read
  return .join .callExpression ([p.as .callee] ++ between ++ [args.as .arguments])

/-- A call by a template. -/
def templateCall (read : Reader) (p : Piece) (between : List Piece) : Rule Piece := do
  let t ← template (read .sequence)
  return .join .callExpression ([p.as .callee] ++ between ++ [t.as .arguments])

/-- What may stand behind an expression: a member, a call, or the sign that it is not empty. -/
def suffix (read : Reader) (p : Piece) : Rule (Option Piece) := do
  let t ← token
  if t.kind != .mark then return none
  else if t.text == "(" then return some (← call read p [])
  else if t.text == "\x60" then return some (← templateCall read p [])
  else if t.text == "?." then
    let sign ← take .mark
    let t ← token
    if t.isMark "(" then return some (← call read p [sign])
    else if t.isMark "<" then return some (← call read p [sign, ← typeArguments read])
    else if t.isMark "[" then
      let left ← take .mark
      let index ← bracketed (read .sequence)
      return some (.join .memberExpression [p, sign, left, index, ← mark "]"])
    else if t.isMark "\x60" then return some (← templateCall read p [sign])
    else return some (.join .memberExpression [p, sign, ← propertyWord])
  else if t.text == "!" && !t.onNewLine && (← hasTypes) then
    return some (.join .expression [p, ← take .mark])
  else if t.text == "<" && (← hasTypes) then
    either
      (do
        let types ← flawless (typeArguments read)
        let next ← token
        require (followsTypeArguments next)
        if next.isMark "(" then return some (← call read p [types])
        else if next.isMark "\x60" then return some (← templateCall read p [types])
        else return some (.join .expression [p, types]))
      (pure none)
  else memberSuffix read p

/-- A new object: what it is made of, and the arguments if there are any. -/
def newExpression (read : Reader) : Rule Piece := do
  let new ← word "new"
  if ← atMark "." then return .join .memberExpression [new, ← take .mark, ← propertyWord]
  let made ← extend (memberSuffix read) (← read .primary)
  let types ← if (← token).isMark "<" && (← hasTypes) then
      optional (do
        let types ← flawless (typeArguments read)
        require (followsTypeArguments (← token))
        return types)
    else pure []
  let args ← if ← atMark "(" then pure [(← arguments read).as .arguments] else pure []
  return .join .newExpression ([new, made] ++ types ++ args)

/-- The words that stand for a value. -/
def constants : List String := ["this", "super", "null", "true", "false", "undefined"]

/-- An expression that needs no brackets before a point. -/
def primaryRule (read : Reader) : Rule Piece := do
  let t ← token
  match t.kind with
  | .quoted => take .stringText
  | .number => take .literal
  | .privateName => take .identifier
  | .word =>
    let next ← nextToken
    if ← atFunction then functionExpression read
    else if t.text == "class" then
      return .join .classExpression (← classRest read className?)
    else if t.text == "new" then newExpression read
    else if constants.contains t.text then take .literal
    else if t.text == "import" then
      require (next.isMark "(" || next.isMark ".")
      take .importCallee
    else identifier
  | .mark =>
    if t.text == "(" then
      let left ← take .mark
      let e ← bracketed (read .sequence)
      return .join .parenthesized [left, e, ← mark ")"]
    else if t.text == "[" then arrayLiteral read
    else if t.text == "\x7b" then objectLiteral read
    else if t.text == "\x60" then template (read .sequence)
    else if t.text == "/" || t.text == "/=" then
      match t.pattern? with
      | some t => setToken t; take .literal
      | none => fail
    else if t.text == "<" && (← get).dialect.hasMarkup then read .markup
    else if t.text == "@" then
      let notes ← decorators read
      return .join .classExpression (notes ++ (← classRest read className?))
    else fail
  | _ => fail

/-- The signs before an operand. -/
def prefixes : List String := ["!", "~", "+", "-", "++", "--"]

/-- The words before an operand. -/
def prefixWords : List String := ["typeof", "void", "delete", "await"]

/-- An expression as it stands between operators. -/
def operandRule (read : Reader) : Rule Piece := do
  let before ← many do
    let t ← token
    if t.kind == .mark && prefixes.contains t.text then return some [← take .mark]
    else if t.kind == .word && prefixWords.contains t.text then return some [← take .mark]
    else return none
  let c ← get
  if c.token.isMark "<" && c.dialect.hasTypes && !c.dialect.hasMarkup then
    let left ← take .mark
    let type ← read .type
    let right ← firstMark '>'
    return .join .expression (before ++ [left, type, right, ← read .operand])
  let e ← extend (suffix read) (← read .primary)
  let t ← token
  let after ← if (t.isMark "++" || t.isMark "--") && !t.onNewLine then pure [← take .mark]
    else pure []
  return .joinSeveral .expression (before ++ [e] ++ after)

/-- The operators between two operands. -/
def operators : List String :=
  ["+", "-", "*", "/", "%", "**", "<<", ">>", ">>>", "&", "|", "^", "&&", "||", "??", "==", "!=",
   "===", "!==", "<", ">", "<=", ">="]

/-- The operators that assign what follows them. -/
def assignments : List String :=
  ["=", "+=", "-=", "*=", "/=", "%=", "**=", "<<=", ">>=", ">>>=", "&=", "|=", "^=", "&&=", "||=",
   "??="]

/-- An operator and its right side, in a chain of operators. -/
def chainLink (read : Reader) : Rule (Option (List Piece)) := do
  let c ← get
  let t := c.token
  match t.kind with
  | .mark =>
    if operators.contains t.text then return some [← take .mark, ← read .operand]
    else return none
  | .word =>
    if t.text == "instanceof" || t.text == "in" && c.hasIn then
      return some [← take .mark, ← read .operand]
    else if (t.text == "as" || t.text == "satisfies") && c.dialect.hasTypes && !t.onNewLine then
      return some [← take .mark, ← read .type]
    else return none
  | _ => return none

/-- The two sides of a choice after a question mark. A colon after brackets on the first side may
begin a result type or the second side: the first reading that finds the colon of the choice
holds. -/
def choice (read : Reader) : Rule (List Piece) := do
  let question ← mark "?"
  let positive ← either (side id) (side withoutResultTypes)
  let colon ← mark ":"
  return [question, positive, colon, ← read .expression]
where
  side (how : Rule Piece → Rule Piece) : Rule Piece := do
    let e ← how (read .expression)
    require (← atMark ":")
    return e

/-- Operands with operators between them, and what is chosen or assigned at the end. -/
def operatorChain (read : Reader) : Rule Piece := do
  let first ← read .operand
  let links ← many (chainLink read)
  let t ← token
  let rest ←
    if t.isMark "?" then choice read
    else if t.kind == .mark && assignments.contains t.text then
      pure [← take .mark, ← read .expression]
    else pure []
  return .joinSeveral .expression ([first] ++ links ++ rest)

/-- Whether a token can end the place after the word `yield`. -/
def endsYield (t : Token) : Bool :=
  t.onNewLine || t.kind == .ending || [")", "]", "\x7d", ",", ";", ":"].any (t.isMark ·)

/-- One expression, as it stands between commas. -/
def expressionRule (read : Reader) : Rule Piece := do
  let t ← token
  if t.isWord "yield" then
    let yield ← take .mark
    let star ← mark? "*"
    if star.isEmpty && endsYield (← token) then return .join .expression [yield]
    return .join .expression ([yield] ++ star ++ [← read .expression])
  else if t.isName || t.isMark "(" || t.isMark "<" then
    either (arrowFunction read) (operatorChain read)
  else operatorChain read

/-- Expressions with commas between them. -/
def sequenceRule (read : Reader) : Rule Piece := do
  let first ← read .expression
  let more ← many do
    if ← atMark "," then return some [← take .mark, ← read .expression] else return none
  return .joinSeveral .expression (first :: more)

end CodeSurvey.Syntax.Rule
