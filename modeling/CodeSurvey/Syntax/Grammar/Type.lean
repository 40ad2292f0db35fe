import CodeSurvey.Syntax.Grammar.Basic

/-!
# Types, members of object types and parameters

`typeRule` and `plainTypeRule` read a type; the other rules are for the places that types and
parameters stand in.
-/

namespace CodeSurvey.Syntax.Rule

/-- A reader for every goal. -/
abbrev Reader := Goal → Rule Piece

/-- The types between `<` and `>` after the name of a generic thing. -/
def typeArguments (read : Reader) : Rule Piece := do
  let left ← firstMark '<'
  let types ← many do
    let t ← token
    if t.start.head? == some '>' then return none
    else if t.isMark "," then return some [← take .mark]
    else
      let p ← read .type
      let t ← token
      require (t.isMark "," || t.start.head? == some '>')
      return some [p]
  return .join .typeArguments ([left] ++ types ++ [← firstMark '>'])

/-- The type variables between `<` and `>` that a declaration binds. -/
def typeParameters (read : Reader) : Rule Piece := do
  let left ← firstMark '<'
  let generics ← many do
    let t ← token
    if t.start.head? == some '>' then return none
    else if t.isMark "," then return some [← take .mark]
    else
      let modifiers ← many do
        let t ← token
        let next ← nextToken
        if (t.isWord "const" || t.isWord "in" || t.isWord "out") && next.kind == .word then
          return some [← take .mark]
        else return none
      let name ← identifier
      let bound ← if ← atWord "extends" then
          pure [← take .mark, ← read .type] else pure []
      let given ← if ← atMark "=" then pure [← take .mark, ← read .type] else pure []
      return some [.join .otherType (modifiers ++ [name] ++ bound ++ given)]
  return .join .typeParameters ([left] ++ generics ++ [← firstMark '>'])

/-- Type parameters, if there are any. -/
def typeParameters? (read : Reader) : Rule (List Piece) := do
  if (← token).start.head? == some '<' then return [← typeParameters read] else return []

/-- The arguments of a call. -/
def arguments (read : Reader) : Rule Piece := do
  let left ← mark "("
  let items ← bracketed (commaList ")" do
    let dots ← mark? "..."
    let e ← read .expression
    return .joinSeveral .expression (dots ++ [e]))
  return .join .arguments ([left] ++ items ++ [← mark ")"])

/-- A module called by name where a type stands, and members and calls behind it. -/
def importedType (read : Reader) : Rule Piece := do
  let callee ← take .importCallee
  let args ← arguments read
  extend step (.join .callExpression [callee.as .callee, args.as .arguments])
where
  step (p : Piece) : Rule (Option Piece) := do
    if ← atMark "." then
      return some (.join .memberExpression [p, ← take .mark, ← propertyWord])
    else if ← atMark "(" then
      return some (.join .callExpression [p.as .callee, (← arguments read).as .arguments])
    else return none

/-- A colon and a type. -/
def typeClause (read : Reader) : Rule Piece := do
  let colon ← mark ":"
  let type ← if (← atWord "import") && (← nextToken).isMark "(" then importedType read
    else read .type
  return .join .typeClause [colon, type]

/-- A colon and a type, if there is a colon. -/
def typeClause? (read : Reader) : Rule (List Piece) := do
  if ← atMark ":" then return [(← typeClause read).as .type] else return []

/-- The type of a function's result: a type, or what the result says of a parameter. -/
def resultType (read : Reader) : Rule Piece := do
  let t ← token
  let next ← nextToken
  if t.isWord "asserts" && next.kind == .word && !next.onNewLine then
    let asserts ← take .mark
    let subject ← take .identifier
    if ← atWord "is" then
      return .join .otherType [asserts, subject, ← take .mark, ← read .type]
    return .join .otherType [asserts, subject]
  else if t.kind == .word && next.isWord "is" && !next.onNewLine then
    return .join .otherType [← take .identifier, ← take .mark, ← read .type]
  else if t.isWord "import" && next.isMark "(" then importedType read
  else read .type

/-- A colon and the type of a function's result, if there is a colon. -/
def resultClause? (read : Reader) : Rule (List Piece) := do
  if ← atMark ":" then
    return [.join .typeClause [← take .mark, ← resultType read]]
  else return []

/-- A name in front of an argument of a decorator, with members and calls behind it. -/
def decorator (read : Reader) : Rule Piece := do
  let sign ← mark "@"
  let first ← if ← atMark "(" then
      pure (Piece.join .parenthesized [← take .mark, ← bracketed (read .sequence), ← mark ")"])
    else take .identifier
  return .join .decorator [sign, ← extend step first]
where
  step (p : Piece) : Rule (Option Piece) := do
    let t ← token
    if t.isMark "." then
      return some (.join .memberExpression [p, ← take .mark, ← propertyWord])
    else if t.isMark "(" then
      return some (.join .callExpression [p.as .callee, (← arguments read).as .arguments])
    else if t.isMark "<" then
      either (do
        let types ← flawless (typeArguments read)
        let args ← arguments read
        return some (.join .callExpression [p.as .callee, types, args.as .arguments]))
        (pure none)
    else return none

/-- The decorators in front of a declaration. -/
def decorators (read : Reader) : Rule (List Piece) :=
  many do
    if ← atMark "@" then return some [← decorator read] else return none

/-- The words that may stand before a parameter that is a field as well. -/
def parameterModifiers : List String :=
  ["public", "private", "protected", "readonly", "override", "declare", "static", "accessor"]

/-- A parameter: its pattern, with type and default. -/
def parameter (read : Reader) : Rule Piece := do
  let notes ← decorators read
  let modifiers ← many do
    let t ← token
    let next ← nextToken
    if t.kind == .word && parameterModifiers.contains t.text &&
        (next.kind == .word || next.isMark "\x7b" || next.isMark "[" || next.isMark "...") then
      return some [← take .mark]
    else return none
  let dots ← mark? "..."
  let pattern ← if ← atWord "this" then take .identifier else read .binding
  let optional ← mark? "?"
  let type ← typeClause? read
  let given ← if ← atMark "=" then pure [← take .mark, ← read .expression] else pure []
  return .joinSeveral .pattern
    (notes ++ modifiers ++ dots ++ [pattern] ++ optional ++ type ++ given)

/-- The parameters of a function, in their brackets. -/
def parameters (read : Reader) : Rule Piece := do
  let left ← mark "("
  let items ← bracketed (commaList ")" (parameter read))
  return .join .parameters ([left] ++ items ++ [← mark ")"])

/-- The type of a function. -/
def functionType (read : Reader) : Rule Piece := do
  let generics ← typeParameters? read
  let ps ← parameters read
  let arrow ← mark "=>"
  return .join .otherType (generics ++ [ps, arrow, ← resultType read])

/-- The name of a member: a word, a string, a number, or an expression in brackets. -/
def memberName (read : Reader) : Rule Piece := do
  let t ← token
  match t.kind with
  | .word | .privateName => take .propertyName
  | .quoted => take .stringText
  | .number => take .literal
  | _ =>
    let left ← mark "["
    let e ← bracketed (read .expression)
    return .join .expression [left, e, ← mark "]"]

/-- Whether a token can begin the name of a member. -/
def beginsMemberName (t : Token) : Bool :=
  t.kind == .word || t.kind == .privateName || t.kind == .quoted || t.kind == .number ||
    t.isMark "["

/-- A plus or minus before a modifier of a mapped type. -/
def sign? : Rule (List Piece) := do
  let t ← token
  if t.isMark "+" || t.isMark "-" then return [← take .mark] else return []

/-- The members of an object type that are found by a key in brackets with a type. -/
def indexSignature (read : Reader) : Rule Piece := do
  let sign ← sign?
  let readonly ← word? "readonly"
  let left ← mark "["
  let key ← identifier
  let inner ← if ← atMark ":" then pure [← typeClause read]
    else
      let among ← word "in"
      let keys ← read .type
      let renamed ← if ← atWord "as" then pure [← take .mark, ← read .type] else pure []
      pure ([among, keys] ++ renamed)
  let right ← mark "]"
  let change ← sign?
  let optional ← mark? "?"
  let type ← typeClause? read
  return .join .signature
    (sign ++ readonly ++ [left, key] ++ inner ++ [right] ++ change ++ optional ++ type)

/-- The words that may stand before a member of an object type. -/
def memberModifiers : List String :=
  ["public", "private", "protected", "static", "override", "readonly", "get", "set", "async"]

/-- A member of an object type. -/
def objectTypeMember (read : Reader) : Rule Piece := do
  let t ← token
  let next ← nextToken
  let isCall (t : Token) : Bool := t.isMark "(" || t.start.head? == some '<'
  if isCall t then
    let generics ← typeParameters? read
    let ps ← parameters read
    return .join .signature (generics ++ [ps] ++ (← resultClause? read))
  if t.isWord "new" && isCall next then
    let new ← take .mark
    let generics ← typeParameters? read
    let ps ← parameters read
    return .join .signature ([new] ++ generics ++ [ps] ++ (← resultClause? read))
  either (indexSignature read) do
    let modifiers ← many do
      let t ← token
      let next ← nextToken
      if t.kind == .word && memberModifiers.contains t.text && beginsMemberName next then
        return some [← take .mark]
      else if t.isMark "*" then return some [← take .mark]
      else return none
    let name ← memberName read
    let optional ← mark? "?"
    if isCall (← token) then
      let generics ← typeParameters? read
      let ps ← parameters read
      let result ← resultClause? read
      return .join .signature (modifiers ++ [name.as .name] ++ optional ++ generics ++ [ps] ++
        result)
    let type ← typeClause? read
    return .join .propertySignature (modifiers ++ [name.as .name] ++ optional ++ type)

/-- The members of an object type in braces. What no member can hold is passed over up to the
next place where one may begin. -/
def objectType (read : Reader) : Rule Piece := do
  let left ← mark "\x7b"
  let bar ← mark? "|"
  let members ← bracketed (many do
    let t ← token
    if t.isMark "\x7d" || t.isMark "|" || t.kind == .ending then return none
    else if t.isMark ";" || t.isMark "," then return some [← take .mark]
    else
      let p ← either (objectTypeMember read) takeFault
      return some (p :: (← strayTokens)))
  let endBar ← mark? "|"
  return .join .objectType ([left] ++ bar ++ members ++ endBar ++ (← lastBrace))
where
  /-- Tokens in the line of a member that do not belong to it. -/
  strayTokens : Rule (List Piece) :=
    many do
      let t ← token
      if t.isMark ";" || t.isMark "," || t.isMark "\x7d" || t.isMark "|" || t.onNewLine ||
          t.kind == .ending then return none
      else return some [← takeFault]

/-- The name of a type, with its arguments. -/
def namedType (read : Reader) : Rule Piece := do
  let t ← token
  require (t.isName || t.isWord "this" || t.isWord "void" || t.isWord "null" ||
    t.isWord "true" || t.isWord "false" || t.isWord "const")
  let path ← extend step (← take .identifier)
  let t ← token
  if t.isMark "<" && !t.onNewLine then
    return .join .otherType [path, ← typeArguments read]
  return path
where
  step (p : Piece) : Rule (Option Piece) := do
    if ← atMark "." then return some (.join .otherType [p, ← take .mark, ← propertyWord])
    else return none

/-- The type of a value that is named after the word `typeof`. -/
def typeQuery (read : Reader) : Rule Piece := do
  let typeof ← take .mark
  let first ← if (← atWord "import") && (← nextToken).isMark "(" then importedType read
    else take .identifier
  let subject ← extend step first
  let t ← token
  if t.isMark "<" && !t.onNewLine then
    return .join .otherType [typeof, subject, ← typeArguments read]
  return .join .otherType [typeof, subject]
where
  step (p : Piece) : Rule (Option Piece) := do
    let t ← token
    if t.isMark "." then return some (.join .memberExpression [p, ← take .mark, ← propertyWord])
    else return none

/-- A member of a tuple type, which may have a name. -/
def tupleMember (read : Reader) : Rule Piece := do
  let dots ← mark? "..."
  either
    (do
      let name ← take .identifier
      let optional ← mark? "?"
      let colon ← mark ":"
      return .join .otherType (dots ++ [name] ++ optional ++ [colon, ← read .type]))
    (do
      let type ← read .type
      let optional ← mark? "?"
      return .joinSeveral .otherType (dots ++ [type] ++ optional))

/-- A type that needs no brackets before `[`. -/
def primaryType (read : Reader) : Rule Piece := do
  let t ← token
  match t.kind with
  | .quoted => take .stringText
  | .number => take .literal
  | .word =>
    let next ← nextToken
    if t.text == "typeof" then typeQuery read
    else if t.text == "new" then
      let new ← take .mark
      return .join .otherType [new, ← functionType read]
    else if t.text == "abstract" && next.isWord "new" then
      return .join .otherType [← take .mark, ← take .mark, ← functionType read]
    else namedType read
  | .mark =>
    if t.text == "(" then
      either (flawless (functionType read)) do
        let left ← take .mark
        let inner ← bracketed (read .type)
        return .join .parenthesizedType [left, inner, ← mark ")"]
    else if t.start.head? == some '<' then functionType read
    else if t.text == "\x7b" then objectType read
    else if t.text == "[" then
      let left ← take .mark
      let members ← bracketed (commaList "]" (tupleMember read))
      return .join .otherType ([left] ++ members ++ [← mark "]"])
    else if t.text == "\x60" then template (read .type)
    else if t.text == "-" then
      let minus ← take .mark
      require ((← token).kind == .number)
      return .join .otherType [minus, ← take .literal]
    else if t.text == "*" then take .otherType
    else if t.text == "?" then return .join .otherType [← take .mark, ← read .plainType]
    else fail
  | _ => fail

/-- An array or an element of the type before it. -/
def typeSuffix (read : Reader) (p : Piece) : Rule (Option Piece) := do
  let t ← token
  if t.isMark "[" && !t.onNewLine then
    let left ← take .mark
    if ← atMark "]" then return some (.join .otherType [p, left, ← take .mark])
    let index ← bracketed (read .type)
    return some (.join .otherType [p, left, index, ← mark "]"])
  else return none

/-- The words that may stand before a type. -/
def typeOperators : List String := ["keyof", "readonly", "unique", "infer"]

/-- Whether a token can begin a type. -/
def beginsType (t : Token) : Bool :=
  t.kind == .word || t.kind == .quoted || t.kind == .number || t.isMark "(" || t.isMark "[" ||
    t.isMark "\x7b" || t.isMark "\x60" || t.start.head? == some '<'

/-- A type with operators before it. A variable that is inferred may have a bound of its own. -/
def prefixedType (read : Reader) : Rule Piece := do
  let operators ← many do
    let t ← token
    let next ← nextToken
    if t.kind == .word && typeOperators.contains t.text && beginsType next && !next.onNewLine then
      return some [← take .mark]
    else return none
  let type ← extend (typeSuffix read) (← primaryType read)
  if operators.any (fun o => o.node.text == "infer") then
    let bound ← either
      (do
        let operator ← word "extends"
        let bound ← read .plainType
        require !(← atMark "?")
        return [operator, bound])
      (pure [])
    return .join .otherType (operators ++ [type] ++ bound)
  return .joinSeveral .otherType (operators ++ [type])

/-- Types with an operator between them, and perhaps one before the first. -/
def typeChain (operator : String) (kind : Kind) (part : Rule Piece) : Rule Piece := do
  let leading ← mark? operator
  let first ← part
  let more ← many do
    if ← atMark operator then return some [← take .mark, ← part] else return none
  return .joinSeveral kind (leading ++ [first] ++ more)

/-- A type that is not a conditional one. -/
def plainTypeRule (read : Reader) : Rule Piece :=
  typeChain "|" .otherType (typeChain "&" .intersectionType (prefixedType read))

/-- A type. -/
def typeRule (read : Reader) : Rule Piece := do
  let type ← plainTypeRule read
  let condition ← either
    (do
      let operator ← word "extends"
      let bound ← read .plainType
      let question ← mark "?"
      let positive ← read .type
      let colon ← mark ":"
      return [operator, bound, question, positive, colon, ← read .type])
    (pure [])
  return .joinSeveral .otherType (type :: condition)

end CodeSurvey.Syntax.Rule
