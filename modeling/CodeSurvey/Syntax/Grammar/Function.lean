import CodeSurvey.Syntax.Grammar.Type

/-!
# Patterns, functions and classes
-/

namespace CodeSurvey.Syntax.Rule

/-- A default after an equals sign. -/
def default? (read : Reader) : Rule (List Piece) := do
  if ← atMark "=" then return [← take .mark, ← read .expression] else return []

/-- A name or a pattern of names in brackets or braces. -/
def bindingRule (read : Reader) : Rule Piece := do
  let t ← token
  if t.kind == .word then identifier
  else if t.isMark "[" then
    let left ← take .mark
    let items ← bracketed (commaList "]" do
      let dots ← mark? "..."
      let p ← read .binding
      return .joinSeveral .pattern (dots ++ [p] ++ (← default? read)))
    return .join .pattern ([left] ++ items ++ [← mark "]"])
  else
    let left ← mark "\x7b"
    let items ← bracketed (commaList "\x7d" property)
    return .join .pattern ([left] ++ items ++ [← mark "\x7d"])
where
  /-- A property that is bound, perhaps to a pattern of its own. -/
  property : Rule Piece := do
    if ← atMark "..." then return .join .pattern [← take .mark, ← read .binding]
    let name ← memberName read
    let inner ← if ← atMark ":" then pure [← take .mark, ← read .binding] else pure []
    return .joinSeveral .pattern ([name] ++ inner ++ (← default? read))

/-- The type variables, parameters and result of a function. -/
def callShape (read : Reader) : Rule (List Piece) := do
  let generics ← typeParameters? read
  let ps ← parameters read
  return generics ++ [ps] ++ (← resultClause? read)

/-- Whether a function begins here. -/
def atFunction : Rule Bool := do
  let t ← token
  let next ← nextToken
  return t.isWord "function" || t.isWord "async" && next.isWord "function" && !next.onNewLine

/-- The words and the name before the parameters of a function. -/
def functionHead (name : Rule (List Piece)) : Rule (Bool × List Piece) := do
  let async ← word? "async"
  let keyword ← word "function"
  let star ← mark? "*"
  return (!star.isEmpty, async ++ [keyword] ++ star ++ (← name))

/-- A function as a statement. Without a body it only says how the function is called. -/
def functionDeclaration (read : Reader) : Rule Piece := do
  let (generates, head) ← functionHead (do return [(← identifier).as .name])
  let shape ← callShape read
  if ← atMark "\x7b" then
    let body ← bracketed (read .block)
    return .join (if generates then .generatorDeclaration else .functionDeclaration)
      (head ++ shape ++ [body.as .body])
  else
    require (← hasTypes)
    return .join .functionSignature (head ++ shape ++ (← semicolon))

/-- A function as an expression, which needs no name. -/
def functionExpression (read : Reader) : Rule Piece := do
  let (generates, head) ← functionHead do
    if (← token).isName then return [(← identifier).as .name] else return []
  let shape ← callShape read
  let body ← bracketed (read .block)
  return .join (if generates then .generatorFunction else .functionExpression)
    (head ++ shape ++ [body.as .body])

/-- The parameters of an arrow function, up to the arrow. In markup a generic arrow function is
told from a tag by what follows its first variable. -/
def arrowHead (read : Reader) : Rule (List Piece) := do
  let c ← get
  let t := c.token
  if t.isName then
    require ((← nextToken).isMark "=>")
    return [← identifier]
  else if t.isMark "(" then
    flawless (shape c.hasResultTypes)
  else
    require (t.isMark "<" && c.dialect.hasTypes)
    if c.dialect.hasMarkup then
      let third := t.following.following
      require (third.isMark "," || third.isWord "extends" || third.isMark "=")
    flawless (shape c.hasResultTypes)
where
  shape (hasResultTypes : Bool) : Rule (List Piece) := do
    let generics ← typeParameters? read
    let ps ← parameters read
    let result ← if hasResultTypes then resultClause? read else pure []
    let t ← token
    require (t.isMark "=>" && !t.onNewLine)
    return generics ++ [ps] ++ result

/-- An arrow function. -/
def arrowFunction (read : Reader) : Rule Piece := do
  let t ← token
  let next ← nextToken
  let head ←
    if t.isWord "async" && !next.onNewLine && !next.isMark "=>" then do
      let async ← take .mark
      pure ([async] ++ (← arrowHead read))
    else arrowHead read
  let arrow ← mark "=>"
  let body ← if ← atMark "\x7b" then bracketed (read .block) else read .expression
  return .join .arrowFunction (head ++ [arrow, body.as .body])

/-- What a class extends and implements. -/
def heritage (read : Reader) : Rule (List Piece) := do
  let base ← if ← atWord "extends" then
      let operator ← take .mark
      let e ← read .operand
      let types ← if (← token).isMark "<" then pure [← typeArguments read] else pure []
      pure ([operator, e] ++ types)
    else pure []
  let contracts ← if ← atWord "implements" then
      let operator ← take .mark
      pure ([operator] ++ (← commaList "\x7b" (read .type)))
    else pure []
  return base ++ contracts

/-- The words that may stand before a member of a class. -/
def classModifiers : List String :=
  ["public", "private", "protected", "static", "override", "readonly", "abstract", "declare",
   "async", "get", "set", "accessor"]

/-- A member of a class. -/
def classMember (read : Reader) : Rule Piece := do
  let notes ← decorators read
  let t ← token
  let next ← nextToken
  if t.isWord "static" && next.isMark "\x7b" then
    return .join .classMember (notes ++ [← take .mark, ← bracketed (read .block)])
  let modifiers ← many do
    let t ← token
    let next ← nextToken
    if t.kind == .word && classModifiers.contains t.text &&
        (beginsMemberName next || next.isMark "*") then
      return some [← take .mark]
    else if t.isMark "*" then return some [← take .mark]
    else return none
  let isIndex := (← token).isMark "[" && (← hasTypes)
  let index ← if isIndex then optional (flawless (indexSignature read)) else pure []
  if !index.isEmpty then return .join .classMember (notes ++ modifiers ++ index ++ (← semicolon))
  let name ← memberName read
  let sure ← many do
    let t ← token
    if t.isMark "?" || t.isMark "!" then return some [← take .mark] else return none
  let t ← token
  if t.isMark "(" || t.start.head? == some '<' then
    let shape ← callShape read
    if ← atMark "\x7b" then
      let body ← bracketed (read .block)
      return .join .classMember (notes ++ modifiers ++ [name] ++ sure ++ shape ++ [body])
    else
      return .join .classMember
        (notes ++ modifiers ++ [name] ++ sure ++ shape ++ (← semicolon))
  let type ← typeClause? read
  let value ← bracketed (default? read)
  return .join .classMember
    (notes ++ modifiers ++ [name] ++ sure ++ type ++ value ++ (← semicolon))

/-- The members of a class in braces. A token that begins no member is passed over. -/
def classBody (read : Reader) : Rule Piece := do
  let left ← mark "\x7b"
  let members ← bracketed (many do
    let t ← token
    if t.isMark "\x7d" || t.kind == .ending then return none
    else if t.isMark ";" then return some [← take .mark]
    else return some [← either (classMember read) takeFault])
  return .join .classBody ([left] ++ members ++ (← lastBrace))

/-- The words `abstract class` or `class`, the name, and all that follows it. -/
def classRest (read : Reader) (name : Rule (List Piece)) : Rule (List Piece) := do
  let keyword ← word "class"
  let called ← name
  let generics ← typeParameters? read
  let above ← heritage read
  let body ← classBody read
  return [keyword] ++ called ++ generics ++ above ++ [body.as .body]

/-- The name of a class, if it has one. -/
def className? : Rule (List Piece) := do
  let t ← token
  if t.isName && !t.isWord "implements" then return [(← identifier).as .name] else return []

end CodeSurvey.Syntax.Rule
