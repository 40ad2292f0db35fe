import CodeSurvey.Syntax.Grammar.Expression

/-!
# Markup

Elements with tags, as expressions. Text between tags is read as it stands: quotes and slashes in
it begin no tokens.
-/

namespace CodeSurvey.Syntax.Rule

/-- Puts the text between tags in front, from the end of the last token on. -/
def markupText? : Rule (List Piece) := do
  let c ← get
  let t := Token.ofMarkup c.pastLine c.past
  if t.text.isEmpty then return []
  setToken t
  return [← take .markupText]

/-- The name of an element or of an attribute: words with points, colons and hyphens. -/
def markupName : Rule (List Piece) := do
  require ((← token).kind == .word)
  let first ← take .identifier
  let more ← many do
    let t ← token
    if t.isMark "." || t.isMark ":" || t.isMark "-" || t.isMark "--" then
      let sign ← take .mark
      let t ← token
      if t.kind == .word || t.kind == .number then return some [sign, ← take .propertyName]
      else return some [sign]
    else return none
  return first :: more

/-- An expression in braces; it may be left out, or spread. -/
def markupExpression (read : Reader) : Rule Piece := do
  let left ← mark "\x7b"
  let dots ← mark? "..."
  let e ← if ← atMark "\x7d" then pure [] else pure [← bracketed (read .sequence)]
  return .join .expression ([left] ++ dots ++ e ++ [← mark "\x7d"])

/-- An attribute of a tag. -/
def tagAttribute (read : Reader) : Rule Piece := do
  if ← atMark "\x7b" then markupExpression read
  else
    let name ← markupName
    let value ← if ← atMark "=" then do
        let equals ← take .mark
        let t ← token
        if t.isMark "\x7b" then pure [equals, ← markupExpression read]
        else if t.isMark "<" then pure [equals, ← read .markup]
        else match t.markupString? with
          | some t => setToken t; pure [equals, ← take .stringText]
          | none => fail
      else pure []
    return .join .expression (name ++ value)

/-- An element with its children, or a single tag. -/
def markupRule (read : Reader) : Rule Piece := do
  let left ← mark "<"
  if (← token).start.head? == some '>' then
    let right ← firstMark '>'
    return .join .markupElement ([left, right] ++ (← children))
  let name ← markupName
  let types ← if (← token).isMark "<" then pure [← typeArguments read] else pure []
  let attributes ← many do
    let t ← token
    if t.start.head? == some '>' || t.start.head? == some '/' then return none
    else return some [← tagAttribute read]
  let head := [left] ++ name ++ types ++ attributes
  if (← token).start.head? == some '/' then
    let slash ← firstMark '/'
    return .join .markupElement (head ++ [slash, ← firstMark '>'])
  let right ← firstMark '>'
  return .join .markupElement (head ++ [right] ++ (← children))
where
  /-- What stands between the tags, and the closing tag. -/
  children : Rule (List Piece) := do
    let inner ← many do
      let text ← markupText?
      let t ← token
      if t.isMark "\x7b" then return some (text ++ [← markupExpression read])
      else if t.isMark "<" && t.following.start.head? != some '/' then
        return some (text ++ [← read .markup])
      else if text.isEmpty then return none
      else return some text
    let left ← mark "<"
    let slash ← firstMark '/'
    let name ← if (← token).kind == .word then markupName else pure []
    return inner ++ [left, slash] ++ name ++ [← firstMark '>']

end CodeSurvey.Syntax.Rule
