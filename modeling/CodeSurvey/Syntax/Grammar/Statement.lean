import CodeSurvey.Syntax.Grammar.Expression

/-!
# Statements

Statements other than those that import and export. A list of statements passes over a token with
which no statement begins, so what is broken does not hide what follows it.
-/

namespace CodeSurvey.Syntax.Rule

/-- Statements up to the end, or up to a closing brace. -/
def statements (read : Reader) (untilBrace : Bool) : Rule (List Piece) :=
  many do
    let t ← token
    if t.kind == .ending || untilBrace && t.isMark "\x7d" then return none
    else return some [← either (read .statement) takeFault]

/-- Statements in braces. -/
def blockRule (read : Reader) : Rule Piece := do
  let left ← mark "\x7b"
  let inner ← bracketed (statements read true)
  return .join .block ([left] ++ inner ++ (← lastBrace))

/-- An expression in brackets after a word. -/
def condition (read : Reader) : Rule Piece := do
  let left ← mark "("
  let e ← bracketed (read .sequence)
  return .join .parenthesized [left, e, ← mark ")"]

/-- A name or pattern that a declaration binds, with type and value. -/
def declarator (read : Reader) : Rule Piece := do
  let name ← read .binding
  let sure ← mark? "!"
  let type ← typeClause? read
  let value ← if ← atMark "=" then pure [← take .mark, (← read .expression).as .value] else pure []
  return .join .variableDeclarator ([name.as .name] ++ sure ++ type ++ value)

/-- The words and declarators of a declaration of variables, without the end of the statement. -/
def declarators (read : Reader) : Rule (Kind × List Piece) := do
  let kind := if ← atWord "var" then Kind.variableDeclaration else Kind.lexicalDeclaration
  let keyword ← take .mark
  let first ← declarator read
  let more ← many do
    if ← atMark "," then return some [← take .mark, ← declarator read] else return none
  return (kind, keyword :: first :: more)

/-- Whether a declaration of variables begins here. -/
def atDeclaration : Rule Bool := do
  let t ← token
  let next ← nextToken
  return t.isWord "var" || t.isWord "const" ||
    t.isWord "let" && (next.kind == .word && !next.isWord "in" && !next.isWord "instanceof" ||
      next.isMark "[" || next.isMark "\x7b")

/-- A declaration of variables as a statement. -/
def variableStatement (read : Reader) : Rule Piece := do
  let (kind, pieces) ← declarators read
  return .join kind (pieces ++ (← semicolon))

/-- What stands in the brackets after `for`. -/
def forHead (read : Reader) : Rule (List Piece) :=
  either overElements (either countedOver counted)
where
  /-- A variable, or a place to assign to, that runs over what follows `of` or `in`. -/
  overElements : Rule (List Piece) := do
    let target ← if ← atDeclaration then do
        let keyword ← take .mark
        pure [keyword, ← read .binding]
      else pure [← withoutIn (read .operand)]
    let t ← token
    require (t.isWord "of" || t.isWord "in")
    let between ← take .mark
    return target ++ [between, ← read .sequence]
  /-- A variable with a first value that runs over what follows `in`. -/
  countedOver : Rule (List Piece) := do
    require (← atWord "var")
    let keyword ← take .mark
    let name ← read .binding
    let equals ← mark "="
    let value ← withoutIn (read .expression)
    return [keyword, name, equals, value, ← word "in", ← read .sequence]
  /-- A start, a condition and a step. -/
  counted : Rule (List Piece) := do
    let start ← if ← atDeclaration then do
        let (kind, pieces) ← withoutIn (declarators read)
        pure [Piece.join kind (pieces ++ [← mark ";"])]
      else if ← atMark ";" then pure [← take .mark]
      else pure [← withoutIn (read .sequence), ← mark ";"]
    let test ← if ← atMark ";" then pure [] else pure [← read .sequence]
    let second ← mark ";"
    let step ← if ← atMark ")" then pure [] else pure [← read .sequence]
    return start ++ test ++ [second] ++ step

/-- A statement that begins with one of the words of control flow. -/
def controlStatement (read : Reader) (t : Token) : Rule Piece := do
  let keyword ← take .mark
  match t.text with
  | "if" =>
    let test ← condition read
    let first ← read .statement
    let second ← if ← atWord "else" then pure [← take .mark, ← read .statement] else pure []
    return .join .statement ([keyword, test, first] ++ second)
  | "for" =>
    let await ← word? "await"
    let left ← mark "("
    let head ← bracketed (forHead read)
    let right ← mark ")"
    return .join .statement ([keyword] ++ await ++ [left] ++ head ++ [right, ← read .statement])
  | "while" | "with" =>
    return .join .statement [keyword, ← condition read, ← read .statement]
  | "do" =>
    let body ← read .statement
    let again ← word "while"
    let test ← condition read
    return .join .statement ([keyword, body, again, test] ++ (← mark? ";"))
  | "return" | "throw" =>
    let t ← token
    let value ← if t.onNewLine || t.isMark ";" || t.isMark "\x7d" || t.kind == .ending then pure []
      else pure [← read .sequence]
    return .join .statement ([keyword] ++ value ++ (← semicolon))
  | "break" | "continue" =>
    let t ← token
    let label ← if t.isName && !t.onNewLine then pure [← take .identifier] else pure []
    return .join .statement ([keyword] ++ label ++ (← semicolon))
  | "debugger" => return .join .statement ([keyword] ++ (← semicolon))
  | "try" =>
    let body ← read .block
    let handler ← if ← atWord "catch" then do
        let caught ← take .mark
        let what ← if ← atMark "(" then do
            let left ← take .mark
            let name ← read .binding
            let type ← typeClause? read
            pure ([left, name] ++ type ++ [← mark ")"])
          else pure []
        pure ([caught] ++ what ++ [← read .block])
      else pure []
    let last ← if ← atWord "finally" then pure [← take .mark, ← read .block] else pure []
    return .join .statement ([keyword, body] ++ handler ++ last)
  | "switch" =>
    let subject ← condition read
    let left ← mark "\x7b"
    let inner ← bracketed (many do
      let t ← token
      if t.isMark "\x7d" || t.kind == .ending then return none
      else if t.isWord "case" then
        return some [← take .mark, ← read .sequence, ← mark ":"]
      else if t.isWord "default" && (← nextToken).isMark ":" then
        return some [← take .mark, ← take .mark]
      else return some [← either (read .statement) takeFault])
    return .join .statement ([keyword, subject, left] ++ inner ++ (← lastBrace))
  | _ => fail

/-- The words with which statements of control flow begin. -/
def controlWords : List String :=
  ["if", "for", "while", "with", "do", "return", "throw", "break", "continue", "debugger", "try",
   "switch"]

/-- An interface: a name for an object type that may extend others. -/
def interfaceDeclaration (read : Reader) : Rule Piece := do
  let keyword ← word "interface"
  let name ← identifier
  let generics ← typeParameters? read
  let above ← if ← atWord "extends" then do
      let operator ← take .mark
      pure ([operator] ++ (← commaList "\x7b" (read .type)))
    else pure []
  let body ← objectType read
  return .join .interfaceDeclaration
    ([keyword, name.as .name] ++ generics ++ above ++ [body.as .body])

/-- A name for a type. -/
def typeAlias (read : Reader) : Rule Piece := do
  let keyword ← word "type"
  let name ← identifier
  let generics ← typeParameters? read
  let equals ← mark "="
  let value ← read .type
  return .join .typeAliasDeclaration
    ([keyword, name.as .name] ++ generics ++ [equals, value.as .value] ++ (← semicolon))

/-- An enumeration of named values. -/
def enumDeclaration (read : Reader) : Rule Piece := do
  let constant ← word? "const"
  let keyword ← word "enum"
  let name ← identifier
  let left ← mark "\x7b"
  let members ← bracketed (commaList "\x7d" do
    let name ← memberName read
    if ← atMark "=" then
      return .join .enumAssignment [name.as .name, ← take .mark, (← read .expression).as .value]
    else return name)
  let body := Piece.join .enumBody ([left] ++ members ++ (← lastBrace))
  return .join .enumDeclaration (constant ++ [keyword, name.as .name, body.as .body])

/-- A namespace or a module: its name, or a quoted one, and its statements. -/
def namespaceDeclaration (read : Reader) : Rule Piece := do
  let keyword ← take .mark
  let name ← if (← token).kind == .quoted then take .stringText
    else extend step (← identifier)
  let body ← if ← atMark "\x7b" then pure [(← read .block).as .body] else semicolon
  return .join .namespaceDeclaration ([keyword, name.as .name] ++ body)
where
  step (p : Piece) : Rule (Option Piece) := do
    if ← atMark "." then return some (.join .memberExpression [p, ← take .mark, ← propertyWord])
    else return none

/-- A declaration that only texts with types hold, if one begins here. -/
def typedDeclaration (read : Reader) : Rule Piece := do
  let t ← token
  let next ← nextToken
  require (t.kind == .word && !next.onNewLine || t.isWord "enum" || t.isWord "const")
  match t.text with
  | "interface" => interfaceDeclaration read
  | "type" => typeAlias read
  | "enum" => enumDeclaration read
  | "const" =>
    require (next.isWord "enum")
    enumDeclaration read
  | "namespace" | "module" =>
    require (next.isName || next.kind == .quoted)
    namespaceDeclaration read
  | "abstract" =>
    require (next.isWord "class")
    let keyword ← take .mark
    return .join .abstractClassDeclaration ([keyword] ++ (← classRest read className?))
  | "declare" =>
    let keyword ← take .mark
    let t ← token
    if t.isWord "global" then
      return .join .ambientDeclaration [keyword, ← take .mark, ← read .block]
    require (t.kind == .word)
    return .join .ambientDeclaration [keyword, (← read .statement).as .declaration]
  | _ => fail

/-- A function, class or type declaration, or variables: what can be exported. -/
def declarationRule (read : Reader) : Rule Piece := do
  let t ← token
  if (← hasTypes) && t.kind == .word then
    either (typedDeclaration read) common
  else common
where
  common : Rule Piece := do
    let t ← token
    if ← atFunction then functionDeclaration read
    else if t.isWord "class" then
      return .join .classDeclaration (← classRest read (do return [(← identifier).as .name]))
    else if t.isMark "@" then
      let notes ← decorators read
      let words ← word? "abstract"
      let kind := if words.isEmpty then Kind.classDeclaration else .abstractClassDeclaration
      return .join kind
        (notes ++ words ++ (← classRest read (do return [(← identifier).as .name])))
    else
      require (← atDeclaration)
      variableStatement read

/-- An expression as a statement. -/
def expressionStatement (read : Reader) : Rule Piece := do
  let e ← read .sequence
  return .join .statement ([e] ++ (← semicolon))

/-- A statement that neither imports nor exports. -/
def plainStatement (read : Reader) : Rule Piece := do
  let t ← token
  match t.kind with
  | .mark =>
    if t.text == "\x7b" then read .block
    else if t.text == ";" then return .join .statement [← take .mark]
    else if t.text == "@" then either (declarationRule read) (expressionStatement read)
    else expressionStatement read
  | .word =>
    let next ← nextToken
    if controlWords.contains t.text then controlStatement read t
    else if t.isName && next.isMark ":" then
      return .join .statement [← take .identifier, ← take .mark, ← read .statement]
    else if Token.reserved.contains t.text || (← atFunction) || (← atDeclaration) then
      either (declarationRule read) (expressionStatement read)
    else if ← hasTypes then
      either (typedDeclaration read) (expressionStatement read)
    else expressionStatement read
  | .ending => fail
  | _ => expressionStatement read

end CodeSurvey.Syntax.Rule
