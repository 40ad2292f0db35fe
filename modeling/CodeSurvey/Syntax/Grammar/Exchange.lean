import CodeSurvey.Syntax.Grammar.Statement

/-!
# Imports and exports
-/

namespace CodeSurvey.Syntax.Rule

/-- The name of something that is exported: a word or a string. -/
def exportedName : Rule Piece := do
  if (← token).kind == .quoted then quoted
  else
    require ((← token).kind == .word)
    take .identifier

/-- A name in braces, perhaps with another name after `as`. The word `type` before it is part of
it, unless it is the name itself. -/
def specifier (kind : Kind) : Rule Piece := do
  let t ← token
  let next ← nextToken
  let isSelf := next.isMark "," || next.isMark "\x7d" ||
    next.isWord "as" && (
      let third := next.following
      !(third.isMark "," || third.isMark "\x7d") && third.following.kind != .word)
  let words ←
    if (t.isWord "type" || t.isWord "typeof") && !isSelf && (← hasTypes) then pure [← take .mark]
    else pure []
  let name ← exportedName
  let renamed ← if ← atWord "as" then pure [← take .mark, (← exportedName).as .otherName]
    else pure []
  return .join kind (words ++ [name.as .name] ++ renamed)

/-- The names in braces. -/
def specifiers (clause one : Kind) : Rule Piece := do
  let left ← mark "\x7b"
  let names ← commaList "\x7d" (specifier one)
  return .join clause ([left] ++ names ++ [← mark "\x7d"])

/-- The word `from` and a module. -/
def fromModule : Rule (List Piece) := do
  let from_ ← word "from"
  return [from_, (← quoted).as .source]

/-- What is said of a module after its name. -/
def moduleAttributes (read : Reader) : Rule (List Piece) := do
  let t ← token
  if t.isWord "with" || t.isWord "assert" && !t.onNewLine then
    return [← take .mark, ← read .primary]
  else return []

/-- What is imported: a default name, all names under one, or names in braces. -/
def importClause : Rule Piece := do
  let first ← if (← token).isName then do
      let name ← identifier
      pure ([name] ++ (← mark? ","))
    else pure []
  if first.length == 1 then return .join .importClause first
  let t ← token
  let second ←
    if t.isMark "*" then do
      let star ← take .mark
      let as_ ← word "as"
      pure [Piece.join .namespaceImport [star, as_, ← identifier]]
    else if t.isMark "\x7b" then pure [← specifiers .namedImports .importSpecifier]
    else pure []
  require (!(first ++ second).isEmpty)
  return .join .importClause (first ++ second)

/-- A statement that imports. -/
def importStatement (read : Reader) : Rule Piece := do
  let keyword ← word "import"
  if (← token).kind == .quoted then
    let source ← quoted
    let attributes ← moduleAttributes read
    return .join .importStatement ([keyword, source.as .source] ++ attributes ++ (← semicolon))
  either (names keyword []) (either (do names keyword [← typeWord]) (either (required keyword)
    (shortName keyword)))
where
  typeWord : Rule Piece := do
    require (← hasTypes)
    either (word "type") (word "typeof")
  names (keyword : Piece) (words : List Piece) : Rule Piece := do
    let clause ← importClause
    let source ← fromModule
    let attributes ← moduleAttributes read
    return .join .importStatement ([keyword] ++ words ++ [clause] ++ source ++ attributes ++
      (← semicolon))
  /-- `import x = require("m")`. -/
  required (keyword : Piece) : Rule Piece := do
    let words ← if (← atWord "type") && (← nextToken).isName then pure [← take .mark] else pure []
    let name ← identifier
    let equals ← mark "="
    let require_ ← word "require"
    let left ← mark "("
    let source ← quoted
    let clause := Piece.join .importRequire [name, equals, require_, left, source.as .source,
      ← mark ")"]
    return .join .importStatement ([keyword] ++ words ++ [clause] ++ (← semicolon))
  /-- `import x = A.B`. -/
  shortName (keyword : Piece) : Rule Piece := do
    let name ← identifier
    let equals ← mark "="
    let path ← read .primary
    let path ← extend (memberSuffix read) path
    return .join .importAlias ([keyword, name, equals, path] ++ (← semicolon))

/-- A function or class without a name, or any expression, that is exported as the default. -/
def defaultExport (read : Reader) : Rule (List Piece) :=
  either (do return [(← declaration).as .declaration])
    (do
      let value ← read .expression
      return [value.as .value] ++ (← ending value))
where
  declaration : Rule Piece := declarationRule read
  /-- A function or class needs no semicolon. -/
  ending (value : Piece) : Rule (List Piece) := do
    match value.kind with
    | .functionExpression | .generatorFunction | .classExpression => mark? ";"
    | _ => semicolon

/-- A statement that exports, after the decorators of a class. -/
def exportStatement (read : Reader) : Rule Piece := do
  let notes ← decorators read
  let keyword ← word "export"
  let t ← token
  let rest ←
    if t.isMark "*" then do
      let star ← take .mark
      let named ← if ← atWord "as" then pure [Piece.join .namespaceExport
          [star, ← take .mark, ← exportedName]]
        else pure [star]
      let source ← fromModule
      let attributes ← moduleAttributes read
      pure (named ++ source ++ attributes ++ (← semicolon))
    else if t.isMark "\x7b" then clause []
    else if t.isWord "default" then do
      let default_ ← take .mark
      pure ([default_] ++ (← defaultExport read))
    else if t.isMark "=" then
      pure ([← take .mark, ← read .expression] ++ (← semicolon))
    else if t.isWord "as" && (← nextToken).isWord "namespace" then
      pure ([← take .mark, ← take .mark, ← identifier] ++ (← semicolon))
    else if t.isWord "type" && (← nextToken).isMark "\x7b" then clause [← take .mark]
    else if t.isWord "import" then
      pure [(← importStatement read).as .declaration]
    else pure [(← declarationRule read).as .declaration]
  return .join .exportStatement (notes ++ [keyword] ++ rest)
where
  /-- Names in braces, perhaps of another module. -/
  clause (words : List Piece) : Rule (List Piece) := do
    let names ← specifiers .exportClause .exportSpecifier
    let source ← if ← atWord "from" then fromModule else pure []
    let attributes ← if source.isEmpty then pure [] else moduleAttributes read
    return words ++ [names] ++ source ++ attributes ++ (← semicolon)

/-- A statement. -/
def statementRule (read : Reader) : Rule Piece := do
  let t ← token
  if t.isWord "import" then
    let next ← nextToken
    if next.isMark "(" || next.isMark "." then plainStatement read else importStatement read
  else if t.isWord "export" then exportStatement read
  else if t.isMark "@" then either (exportStatement read) (plainStatement read)
  else plainStatement read

end CodeSurvey.Syntax.Rule
