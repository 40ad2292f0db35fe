/-!
# Syntax trees

A tree keeps every token of the text as a leaf, with the blank text before it, so the text of any
node can be read back from its leaves. Nodes are told apart as finely as the surveys ask: the
declarations, imports, exports, calls and types they look for have kinds of their own, and all
other constructs share a few coarse kinds.
-/

namespace CodeSurvey.Syntax

/-- What a node is. -/
inductive Kind
  /-- Punctuation or a keyword: the only nodes that are not named. -/
  | mark
  | comment
  /-- A token that fits nowhere. -/
  | fault
  | program
  | identifier
  /-- The name of a property in a declaration or after a point. -/
  | propertyName
  | stringText
  /-- A number, template, regular expression or constant. -/
  | literal
  | template
  /-- The word `import` where a call stands on it. -/
  | importCallee
  | importStatement
  | importClause
  | namespaceImport
  | namedImports
  | importSpecifier
  /-- `x = require(…)` after the word `import`. -/
  | importRequire
  | exportStatement
  | exportClause
  | exportSpecifier
  | namespaceExport
  | functionDeclaration
  | generatorDeclaration
  /-- A function declaration without a body. -/
  | functionSignature
  | classDeclaration
  | abstractClassDeclaration
  | interfaceDeclaration
  | typeAliasDeclaration
  | enumDeclaration
  | enumBody
  | enumAssignment
  /-- A declaration by `let` or `const`. -/
  | lexicalDeclaration
  /-- A declaration by `var`. -/
  | variableDeclaration
  | variableDeclarator
  /-- A declaration after the word `declare`. -/
  | ambientDeclaration
  | namespaceDeclaration
  | importAlias
  | statement
  | block
  | arrowFunction
  | functionExpression
  | generatorFunction
  | classExpression
  | classBody
  | classMember
  | callExpression
  | arguments
  | newExpression
  | memberExpression
  | parenthesized
  /-- Any other expression: an operator chain, an array, an object and so on. -/
  | expression
  | markupElement
  | markupText
  | parameters
  | pattern
  | decorator
  | typeClause
  | typeParameters
  | typeArguments
  | objectType
  | propertySignature
  /-- Any other member of an object type. -/
  | signature
  | intersectionType
  | parenthesizedType
  /-- Any other type. -/
  | otherType
deriving DecidableEq, Inhabited, Repr

/-- The part a node plays in the node above it. -/
inductive Role
  | name
  | otherName
  | body
  | value
  | declaration
  | source
  | callee
  | arguments
  | type
deriving DecidableEq, Repr

/-- A syntax tree. A leaf holds the blank text before it, its own text and the line it starts in;
a branch holds its parts in the order of the text. -/
inductive Node
  | leaf (role : Option Role) (kind : Kind) (gap text : String) (line : Nat)
  | branch (role : Option Role) (kind : Kind) (children : List Node)
deriving Inhabited

namespace Node

/-- The role of a node in the one that it is part of. -/
def role : Node → Option Role
  | leaf r .. => r
  | branch r .. => r

/-- The kind of a node. -/
def kind : Node → Kind
  | leaf _ k .. => k
  | branch _ k _ => k

/-- The parts of a node; a leaf has none. -/
def children : Node → List Node
  | leaf .. => []
  | branch _ _ cs => cs

/-- The node in another role. -/
def as (n : Node) (r : Role) : Node :=
  match n with
  | leaf _ k g t l => leaf (some r) k g t l
  | branch _ k cs => branch (some r) k cs

/-- The number of nodes of a tree. -/
def size : Node → Nat
  | leaf .. => 1
  | branch _ _ cs => sizes cs + 1
where
  sizes : List Node → Nat
    | [] => 0
    | n :: ns => n.size + sizes ns

/-- The text of a node with the blank before it. -/
def spelled : Node → String
  | leaf _ _ gap text _ => gap ++ text
  | branch _ _ cs => spelledAll cs
where
  spelledAll : List Node → String
    | [] => ""
    | n :: ns => n.spelled ++ spelledAll ns

/-- The text of a node, from its first token to its last. -/
def text : Node → String
  | leaf _ _ _ text _ => text
  | branch _ _ cs => textAll cs
where
  textAll : List Node → String
    | [] => ""
    | n :: ns => n.text ++ spelled.spelledAll ns

/-- The line in which a node starts, counted from one. -/
def line : Node → Nat
  | leaf _ _ _ _ l => l
  | branch _ _ cs => lineOfFirst cs
where
  lineOfFirst : List Node → Nat
    | [] => 1
    | n :: _ => n.line

/-- The first part of a node that plays the role. -/
def part? (n : Node) (r : Role) : Option Node :=
  n.children.find? fun c => c.role == some r

/-- The parts of a node other than punctuation and keywords. -/
def namedParts (n : Node) : List Node :=
  n.children.filter fun c => c.kind != .mark

/-- Whether a node has the given word or punctuation among its parts. -/
def hasMark (n : Node) (text : String) : Bool :=
  n.children.any fun c => c.kind == .mark && c.text == text

/-- The text of a string without its quotes; other text is kept. -/
def unquoted (n : Node) : String :=
  match n.text.toList with
  | q :: rest =>
    if (q == '\'' || q == '"' || q == '\x60') && rest.getLast? == some q then
      String.ofList rest.dropLast
    else n.text
  | [] => n.text

end Node

end CodeSurvey.Syntax
