import CodeSurvey.Imports.Statement
import CodeSurvey.Workflow.Category

/-!
# Named functions of a source and the calls between them

A named function is a function declaration, or a function that a variable is declared with. An
edge leads from a named function to another whose name is called inside it.
-/

namespace CodeSurvey.Calls

open CodeSurvey.Syntax

/-- A named function. -/
structure Handler where
  name : String
  path : String
  category : Workflow.Category
  line : Nat
  isExported : Bool
  deriving Repr, DecidableEq

/-- A call of one named function inside another. -/
structure Edge where
  caller : String
  callee : String
  path : String
  line : Nat
  deriving Repr, DecidableEq

/-- The value of a handler. -/
def Handler.toJson (h : Handler) : Json :=
  .obj [("name", .str h.name), ("filePath", .str h.path), ("kind", .str h.category.name),
    ("lineNumber", Json.count h.line), ("isExported", .bool h.isExported)]

/-- The value of a call. -/
def Edge.toJson (e : Edge) : Json :=
  .obj [("caller", .str e.caller), ("callee", .str e.callee), ("filePath", .str e.path),
    ("lineNumber", Json.count e.line)]

/-- A named function in a tree: the node with its text, and how it is made known. -/
structure LocalFunction where
  name : String
  node : Node
  line : Nat
  isExported : Bool

/-- Whether a node of this kind declares a function. -/
def declaresFunction (k : Kind) : Bool := k == .functionDeclaration || k == .generatorDeclaration

/-- Whether a value of this kind is a function. -/
def isFunctionValue (k : Kind) : Bool :=
  k == .arrowFunction || k == .functionExpression || k == .generatorFunction

/-- The named function at a place. A function declaration is exported by the statement around it,
and the value of a variable by the statement around the declaration of the variable. -/
def functionAt? (exported : List String) (p : Place) : Option LocalFunction := do
  let name ← (p.node.part? .name).filter (·.kind == .identifier)
  if declaresFunction p.node.kind then
    return ⟨name.text, p.node, p.node.line,
      p.above.head? == some .exportStatement || exported.contains name.text⟩
  else
    let value ← (p.node.part? .value).filter fun v => isFunctionValue v.kind
    return ⟨name.text, value, p.node.line,
      p.above[1]? == some .exportStatement || exported.contains name.text⟩

/-- The names that a source exports of its own. -/
def ownExports (s : Source) : List String :=
  ((s.root.select (· == .exportStatement)).filter fun n =>
    (n.part? .source).isNone).flatMap Imports.exportedNames

/-- The named functions of a source, in the order of the text. -/
def functionsOf (s : Source) : List LocalFunction :=
  (s.root.places fun k => declaresFunction k || k == .variableDeclarator).filterMap
    (functionAt? (ownExports s))

/-- A named function of a source as a handler. -/
def LocalFunction.handler (path : String) (f : LocalFunction) : Handler :=
  ⟨f.name, path, Workflow.Category.ofFunctionName f.name, f.line, f.isExported⟩

/-- The named functions of a source as handlers. -/
def handlersOf (s : Source) : List Handler := (functionsOf s).map (·.handler s.path)

/-- The names that are called inside a tree, with the lines of the calls. -/
def calledNames (n : Node) : List (String × Nat) :=
  (n.select (· == .callExpression)).filterMap fun call =>
    ((call.part? .callee).filter (·.kind == .identifier)).map fun c => (c.text, call.line)

/-- The edges that begin in one of the functions. -/
def edgesFrom (path : String) (names : List String) (f : LocalFunction) : List Edge :=
  ((calledNames f.node).filter fun c => names.contains c.1).map fun c =>
    ⟨f.name, c.1, path, c.2⟩

/-- The calls between the named functions of a source: by caller, then in the order of the
text. -/
def edgesOf (s : Source) : List Edge :=
  let functions := functionsOf s
  functions.flatMap (edgesFrom s.path (functions.map (·.name)))

end CodeSurvey.Calls
