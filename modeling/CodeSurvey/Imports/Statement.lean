import CodeSurvey.Json.Basic
import CodeSurvey.Syntax.Source
import CodeSurvey.Syntax.Walk
import CodeSurvey.Text.Basic

/-!
# Imports and exports of a source

Modules are named by import statements, by exports from another module, and by calls of `import`
and `require` with a plain string. Exported names are those that a statement declares or lists.
The name by which a module is imported tells where it comes from: relative names begin with a
point, aliases with one of the configured beginnings, and all others are packages.
-/

namespace CodeSurvey.Imports

open CodeSurvey.Syntax

/-! ## Module specifiers -/

/-- Where an imported module comes from. -/
inductive ModuleKind where
  | relative
  | aliased
  | external
  deriving Repr, DecidableEq

/-- The name by which the kind of a module is told. -/
def ModuleKind.name : ModuleKind → String
  | relative => "relative"
  | aliased => "alias"
  | external => "external"

/-- Where a module comes from, given how aliases begin. -/
def kindOf (aliases : List String) (module : String) : ModuleKind :=
  if Text.hasStart "." module then .relative
  else if aliases.any (Text.hasStart · module) then .aliased
  else .external

/-- The package that a module belongs to: its first segment, or its first two if it has a scope. -/
def packageOf (module : String) : String :=
  match Text.split module '/' with
  | first :: second :: _ =>
    if Text.hasStart "@" module then first ++ "/" ++ second else first
  | [first] => first
  | [] => module

/-! ## Imports and exports -/

/-- A use of another module. -/
structure Import where
  module : String
  kind : ModuleKind
  /-- The imported names, or what stands for them. -/
  names : List String
  line : Nat
  deriving Repr, DecidableEq

/-- The value of an import. -/
def Import.toJson (i : Import) : Json :=
  .obj [("module", .str i.module), ("kind", .str i.kind.name),
    ("importedNames", Json.texts i.names), ("lineNumber", Json.count i.line)]

/-- The names that one part of an import clause brings in: `default` and `*` stand for all that
a module exports by default or at all. -/
def clausePartNames (n : Node) : List String :=
  match n.kind with
  | .identifier => ["default"]
  | .namespaceImport => ["*"]
  | .namedImports =>
    (n.namedParts.filter (·.kind == .importSpecifier)).map fun s =>
      ((s.part? .name).map Node.text).getD ""
  | _ => []

/-- The names that an import statement brings in. -/
def importedNames (statement : Node) : List String :=
  let names := (statement.namedParts.filter (·.kind == .importClause)).flatMap fun clause =>
    clause.namedParts.flatMap clausePartNames
  if names.isEmpty then ["side-effect"] else names

/-- The names that the lists in braces of an export statement make known. -/
def listedNames (statement : Node) : List String :=
  (statement.namedParts.filter (·.kind == .exportClause)).flatMap fun clause =>
    (clause.namedParts.filter (·.kind == .exportSpecifier)).filterMap fun s =>
      ((s.part? .otherName).or (s.part? .name)).map Node.text

/-- Whether a declaration declares the one name it has. -/
def hasOneName : Kind → Bool
  | .functionDeclaration | .generatorDeclaration | .classDeclaration | .abstractClassDeclaration
  | .interfaceDeclaration | .typeAliasDeclaration | .enumDeclaration => true
  | _ => false

/-- The names that a declaration declares. Patterns declare none. -/
def declaredNames (declaration : Node) : List String :=
  if hasOneName declaration.kind then ((declaration.part? .name).map Node.text).toList
  else if declaration.kind == .lexicalDeclaration || declaration.kind == .variableDeclaration then
    (declaration.namedParts.filter (·.kind == .variableDeclarator)).filterMap fun d =>
      ((d.part? .name).filter (·.kind == .identifier)).map Node.text
  else []

/-- The names that an export statement makes known. -/
def exportedNames (statement : Node) : List String :=
  (if statement.hasMark "default" then ["default"] else []) ++
    ((statement.part? .declaration).map declaredNames).getD [] ++ listedNames statement

/-- The word that stands for the names if a call imports a module. -/
def importingWord? (callee : Node) : Option String :=
  if callee.kind == .importCallee then some "dynamic"
  else if callee.kind == .identifier && callee.text == "require" then some "require"
  else none

/-- The import that a call is, if its first argument is a plain string. -/
def importOfCall? (aliases : List String) (call : Node) : Option Import := do
  let word ← importingWord? (← call.part? .callee)
  let first ← (← call.part? .arguments).namedParts.head?
  guard (first.kind == .stringText)
  return ⟨first.unquoted, kindOf aliases first.unquoted, [word], call.line⟩

/-- The import that a statement or a call is. -/
def importOf? (aliases : List String) (n : Node) : Option Import :=
  match n.kind with
  | .callExpression => importOfCall? aliases n
  | .importStatement =>
    (n.part? .source).map fun s =>
      ⟨s.unquoted, kindOf aliases s.unquoted, importedNames n, n.line⟩
  | .exportStatement =>
    (n.part? .source).map fun s =>
      ⟨s.unquoted, kindOf aliases s.unquoted,
        if (listedNames n).isEmpty then ["*"] else listedNames n, n.line⟩
  | _ => none

/-- The imports of a source, in the order of the text. -/
def importsOf (aliases : List String) (s : Source) : List Import :=
  (s.root.select fun k =>
    k == .importStatement || k == .exportStatement || k == .callExpression).filterMap
      (importOf? aliases)

/-- The names that a source exports, each once. -/
def exportsOf (s : Source) : List String :=
  Text.distinct ((s.root.select (· == .exportStatement)).flatMap exportedNames)

end CodeSurvey.Imports
