import CodeSurvey.DataModel.Entity
import CodeSurvey.DataModel.TypeText
import CodeSurvey.Syntax.Source
import CodeSurvey.Syntax.Walk

/-!
# Entities declared in sources

Interfaces and names for object types are entities, and enumerations are enumerations.
-/

namespace CodeSurvey.DataModel

open CodeSurvey.Syntax

/-- The name of a property, without the quotes around it. -/
def propertyName (n : Node) : String :=
  if n.kind == .stringText then n.unquoted else n.text

/-- The field that a member of an object type declares. -/
def fieldOf? (member : Node) : Option Field := do
  guard (member.kind == .propertySignature)
  let name ← member.part? .name
  let type := match (member.part? .type).bind fun t => t.namedParts.head? with
    | some t => t.text
    | none => "any"
  return { name := propertyName name, type := simplify type, optional := member.hasMark "?",
           isArray := isArrayType type, isRelation := isRelationType type }

/-- The fields of an object type. -/
def fieldsOf (body : Node) : List Field := body.namedParts.filterMap fieldOf?

mutual

/-- The object types that a type is put together from: itself, or those inside brackets and
intersections. -/
def objectTypes : Node → List Node
  | .leaf .. => []
  | .branch r k cs =>
    if k == .objectType then [.branch r k cs]
    else if k == .intersectionType || k == .parenthesizedType then objectTypesOf cs
    else []

/-- The object types that several types are put together from. -/
def objectTypesOf : List Node → List Node
  | [] => []
  | n :: ns => objectTypes n ++ objectTypesOf ns

end

/-- The entity that an interface or a name for an object type declares. A type without fields is
none. -/
def entityOf? (path : String) (n : Node) : Option Entity := do
  let name ← n.part? .name
  if n.kind == .interfaceDeclaration then
    let body ← n.part? .body
    return { name := name.text, fields := fieldsOf body, origin := .declared, path := path }
  else
    let value ← n.part? .value
    let fields := (objectTypes value).flatMap fieldsOf
    guard (!fields.isEmpty)
    return { name := name.text, fields, origin := .declared, path := path }

/-- The name of a value of an enumeration. -/
def valueName? (member : Node) : Option String := do
  let name ← if member.kind == .enumAssignment then member.part? .name else some member
  match name.kind with
  | .propertyName | .identifier => return name.text
  | .stringText => return name.unquoted
  | _ => none

/-- The enumeration that a node declares. -/
def enumerationOf? (path : String) (n : Node) : Option Enumeration := do
  let name ← n.part? .name
  let body ← n.part? .body
  return { name := name.text, values := body.namedParts.filterMap valueName?, origin := .declared,
           path := path }

/-- The entities and enumerations that a source declares, in the order of the text. -/
def declaredIn (s : Source) : List Entity × List Enumeration :=
  ((s.root.select fun k => k == .interfaceDeclaration || k == .typeAliasDeclaration).filterMap
      (entityOf? s.path),
    (s.root.select (· == .enumDeclaration)).filterMap (enumerationOf? s.path))

end CodeSurvey.DataModel
