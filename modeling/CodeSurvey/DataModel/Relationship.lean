import CodeSurvey.DataModel.TypeText
import CodeSurvey.DataModel.Entity

/-!
# Relationships between entities

A field that leads to a listed entity is a relationship. Whether the other side has many or one
depends on whether the other entity has a field of the same arity that leads back.
-/

namespace CodeSurvey.DataModel

open CodeSurvey.Text

/-- The entity that a field's type names: the first alternative that is a value. -/
def baseType (type : String) : String :=
  let alternatives := (splitOn '|' (dropArrayMarks type.toList)).map stripBlanks
  match alternatives.find? fun cs =>
      !cs.isEmpty && cs != "null".toList && cs != "undefined".toList with
  | some cs => String.ofList cs
  | none => ""

/-- A field of a list of entities, by the position of its entity and its own. -/
structure FieldPlace where
  entity : Nat
  field : Nat
  deriving Repr, DecidableEq

/-- The last entity of a name, with its position. -/
def lastNamed? (entities : List Entity) (name : String) : Option (Entity × Nat) :=
  entities.zipIdx.reverse.find? fun e => e.1.name == name

/-- Whether an entity has a field, other than the one left out, that leads to a given entity with
the given arity. -/
def leadsBack (target : Entity × Nat) (name : String) (leftOut : FieldPlace) (isArray : Bool) :
    Bool :=
  target.1.fields.zipIdx.any fun f =>
    FieldPlace.mk target.2 f.2 != leftOut && f.1.isArray == isArray && baseType f.1.type == name

/-- The relationship that a field is, if its type names one of the entities. -/
def relationshipOf? (entities : List Entity) (source : Entity × Nat) (f : Field × Nat) :
    Option Relationship := do
  guard f.1.isRelation
  let target ← lastNamed? entities (baseType f.1.type)
  let back := leadsBack target source.1.name ⟨source.2, f.2⟩ f.1.isArray
  let multiplicity :=
    if f.1.isArray then (if back then Multiplicity.manyToMany else .oneToMany)
    else if back then .oneToOne else .manyToOne
  return ⟨source.1.name, target.1.name, multiplicity, f.1.name⟩

/-- The relationships of a list of entities, in the order of entities and fields. -/
def relationships (entities : List Entity) : List Relationship :=
  entities.zipIdx.flatMap fun source =>
    source.1.fields.zipIdx.filterMap (relationshipOf? entities source)

end CodeSurvey.DataModel
