import CodeSurvey.Json.Basic

/-!
# Entities

What a data model is made of: entities with their fields, enumerations, and relationships between
entities.
-/

namespace CodeSurvey.DataModel

/-- A field of an entity. -/
structure Field where
  name : String
  type : String
  optional : Bool := false
  isArray : Bool := false
  /-- Whether the field leads to another entity. -/
  isRelation : Bool := false
  deriving Repr, DecidableEq

/-- Where an entity is defined. -/
inductive Origin where
  /-- A declaration in a source. -/
  | declared
  /-- A database schema. -/
  | schema
  deriving Repr, DecidableEq

/-- The name by which an origin is told. -/
def Origin.name : Origin → String
  | declared => "interface"
  | schema => "schema"

/-- A kind of record that a code base deals in. -/
structure Entity where
  name : String
  fields : List Field
  origin : Origin
  path : Option String := none
  deriving Repr, DecidableEq

/-- A type with named values. -/
structure Enumeration where
  name : String
  values : List String
  origin : Origin
  path : Option String := none
  deriving Repr, DecidableEq

/-- How many records stand on the two sides of a relationship. -/
inductive Multiplicity where
  | oneToOne
  | oneToMany
  | manyToOne
  | manyToMany
  deriving Repr, DecidableEq

/-- The name of a multiplicity. -/
def Multiplicity.name : Multiplicity → String
  | oneToOne => "one-to-one"
  | oneToMany => "one-to-many"
  | manyToOne => "many-to-one"
  | manyToMany => "many-to-many"

/-- A field of one entity that leads to another. -/
structure Relationship where
  source : String
  target : String
  multiplicity : Multiplicity
  sourceField : String
  deriving Repr, DecidableEq

/-- The data model of a code base. -/
structure Model where
  entities : List Entity
  enums : List Enumeration
  relationships : List Relationship
  deriving Repr, DecidableEq

/-- The value of a field. -/
def Field.toJson (f : Field) : Json :=
  .obj [("name", .str f.name), ("type", .str f.type), ("optional", .bool f.optional),
    ("isArray", .bool f.isArray), ("isRelation", .bool f.isRelation)]

/-- The value of an entity, with its path if it has one. -/
def Entity.toJson (e : Entity) : Json :=
  Json.record [("name", some (.str e.name)), ("fields", some (.arr (e.fields.map Field.toJson))),
    ("sourceKind", some (.str e.origin.name)), ("filePath", e.path.map .str)]

/-- The value of an enumeration, with its path if it has one. -/
def Enumeration.toJson (e : Enumeration) : Json :=
  Json.record [("name", some (.str e.name)), ("values", some (Json.texts e.values)),
    ("sourceKind", some (.str e.origin.name)), ("filePath", e.path.map .str)]

/-- The value of a relationship. -/
def Relationship.toJson (r : Relationship) : Json :=
  .obj [("source", .str r.source), ("target", .str r.target), ("kind", .str r.multiplicity.name),
    ("sourceField", .str r.sourceField)]

/-- The value of the model. -/
def Model.toJson (m : Model) : Json :=
  .obj [("entities", .arr (m.entities.map Entity.toJson)),
    ("enums", .arr (m.enums.map Enumeration.toJson)),
    ("relationships", .arr (m.relationships.map Relationship.toJson))]

end CodeSurvey.DataModel
