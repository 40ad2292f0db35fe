import CodeSurvey.Calls.Function
import CodeSurvey.Calls.Sequence
import CodeSurvey.Workflow.Route

/-!
# Workflows

The operations that routes offer, the named functions, and the workflows they make up: one for
each resource that operations serve, then one for each category that at least two of the remaining
functions have.
-/

namespace CodeSurvey.Workflow

open CodeSurvey.Calls

/-- A method of a route. -/
inductive Method where
  | get
  | post
  | put
  | patch
  | delete
  deriving Repr, DecidableEq

namespace Method

/-- The name of a method. -/
def name : Method → String
  | get => "GET"
  | post => "POST"
  | put => "PUT"
  | patch => "PATCH"
  | delete => "DELETE"

/-- What a method does to a resource. -/
def effect : Method → String
  | get => "read"
  | post => "create"
  | put | patch => "update"
  | delete => "delete"

/-- All methods. -/
def all : List Method := [get, post, put, patch, delete]

/-- The method of a name. -/
def ofName? (name : String) : Option Method := all.find? (·.name == name)

end Method

/-- A method that a route file offers. -/
structure Operation where
  method : Method
  endpoint : String
  path : String
  deriving Repr, DecidableEq

/-- The value of an operation. -/
def Operation.toJson (o : Operation) : Json :=
  .obj [("method", .str o.method.name), ("operation", .str o.method.effect),
    ("endpoint", .str o.endpoint), ("filePath", .str o.path), ("handlerName", .str o.method.name)]

/-- Operations and functions that belong together. -/
structure Flow where
  name : String
  category : Category
  operations : List Operation
  handlers : List Handler
  callSequence : List String
  deriving Repr, DecidableEq

/-- The value of a workflow. -/
def Flow.toJson (w : Flow) : Json :=
  .obj [("name", .str w.name), ("kind", .str w.category.name),
    ("operations", .arr (w.operations.map Operation.toJson)),
    ("handlers", .arr (w.handlers.map Handler.toJson)),
    ("callSequence", Json.texts w.callSequence)]

/-- The elements that share a key, for each key in the order of its first element. -/
def classes {α κ : Type} [BEq κ] (key : α → κ) (xs : List α) : List (κ × List α) :=
  (Text.distinct (xs.map key)).map fun k => (k, xs.filter fun x => key x == k)

/-- The order of functions by the calls between them. -/
def sequenceOf (handlers : List Handler) (edges : List Edge) : List String :=
  callSequence (handlers.map (·.name)) (edges.map fun e => (e.caller, e.callee))

/-- Whether a function belongs to a resource: its file is named after it. -/
def servesResource (resource : String) (h : Handler) : Bool :=
  Text.contains (Text.lower resource) (Text.lower h.path)

/-- The workflow of a resource. -/
def resourceWorkflow (edges : List Edge) (resource : String) (operations : List Operation)
    (handlers : List Handler) : Flow :=
  { name := resourceTitle resource
    category := if handlers.isEmpty then .crud else Category.dominant (handlers.map (·.category))
    operations, handlers, callSequence := sequenceOf handlers edges }

/-- The workflows of the resources in turn, each with those of the remaining functions that belong
to it, and the functions that remain in the end. -/
def resourceWorkflows (edges : List Edge) :
    List (String × List Operation) → List Handler → List Flow × List Handler
  | [], handlers => ([], handlers)
  | (resource, operations) :: rest, handlers =>
    let (mine, others) := handlers.partition (servesResource resource)
    let (workflows, left) := resourceWorkflows edges rest others
    (resourceWorkflow edges resource operations mine :: workflows, left)

/-- The workflow of a category. -/
def categoryWorkflow (edges : List Edge) (c : Category) (handlers : List Handler) : Flow :=
  { name := c.title, category := c, operations := [], handlers
    callSequence := sequenceOf handlers edges }

/-- The workflows of operations and functions. -/
def workflowsOf (operations : List Operation) (handlers : List Handler) (edges : List Edge) :
    List Flow :=
  let (ofResources, left) :=
    resourceWorkflows edges (classes (fun o => resourceOf o.endpoint) operations) handlers
  let known := left.filter fun h => h.category != .unknown
  let groups := (classes (·.category) known).filter fun g => 2 ≤ g.2.length
  ofResources ++ groups.map fun g => categoryWorkflow edges g.1 g.2

/-- The workflows of a code base and what they are made from. -/
structure Model where
  workflows : List Flow
  operations : List Operation
  handlers : List Handler
  calls : List Edge
  deriving Repr, DecidableEq

/-- The value of the model. -/
def Model.toJson (m : Model) : Json :=
  .obj [("workflows", .arr (m.workflows.map Flow.toJson)),
    ("operations", .arr (m.operations.map Operation.toJson)),
    ("handlers", .arr (m.handlers.map Handler.toJson)),
    ("callGraph", .arr (m.calls.map Edge.toJson))]

/-- The operations of a route file: the methods that it exports. -/
def operationsOf (s : Syntax.Source) : List Operation :=
  let exported := Imports.exportsOf s
  (Method.all.filter fun m => exported.contains m.name).map fun m =>
    ⟨m, endpointOf s.path, s.path⟩

/-- The workflows that the route files and the code files of a workspace show. -/
def Model.ofSources (routes sources : List Syntax.Source) : Model :=
  let operations := routes.flatMap operationsOf
  let handlers := sources.flatMap handlersOf
  let calls := sources.flatMap edgesOf
  { workflows := workflowsOf operations handlers calls, operations, handlers, calls }

end CodeSurvey.Workflow
