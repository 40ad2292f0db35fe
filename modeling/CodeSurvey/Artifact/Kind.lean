/-!
# Kinds of artifacts

Five kinds of artifacts are made from the workspace itself. Four of them may be described in prose
as well, which makes an artifact of its own.
-/

namespace CodeSurvey.Artifact

/-- A kind of artifact that is made from the workspace. -/
inductive CoreKind where
  | directory
  | summary
  | dataModel
  | architecture
  | workflow
  deriving Repr, DecidableEq

namespace CoreKind

/-- The name of a kind, which is also that of its files. -/
def name : CoreKind → String
  | directory => "directory"
  | summary => "summary"
  | dataModel => "dataModel"
  | architecture => "architecture"
  | workflow => "workflow"

/-- The kinds in the order in which they are made. -/
def all : List CoreKind := [directory, summary, dataModel, architecture, workflow]

/-- The kind of a name. -/
def ofName? (name : String) : Option CoreKind := all.find? (·.name == name)

end CoreKind

/-- A kind of artifact that is described in prose. -/
inductive DocsKind where
  | summary
  | dataModel
  | architecture
  | workflow
  deriving Repr, DecidableEq

namespace DocsKind

/-- The kind that is described. -/
def source : DocsKind → CoreKind
  | summary => .summary
  | dataModel => .dataModel
  | architecture => .architecture
  | workflow => .workflow

/-- The kinds in the order in which they are described. -/
def all : List DocsKind := [summary, dataModel, architecture, workflow]

/-- The word by which the documentation service knows a kind. -/
def serviceWord : DocsKind → String
  | summary => "codebaseSummary"
  | dataModel => "dataModel"
  | architecture => "architecture"
  | workflow => "workflows"

/-- The described kind of a name. -/
def ofSourceName? (name : String) : Option DocsKind := all.find? (·.source.name == name)

end DocsKind

/-- A kind of artifact. -/
inductive Kind where
  | core (k : CoreKind)
  | docs (k : DocsKind)
  deriving Repr, DecidableEq

namespace Kind

/-- The name of a kind; what is described in prose has the name of what it describes in it. -/
def name : Kind → String
  | core k => k.name
  | docs k => k.source.name ++ "-docs"

/-- All kinds in order: those made from the workspace, then those in prose. -/
def all : List Kind := CoreKind.all.map core ++ DocsKind.all.map docs

/-- The kind of a name. -/
def ofName? (name : String) : Option Kind := all.find? (·.name == name)

end Kind

end CodeSurvey.Artifact
