import CodeSurvey.Architecture.EntryPoint
import CodeSurvey.Architecture.Layer
import CodeSurvey.Files.Walk
import CodeSurvey.Imports.Statement

/-!
# The architecture of a code base

The layers that directories belong to, the files at which execution begins, and the imports of the
code files.
-/

namespace CodeSurvey.Architecture

open CodeSurvey.Files

/-- A layer with its directories and the number of files that lie directly in them. -/
structure LayerShare where
  layer : Layer
  directories : List String
  fileCount : Nat
  deriving Repr, DecidableEq

/-- A file at which execution begins. -/
structure EntryPoint where
  path : String
  kind : EntryKind
  name : String
  deriving Repr, DecidableEq

/-- An import of a code file. -/
structure Dependency where
  source : String
  target : String
  kind : Imports.ModuleKind
  deriving Repr, DecidableEq

/-- The architecture of a code base. -/
structure Model where
  layers : List LayerShare
  entryPoints : List EntryPoint
  dependencies : List Dependency
  packages : List String
  deriving Repr, DecidableEq

/-- The value of a layer with its share of the files. -/
def LayerShare.toJson (l : LayerShare) : Json :=
  .obj [("layer", .str l.layer.name), ("directories", Json.texts l.directories),
    ("fileCount", Json.count l.fileCount)]

/-- The value of an entry point. -/
def EntryPoint.toJson (e : EntryPoint) : Json :=
  .obj [("filePath", .str e.path), ("kind", .str e.kind.name), ("name", .str e.name)]

/-- The value of a dependency. -/
def Dependency.toJson (d : Dependency) : Json :=
  .obj [("from", .str d.source), ("to", .str d.target), ("kind", .str d.kind.name)]

/-- The value of the model. -/
def Model.toJson (m : Model) : Json :=
  .obj [("layers", .arr (m.layers.map LayerShare.toJson)),
    ("entryPoints", .arr (m.entryPoints.map EntryPoint.toJson)),
    ("dependencyGraph", .arr (m.dependencies.map Dependency.toJson)),
    ("externalDependencies", Json.texts m.packages)]

/-- The layer of the directory that an entry lies in. -/
def parentLayer? (e : WalkEntry) : Option Layer := Layer.ofDirectory? (pathText e.parent)

/-- What belongs to a layer among the entries of a walk. -/
def layerShare (entries : List WalkEntry) (l : Layer) : LayerShare :=
  { layer := l
    directories :=
      (entries.filter fun e => e.isDir && Layer.ofDirectory? e.path == some l).map (·.path)
    fileCount := entries.countP fun e => !e.isDir && parentLayer? e == some l }

/-- The layers that have a directory, in their order. -/
def layersOf (entries : List WalkEntry) : List LayerShare :=
  (Layer.all.map (layerShare entries)).filter fun l => !l.directories.isEmpty

/-- The entry points among the files of a walk. -/
def entryPointsOf (entries : List WalkEntry) : List EntryPoint :=
  (entries.filter (!·.isDir)).filterMap fun e =>
    (entryPoint? e.path).map fun (kind, name) => ⟨e.path, kind, name⟩

/-- The imports of a source. -/
def dependenciesOf (aliases : List String) (s : Syntax.Source) : List Dependency :=
  (Imports.importsOf aliases s).map fun i => ⟨s.path, i.module, i.kind⟩

/-- The packages that dependencies name, in order and each once. Modules that the platform brings
along are none. -/
def packagesOf (ds : List Dependency) : List String :=
  Text.distinct (((ds.filter fun d =>
    d.kind == .external && !Text.hasStart "node:" d.target).map fun d =>
      Imports.packageOf d.target).mergeSort (· ≤ ·))

/-- The architecture that a walk and the sources met on it show. -/
def Model.ofWalk (entries : List WalkEntry) (aliases : List String) (sources : List Syntax.Source) :
    Model :=
  let dependencies := sources.flatMap (dependenciesOf aliases)
  { layers := layersOf entries, entryPoints := entryPointsOf entries, dependencies
    packages := packagesOf dependencies }

end CodeSurvey.Architecture
