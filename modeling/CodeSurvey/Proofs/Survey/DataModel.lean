import CodeSurvey.Proofs.DataModel.Multiplicity
import CodeSurvey.Proofs.Files.Content
import CodeSurvey.Proofs.Survey.Counts
import CodeSurvey.Proofs.Syntax.Preorder

/-!
# The merged data model

The data model is put together from what the model files declare and then from what the schema
declares. Of each name the last declaration is left (`mem_lastOfEach`), at the place of the first
one (`map_name_lastOfEach`). A declaration of the schema is the last of its name, and one of a file
is if the schema has none of that name (`isLast_append`). So the schema stands for what the files
say, and all other names are those of the files (`data_model_is_merged`).
-/

namespace CodeSurvey.Survey

open CodeSurvey.DataModel CodeSurvey.Files CodeSurvey.Syntax

/-! ## The last of each name -/

section Merging

variable {α : Type} {name : α → String} {xs ys : List α} {x : α}

/-- An element of a list behind which no other one has its name. -/
def IsLast (name : α → String) (xs : List α) (x : α) : Prop :=
  ∃ before after, xs = before ++ x :: after ∧ name x ∉ after.map name

/-- What is left of declarations in code and in a schema. -/
structure Merges (name : α → String) (code schema merged : List α) : Prop where
  /-- Every name is there once. -/
  nodup : (merged.map name).Nodup
  /-- The names are those that are declared, in the order of first appearance. -/
  names : merged.map name = Text.distinct (code.map name ++ schema.map name)
  /-- The schema's last declaration of a name is there. -/
  from_schema : ∀ x, IsLast name schema x → x ∈ merged
  /-- Of a name that the schema does not declare, the last declaration in code is there. -/
  from_code : ∀ x, IsLast name code x → name x ∉ schema.map name → x ∈ merged
  /-- Nothing else is there. -/
  nothing_else : ∀ x ∈ merged,
    IsLast name schema x ∨ IsLast name code x ∧ name x ∉ schema.map name

/-- The last element of a name is the first one from the end. -/
theorem find?_reverse_eq_some_iff {n : String} :
    (xs.reverse.find? fun x => name x == n) = some x ↔ IsLast name xs x ∧ name x = n := by
  rw [List.find?_eq_some_iff_append, beq_iff_eq, and_comm]
  refine and_congr_left fun hname => ?_
  subst hname
  constructor
  · rintro ⟨after, before, heq, hafter⟩
    refine ⟨before.reverse, after.reverse, ?_, ?_⟩
    · rw [← List.reverse_reverse xs, heq]
      simp
    · rw [List.mem_map]
      rintro ⟨y, hy, hname⟩
      simpa [hname] using hafter y (List.mem_reverse.1 hy)
  · rintro ⟨before, after, rfl, hafter⟩
    refine ⟨after.reverse, before.reverse, by simp, fun y hy => ?_⟩
    rw [Bool.not_eq_true', beq_eq_false_iff_ne]
    exact fun hname => hafter (List.mem_map.2 ⟨y, List.mem_reverse.1 hy, hname⟩)

/-- Every name that occurs has a last element. -/
theorem exists_isLast {n : String} (h : n ∈ xs.map name) : ∃ x, IsLast name xs x ∧ name x = n := by
  cases hfind : xs.reverse.find? fun x => name x == n with
  | some x => exact ⟨x, find?_reverse_eq_some_iff.1 hfind⟩
  | none =>
    obtain ⟨x, hx, hname⟩ := List.mem_map.1 h
    exact absurd (beq_iff_eq.2 hname) (List.find?_eq_none.1 hfind x (List.mem_reverse.2 hx))

/-- What is left are the last elements of their names. -/
theorem mem_lastOfEach : x ∈ lastOfEach name xs ↔ IsLast name xs x := by
  rw [lastOfEach, List.mem_filterMap]
  constructor
  · rintro ⟨n, -, hfind⟩
    exact (find?_reverse_eq_some_iff.1 hfind).1
  · intro hlast
    refine ⟨name x, Text.mem_distinct.2 ?_, find?_reverse_eq_some_iff.2 ⟨hlast, rfl⟩⟩
    obtain ⟨before, after, rfl, -⟩ := hlast
    simp

/-- Every name is left, where it occurs first. -/
theorem map_name_lastOfEach (name : α → String) (xs : List α) :
    (lastOfEach name xs).map name = Text.distinct (xs.map name) := by
  rw [lastOfEach, List.map_filterMap]
  -- No name is left out, since each has a last element.
  have hsome : ∀ n ∈ Text.distinct (xs.map name),
      ((xs.reverse.find? fun x => name x == n).map name) = some n := by
    intro n hn
    obtain ⟨x, hlast, hname⟩ := exists_isLast (Text.mem_distinct.1 hn)
    rw [find?_reverse_eq_some_iff.2 ⟨hlast, hname⟩, Option.map_some, hname]
  rw [List.filterMap_congr hsome, List.filterMap_some]

/-- Among two lists, the last of a name is that of the second one, or that of the first one if the
second one does not have the name. -/
theorem isLast_append : IsLast name (xs ++ ys) x ↔
    IsLast name ys x ∨ IsLast name xs x ∧ name x ∉ ys.map name := by
  constructor
  · rintro ⟨before, after, heq, hafter⟩
    rcases List.append_eq_append_iff.1 heq with ⟨inner, rfl, rfl⟩ | ⟨inner, rfl, hinner⟩
    · exact .inl ⟨inner, after, rfl, hafter⟩
    · -- The element stands in the first list, unless it is the first of the second one.
      cases inner with
      | nil => exact .inl ⟨[], after, hinner.symm, hafter⟩
      | cons y inner =>
        rw [List.cons_append] at hinner
        obtain ⟨rfl, rfl⟩ := List.cons.inj hinner
        rw [List.map_append, List.mem_append, not_or] at hafter
        exact .inr ⟨⟨before, inner, rfl, hafter.1⟩, hafter.2⟩
  · rintro (⟨before, after, rfl, hafter⟩ | ⟨⟨before, after, rfl, hafter⟩, hys⟩)
    · exact ⟨xs ++ before, after, by simp, hafter⟩
    · refine ⟨before, after ++ ys, by simp, ?_⟩
      rw [List.map_append, List.mem_append, not_or]
      exact ⟨hafter, hys⟩

/-- The last of each name among what code and a schema declare. -/
theorem merges_lastOfEach (name : α → String) (code schema : List α) :
    Merges name code schema (lastOfEach name (code ++ schema)) where
  nodup := by
    rw [map_name_lastOfEach]
    exact Text.nodup_distinct _
  names := by rw [map_name_lastOfEach, List.map_append]
  from_schema x hx := mem_lastOfEach.2 (isLast_append.2 (.inl hx))
  from_code x hx hname := mem_lastOfEach.2 (isLast_append.2 (.inr ⟨hx, hname⟩))
  nothing_else x hx := isLast_append.1 (mem_lastOfEach.1 hx)

end Merging

/-! ## The survey of the data model -/

/-- A new session hands out what a path holds now. -/
theorem finds_empty (w : Workspace) (maxBytes : Int) (path : String) :
    Session.empty.finds w maxBytes path = Session.readNow w maxBytes path := by
  rw [Session.finds, Session.get]
  simp [Session.empty, Option.map_map, Function.comp_def]

/-- What the model files declare, as a session hands them out. -/
def declaredInCode (s : Scene) (session : Session) : List (List Entity × List Enumeration) :=
  ((modelPaths s).filterMap (session.finds s.workspace s.options.maxFileBytes)).map declaredIn

/-- What the schema declares, if there is one that is not ignored and can be read. -/
def declaredInSchema (s : Scene) : List Entity × List Enumeration :=
  match schemaFile? s with
  | some (path, some text) => Schema.declarations (some path) text
  | _ => ([], [])

/-- The data model of a workspace. -/
def builtModel (s : Scene) (session : Session) : DataModel.Model :=
  mergedModel (declaredInCode s session ++ [declaredInSchema s])

/-- Declarations of nothing make no difference. -/
theorem mergedModel_append_nil (declared : List (List Entity × List Enumeration)) :
    mergedModel (declared ++ [([], [])]) = mergedModel declared := by
  simp [mergedModel]

/-- The survey writes the data model of the workspace. -/
theorem content_dataModel (s : Scene) (session : Session) :
    (dataModel s session).1.content = (builtModel s session).toJson.stored := by
  have hfound : (s.sources (modelPaths s) session).1.filterMap (·.2) =
      (modelPaths s).filterMap (session.finds s.workspace s.options.maxFileBytes) := by
    rw [Scene.sources, (session.getAll_eq_finds _ _ _).1, List.filterMap_map]
    rfl
  unfold dataModel builtModel declaredInCode declaredInSchema
  dsimp only
  rw [hfound]
  rcases schemaFile? s with _ | ⟨path, _ | text⟩
  · dsimp only
    rw [List.append_nil, mergedModel_append_nil]
  · dsimp only
    rw [List.append_nil, mergedModel_append_nil]
  · rfl

/-- The relationships of a merged model are between its entities. -/
theorem names_of_mem_relationships {entities : List Entity}
    (hnames : (entities.map (·.name)).Nodup) {r : Relationship} (hr : r ∈ relationships entities) :
    r.source ∈ entities.map (·.name) ∧ r.target ∈ entities.map (·.name) := by
  rw [relationships_eq hnames, List.mem_map] at hr
  obtain ⟨f, hf, rfl⟩ := hr
  obtain ⟨hplaced, hleads⟩ := List.mem_filter.1 hf
  rw [leads, Bool.and_eq_true] at hleads
  exact ⟨List.mem_map_of_mem (entity_mem hplaced), List.contains_iff_mem.1 hleads.2⟩

/-- The survey of the data model writes, for any workspace and whatever its session holds, what is
left of the declarations in code and in the schema; and relationships are between entities of it. -/
theorem data_model_is_merged (s : Scene) (session : Session) :
    (dataModel s session).1.content = (builtModel s session).toJson.stored ∧
      Merges Entity.name ((declaredInCode s session).flatMap (·.1)) (declaredInSchema s).1
        (builtModel s session).entities ∧
      Merges Enumeration.name ((declaredInCode s session).flatMap (·.2)) (declaredInSchema s).2
        (builtModel s session).enums ∧
      ∀ r ∈ (builtModel s session).relationships,
        r.source ∈ (builtModel s session).entities.map Entity.name ∧
          r.target ∈ (builtModel s session).entities.map Entity.name := by
  have hentities := merges_lastOfEach Entity.name ((declaredInCode s session).flatMap (·.1))
    (declaredInSchema s).1
  have henums := merges_lastOfEach Enumeration.name ((declaredInCode s session).flatMap (·.2))
    (declaredInSchema s).2
  have hmodel : builtModel s session =
      { entities := lastOfEach Entity.name
          ((declaredInCode s session).flatMap (·.1) ++ (declaredInSchema s).1)
        enums := lastOfEach Enumeration.name
          ((declaredInCode s session).flatMap (·.2) ++ (declaredInSchema s).2)
        relationships := relationships (lastOfEach Entity.name
          ((declaredInCode s session).flatMap (·.1) ++ (declaredInSchema s).1)) } := by
    simp [builtModel, mergedModel]
  refine ⟨content_dataModel s session, ?_⟩
  rw [hmodel]
  dsimp only
  -- The relationships depend on the entities that are left only, whichever they are.
  generalize lastOfEach Entity.name _ = entities at *
  exact ⟨hentities, henums, fun r hr => names_of_mem_relationships hentities.nodup hr⟩

/-! ## An alias without fields -/

section Alias

open Workspace

/-- The text of a name for an object type without fields. -/
def aliasText : String := "type Empty = \x7b\x7d;"

/-- A workspace with this text in a model file. -/
def aliasWorkspace : Workspace :=
  .ofEntries [(["models"], .dir), (["models", "a.ts"], .file aliasText.toUTF8)]

/-- A survey of it that leaves nothing out. -/
def aliasScene : Scene := ⟨aliasWorkspace, {}, ⟨[], []⟩⟩

/-- The model file is met below its directory. -/
theorem walkBelow_aliasWorkspace : aliasWorkspace.walkBelow ⟨10, true⟩ ⟨[], []⟩ "models" =
    [⟨["models", "a.ts"], false, 2⟩] := by
  have hstart : Text.trimChar '/' "models" = "models" := by decide
  have hparts : pathParts "models" = ["models"] := by decide
  have hkept : (⟨[], []⟩ : Ignore.Matcher).ignores "models" true = false := by decide
  have hnames : aliasWorkspace.tree.names ["ws", "models"] = ["a.ts"] :=
    List.mergeSort_singleton _
  have hroot : aliasWorkspace.tree.at? (aliasWorkspace.locate []) = .ok (["ws"], .dir) := by rfl
  have hdir : aliasWorkspace.tree.at? (aliasWorkspace.locate ["models"]) =
      .ok (["ws", "models"], .dir) := by rfl
  have hfile : aliasWorkspace.tree.at? (aliasWorkspace.locate ["models", "a.ts"]) =
      .ok (["ws", "models", "a.ts"], .file aliasText.toUTF8) := by rfl
  have hcount : aliasWorkspace.tree.dirCount = 3 := by rfl
  simp [walkBelow, hstart, hparts, hkept, hcount, real_of_at? hroot, real_of_at? hdir,
    walkFrom, walkNames, Tree.list, hnames, hdir, hfile, isDir_of_at? hdir, isDir_of_at? hfile,
    ignoresParts_nothing, Entry.isDir]

/-- It is the only model file. -/
theorem modelPaths_aliasScene : modelPaths aliasScene = ["models/a.ts"] := by
  have hthere : aliasScene.workspace.isDir (pathParts "models") = true := by decide
  have hothers : ∀ dir ∈ modelDirectories.tail,
      aliasScene.workspace.isDir (pathParts dir) = false := by decide
  have hmodels : aliasScene.filesBelow "models" = [⟨["models", "a.ts"], false, 2⟩] := by
    have hbelow : aliasScene.workspace.walkBelow aliasScene.options.limits aliasScene.matcher
        "models" = _ := walkBelow_aliasWorkspace
    rw [Scene.filesBelow, if_pos hthere, hbelow]
    rfl
  have hnone : ∀ dir ∈ modelDirectories.tail, aliasScene.filesBelow dir = [] :=
    fun dir hdir => if_neg (Bool.eq_false_iff.1 (hothers dir hdir))
  have hdirs : modelDirectories = "models" :: modelDirectories.tail := rfl
  rw [modelPaths, hdirs, List.flatMap_cons, hmodels, List.flatMap_eq_nil_iff.2 hnone]
  decide

/-- The file, parsed. -/
def aliasSource : Source :=
  let (root, hasFaults) := parse (.of .typescript) aliasText
  { path := "models/a.ts", language := .typescript, text := aliasText, root, hasFaults }

/-- The file is read as the text. -/
theorem text?_aliasWorkspace :
    aliasWorkspace.text? ["models", "a.ts"] aliasScene.options.maxFileBytes = some aliasText := by
  have hname : isBinaryName ((["models", "a.ts"].getLast?).getD "") = false := by decide
  have hbytes : aliasWorkspace.tree.bytes (aliasWorkspace.locate ["models", "a.ts"]) =
      .ok aliasText.toUTF8 := by rfl
  have hsize : ¬ aliasScene.options.maxFileBytes < aliasText.toUTF8.size := by decide
  have hread : aliasWorkspace.bytes? ["models", "a.ts"] = some aliasText.toUTF8 := by
    rw [bytes?, hbytes]
    rfl
  rw [text?, hname]
  simp only [size?, hbytes, Bool.false_eq_true, if_false]
  rw [if_neg hsize, hread, Option.map_some, textOf, utf8?_toUTF8]

/-- What a new session hands out for it is its text, parsed. -/
theorem finds_aliasScene : Session.empty.finds aliasScene.workspace
    aliasScene.options.maxFileBytes "models/a.ts" = some aliasSource := by
  have hparts : pathParts "models/a.ts" = ["models", "a.ts"] := by decide
  have hlanguage : scriptLanguage? "models/a.ts" = some .typescript := by decide
  have htext : aliasScene.workspace.text? ["models", "a.ts"] aliasScene.options.maxFileBytes =
      some aliasText := text?_aliasWorkspace
  rw [finds_empty, Session.readNow, hparts, htext, Option.bind_some, Source.ofText?,
    hlanguage, Option.map_some]
  unfold aliasSource
  rfl

/-- The data model is what the file declares. -/
theorem builtModel_aliasScene {source : Source}
    (hfinds : Session.empty.finds aliasScene.workspace aliasScene.options.maxFileBytes
      "models/a.ts" = some source) :
    builtModel aliasScene .empty = mergedModel [declaredIn source] := by
  have hschema : declaredInSchema aliasScene = ([], []) := by rfl
  have hcode : declaredInCode aliasScene .empty = [declaredIn source] := by
    rw [declaredInCode, modelPaths_aliasScene, List.filterMap_cons, hfinds]
    rfl
  rw [builtModel, hcode, hschema, mergedModel_append_nil]

/-- A model file declares a name for an object type, and no entity has the name: the type has no
fields. -/
theorem alias_without_fields_is_left_out :
    modelPaths aliasScene = ["models/a.ts"] ∧
      Session.empty.finds aliasScene.workspace aliasScene.options.maxFileBytes "models/a.ts" =
        some aliasSource ∧
      (∃ n ∈ aliasSource.root.select (· == .typeAliasDeclaration),
        (n.part? .name).map Node.text = some "Empty" ∧
          (n.part? .value).map Node.kind = some .objectType) ∧
      (builtModel aliasScene .empty).entities = [] := by
  refine ⟨modelPaths_aliasScene, finds_aliasScene, ?_, ?_⟩
  · rw [Node.select_eq]
    decide +kernel
  · -- A type without fields makes no entity, though it is a declaration.
    have hdeclared : (declaredIn aliasSource).1 = [] := by
      rw [declaredIn, Node.select_eq]
      dsimp only
      rw [List.filterMap_eq_nil_iff]
      decide +kernel
    rw [builtModel_aliasScene finds_aliasScene, mergedModel]
    dsimp only
    rw [List.flatMap_singleton, hdeclared, lastOfEach, List.map_nil]
    rfl

end Alias

end CodeSurvey.Survey
