import CodeSurvey.Proofs.Survey.Counts
import CodeSurvey.Proofs.Syntax.Preorder
import CodeSurvey.Proofs.Syntax.Session

/-!
# The architecture agrees with the walk

The directories of a layer are those of the walk that belong to it, in their order. A file is
counted for a layer if the directory that it lies in is listed there: the walk lists the directory
of every file that does not lie in the root (`countP_listed`), and the root belongs to no layer. As
each directory is listed in one layer at most, the counts add up (`sum_fileCount`).

The dependencies are the imports of the code files, file by file in the order of the walk. What a
session has for a path is named by this path, whenever it was read, so each dependency starts at the
file that it was found in (`dependencies_eq`). The packages are sorted, and each is there once
(`pairwise_packagesOf`). Together: `architecture_agrees_with_walk`.
-/

namespace CodeSurvey.Imports

open CodeSurvey.Syntax

variable {aliases : List String}

/-- Only the statements and calls that are looked at are imports. -/
theorem kind_of_importOf? {n : Node} {i : Import} (h : importOf? aliases n = some i) :
    n.kind = .importStatement ∨ n.kind = .exportStatement ∨ n.kind = .callExpression := by
  unfold importOf? at h
  split at h
  · exact .inr (.inr ‹_›)
  · exact .inl ‹_›
  · exact .inr (.inl ‹_›)
  · cases h

/-- So the imports of a source are those of all its nodes, each before its parts. -/
theorem importsOf_eq (s : Source) :
    importsOf aliases s =
      (Place.preorder [] s.root).filterMap fun p => importOf? aliases p.node := by
  rw [importsOf, Node.select_eq, List.filterMap_map, List.filterMap_filter]
  refine List.filterMap_congr fun p _ => ?_
  split_ifs with hwanted
  · rfl
  · refine (Option.eq_none_iff_forall_ne_some.2 fun i hi => hwanted ?_).symm
    rcases kind_of_importOf? hi with hkind | hkind | hkind <;> simp [hkind]

/-- The name of a module tells where an import comes from. -/
theorem kind_eq_of_importOf? {n : Node} {i : Import} (h : importOf? aliases n = some i) :
    i.kind = kindOf aliases i.module := by
  unfold importOf? at h
  split at h
  · simp only [importOfCall?, Option.bind_eq_bind, Option.bind_eq_some_iff, Option.pure_def,
      Option.some.injEq] at h
    obtain ⟨callee, -, word, -, arguments, -, first, -, -, -, rfl⟩ := h
    rfl
  · obtain ⟨source, -, rfl⟩ := Option.map_eq_some_iff.1 h
    rfl
  · obtain ⟨source, -, rfl⟩ := Option.map_eq_some_iff.1 h
    rfl
  · cases h

end CodeSurvey.Imports

namespace CodeSurvey.Architecture

open CodeSurvey.Files CodeSurvey.Directory

variable {entries : List WalkEntry}

/-! ## Layers -/

/-- The root belongs to no layer. -/
theorem ofDirectory?_root : Layer.ofDirectory? (pathText []) = none := by
  decide +kernel

/-- What is listed in a layer are the directories that belong to it. -/
theorem mem_directories {l : Layer} {d : String} :
    d ∈ (layerShare entries l).directories ↔
      (∃ e ∈ entries, e.isDir = true ∧ e.path = d) ∧ Layer.ofDirectory? d = some l := by
  simp only [layerShare, List.mem_map, List.mem_filter, Bool.and_eq_true, beq_iff_eq]
  constructor
  · rintro ⟨e, ⟨he, hdir, hlayer⟩, rfl⟩
    exact ⟨⟨e, he, hdir, rfl⟩, hlayer⟩
  · rintro ⟨⟨e, he, hdir, rfl⟩, hlayer⟩
    exact ⟨e, ⟨he, hdir, hlayer⟩, rfl⟩

/-- They are in the order of the entries. -/
theorem directories_sublist (entries : List WalkEntry) (l : Layer) :
    (layerShare entries l).directories.Sublist
      ((entries.filter (·.isDir)).map WalkEntry.path) := by
  have hfilter : (entries.filter fun e => e.isDir && Layer.ofDirectory? e.path == some l) =
      (entries.filter (·.isDir)).filter fun e => Layer.ofDirectory? e.path == some l := by
    rw [List.filter_filter]
    simp only [Bool.and_comm]
  unfold layerShare
  rw [hfilter]
  exact List.filter_sublist.map _

/-- The layers of entries are those with a directory. -/
theorem mem_layersOf {share : LayerShare} :
    share ∈ layersOf entries ↔
      share = layerShare entries share.layer ∧ share.directories ≠ [] := by
  have hall : ∀ l, l ∈ Layer.all := by
    intro l
    cases l <;> decide
  simp only [layersOf, List.mem_filter, List.mem_map, Bool.not_eq_true', List.isEmpty_eq_false_iff]
  constructor
  · rintro ⟨⟨l, -, rfl⟩, hne⟩
    exact ⟨rfl, hne⟩
  · rintro ⟨hshare, hne⟩
    exact ⟨⟨share.layer, hall _, hshare.symm⟩, hne⟩

/-- The layers are in their order, and none is there twice. -/
theorem map_layer_sublist (entries : List WalkEntry) :
    ((layersOf entries).map LayerShare.layer).Sublist Layer.all := by
  unfold layersOf
  rw [List.filter_map, List.map_map]
  exact (List.map_id' Layer.all ▸ List.filter_sublist.map _ :)

/-- Each layer has one share. -/
theorem nodup_map_layer (entries : List WalkEntry) :
    ((layersOf entries).map LayerShare.layer).Nodup := by
  have hall : Layer.all.Nodup := by decide
  exact hall.sublist (map_layer_sublist entries)

/-! ## Files -/

/-- Among entries that form a tree an entry lies in a listed directory of a layer if the directory
that it lies in belongs to the layer. -/
theorem parent_mem_directories (h : IsTree entries) {e : WalkEntry} (he : e ∈ entries) {l : Layer} :
    pathText e.parent ∈ (layerShare entries l).directories ↔ parentLayer? e = some l := by
  rw [mem_directories]
  refine ⟨And.right, fun hlayer => ⟨?_, hlayer⟩⟩
  rcases h.listed e he with hroot | ⟨d, hd, hdir, hparts⟩
  · -- No entry of the root is counted.
    rw [parentLayer?, hroot, ofDirectory?_root] at hlayer
    cases hlayer
  · exact ⟨d, hd, hdir, congrArg pathText hparts⟩

/-- A layer has the files that lie in a directory which belongs to it. -/
theorem fileCount_eq {share : LayerShare} (hshare : share ∈ layersOf entries) :
    share.fileCount = entries.countP fun e => !e.isDir && parentLayer? e == some share.layer := by
  rw [(mem_layersOf.1 hshare).1]
  rfl

/-- These are the files that lie in one of the directories which are listed. -/
theorem countP_listed (h : IsTree entries) {share : LayerShare}
    (hshare : share ∈ layersOf entries) : share.fileCount =
      entries.countP fun e => !e.isDir && share.directories.contains (pathText e.parent) := by
  rw [fileCount_eq hshare]
  refine List.countP_congr fun e he => ?_
  have hparent := parent_mem_directories h he (l := share.layer)
  rw [← (mem_layersOf.1 hshare).1] at hparent
  simp only [Bool.and_eq_true, beq_iff_eq, List.contains_iff_mem, hparent]

/-- The counts of the layers add up to the files in directories that belong to one. -/
theorem sum_fileCount (h : IsTree entries) :
    ((layersOf entries).map LayerShare.fileCount).sum =
      entries.countP fun e => !e.isDir && (parentLayer? e).isSome := by
  have honce : ((layersOf entries).map fun share => some share.layer).Nodup := by
    have hsome := (nodup_map_layer entries).map (Option.some_injective Layer)
    rwa [List.map_map] at hsome
  have hkeys : ∀ e ∈ entries, (!e.isDir && (parentLayer? e).isSome) = true →
      parentLayer? e ∈ (layersOf entries).map fun share => some share.layer := by
    intro e he hfile
    obtain ⟨-, hsome⟩ := Bool.and_eq_true_iff.1 hfile
    obtain ⟨l, hl⟩ := Option.isSome_iff_exists.1 hsome
    -- The layer is not left out, since it has the directory of the file.
    have hlisted := (parent_mem_directories h he).2 hl
    have hshare : layerShare entries l ∈ layersOf entries :=
      mem_layersOf.2 ⟨rfl, List.ne_nil_of_mem hlisted⟩
    rw [hl]
    exact List.mem_map.2 ⟨_, hshare, rfl⟩
  rw [countP_eq_sum_keys honce hkeys]
  refine congrArg List.sum (List.map_congr_left fun share hshare => ?_)
  rw [fileCount_eq hshare]
  refine List.countP_congr fun e _ => ?_
  simp only [Bool.and_eq_true, beq_iff_eq]
  constructor
  · rintro ⟨hfile, hlayer⟩
    exact ⟨⟨hfile, by rw [hlayer]; rfl⟩, hlayer.symm⟩
  · rintro ⟨⟨hfile, -⟩, hlayer⟩
    exact ⟨hfile, hlayer.symm⟩

/-! ## Packages -/

/-- The packages are in order, and none is there twice. -/
theorem pairwise_packagesOf (ds : List Dependency) : (packagesOf ds).Pairwise (· < ·) := by
  unfold packagesOf
  generalize ((ds.filter fun d => d.kind == .external && !Text.hasStart "node:" d.target).map
    fun d => Imports.packageOf d.target) = names
  have hsorted : (names.mergeSort (· ≤ ·)).Pairwise (· ≤ ·) := by
    have hpairwise : (names.mergeSort (· ≤ ·)).Pairwise fun a b => decide (a ≤ b) = true := by
      refine List.pairwise_mergeSort (fun a b c hab hbc => ?_) (fun a b => ?_) names
      · exact decide_eq_true (le_trans (of_decide_eq_true hab) (of_decide_eq_true hbc))
      · simpa using le_total a b
    exact hpairwise.imp of_decide_eq_true
  have hle := hsorted.sublist (Text.distinct_sublist _)
  have hne := Text.nodup_distinct (names.mergeSort (· ≤ ·))
  exact (hle.and hne).imp fun h => lt_of_le_of_ne h.1 h.2

/-- They are those that a dependency names. -/
theorem mem_packagesOf {ds : List Dependency} {package : String} :
    package ∈ packagesOf ds ↔ ∃ d ∈ ds, d.kind = .external ∧
      Text.hasStart "node:" d.target = false ∧ Imports.packageOf d.target = package := by
  simp only [packagesOf, Text.mem_distinct, List.mem_mergeSort, List.mem_map, List.mem_filter,
    Bool.and_eq_true, beq_iff_eq, Bool.not_eq_true', and_assoc]

end CodeSurvey.Architecture

namespace CodeSurvey.Survey

open CodeSurvey.Architecture CodeSurvey.Files CodeSurvey.Settings CodeSurvey.Syntax
open CodeSurvey.Syntax.Session (Step Use)

/-- The architecture that a survey finds. -/
def architectureModel (s : Scene) (session : Session) : Model :=
  Model.ofWalk s.walk s.options.aliasStarts ((s.sources s.codePaths session).1.filterMap (·.2))

/-- The dependencies that a file is the source of: one for each node that is an import, in the
order of the text. -/
def dependenciesFrom (aliases : List String) (path : String) (source : Source) : List Dependency :=
  ((Place.preorder [] source.root).filterMap fun p => Imports.importOf? aliases p.node).map fun i =>
    ⟨path, i.module, i.kind⟩

/-- An architecture agrees with the walk and with what the paths of the code files hold. -/
structure Agrees (s : Scene) (held : String → Option Source) (m : Model) : Prop where
  /-- A directory that belongs to a layer is listed once, in that layer and in no other. -/
  once : ∀ e ∈ s.walk, e.isDir = true → ∀ l, Layer.ofDirectory? e.path = some l →
    ∃ share ∈ m.layers, share.layer = l ∧ share.directories.count e.path = 1 ∧
      ∀ other ∈ m.layers, e.path ∈ other.directories → other = share
  /-- What is listed are walked directories in the order of the walk. -/
  walked : ∀ share ∈ m.layers,
    share.directories.Sublist ((s.walk.filter (·.isDir)).map WalkEntry.path) ∧
      ∀ d ∈ share.directories, Layer.ofDirectory? d = some share.layer
  ordered : (m.layers.map LayerShare.layer).Sublist Layer.all
  distinct : (m.layers.map LayerShare.layer).Nodup
  nonempty : ∀ share ∈ m.layers, share.directories ≠ []
  fileCount : ∀ share ∈ m.layers, share.fileCount =
    s.walk.countP fun e => !e.isDir && share.directories.contains (pathText e.parent)
  total : (m.layers.map LayerShare.fileCount).sum =
    s.walk.countP fun e => !e.isDir && (Layer.ofDirectory? (pathText e.parent)).isSome
  dependencies : m.dependencies =
    (s.files.filter fun e => codeSuffixes.contains e.suffix).flatMap fun e =>
      (held e.path).toList.flatMap (dependenciesFrom s.options.aliasStarts e.path)
  /-- The name of a module tells where it comes from. -/
  kinds : ∀ d ∈ m.dependencies, d.kind = Imports.kindOf s.options.aliasStarts d.target
  increasing : m.packages.Pairwise (· < ·)
  packages : ∀ package, package ∈ m.packages ↔ ∃ d ∈ m.dependencies, d.kind = .external ∧
    Text.hasStart "node:" d.target = false ∧ Imports.packageOf d.target = package

variable {s : Scene}

/-- A directory of a layer is listed there once. -/
theorem listed_once (ht : s.workspace.tree.Tidy) {e : WalkEntry} (he : e ∈ s.walk)
    (hdir : e.isDir = true) {l : Layer} (hl : Layer.ofDirectory? e.path = some l) :
    ∃ share ∈ layersOf s.walk, share.layer = l ∧ share.directories.count e.path = 1 ∧
      ∀ other ∈ layersOf s.walk, e.path ∈ other.directories → other = share := by
  have hlisted : e.path ∈ (layerShare s.walk l).directories :=
    mem_directories.2 ⟨⟨e, he, hdir, rfl⟩, hl⟩
  have hnodup : (layerShare s.walk l).directories.Nodup := by
    have hwalk : (s.walk.map WalkEntry.path).Nodup := Workspace.nodup_paths_walk ht
    exact hwalk.sublist ((directories_sublist s.walk l).trans (List.filter_sublist.map _))
  refine ⟨layerShare s.walk l, mem_layersOf.2 ⟨rfl, List.ne_nil_of_mem hlisted⟩, rfl,
    List.count_eq_one_of_mem hnodup hlisted, fun other hother hin => ?_⟩
  obtain ⟨hshare, -⟩ := mem_layersOf.1 hother
  rw [hshare] at hin ⊢
  obtain ⟨-, hl'⟩ := mem_directories.1 hin
  rw [Option.some.inj (hl'.symm.trans hl)]

/-- The dependencies are those that are found file by file, if what a session has for a path is
named by this path. -/
theorem dependencies_eq {session : Session}
    (hnamed : ∀ path source, session.finds s.workspace s.options.maxFileBytes path = some source →
      source.path = path) :
    (architectureModel s session).dependencies =
      (s.files.filter fun e => codeSuffixes.contains e.suffix).flatMap fun e =>
        (session.finds s.workspace s.options.maxFileBytes e.path).toList.flatMap
          (dependenciesFrom s.options.aliasStarts e.path) := by
  have hfound := (session.getAll_eq_finds s.workspace s.options.maxFileBytes s.codePaths).1
  -- A source that is found for a path has this path, so it is named in the same way.
  have hsource (path : String) :
      (session.finds s.workspace s.options.maxFileBytes path).toList.flatMap
          (dependenciesOf s.options.aliasStarts) =
        (session.finds s.workspace s.options.maxFileBytes path).toList.flatMap
          (dependenciesFrom s.options.aliasStarts path) := by
    cases hfinds : session.finds s.workspace s.options.maxFileBytes path with
    | none => rfl
    | some source =>
      have hpath := hnamed path source hfinds
      simp only [Option.toList_some, List.flatMap_singleton, dependenciesOf, dependenciesFrom,
        Imports.importsOf_eq, hpath]
  calc (architectureModel s session).dependencies
      = (s.codePaths.filterMap fun path =>
          session.finds s.workspace s.options.maxFileBytes path).flatMap
            (dependenciesOf s.options.aliasStarts) := by
        unfold architectureModel Model.ofWalk Scene.sources
        rw [hfound, List.filterMap_map]
        rfl
    _ = s.codePaths.flatMap fun path =>
          (session.finds s.workspace s.options.maxFileBytes path).toList.flatMap
            (dependenciesOf s.options.aliasStarts) := by
        rw [List.filterMap_eq_flatMap_toList, List.flatMap_assoc]
    _ = s.codePaths.flatMap fun path =>
          (session.finds s.workspace s.options.maxFileBytes path).toList.flatMap
            (dependenciesFrom s.options.aliasStarts path) := by
        simp only [hsource]
    _ = _ := by rw [Scene.codePaths, List.flatMap_map]

/-- Where a dependency comes from is told by its name. -/
theorem kind_of_mem_dependencies {session : Session} {d : Dependency}
    (hd : d ∈ (architectureModel s session).dependencies) :
    d.kind = Imports.kindOf s.options.aliasStarts d.target := by
  obtain ⟨source, -, hd⟩ := List.mem_flatMap.1 hd
  obtain ⟨i, hi, rfl⟩ := List.mem_map.1 hd
  obtain ⟨n, -, hn⟩ := List.mem_filterMap.1 hi
  exact Imports.kind_eq_of_importOf? hn

/-- The architecture that a survey finds agrees with the walk, wherever links lead, and with what
the session has for the code files, however it was used before. -/
theorem architecture_agrees_with_walk (w : Workspace) (steps : List Step) (o : Options)
    (matcher : Ignore.Matcher)
    (ht : ((Use.start w).run o.maxFileBytes steps).files.tree.Tidy) :
    let now := (Use.start w).run o.maxFileBytes steps
    let s : Scene := ⟨now.files, o, matcher⟩
    (architecture s now.session).1.content =
        (architectureModel s now.session).toJson.stored ∧
      Agrees s (fun path => (now.answer o.maxFileBytes path).map Parsed.source)
        (architectureModel s now.session) := by
  intro now s
  have htree : Directory.IsTree s.walk := isTree_walk ht
  -- However the session was used, what it has for a path was parsed under this path.
  have hnamed (path : String) (source : Source)
      (h : now.session.finds s.workspace o.maxFileBytes path = some source) :
      source.path = path := by
    obtain ⟨early, -, hcontent⟩ := Session.Use.exists_content_of_answer h
    exact hcontent.named
  refine ⟨rfl, ?_⟩
  exact {
    once := fun e he hdir l hl => listed_once ht he hdir hl
    walked := fun share hshare => by
      rw [(mem_layersOf.1 hshare).1]
      exact ⟨directories_sublist s.walk _, fun d hd => (mem_directories.1 hd).2⟩
    ordered := map_layer_sublist s.walk
    distinct := nodup_map_layer s.walk
    nonempty := fun share hshare => (mem_layersOf.1 hshare).2
    fileCount := fun share hshare => countP_listed htree hshare
    total := sum_fileCount htree
    dependencies := dependencies_eq hnamed
    kinds := fun d hd => kind_of_mem_dependencies hd
    increasing := pairwise_packagesOf _
    packages := fun package => mem_packagesOf }

/-- The directory of the routes of a workspace is listed with the one file in it, and not again
under the path of a link. -/
theorem architecture_agrees_with_linked_walk :
    linkedRoute.tree.Tidy ∧
    ∃ share ∈ (architectureModel linkedScene .empty).layers, share.layer = .api ∧
      share.directories.count "app/api" = 1 ∧ share.fileCount = 1 := by
  have htidy : linkedRoute.tree.Tidy := by decide
  obtain ⟨-, hagrees⟩ := architecture_agrees_with_walk linkedRoute [] {} ⟨[], []⟩ htidy
  have hwalk : linkedScene.walk = _ := walk_linkedRoute
  have hmem : ⟨["app", "api"], true, 2⟩ ∈ linkedScene.walk := by
    rw [hwalk]
    decide
  have hlayer : Layer.ofDirectory? "app/api" = some .api := by decide +kernel
  obtain ⟨share, hshare, hapi, hcount, -⟩ := hagrees.once _ hmem rfl .api hlayer
  have hpath : WalkEntry.path ⟨["app", "api"], true, 2⟩ = "app/api" := by decide
  rw [hpath] at hcount
  -- The directory is listed once, so the one file in it is counted for the layer.
  have hlisted : "app/api" ∈ share.directories := by
    rw [← List.count_pos_iff, hcount]
    exact Nat.one_pos
  refine ⟨htidy, share, hshare, hapi, hcount, ?_⟩
  have hparent : pathText ["app", "api"] = "app/api" := hpath
  calc share.fileCount
      = linkedScene.walk.countP fun e =>
          !e.isDir && share.directories.contains (pathText e.parent) :=
        hagrees.fileCount share hshare
    _ = 1 := by
      rw [hwalk]
      simp [WalkEntry.parent, hparent, hlisted]

end CodeSurvey.Survey
