import CodeSurvey.Proofs.Directory.Outline
import CodeSurvey.Proofs.Files.Depth
import CodeSurvey.Proofs.Survey.Repetition
import Mathlib.Data.Set.Card

/-!
# Every file is counted once

Whatever links there are, the surveys count the files of the walk: those of the directories and of
the overview all files, that of the architecture the code files, each as parsed or as failed
(`Conserves`). The survey of the workflows goes over some files twice. It counts each path once, as
what the session has for it, which is the same the second time (`CountsOnce`). Together:
`counts_are_conserved`.
-/

namespace CodeSurvey.Syntax.Session

open CodeSurvey.Files

variable {w : Workspace} {maxBytes : Int}

/-- The source that a session hands out for a path. -/
def finds (s : Session) (w : Workspace) (maxBytes : Int) (path : String) : Option Source :=
  (s.get w maxBytes path).1.map Parsed.source

/-- It hands out the same after it was asked for any path. -/
theorem finds_get (s : Session) (asked path : String) :
    (s.get w maxBytes asked).2.finds w maxBytes path = s.finds w maxBytes path := by
  unfold finds get
  cases hfind : s.cached.find? (·.1 == asked) with
  | some x => rfl
  | none =>
    -- What was found at a path is kept, and is found there again.
    by_cases heq : asked = path
    · subst heq
      rw [List.find?_cons_of_pos (by simp), hfind]
    · dsimp only
      rw [List.find?_cons_of_neg (by simpa using heq)]
      cases s.cached.find? (·.1 == path) with
      | some x => rfl
      | none => simp only [Option.map_map, Function.comp_def]

/-- What it hands out for several paths, and that it hands out the same after that. -/
theorem getAll_eq_finds (s : Session) (w : Workspace) (maxBytes : Int) (paths : List String) :
    (getAll w maxBytes paths s).1 = paths.map (fun path => (path, s.finds w maxBytes path)) ∧
      ∀ path, (getAll w maxBytes paths s).2.finds w maxBytes path = s.finds w maxBytes path := by
  induction paths generalizing s with
  | nil => exact ⟨rfl, fun _ => rfl⟩
  | cons asked paths ih =>
    obtain ⟨hrest, hafter⟩ := ih (s.get w maxBytes asked).2
    unfold getAll
    refine ⟨?_, fun path => (hafter path).trans (s.finds_get asked path)⟩
    simp only [hrest, finds_get, List.map_cons]
    rfl

end CodeSurvey.Syntax.Session

namespace CodeSurvey.Survey

open CodeSurvey.Artifact CodeSurvey.Files CodeSurvey.Settings CodeSurvey.Syntax

/-! ## Counts of different paths -/

/-- The elements of a list without repetitions are as many as it is long. -/
theorem ncard_of_nodup {xs : List String} (h : xs.Nodup) : {x | x ∈ xs}.ncard = xs.length := by
  have hset : {x | x ∈ xs} = ↑xs.toFinset := by
    ext x
    rw [Set.mem_ofPred_eq, Finset.mem_coe, List.mem_toFinset]
  rw [hset, Set.ncard_coe_finset, List.toFinset_card_of_nodup h]

namespace Tally

variable {paths : List String} {find : String → Option Source}

/-- The paths that are looked at, each with what is found there. -/
def found (find : String → Option Source) (paths : List String) : List (String × Option Source) :=
  paths.map fun path => (path, find path)

/-- The counts are the numbers of the paths that they are made of. -/
theorem counts_of (found : List (String × Option Source)) :
    (of found).fileCount = (of found).counted.length ∧
      (of found).errorCount = (of found).failed.length := by
  simp [of, parsedCount, failedCount]

/-- The different paths for which the result is of one sort are those looked at with such a
result. -/
theorem mem_distinct_found (sort : Option Source → Bool) {path : String} :
    path ∈ (Text.distinct (((found find paths).filter fun x => sort x.2).map (·.1))).reverse ↔
      path ∈ paths ∧ sort (find path) = true := by
  simp only [found, List.mem_reverse, Text.mem_distinct, List.filter_map, List.map_map,
    List.mem_map, List.mem_filter, Function.comp_apply]
  constructor
  · rintro ⟨path', h, rfl⟩
    exact h
  · intro h
    exact ⟨path, h, rfl⟩

/-- The paths that are counted are those at which something is found. -/
theorem mem_counted {path : String} :
    path ∈ (of (found find paths)).counted ↔ path ∈ paths ∧ (find path).isSome = true :=
  mem_distinct_found Option.isSome

/-- The paths that have failed are the others. -/
theorem mem_failed {path : String} :
    path ∈ (of (found find paths)).failed ↔ path ∈ paths ∧ find path = none := by
  rw [← Option.isNone_iff_eq_none]
  exact mem_distinct_found Option.isNone

/-- No path is counted twice. -/
theorem nodup_counted_failed :
    ((of (found find paths)).counted ++ (of (found find paths)).failed).Nodup := by
  refine List.nodup_append'.2 ⟨?_, ?_, fun path hcounted hfailed => ?_⟩
  · exact List.nodup_reverse.2 (Text.nodup_distinct _)
  · exact List.nodup_reverse.2 (Text.nodup_distinct _)
  · have hsome := (mem_counted.1 hcounted).2
    rw [(mem_failed.1 hfailed).2] at hsome
    cases hsome

/-- Every path that is looked at is counted or has failed. -/
theorem mem_counted_append_failed {path : String} :
    path ∈ (of (found find paths)).counted ++ (of (found find paths)).failed ↔ path ∈ paths := by
  rw [List.mem_append, mem_counted, mem_failed, ← and_or_left, and_iff_left]
  cases find path
  · exact .inr rfl
  · exact .inl rfl

/-- The counts add up to the number of different paths. -/
theorem counts_eq_ncard :
    parsedCount (found find paths) + failedCount (found find paths) = {p | p ∈ paths}.ncard := by
  obtain ⟨hfiles, herrors⟩ := counts_of (found find paths)
  calc parsedCount (found find paths) + failedCount (found find paths)
      = (of (found find paths)).fileCount + (of (found find paths)).errorCount := rfl
    _ = ((of (found find paths)).counted ++ (of (found find paths)).failed).length := by
        rw [hfiles, herrors, List.length_append]
    _ = {p | p ∈ paths}.ncard := by
        rw [← ncard_of_nodup nodup_counted_failed]
        simp only [mem_counted_append_failed]

end Tally

/-! ## What the surveys meet -/

/-- A path is met by the survey of the workflows as that of a route file in the walk of a directory
of routes, or as that of a code file in the whole walk. -/
inductive Scene.Meets (s : Scene) : String → Prop
  | route {dir : String} {e : WalkEntry} (listed : dir ∈ routeDirectories)
      (there : s.workspace.isDir (pathParts dir) = true)
      (walked : e ∈ s.workspace.walkAt s.options.limits s.matcher dir) (file : e.isDir = false)
      (named : e.name ∈ Architecture.routeFiles) : Meets s e.path
  | code {e : WalkEntry} (walked : e ∈ s.walk) (file : e.isDir = false)
      (suffix : e.suffix ∈ codeSuffixes) : Meets s e.path

variable {s : Scene} {path : String}

/-- The code files are the files of the walk with a suffix of code. -/
theorem mem_codePaths :
    path ∈ s.codePaths ↔
      ∃ e ∈ s.walk, e.isDir = false ∧ e.suffix ∈ codeSuffixes ∧ e.path = path := by
  simp only [Scene.codePaths, Scene.files, List.mem_map, List.mem_filter, Bool.not_eq_true',
    List.contains_iff_mem, and_assoc]

/-- The route files are those in the walks of the directories of routes. -/
theorem mem_routePaths :
    path ∈ routePaths s ↔ ∃ dir ∈ routeDirectories, s.workspace.isDir (pathParts dir) = true ∧
      ∃ e ∈ s.workspace.walkAt s.options.limits s.matcher dir, e.isDir = false ∧
        e.name ∈ Architecture.routeFiles ∧ e.path = path := by
  have hnonempty : ∀ dir ∈ routeDirectories, dir.isEmpty = false := by decide
  have hbelow : ∀ dir ∈ routeDirectories, ∀ e, e ∈ s.filesBelow dir ↔
      s.workspace.isDir (pathParts dir) = true ∧
        e ∈ s.workspace.walkAt s.options.limits s.matcher dir ∧ e.isDir = false := by
    intro dir hdir e
    have hwalk : s.workspace.walkAt s.options.limits s.matcher dir =
        s.workspace.walkBelow s.options.limits s.matcher dir :=
      if_neg (by rw [hnonempty dir hdir]; exact Bool.false_ne_true)
    -- Both are empty if the directory is not there.
    rw [hwalk, Scene.filesBelow]
    split_ifs with hthere
    · simp [hthere]
    · simp [hthere]
  simp only [routePaths, List.mem_map, List.mem_filter, List.mem_flatMap, List.contains_iff_mem]
  constructor
  · rintro ⟨e, ⟨⟨dir, hdir, he⟩, hname⟩, rfl⟩
    obtain ⟨hthere, hwalk, hfile⟩ := (hbelow dir hdir e).1 he
    exact ⟨dir, hdir, hthere, e, hwalk, hfile, hname, rfl⟩
  · rintro ⟨dir, hdir, hthere, e, hwalk, hfile, hname, rfl⟩
    exact ⟨e, ⟨⟨dir, hdir, (hbelow dir hdir e).2 ⟨hthere, hwalk, hfile⟩⟩, hname⟩, rfl⟩

/-- The survey of the workflows goes over the paths that it meets. -/
theorem meets_iff : s.Meets path ↔ path ∈ routePaths s ++ s.codePaths := by
  rw [List.mem_append, mem_routePaths, mem_codePaths]
  constructor
  · intro hmeets
    cases hmeets with
    | route hdir hthere hwalk hfile hname =>
      exact .inl ⟨_, hdir, hthere, _, hwalk, hfile, hname, rfl⟩
    | code hwalk hfile hsuffix => exact .inr ⟨_, hwalk, hfile, hsuffix, rfl⟩
  · rintro (⟨dir, hdir, hthere, e, hwalk, hfile, hname, rfl⟩ | ⟨e, hwalk, hfile, hsuffix, rfl⟩)
    · exact .route hdir hthere hwalk hfile hname
    · exact .code hwalk hfile hsuffix

/-- In a tidy tree the code files have different paths, wherever links lead. -/
theorem nodup_codePaths_of_tidy (ht : s.workspace.tree.Tidy) : s.codePaths.Nodup := by
  have hwalk : (s.walk.map WalkEntry.path).Nodup := Workspace.nodup_paths_walk ht
  exact hwalk.sublist ((List.filter_sublist.trans List.filter_sublist).map _)

/-- The entries of a walk form a tree, wherever links lead. -/
theorem isTree_walk (ht : s.workspace.tree.Tidy) : Directory.IsTree s.walk := by
  have hnil : Workspace.startDir "" = [] := by rfl
  have hdescends := s.workspace.descends_walkAt s.options.limits s.matcher ""
  obtain ⟨hspread, hne⟩ := Workspace.spread_walkAt ht s.options.limits s.matcher ""
  rw [hnil] at hdescends hspread hne
  exact {
    once := hspread.once
    below := hne
    listed := fun e he => (hdescends.parent e he).imp And.right And.right }

/-! ## Surveys -/

/-- The counts of the survey of a kind are those of the files that it goes over. -/
structure Conserves (s : Scene) (kind : CoreKind) (out : Outcome) : Prop where
  directory : kind = .directory → out.fileCount = s.walk.countP fun e => !e.isDir
  summary : kind = .summary → out.fileCount = s.walk.countP fun e => !e.isDir
  architecture : kind = .architecture → out.fileCount + out.errorCount =
    s.walk.countP fun e => !e.isDir && codeSuffixes.contains e.suffix
  workflow : kind = .workflow → out.fileCount + out.errorCount = {path | s.Meets path}.ncard

/-- A run counts each path that it meets once, as one that is parsed or as one that has failed. -/
structure CountsOnce (s : Scene) (session : Session) (out : Outcome) (t : Tally) : Prop where
  once : (t.counted ++ t.failed).Nodup
  fileCount : out.fileCount = t.counted.length
  errorCount : out.errorCount = t.failed.length
  counted : ∀ path, path ∈ t.counted ↔
    s.Meets path ∧ (session.finds s.workspace s.options.maxFileBytes path).isSome = true
  failed : ∀ path, path ∈ t.failed ↔
    s.Meets path ∧ session.finds s.workspace s.options.maxFileBytes path = none

/-- What a session has for the sources of the workflows, in both passes. -/
theorem sources_append (session : Session) :
    (s.sources (routePaths s) session).1 ++
      (s.sources s.codePaths (s.sources (routePaths s) session).2).1 =
    Tally.found (session.finds s.workspace s.options.maxFileBytes)
      (routePaths s ++ s.codePaths) := by
  obtain ⟨hroutes, hafter⟩ :=
    session.getAll_eq_finds s.workspace s.options.maxFileBytes (routePaths s)
  unfold Scene.sources Tally.found
  rw [hroutes, (Session.getAll_eq_finds _ _ _ s.codePaths).1, List.map_append]
  simp only [hafter]

/-- A survey counts what it goes over. -/
theorem conserves_run (ht : s.workspace.tree.Tidy) (kind : CoreKind) (session : Session) :
    Conserves s kind (run kind s session).1 where
  directory := by
    rintro rfl
    show (outline s).fileCount = _
    rw [outline, Directory.fileCount_ofWalk (isTree_walk ht)]
  summary := by
    rintro rfl
    exact List.countP_eq_length_filter.symm
  architecture := by
    rintro rfl
    have hfound :=
      (session.getAll_eq_finds s.workspace s.options.maxFileBytes s.codePaths).1
    -- Each code file is counted in one of two ways, and the walk meets none of them twice.
    calc parsedCount (s.sources s.codePaths session).1 +
          failedCount (s.sources s.codePaths session).1
        = {p | p ∈ s.codePaths}.ncard := by
          rw [Scene.sources, hfound]
          exact Tally.counts_eq_ncard
      _ = s.codePaths.length := ncard_of_nodup (nodup_codePaths_of_tidy ht)
      _ = s.walk.countP fun e => !e.isDir && codeSuffixes.contains e.suffix := by
          rw [Scene.codePaths, List.length_map, Scene.files, List.filter_filter,
            List.countP_eq_length_filter]
          simp only [Bool.and_comm]
  workflow := by
    rintro rfl
    unfold run workflow
    simp only [sources_append, Tally.counts_eq_ncard, meets_iff]

/-- What a run on the workflows has counted is what is counted for the paths of both passes. -/
theorem tally_run (w : Workspace) (o : Options) (m : Ignore.Matcher) (session : Session)
    (t : Tally) : ((⟨.workflow, o, m, session, t⟩ : Surveyor).run w).2.tally =
      .of (Tally.found (session.finds w o.maxFileBytes)
        (routePaths ⟨w, o, m⟩ ++ Scene.codePaths ⟨w, o, m⟩)) := by
  have hstart : t.clear = Tally.of [] := rfl
  have hsources := sources_append (s := ⟨w, o, m⟩) session
  dsimp only at hsources
  rw [← hsources]
  unfold Surveyor.run generate
  simp only [parseAll_eq, hstart, Tally.foldl_visit_of, List.nil_append]

/-- A run on the workflows counts each path once. -/
theorem countsOnce_run (v : Surveyor) (hkind : v.kind = .workflow) (w : Workspace) :
    CountsOnce ⟨w, v.options, v.matcher⟩ v.session (v.run w).1 (v.run w).2.tally := by
  obtain ⟨kind, o, m, session, t⟩ := v
  obtain rfl : kind = .workflow := hkind
  have htally := tally_run w o m session t
  obtain ⟨hfiles, herrors⟩ := Tally.counts_of (Tally.found (session.finds w o.maxFileBytes)
    (routePaths ⟨w, o, m⟩ ++ Scene.codePaths ⟨w, o, m⟩))
  rw [← htally] at hfiles herrors
  refine ⟨?_, hfiles, herrors, fun path => ?_, fun path => ?_⟩
  · rw [htally]
    exact Tally.nodup_counted_failed
  · rw [htally, Tally.mem_counted, meets_iff]
  · rw [htally, Tally.mem_failed, meets_iff]

/-- The counts of surveys are those of the files of the walk, wherever links lead and whatever was
counted or read before: of a run of a surveyor, and of a survey in a scan. The files of the
workflows are met in several walks, and each is counted once for all of them. -/
theorem counts_are_conserved (v : Surveyor) {w : Workspace} (ht : w.tree.Tidy) :
    let s : Scene := ⟨w, v.options, v.matcher⟩
    Conserves s v.kind (v.run w).1 ∧ Conserves s v.kind (run v.kind s v.session).1 ∧
      (v.kind = .workflow → CountsOnce s v.session (v.run w).1 (v.run w).2.tally) := by
  intro s
  have hsurvey := conserves_run (s := s) ht v.kind v.session
  have hrun := (v.run_eq_of_nodup (nodup_codePaths_of_tidy (s := s) ht)).1
  exact ⟨hrun ▸ hsurvey, hsurvey, fun hkind => countsOnce_run v hkind w⟩

/-! ## A file that is met twice -/

section Linked

open Workspace

/-- A workspace with a route file, and a link to the directory that this lies in. -/
def linkedRoute : Workspace :=
  .ofEntries [(["app"], .dir), (["app", "api"], .dir),
    (["app", "api", "route.ts"], .file ByteArray.empty), (["app", "zz"], .link "api")]

/-- The whole walk of it meets the file under its own path only. -/
theorem walk_linkedRoute : linkedRoute.walk ⟨10, true⟩ ⟨[], []⟩ =
    [⟨["app"], true, 1⟩, ⟨["app", "api"], true, 2⟩, ⟨["app", "api", "route.ts"], false, 3⟩] := by
  have hnames : linkedRoute.tree.names ["ws"] = ["app"] := List.mergeSort_singleton _
  have hinner : linkedRoute.tree.names ["ws", "app"] = ["api", "zz"] :=
    List.mergeSort_of_pairwise (by decide)
  have hlast : linkedRoute.tree.names ["ws", "app", "api"] = ["route.ts"] :=
    List.mergeSort_singleton _
  have hroot : linkedRoute.tree.at? (linkedRoute.locate []) = .ok (["ws"], .dir) := by rfl
  have happ : linkedRoute.tree.at? (linkedRoute.locate ["app"]) = .ok (["ws", "app"], .dir) := by
    rfl
  have hapi : linkedRoute.tree.at? (linkedRoute.locate ["app", "api"]) =
      .ok (["ws", "app", "api"], .dir) := by rfl
  have hfile : linkedRoute.tree.at? (linkedRoute.locate ["app", "api", "route.ts"]) =
      .ok (["ws", "app", "api", "route.ts"], .file ByteArray.empty) := by rfl
  -- The link leads to a directory that the walk has come to already.
  have hlink : linkedRoute.tree.at? (linkedRoute.locate ["app", "zz"]) =
      .ok (["ws", "app", "api"], .dir) := by rfl
  have hcount : linkedRoute.tree.dirCount = 4 := by rfl
  simp [walk, hcount, real_of_at? hroot, walkFrom, walkNames, Tree.list, hroot, hnames, hinner,
    hlast, happ, hapi, hfile, hlink, isDir_of_at? happ, isDir_of_at? hapi, isDir_of_at? hfile,
    isDir_of_at? hlink, ignoresParts_nothing, Entry.isDir]

/-- So does the walk of the routes. -/
theorem walkBelow_linkedRoute : linkedRoute.walkBelow ⟨10, true⟩ ⟨[], []⟩ "app/api" =
    [⟨["app", "api", "route.ts"], false, 3⟩] := by
  have hstart : Text.trimChar '/' "app/api" = "app/api" := by decide
  have hparts : pathParts "app/api" = ["app", "api"] := by decide
  have hkept : (⟨[], []⟩ : Ignore.Matcher).ignores "app/api" true = false := by decide
  have hnames : linkedRoute.tree.names ["ws", "app", "api"] = ["route.ts"] :=
    List.mergeSort_singleton _
  have hroot : linkedRoute.tree.at? (linkedRoute.locate []) = .ok (["ws"], .dir) := by rfl
  have hapi : linkedRoute.tree.at? (linkedRoute.locate ["app", "api"]) =
      .ok (["ws", "app", "api"], .dir) := by rfl
  have hfile : linkedRoute.tree.at? (linkedRoute.locate ["app", "api", "route.ts"]) =
      .ok (["ws", "app", "api", "route.ts"], .file ByteArray.empty) := by rfl
  have hcount : linkedRoute.tree.dirCount = 4 := by rfl
  simp [walkBelow, hstart, hparts, hkept, hcount, real_of_at? hroot, real_of_at? hapi,
    walkFrom, walkNames, Tree.list, hnames, hapi, hfile, isDir_of_at? hapi, isDir_of_at? hfile,
    ignoresParts_nothing, Entry.isDir]

/-- A survey of it that leaves nothing out. -/
def linkedScene : Scene := ⟨linkedRoute, {}, ⟨[], []⟩⟩

/-- The survey of the workflows goes over the file twice. -/
theorem paths_linkedScene :
    routePaths linkedScene = ["app/api/route.ts"] ∧
      linkedScene.codePaths = ["app/api/route.ts"] := by
  have hthere : linkedScene.workspace.isDir (pathParts "app/api") = true := by decide
  have hothers : ∀ dir ∈ ["src/app/api", "pages/api", "src/pages/api"],
      linkedScene.workspace.isDir (pathParts dir) = false := by decide
  have hroute : linkedScene.filesBelow "app/api" = [⟨["app", "api", "route.ts"], false, 3⟩] := by
    have hbelow : linkedScene.workspace.walkBelow linkedScene.options.limits linkedScene.matcher
        "app/api" = _ := walkBelow_linkedRoute
    rw [Scene.filesBelow, if_pos hthere, hbelow]
    rfl
  -- Only one of the directories of routes is there.
  have hnone : ∀ dir ∈ ["src/app/api", "pages/api", "src/pages/api"],
      linkedScene.filesBelow dir = [] :=
    fun dir hdir => if_neg (Bool.eq_false_iff.1 (hothers dir hdir))
  constructor
  · unfold routePaths routeDirectories
    rw [List.flatMap_cons, hroute, List.flatMap_eq_nil_iff.2 hnone]
    decide
  · have hwalk : linkedScene.walk = _ := walk_linkedRoute
    unfold Scene.codePaths Scene.files
    rw [hwalk]
    decide

/-- The file is counted once, in one of the two ways. -/
theorem route_behind_link_is_counted_once :
    linkedRoute.tree.Tidy ∧
      let v : Surveyor := ⟨.workflow, {}, ⟨[], []⟩, .empty, {}⟩
      (v.run linkedRoute).1.fileCount + (v.run linkedRoute).1.errorCount = 1 ∧
        CountsOnce linkedScene .empty (v.run linkedRoute).1 (v.run linkedRoute).2.tally := by
  have htidy : linkedRoute.tree.Tidy := by
    have hwritten : ∀ x ∈ linkedRoute.tree.entries, ∀ name ∈ x.1,
        name ≠ "" ∧ '/' ∉ name.toList ∧ name ≠ "." ∧ name ≠ ".." := by decide
    exact ⟨by decide, by decide, hwritten⟩
  -- The same path is met as a file of routes and as a code file, and a set has it once.
  have hmeets : {path | linkedScene.Meets path} = {"app/api/route.ts"} := by
    ext path
    obtain ⟨hroutes, hcode⟩ := paths_linkedScene
    rw [Set.mem_ofPred_eq, meets_iff, hroutes, hcode]
    simp
  obtain ⟨hcounts, -, honce⟩ :=
    counts_are_conserved ⟨.workflow, {}, ⟨[], []⟩, .empty, {}⟩ htidy
  have hone := hcounts.workflow rfl
  rw [show ({path | Scene.Meets ⟨linkedRoute, {}, ⟨[], []⟩⟩ path} : Set String) = _ from hmeets,
    Set.ncard_singleton] at hone
  exact ⟨htidy, hone, honce rfl⟩

end Linked

end CodeSurvey.Survey
