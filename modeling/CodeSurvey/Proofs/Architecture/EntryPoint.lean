import CodeSurvey.Architecture.Model
import CodeSurvey.Proofs.Workflow.Route
import CodeSurvey.Workflow.Model

/-!
# The names of route files

The architecture names a route file after the directories that it lies in
(`RouteFile.entryPoint?_path`), and workflows put its operations under the endpoint of its path
(`RouteFile.endpointOf_path`). Both take the groups out; but only the one takes backslashes for
slashes, and only the other drops the ending of a script behind the last directory. So the names
are the same if and only if there is no backslash and no such ending (`RouteFile.chars_eq_iff`),
which is told by the directories (`RouteFile.named_alike_iff`).
-/

namespace CodeSurvey.Architecture

open Workflow (dropGroups dropEnding endpointOf routeEndings routeRoots scriptEndings segmentChars
  toSlash)

/-- The name of an entry point among those of a walk is that of its path. -/
theorem entryPoint?_of_mem {entries : List Files.WalkEntry} {e : EntryPoint}
    (h : e ∈ entryPointsOf entries) : entryPoint? e.path = some (e.kind, e.name) := by
  obtain ⟨entry, -, hentry⟩ := List.mem_filterMap.1 h
  obtain ⟨⟨kind, name⟩, hname, rfl⟩ := Option.map_eq_some_iff.1 hentry
  exact hname

/-- What follows `app` at the front is the route if it is accepted. -/
theorem routeAfterApp?_app {accepts : List Char → Bool} {route : List Char}
    (h : accepts route = true) : routeAfterApp? accepts ("app".toList ++ route) = some route := by
  have hdrop : Text.dropStart? "app".toList ('a' :: 'p' :: 'p' :: route) = some route := rfl
  show routeAfterApp? accepts ('a' :: 'p' :: 'p' :: route) = some route
  simp only [routeAfterApp?, hdrop, h, if_true]

/-- The directories below which files answer requests. -/
def apiRoots : List String := ["app/api", "src/app/api"]

/-- A file that answers requests, by the directories from the root down to it. -/
structure RouteFile where
  /-- The directory of all requests. -/
  root : String
  /-- The directories below it. -/
  dirs : List String
  file : String
  root_mem : root ∈ apiRoots
  dirs_ne : ∀ d ∈ dirs, d ≠ ""
  dirs_no_slash : ∀ d ∈ dirs, '/' ∉ d.toList
  dirs_one_line : ∀ d ∈ dirs, '\n' ∉ d.toList
  file_mem : file ∈ routeFiles

namespace RouteFile

variable (r : RouteFile)

/-- The path of the file. -/
def path : String := Text.join "/" (r.root :: (r.dirs ++ [r.file]))

/-- The segments of its route. -/
def segments : List String := "api" :: r.dirs

/-- Its route, with groups. -/
def route : List Char := segmentChars r.segments

/-- No directory has a backslash in its name, and the last one does not end like a script. -/
structure IsPlain : Prop where
  no_backslash : ∀ d ∈ r.dirs, '\\' ∉ d.toList
  no_ending : ∀ d, r.dirs.getLast? = some d → ∀ e ∈ scriptEndings, ¬ e.toList <:+ d.toList

/-! ## The route -/

/-- The segments of a route are not empty and hold no slash. -/
theorem segments_spec : ∀ s ∈ r.segments, s ≠ "" ∧ '/' ∉ s.toList := by
  refine List.forall_mem_cons.2 ⟨by decide, fun d hd => ⟨r.dirs_ne d hd, r.dirs_no_slash d hd⟩⟩

/-- The route is `/api` with the directories below it. -/
theorem route_eq : r.route = "/api".toList ++ segmentChars r.dirs := rfl

/-- The route is on one line. -/
theorem route_one_line : '\n' ∉ r.route := by
  rw [route, segmentChars, List.mem_flatMap]
  rintro ⟨s, hs, hmem⟩
  rcases List.mem_cons.1 hs with rfl | hs
  · exact absurd hmem (by decide)
  · exact r.dirs_one_line s hs ((List.mem_cons.1 hmem).resolve_left (by decide))

/-- So it does not end in a line feed. -/
theorem getLast?_route_ne : r.route.getLast? ≠ some '\n' :=
  fun h => r.route_one_line (List.mem_of_getLast? h)

/-- A backslash of the route is one of a directory. -/
theorem backslash_mem_route_iff : '\\' ∈ r.route ↔ ∃ d ∈ r.dirs, '\\' ∈ d.toList := by
  simp [route_eq, segmentChars]

/-- The route ends as its last segment does. -/
theorem suffix_route_iff {ending : List Char} (hslash : '/' ∉ ending) :
    ending <:+ r.route ↔ ending <:+ ((r.dirs.getLast?).getD "api").toList := by
  rcases List.eq_nil_or_concat r.dirs with hdirs | ⟨init, d, hdirs⟩
  · rw [route_eq, hdirs]
    exact @Text.suffix_append_sep_iff '/' [] "api".toList ending hslash
  · rw [List.concat_eq_append] at hdirs
    have hroute : r.route = "/api".toList ++ segmentChars init ++ '/' :: d.toList := by
      simp [route_eq, hdirs, segmentChars]
    rw [hroute, Text.suffix_append_sep_iff hslash, hdirs, List.getLast?_concat, Option.getD_some]

/-- The name of the file holds no slash. -/
theorem file_no_slash : '/' ∉ r.file.toList := by
  rcases List.mem_pair.1 r.file_mem with h | h <;> rw [h] <;> decide

/-- The endings of scripts are written without slashes, brackets and backslashes. -/
theorem scriptEndings_spec : ∀ e ∈ scriptEndings,
    e.toList ≠ [] ∧ '/' ∉ e.toList ∧ ')' ∉ e.toList ∧ '\\' ∉ e.toList := by
  decide

/-- What the path is made of. -/
theorem toList_path :
    r.path.toList = r.root.toList ++ (segmentChars r.dirs ++ '/' :: r.file.toList) :=
  Workflow.toList_join_path r.root r.dirs r.file

/-! ## The two names -/

/-- Without the ending of a script the route still begins with `/api`. -/
theorem api_prefix_named : "/api".toList <+: dropEnding scriptEndings r.route := by
  have hapi : "/api".toList <+: r.route := List.prefix_append _ _
  rcases Workflow.dropEnding_cases scriptEndings r.getLast?_route_ne with ⟨e, he, heq⟩ | ⟨-, heq⟩
  · have hnamed : dropEnding scriptEndings r.route <+: r.route := ⟨e.toList, heq.symm⟩
    rcases List.prefix_or_prefix_of_prefix hapi hnamed with h | ⟨between, hbetween⟩
    · exact h
    · -- The ending would begin in `/api`, which has no point.
      have hpoint : e.toList.head? = some '.' := by
        have hpoints : ∀ e ∈ scriptEndings, e.toList.head? = some '.' := by decide
        exact hpoints e he
      have he' : e.toList = between ++ segmentChars r.dirs := by
        refine List.append_cancel_left (heq.symm.trans ?_)
        rw [← List.append_assoc, hbetween, route_eq]
      cases between with
      | nil => exact ⟨[], by rw [List.append_nil, ← hbetween, List.append_nil]⟩
      | cons c between =>
        rw [he', List.cons_append, List.head?_cons, Option.some.injEq] at hpoint
        have hmem : '.' ∈ "/api".toList := by
          rw [← hbetween, hpoint]
          exact List.mem_append_right _ List.mem_cons_self
        exact absurd hmem (by decide)
  · rw [heq]
    exact hapi

/-- Below the root and without its name the path of the file is the route. -/
theorem dropEnding_path : dropEnding routeEndings
    ('/' :: ((routeRoots.filterMap fun root =>
      Text.dropStart? root.toList r.path.toList).head?).getD r.path.toList) = r.route := by
  have hbelow : (routeRoots.filterMap fun root =>
      Text.dropStart? root.toList r.path.toList).head? =
      some ("api".toList ++ (segmentChars r.dirs ++ '/' :: r.file.toList)) := by
    rw [toList_path]
    rcases List.mem_pair.1 r.root_mem with h | h <;>
      simp [h, routeRoots, Text.dropStart?]
  have hending : "/" ++ r.file ∈ routeEndings := by
    rcases List.mem_pair.1 r.file_mem with h | h <;> rw [h] <;> decide
  have hfeed : (r.route ++ ("/" ++ r.file).toList).getLast? ≠ some '\n' := by
    rcases List.mem_pair.1 r.file_mem with h | h <;> simp [h]
  have hpath : '/' :: ("api".toList ++ (segmentChars r.dirs ++ '/' :: r.file.toList)) =
      r.route ++ ("/" ++ r.file).toList := by simp [route_eq]
  rw [hbelow, Option.getD_some, hpath]
  exact Workflow.dropEnding_append (by decide) hending hfeed

/-- No group begins with the slash of `/api`. -/
theorem dropGroups_api (cs : List Char) :
    dropGroups ("/api".toList ++ cs) = "/api".toList ++ dropGroups cs := by
  have hgroup : Workflow.dropGroup? ('/' :: ("api".toList ++ cs)) = none := rfl
  calc dropGroups ('/' :: ("api".toList ++ cs))
      = '/' :: dropGroups ("api".toList ++ cs) := Workflow.dropGroups_char hgroup
    _ = '/' :: ("api".toList ++ dropGroups cs) := by
      rw [Workflow.dropGroups_append_left (by decide)]

/-- The endpoint of the file is its route without the ending of a script and without groups. -/
theorem endpointOf_path : endpointOf r.path = String.ofList
    (Text.dropEndWhile (· == '/') (dropGroups (dropEnding scriptEndings r.route))) := by
  obtain ⟨rest, hrest⟩ := r.api_prefix_named
  have hstart : "/api".toList <+:
      Text.dropEndWhile (· == '/') (dropGroups (dropEnding scriptEndings r.route)) := by
    have hstrip := Text.dropEndWhile_append_cons (p := (· == '/')) (c := 'i') rfl ['/', 'a', 'p']
      (dropGroups rest)
    rw [← hrest, dropGroups_api]
    exact ⟨_, hstrip.symm⟩
  unfold endpointOf
  simp only [dropEnding_path, List.isPrefixOf_iff_prefix.2 hstart, if_true]

/-- The route with slashes for backslashes is `/api` with such directories. -/
theorem map_route :
    r.route.map toSlash = "/api".toList ++ (segmentChars r.dirs).map toSlash := by
  rw [route_eq, List.map_append]
  rfl

/-- The path with slashes for backslashes. -/
theorem replaceChar_path : Text.replaceChar '\\' '/' r.path = String.ofList
    (r.root.toList ++ (segmentChars r.dirs).map toSlash ++ '/' :: r.file.toList) := by
  have hroot : r.root.toList.map toSlash = r.root.toList := by
    rcases List.mem_pair.1 r.root_mem with h | h <;> rw [h] <;> decide
  have hfile : r.file.toList.map toSlash = r.file.toList := by
    rcases List.mem_pair.1 r.file_mem with h | h <;> rw [h] <;> decide
  have hmap : Text.replaceChar '\\' '/' r.path = String.ofList (r.path.toList.map toSlash) := rfl
  rw [hmap, toList_path, List.map_append, List.map_append, List.map_cons, hroot, hfile,
    List.append_assoc]
  rfl

/-- What follows `/api` is nothing, or begins with a slash and is on one line. -/
theorem isRouteTail_map : isRouteTail ((segmentChars r.dirs).map toSlash) = true := by
  have hline : '\n' ∉ (segmentChars r.dirs).map toSlash := by
    rw [List.mem_map]
    rintro ⟨c, hc, hfeed⟩
    obtain rfl := Workflow.eq_of_toSlash_eq hfeed (by decide)
    exact r.route_one_line (r.route_eq ▸ List.mem_append_right _ hc)
  cases hdirs : r.dirs with
  | nil => rfl
  | cons d dirs =>
    rw [hdirs, Workflow.segmentChars_cons, List.map_cons, Workflow.toSlash_slash] at hline
    simp only [Workflow.segmentChars_cons, List.map_cons, Workflow.toSlash_slash, isRouteTail,
      beq_self_eq_true, Bool.true_and, Bool.not_eq_true', List.contains_eq_mem,
      decide_eq_false_iff_not]
    exact List.not_mem_of_not_mem_cons hline

/-- The file lies in the directory of requests, also with slashes for backslashes. -/
theorem contains_path :
    Text.contains "/app/api/" ("/" ++ Text.replaceChar '\\' '/' r.path) = true := by
  obtain ⟨rest, hrest⟩ :=
    (Workflow.atSlash_segmentChars r.dirs).map_toSlash.exists_append r.file.toList
  rw [Text.contains, Text.hasPart_iff, replaceChar_path, String.toList_append,
    String.toList_ofList, List.append_assoc, hrest]
  rcases List.mem_pair.1 r.root_mem with h | h
  · exact ⟨[], rest, by simp [h]⟩
  · exact ⟨"/src".toList, rest, by simp [h]⟩

/-- The route of the file, with slashes for backslashes and without groups, is its name. -/
theorem routeName?_path : routeName? isApiRoute (Text.replaceChar '\\' '/' r.path) =
    some (String.ofList (dropGroups (r.route.map toSlash))) := by
  have hafter : routeAfterApp? isApiRoute (r.root.toList ++ (segmentChars r.dirs).map toSlash) =
      some (r.route.map toSlash) := by
    have hapi : isApiRoute ("/api".toList ++ (segmentChars r.dirs).map toSlash) = true :=
      r.isRouteTail_map
    rw [map_route]
    rcases List.mem_pair.1 r.root_mem with h | h
    · rw [h]
      exact routeAfterApp?_app hapi
    · -- No `app` begins in `src/`.
      rw [h]
      exact routeAfterApp?_app hapi
  rw [routeName?, replaceChar_path, Text.beforeLast?_append _ r.file_no_slash]
  simp [hafter]

/-- The directory of the file, with slashes for backslashes. -/
theorem entryPoint?_path :
    entryPoint? r.path = some (.apiRoute, String.ofList (dropGroups (r.route.map toSlash))) := by
  unfold entryPoint?
  simp only [contains_path, routeName?_path, Bool.and_true]
  rw [replaceChar_path, Text.afterLast_append _ r.file_no_slash]
  simp [r.file_mem]

/-! ## Comparison -/

/-- The two names have the same characters if and only if the route has no backslash and does not
end like a script. -/
theorem chars_eq_iff : dropGroups (r.route.map toSlash) =
      Text.dropEndWhile (· == '/') (dropGroups (dropEnding scriptEndings r.route)) ↔
    '\\' ∉ r.route ∧ ∀ e ∈ scriptEndings, ¬ e.toList <:+ r.route := by
  constructor
  · intro heq
    rcases Workflow.dropEnding_cases scriptEndings r.getLast?_route_ne with
      ⟨e, he, hroute⟩ | ⟨hnone, hroute⟩
    · -- An ending that is dropped from one name only cannot be made up for by the other.
      obtain ⟨hne, hslash, hclose, hback⟩ := scriptEndings_spec e he
      generalize dropEnding scriptEndings r.route = named at *
      rw [hroute] at heq
      exact absurd (Workflow.not_mem_and_eq_nil_of_eq hslash hclose hback heq).2 hne
    · have heq' : dropGroups ((r.route ++ []).map toSlash) =
          Text.dropEndWhile (· == '/') (dropGroups r.route) := by
        rw [List.append_nil, heq, hroute]
      exact ⟨(Workflow.not_mem_and_eq_nil_of_eq List.not_mem_nil List.not_mem_nil
        List.not_mem_nil heq').1, hnone⟩
  · rintro ⟨hback, hnone⟩
    rcases Workflow.dropEnding_cases scriptEndings r.getLast?_route_ne with ⟨e, he, heq⟩ | ⟨-, heq⟩
    · exact absurd ⟨_, heq.symm⟩ (hnone e he)
    · -- No slash is at the end, as the last segment of a route is not empty.
      rw [heq, Workflow.map_toSlash_of_not_mem hback]
      refine (Text.dropEndWhile_of_getLast? fun c hc => ?_).symm
      rw [beq_eq_false_iff_ne]
      rintro rfl
      exact Workflow.getLast?_dropGroups_segmentChars r.segments_spec hc

/-- A file is plain exactly if its route holds no backslash and does not end like a script. -/
theorem isPlain_iff :
    r.IsPlain ↔ '\\' ∉ r.route ∧ ∀ e ∈ scriptEndings, ¬ e.toList <:+ r.route := by
  have hends : (∀ e ∈ scriptEndings, ¬ e.toList <:+ r.route) ↔
      ∀ d, r.dirs.getLast? = some d → ∀ e ∈ scriptEndings, ¬ e.toList <:+ d.toList := by
    have hroute : (∀ e ∈ scriptEndings, ¬ e.toList <:+ r.route) ↔
        ∀ e ∈ scriptEndings, ¬ e.toList <:+ ((r.dirs.getLast?).getD "api").toList :=
      forall₂_congr fun e he => not_congr (r.suffix_route_iff (scriptEndings_spec e he).2.1)
    have hapi : ∀ e ∈ scriptEndings, ¬ e.toList <:+ "api".toList := by decide
    rw [hroute]
    cases r.dirs.getLast? with
    | none => exact iff_of_true hapi nofun
    | some d => simp
  have hback : '\\' ∉ r.route ↔ ∀ d ∈ r.dirs, '\\' ∉ d.toList := by
    rw [backslash_mem_route_iff]
    push Not
    rfl
  rw [hback, hends]
  exact ⟨fun h => ⟨h.no_backslash, h.no_ending⟩, fun h => ⟨h.1, h.2⟩⟩

/-- Every route file is named, and its name is the endpoint of its operations if and only if it is
plain. -/
theorem named_alike_iff :
    (∃ name, entryPoint? r.path = some (.apiRoute, name)) ∧
    (entryPoint? r.path = some (.apiRoute, endpointOf r.path) ↔ r.IsPlain) ∧
    ∀ entries aliases sources, ∀ e ∈ (Model.ofWalk entries aliases sources).entryPoints,
      ∀ routes files, ∀ o ∈ (Workflow.Model.ofSources routes files).operations,
        e.path = r.path → o.path = r.path →
          e.kind = .apiRoute ∧ (e.name = o.endpoint ↔ r.IsPlain) := by
  have hname : entryPoint? r.path = some (.apiRoute, endpointOf r.path) ↔ r.IsPlain := by
    rw [entryPoint?_path, endpointOf_path, isPlain_iff, ← chars_eq_iff, Option.some.injEq,
      Prod.mk.injEq, String.ofList_inj]
    exact and_iff_right rfl
  refine ⟨⟨_, r.entryPoint?_path⟩, hname, ?_⟩
  intro entries aliases sources e he routes files o ho hpath hpath'
  -- Both models name what they have by its path alone.
  have hentry := entryPoint?_of_mem he
  have hendpoint : o.endpoint = endpointOf r.path := by
    obtain ⟨s, -, hs⟩ := List.mem_flatMap.1 ho
    obtain ⟨m, -, rfl⟩ := List.mem_map.1 hs
    rw [← hpath']
  rw [hpath] at hentry
  have hkind : e.kind = .apiRoute := by
    rw [entryPoint?_path, Option.some.injEq, Prod.mk.injEq] at hentry
    exact hentry.1.symm
  rw [← hname, hentry, hkind, hendpoint, Option.some.injEq, Prod.mk.injEq]
  exact ⟨rfl, (and_iff_right rfl).symm⟩

/-- Groups and parameters are no reason for two names. -/
theorem named_alike_in_group : ∃ r : RouteFile,
    r.path = "src/app/api/(admin)/users.d/[id]/route.ts" ∧
      entryPoint? r.path = some (.apiRoute, endpointOf r.path) ∧
      endpointOf r.path = "/api/users.d/[id]" := by
  let r : RouteFile :=
    { root := "src/app/api", dirs := ["(admin)", "users.d", "[id]"], file := "route.ts"
      root_mem := by decide, dirs_ne := by decide, dirs_no_slash := by decide
      dirs_one_line := by decide, file_mem := by decide }
  have hplain : r.IsPlain :=
    { no_backslash := by decide
      no_ending := by
        rintro d ⟨rfl⟩
        decide }
  exact ⟨r, by decide, (named_alike_iff r).2.1.2 hplain, by decide⟩

/-- A directory that ends like a script is named in two ways, and so is one with a backslash. -/
theorem directory_is_named_in_two_ways :
    (∃ r : RouteFile, r.path = "app/api/chart.js/route.ts" ∧
      entryPoint? r.path = some (.apiRoute, "/api/chart.js") ∧
      endpointOf r.path = "/api/chart") ∧
    ∃ r : RouteFile, r.path = "app/api/a\\b/route.ts" ∧
      entryPoint? r.path = some (.apiRoute, "/api/a/b") ∧
      endpointOf r.path = "/api/a\\b" := by
  refine ⟨⟨⟨"app/api", ["chart.js"], "route.ts", ?_, ?_, ?_, ?_, ?_⟩, ?_, ?_, ?_⟩,
    ⟨⟨"app/api", ["a\\b"], "route.ts", ?_, ?_, ?_, ?_, ?_⟩, ?_, ?_, ?_⟩⟩
  all_goals decide

end RouteFile

end CodeSurvey.Architecture
