import CodeSurvey.Proofs.Architecture.RouteSearch

/-!
# Groups in the paths of an application

A directory with its name in round brackets groups files and is no part of a route. It is taken out
of what is found to be the route; but the route is looked for with the group in it. So a group
between `app` and `api` hides a directory of requests, and one before a file that answers requests
keeps the last directory from being taken for a script. These are the only groups that are told
(`AppFile.group_is_transparent_iff`).
-/

namespace CodeSurvey.Workflow

variable {cs ds : List Char}

/-- A path ends like a script, but for a line feed behind it. -/
def EndsLikeScript (cs : List Char) : Prop :=
  ∃ e ∈ scriptEndings, e.toList <:+ (cutLastFeed cs).1

instance (cs : List Char) : Decidable (EndsLikeScript cs) :=
  inferInstanceAs (Decidable (∃ e ∈ scriptEndings, e.toList <:+ (cutLastFeed cs).1))

/-- The endings of scripts are a point and letters. -/
theorem scriptEndings_spec : ∀ e ∈ scriptEndings,
    '/' ∉ e.toList ∧ ')' ∉ e.toList ∧ e.toList ≠ [] ∧ e.toList.count '.' = 1 := by
  decide

/-- A path that does not end like a script keeps its ending. -/
theorem dropEnding_of_not_endsLikeScript (h : ¬ EndsLikeScript cs) :
    dropEnding scriptEndings cs = cs := by
  rcases dropEnding_cut scriptEndings cs with ⟨e, he, hsuffix, -⟩ | ⟨-, heq⟩
  · exact absurd ⟨e, he, hsuffix⟩ h
  · exact heq

/-- With the ending of a script goes a point that is in no group. -/
theorem count_dropEnding_of_endsLikeScript (h : EndsLikeScript cs) :
    (dropGroups (dropEnding scriptEndings cs)).count '.' + 1 = (dropGroups cs).count '.' := by
  rcases dropEnding_cut scriptEndings cs with ⟨e, he, -, before, hcs, heq⟩ | ⟨hnone, -⟩
  · obtain ⟨hslash, hclose, -, hpoint⟩ := scriptEndings_spec e he
    have hfeed : '/' ∉ (cutLastFeed cs).2 ∧ ')' ∉ (cutLastFeed cs).2 := by
      rcases (cutLastFeed_spec cs).2 with h | h <;> rw [h] <;> decide
    have hending : '/' ∉ e.toList ++ (cutLastFeed cs).2 ∧ ')' ∉ e.toList ++ (cutLastFeed cs).2 :=
      ⟨List.not_mem_append hslash hfeed.1, List.not_mem_append hclose hfeed.2⟩
    rw [heq, dropGroups_append _ hfeed.1 hfeed.2]
    conv_rhs => rw [hcs, dropGroups_append _ hending.1 hending.2]
    simp only [List.count_append, hpoint]
    omega
  · obtain ⟨e, he, hsuffix⟩ := h
    exact absurd hsuffix (hnone e he)

/-- A path ends as what stands behind its last slash. -/
theorem endsLikeScript_append_slash (cs ds : List Char) :
    EndsLikeScript (cs ++ '/' :: ds) ↔ EndsLikeScript ds := by
  unfold EndsLikeScript
  rw [cutLastFeed_append cs (List.cons_ne_nil '/' ds), cutLastFeed_slash]
  exact exists_congr fun e => and_congr_right fun he =>
    Text.suffix_append_sep_iff (scriptEndings_spec e he).1

/-- The slash in front of a path is not dropped with an ending. -/
theorem atSlash_dropEnding (cs : List Char) : AtSlash (dropEnding scriptEndings ('/' :: cs)) := by
  rcases dropEnding_cut scriptEndings ('/' :: cs) with ⟨e, he, -, before, hcs, heq⟩ | ⟨-, heq⟩
  · obtain ⟨hslash, -, hne, -⟩ := scriptEndings_spec e he
    cases before with
    | nil =>
      obtain ⟨c, rest, he'⟩ := List.exists_cons_of_ne_nil hne
      rw [he', List.nil_append, List.cons_append] at hcs
      rw [he', ← (List.cons.inj hcs).1] at hslash
      exact absurd List.mem_cons_self hslash
    | cons c before =>
      obtain ⟨rfl, -⟩ := List.cons.inj hcs
      exact .inr ⟨_, heq⟩
  · exact .inr ⟨cs, heq⟩

/-- The path of segments ends as the last one. -/
theorem endsLikeScript_segmentChars_iff (segments : List String) :
    EndsLikeScript (segmentChars segments) ↔
      ∃ s, segments.getLast? = some s ∧ EndsLikeScript s.toList := by
  rcases List.eq_nil_or_concat segments with rfl | ⟨init, s, rfl⟩
  · have hnil : ¬ EndsLikeScript [] := by decide
    simp [segmentChars, hnil]
  · rw [List.concat_eq_append, List.getLast?_concat, segmentChars_append, segmentChars_cons,
      endsLikeScript_append_slash]
    simp [segmentChars]

/-- A path that ends with a group does not end like a script. -/
theorem not_endsLikeScript_groupChars (cs name : List Char) :
    ¬ EndsLikeScript (cs ++ groupChars name) := by
  rintro ⟨e, he, hsuffix⟩
  obtain ⟨-, hclose, hne, -⟩ := scriptEndings_spec e he
  have hgroup : cs ++ groupChars name = (cs ++ '/' :: '(' :: name) ++ ')' :: [] := by
    simp [groupChars]
  have hlast : ((cs ++ '/' :: '(' :: name) ++ ')' :: []).getLast? ≠ some '\n' := by
    rw [List.getLast?_append_cons, List.getLast?_singleton]
    decide
  rw [hgroup, cutLastFeed_eq hlast, Text.suffix_append_sep_iff hclose] at hsuffix
  exact hne (List.suffix_nil.1 hsuffix)

/-- Under `/api`, without slashes at the end. -/
def underApi (cs : List Char) : String :=
  let route := Text.dropEndWhile (· == '/') cs
  if "/api".toList.isPrefixOf route then String.ofList route
  else String.ofList ("/api".toList ++ route)

/-- No point comes in, and none goes. -/
theorem count_underApi (cs : List Char) : (underApi cs).toList.count '.' = cs.count '.' := by
  have hapi : "/api".toList.count '.' = 0 := by decide
  have hcount := Text.count_dropEndWhile (p := (· == '/')) (c := '.') (by decide) cs
  unfold underApi
  dsimp only
  split_ifs
  · rw [String.toList_ofList, hcount]
  · rw [String.toList_ofList, List.count_append, hapi, hcount, Nat.zero_add]

end CodeSurvey.Workflow

namespace CodeSurvey.Architecture

open Workflow

/-- The directories of an application. -/
def appRoots : List String := ["app", "src/app"]

/-- A group of directories, by its name. -/
structure Group where
  name : String
  no_slash : '/' ∉ name.toList
  no_close : ')' ∉ name.toList

/-- The name of the directory that is the group. -/
def Group.directory (g : Group) : String := "(" ++ g.name ++ ")"

/-- The name of a group's directory is its name in parentheses. -/
theorem Group.toList_directory (g : Group) :
    g.directory.toList = '(' :: (g.name.toList ++ [')']) := by
  simp [Group.directory]

/-- A file that answers requests or renders a page, by the directories from the root down to it. -/
structure AppFile where
  /-- The directory of the application. -/
  root : String
  /-- The directories below it. -/
  dirs : List String
  file : String
  root_mem : root ∈ appRoots
  dirs_spec : ∀ d ∈ dirs, d ≠ "" ∧ '/' ∉ d.toList
  file_mem : file ∈ routeFiles ++ pageFiles

namespace AppFile

variable (f : AppFile) (i : Nat) (g : Group)

/-- The path of the file. -/
def path : String := Text.join "/" (f.root :: (f.dirs ++ [f.file]))

/-- The same file with a group between its directories, after this many of them. -/
def insert : AppFile where
  root := f.root
  dirs := f.dirs.take i ++ g.directory :: f.dirs.drop i
  file := f.file
  root_mem := f.root_mem
  dirs_spec := by
    intro d hd
    rcases List.mem_append.1 hd with hd | hd
    · exact f.dirs_spec d (List.mem_of_mem_take hd)
    · rcases List.mem_cons.1 hd with rfl | hd
      · rw [← String.toList_inj.ne, g.toList_directory]
        exact ⟨List.cons_ne_nil _ _, by simpa using g.no_slash⟩
      · exact f.dirs_spec d (List.mem_of_mem_drop hd)
  file_mem := f.file_mem

/-- What the path is made of. -/
theorem toList_path :
    f.path.toList = f.root.toList ++ (segmentChars f.dirs ++ '/' :: f.file.toList) :=
  toList_join_path f.root f.dirs f.file

/-- The directories of a file are those before the place for a group and those behind it. -/
theorem segmentChars_take_append_drop :
    segmentChars f.dirs = segmentChars (f.dirs.take i) ++ segmentChars (f.dirs.drop i) := by
  rw [← segmentChars_append, List.take_append_drop]

/-- With a group they have it between those two parts. -/
theorem segmentChars_insert : segmentChars (f.insert i g).dirs =
    segmentChars (f.dirs.take i) ++ (groupChars g.name.toList ++ segmentChars (f.dirs.drop i)) := by
  rw [insert, segmentChars_append, segmentChars_cons, g.toList_directory]
  rfl

/-- The name of the file holds no slash and no backslash, and it is neither empty, nor a point, nor
that of a main file. -/
theorem file_spec : '/' ∉ f.file.toList ∧ '\\' ∉ f.file.toList ∧ f.file ≠ "" ∧ f.file ≠ "." ∧
    f.file ∉ mainFiles := by
  have hfiles : ∀ file ∈ routeFiles ++ pageFiles, '/' ∉ file.toList ∧ '\\' ∉ file.toList ∧
      file ≠ "" ∧ file ≠ "." ∧ file ∉ mainFiles := by decide
  exact hfiles f.file f.file_mem

/-! ## Endpoints -/

/-- The segments that stand for the endpoint: a file that answers requests stands for its
directory. -/
def kept : List String := f.dirs ++ if f.file ∈ routeFiles then [] else [f.file]

/-- Below the root and without the name of a file that answers requests the path is made of these
segments. -/
theorem dropEnding_path : dropEnding routeEndings
    ('/' :: ((routeRoots.filterMap fun root =>
      Text.dropStart? root.toList f.path.toList).head?).getD f.path.toList) =
    segmentChars f.kept := by
  obtain ⟨rest, hrest⟩ := (atSlash_segmentChars f.dirs).exists_append f.file.toList
  -- The file lies in one of the two roots, and the other one does not begin its path.
  have hbelow : (routeRoots.filterMap fun root =>
      Text.dropStart? root.toList f.path.toList).head? = some rest := by
    rw [toList_path, hrest]
    rcases List.mem_pair.1 f.root_mem with h | h <;> simp [h, routeRoots, Text.dropStart?]
  rw [hbelow, Option.getD_some, ← hrest, kept]
  split_ifs with hroute
  · -- A file that answers requests is an ending of its own.
    have hfiles : ∀ file ∈ routeFiles, "/" ++ file ∈ routeEndings ∧
        ('/' :: file.toList).getLast? ≠ some '\n' := by decide
    obtain ⟨hending, hfeed⟩ := hfiles f.file hroute
    have hfile : '/' :: f.file.toList = ("/" ++ f.file).toList := by simp
    rw [List.append_nil]
    refine hfile ▸ dropEnding_append (by decide) hending ?_
    rwa [← hfile, List.getLast?_append_cons]
  · -- The name of a page and such an ending do not end each other, so none is dropped.
    have hfiles : ∀ file ∈ pageFiles, ('/' :: file.toList).getLast? ≠ some '\n' ∧
        ∀ e ∈ routeEndings,
          ¬ e.toList <:+ '/' :: file.toList ∧ ¬ '/' :: file.toList <:+ e.toList := by decide
    obtain ⟨hfeed, hnone⟩ := hfiles f.file ((List.mem_append.1 f.file_mem).resolve_left hroute)
    rw [segmentChars_append, segmentChars_cons]
    have hlast : (segmentChars f.dirs ++ '/' :: f.file.toList).getLast? ≠ some '\n' := by
      rwa [List.getLast?_append_cons]
    rcases dropEnding_cases routeEndings hlast with ⟨e, he, heq⟩ | ⟨-, heq⟩
    · rcases List.suffix_or_suffix_of_suffix ⟨_, heq.symm⟩ (List.suffix_append _ _) with h | h
      · exact absurd h (hnone e he).1
      · exact absurd h (hnone e he).2
    · rw [heq]
      simp [segmentChars]

/-- The endpoint is made of the segments that stand for it, without the ending of a script and
without groups. -/
theorem endpointOf_path : endpointOf f.path =
    underApi (dropGroups (dropEnding scriptEndings (segmentChars f.kept))) := by
  rw [← f.dropEnding_path]
  rfl

/-- The group stands between two parts of what stands for the endpoint. -/
theorem exists_kept : ∃ rest, AtSlash rest ∧
    segmentChars f.kept = segmentChars (f.dirs.take i) ++ rest ∧
    segmentChars (f.insert i g).kept =
      segmentChars (f.dirs.take i) ++ (groupChars g.name.toList ++ rest) ∧
    (rest = [] ↔ f.file ∈ routeFiles ∧ f.dirs.length ≤ i) := by
  refine ⟨segmentChars (f.dirs.drop i ++ if f.file ∈ routeFiles then [] else [f.file]),
    atSlash_segmentChars _, ?_, ?_, ?_⟩
  · rw [kept, segmentChars_append, segmentChars_append, f.segmentChars_take_append_drop i,
      List.append_assoc]
  · rw [kept, segmentChars_append, segmentChars_append, segmentChars_insert, List.append_assoc,
      List.append_assoc]
    rfl
  · have hnil (segments : List String) : segmentChars segments = [] ↔ segments = [] := by
      cases segments <;> simp [segmentChars]
    rw [hnil, List.append_eq_nil_iff, List.drop_eq_nil_iff, and_comm]
    split_ifs with h <;> simp [h]

/-- The endpoint is the same with the group, unless the group stands before a file that answers
requests and behind a directory that ends like a script. -/
theorem endpointOf_insert_iff : endpointOf (f.insert i g).path = endpointOf f.path ↔
    ¬ (f.file ∈ routeFiles ∧ f.dirs.length ≤ i ∧
      ∃ d, f.dirs.getLast? = some d ∧ EndsLikeScript d.toList) := by
  obtain ⟨rest, hrest, hkept, hinsert, hnil⟩ := f.exists_kept i g
  rw [endpointOf_path, endpointOf_path, hkept, hinsert]
  rcases hrest with rfl | ⟨rest, rfl⟩
  · -- The group is the last part, and the ending of the part before it is dropped only without it.
    obtain ⟨hroute, hlength⟩ := hnil.1 rfl
    rw [List.take_of_length_le hlength, List.append_nil, List.append_nil,
      dropEnding_of_not_endsLikeScript (not_endsLikeScript_groupChars _ _)]
    have hgroup := dropGroups_groupChars (segmentChars f.dirs) g.no_slash g.no_close (.inl rfl)
    rw [List.append_nil, List.append_nil] at hgroup
    rw [hgroup, ← endsLikeScript_segmentChars_iff, and_iff_right hroute, and_iff_right hlength]
    constructor
    · intro heq hscript
      -- The ending has a point, and no other point is dropped.
      have hcount := congrArg (fun s : String => s.toList.count '.') heq
      simp only [count_underApi] at hcount
      have := count_dropEnding_of_endsLikeScript hscript
      omega
    · intro hscript
      rw [dropEnding_of_not_endsLikeScript hscript]
  · -- With a slash behind the group the same ending is dropped.
    have hnil : ¬ (f.file ∈ routeFiles ∧ f.dirs.length ≤ i) := mt hnil.2 (List.cons_ne_nil _ _)
    refine iff_of_true ?_ fun h => hnil ⟨h.1, h.2.1⟩
    have hslash : ∀ e ∈ scriptEndings, '/' ∉ e.toList := fun e he => (scriptEndings_spec e he).1
    rw [← List.append_assoc, dropEnding_append_slash hslash, dropEnding_append_slash hslash,
      List.append_assoc,
      dropGroups_groupChars _ g.no_slash g.no_close (atSlash_dropEnding rest)]

/-! ## Entry points -/

/-- The directory of the file, with slashes for backslashes. -/
def directory : List Char := (f.root.toList ++ segmentChars f.dirs).map toSlash

/-- The part of it before the place for a group. -/
def above : List Char := (f.root.toList ++ segmentChars (f.dirs.take i)).map toSlash

/-- The part of it behind the place. -/
def behind : List Char := (segmentChars (f.dirs.drop i)).map toSlash

/-- The directory of a file is its parts before and behind the place for a group. -/
theorem directory_eq : f.directory = f.above i ++ f.behind i := by
  rw [directory, above, behind, f.segmentChars_take_append_drop i, ← List.append_assoc,
    List.map_append]

/-- With a group whose name holds no backslash it has the group between them. -/
theorem directory_insert (hback : '\\' ∉ g.name.toList) :
    (f.insert i g).directory = f.above i ++ (groupChars g.name.toList ++ f.behind i) := by
  have hgroup : (groupChars g.name.toList).map toSlash = groupChars g.name.toList :=
    map_toSlash_of_not_mem (by simpa [groupChars] using hback)
  simp only [directory, segmentChars_insert, List.map_append, hgroup, above, behind,
    List.append_assoc]
  rfl

/-- The part behind the place is empty or begins with a slash. -/
theorem atSlash_behind : AtSlash (f.behind i) := (atSlash_segmentChars _).map_toSlash

/-- The path, with slashes for backslashes. -/
theorem replaceChar_path : Text.replaceChar '\\' '/' f.path =
    String.ofList (f.directory ++ '/' :: f.file.toList) := by
  have hmap : Text.replaceChar '\\' '/' f.path = String.ofList (f.path.toList.map toSlash) := rfl
  rw [hmap, toList_path, ← List.append_assoc, List.map_append, List.map_cons,
    map_toSlash_of_not_mem f.file_spec.2.1]
  rfl

/-- What stands behind the last slash of the path is the name of the file. -/
theorem afterLast_path : Text.afterLast '/' (Text.replaceChar '\\' '/' f.path) = f.file := by
  rw [replaceChar_path, Text.afterLast_append _ f.file_spec.1, String.ofList_toList]

/-- The name of the file is the last part of its path. -/
theorem baseName_path : Files.baseName (Text.replaceChar '\\' '/' f.path) = f.file := by
  obtain ⟨hslash, -, hne, hpoint, -⟩ := f.file_spec
  rw [replaceChar_path, Files.baseName, Files.pathParts, Text.split, String.toList_ofList,
    Text.splitOn_append_sep, Text.splitOn_of_notMem hslash, List.map_append, List.filter_append]
  simp [hne, hpoint]

/-- The route of the file is looked for in its directory. -/
theorem routeName?_path (accepts : List Char → Bool) :
    routeName? accepts (Text.replaceChar '\\' '/' f.path) =
      (routeAfterApp? accepts f.directory).map fun route => String.ofList (dropGroups route) := by
  rw [routeName?, replaceChar_path, Text.beforeLast?_append _ f.file_spec.1]
  cases h : routeAfterApp? accepts f.directory <;> simp [h]

/-- The file lies in a directory of requests. -/
def InRequests : Prop :=
  Text.contains "/app/api/" ("/" ++ Text.replaceChar '\\' '/' f.path) = true

instance : Decidable f.InRequests := inferInstanceAs (Decidable (_ = true))

/-- A file that answers requests is an entry point if it lies in a directory of requests. -/
theorem entryPoint?_of_route (hroute : f.file ∈ routeFiles) : entryPoint? f.path =
    if f.InRequests then some (.apiRoute, nameOr "route" (routeAfterApp? isApiRoute f.directory))
    else none := by
  have hfiles : ∀ file ∈ routeFiles, (Files.cutSuffix file).1 = "route" ∧ file ∉ pageFiles ∧
      file ∉ workerFiles ∧ file ∉ cliFiles := by decide
  obtain ⟨hstem, hpage, hworker, hcli⟩ := hfiles f.file hroute
  have hin : Text.contains "/app/api/" ("/" ++ Text.replaceChar '\\' '/' f.path) =
      decide f.InRequests := Bool.decide_eq_true.symm
  unfold entryPoint?
  simp only [f.afterLast_path, f.baseName_path, f.routeName?_path, hstem, hin]
  simp [hroute, hpage, hworker, hcli, f.file_spec.2.2.2.2, nameOr]

/-- What a page is called after its route. -/
def pageName : Option String → String
  | some "" => "/"
  | some name => name
  | none => "page"

/-- The file lies in a directory of an application. -/
theorem contains_app :
    Text.contains "/app/" ("/" ++ Text.replaceChar '\\' '/' f.path) = true := by
  obtain ⟨rest, hrest⟩ := (atSlash_segmentChars f.dirs).map_toSlash.exists_append f.file.toList
  rw [Text.contains, Text.hasPart_iff, replaceChar_path, String.toList_append,
    String.toList_ofList, directory, List.map_append, List.append_assoc, hrest]
  rcases List.mem_pair.1 f.root_mem with h | h
  · exact ⟨[], rest, by simp [h, toSlash]⟩
  · exact ⟨"/src".toList, rest, by simp [h, toSlash]⟩

/-- A file that renders a page is an entry point if it lies below no directory `api`. -/
theorem entryPoint?_of_page (hpage : f.file ∈ pageFiles) : entryPoint? f.path =
    if Text.contains "/api/" ("/" ++ Text.replaceChar '\\' '/' f.path) then none
    else some (.page, pageName ((routeAfterApp? isRouteTail f.directory).map
      fun route => String.ofList (dropGroups route))) := by
  have hfiles : ∀ file ∈ pageFiles, (Files.cutSuffix file).1 = "page" ∧ file ∉ routeFiles ∧
      file ∉ workerFiles ∧ file ∉ cliFiles := by decide
  obtain ⟨hstem, hroute, hworker, hcli⟩ := hfiles f.file hpage
  unfold entryPoint?
  simp only [f.afterLast_path, f.baseName_path, f.routeName?_path, f.contains_app, hstem]
  cases Text.contains "/api/" ("/" ++ Text.replaceChar '\\' '/' f.path) with
  | true => simp [hroute, hworker, hcli, f.file_spec.2.2.2.2]
  | false =>
    simp only [List.contains_eq_mem, hroute, hpage, decide_true, decide_false, Bool.false_and,
      Bool.and_self, Bool.not_false, Bool.false_eq_true, if_true, if_false]
    generalize (routeAfterApp? isRouteTail f.directory).map _ = name
    unfold pageName
    split <;> simp [*]

/-! ## Groups -/

/-- A path with a slash before it contains a part exactly if that is found in its directory with the
name of the file. -/
theorem contains_path_iff (part : String) :
    Text.contains part ("/" ++ Text.replaceChar '\\' '/' f.path) = true ↔
      part.toList <:+: '/' :: (f.directory ++ '/' :: f.file.toList) := by
  have hslash : "/".toList = ['/'] := rfl
  rw [Text.contains, Text.hasPart_iff, replaceChar_path, String.toList_append, hslash,
    String.toList_ofList, List.singleton_append]

/-- A group stands in the path before a slash. -/
theorem exists_padded (hback : '\\' ∉ g.name.toList) : ∃ rest,
    '/' :: (f.directory ++ '/' :: f.file.toList) = '/' :: f.above i ++ '/' :: rest ∧
    '/' :: ((f.insert i g).directory ++ '/' :: (f.insert i g).file.toList) =
      '/' :: f.above i ++ (groupChars g.name.toList ++ '/' :: rest) := by
  obtain ⟨rest, hrest⟩ := (f.atSlash_behind i).exists_append f.file.toList
  have hfile : (f.insert i g).file = f.file := rfl
  refine ⟨rest, ?_, ?_⟩
  · rw [f.directory_eq i, List.append_assoc, hrest]
    rfl
  · rw [f.directory_insert i g hback, hfile, List.append_assoc, List.append_assoc, hrest]
    rfl

/-- A group is in no directory of requests and makes none. -/
theorem inRequests_of_insert (hback : '\\' ∉ g.name.toList)
    (h : (f.insert i g).InRequests) : f.InRequests := by
  rw [InRequests, contains_path_iff] at h ⊢
  obtain ⟨rest, hpath, hgrouped⟩ := f.exists_padded i g hback
  rw [hgrouped, infix_groupChars_iff (by decide) (by decide) (by decide) g.no_slash] at h
  rw [hpath]
  rcases h with h | h
  · exact h.trans (List.IsPrefix.isInfix ⟨rest, by simp⟩)
  · exact h.trans (List.suffix_append _ _).isInfix

/-- And it is no directory `api`, and hides none. -/
theorem contains_api_insert (hback : '\\' ∉ g.name.toList) :
    Text.contains "/api/" ("/" ++ Text.replaceChar '\\' '/' (f.insert i g).path) =
      Text.contains "/api/" ("/" ++ Text.replaceChar '\\' '/' f.path) := by
  have hapi : "/api/".toList = '/' :: ("api".toList ++ ['/']) := rfl
  obtain ⟨rest, hpath, hgrouped⟩ := f.exists_padded i g hback
  rw [Bool.eq_iff_iff, contains_path_iff, contains_path_iff, hpath, hgrouped,
    infix_groupChars_iff (by decide) (by decide) (by decide) g.no_slash, hapi,
    @Text.infix_append_sep_iff '/' ('/' :: f.above i) rest _ (by decide)]

/-- A page is the same entry point with a group as without it. -/
theorem entryPoint?_insert_of_page (hback : '\\' ∉ g.name.toList) (hline : '\n' ∉ g.name.toList)
    (hpage : f.file ∈ pageFiles) : entryPoint? (f.insert i g).path = entryPoint? f.path := by
  have hroute := pageRoute_insert g.no_slash g.no_close hline (f.atSlash_behind i) (f.above i)
  rw [← f.directory_insert i g hback, ← f.directory_eq i] at hroute
  have hname := congrArg (Option.map String.ofList) hroute
  simp only [Option.map_map, Function.comp_def] at hname
  rw [entryPoint?_of_page _ hpage, entryPoint?_of_page (f.insert i g) hpage,
    f.contains_api_insert i g hback, hname]

/-- The route of the file is all that lies behind the place: the `app` of it stands before, and its
`/api` behind. -/
def IsRouteBehind : Prop := routeAfterApp? isApiRoute f.directory = some (f.behind i)

instance : Decidable (f.IsRouteBehind i) := inferInstanceAs (Decidable (_ = _))

/-- A file that answers requests is the same entry point with a group as without it, unless the
group hides the directory of requests, or its route is all that lies behind the group. -/
theorem entryPoint?_insert_iff_of_route (hback : '\\' ∉ g.name.toList)
    (hline : '\n' ∉ g.name.toList) (hroute : f.file ∈ routeFiles) :
    entryPoint? (f.insert i g).path = entryPoint? f.path ↔
      (f.InRequests → (f.insert i g).InRequests ∧ ¬ f.IsRouteBehind i) := by
  have hname := nameOr_insert_iff g.no_slash g.no_close hline (f.atSlash_behind i) (f.above i)
  rw [← f.directory_insert i g hback, ← f.directory_eq i] at hname
  have hname : _ ↔ ¬ f.IsRouteBehind i := hname
  rw [entryPoint?_of_route _ hroute, entryPoint?_of_route (f.insert i g) hroute, ← hname]
  by_cases hin : f.InRequests
  · by_cases hin' : (f.insert i g).InRequests
    · rw [if_pos hin, if_pos hin']
      simp [hin, hin']
    · rw [if_pos hin, if_neg hin']
      simp [hin, hin']
  · have hin' : ¬ (f.insert i g).InRequests := mt (f.inRequests_of_insert i g hback) hin
    rw [if_neg hin, if_neg hin']
    simp [hin]

/-- With a group the endpoint is the same as without it, unless the group stands between a directory
that ends like a script and a file that answers requests. If the name of the group is on one line
and has no backslash, a page is the same entry point, and so is a file that answers requests, unless
the group hides the directory of requests or the `/api` of the route. -/
theorem group_is_transparent_iff :
    (endpointOf (f.insert i g).path = endpointOf f.path ↔
      ¬ (f.file ∈ routeFiles ∧ f.dirs.length ≤ i ∧
        ∃ d, f.dirs.getLast? = some d ∧ EndsLikeScript d.toList)) ∧
    ('\\' ∉ g.name.toList → '\n' ∉ g.name.toList →
      (f.file ∈ pageFiles → entryPoint? (f.insert i g).path = entryPoint? f.path) ∧
      (f.file ∈ routeFiles → (entryPoint? (f.insert i g).path = entryPoint? f.path ↔
        (f.InRequests → (f.insert i g).InRequests ∧ ¬ f.IsRouteBehind i)))) := by
  refine ⟨f.endpointOf_insert_iff i g, fun hback hline => ⟨fun hpage => ?_, fun hroute => ?_⟩⟩
  · exact f.entryPoint?_insert_of_page i g hback hline hpage
  · exact f.entryPoint?_insert_iff_of_route i g hback hline hroute

/-- A group below `api` is transparent. -/
theorem group_below_api_is_transparent : ∃ (f : AppFile) (g : Group),
    f.path = "src/app/api/stats/route.ts" ∧
      (f.insert 1 g).path = "src/app/api/(admin)/stats/route.ts" ∧
      endpointOf (f.insert 1 g).path = endpointOf f.path ∧
      entryPoint? (f.insert 1 g).path = entryPoint? f.path := by
  let f : AppFile :=
    { root := "src/app", dirs := ["api", "stats"], file := "route.ts"
      root_mem := by decide, dirs_spec := by decide, file_mem := by decide }
  let g : Group := { name := "admin", no_slash := by decide, no_close := by decide }
  obtain ⟨hendpoint, hentry⟩ := group_is_transparent_iff f 1 g
  refine ⟨f, g, by decide, by decide, hendpoint.2 (by decide), ?_⟩
  exact ((hentry (by decide) (by decide)).2 (by decide)).2 (by decide)

/-- A group above `api` hides the directory of requests, one behind a directory that ends like a
script keeps the ending, and one whose name is on two lines hides the route of a page. -/
theorem group_is_told :
    (∃ (f : AppFile) (g : Group), f.path = "app/api/users/route.ts" ∧
      (f.insert 0 g).path = "app/(v1)/api/users/route.ts" ∧
      entryPoint? f.path = some (.apiRoute, "/api/users") ∧
      entryPoint? (f.insert 0 g).path = none ∧
      endpointOf f.path = "/api/users" ∧ endpointOf (f.insert 0 g).path = "/api/users") ∧
    (∃ (f : AppFile) (g : Group), f.path = "app/api/chart.js/route.ts" ∧
      (f.insert 2 g).path = "app/api/chart.js/(v1)/route.ts" ∧
      endpointOf f.path = "/api/chart" ∧ endpointOf (f.insert 2 g).path = "/api/chart.js") ∧
    ∃ (f : AppFile) (g : Group), f.path = "app/page.tsx" ∧
      (f.insert 0 g).path = "app/(a\nb)/page.tsx" ∧
      entryPoint? f.path = some (.page, "/") ∧
      entryPoint? (f.insert 0 g).path = some (.page, "page") := by
  let v : Group := ⟨"v1", by decide, by decide⟩
  refine ⟨⟨⟨"app", ["api", "users"], "route.ts", ?_, ?_, ?_⟩, v, ?_⟩,
    ⟨⟨"app", ["api", "chart.js"], "route.ts", ?_, ?_, ?_⟩, v, ?_⟩,
    ⟨⟨"app", [], "page.tsx", ?_, ?_, ?_⟩, ⟨"a\nb", ?_, ?_⟩, ?_⟩⟩
  all_goals decide

end AppFile

end CodeSurvey.Architecture
