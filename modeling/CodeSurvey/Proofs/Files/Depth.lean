import CodeSurvey.Proofs.Files.Aliases

/-!
# How deep a walk goes

The limit of a walk is looked at before a directory is entered, and not before the walk begins. So
everything that a walk lists is within the limit, but for what lies directly in the directory that
it starts in: that is listed however low the limit is (`deeper_entries_lie_in_start`).

The depth of an entry is counted from the text of the start path, where every slash counts. It is
the number of names on the entry's path, and one more for each part of the start path that says
nothing (`idleParts`).

What one part of a walk lists is told by the directory that it goes through (`Descends`): its
entries lie one level deeper for each name that their paths have more, and each lies in that
directory or in one that is listed as well.
-/

namespace CodeSurvey.Files.Workspace

variable {w : Workspace} {limits : WalkLimits} {m : Ignore.Matcher}

/-! ## What a part of the walk lists -/

/-- How the entries lie that a part of the walk lists for the directory `dir`, where `depth` is the
depth of what lies directly in it. -/
structure Descends (limits : WalkLimits) (depth : Nat) (dir : Path) (es : List WalkEntry) :
    Prop where
  below : ∀ e ∈ es, dir <+: e.parts
  /-- Depths and paths grow together. -/
  level : ∀ e ∈ es, e.depth + dir.length + 1 = depth + e.parts.length
  /-- An entry lies in `dir`, or it is within the limit and its directory is listed. -/
  parent : ∀ e ∈ es, (e.depth = depth ∧ e.parent = dir) ∨
    ((e.depth : Int) ≤ limits.maxDepth ∧ ∃ d ∈ es, d.isDir = true ∧ d.parts = e.parent)

namespace Descends

variable {depth : Nat} {dir : Path} {name : String} {es es' : List WalkEntry}

/-- No entries. -/
theorem nil (limits : WalkLimits) (depth : Nat) (dir : Path) : Descends limits depth dir [] :=
  ⟨by simp, by simp, by simp⟩

/-- Entries one after the other. -/
theorem append (h : Descends limits depth dir es) (h' : Descends limits depth dir es') :
    Descends limits depth dir (es ++ es') where
  below := List.forall_mem_append.2 ⟨h.below, h'.below⟩
  level := List.forall_mem_append.2 ⟨h.level, h'.level⟩
  parent := by
    intro e he
    rcases List.mem_append.1 he with he | he
    · refine (h.parent e he).imp_right fun ⟨hlimit, d, hd, hdir⟩ => ⟨hlimit, d, ?_, hdir⟩
      exact List.mem_append_left _ hd
    · refine (h'.parent e he).imp_right fun ⟨hlimit, d, hd, hdir⟩ => ⟨hlimit, d, ?_, hdir⟩
      exact List.mem_append_right _ hd

/-- An entry that lies directly in the directory. -/
theorem single (limits : WalkLimits) (depth : Nat) (dir : Path) (name : String) (isDir : Bool) :
    Descends limits depth dir [⟨dir ++ [name], isDir, depth⟩] where
  below := List.forall_mem_singleton.2 (List.prefix_append _ _)
  level := by
    rw [List.forall_mem_singleton]
    show depth + dir.length + 1 = depth + (dir ++ [name]).length
    rw [List.length_append, List.length_singleton]
    omega
  parent := List.forall_mem_singleton.2 (.inl ⟨rfl, List.dropLast_concat⟩)

/-- A directory that is not too deep to be entered, and what is listed for it. -/
theorem entered (h : Descends limits (depth + 1) (dir ++ [name]) es)
    (hshallow : (depth : Int) < limits.maxDepth) :
    Descends limits depth dir (⟨dir ++ [name], true, depth⟩ :: es) where
  below := by
    refine List.forall_mem_cons.2 ⟨List.prefix_append _ _, fun e he => ?_⟩
    exact (List.prefix_append _ _).trans (h.below e he)
  level := by
    have hself := (single limits depth dir name true).level
    refine List.forall_mem_cons.2 ⟨hself _ (List.mem_singleton_self _), fun e he => ?_⟩
    have hlevel := h.level e he
    rw [List.length_append, List.length_singleton] at hlevel
    omega
  parent := by
    refine List.forall_mem_cons.2 ⟨.inl ⟨rfl, List.dropLast_concat⟩, fun e he => ?_⟩
    · right
      rcases h.parent e he with ⟨hdepth, hparent⟩ | ⟨hlimit, d, hd, hdir⟩
      · -- It lies in the directory that was entered.
        refine ⟨?_, _, List.mem_cons_self, rfl, hparent.symm⟩
        rw [hdepth]
        omega
      · exact ⟨hlimit, d, List.mem_cons_of_mem _ hd, hdir⟩

end Descends

section Walks

variable {depth : Nat} {dir : Path} {enter : Path → List Path → List WalkEntry × List Path}

/-- What is listed at a name of a directory. -/
theorem descends_visit {name : String}
    (henter : ∀ seen, Descends limits (depth + 1) (dir ++ [name]) (enter (dir ++ [name]) seen).1)
    (seen : List Path) :
    Descends limits depth dir (w.visit limits m depth enter (dir ++ [name]) seen).1 := by
  have hvisited := w.visited_visit limits m depth enter (dir ++ [name]) seen
  generalize w.visit limits m depth enter (dir ++ [name]) seen = r at hvisited ⊢
  cases hvisited with
  | unfollowed | nowhere | ignored | again => exact .nil limits depth dir
  | file => exact .single limits depth dir name false
  | tooDeep => exact .single limits depth dir name true
  | entered _ _ _ hshallow => exact (henter _).entered hshallow

/-- What is listed at several names. -/
theorem descends_walkNames
    (henter : ∀ name seen,
      Descends limits (depth + 1) (dir ++ [name]) (enter (dir ++ [name]) seen).1)
    (names : List String) (seen : List Path) :
    Descends limits depth dir (w.walkNames limits m depth dir enter names seen).1 := by
  induction names generalizing seen with
  | nil => exact .nil limits depth dir
  | cons name names ih =>
    rw [walkNames_cons]
    exact (descends_visit (henter name) seen).append (ih _)

/-- What is listed for a directory. -/
theorem descends_walkFrom (fuel depth : Nat) (dir : Path) (seen : List Path) :
    Descends limits depth dir (w.walkFrom limits m fuel depth dir seen).1 := by
  -- Below a directory that is entered there is one level less.
  induction fuel generalizing depth dir seen with
  | zero => exact .nil limits depth dir
  | succ fuel ih =>
    exact descends_walkNames (fun name seen => ih (depth + 1) (dir ++ [name]) seen) _ seen

end Walks

/-! ## Where a walk starts -/

/-- The depth of what lies directly in the directory that a walk starts in. -/
def startDepth (start : String) : Nat :=
  if start.isEmpty then 1 else (Text.trimChar '/' start).toList.count '/' + 2

/-- The number of parts of a start path that say nothing: the empty ones and the single points. -/
def idleParts (start : String) : Nat :=
  if start.isEmpty then 0
  else ((Text.split (Text.trimChar '/' start) '/').filter fun p => p.isEmpty || p == ".").length

/-- A walk lists what it does for the directory that it starts in. -/
theorem descends_walkAt (w : Workspace) (limits : WalkLimits) (m : Ignore.Matcher)
    (start : String) :
    Descends limits (startDepth start) (startDir start) (w.walkAt limits m start) := by
  unfold walkAt startDepth
  split_ifs with hempty
  · have hdir : startDir start = [] := by
      rw [String.isEmpty_iff.1 hempty]
      rfl
    rw [hdir]
    exact descends_walkFrom _ 1 [] _
  · unfold walkBelow startDir
    dsimp only
    split_ifs
    · exact .nil limits _ _
    · exact .nil limits _ _
    · exact descends_walkFrom _ _ _ _

/-- The first entries of a walk are one level deeper than there are names on the start path, and one
more for each part of it that says nothing. -/
theorem startDepth_eq (start : String) :
    startDepth start = (startDir start).length + 1 + idleParts start := by
  unfold startDepth idleParts
  split_ifs with hempty
  · rw [String.isEmpty_iff.1 hempty]
    rfl
  · have hparts : (Text.split (Text.trimChar '/' start) '/').length =
        (Text.trimChar '/' start).toList.count '/' + 1 := by
      rw [Text.split, List.length_map, Text.length_splitOn]
    have hsplit := List.length_eq_length_filter_add
      (l := Text.split (Text.trimChar '/' start) '/') fun p => !p.isEmpty && p != "."
    -- A part is on the path, or it says nothing.
    have hidle : (fun p : String => !(!p.isEmpty && p != ".")) =
        fun p => p.isEmpty || p == "." := by
      funext p
      rw [Bool.not_and, Bool.not_not, bne, Bool.not_not]
    rw [hidle, hparts] at hsplit
    unfold startDir pathParts
    omega

/-! ## Depths -/

/-- In a tidy tree what a walk lists lies below the directory that it starts in. -/
theorem spread_walkAt (ht : w.tree.Tidy) (limits : WalkLimits) (m : Ignore.Matcher)
    (start : String) : Spread (startDir start) (w.walkAt limits m start) ∧
      ∀ e ∈ w.walkAt limits m start, e.parts ≠ startDir start := by
  rcases w.walkAt_cases limits m start with hnil | ⟨depth, seen, hwalk, -, -⟩
  · rw [hnil]
    exact ⟨.nil _, by simp⟩
  · rw [hwalk]
    exact spread_walkFrom ht (isCut_pathParts _) seen

/-- In a tidy tree the names on the path of an entry are those that its text is split into. -/
theorem length_split_path (ht : w.tree.Tidy) {start : String} {e : WalkEntry}
    (he : e ∈ w.walkAt limits m start) : (Text.split e.path '/').length = e.parts.length := by
  obtain ⟨hspread, hne⟩ := spread_walkAt ht limits m start
  have hparts : e.parts ≠ [] := by
    intro hnil
    have hstart := hspread.start e he
    rw [hnil, List.prefix_nil] at hstart
    exact hne e he (hnil.trans hstart.symm)
  have hsplit : Text.split e.path '/' = e.parts :=
    Text.split_join (by decide) hparts fun name hname => (hspread.cut e he name hname).2.1
  rw [hsplit]

/-- The depth of an entry is the number of names on its path, and one more for each part of the
start path that says nothing. It is within the limit, unless the entry lies directly in the
directory that the walk starts in and that is itself as deep as the limit. So for a start path that
says something in each part and is not as long as the limit, the depths are the numbers of names,
and are within the limit. -/
theorem deeper_entries_lie_in_start (ht : w.tree.Tidy) (start : String) :
    (∀ e ∈ w.walkAt limits m start,
      e.depth = (Text.split e.path '/').length + idleParts start ∧
      ((e.depth : Int) ≤ limits.maxDepth ∨ e.parent = startDir start ∧
        limits.maxDepth ≤ ((startDir start).length + idleParts start : Nat))) ∧
    (idleParts start = 0 → ((startDir start).length : Int) < limits.maxDepth →
      ∀ e ∈ w.walkAt limits m start,
        e.depth = (Text.split e.path '/').length ∧ (e.depth : Int) ≤ limits.maxDepth) := by
  have hdescends := w.descends_walkAt limits m start
  have hstart := startDepth_eq start
  have hdepth : ∀ e ∈ w.walkAt limits m start,
      e.depth = (Text.split e.path '/').length + idleParts start := by
    intro e he
    have hlevel := hdescends.level e he
    rw [length_split_path ht he]
    omega
  -- The level of the walk is limited where directories are entered; its first level is entered in
  -- any case.
  have hlimit : ∀ e ∈ w.walkAt limits m start, (e.depth : Int) ≤ limits.maxDepth ∨
      e.depth = startDepth start ∧ e.parent = startDir start :=
    fun e he => (hdescends.parent e he).symm.imp_left And.left
  constructor
  · intro e he
    refine ⟨hdepth e he, ?_⟩
    by_cases hdeep : (e.depth : Int) ≤ limits.maxDepth
    · exact .inl hdeep
    · obtain ⟨hfirst, hparent⟩ := (hlimit e he).resolve_left hdeep
      exact .inr ⟨hparent, by omega⟩
  · intro hidle hshallow e he
    refine ⟨by rw [hdepth e he, hidle, Nat.add_zero], ?_⟩
    rcases hlimit e he with hwithin | ⟨hfirst, -⟩
    · exact hwithin
    · omega

/-! ## Entries beyond the limit -/

/-- A workspace with one directory, and a file in it. -/
def ofNested : Workspace := ofEntries [(["a"], .dir), (["a", "c.ts"], .file ByteArray.empty)]

/-- What a walk lists that starts in that directory, however deep it may go. -/
theorem walkAt_ofNested (limits : WalkLimits) {start : String} (hstart : startDir start = ["a"]) :
    ofNested.walkAt limits ⟨[], []⟩ start = [⟨["a", "c.ts"], false, startDepth start⟩] := by
  have hnonempty : start.isEmpty = false := by
    rw [Bool.eq_false_iff, ne_eq, String.isEmpty_iff]
    rintro rfl
    cases hstart
  have hnames : ofNested.tree.names ["ws", "a"] = ["c.ts"] := List.mergeSort_singleton _
  have hroot : ofNested.tree.at? (ofNested.locate []) = .ok (["ws"], .dir) := by rfl
  have ha : ofNested.tree.at? (ofNested.locate ["a"]) = .ok (["ws", "a"], .dir) := by rfl
  have hc : ofNested.tree.at? (ofNested.locate ["a", "c.ts"]) =
      .ok (["ws", "a", "c.ts"], .file ByteArray.empty) := by rfl
  have hlink : ofNested.tree.isLink (ofNested.locate ["a", "c.ts"]) = false := by rfl
  have hcount : ofNested.tree.dirCount = 3 := by rfl
  have hkept : (⟨[], []⟩ : Ignore.Matcher).ignores (Text.trimChar '/' start) true = false := by
    rw [Ignore.Matcher.ignores_eq, ignoresParts_nothing, Bool.and_false]
  unfold startDir at hstart
  simp [walkAt, walkBelow, startDepth, hnonempty, hkept, hstart, hcount, real_of_at? hroot,
    real_of_at? ha, walkFrom, walkNames, Tree.list, ha, hnames, hc, hlink, isDir_of_at? ha,
    isDir_of_at? hc, ignoresParts_nothing, Entry.isDir]

/-- What a walk lists from the root if it may not go deep at all. -/
theorem walkAt_ofNested_flat :
    ofNested.walkAt ⟨0, true⟩ ⟨[], []⟩ "" = [⟨["a"], true, 1⟩] := by
  have hnames : ofNested.tree.names ["ws"] = ["a"] := List.mergeSort_singleton _
  have hroot : ofNested.tree.at? (ofNested.locate []) = .ok (["ws"], .dir) := by rfl
  have ha : ofNested.tree.at? (ofNested.locate ["a"]) = .ok (["ws", "a"], .dir) := by rfl
  have hcount : ofNested.tree.dirCount = 3 := by rfl
  simp [walkAt, walk, hcount, real_of_at? hroot, walkFrom, walkNames, Tree.list, hroot, hnames, ha,
    isDir_of_at? ha, ignoresParts_nothing, Entry.isDir]

/-- What lies directly in the root is listed beyond a limit of zero, and what lies directly in the
directory that a walk starts in is listed beyond the limit that this directory has reached. Where
the start path has a part that says nothing, depths are not the numbers of names. -/
theorem limit_is_passed :
    (∃ e ∈ ofNested.walkAt ⟨0, true⟩ ⟨[], []⟩ "", ¬ (e.depth : Int) ≤ 0) ∧
    (∃ e ∈ ofNested.walkAt ⟨1, true⟩ ⟨[], []⟩ "a", ¬ (e.depth : Int) ≤ 1) ∧
    ∃ e ∈ ofNested.walkAt ⟨10, true⟩ ⟨[], []⟩ "./a", e.depth ≠ (Text.split e.path '/').length := by
  rw [walkAt_ofNested_flat, walkAt_ofNested _ (by decide), walkAt_ofNested _ (by decide)]
  refine ⟨⟨_, List.mem_singleton_self _, ?_⟩, ⟨_, List.mem_singleton_self _, ?_⟩,
    ⟨_, List.mem_singleton_self _, ?_⟩⟩
  · decide
  · decide
  · decide

/-- The depths of that walk are within a limit of two where the start path is plain. -/
theorem nested_entries_are_within_limit :
    ofNested.tree.Tidy ∧ idleParts "a" = 0 ∧ ∀ e ∈ ofNested.walkAt ⟨2, true⟩ ⟨[], []⟩ "a",
      e.depth = (Text.split e.path '/').length ∧ (e.depth : Int) ≤ 2 := by
  have htidy : ofNested.tree.Tidy := by
    have hwritten : ∀ x ∈ ofNested.tree.entries, ∀ name ∈ x.1,
        name ≠ "" ∧ '/' ∉ name.toList ∧ name ≠ "." ∧ name ≠ ".." := by decide
    exact ⟨by decide, by decide, hwritten⟩
  have hidle : idleParts "a" = 0 := by decide
  have hshallow : ((startDir "a").length : Int) < (⟨2, true⟩ : WalkLimits).maxDepth := by decide
  exact ⟨htidy, hidle, (deeper_entries_lie_in_start htidy "a").2 hidle hshallow⟩

end CodeSurvey.Files.Workspace
