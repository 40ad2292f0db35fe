import CodeSurvey.Proofs.Survey.Changes
import CodeSurvey.Survey.Surveyor

/-!
# Surveys can be repeated

What a run finds does not depend on the runs before it. The counts are cleared, and count the same
as the survey does (`Surveyor.run_eq`). A session may have been used by anyone in any order: what it
remembers of a path is what the path holds still, as long as that does not change
(`Session.Recalls`). And what is stored in the control directory is not seen where that is denied
(`SameOutside.run_eq`). Together: `surveys_are_repeatable`.
-/

namespace CodeSurvey.Syntax.Session

open CodeSurvey.Files

variable {s : Session} {w w' : Workspace} {maxBytes : Int} {path : String}

/-! ## What sessions remember -/

/-- What a session remembers of a path, if anything, is what the path holds now. -/
def Recalls (s : Session) (w : Workspace) (maxBytes : Int) (path : String) : Prop :=
  ∀ x, s.cached.find? (·.1 == path) = some x → x.2.map Parsed.source = readNow w maxBytes path

/-- A session that remembers nothing recalls everything. -/
theorem recalls_empty : empty.Recalls w maxBytes path := fun _ h => by cases h

/-- So does one that was closed. -/
theorem recalls_close : s.close.Recalls w maxBytes path := fun _ h => by cases h

/-- What is handed out is what the path holds now. -/
theorem Recalls.get_eq (h : s.Recalls w maxBytes path) :
    (s.get w maxBytes path).1.map Parsed.source = readNow w maxBytes path := by
  unfold get
  cases hfind : s.cached.find? (·.1 == path) with
  | some x => exact h x hfind
  | none =>
    simp only [Option.map_map]
    exact Option.map_id'

/-- A session that is asked for any path recalls what it did, as long as the workspace that it is
asked in holds the same. -/
theorem Recalls.get (h : s.Recalls w maxBytes path)
    (hsame : readNow w' maxBytes path = readNow w maxBytes path) (asked : String) :
    (s.get w' maxBytes asked).2.Recalls w maxBytes path := by
  unfold Session.get
  cases hfind : s.cached.find? (·.1 == asked) with
  | some x => exact h
  | none =>
    intro x hx
    by_cases heq : asked = path
    · subst heq
      rw [List.find?_cons_of_pos (by simp)] at hx
      obtain rfl := Option.some.inj hx
      rw [← hsame]
      simp only [Option.map_map]
      exact Option.map_id'
    · rw [List.find?_cons_of_neg (by simpa using heq)] at hx
      exact h x hx

/-- The same if it is asked for several paths. -/
theorem Recalls.getAll (h : s.Recalls w maxBytes path)
    (hsame : readNow w' maxBytes path = readNow w maxBytes path) (asked : List String) :
    (Session.getAll w' maxBytes asked s).2.Recalls w maxBytes path := by
  induction asked generalizing s with
  | nil => exact h
  | cons asked rest ih => exact ih (h.get hsame asked)

/-- What is handed out for several paths is what they hold now. -/
theorem getAll_eq {paths : List String} (h : ∀ path ∈ paths, s.Recalls w maxBytes path) :
    (getAll w maxBytes paths s).1 = paths.map fun path => (path, readNow w maxBytes path) := by
  induction paths generalizing s with
  | nil => rfl
  | cons path paths ih =>
    obtain ⟨hpath, hpaths⟩ := List.forall_mem_cons.1 h
    have hrest := ih fun p hp => (hpaths p hp).get rfl path
    unfold getAll
    simp only [hpath.get_eq, hrest, List.map_cons]

end CodeSurvey.Syntax.Session

namespace CodeSurvey.Survey

open CodeSurvey.Artifact CodeSurvey.Files CodeSurvey.Settings CodeSurvey.Syntax

/-! ## What is counted -/

namespace Tally

/-- What is done for a path that was looked at. -/
def visit (count : Tally → String → Tally) (t : Tally) (x : String × Option Source) : Tally :=
  if x.2.isSome then count t x.1 else t.countFailure x.1

/-- The counts when each path counts once. -/
def of (found : List (String × Option Source)) : Tally where
  fileCount := parsedCount found
  errorCount := failedCount found
  counted := (Text.distinct ((found.filter (·.2.isSome)).map (·.1))).reverse
  failed := (Text.distinct ((found.filter (·.2.isNone)).map (·.1))).reverse

/-- Files are counted once. -/
@[simp] theorem of_fileCount (found : List (String × Option Source)) :
    (of found).fileCount = parsedCount found := rfl

/-- So are failures. -/
@[simp] theorem of_errorCount (found : List (String × Option Source)) :
    (of found).errorCount = failedCount found := rfl

/-- One more path is looked at. -/
theorem visit_of (found : List (String × Option Source)) (x : String × Option Source) :
    visit countFile (of found) x = of (found ++ [x]) := by
  obtain ⟨path, source⟩ := x
  cases source with
  | none =>
    simp only [visit, countFailure, of, addError, parsedCount, failedCount, List.filter_append,
      List.map_append, Option.isSome_none, Option.isNone_none, Bool.false_eq_true, if_false,
      List.filter_cons, List.filter_nil, List.map_nil, List.append_nil, List.map_cons, if_true,
      Text.distinct_concat, List.contains_reverse]
    split_ifs <;> simp
  | some source =>
    simp only [visit, countFile, of, addFile, parsedCount, failedCount, List.filter_append,
      List.map_append, Option.isSome_some, Option.isNone_some, Bool.false_eq_true, if_false,
      List.filter_cons, List.filter_nil, List.map_nil, List.append_nil, List.map_cons, if_true,
      Text.distinct_concat, List.contains_reverse]
    split_ifs <;> simp

/-- Several more paths are looked at. -/
theorem foldl_visit_of (found more : List (String × Option Source)) :
    more.foldl (visit countFile) (of found) = of (found ++ more) := by
  induction more generalizing found with
  | nil => rw [List.foldl_nil, List.append_nil]
  | cons x more ih => rw [List.foldl_cons, visit_of, ih, List.append_assoc, List.singleton_append]

/-- Where every path is looked at once it makes no difference whether it is remembered. -/
theorem foldl_visit_addFile {found : List (String × Option Source)}
    (honce : (found.map (·.1)).Nodup) :
    found.foldl (visit fun t _ => t.addFile) {} = { of found with counted := [] } := by
  induction found using List.reverseRecOn with
  | nil => rfl
  | append_singleton found x ih =>
    rw [List.map_append, List.nodup_append'] at honce
    obtain ⟨hfound, -, hx⟩ := honce
    rw [List.foldl_append, ih hfound, List.foldl_cons, List.foldl_nil, ← visit_of]
    -- The path of the last one is not among those counted, as no path occurs twice.
    have hnew : x.1 ∉ (of found).counted := by
      intro hmem
      have hparsed := Text.mem_of_mem_distinct (List.mem_reverse.1 hmem)
      obtain ⟨y, hy, heq⟩ := List.mem_map.1 hparsed
      exact hx (List.mem_map.2 ⟨y, List.mem_of_mem_filter hy, heq⟩) (by simp)
    unfold visit
    split_ifs with hsome
    · unfold countFile
      rw [if_neg (by simpa using hnew)]
      rfl
    · unfold countFailure
      dsimp only
      split_ifs <;> rfl

end Tally

/-! ## Runs of a surveyor -/

variable {w w' : Workspace} {top : Path} {o : Options} {m : Ignore.Matcher}

/-- Parsing several paths hands out what the session has, and counts it. -/
theorem parseAll_eq (s : Scene) (count : Tally → String → Tally) (paths : List String) (t : Tally)
    (session : Session) :
    parseAll s count paths t session = ((s.sources paths session).1,
      (s.sources paths session).1.foldl (Tally.visit count) t, (s.sources paths session).2) := by
  induction paths generalizing t session with
  | nil => rfl
  | cons path paths ih =>
    unfold parseAll Scene.sources Session.getAll
    simp only [ih, Scene.sources, List.foldl_cons, Tally.visit, Option.isSome_map]

/-- The paths that sources are handed out for. -/
theorem map_fst_sources (s : Scene) (paths : List String) (session : Session) :
    (s.sources paths session).1.map (·.1) = paths := by
  unfold Scene.sources
  induction paths generalizing session with
  | nil => rfl
  | cons path paths ih =>
    unfold Session.getAll
    simp only [List.map_cons, ih]

/-- The code files have different paths. -/
theorem nodup_codePaths (hw : w.Proper top) : (Scene.codePaths ⟨w, o, m⟩).Nodup :=
  (nodup_paths_files hw).sublist ((List.filter_sublist).map _)

namespace Surveyor

/-- A run comes to what the survey comes to, whatever was counted before, if the code files have
different paths. -/
theorem run_eq_of_nodup (v : Surveyor)
    (hcode : (Scene.codePaths ⟨w, v.options, v.matcher⟩).Nodup) :
    (v.run w).1 = (Survey.run v.kind ⟨w, v.options, v.matcher⟩ v.session).1 ∧
      (v.run w).2.session = (Survey.run v.kind ⟨w, v.options, v.matcher⟩ v.session).2 := by
  obtain ⟨kind, o, m, session, t⟩ := v
  have hstart : t.clear = Tally.of [] := rfl
  cases kind with
  | directory => exact ⟨rfl, rfl⟩
  | summary => exact ⟨rfl, rfl⟩
  | dataModel =>
    have honce : ((Scene.sources ⟨w, o, m⟩ (modelPaths ⟨w, o, m⟩) session).1.map (·.1)).Nodup := by
      rw [map_fst_sources]
      exact Text.nodup_distinct _
    have hparse := parseAll_eq ⟨w, o, m⟩ (fun t _ => t.addFile) (modelPaths ⟨w, o, m⟩) {} session
    rw [Tally.foldl_visit_addFile honce] at hparse
    unfold Surveyor.run generate Survey.run dataModel
    simp only [Tally.clear, hparse, and_true]
    generalize schemaFile? ⟨w, o, m⟩ = schema
    rcases schema with _ | ⟨path, _ | text⟩ <;>
      simp only [Tally.addFile, Tally.addError, Tally.of_fileCount, Tally.of_errorCount,
        Nat.add_zero]
  | architecture =>
    have honce : ((Scene.sources ⟨w, o, m⟩ (Scene.codePaths ⟨w, o, m⟩) session).1.map
        (·.1)).Nodup := by
      rw [map_fst_sources]
      exact hcode
    unfold Surveyor.run generate Survey.run architecture
    simp only [parseAll_eq, Tally.clear, Tally.foldl_visit_addFile honce, Tally.of_fileCount,
      Tally.of_errorCount, and_true]
  -- Its files need not be different: what has been counted is remembered.
  | workflow =>
    unfold Surveyor.run generate Survey.run workflow
    simp only [parseAll_eq, hstart, Tally.foldl_visit_of, List.nil_append, Tally.of_fileCount,
      Tally.of_errorCount, and_true]

/-- So it does in a workspace without links. -/
theorem run_eq (v : Surveyor) (hw : w.Proper top) :
    (v.run w).1 = (Survey.run v.kind ⟨w, v.options, v.matcher⟩ v.session).1 ∧
      (v.run w).2.session = (Survey.run v.kind ⟨w, v.options, v.matcher⟩ v.session).2 :=
  v.run_eq_of_nodup (nodup_codePaths hw)

end Surveyor

/-! ## Surveys with a session that was used before -/

/-- A session that recalls the files of the workspace, as a fresh one does. -/
def RecallsFiles (session : Session) (w : Workspace) (top : Path) (o : Options)
    (m : Ignore.Matcher) : Prop :=
  ∀ path, IsKeptFile w top m path → session.Recalls w o.maxFileBytes path

/-- Sessions that recall the files of the workspace hand out the same sources. -/
theorem sources_fst_eq (hw : w.Proper top) (paths : List String)
    (hpaths : paths ⊆ Scene.codePaths ⟨w, o, m⟩ ++ routePaths ⟨w, o, m⟩ ++ modelPaths ⟨w, o, m⟩)
    {session session' : Session} (h : RecallsFiles session w top o m)
    (h' : RecallsFiles session' w top o m) :
    (Scene.sources ⟨w, o, m⟩ paths session).1 = (Scene.sources ⟨w, o, m⟩ paths session').1 := by
  unfold Scene.sources
  rw [Session.getAll_eq fun path hp => h path (isKeptFile_of_mem_asked hw (hpaths hp)),
    Session.getAll_eq fun path hp => h' path (isKeptFile_of_mem_asked hw (hpaths hp))]

/-- What a survey finds does not depend on what its session remembers if that is what the files of
the workspace hold now. -/
theorem run_fst_eq (hw : w.Proper top) {session : Session} (h : RecallsFiles session w top o m)
    (kind : CoreKind) : (run kind ⟨w, o, m⟩ session).1 = (run kind ⟨w, o, m⟩ .empty).1 := by
  have hempty : RecallsFiles .empty w top o m := fun _ _ => Session.recalls_empty
  have hcode := List.subset_append_left (Scene.codePaths ⟨w, o, m⟩) (routePaths ⟨w, o, m⟩)
  have hroutes := List.subset_append_right (Scene.codePaths ⟨w, o, m⟩) (routePaths ⟨w, o, m⟩)
  cases kind with
  | directory => rfl
  | summary => rfl
  | dataModel =>
    unfold run dataModel
    simp only [sources_fst_eq hw _ (List.subset_append_right _ _) h hempty]
  | architecture =>
    unfold run architecture
    simp only [sources_fst_eq hw _ (List.subset_append_of_subset_left _ hcode) h hempty]
  | workflow =>
    -- The code files are asked for after the routes were.
    have hroutesRead {session : Session} (h : RecallsFiles session w top o m) :
        RecallsFiles (Scene.sources ⟨w, o, m⟩ (routePaths ⟨w, o, m⟩) session).2 w top o m :=
      fun path hp => (h path hp).getAll rfl (routePaths ⟨w, o, m⟩)
    unfold run workflow
    simp only [sources_fst_eq hw _ (List.subset_append_of_subset_left _ hroutes) h hempty,
      sources_fst_eq hw _ (List.subset_append_of_subset_left _ hcode) (hroutesRead h)
        (hroutesRead hempty)]

/-- A survey of any kind leaves a session that recalls what it did. -/
theorem recalls_run {s : Scene} {session : Session} {maxBytes : Int} {path : String}
    (h : session.Recalls w maxBytes path) (hbytes : s.options.maxFileBytes = maxBytes)
    (hsame : Session.readNow s.workspace maxBytes path = Session.readNow w maxBytes path)
    (kind : CoreKind) : (run kind s session).2.Recalls w maxBytes path := by
  subst hbytes
  cases kind with
  | directory => exact h
  | summary => exact h
  | dataModel => exact h.getAll hsame _
  | architecture => exact h.getAll hsame _
  | workflow => exact (h.getAll hsame _).getAll hsame _

/-! ## Workspaces that are the same outside of the control directory -/

/-- A denied name is not seen, and neither is what lies below it. -/
theorem ignoresParts_of_denied (hdenied : controlDirName ∈ m.denied) {p : Path}
    (hp : [controlDirName] <+: p) (isDir : Bool) : m.ignoresParts p isDir := by
  have hname : m.deniesName controlDirName := by
    refine List.any_eq_true.2 ⟨controlDirName, hdenied, ?_⟩
    rw [if_neg (by decide)]
    exact beq_self_eq_true _
  have hany : p.any m.deniesName := by
    obtain ⟨rest, rfl⟩ := hp
    rw [List.singleton_append, List.any_cons, hname, Bool.true_or]
  rw [Ignore.Matcher.ignoresParts, hany, Bool.true_or, Bool.true_or]

/-- A workspace at another time, when all but what lies in the control directory is as before. -/
structure SameOutside (w : Workspace) (top : Path) (w' : Workspace) : Prop where
  proper : w'.Proper top
  root : w'.root = w.root
  entry : ∀ p, ¬ [controlDirName] <+: p → w'.tree.entry? (top ++ p) = w.tree.entry? (top ++ p)
  unreadable : ∀ p, ¬ [controlDirName] <+: p →
    w'.unreadable (w.locate p) = w.unreadable (w.locate p)

/-- What the bytes at a path are is told by what stands there. -/
theorem toOption_bytes (hw : w.Proper top) {p : Path} (hup : ".." ∉ p) (hne : p ≠ []) :
    (w.tree.bytes (w.locate p)).toOption = (w.tree.entry? (top ++ p)).bind fun
      | .file content => some content
      | _ => none := by
  cases hentry : w.tree.entry? (top ++ p) with
  | none =>
    have hroute : w.tree.Route w.root top p :=
      ⟨hw.sound, hw.leads, hup, fun qs target _ => hw.noLink qs target⟩
    obtain ⟨e, hat, -⟩ := hroute.at?_of_none hne hentry
    rw [Tree.bytes, Workspace.locate, hat]
    rfl
  | some x =>
    rw [Tree.bytes, hw.at?_locate hentry]
    cases x with
    | link target => exact absurd hentry (hw.noLink p target)
    | _ => rfl

/-- The names that are denied are those of the options. -/
theorem denied_eq (h : matcherOf w o = .ok m) : m.denied = o.denied := by
  unfold matcherOf at h
  dsimp only at h
  generalize Ignore.rulesOf _ = rules at h
  cases rules with
  | error e => cases h
  | ok rules =>
    cases h
    rfl

namespace SameOutside

variable (h : SameOutside w top w')
include h

/-- What can be read of a file outside of the control directory is the same. -/
theorem read_eq (hw : w.Proper top) {p : Path} (hup : ".." ∉ p) (hne : p ≠ [])
    (hout : ¬ [controlDirName] <+: p) :
    w'.isFile p = w.isFile p ∧ w'.bytes? p = w.bytes? p ∧
      ∀ maxBytes, w'.text? p maxBytes = w.text? p maxBytes := by
  have hbytes : (w'.tree.bytes (w'.locate p)).toOption = (w.tree.bytes (w.locate p)).toOption := by
    rw [toOption_bytes hw hup hne, toOption_bytes h.proper hup hne, h.entry p hout]
  have hlocate : w'.locate p = w.locate p := by rw [Workspace.locate, h.root, Workspace.locate]
  have hread : w'.bytes? p = w.bytes? p := by
    rw [Workspace.bytes?, Workspace.bytes?, hbytes, hlocate, h.unreadable p hout]
  have hsize (w : Workspace) :
      w.size? p = (w.tree.bytes (w.locate p)).toOption.map ByteArray.size := by
    unfold Workspace.size?
    cases w.tree.bytes (w.locate p) <;> rfl
  refine ⟨?_, hread, fun maxBytes => ?_⟩
  · rw [Bool.eq_iff_iff, h.proper.isFile_iff hup hne, hw.isFile_iff hup hne, h.entry p hout]
  · rw [Workspace.text?, Workspace.text?, hsize, hsize, hbytes, hread]

/-- The matcher is the same. -/
theorem matcherOf_eq (hw : w.Proper top) (o : Options) : matcherOf w' o = matcherOf w o := by
  have hread := h.read_eq hw (p := [ignoreFileName]) (by decide) (by decide) (by decide)
  unfold matcherOf
  rw [hread.2.1]

/-- The workspaces agree on what is not ignored where the control directory is denied. -/
theorem agree (hw : w.Proper top) (hdenied : controlDirName ∈ m.denied) :
    w.Agree top w' top m where
  proper := hw
  proper' := h.proper
  keeps := by
    intro p x
    by_cases hp : [controlDirName] <+: p
    · -- What is in the control directory is kept on neither side.
      have hignored := ignoresParts_of_denied hdenied hp x.isDir
      exact iff_of_false (fun hx => Bool.false_ne_true (hx.kept.symm.trans hignored))
        fun hx => Bool.false_ne_true (hx.kept.symm.trans hignored)
    · constructor
      · rintro ⟨hbelow, hentry, hkept⟩
        exact ⟨hbelow, (h.entry p hp).trans hentry, hkept⟩
      · rintro ⟨hbelow, hentry, hkept⟩
        exact ⟨hbelow, (h.entry p hp).symm.trans hentry, hkept⟩
  unreadable := by
    intro p x hx
    have hp : ¬ [controlDirName] <+: p := fun hp =>
      Bool.false_ne_true (hx.kept.symm.trans (ignoresParts_of_denied hdenied hp x.isDir))
    rw [← h.unreadable p hp, Workspace.locate, Workspace.locate, h.root]

/-- The surveys of every kind find the same where the control directory is denied. -/
theorem run_eq (hw : w.Proper top) (hdenied : controlDirName ∈ m.denied) (kind : CoreKind)
    (session : Session) : run kind ⟨w', o, m⟩ session = run kind ⟨w, o, m⟩ session := by
  have hagree := h.agree hw hdenied
  have hname : w.name = w'.name := by rw [Workspace.name, ← h.root, Workspace.name]
  -- No file that is asked for by name lies in the control directory.
  have hasked {p : Path} (hp : p ∈ readPaths ++ toolPaths ++ DataModel.Schema.places) :=
    have hout : ∀ p ∈ readPaths ++ toolPaths ++ DataModel.Schema.places,
      ¬ [controlDirName] <+: p := by decide +kernel
    h.read_eq hw (asked_of_mem hp).2 (asked_of_mem hp).1 (hout p hp)
  have hseen {p : Path} (hp : p ∈ readPaths ++ toolPaths ++ DataModel.Schema.places) :
      SeenAlike m w w' p := fun _ => (hasked hp).1.symm
  have hread (p : Path) (hp : p ∈ readPaths) : ReadAlike m w w' p := by
    obtain ⟨hfile, -, htext⟩ := hasked (List.mem_append_left _ (List.mem_append_left _ hp))
    exact fun _ => ⟨hfile.symm, fun maxBytes => (htext maxBytes).symm⟩
  cases kind with
  | directory => exact Prod.ext (directory_eq hagree hname).symm rfl
  | summary =>
    refine Prod.ext (summary_eq hagree hname hread fun p hp => hseen ?_).symm rfl
    exact List.mem_append_left _ (List.mem_append_right _ hp)
  | dataModel =>
    exact (dataModel_eq hagree (fun p hp => hseen (List.mem_append_right _ hp)) session).symm
  | architecture => exact (architecture_eq hagree session).symm
  | workflow => exact (workflow_eq hagree session).symm

end SameOutside

/-! ## Histories of surveyors -/

namespace Surveyor

/-- The surveyors that there can be while the workspace stays the same outside of the control
directory: of any kind and with any options that read as much, with a session of their own or one
that others use, after any runs of theirs and of the others. -/
inductive Arises (w : Workspace) (top : Path) (maxBytes : Int) : Surveyor → Prop
  | own {kind : CoreKind} {w' : Workspace} {o : Options} {v : Surveyor}
      (now : SameOutside w top w') (bytes : o.maxFileBytes = maxBytes)
      (made : make kind w' o none = .ok v) : Arises w top maxBytes v
  | shared {u : Surveyor} {kind : CoreKind} {w' : Workspace} {o : Options} {v : Surveyor}
      (other : Arises w top maxBytes u) (now : SameOutside w top w')
      (bytes : o.maxFileBytes = maxBytes) (made : make kind w' o (some u.session) = .ok v) :
      Arises w top maxBytes v
  | ran {v : Surveyor} {w' : Workspace} (before : Arises w top maxBytes v)
      (now : SameOutside w top w') : Arises w top maxBytes (v.run w').2
  /-- Another one has used the same session. -/
  | joined {v u : Surveyor} (before : Arises w top maxBytes v) (other : Arises w top maxBytes u) :
      Arises w top maxBytes { v with session := u.session }
  | closed {v : Surveyor} (before : Arises w top maxBytes v) :
      Arises w top maxBytes { v with session := v.session.close }

/-- A surveyor is made with the matcher of the workspace, and with the session that is given. -/
theorem make_eq (kind : CoreKind) (w : Workspace) (o : Options) (session : Option Session) :
    make kind w o session =
      (matcherOf w o).map fun m => ⟨kind, o, m, session.getD .empty, {}⟩ := by
  unfold make
  cases matcherOf w o <;> rfl

/-- A run changes the session and the counts only. -/
theorem run_fields (v : Surveyor) (w : Workspace) :
    (v.run w).2.options = v.options ∧ (v.run w).2.matcher = v.matcher := by
  unfold Surveyor.run
  rcases generate v.kind ⟨w, v.options, v.matcher⟩ v.tally.clear v.session with ⟨_, _, _⟩
  exact ⟨rfl, rfl⟩

/-- What holds of such a surveyor: its matcher is that of the workspace, and its session recalls
every path that holds the same all the time. -/
structure Apt (w : Workspace) (top : Path) (maxBytes : Int) (v : Surveyor) : Prop where
  bytes : v.options.maxFileBytes = maxBytes
  matcher : matcherOf w v.options = .ok v.matcher
  recalls : ∀ path, (∀ w', SameOutside w top w' →
      Session.readNow w' maxBytes path = Session.readNow w maxBytes path) →
    v.session.Recalls w maxBytes path

/-- A surveyor that is made with a session that recalls is apt. -/
theorem Apt.of_make (hw : w.Proper top) {kind : CoreKind} {session : Option Session} {v : Surveyor}
    {maxBytes : Int} (now : SameOutside w top w') (bytes : o.maxFileBytes = maxBytes)
    (made : make kind w' o session = .ok v)
    (hsession : ∀ path, (∀ w', SameOutside w top w' →
      Session.readNow w' maxBytes path = Session.readNow w maxBytes path) →
      (session.getD .empty).Recalls w maxBytes path) : v.Apt w top maxBytes := by
  rw [make_eq, now.matcherOf_eq hw] at made
  cases hm : matcherOf w o with
  | error e =>
    rw [hm] at made
    cases made
  | ok m =>
    rw [hm] at made
    obtain rfl := Except.ok.inj made
    exact ⟨bytes, hm, hsession⟩

/-- Every surveyor that there can be is apt. -/
theorem Arises.apt (hw : w.Proper top) {maxBytes : Int} {v : Surveyor}
    (h : Arises w top maxBytes v) : v.Apt w top maxBytes := by
  induction h with
  | own now bytes made => exact .of_make hw now bytes made fun _ _ => Session.recalls_empty
  | shared other now bytes made ih => exact .of_make hw now bytes made ih.recalls
  | @ran v w' before now ih =>
    obtain ⟨hoptions, hmatcher⟩ := v.run_fields w'
    refine ⟨?_, ?_, fun path hpath => ?_⟩
    · rw [hoptions, ih.bytes]
    · rw [hoptions, hmatcher, ih.matcher]
    · rw [(v.run_eq now.proper).2]
      have hsame : Session.readNow w' maxBytes path = Session.readNow w maxBytes path :=
        hpath w' now
      exact recalls_run (s := ⟨w', v.options, v.matcher⟩) (ih.recalls path hpath) ih.bytes hsame
        v.kind
  | joined before other ih ih' => exact ⟨ih.bytes, ih.matcher, ih'.recalls⟩
  | closed before ih => exact ⟨ih.bytes, ih.matcher, fun _ _ => Session.recalls_close⟩

/-- An apt surveyor finds what a survey with a fresh session finds at first. -/
theorem Apt.run_eq (hw : w.Proper top) {v : Surveyor} {maxBytes : Int} (h : v.Apt w top maxBytes)
    (hdenied : controlDirName ∈ v.options.denied) (now : SameOutside w top w') :
    (v.run w').1 = (Survey.run v.kind ⟨w, v.options, v.matcher⟩ .empty).1 := by
  have hcontrol : controlDirName ∈ v.matcher.denied := by
    rwa [denied_eq h.matcher]
  rw [(v.run_eq now.proper).1, now.run_eq hw hcontrol]
  refine run_fst_eq hw (fun path hpath => ?_) v.kind
  rw [h.bytes]
  exact h.recalls path fun w' now' => (readNow_eq (now'.agree hw hcontrol) hpath maxBytes).symm

end Surveyor

/-- What a survey finds can be repeated where the control directory is denied: a surveyor with any
history, and one that is made anew, with a session of its own or any that others have used, come to
the same outcome as long as nothing changes outside of the control directory. If the rules of the
workspace make no matcher, none can be made. -/
theorem surveys_are_repeatable (hw : w.Proper top) (hdenied : controlDirName ∈ o.denied)
    (kind : CoreKind) :
    (∀ v w', Surveyor.Arises w top o.maxFileBytes v → v.kind = kind → v.options = o →
      SameOutside w top w' →
      .ok (v.run w').1 = (matcherOf w o).map fun m => (run kind ⟨w, o, m⟩ .empty).1) ∧
    ∀ w' session, SameOutside w top w' →
      (session = none ∨ ∃ u, Surveyor.Arises w top o.maxFileBytes u ∧ session = some u.session) →
      ((Surveyor.make kind w' o session).map fun v => (v.run w').1) =
        (matcherOf w o).map fun m => (run kind ⟨w, o, m⟩ .empty).1 := by
  have hrun : ∀ v w', Surveyor.Arises w top o.maxFileBytes v → v.kind = kind → v.options = o →
      SameOutside w top w' →
      .ok (v.run w').1 = (matcherOf w o).map fun m => (run kind ⟨w, o, m⟩ .empty).1 := by
    rintro v w' harises rfl rfl now
    have hapt := harises.apt hw
    rw [hapt.run_eq hw hdenied now, hapt.matcher]
    rfl
  refine ⟨hrun, fun w' session now hsession => ?_⟩
  cases hm : matcherOf w o with
  | error e =>
    rw [Surveyor.make_eq, now.matcherOf_eq hw, hm]
    rfl
  | ok m =>
    have hmade : Surveyor.make kind w' o session =
        .ok ⟨kind, o, m, session.getD .empty, {}⟩ := by
      rw [Surveyor.make_eq, now.matcherOf_eq hw, hm]
      rfl
    -- A new surveyor arises like one with a history, whether its session is its own or not.
    have harises : Surveyor.Arises w top o.maxFileBytes
        ⟨kind, o, m, session.getD .empty, {}⟩ := by
      rcases hsession with rfl | ⟨u, hu, rfl⟩
      · exact .own now rfl hmade
      · exact .shared hu now rfl hmade
    rw [hmade, ← hm]
    exact hrun _ w' harises rfl rfl now

/-- A workspace to which something is added in the control directory. -/
theorem sameOutside_append {kept extra : List (Path × Entry)}
    (hproper : (Workspace.ofEntries kept).Proper ["ws"])
    (hproper' : (Workspace.ofEntries (kept ++ extra)).Proper ["ws"])
    (hextra : ∀ y ∈ extra, [controlDirName] <+: y.1) :
    SameOutside (.ofEntries kept) ["ws"] (.ofEntries (kept ++ extra)) where
  proper := hproper'
  root := rfl
  unreadable := fun _ _ => rfl
  entry := by
    intro p hp
    rcases eq_or_ne p [] with rfl | hne
    · rfl
    refine Option.ext fun x => ⟨fun hx => ?_, fun hx => ?_⟩
    · rcases List.mem_append.1 (Workspace.mem_of_entry_eq hne hx) with hmem | hmem
      · exact Workspace.entry?_of_mem hproper.once hmem
      · exact absurd (hextra _ hmem) hp
    · have hmem := Workspace.mem_of_entry_eq hne hx
      exact Workspace.entry?_of_mem hproper'.once (List.mem_append_left _ hmem)

/-- A surveyor of workflows. -/
def freshSurveyor : Surveyor := ⟨.workflow, {}, defaultMatcher, .empty, {}⟩

/-- Artifacts are stored between two runs of the same surveyor, and a third run is made by another
one with the session of the first. -/
theorem surveys_are_repeatable_past_stored_artifacts :
    let w := Workspace.ofEntries [sourceEntry]
    let w' := Workspace.ofEntries ([sourceEntry] ++ controlEntries)
    Surveyor.make .workflow w {} none = .ok freshSurveyor ∧
      ((freshSurveyor.run w).2.run w').1 = (freshSurveyor.run w).1 ∧
      ((Surveyor.make .workflow w' {} (some (freshSurveyor.run w).2.session)).map fun v =>
        (v.run w').1) = .ok (freshSurveyor.run w).1 := by
  intro w w'
  have hw : w.Proper ["ws"] :=
    Workspace.proper_ofEntries (by decide +kernel) (by decide +kernel) (by decide +kernel)
      (by simp [sourceEntry])
  have hw' : w'.Proper ["ws"] :=
    Workspace.proper_ofEntries (by decide +kernel) (by decide +kernel) (by decide +kernel)
      (by simp [sourceEntry, controlEntries])
  have now : SameOutside w ["ws"] w := ⟨hw, rfl, fun _ _ => rfl, fun _ _ => rfl⟩
  have now' : SameOutside w ["ws"] w' :=
    sameOutside_append hw hw' (by simp [controlEntries, List.prefix_iff_eq_take])
  have hmade : Surveyor.make .workflow w {} none = .ok freshSurveyor := by rfl
  have harises : Surveyor.Arises w ["ws"] ({} : Options).maxFileBytes freshSurveyor :=
    .own now rfl hmade
  obtain ⟨hrun, hmake⟩ := surveys_are_repeatable (o := {}) hw (by decide) .workflow
  -- Both later runs are compared with the first one.
  have hfirst := hrun freshSurveyor w harises rfl rfl now
  obtain ⟨hoptions, -⟩ := freshSurveyor.run_fields w
  refine ⟨hmade, ?_, ?_⟩
  · have hsecond := hrun (freshSurveyor.run w).2 w' (.ran harises now) rfl hoptions now'
    exact Except.ok.inj (hsecond.trans hfirst.symm)
  · have hshared := hmake w' (some (freshSurveyor.run w).2.session) now'
      (.inr ⟨_, .ran harises now, rfl⟩)
    exact hshared.trans hfirst.symm

end CodeSurvey.Survey
