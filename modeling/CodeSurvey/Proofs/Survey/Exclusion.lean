import CodeSurvey.Proofs.Files.Agreement
import CodeSurvey.Proofs.Text.Pieces
import CodeSurvey.Survey.Engine
import Mathlib.Data.List.Find

/-!
# What is ignored does not count

Two workspaces are compared that keep the same, while what they ignore differs (`AlikeBut`). The
surveys of the directories, of the architecture and of the workflows find the same in both
(`ignored_files_are_not_surveyed`): the walks are the same, and so is what a session reads at the
files on them. The control directory is no exception. It may differ where it is ignored, as it is
by default, and is surveyed where it is not (`kept_control_directory_is_surveyed`).

The surveys of the overview and of the data model also ask for some files by name, ignored or not.
They find the same if these files are the same as well (`ignored_files_count_by_name_only`), and
need not otherwise (`ignored_files_count_by_name`).
-/

namespace CodeSurvey.Syntax.Session

open CodeSurvey.Files

variable {w w' : Workspace} {maxBytes : Int}

/-- A session hands out the same if the path holds the same now. -/
theorem get_congr {path : String} (h : readNow w maxBytes path = readNow w' maxBytes path)
    (s : Session) : s.get w maxBytes path = s.get w' maxBytes path := by
  unfold get
  rw [h]

/-- So it does for several paths. -/
theorem getAll_congr {paths : List String}
    (h : ∀ path ∈ paths, readNow w maxBytes path = readNow w' maxBytes path) (s : Session) :
    getAll w maxBytes paths s = getAll w' maxBytes paths s := by
  induction paths generalizing s with
  | nil => rfl
  | cons path paths ih =>
    obtain ⟨hpath, hpaths⟩ := List.forall_mem_cons.1 h
    unfold getAll
    simp only [get_congr hpath, ih hpaths]

end CodeSurvey.Syntax.Session

namespace CodeSurvey.Directory.Outline

open CodeSurvey.Files

/-- An outline needs the sizes of the files in it only. -/
theorem childrenOf_congr {entries : List WalkEntry} {sizeOf sizeOf' : Path → Nat}
    (h : ∀ e ∈ entries, e.isDir = false → sizeOf e.parts = sizeOf' e.parts) (depth : Nat)
    (dir : Path) : childrenOf entries sizeOf depth dir = childrenOf entries sizeOf' depth dir := by
  induction depth generalizing dir with
  | zero => rfl
  | succ depth ih =>
    -- The children are ordered by what is made of them, so it is enough that this is the same.
    unfold childrenOf
    congr 1
    refine List.map_congr_left fun e he => ?_
    cases hdir : e.isDir with
    | true => simp only [if_true, ih]
    | false => simp only [h e (List.mem_of_mem_filter he) hdir, Bool.false_eq_true, if_false]

/-- So the outline of a walk does. -/
theorem ofWalk_congr {name : String} {entries : List WalkEntry} {sizeOf sizeOf' : Path → Nat}
    (h : ∀ e ∈ entries, e.isDir = false → sizeOf e.parts = sizeOf' e.parts) :
    ofWalk name entries sizeOf = ofWalk name entries sizeOf' := by
  unfold ofWalk
  rw [childrenOf_congr h]

end CodeSurvey.Directory.Outline

namespace CodeSurvey.Survey

open CodeSurvey.Files CodeSurvey.Settings CodeSurvey.Syntax CodeSurvey.Artifact

variable {w w' : Workspace} {top top' : Path} {o : Options} {m : Ignore.Matcher}

/-! ## Workspaces that are alike -/

/-- Two workspaces are alike but for some entries: they have the same name and the same ignore file,
and besides these entries what is not ignored is the same in both. -/
structure AlikeBut (off : Path → Entry → Prop) (w : Workspace) (top : Path) (w' : Workspace)
    (top' : Path) (m : Ignore.Matcher) : Prop where
  proper : w.Proper top
  proper' : w'.Proper top'
  name : w.name = w'.name
  ignoreFile : w.bytes? [ignoreFileName] = w'.bytes? [ignoreFileName]
  keeps : ∀ p x, ¬ off p x → (w.Keeps top m p x ↔ w'.Keeps top' m p x)
  unreadable : ∀ p x, ¬ off p x → w.Keeps top m p x →
    w.unreadable (w.locate p) = w'.unreadable (w'.locate p)

/-- An entry of the control directory: the directory itself, or something in it. -/
def InControlDir (p : Path) (x : Entry) : Prop :=
  [controlDirName] <+: p ∧ (p = [controlDirName] → x = .dir)

/-- An entry of the control directory where that is ignored. -/
def InIgnoredControlDir (m : Ignore.Matcher) (p : Path) (x : Entry) : Prop :=
  m.ignoresParts [controlDirName] true ∧ InControlDir p x

namespace AlikeBut

variable {off : Path → Entry → Prop}

/-- Workspaces that are alike agree if neither keeps any of the entries that are left out. -/
theorem agree (h : AlikeBut off w top w' top' m)
    (hoff : ∀ p x, off p x → ¬ w.Keeps top m p x ∧ ¬ w'.Keeps top' m p x) :
    w.Agree top w' top' m where
  proper := h.proper
  proper' := h.proper'
  keeps := by
    intro p x
    by_cases hp : off p x
    · exact iff_of_false (hoff p x hp).1 (hoff p x hp).2
    · exact h.keeps p x hp
  unreadable := by
    intro p x hx
    by_cases hp : off p x
    · exact absurd hx (hoff p x hp).1
    · exact h.unreadable p x hp hx

/-- A control directory that is ignored is no part of what is kept. -/
theorem agree_of_control (h : AlikeBut (InIgnoredControlDir m) w top w' top' m) :
    w.Agree top w' top' m := by
  refine h.agree fun p x hoff => ?_
  obtain ⟨hignored, hstart, hself⟩ := hoff
  -- The same for both workspaces, as what is ignored does not depend on them.
  have hnone : ∀ {w : Workspace} {top : Path}, ¬ w.Keeps top m p x := by
    intro w top hx
    have hkept := hx.not_ignored_above (List.cons_ne_nil _ _) hstart hself
    exact Bool.false_ne_true (hkept.symm.trans hignored)
  exact ⟨hnone, hnone⟩

/-- Workspaces that are alike have the same matcher. -/
theorem matcherOf_eq (h : AlikeBut off w top w' top' m) : matcherOf w o = matcherOf w' o := by
  unfold matcherOf
  rw [h.ignoreFile]

end AlikeBut

/-! ## Files that surveys look at -/

/-- The path of a file that is kept. -/
def IsKeptFile (w : Workspace) (top : Path) (m : Ignore.Matcher) (path : String) : Prop :=
  ∃ e : WalkEntry, e.path = path ∧ ∃ content, w.Keeps top m e.parts (.file content)

/-- The files of the walk are kept. -/
theorem isKeptFile_of_mem_files (hw : w.Proper top) {e : WalkEntry}
    (he : e ∈ Scene.files ⟨w, o, m⟩) : IsKeptFile w top m e.path := by
  obtain ⟨hwalk, hfile⟩ := List.mem_filter.1 he
  exact ⟨e, rfl, hw.keeps_of_mem_walk hwalk (by simpa using hfile)⟩

/-- The directories that are looked into are written with names. -/
theorem isWritten_of_mem {dir : String} (hdir : dir ∈ modelDirectories ++ routeDirectories) :
    ∃ ps, ps ≠ [] ∧ IsWritten ps ∧ dir = pathText ps := by
  have hall : ∀ dir ∈ modelDirectories ++ routeDirectories, pathParts dir ≠ [] ∧
      (∀ name ∈ pathParts dir, name ≠ "" ∧ '/' ∉ name.toList ∧ name ≠ "." ∧ name ≠ "..") ∧
      dir = pathText (pathParts dir) := by decide +kernel
  exact ⟨pathParts dir, hall dir hdir⟩

/-- The files below a directory are those of the walk below it; what is no directory has none
anyway. -/
theorem filesBelow_eq (hw : w.Proper top) {ps : Path} (hne : ps ≠ []) (hps : IsWritten ps) :
    Scene.filesBelow ⟨w, o, m⟩ (pathText ps) =
      (w.walkBelow o.limits m (pathText ps)).filter (!·.isDir) := by
  unfold Scene.filesBelow
  rw [pathParts_pathText hne hps]
  cases hisDir : w.isDir ps with
  | true => rfl
  | false =>
    have hdir : ¬ w.Keeps top m ps .dir := by
      intro hdir
      exact Bool.false_ne_true (hisDir.symm.trans (hw.isDir_eq hdir.entry))
    rw [hw.walkBelow_of_not_keeps hne hps hdir]
    rfl

/-- The files below these directories are kept. -/
theorem isKeptFile_of_mem_filesBelow (hw : w.Proper top) {dirs : List String}
    (hdirs : dirs ⊆ modelDirectories ++ routeDirectories) {e : WalkEntry}
    (he : e ∈ dirs.flatMap (Scene.filesBelow ⟨w, o, m⟩)) : IsKeptFile w top m e.path := by
  obtain ⟨dir, hdir, he⟩ := List.mem_flatMap.1 he
  obtain ⟨ps, hne, hps, rfl⟩ := isWritten_of_mem (hdirs hdir)
  rw [filesBelow_eq hw hne hps] at he
  obtain ⟨hwalk, hfile⟩ := List.mem_filter.1 he
  exact ⟨e, rfl, hw.keeps_of_mem_walkBelow hne hps hwalk (by simpa using hfile)⟩

/-- The paths whose sources the surveys ask for are those of files that are kept. -/
theorem isKeptFile_of_mem_asked (hw : w.Proper top) {path : String}
    (h : path ∈ Scene.codePaths ⟨w, o, m⟩ ++ routePaths ⟨w, o, m⟩ ++ modelPaths ⟨w, o, m⟩) :
    IsKeptFile w top m path := by
  rcases List.mem_append.1 h with h | hmodel
  · rcases List.mem_append.1 h with hcode | hroute
    · obtain ⟨e, he, rfl⟩ := List.mem_map.1 hcode
      exact isKeptFile_of_mem_files hw (List.mem_of_mem_filter he)
    · obtain ⟨e, he, rfl⟩ := List.mem_map.1 hroute
      exact isKeptFile_of_mem_filesBelow hw (List.subset_append_right _ _)
        (List.mem_of_mem_filter he)
  · obtain ⟨e, he, hsome⟩ := List.mem_filterMap.1 (Text.mem_of_mem_distinct hmodel)
    obtain ⟨-, rfl⟩ : _ ∧ e.path = path := by simpa using hsome
    exact isKeptFile_of_mem_filesBelow hw (List.subset_append_left _ _) he

section Agree

variable (h : w.Agree top w' top' m)
include h

/-- The files of the walk are the same. -/
theorem files_eq : Scene.files ⟨w, o, m⟩ = Scene.files ⟨w', o, m⟩ := by
  unfold Scene.files Scene.walk
  rw [h.walk_eq]

/-- So are those below the directories that are looked into. -/
theorem flatMap_filesBelow_eq {dirs : List String}
    (hdirs : dirs ⊆ modelDirectories ++ routeDirectories) :
    dirs.flatMap (Scene.filesBelow ⟨w, o, m⟩) = dirs.flatMap (Scene.filesBelow ⟨w', o, m⟩) := by
  refine List.flatMap_congr fun dir hdir => ?_
  obtain ⟨ps, hne, hps, rfl⟩ := isWritten_of_mem (hdirs hdir)
  rw [filesBelow_eq h.proper hne hps, filesBelow_eq h.proper' hne hps, h.walkBelow_eq hne hps]

/-- A file that is kept holds the same source. -/
theorem readNow_eq {path : String} (hpath : IsKeptFile w top m path) (maxBytes : Int) :
    Session.readNow w maxBytes path = Session.readNow w' maxBytes path := by
  obtain ⟨e, rfl, content, hkeeps⟩ := hpath
  unfold Session.readNow
  rw [h.proper.pathParts_path hkeeps, h.text?_eq hkeeps]

/-- A session finds the same at files that are kept. -/
theorem sources_eq {paths : List String} (hpaths : ∀ path ∈ paths, IsKeptFile w top m path)
    (session : Session) :
    Scene.sources ⟨w, o, m⟩ paths session = Scene.sources ⟨w', o, m⟩ paths session :=
  Session.getAll_congr (fun path hpath => readNow_eq h (hpaths path hpath) _) session

/-! ## Surveys of what is on the walk -/

/-- The surveys of the directories are the same. -/
theorem directory_eq (hname : w.name = w'.name) :
    directory ⟨w, o, m⟩ = directory ⟨w', o, m⟩ := by
  have hsizes : ∀ e ∈ w.walk o.limits m, e.isDir = false →
      (w.size? e.parts).getD 0 = (w'.size? e.parts).getD 0 := by
    intro e he hfile
    obtain ⟨content, hkeeps⟩ := h.proper.keeps_of_mem_walk he hfile
    rw [h.size?_eq hkeeps]
  have houtline : outline ⟨w, o, m⟩ = outline ⟨w', o, m⟩ :=
    calc outline ⟨w, o, m⟩
      _ = .ofWalk w.name (w.walk o.limits m) fun p => (w'.size? p).getD 0 :=
        Directory.Outline.ofWalk_congr hsizes
      _ = .ofWalk w'.name (w'.walk o.limits m) fun p => (w'.size? p).getD 0 := by
        rw [hname, h.walk_eq]
  unfold directory
  rw [houtline]

/-- The code files are the same, with the same sources. -/
theorem codeSources_eq (session : Session) :
    Scene.sources ⟨w, o, m⟩ (Scene.codePaths ⟨w, o, m⟩) session =
      Scene.sources ⟨w', o, m⟩ (Scene.codePaths ⟨w', o, m⟩) session := by
  have hpaths : Scene.codePaths ⟨w', o, m⟩ = Scene.codePaths ⟨w, o, m⟩ := by
    unfold Scene.codePaths
    rw [files_eq h]
  rw [hpaths]
  refine sources_eq h (fun path hpath => isKeptFile_of_mem_asked (o := o) h.proper ?_) session
  exact List.mem_append_left _ (List.mem_append_left _ hpath)

/-- The route files are the same, with the same sources. -/
theorem routeSources_eq (session : Session) :
    Scene.sources ⟨w, o, m⟩ (routePaths ⟨w, o, m⟩) session =
      Scene.sources ⟨w', o, m⟩ (routePaths ⟨w', o, m⟩) session := by
  have hdirs : routeDirectories ⊆ modelDirectories ++ routeDirectories :=
    List.subset_append_right _ _
  have hpaths : routePaths ⟨w', o, m⟩ = routePaths ⟨w, o, m⟩ := by
    unfold routePaths
    rw [flatMap_filesBelow_eq h hdirs]
  rw [hpaths]
  refine sources_eq h (fun path hpath => isKeptFile_of_mem_asked (o := o) h.proper ?_) session
  exact List.mem_append_left _ (List.mem_append_right _ hpath)

/-- The model files are the same, with the same sources. -/
theorem modelSources_eq (session : Session) :
    Scene.sources ⟨w, o, m⟩ (modelPaths ⟨w, o, m⟩) session =
      Scene.sources ⟨w', o, m⟩ (modelPaths ⟨w', o, m⟩) session := by
  have hdirs : modelDirectories ⊆ modelDirectories ++ routeDirectories :=
    List.subset_append_left _ _
  have hpaths : modelPaths ⟨w', o, m⟩ = modelPaths ⟨w, o, m⟩ := by
    unfold modelPaths
    rw [flatMap_filesBelow_eq h hdirs]
  rw [hpaths]
  refine sources_eq h (fun path hpath => isKeptFile_of_mem_asked (o := o) h.proper ?_) session
  exact List.mem_append_right _ hpath

/-- The surveys of the architecture are the same. -/
theorem architecture_eq (session : Session) :
    architecture ⟨w, o, m⟩ session = architecture ⟨w', o, m⟩ session := by
  unfold architecture Scene.walk
  rw [codeSources_eq h, h.walk_eq]

/-- The surveys of the workflows are the same. -/
theorem workflow_eq (session : Session) :
    workflow ⟨w, o, m⟩ session = workflow ⟨w', o, m⟩ session := by
  unfold workflow
  simp only [routeSources_eq h, codeSources_eq h]

end Agree

/-! ## Workspaces that differ in what is ignored -/

/-- Further entries do not make a difference if each of them is left out or ignored. -/
theorem alikeBut_append {off : Path → Entry → Prop} {kept extra : List (Path × Entry)}
    (hproper : (Workspace.ofEntries (kept ++ extra)).Proper ["ws"])
    (hproper' : (Workspace.ofEntries kept).Proper ["ws"])
    (hignore : (Workspace.ofEntries (kept ++ extra)).bytes? [ignoreFileName] =
      (Workspace.ofEntries kept).bytes? [ignoreFileName])
    (hextra : ∀ y ∈ extra, off y.1 y.2 ∨ m.ignoresParts y.1 y.2.isDir) :
    AlikeBut off (.ofEntries (kept ++ extra)) ["ws"] (.ofEntries kept) ["ws"] m where
  proper := hproper
  proper' := hproper'
  name := rfl
  ignoreFile := hignore
  keeps := by
    intro p x hoff
    constructor
    · intro hx
      -- An entry that is kept is none of the further ones: they are left out or ignored.
      rcases List.mem_append.1 (Workspace.mem_of_entry_eq hx.below hx.entry) with hmem | hmem
      · exact ⟨hx.below, Workspace.entry?_of_mem hproper'.once hmem, hx.kept⟩
      · rcases hextra _ hmem with hin | hignored
        · exact absurd hin hoff
        · exact absurd (hx.kept.symm.trans hignored) Bool.false_ne_true
    · intro hx
      have hmem := Workspace.mem_of_entry_eq hx.below hx.entry
      exact ⟨hx.below, Workspace.entry?_of_mem hproper.once (List.mem_append_left _ hmem), hx.kept⟩
  unreadable := fun _ _ _ _ => rfl

/-- A source file. -/
def sourceEntry : Path × Entry := (["a.ts"], .file .empty)

/-- A control directory with a file in it. -/
def controlEntries : List (Path × Entry) :=
  [([controlDirName], .dir), ([controlDirName, "x.json"], .file .empty)]

/-- A package that was installed, and a control directory. -/
def ignoredEntries : List (Path × Entry) :=
  (["node_modules"], .dir) :: (["node_modules", "b.ts"], .file .empty) :: controlEntries

/-- The matcher of a workspace without ignore file. -/
def defaultMatcher : Ignore.Matcher := ⟨[], Ignore.defaultDenied controlDirName⟩

/-- Whether these are there is not told from what is kept. -/
theorem alikeBut_ignoredEntries (off : Path → Entry → Prop) :
    AlikeBut off (.ofEntries ([sourceEntry] ++ ignoredEntries)) ["ws"] (.ofEntries [sourceEntry])
      ["ws"] defaultMatcher := by
  have hproper : (Workspace.ofEntries ([sourceEntry] ++ ignoredEntries)).Proper ["ws"] :=
    Workspace.proper_ofEntries (by decide +kernel) (by decide +kernel) (by decide +kernel)
      (by simp [sourceEntry, ignoredEntries, controlEntries])
  have hproper' : (Workspace.ofEntries [sourceEntry]).Proper ["ws"] :=
    Workspace.proper_ofEntries (by decide +kernel) (by decide +kernel) (by decide +kernel)
      (by simp [sourceEntry])
  have hignored : ∀ y ∈ ignoredEntries, defaultMatcher.ignoresParts y.1 y.2.isDir := by
    decide +kernel
  exact alikeBut_append hproper hproper' (by rfl) fun y hy => .inr (hignored y hy)

/-! ## What is ignored is not surveyed -/

/-- In workspaces that keep the same, whatever lies in a control directory that is ignored, the
surveys of the directories, of the architecture and of the workflows find the same. This holds for
whatever a session has read before, and it has read the same afterwards. -/
theorem ignored_files_are_not_surveyed (halike : AlikeBut (InIgnoredControlDir m) w top w' top' m)
    (hmatcher : matcherOf w o = .ok m) :
    matcherOf w' o = .ok m ∧ ∀ kind ∈ [CoreKind.directory, .architecture, .workflow], ∀ session,
      run kind ⟨w, o, m⟩ session = run kind ⟨w', o, m⟩ session := by
  have hagree := halike.agree_of_control
  constructor
  · rw [← halike.matcherOf_eq, hmatcher]
  · intro kind hkind session
    rcases List.mem_cons.1 hkind with rfl | hkind
    · exact Prod.ext (directory_eq hagree halike.name) rfl
    rcases List.mem_cons.1 hkind with rfl | hkind
    · exact architecture_eq hagree session
    · obtain rfl := List.mem_singleton.1 hkind
      exact workflow_eq hagree session

/-- Neither an installed package nor a control directory is surveyed by default. -/
theorem package_and_control_directory_are_not_surveyed :
    matcherOf (.ofEntries [sourceEntry]) {} = .ok defaultMatcher ∧
      run .workflow ⟨.ofEntries ([sourceEntry] ++ ignoredEntries), {}, defaultMatcher⟩ .empty =
        run .workflow ⟨.ofEntries [sourceEntry], {}, defaultMatcher⟩ .empty := by
  have halike := alikeBut_ignoredEntries (InIgnoredControlDir defaultMatcher)
  obtain ⟨hmatcher, hrun⟩ := ignored_files_are_not_surveyed (o := {}) halike (by rfl)
  exact ⟨hmatcher, hrun .workflow (by decide) .empty⟩

/-- Where no name is denied what lies in the control directory is surveyed. -/
theorem kept_control_directory_is_surveyed :
    AlikeBut InControlDir (.ofEntries controlEntries) ["ws"] (.ofEntries []) ["ws"] ⟨[], []⟩ ∧
      matcherOf (.ofEntries controlEntries) { denied := [] } = .ok ⟨[], []⟩ ∧
      (directory ⟨.ofEntries controlEntries, { denied := [] }, ⟨[], []⟩⟩).fileCount ≠
        (directory ⟨.ofEntries [], { denied := [] }, ⟨[], []⟩⟩).fileCount := by
  have hproper : (Workspace.ofEntries ([] ++ controlEntries)).Proper ["ws"] :=
    Workspace.proper_ofEntries (by decide +kernel) (by decide +kernel) (by decide +kernel)
      (by simp [controlEntries])
  have hproper' : (Workspace.ofEntries []).Proper ["ws"] :=
    Workspace.proper_ofEntries (by decide +kernel) (by decide +kernel) (by simp) (by simp)
  have hoff : ∀ y ∈ controlEntries, InControlDir y.1 y.2 := by
    unfold controlEntries
    simp only [List.forall_mem_cons]
    refine ⟨⟨List.prefix_refl _, fun _ => rfl⟩, ⟨⟨["x.json"], rfl⟩, fun h => ?_⟩, by simp⟩
    cases h
  refine ⟨?_, by rfl, by decide +kernel⟩
  exact alikeBut_append hproper hproper' (by rfl) fun y hy => .inl (hoff y hy)

/-! ## Files that are asked for by name -/

/-- The names of the manifests. -/
def manifestNames : List String :=
  ["package.json", "pyproject.toml", "requirements.txt", "requirements-dev.txt", "go.mod",
   "Cargo.toml"]

/-- The paths of the files that the survey of the overview reads, whether they are ignored or
not. -/
def readPaths : List Path := (manifestNames ++ Summary.Readme.names).map fun name => [name]

/-- The paths of the files that tell it of a build tool if they are there. -/
def toolPaths : List Path := Summary.buildToolFiles.map fun f => [f.1]

/-- An ignored path is that of a file in both workspaces, or in neither. -/
def SeenAlike (m : Ignore.Matcher) (w w' : Workspace) (p : Path) : Prop :=
  m.ignoresParts p false → w.isFile p = w'.isFile p

/-- The file at an ignored path, if there is one, has the same text in both workspaces. -/
def ReadAlike (m : Ignore.Matcher) (w w' : Workspace) (p : Path) : Prop :=
  m.ignoresParts p false →
    w.isFile p = w'.isFile p ∧ ∀ maxBytes, w.text? p maxBytes = w'.text? p maxBytes

/-- No path that is asked for is the root or leads out of it. -/
theorem asked_of_mem {p : Path} (hp : p ∈ readPaths ++ toolPaths ++ DataModel.Schema.places) :
    p ≠ [] ∧ ".." ∉ p := by
  revert p
  decide +kernel

section Agree

variable (h : w.Agree top w' top' m) {p : Path}
include h

/-- There is a file in both, or in neither. -/
theorem isFile_eq (hp : p ∈ readPaths ++ toolPaths ++ DataModel.Schema.places)
    (hseen : SeenAlike m w w' p) : w.isFile p = w'.isFile p := by
  obtain ⟨hne, hup⟩ := asked_of_mem hp
  cases hkept : m.ignoresParts p false with
  | true => exact hseen hkept
  | false => exact h.isFile_eq hup hne hkept

/-- What is made of the text of a file is the same in both. -/
theorem ifFile_eq {α : Type} (hp : p ∈ readPaths) (hread : ReadAlike m w w' p) (maxBytes : Int)
    (f : Option String → Option α) :
    (if w.isFile p then f (w.text? p maxBytes) else none) =
      if w'.isFile p then f (w'.text? p maxBytes) else none := by
  have hasked : p ∈ readPaths ++ toolPaths ++ DataModel.Schema.places :=
    List.mem_append_left _ (List.mem_append_left _ hp)
  rw [isFile_eq h hasked fun hignored => (hread hignored).1]
  split_ifs with hfile
  · have htext : w.text? p maxBytes = w'.text? p maxBytes := by
      cases hkept : m.ignoresParts p false with
      | true => exact (hread hkept).2 maxBytes
      | false =>
        obtain ⟨hne, hup⟩ := asked_of_mem hasked
        obtain ⟨content, hentry⟩ := (h.proper'.isFile_iff hup hne).1 hfile
        exact h.text?_eq ((h.keeps p (.file content)).2 ⟨hne, hentry, hkept⟩) maxBytes
    rw [htext]
  · rfl

/-- The manifests tell the same. -/
theorem ofWorkspace_eq (hread : ∀ p ∈ readPaths, ReadAlike m w w' p) :
    Manifest.ofWorkspace w = Manifest.ofWorkspace w' := by
  have htext : ∀ name ∈ manifestNames,
      Manifest.manifestText? w name = Manifest.manifestText? w' name := by
    intro name hname
    have hp : [name] ∈ readPaths := List.mem_map_of_mem (List.mem_append_left _ hname)
    unfold Manifest.manifestText?
    exact ifFile_eq h hp (hread _ hp) maxManifestBytes fun text => text
  unfold manifestNames at htext
  simp only [List.forall_mem_cons] at htext
  obtain ⟨hpackage, hproject, hrequired, hdev, hmodule, hcrate, -⟩ := htext
  unfold Manifest.ofWorkspace Manifest.all Manifest.packageJson Manifest.pyprojectToml
    Manifest.requirementsTxt Manifest.goMod Manifest.cargoToml Manifest.settingsManifest
  rw [hpackage, hproject, hrequired, hdev, hmodule, hcrate]

/-- The description files tell the same purpose. -/
theorem purpose_eq (hread : ∀ p ∈ readPaths, ReadAlike m w w' p) : purpose w = purpose w' := by
  unfold purpose
  have htexts : ∀ name ∈ Summary.Readme.names,
      (if w.isFile [name] then (w.text? [name] maxReadmeBytes).filter (!·.isEmpty) else none) =
        if w'.isFile [name] then (w'.text? [name] maxReadmeBytes).filter (!·.isEmpty)
        else none := by
    intro name hname
    have hp : [name] ∈ readPaths := List.mem_map_of_mem (List.mem_append_right _ hname)
    exact ifFile_eq h hp (hread _ hp) maxReadmeBytes (Option.filter (!String.isEmpty ·))
  rw [List.filterMap_congr htexts]

/-- The same build tools are found. -/
theorem buildTools_eq (hseen : ∀ p ∈ toolPaths, SeenAlike m w w' p) :
    (Summary.buildTools fun name => w.isFile [name]) =
      Summary.buildTools fun name => w'.isFile [name] := by
  unfold Summary.buildTools
  congr 2
  refine List.filter_congr fun f hf => ?_
  have hp : [f.1] ∈ toolPaths := List.mem_map_of_mem hf
  exact isFile_eq h (List.mem_append_left _ (List.mem_append_right _ hp)) (hseen _ hp)

/-- The surveys of the overview are the same. -/
theorem summary_eq (hname : w.name = w'.name) (hread : ∀ p ∈ readPaths, ReadAlike m w w' p)
    (hseen : ∀ p ∈ toolPaths, SeenAlike m w w' p) :
    summary ⟨w, o, m⟩ = summary ⟨w', o, m⟩ := by
  unfold summary overview
  rw [files_eq h, ← hname, ofWorkspace_eq h hread, purpose_eq h hread, buildTools_eq h hseen]

/-- The same schema file is found. -/
theorem schemaFile?_eq (hseen : ∀ p ∈ DataModel.Schema.places, SeenAlike m w w' p) :
    schemaFile? ⟨w, o, m⟩ = schemaFile? ⟨w', o, m⟩ := by
  have hfound : DataModel.Schema.places.find? w.isFile =
      DataModel.Schema.places.find? w'.isFile :=
    List.find?_congr fun p hp => isFile_eq h (List.mem_append_right _ hp) (hseen p hp)
  unfold schemaFile?
  simp only [hfound]
  cases hplace : DataModel.Schema.places.find? w'.isFile with
  | none => simp only [Option.bind_eq_bind, Option.bind_none]
  | some p =>
    simp only [Option.bind_eq_bind, Option.bind_some]
    -- A schema file that is ignored is not read, but no other place is looked at either.
    cases hkept : m.ignoresParts p false with
    | true =>
      simp only [Bool.not_true, Bool.false_eq_true, guard_false, Option.failure_eq_none,
        Option.bind_none]
    | false =>
      obtain ⟨hne, hup⟩ := asked_of_mem (List.mem_append_right _ (List.mem_of_find?_eq_some hplace))
      obtain ⟨content, hentry⟩ := (h.proper'.isFile_iff hup hne).1 (List.find?_some hplace)
      have hkeeps := (h.keeps p (.file content)).2 ⟨hne, hentry, hkept⟩
      rw [h.text?_eq hkeeps]

/-- The surveys of the data model are the same. -/
theorem dataModel_eq (hseen : ∀ p ∈ DataModel.Schema.places, SeenAlike m w w' p)
    (session : Session) : dataModel ⟨w, o, m⟩ session = dataModel ⟨w', o, m⟩ session := by
  unfold dataModel
  rw [modelSources_eq h, schemaFile?_eq h hseen]

end Agree

/-- The surveys of the overview and of the data model find the same in workspaces that are alike if
this also holds of the ignored ones among the files that they ask for by name: the manifests and
description files, the files of build tools, and the schema files. Nothing else that is ignored
matters. -/
theorem ignored_files_count_by_name_only
    (halike : AlikeBut (fun _ _ => False) w top w' top' m) (hmatcher : matcherOf w o = .ok m) :
    matcherOf w' o = .ok m ∧
      ((∀ p ∈ readPaths, ReadAlike m w w' p) → (∀ p ∈ toolPaths, SeenAlike m w w' p) →
        ∀ session, run .summary ⟨w, o, m⟩ session = run .summary ⟨w', o, m⟩ session) ∧
      ((∀ p ∈ DataModel.Schema.places, SeenAlike m w w' p) →
        ∀ session, run .dataModel ⟨w, o, m⟩ session = run .dataModel ⟨w', o, m⟩ session) := by
  have hagree := halike.agree fun p x hoff => hoff.elim
  refine ⟨?_, ?_, ?_⟩
  · rw [← halike.matcherOf_eq, hmatcher]
  · intro hread hseen session
    exact Prod.ext (summary_eq hagree halike.name hread hseen) rfl
  · intro hseen session
    exact dataModel_eq hagree hseen session

/-- An installed package and a control directory are not asked for by name. -/
theorem package_and_control_directory_do_not_count :
    run .summary ⟨.ofEntries ([sourceEntry] ++ ignoredEntries), {}, defaultMatcher⟩ .empty =
        run .summary ⟨.ofEntries [sourceEntry], {}, defaultMatcher⟩ .empty ∧
      run .dataModel ⟨.ofEntries ([sourceEntry] ++ ignoredEntries), {}, defaultMatcher⟩ .empty =
        run .dataModel ⟨.ofEntries [sourceEntry], {}, defaultMatcher⟩ .empty := by
  have hkept : ∀ p ∈ readPaths ++ toolPaths ++ DataModel.Schema.places,
      defaultMatcher.ignoresParts p false = false := by decide +kernel
  obtain ⟨-, hsummary, hdataModel⟩ := ignored_files_count_by_name_only (o := {})
    (alikeBut_ignoredEntries fun _ _ => False) (by rfl)
  constructor
  · refine hsummary (fun p hp hignored => ?_) (fun p hp hignored => ?_) .empty
    · rw [hkept p (List.mem_append_left _ (List.mem_append_left _ hp))] at hignored
      cases hignored
    · rw [hkept p (List.mem_append_left _ (List.mem_append_right _ hp))] at hignored
      cases hignored
  · refine hdataModel (fun p hp hignored => ?_) .empty
    rw [hkept p (List.mem_append_right _ hp)] at hignored
    cases hignored

/-- The file of a build tool. -/
def toolEntry : Path × Entry := (["Makefile"], .file .empty)

/-- A schema file. -/
def schemaEntry : Path × Entry := (["schema.prisma"], .file "enum E \x7b\n  A\n\x7d\n".toUTF8)

/-- A schema file in the directory that is looked into first. -/
def hiddenEntries : List (Path × Entry) :=
  [(["prisma"], .dir), (["prisma", "schema.prisma"], .file .empty)]

/-- The file of a build tool counts though it is ignored, and an ignored schema file hides one that
is not. -/
theorem ignored_files_count_by_name :
    (AlikeBut (fun _ _ => False) (.ofEntries [toolEntry]) ["ws"] (.ofEntries []) ["ws"]
        ⟨[], ["Makefile"]⟩ ∧
      (summary ⟨.ofEntries [toolEntry], { denied := ["Makefile"] }, ⟨[], ["Makefile"]⟩⟩).content ≠
        (summary ⟨.ofEntries [], { denied := ["Makefile"] }, ⟨[], ["Makefile"]⟩⟩).content) ∧
    AlikeBut (fun _ _ => False) (.ofEntries ([schemaEntry] ++ hiddenEntries)) ["ws"]
        (.ofEntries [schemaEntry]) ["ws"] ⟨[], ["prisma"]⟩ ∧
      (dataModel ⟨.ofEntries ([schemaEntry] ++ hiddenEntries), { denied := ["prisma"] },
          ⟨[], ["prisma"]⟩⟩ .empty).1.content ≠
        (dataModel ⟨.ofEntries [schemaEntry], { denied := ["prisma"] }, ⟨[], ["prisma"]⟩⟩
          .empty).1.content := by
  -- That the reports differ is evaluated; that the workspaces are alike is shown.
  refine ⟨⟨?_, by decide +kernel⟩, ?_, by decide +kernel⟩
  · have hproper : (Workspace.ofEntries ([] ++ [toolEntry])).Proper ["ws"] :=
      Workspace.proper_ofEntries (by decide +kernel) (by decide +kernel) (by decide +kernel)
        (by simp [toolEntry])
    have hproper' : (Workspace.ofEntries []).Proper ["ws"] :=
      Workspace.proper_ofEntries (by decide +kernel) (by decide +kernel) (by simp) (by simp)
    have hignored : ∀ y ∈ [toolEntry],
        Ignore.Matcher.ignoresParts ⟨[], ["Makefile"]⟩ y.1 y.2.isDir := by decide +kernel
    exact alikeBut_append hproper hproper' (by rfl) fun y hy => .inr (hignored y hy)
  · have hproper : (Workspace.ofEntries ([schemaEntry] ++ hiddenEntries)).Proper ["ws"] :=
      Workspace.proper_ofEntries (by decide +kernel) (by decide +kernel) (by decide +kernel)
        (by simp [schemaEntry, hiddenEntries])
    have hproper' : (Workspace.ofEntries [schemaEntry]).Proper ["ws"] :=
      Workspace.proper_ofEntries (by decide +kernel) (by decide +kernel) (by decide +kernel)
        (by simp [schemaEntry])
    have hignored : ∀ y ∈ hiddenEntries,
        Ignore.Matcher.ignoresParts ⟨[], ["prisma"]⟩ y.1 y.2.isDir := by decide +kernel
    exact alikeBut_append hproper hproper' (by rfl) fun y hy => .inr (hignored y hy)

end CodeSurvey.Survey
