import CodeSurvey.Proofs.Files.Walk
import Mathlib.Data.List.Sort

/-!
# Workspaces that agree on what is not ignored

Two workspaces without links agree when they keep the same: at each path below their roots that is
not ignored, either both have the same directory or file, or neither has anything (`Agree`). What is
ignored may be there in one of them only, and may differ.

Their walks are the same then (`Agree.walk_eq`, `Agree.walkBelow_eq`), and so is what a file on such
a walk holds (`Agree.size?_eq`, `Agree.text?_eq`). A walk is told by the entries that it lists, in
increasing order of their paths, so nothing has to be said about how it came to them.
-/

namespace CodeSurvey.Files

/-! ## Paths of names -/

/-- A path of names that are neither empty nor single points: none of its parts is lost when it is
written as a text. -/
def IsWritten (parts : Path) : Prop :=
  ∀ name ∈ parts, name ≠ "" ∧ '/' ∉ name.toList ∧ name ≠ "." ∧ name ≠ ".."

/-- The parts of a path are those that it is written with, parent references among them. -/
theorem pathParts_pathText_of_cut {parts : Path} (hne : parts ≠ [])
    (h : ∀ name ∈ parts, name ≠ "" ∧ '/' ∉ name.toList ∧ name ≠ ".") :
    pathParts (pathText parts) = parts := by
  have hsplit : Text.split (pathText parts) '/' = parts :=
    Text.split_join (by decide) hne fun name hname => (h name hname).2.1
  unfold pathParts
  rw [hsplit, List.filter_eq_self]
  intro name hname
  obtain ⟨hempty, -, hpoint⟩ := h name hname
  simp [hempty, hpoint]

/-- The same of a path of names. -/
theorem pathParts_pathText {parts : Path} (hne : parts ≠ []) (h : IsWritten parts) :
    pathParts (pathText parts) = parts := by
  refine pathParts_pathText_of_cut hne fun name hname => ?_
  obtain ⟨hempty, hslash, hpoint, -⟩ := h name hname
  exact ⟨hempty, hslash, hpoint⟩

/-- Between the names of a path stands one slash each. -/
theorem count_pathText {parts : Path} (hne : parts ≠ []) (h : IsWritten parts) :
    (pathText parts).toList.count '/' + 1 = parts.length := by
  unfold pathText
  induction parts with
  | nil => exact absurd rfl hne
  | cons name rest ih =>
    obtain ⟨hname, hrest⟩ := List.forall_mem_cons.1 h
    have hzero : name.toList.count '/' = 0 := List.count_eq_zero.2 hname.2.1
    cases rest with
    | nil =>
      rw [Text.join, List.foldl_nil, hzero]
      rfl
    | cons name' rest =>
      have hslash : "/".toList.count '/' = 1 := by decide
      have hlength := ih (List.cons_ne_nil _ _) hrest
      rw [Text.join_cons_cons, String.toList_append, String.toList_append, List.count_append,
        List.count_append, hzero, hslash, List.length_cons, ← hlength]
      omega

/-- A path of names is not trimmed. -/
theorem trimChar_pathText {parts : Path} (hne : parts ≠ []) (h : IsWritten parts) :
    Text.trimChar '/' (pathText parts) = pathText parts :=
  Text.trimChar_join "/" hne fun name hname => ⟨(h name hname).1, (h name hname).2.1⟩

namespace Workspace

variable {w w' : Workspace} {top top' : Path} {limits : WalkLimits} {m : Ignore.Matcher}

/-! ## What stands at a path -/

/-- A workspace without links in which no name is a single point. -/
structure Proper (w : Workspace) (top : Path) : Prop extends w.Plain top where
  noPoint : ∀ ps, (w.tree.entry? (top ++ ps)).isSome → "." ∉ ps

/-- The names on the path of what stands in such a workspace are written. -/
theorem Proper.isWritten (hw : w.Proper top) {ps : Path} {x : Entry}
    (hx : w.tree.entry? (top ++ ps) = some x) : IsWritten ps := by
  have hthere : (w.tree.entry? (top ++ ps)).isSome := by rw [hx]; rfl
  intro name hname
  have hisName := hw.names ps hthere name hname
  refine ⟨hisName.ne_empty, hisName.noSlash, ?_, hisName.ne_parent⟩
  rintro rfl
  exact hw.noPoint ps hthere hname

namespace Plain

/-- A path that leads to something leads to what stands at it. -/
theorem entry?_of_at? (hw : w.Plain top) {ps q : Path} {x : Entry} (hup : ".." ∉ ps)
    (hne : ps ≠ []) (h : w.tree.at? (w.locate ps) = .ok (q, x)) :
    w.tree.entry? (top ++ ps) = some x := by
  have hroute : w.tree.Route w.root top ps :=
    ⟨hw.sound, hw.leads, hup, fun qs target _ => hw.noLink qs target⟩
  cases hx : w.tree.entry? (top ++ ps) with
  | none =>
    obtain ⟨e, he, -⟩ := hroute.at?_of_none hne hx
    cases he.symm.trans h
  | some x' =>
    have hok := hroute.at?_of_entry hne hx
    obtain ⟨-, rfl⟩ := Prod.mk.inj (Except.ok.inj (hok.symm.trans h))
    rfl

/-- A path leads to a directory if one stands there. -/
theorem isDir_iff (hw : w.Plain top) {ps : Path} (hup : ".." ∉ ps) (hne : ps ≠ []) :
    w.isDir ps = true ↔ w.tree.entry? (top ++ ps) = some .dir := by
  constructor
  · intro h
    unfold isDir Tree.isDir at h
    split at h
    · rename_i hat
      exact hw.entry?_of_at? hup hne hat
    · cases h
  · intro h
    rw [hw.isDir_eq h]
    rfl

/-- A path leads to a file if one stands there. -/
theorem isFile_iff (hw : w.Plain top) {ps : Path} (hup : ".." ∉ ps) (hne : ps ≠ []) :
    w.isFile ps = true ↔ ∃ content, w.tree.entry? (top ++ ps) = some (.file content) := by
  constructor
  · intro h
    unfold isFile Tree.isFile at h
    split at h
    · rename_i q content hat
      exact ⟨content, hw.entry?_of_at? hup hne hat⟩
    · cases h
  · rintro ⟨content, h⟩
    rw [isFile, Tree.isFile, hw.at?_locate h]

/-- The real directory of a path is the one that stands there. -/
theorem real_eq (hw : w.Plain top) {ps : Path} (h : w.tree.entry? (top ++ ps) = some .dir) :
    w.real ps = top ++ ps := by
  have hresolve : w.tree.resolve (w.locate ps) = .ok (top ++ ps) :=
    (Tree.at?_eq_dir.1 (hw.at?_locate h)).1.resolveOver
  rw [real, hresolve]

/-- The root stands at the top. -/
theorem root_isDir (hw : w.Plain top) : w.tree.entry? (top ++ []) = some .dir := by
  rw [List.append_nil]
  exact (Tree.at?_eq_dir.1 hw.leads).2

/-- The bytes of a file are its content. -/
theorem bytes_eq (hw : w.Plain top) {ps : Path} {content : ByteArray}
    (h : w.tree.entry? (top ++ ps) = some (.file content)) :
    w.tree.bytes (w.locate ps) = .ok content := by
  rw [Tree.bytes, hw.at?_locate h]

end Plain

/-! ## Walks of any depth -/

/-- The same limits for a walk that lists at least what lies at a depth. A walk lists what lies in
the directory that it starts in even where its limit is below that. -/
def reaching (limits : WalkLimits) (depth : Nat) : WalkLimits :=
  { limits with maxDepth := max limits.maxDepth depth }

/-- Where no directory is entered the limit does not matter. -/
theorem walkNames_of_deep {limits limits' : WalkLimits} {depth : Nat}
    (hlinks : limits'.followLinks = limits.followLinks) (hdeep : ¬ (depth : Int) < limits.maxDepth)
    (hdeep' : ¬ (depth : Int) < limits'.maxDepth) (dir : Path)
    (enter enter' : Path → List Path → List WalkEntry × List Path) (names : List String)
    (seen : List Path) :
    w.walkNames limits' m depth dir enter' names seen =
      w.walkNames limits m depth dir enter names seen := by
  induction names generalizing seen with
  | nil => rfl
  | cons name names ih =>
    unfold walkNames
    simp only [hlinks, if_neg hdeep, if_neg hdeep', ih]

/-- A walk does not change when its limit is raised to the depth at which it starts. -/
theorem walkFrom_reaching (fuel depth : Nat) (dir : Path) (seen : List Path) :
    w.walkFrom (reaching limits depth) m fuel depth dir seen =
      w.walkFrom limits m fuel depth dir seen := by
  by_cases hdeep : (depth : Int) < limits.maxDepth
  · have hsame : reaching limits depth = limits := by
      rw [reaching, max_eq_left (by omega)]
    rw [hsame]
  · have hdeep' : ¬ (depth : Int) < (reaching limits depth).maxDepth := by
      rw [reaching, max_eq_right (by omega)]
      exact lt_irrefl _
    have hlinks : (reaching limits depth).followLinks = limits.followLinks := rfl
    cases fuel with
    | zero => rfl
    | succ fuel =>
      rw [walkFrom, walkFrom]
      exact walkNames_of_deep hlinks hdeep hdeep' dir _ _ _ seen

variable (limits m) in
/-- What the walk gives for a directory, however deep it lies. -/
theorem walkFrom_reaching_spec (hw : w.Plain top) {ps : Path} {seen : List Path}
    (hdir : w.tree.entry? (top ++ ps) = some .dir)
    (hfresh : ∀ q, ps <+: q → q ≠ ps → top ++ q ∉ seen) :
    w.Walks top (reaching limits (ps.length + 1)) m (fun p => ps <+: p ∧ p ≠ ps) seen
      (w.walkFrom limits m (w.tree.dirCount + 1) (ps.length + 1) ps seen) := by
  rw [← walkFrom_reaching]
  refine walkFrom_spec hw _ ps seen hdir (by omega) ?_ hfresh
  rw [reaching]
  exact le_max_right _ _

/-! ## What is kept -/

/-- What a workspace keeps: something that stands at a path below the root and is not ignored. -/
structure Keeps (w : Workspace) (top : Path) (m : Ignore.Matcher) (p : Path) (x : Entry) :
    Prop where
  below : p ≠ []
  entry : w.tree.entry? (top ++ p) = some x
  kept : m.ignoresParts p x.isDir = false

/-- What is kept does not lie in a directory that is ignored, and is no such directory itself. -/
theorem Keeps.not_ignored_above {p dir : Path} {x : Entry} (h : w.Keeps top m p x)
    (hne : dir ≠ []) (hstart : dir <+: p) (hself : p = dir → x = .dir) :
    m.ignoresParts dir true = false := by
  by_cases heq : p = dir
  · have hkept := h.kept
    rwa [hself heq, heq] at hkept
  · rw [Bool.eq_false_iff]
    intro hignored
    have hbelow := m.ignoresParts_of_prefix hne hstart (Ne.symm heq) hignored x.isDir
    exact Bool.false_ne_true (h.kept.symm.trans hbelow)

/-- What is to be listed as a file is a file that is kept. -/
theorem Lists.keeps_file (hw : w.Plain top) {e : WalkEntry} (he : w.Lists top limits m e)
    (hfile : e.isDir = false) : ∃ content, w.Keeps top m e.parts (.file content) := by
  obtain ⟨x, hx, hdir⟩ := he.entry
  cases x with
  | link target => exact absurd hx (hw.noLink _ target)
  | dir => cases hdir.symm.trans hfile
  | file content => exact ⟨content, he.below, hx, hdir ▸ he.kept⟩

namespace Proper

/-- The path of what is kept is written with the names on it. -/
theorem pathParts_path (hw : w.Proper top) {e : WalkEntry} {x : Entry}
    (hx : w.Keeps top m e.parts x) : pathParts e.path = e.parts :=
  pathParts_pathText hx.below (hw.isWritten hx.entry)

/-- The walk of the workspace starts at its root. -/
theorem walk_eq (hw : w.Proper top) :
    w.walk limits m = (w.walkFrom limits m (w.tree.dirCount + 1) 1 [] [top ++ []]).1 := by
  rw [walk, hw.real_eq hw.root_isDir]

/-- The walk below a directory that is kept starts there. -/
theorem walkBelow_of_keeps (hw : w.Proper top) {ps : Path} (hdir : w.Keeps top m ps .dir) :
    w.walkBelow limits m (pathText ps) =
      (w.walkFrom limits m (w.tree.dirCount + 1) (ps.length + 1) ps
        [top ++ ps, top ++ []]).1 := by
  have hps : IsWritten ps := hw.isWritten hdir.entry
  have hkept : m.ignores (pathText ps) true = false := by
    rw [m.ignores_pathText hdir.below fun name hname => ⟨(hps name hname).1, (hps name hname).2.1⟩]
    exact hdir.kept
  have hcount : (pathText ps).toList.count '/' + 2 = ps.length + 1 :=
    congrArg Nat.succ (count_pathText hdir.below hps)
  have hisDir : w.isDir ps = true := hw.isDir_eq hdir.entry
  have hnotRoot : (top ++ ps == top ++ []) = false :=
    beq_eq_false_iff_ne.2 fun heq => hdir.below (List.append_cancel_left heq)
  unfold walkBelow
  simp only [trimChar_pathText hdir.below hps, pathParts_pathText hdir.below hps, hkept, hcount,
    hisDir, hw.real_eq hdir.entry, hw.real_eq hw.root_isDir, hnotRoot, Bool.false_eq_true, if_false,
    Bool.not_true, Bool.or_self]

/-- Below a path at which no directory is kept nothing is walked. -/
theorem walkBelow_of_not_keeps (hw : w.Proper top) {ps : Path} (hne : ps ≠ []) (hps : IsWritten ps)
    (hdir : ¬ w.Keeps top m ps .dir) : w.walkBelow limits m (pathText ps) = [] := by
  unfold walkBelow
  simp only [trimChar_pathText hne hps, pathParts_pathText hne hps]
  rw [m.ignores_pathText hne fun name hname => ⟨(hps name hname).1, (hps name hname).2.1⟩]
  cases hkept : m.ignoresParts ps true with
  | true => rfl
  | false =>
    have hisDir : w.isDir ps = false := by
      rw [Bool.eq_false_iff, ne_eq, hw.isDir_iff (fun hup => (hps _ hup).2.2.2 rfl) hne]
      exact fun hentry => hdir ⟨hne, hentry, hkept⟩
    rw [hisDir]
    rfl

/-- A walk that starts at the root has seen nothing else before. -/
theorem fresh_root (q : Path) (_ : [] <+: q) (hne : q ≠ []) : top ++ q ∉ [top ++ []] := by
  intro hin
  exact hne (List.append_cancel_left (List.mem_singleton.1 hin))

/-- A walk that starts at a directory below the root has seen nothing below that before. -/
theorem fresh_below {ps : Path} (hbelow : ps ≠ []) (q : Path) (hq : ps <+: q) (hne : q ≠ ps) :
    top ++ q ∉ [top ++ ps, top ++ []] := by
  intro hin
  rcases List.mem_pair.1 hin with heq | heq
  · exact hne (List.append_cancel_left heq)
  · obtain rfl := List.append_cancel_left heq
    exact hbelow (List.prefix_nil.1 hq)

/-- A file on the walk is kept. -/
theorem keeps_of_mem_walk (hw : w.Proper top) {e : WalkEntry} (he : e ∈ w.walk limits m)
    (hfile : e.isDir = false) : ∃ content, w.Keeps top m e.parts (.file content) := by
  rw [hw.walk_eq] at he
  have hwalks := walkFrom_reaching_spec limits m hw.toPlain hw.root_isDir
    fresh_root
  exact ((hwalks.mem e).1 he).1.keeps_file hw.toPlain hfile

/-- A file on the walk below a directory is kept. -/
theorem keeps_of_mem_walkBelow (hw : w.Proper top) {ps : Path} (hne : ps ≠ []) (hps : IsWritten ps)
    {e : WalkEntry} (he : e ∈ w.walkBelow limits m (pathText ps)) (hfile : e.isDir = false) :
    ∃ content, w.Keeps top m e.parts (.file content) := by
  by_cases hdir : w.Keeps top m ps .dir
  · rw [hw.walkBelow_of_keeps hdir] at he
    have hwalks := walkFrom_reaching_spec limits m hw.toPlain hdir.entry
      (fresh_below hne)
    exact ((hwalks.mem e).1 he).1.keeps_file hw.toPlain hfile
  · rw [hw.walkBelow_of_not_keeps hne hps hdir] at he
    cases he

end Proper

/-! ## Agreement -/

/-- Two workspaces agree on what is not ignored: they keep the same directories and the same files
with the same content, and a file that is kept can be read in both or in neither. -/
structure Agree (w : Workspace) (top : Path) (w' : Workspace) (top' : Path) (m : Ignore.Matcher) :
    Prop where
  proper : w.Proper top
  proper' : w'.Proper top'
  keeps : ∀ p x, w.Keeps top m p x ↔ w'.Keeps top' m p x
  unreadable : ∀ p x, w.Keeps top m p x →
    w.unreadable (w.locate p) = w'.unreadable (w'.locate p)

/-- Entries in increasing order of their paths are told by what they are. -/
theorem eq_of_sorted {es es' : List WalkEntry} (h : es.Pairwise fun a b => a.parts < b.parts)
    (h' : es'.Pairwise fun a b => a.parts < b.parts) (hmem : ∀ e, e ∈ es ↔ e ∈ es') : es = es' := by
  have hirrefl : Std.Irrefl fun a b : WalkEntry => a.parts < b.parts := ⟨fun a => lt_irrefl _⟩
  have hantisymm : Std.Antisymm fun a b : WalkEntry => a.parts < b.parts :=
    ⟨fun a b hab hba => absurd hba (lt_asymm hab)⟩
  exact h.eq_of_mem_iff h' hmem

namespace Agree

/-- Agreement goes both ways. -/
theorem symm (h : w.Agree top w' top' m) : w'.Agree top' w top m where
  proper := h.proper'
  proper' := h.proper
  keeps := fun p x => (h.keeps p x).symm
  unreadable := fun p x hx => (h.unreadable p x ((h.keeps p x).2 hx)).symm

/-- The same entries are to be listed. -/
theorem lists_iff (h : w.Agree top w' top' m) (e : WalkEntry) :
    w.Lists top limits m e ↔ w'.Lists top' limits m e := by
  have hgo : ∀ {w w' : Workspace} {top top' : Path}, w.Agree top w' top' m →
      w.Lists top limits m e → w'.Lists top' limits m e := by
    intro w w' top top' h he
    obtain ⟨x, hx, hdir⟩ := he.entry
    have hkeeps : w.Keeps top m e.parts x := ⟨he.below, hx, hdir ▸ he.kept⟩
    have hentry := ((h.keeps e.parts x).1 hkeeps).entry
    exact ⟨he.below, he.depth, he.limit, he.kept, x, hentry, hdir⟩
  exact ⟨hgo h, hgo h.symm⟩

/-- Walks of a directory that both have list the same, as they list the same entries in the order of
their paths. -/
theorem walkFrom_eq (h : w.Agree top w' top' m) {ps : Path} {seen seen' : List Path}
    (hdir : w.tree.entry? (top ++ ps) = some .dir)
    (hdir' : w'.tree.entry? (top' ++ ps) = some .dir)
    (hfresh : ∀ q, ps <+: q → q ≠ ps → top ++ q ∉ seen)
    (hfresh' : ∀ q, ps <+: q → q ≠ ps → top' ++ q ∉ seen') :
    (w.walkFrom limits m (w.tree.dirCount + 1) (ps.length + 1) ps seen).1 =
      (w'.walkFrom limits m (w'.tree.dirCount + 1) (ps.length + 1) ps seen').1 := by
  have hwalks := walkFrom_reaching_spec limits m h.proper.toPlain hdir hfresh
  have hwalks' :=
    walkFrom_reaching_spec limits m h.proper'.toPlain hdir' hfresh'
  refine eq_of_sorted hwalks.sorted hwalks'.sorted fun e => ?_
  rw [hwalks.mem, hwalks'.mem, h.lists_iff]

/-- The walks of the workspaces are the same. -/
theorem walk_eq (h : w.Agree top w' top' m) : w.walk limits m = w'.walk limits m := by
  rw [h.proper.walk_eq, h.proper'.walk_eq]
  exact h.walkFrom_eq h.proper.root_isDir h.proper'.root_isDir Proper.fresh_root Proper.fresh_root

/-- So are the walks below a path. -/
theorem walkBelow_eq (h : w.Agree top w' top' m) {ps : Path} (hne : ps ≠ []) (hps : IsWritten ps) :
    w.walkBelow limits m (pathText ps) = w'.walkBelow limits m (pathText ps) := by
  by_cases hdir : w.Keeps top m ps .dir
  · have hdir' := (h.keeps ps .dir).1 hdir
    rw [h.proper.walkBelow_of_keeps hdir, h.proper'.walkBelow_of_keeps hdir']
    exact h.walkFrom_eq hdir.entry hdir'.entry (Proper.fresh_below hne) (Proper.fresh_below hne)
  · have hdir' : ¬ w'.Keeps top' m ps .dir := fun hdir' => hdir ((h.keeps ps .dir).2 hdir')
    rw [h.proper.walkBelow_of_not_keeps hne hps hdir,
      h.proper'.walkBelow_of_not_keeps hne hps hdir']

/-! ## Files that are kept -/

variable {p : Path} {content : ByteArray}

/-- A file that is kept has the same size in both. -/
theorem size?_eq (h : w.Agree top w' top' m) (hp : w.Keeps top m p (.file content)) :
    w.size? p = w'.size? p := by
  have hentry' := ((h.keeps _ _).1 hp).entry
  rw [size?, size?, h.proper.bytes_eq hp.entry, h.proper'.bytes_eq hentry']

/-- It has the same text. -/
theorem text?_eq (h : w.Agree top w' top' m) (hp : w.Keeps top m p (.file content))
    (maxBytes : Int) : w.text? p maxBytes = w'.text? p maxBytes := by
  have hentry' := ((h.keeps _ _).1 hp).entry
  have hbytes : w.bytes? p = w'.bytes? p := by
    rw [bytes?, bytes?, h.proper.bytes_eq hp.entry, h.proper'.bytes_eq hentry', h.unreadable _ _ hp]
  rw [text?, text?, h.size?_eq hp, hbytes]

/-- There is a file in both at a path that is not ignored, or in neither. -/
theorem isFile_eq (h : w.Agree top w' top' m) (hup : ".." ∉ p) (hne : p ≠ [])
    (hkept : m.ignoresParts p false = false) : w.isFile p = w'.isFile p := by
  rw [Bool.eq_iff_iff, h.proper.isFile_iff hup hne, h.proper'.isFile_iff hup hne]
  refine exists_congr fun content => ?_
  constructor
  · intro hentry
    exact ((h.keeps p (.file content)).1 ⟨hne, hentry, hkept⟩).entry
  · intro hentry
    exact ((h.keeps p (.file content)).2 ⟨hne, hentry, hkept⟩).entry

end Agree

/-! ## Workspaces of a few entries -/

/-- A workspace of the given entries. -/
def ofEntries (entries : List (Path × Entry)) : Workspace where
  tree := ⟨(["ws"], .dir) :: entries.map fun y => ("ws" :: y.1, y.2)⟩
  root := ["ws"]
  unreadable := fun _ => false

/-- What stands in such a workspace is among the entries. -/
theorem mem_of_entry_eq {entries : List (Path × Entry)} {p : Path} {x : Entry} (hne : p ≠ [])
    (hx : (ofEntries entries).tree.entry? (["ws"] ++ p) = some x) : (p, x) ∈ entries := by
  have hmem := Tree.mem_entries (List.cons_ne_nil _ _) hx
  rcases List.mem_cons.1 hmem with heq | hmem
  · exact absurd (List.cons.inj (Prod.mk.inj heq).1).2 hne
  · obtain ⟨⟨q, y⟩, hy, heq⟩ := List.mem_map.1 hmem
    obtain ⟨hq, rfl⟩ := Prod.mk.inj heq
    obtain rfl : q = p := (List.cons.inj hq).2
    exact hy

/-- Each entry stands at its path if there is one at a path only. -/
theorem entry?_of_mem {entries : List (Path × Entry)} {p : Path} {x : Entry}
    (honce : ((ofEntries entries).tree.entries.map (·.1)).Nodup) (hmem : (p, x) ∈ entries) :
    (ofEntries entries).tree.entry? (["ws"] ++ p) = some x :=
  Tree.entry?_of_mem honce (List.cons_ne_nil _ _)
    (List.mem_cons_of_mem _ (List.mem_map.2 ⟨(p, x), hmem, rfl⟩))

/-- Entries of which every one lies in a directory and none is a link are those of a workspace. -/
theorem proper_ofEntries {entries : List (Path × Entry)}
    (hsound : ∀ x ∈ (ofEntries entries).tree.entries,
      ((ofEntries entries).tree.entry? x.1.dropLast).any Entry.isDir)
    (honce : ((ofEntries entries).tree.entries.map (·.1)).Nodup)
    (hnames : ∀ y ∈ entries, ∀ name ∈ y.1,
      name ≠ "" ∧ '/' ∉ name.toList ∧ name ≠ "." ∧ name ≠ "..")
    (hlinks : ∀ y ∈ entries, ∀ target, y.2 ≠ .link target) : (ofEntries entries).Proper ["ws"] := by
  -- What stands below the root is one of the entries, so its path has their names.
  have hall : ∀ ps, ((ofEntries entries).tree.entry? (["ws"] ++ ps)).isSome → ∀ name ∈ ps,
      name ≠ "" ∧ '/' ∉ name.toList ∧ name ≠ "." ∧ name ≠ ".." := by
    intro ps hps name hname
    obtain ⟨x, hx⟩ := Option.isSome_iff_exists.1 hps
    exact hnames _ (mem_of_entry_eq (List.ne_nil_of_mem hname) hx) name hname
  exact {
    sound := Tree.sound_of_entries hsound
    once := honce
    leads := rfl
    names := fun ps hps name hname =>
      have hname := hall ps hps name hname
      ⟨hname.1, hname.2.1, hname.2.2.2⟩
    noLink := by
      intro ps target hlink
      rcases eq_or_ne ps [] with rfl | hne
      · cases hlink
      · exact hlinks _ (mem_of_entry_eq hne hlink) target rfl
    noPoint := fun ps hps hpoint => (hall ps hps _ hpoint).2.2.1 rfl }

end Workspace

end CodeSurvey.Files
