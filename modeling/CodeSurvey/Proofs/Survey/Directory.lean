import CodeSurvey.Proofs.Directory.Places
import CodeSurvey.Proofs.Files.Aliases
import CodeSurvey.Proofs.Survey.Counts

/-!
# The directory report shows the walk

The outline of a workspace has one node for each entry of the walk, under the node of the directory
that the entry lies in, and the report has one line for each node. So the lines of the report show
the entries of the walk one by one (`report_shows_walk`).
-/

namespace CodeSurvey.Survey

open CodeSurvey.Directory CodeSurvey.Files

/-- What is told of a directory is what lies below it: the number and the total size of the files of
the walk. What lies in it directly is in the order of siblings. -/
structure Totals (s : Scene) (dir : Path) (o : Outline) : Prop where
  isDirectory : o.isDirectory = true
  fileCount : o.fileCount = (filesBelow s.walk dir).length
  size : o.size = ((filesBelow s.walk dir).map fun f => (s.workspace.size? f.parts).getD 0).sum
  ordered : o.children.Pairwise Precedes

/-- An entry of the walk is shown at a place: the names on the way down are those of its path, and
the node is a file with its size or a directory with its totals. -/
structure ShownAt (s : Scene) (e : WalkEntry) (p : Place) : Prop where
  path : p.path = e.parts
  depth : p.depth = e.depth
  file : e.isDir = false → p.self.node = .file e.name ((s.workspace.size? e.parts).getD 0)
  directory : e.isDir = true → p.self.node.name = e.name ∧ Totals s e.parts p.self.node

variable {s : Scene}

/-- A directory has the totals of what lies below it. -/
theorem totals_directory (h : IsTree s.walk) (name : String) {dir : Path} {depth : Nat}
    (hdepth : s.walk.length ≤ dir.length + depth) :
    Totals s dir (.directory name (Outline.childrenOf s.walk
      (fun p => (s.workspace.size? p).getD 0) depth dir)) where
  isDirectory := rfl
  fileCount := fileCounts_childrenOf_eq h hdepth
  size := sizes_childrenOf h hdepth
  ordered := pairwise_childrenOf h depth dir

/-- The depth of an entry is the number of names on its path. -/
theorem depth_eq_length {e : WalkEntry} (he : e ∈ s.walk) : e.depth = e.parts.length := by
  have hnil : Workspace.startDir "" = [] := by rfl
  have hone : Workspace.startDepth "" = 1 := by rfl
  have hlevel := (s.workspace.descends_walkAt s.options.limits s.matcher "").level e he
  rw [hnil, hone, List.length_nil] at hlevel
  omega

/-- An entry is shown where it is in the outline. -/
theorem shownAt_of_isAt (h : IsTree s.walk) {e : WalkEntry} (he : e ∈ s.walk) {p : Place}
    (hat : IsAt s.walk (fun p => (s.workspace.size? p).getD 0) [] e p) : ShownAt s e p := by
  have hpath : p.path = e.parts := hat.path
  have hlength := h.length_parts_le he
  refine ⟨hpath, ?_, fun hfile => ?_, fun hdir => ?_⟩
  · rw [depth_eq_length he, ← hpath, Place.path, List.length_append, List.length_map]
    rfl
  · rw [hat.node, nodeOf, if_neg (by simp [hfile])]
  · rw [hat.node, nodeOf, if_pos hdir]
    exact ⟨rfl, totals_directory h e.name (by omega)⟩

/-- A node has the name of the entry that is shown there. -/
theorem ShownAt.name_eq {e : WalkEntry} {p : Place} (h : ShownAt s e p) :
    p.self.node.name = e.name := by
  cases hdir : e.isDir with
  | false =>
    rw [h.file hdir]
    rfl
  | true => exact (h.directory hdir).1

/-- The report on the directories shows the walk, wherever links lead. The outline has one node for
each entry, under the node of the directory that the entry lies in, with directories before files
and each group by name, and every directory with the number and total size of the files below it.
After the line of the root the block of the report has one line for each node, in preorder. -/
theorem report_shows_walk (s : Scene) (ht : s.workspace.tree.Tidy)
    (hroot : IsUnbroken s.workspace.name) (hnames : ∀ e ∈ s.walk, IsUnbroken e.name) :
    let root := outline s
    root.name = s.workspace.name ∧ Totals s [] root ∧ (∀ p ∈ root.places, p.Hangs root) ∧
    ∃ (es : List WalkEntry) (lines : List String), es.Perm s.walk ∧
      List.Forall₂ (ShownAt s) es root.places ∧ List.Forall₂ IsLine root.places lines ∧
      Text.split (directory s).content '\n' =
        reportLines (root.label :: lines) (toString root.fileCount) (sizeText root.size) := by
  intro root
  have htree := isTree_walk ht
  have hplaces : root.places = placesOf (Outline.childrenOf s.walk
      (fun p => (s.workspace.size? p).getD 0) (s.walk.length + 1) []) := Outline.places_eq root
  have hperm : (preorder s.walk (s.walk.length + 1) []).Perm s.walk := by
    have hbelow : (preorder s.walk (s.walk.length + 1) []).Perm
        (s.walk.filter fun e => decide ([] <+: e.parent)) := preorder_perm htree (by simp)
    simpa using hbelow
  have hshown : List.Forall₂ (ShownAt s) (preorder s.walk (s.walk.length + 1) []) root.places := by
    have hat : List.Forall₂ (IsAt s.walk (fun p => (s.workspace.size? p).getD 0) [])
        (preorder s.walk (s.walk.length + 1) []) root.places := by
      rw [hplaces]
      exact forall₂_places htree (by simp)
    have hwalked := (List.forall₂_and_left _ _).2 ⟨fun e he => hperm.mem_iff.1 he, hat⟩
    exact hwalked.imp fun e p h => shownAt_of_isAt htree h.1 h.2
  -- The names on the lines are those of the entries, so no line is broken.
  have hunbroken : ∀ p ∈ root.places, IsUnbroken p.self.node.name := by
    have hboth : List.Forall₂ (flip fun p e => IsUnbroken p.self.node.name ∧ ShownAt s e p)
        (preorder s.walk (s.walk.length + 1) []) root.places := by
      have hwalked := (List.forall₂_and_left _ _).2 ⟨fun e he => hperm.mem_iff.1 he, hshown⟩
      exact hwalked.imp fun e p h => ⟨h.2.name_eq ▸ hnames e h.1, h.2⟩
    exact ((List.forall₂_and_left _ _).1 hboth.flip).1
  refine ⟨rfl, totals_directory htree _ (by simp), hangs_of_mem_places root,
    preorder s.walk (s.walk.length + 1) [], root.places.map Place.line, hperm, hshown, ?_, ?_⟩
  · rw [List.forall₂_map_right_iff]
    exact List.forall₂_same.2 fun p _ => isLine_line p
  · rw [hplaces] at hunbroken ⊢
    exact split_report _ _ hroot hunbroken

/-! ## A directory behind a link -/

section Linked

open Workspace

/-- A survey of a workspace with a link to a directory beside it. -/
def linkedDirectory : Scene := ⟨ofAlias, { maxDepth := 20 }, ⟨[], []⟩⟩

/-- The report on it has two lines below that of the root: one for the link, as a directory, and
one for the file in it. -/
theorem report_shows_linked_directory :
    ofAlias.tree.Tidy ∧ IsUnbroken ofAlias.name ∧
    (∀ e ∈ linkedDirectory.walk, IsUnbroken e.name) ∧
    ∃ lines : List String, lines.length = 2 ∧
      Text.split (directory linkedDirectory).content '\n' =
        reportLines ((outline linkedDirectory).label :: lines)
          (toString (outline linkedDirectory).fileCount)
          (sizeText (outline linkedDirectory).size) := by
  have htidy : ofAlias.tree.Tidy := by decide
  have hwalk : linkedDirectory.walk = [⟨["a"], true, 1⟩, ⟨["a", "f.txt"], false, 2⟩] := by
    have hkept := walk_ofAlias ⟨[], []⟩ fun dir _ => ignoresParts_nothing dir true
    rwa [ignoresParts_nothing, if_neg Bool.false_ne_true] at hkept
  have hroot : IsUnbroken ofAlias.name := by decide
  have hnames : ∀ e ∈ linkedDirectory.walk, IsUnbroken e.name := by
    rw [hwalk]
    decide
  obtain ⟨-, -, -, es, lines, hperm, hshown, hlines, hsplit⟩ :=
    report_shows_walk linkedDirectory htidy hroot hnames
  refine ⟨htidy, hroot, hnames, lines, ?_, hsplit⟩
  -- The report has a line for each place of the walk, and the walk has two.
  calc lines.length = (outline linkedDirectory).places.length := hlines.length_eq.symm
    _ = es.length := hshown.length_eq.symm
    _ = linkedDirectory.walk.length := hperm.length_eq
    _ = 2 := by rw [hwalk]; rfl

end Linked

end CodeSurvey.Survey
