import CodeSurvey.Proofs.Directory.Outline
import CodeSurvey.Proofs.Text.Digits
import CodeSurvey.Proofs.Text.Pieces
import Mathlib.Data.List.Forall2

/-!
# The places of an outline

A place in an outline is a way down to a node, with the siblings that come after the node at each
level (`Place`). The places in preorder are the nodes one by one: a node, then what lies in it, then
its later siblings (`Outline.places`).

A report has one line for each place, in this order. What is shown before the label of a node is
told by its place alone: four characters for each level above, where a bar stands for later
siblings, and a connector, which tells whether the node is the last of its siblings
(`linesOfAll_eq`). No line is broken if the names are not (`split_report`).

The entries of a walk in preorder are at the places of its outline, one by one (`forall₂_places`).
-/

namespace CodeSurvey.Text

/-- Texts before others are joined with the separator between the two. -/
theorem join_append {between : String} {first last : List String} (hfirst : first ≠ [])
    (hlast : last ≠ []) :
    join between (first ++ last) = join between first ++ between ++ join between last := by
  induction first with
  | nil => exact absurd rfl hfirst
  | cons s rest ih =>
    cases rest with
    | nil =>
      obtain ⟨t, last, rfl⟩ := List.exists_cons_of_ne_nil hlast
      exact join_cons_cons between s t last
    | cons t rest =>
      have hrest := ih (List.cons_ne_nil t rest)
      rw [List.cons_append] at hrest
      rw [List.cons_append, List.cons_append, join_cons_cons, hrest, join_cons_cons]
      simp only [String.append_assoc]

end CodeSurvey.Text

namespace CodeSurvey.Directory

open CodeSurvey.Files

/-- A level on the way down an outline: the node that the way leads to, and the siblings after
it. -/
structure Level where
  node : Outline
  later : List Outline

/-- A place in an outline: the levels above it from the top down, and its own. -/
structure Place where
  above : List Level
  self : Level

namespace Outline

/-- What lies in a node. -/
def children : Outline → List Outline
  | file .. => []
  | directory _ cs => cs

end Outline

namespace Place

/-- The names on the way down. -/
def path (p : Place) : Path := p.above.map (fun l => l.node.name) ++ [p.self.node.name]

/-- The nodes that a place leads to are on the first level at depth one. -/
def depth (p : Place) : Nat := p.above.length + 1

/-- A place in a node, seen from where the node is. -/
def under (l : Level) (p : Place) : Place := { p with above := l :: p.above }

/-- The path of a place in a node begins with the name of the node. -/
theorem path_under (l : Level) (p : Place) : (p.under l).path = l.node.name :: p.path := rfl

end Place

mutual

/-- The places below a node in preorder. -/
def Outline.places : Outline → List Place
  | .file .. => []
  | .directory _ cs => placesOf cs

/-- The places of siblings and of all below them. -/
def placesOf : List Outline → List Place
  | [] => []
  | c :: cs => ⟨[], ⟨c, cs⟩⟩ :: c.places.map (.under ⟨c, cs⟩) ++ placesOf cs

end

/-- The places of siblings are that of the first, those below it and those of the others. -/
theorem placesOf_cons (c : Outline) (cs : List Outline) :
    placesOf (c :: cs) = ⟨[], ⟨c, cs⟩⟩ :: c.places.map (.under ⟨c, cs⟩) ++ placesOf cs := by
  rw [placesOf]

/-- The places below a node are those of its children. -/
theorem Outline.places_eq (o : Outline) : o.places = placesOf o.children := by
  cases o with
  | file n s => rw [places, children, placesOf]
  | directory n cs => rw [places, children]

/-! ## Where a place hangs -/

/-- A place hangs in an outline: the node above it has a place as well, and the node is a child of
that one or of the root, with the later siblings after it. -/
structure Place.Hangs (root : Outline) (p : Place) : Prop where
  parent : ∀ above l, p.above = above ++ [l] → ⟨above, l⟩ ∈ root.places
  among : ∃ earlier, (p.above.getLast?.elim root Level.node).children =
    earlier ++ p.self.node :: p.self.later

/-- A place in a child hangs in the parent. -/
theorem Place.Hangs.under {root c : Outline} {l : Level} {p : Place} (h : p.Hangs c)
    (hnode : l.node = c) (hself : ⟨[], l⟩ ∈ root.places)
    (hbelow : ∀ q ∈ c.places, q.under l ∈ root.places) : (p.under l).Hangs root where
  parent := by
    intro above last habove
    cases above with
    | nil =>
      obtain ⟨rfl, -⟩ := List.cons.inj habove
      exact hself
    | cons first above =>
      obtain ⟨rfl, hrest⟩ := List.cons.inj habove
      exact hbelow _ (h.parent above last hrest)
  among := by
    obtain ⟨earlier, hamong⟩ := h.among
    refine ⟨earlier, Eq.trans ?_ hamong⟩
    rw [Place.under, List.getLast?_cons]
    cases p.above.getLast? with
    | none => exact congrArg Outline.children hnode
    | some last => rfl

mutual

/-- Every place of an outline hangs in it. -/
theorem hangs_of_mem_places (root : Outline) : ∀ p ∈ root.places, p.Hangs root :=
  match root with
  | .file n s => fun p hp => by simp [Outline.places] at hp
  | .directory n cs => fun p hp =>
    hangs_of_mem_placesOf (.directory n cs) [] cs rfl (fun q hq => by rwa [Outline.places]) p
      (by rwa [Outline.places] at hp)

/-- So does every place of the last of its children. -/
theorem hangs_of_mem_placesOf (root : Outline) (earlier cs : List Outline)
    (hchildren : root.children = earlier ++ cs) (hplaces : ∀ p ∈ placesOf cs, p ∈ root.places) :
    ∀ p ∈ placesOf cs, p.Hangs root :=
  match cs with
  | [] => fun p hp => by simp [placesOf] at hp
  | c :: cs => by
    rw [placesOf_cons] at hplaces ⊢
    simp only [List.cons_append, List.forall_mem_cons, List.forall_mem_append,
      List.forall_mem_map] at hplaces ⊢
    obtain ⟨hself, hbelow, hlater⟩ := hplaces
    refine ⟨⟨fun above l h => ?_, earlier, hchildren⟩, fun p hp => ?_, ?_⟩
    · exact absurd h (by simp)
    · exact (hangs_of_mem_places c p hp).under rfl hself hbelow
    · refine hangs_of_mem_placesOf root (earlier ++ [c]) cs ?_ hlater
      rw [hchildren, List.append_assoc, List.singleton_append]

end

/-! ## Lines -/

namespace Level

/-- What is shown of a level above a node: a bar if siblings come after it. -/
def bar (l : Level) : String := if l.later.isEmpty then "    " else "│   "

/-- What connects a node with the level above it. -/
def branch (l : Level) : String := if l.later.isEmpty then "└── " else "├── "

end Level

/-- What is shown of the levels above a node. -/
def leadOf : List Level → String
  | [] => ""
  | l :: above => l.bar ++ leadOf above

namespace Place

/-- The line of a node. -/
def line (p : Place) : String := leadOf p.above ++ p.self.branch ++ p.self.node.label

/-- The line of a place in a node begins with the bar of the node. -/
theorem line_under (l : Level) (p : Place) : (p.under l).line = l.bar ++ p.line := by
  simp only [line, leadOf, under, String.append_assoc]

end Place

mutual

/-- The lines of a node, with something in front: its own, and one for each place below it. -/
theorem lines_eq (lead : String) (c : Outline) (cs : List Outline) :
    c.lines lead cs.isEmpty = (lead ++ Level.branch ⟨c, cs⟩ ++ c.label) ::
      c.places.map fun p => lead ++ Level.bar ⟨c, cs⟩ ++ p.line :=
  match c with
  | .file n s => by rw [Outline.lines, Outline.places, List.map_nil, Level.branch]
  | .directory n inner => by
    rw [Outline.lines, Outline.places, linesOfAll_eq, Level.branch, Level.bar]

/-- The lines of siblings are those of their places. -/
theorem linesOfAll_eq (lead : String) (cs : List Outline) :
    Outline.linesOfAll lead cs = (placesOf cs).map fun p => lead ++ p.line :=
  match cs with
  | [] => by rw [Outline.linesOfAll, placesOf, List.map_nil]
  | c :: cs => by
    rw [Outline.linesOfAll, lines_eq, linesOfAll_eq lead cs, placesOf_cons, List.map_append,
      List.map_cons, List.map_map]
    simp only [Function.comp_def, Place.line_under, String.append_assoc]
    rfl

end

/-- A line is that of a place: four characters for each level above, with a bar if siblings come
after the node there, then a connector by which the last of siblings is told, and the label. -/
def IsLine (p : Place) (line : String) : Prop :=
  ∃ lead connector, line = lead ++ connector ++ p.self.node.label ∧
    lead.length = 4 * (p.depth - 1) ∧
    (∀ i (h : i < p.above.length), (lead.toList.drop (4 * i)).take 4 =
      if p.above[i].later = [] then [' ', ' ', ' ', ' '] else ['│', ' ', ' ', ' ']) ∧
    connector = if p.self.later = [] then "└── " else "├── "

/-- The bar is four blanks for the last of its siblings, and otherwise three after a stroke. -/
theorem toList_bar (l : Level) :
    l.bar.toList = if l.later = [] then [' ', ' ', ' ', ' '] else ['│', ' ', ' ', ' '] := by
  simp only [Level.bar, List.isEmpty_iff]
  split_ifs <;> rfl

/-- A bar has four characters. -/
theorem length_bar (l : Level) : l.bar.toList.length = 4 := by
  rw [toList_bar]
  split_ifs <;> rfl

/-- There are four characters for each level above. -/
theorem length_leadOf (above : List Level) : (leadOf above).length = 4 * above.length := by
  induction above with
  | nil => rfl
  | cons l above ih =>
    rw [leadOf, String.length_append, ih, ← String.length_toList, length_bar, List.length_cons]
    omega

/-- They tell whether siblings come after the node there. -/
theorem take_drop_leadOf (above : List Level) (i : Nat) (h : i < above.length) :
    ((leadOf above).toList.drop (4 * i)).take 4 =
      if above[i].later = [] then [' ', ' ', ' ', ' '] else ['│', ' ', ' ', ' '] := by
  induction above generalizing i with
  | nil => cases h
  | cons l above ih =>
    rw [leadOf, String.toList_append]
    cases i with
    | zero =>
      rw [Nat.mul_zero, List.drop_zero, ← length_bar l, List.take_left, toList_bar]
      rfl
    | succ i =>
      have hpast : 4 * (i + 1) = l.bar.toList.length + 4 * i := by
        rw [length_bar]
        omega
      rw [hpast, ← List.drop_drop, List.drop_left]
      exact ih i (Nat.lt_of_succ_lt_succ h)

/-- The line of a place is one. -/
theorem isLine_line (p : Place) : IsLine p p.line := by
  refine ⟨leadOf p.above, p.self.branch, rfl, length_leadOf p.above, take_drop_leadOf p.above, ?_⟩
  unfold Level.branch
  cases p.self.later <;> rfl

/-! ## Unbroken lines -/

/-- A text without a line feed. -/
def IsUnbroken (s : String) : Prop := '\n' ∉ s.toList

instance (s : String) : Decidable (IsUnbroken s) := inferInstanceAs (Decidable (_ ∉ _))

/-- A text is unbroken if both parts of it are. -/
theorem isUnbroken_append {s t : String} :
    IsUnbroken (s ++ t) ↔ IsUnbroken s ∧ IsUnbroken t := by
  unfold IsUnbroken
  rw [String.toList_append, List.mem_append, not_or]

/-- The digits of a number are unbroken. -/
theorem isUnbroken_toString (n : Nat) : IsUnbroken (toString n) :=
  Text.notMem_toString (by decide) n

/-- So is the name of a unit. -/
theorem isUnbroken_unitFor (size : Nat) : IsUnbroken (unitFor size units).1 := by
  unfold units unitFor unitFor unitFor
  split_ifs <;> decide

/-- The text of a size is unbroken. -/
theorem isUnbroken_sizeText (size : Nat) : IsUnbroken (sizeText size) := by
  have hdouble (n : Nat) : IsUnbroken (doubleSizeText n) := by
    unfold doubleSizeText Decimal.tenthsText
    split_ifs
    · exact isUnbroken_append.2 ⟨isUnbroken_toString n, by decide⟩
    · simp only [isUnbroken_append]
      exact ⟨⟨⟨⟨isUnbroken_toString _, by decide⟩, isUnbroken_toString _⟩, by decide⟩,
        isUnbroken_unitFor n⟩
  have hpositive : ¬ (size : Int) < 0 := by omega
  unfold sizeText sizeText?
  cases Decimal.nearestDouble? (size : Int).natAbs with
  | none => exact List.not_mem_nil
  | some n =>
    simp only [Option.map_some, Option.getD_some, if_neg hpositive]
    exact hdouble n

/-- So is a label, if the name in it is. -/
theorem isUnbroken_label {o : Outline} (h : IsUnbroken o.name) : IsUnbroken o.label := by
  cases o with
  | file n s =>
    simp only [Outline.label, isUnbroken_append]
    exact ⟨⟨⟨h, by decide⟩, isUnbroken_sizeText s⟩, by decide⟩
  | directory n cs =>
    simp only [Outline.label, Outline.totals, isUnbroken_append]
    refine ⟨⟨⟨h, by decide⟩, ⟨isUnbroken_toString _, ?_⟩, isUnbroken_sizeText _⟩, by decide⟩
    split_ifs <;> decide

/-- And what is shown of the levels above a node. -/
theorem isUnbroken_leadOf (above : List Level) : IsUnbroken (leadOf above) := by
  induction above with
  | nil => decide
  | cons l above ih =>
    refine isUnbroken_append.2 ⟨?_, ih⟩
    unfold Level.bar
    split_ifs <;> decide

/-- And a line. -/
theorem isUnbroken_line {p : Place} (h : IsUnbroken p.self.node.name) : IsUnbroken p.line := by
  refine isUnbroken_append.2 ⟨isUnbroken_append.2 ⟨isUnbroken_leadOf _, ?_⟩, isUnbroken_label h⟩
  unfold Level.branch
  split_ifs <;> decide

/-- What a report is joined from, around a block of lines. -/
def reportLines (block : List String) (count size : String) : List String :=
  ["# Directory Structure", "", "\x60\x60\x60"] ++ block ++
    ["\x60\x60\x60", "", "**Total:** " ++ count ++ " files, " ++ size, ""]

/-- The text of a report, with its block between fences. -/
theorem join_reportLines {block : List String} (hblock : block ≠ []) (count size : String) :
    Text.join "\n" (reportLines block count size) =
      "# Directory Structure\n\n\x60\x60\x60\n" ++ Text.join "\n" block ++
        "\n\x60\x60\x60\n\n**Total:** " ++ count ++ " files, " ++ size ++ "\n" := by
  have hopen : Text.join "\n" ["# Directory Structure", "", "\x60\x60\x60"] ++ "\n" =
      "# Directory Structure\n\n\x60\x60\x60\n" := by decide
  have hblank : "\n" ++ ("\x60\x60\x60" ++ "\n" ++ ("" ++ "\n" ++ "**Total:** ")) =
      "\n\x60\x60\x60\n\n**Total:** " := by decide
  have hclose : "\n" ++ Text.join "\n" ["\x60\x60\x60", "",
      "**Total:** " ++ count ++ " files, " ++ size, ""] =
      "\n\x60\x60\x60\n\n**Total:** " ++ count ++ " files, " ++ size ++ "\n" := by
    rw [Text.join_cons_cons, Text.join_cons_cons, Text.join_cons_cons, ← hblank]
    simp only [String.append_assoc, Text.join, List.foldl_nil, String.append_empty]
  unfold reportLines
  rw [Text.join_append (List.append_ne_nil_of_left_ne_nil (List.cons_ne_nil _ _) _)
    (List.cons_ne_nil _ _), Text.join_append (List.cons_ne_nil _ _) hblock, hopen,
    String.append_assoc, hclose]
  simp only [String.append_assoc]

/-- Lines without a break are found again in the text of their report. -/
theorem split_join_reportLines {block : List String} (hblock : ∀ line ∈ block, IsUnbroken line)
    {count size : String} (hcount : IsUnbroken count) (hsize : IsUnbroken size) :
    Text.split (Text.join "\n" (reportLines block count size)) '\n' =
      reportLines block count size := by
  have htotal : IsUnbroken ("**Total:** " ++ count ++ " files, " ++ size) := by
    simp only [isUnbroken_append]
    exact ⟨⟨⟨by decide, hcount⟩, by decide⟩, hsize⟩
  have hne : reportLines block count size ≠ [] := List.cons_ne_nil _ _
  refine Text.split_join rfl hne ?_
  change ∀ line ∈ reportLines block count size, IsUnbroken line
  simp only [reportLines, List.forall_mem_append, List.forall_mem_cons]
  exact ⟨⟨⟨by decide, by decide, by decide, by simp⟩, hblock⟩, by decide, by decide, htotal,
    by decide, by simp⟩

/-- The lines of a report: in a block the label of the root and one line for each place. -/
theorem split_report (n : String) (cs : List Outline) (hroot : IsUnbroken n)
    (hnames : ∀ p ∈ placesOf cs, IsUnbroken p.self.node.name) :
    Text.split (Outline.directory n cs).report '\n' =
      reportLines ((Outline.directory n cs).label :: (placesOf cs).map Place.line)
        (toString (Outline.directory n cs).fileCount) (sizeText (Outline.directory n cs).size) := by
  have hlines : (Outline.directory n cs).childLines = (placesOf cs).map Place.line := by
    rw [Outline.childLines, linesOfAll_eq]
    simp only [String.empty_append]
  have hblock : ∀ line ∈ (Outline.directory n cs).label :: (placesOf cs).map Place.line,
      IsUnbroken line := by
    simp only [List.forall_mem_cons, List.forall_mem_map]
    exact ⟨isUnbroken_label hroot, fun p hp => isUnbroken_line (hnames p hp)⟩
  have hcount := isUnbroken_toString (Outline.directory n cs).fileCount
  have hsize := isUnbroken_sizeText (Outline.directory n cs).size
  unfold Outline.report
  rw [hlines, ← join_reportLines (List.cons_ne_nil _ _)]
  exact split_join_reportLines hblock hcount hsize

/-! ## Entries at their places -/

variable {entries : List WalkEntry} {sizeOf : Path → Nat} {depth : Nat} {dir : Path}

/-- An entry is at a place below a directory: the way down to it is its path, and its node is
there. -/
structure IsAt (entries : List WalkEntry) (sizeOf : Path → Nat) (dir : Path) (e : WalkEntry)
    (p : Place) : Prop where
  path : dir ++ p.path = e.parts
  node : p.self.node = nodeOf entries sizeOf (entries.length + 1 - e.parts.length) e

/-- The entries in preorder are at the places of the outline, one by one. -/
theorem forall₂_places (h : IsTree entries) (hdepth : dir.length + depth = entries.length + 1) :
    List.Forall₂ (IsAt entries sizeOf dir) (preorder entries depth dir)
      (placesOf (Outline.childrenOf entries sizeOf depth dir)) := by
  induction depth generalizing dir with
  | zero =>
    rw [preorder, Outline.childrenOf, placesOf]
    exact .nil
  | succ depth ih =>
    rw [childrenOf_succ, preorder]
    have hmem : ∀ c ∈ entriesIn entries dir, c ∈ entries ∧ c.parent = dir :=
      fun c hc => mem_entriesIn.1 hc
    generalize entriesIn entries dir = siblings at hmem
    induction siblings with
    | nil =>
      rw [List.flatMap_nil, List.map_nil, placesOf]
      exact .nil
    | cons c rest ihrest =>
      -- The entry itself, then what lies below it, then the siblings after it.
      obtain ⟨⟨hc, hparent⟩, hrest⟩ := List.forall_mem_cons.1 hmem
      have hparts : c.parts = dir ++ [c.name] := hparent ▸ parts_eq_parent_append h hc
      have hlength : c.parts.length + depth = entries.length + 1 := by
        rw [hparts, List.length_append, List.length_singleton]
        omega
      have hdown : entries.length + 1 - c.parts.length = depth := by omega
      have hself : IsAt entries sizeOf dir c
          ⟨[], ⟨nodeOf entries sizeOf depth c, rest.map (nodeOf entries sizeOf depth)⟩⟩ := by
        refine ⟨?_, congrArg (nodeOf entries sizeOf · c) hdown.symm⟩
        rw [hparts, ← name_nodeOf c]
        rfl
      have hbelow : List.Forall₂ (fun e p => IsAt entries sizeOf dir e (p.under
          ⟨nodeOf entries sizeOf depth c, rest.map (nodeOf entries sizeOf depth)⟩))
          (if c.isDir then preorder entries depth c.parts else [])
          (nodeOf entries sizeOf depth c).places := by
        by_cases hdir : c.isDir = true
        · rw [if_pos hdir, nodeOf, if_pos hdir, Outline.places]
          refine (ih hlength).imp fun e p hat => ⟨?_, hat.node⟩
          rw [Place.path_under, ← hat.path, hparts, List.append_assoc]
          rfl
        · rw [if_neg hdir, nodeOf, if_neg hdir, Outline.places]
          exact .nil
      rw [List.flatMap_cons, List.map_cons, placesOf_cons]
      exact List.rel_append (.cons hself (List.forall₂_map_right_iff.2 hbelow)) (ihrest hrest)

end CodeSurvey.Directory
