import CodeSurvey.Proofs.Syntax.Preorder
import Mathlib.Data.List.Forall2

/-!
# Trees that stand elsewhere

A construct that is moved to another place of a text keeps its roles, kinds and texts, and changes
its lines and the white space in front of it. Such trees are alike (`Alike`), and so are their parts
(`Alike.children`), the parts with a given role (`Alike.part?`) and the places that a walk meets
(`Alike.preorder`).
-/

namespace CodeSurvey.Syntax

/-- Two trees are the same but for lines and for white space that is in the text of no node. -/
inductive Alike : Node → Node → Prop
  | leaf (role : Option Role) (kind : Kind) (gap gap' text : String) (line line' : Nat) :
      Alike (.leaf role kind gap text line) (.leaf role kind gap' text line')
  | branch {role : Option Role} {kind : Kind} {parts parts' : List Node} :
      (Node.branch role kind parts).text = (Node.branch role kind parts').text →
      List.Forall₂ Alike parts parts' →
      Alike (.branch role kind parts) (.branch role kind parts')

/-- Two places hold alike nodes below the same kinds. -/
structure Place.IsLike (p q : Place) : Prop where
  above : p.above = q.above
  node : Alike p.node q.node

/-! ## Lists and options with related elements -/

section Related

variable {α β γ : Type} {R : α → β → Prop} {xs : List α} {ys : List β} {o : Option α}
  {o' : Option β}

/-- What is told of each element. -/
theorem map_eq_of_forall₂ {f : α → γ} {g : β → γ} (h : List.Forall₂ R xs ys)
    (hfg : ∀ x y, R x y → f x = g y) : xs.map f = ys.map g := by
  induction h with
  | nil => rfl
  | cons hxy _ ih => rw [List.map_cons, List.map_cons, hfg _ _ hxy, ih]

/-- The elements that pass a test. -/
theorem forall₂_filter {p : α → Bool} {q : β → Bool} (h : List.Forall₂ R xs ys)
    (hpq : ∀ x y, R x y → p x = q y) : List.Forall₂ R (xs.filter p) (ys.filter q) :=
  List.rel_filter (fun _ _ hxy => Bool.eq_iff_iff.1 (hpq _ _ hxy)) h

/-- What is told of the elements that tell something. -/
theorem filterMap_eq_of_forall₂ {f : α → Option γ} {g : β → Option γ} (h : List.Forall₂ R xs ys)
    (hfg : ∀ x y, R x y → f x = g y) : xs.filterMap f = ys.filterMap g := by
  have hmap := map_eq_of_forall₂ h hfg
  rw [← Function.id_comp f, ← List.filterMap_map, hmap, List.filterMap_map, Function.id_comp]

/-- What is told of the elements one after the other. -/
theorem flatMap_eq_of_forall₂ {f : α → List γ} {g : β → List γ} (h : List.Forall₂ R xs ys)
    (hfg : ∀ x y, R x y → f x = g y) : xs.flatMap f = ys.flatMap g := by
  rw [List.flatMap_def, List.flatMap_def, map_eq_of_forall₂ h hfg]

/-- Whether one of the elements passes a test. -/
theorem any_eq_of_forall₂ {p : α → Bool} {q : β → Bool} (h : List.Forall₂ R xs ys)
    (hpq : ∀ x y, R x y → p x = q y) : xs.any p = ys.any q := by
  induction h with
  | nil => rfl
  | cons hxy _ ih => rw [List.any_cons, List.any_cons, hpq _ _ hxy, ih]

/-- The first element that passes a test. -/
theorem rel_find? {p : α → Bool} {q : β → Bool} (h : List.Forall₂ R xs ys)
    (hpq : ∀ x y, R x y → p x = q y) : Option.Rel R (xs.find? p) (ys.find? q) := by
  induction h with
  | nil => exact .none
  | @cons x y xs ys hxy _ ih =>
    rw [List.find?_cons, List.find?_cons, hpq x y hxy]
    cases q y with
    | true => exact .some hxy
    | false => exact ih

/-- What is told of an element that may be missing. -/
theorem bind_eq_of_rel {f : α → Option γ} {g : β → Option γ} (h : Option.Rel R o o')
    (hfg : ∀ x y, R x y → f x = g y) : o.bind f = o'.bind g := by
  cases h with
  | none => rfl
  | some hxy => exact hfg _ _ hxy

/-- What is made of an element that may be missing. -/
theorem map_eq_of_rel {f : α → γ} {g : β → γ} (h : Option.Rel R o o')
    (hfg : ∀ x y, R x y → f x = g y) : o.map f = o'.map g := by
  rw [Option.map_eq_bind, Option.map_eq_bind]
  exact bind_eq_of_rel h fun x y hxy => congrArg some (hfg x y hxy)

/-- One of two is missing if the other is. -/
theorem isNone_eq_of_rel (h : Option.Rel R o o') : o.isNone = o'.isNone := by
  cases h <;> rfl

/-- What is kept of two if the same is kept of related ones. -/
theorem rel_filter {p : α → Bool} {q : β → Bool} (h : Option.Rel R o o')
    (hpq : ∀ x y, R x y → p x = q y) : Option.Rel R (o.filter p) (o'.filter q) := by
  cases h with
  | none => exact .none
  | @some x y hxy =>
    rw [Option.filter_some, Option.filter_some, hpq x y hxy]
    split_ifs
    · exact .some hxy
    · exact .none

/-- Two of which either may be missing. -/
theorem rel_or {r : Option α} {r' : Option β} (h : Option.Rel R o o') (hr : Option.Rel R r r') :
    Option.Rel R (o.or r) (o'.or r') := by
  cases h with
  | none => exact hr
  | some hxy => exact .some hxy

end Related

namespace Alike

variable {n m : Node}

/-- Alike nodes are of one kind. -/
theorem kind_eq (h : Alike n m) : n.kind = m.kind := by cases h <;> rfl

/-- They have one role. -/
theorem role_eq (h : Alike n m) : n.role = m.role := by cases h <;> rfl

/-- And one text. -/
theorem text_eq (h : Alike n m) : n.text = m.text := by
  cases h with
  | leaf => rfl
  | branch htext => exact htext

/-- The parts of alike nodes are alike. -/
theorem children (h : Alike n m) : List.Forall₂ Alike n.children m.children := by
  cases h with
  | leaf => exact .nil
  | branch _ hparts => exact hparts

/-- Their parts with a role are alike. -/
theorem part? (h : Alike n m) (r : Role) : Option.Rel Alike (n.part? r) (m.part? r) :=
  rel_find? h.children fun _ _ h => by rw [h.role_eq]

/-- So are their named parts. -/
theorem namedParts (h : Alike n m) : List.Forall₂ Alike n.namedParts m.namedParts :=
  forall₂_filter h.children fun _ _ h => by rw [h.kind_eq]

/-- They have the same marks. -/
theorem hasMark_eq (h : Alike n m) (text : String) : n.hasMark text = m.hasMark text :=
  any_eq_of_forall₂ h.children fun _ _ h => by rw [h.kind_eq, h.text_eq]

/-- The nodes of a kind among alike ones. -/
theorem filter_kind {ns ms : List Node} (h : List.Forall₂ Alike ns ms) (kind : Kind) :
    List.Forall₂ Alike (ns.filter (·.kind == kind)) (ms.filter (·.kind == kind)) :=
  forall₂_filter h fun _ _ h => by rw [h.kind_eq]

/-- A part of a kind, with a role. -/
theorem part?_kind (h : Alike n m) (r : Role) (kind : Kind) :
    Option.Rel Alike ((n.part? r).filter (·.kind == kind)) ((m.part? r).filter (·.kind == kind)) :=
  rel_filter (h.part? r) fun _ _ h => by rw [h.kind_eq]

/-- Whether two trees are alike, tested node by node. -/
def test : Node → Node → Bool
  | .leaf role kind _ text _, .leaf role' kind' _ text' _ =>
    role == role' && kind == kind' && text == text'
  | .branch role kind parts, .branch role' kind' parts' =>
    role == role' && kind == kind' &&
      (Node.branch role kind parts).text == (Node.branch role' kind' parts').text &&
      testAll parts parts'
  | _, _ => false
where
  testAll : List Node → List Node → Bool
    | [], [] => true
    | n :: ns, m :: ms => test n m && testAll ns ms
    | _, _ => false

/-- The test says whether two trees are alike. -/
theorem test_iff : test n m = true ↔ Alike n m := by
  -- Along with two nodes go the lists of their parts.
  induction n, m using test.induct
    (motive_1 := fun ns ms => test.testAll ns ms = true ↔ List.Forall₂ Alike ns ms) with
  | case1 role kind gap text line role' kind' gap' text' line' =>
    simp only [test, Bool.and_eq_true, beq_iff_eq]
    constructor
    · rintro ⟨⟨rfl, rfl⟩, rfl⟩
      exact .leaf ..
    · rintro ⟨⟩
      exact ⟨⟨rfl, rfl⟩, rfl⟩
  | case2 role kind parts role' kind' parts' ih =>
    simp only [test, Bool.and_eq_true, beq_iff_eq, ih]
    constructor
    · rintro ⟨⟨⟨rfl, rfl⟩, htext⟩, hparts⟩
      exact .branch htext hparts
    · rintro (_ | ⟨htext, hparts⟩)
      exact ⟨⟨⟨rfl, rfl⟩, htext⟩, hparts⟩
  | case3 n m hleaf hbranch =>
    rw [test.eq_3 n m hleaf hbranch]
    refine iff_of_false Bool.false_ne_true fun h => ?_
    cases h with
    | leaf => exact hleaf _ _ _ _ _ _ _ _ _ _ rfl rfl
    | branch => exact hbranch _ _ _ _ _ _ rfl rfl
  | case4 => exact iff_of_true rfl .nil
  | case5 n ns m ms ih ihs => rw [test.testAll, Bool.and_eq_true, ih, ihs, List.forall₂_cons]
  | case6 ns ms hnil hcons =>
    rw [test.testAll.eq_3 ns ms hnil hcons]
    refine iff_of_false Bool.false_ne_true fun h => ?_
    cases h with
    | nil => exact hnil rfl rfl
    | cons => exact hcons _ _ _ _ rfl rfl

instance (n m : Node) : Decidable (Alike n m) := decidable_of_iff _ test_iff

/-- A walk of alike trees meets alike places. -/
theorem preorder (h : Alike n m) (above : List Kind) :
    List.Forall₂ Place.IsLike (Place.preorder above n) (Place.preorder above m) := by
  induction above, n using Place.preorder.induct
    (motive_1 := fun above ns => ∀ ms, List.Forall₂ Alike ns ms →
      List.Forall₂ Place.IsLike (Place.preorder.preorderAll above ns)
        (Place.preorder.preorderAll above ms)) generalizing m with
  | case1 above role kind gap text line =>
    cases h
    exact .cons ⟨rfl, .leaf ..⟩ .nil
  | case2 above role kind parts ih =>
    cases h with
    | branch htext hparts => exact .cons ⟨rfl, .branch htext hparts⟩ (ih _ hparts)
  | case3 above ms hms =>
    cases hms
    exact .nil
  | case4 above n ns ih ihs ms hms =>
    cases hms with
    | cons hnode hnodes => exact List.rel_append (ih hnode) (ihs _ hnodes)

end Alike

end CodeSurvey.Syntax
