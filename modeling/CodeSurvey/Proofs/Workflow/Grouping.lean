import CodeSurvey.Proofs.Calls.Order
import CodeSurvey.Proofs.Workflow.Locality
import Mathlib.Data.List.Perm.Basic

/-!
# Where operations and functions go

Every operation is in the workflow of its resource, with all others of that resource. A function is
in the workflow of the first resource that its file is named after; of the functions that are left,
those of one known category make up a workflow if they are at least two. So each position in the
list of functions has one place among the workflows, or none
(`operations_and_functions_are_placed`).

The workflows of the resources are made one after the other, each from the functions that those
before have left (`resourceWorkflows_eq`). Which one takes a function is told at once by the first
resource that it serves, and which category takes it by those that enough functions have
(`placeOf`).
-/

namespace CodeSurvey.Workflow

open CodeSurvey.Calls

variable {operations : List Operation} {handlers : List Handler} {edges : List Edge}

/-! ## Positions in lists -/

section Positions

variable {α : Type}

/-- Elements are selected by their positions as by themselves if that comes to the same. -/
theorem map_fst_filter_zipIdx {xs : List α} {keep : α → Bool} (keepAt : Nat → Bool)
    (h : ∀ i x, xs[i]? = some x → keepAt i = keep x) :
    (xs.zipIdx.filter fun x => keepAt x.2).map (·.1) = xs.filter keep := by
  have hsame : xs.zipIdx.filter (fun x => keepAt x.2) = xs.zipIdx.filter (keep ∘ (·.1)) :=
    List.filter_congr fun x hx => h x.2 x.1 (List.mem_zipIdx_iff_getElem?.1 hx)
  rw [hsame, ← List.filter_map, List.zipIdx_map_fst]

/-- One element that satisfies a condition is not the only one if another position has such an
element. -/
theorem two_le_countP_iff {xs : List α} {q : α → Bool} {i : Nat} {x : α} (hi : xs[i]? = some x)
    (hx : q x = true) : 2 ≤ xs.countP q ↔ ∃ j y, j ≠ i ∧ xs[j]? = some y ∧ q y = true := by
  obtain ⟨hlt, rfl⟩ := List.getElem?_eq_some_iff.1 hi
  have hcount : xs.countP q = (xs.eraseIdx i).countP q + 1 := by
    rw [← (List.getElem_cons_eraseIdx_perm hlt).countP_eq, List.countP_cons_of_pos hx]
  rw [hcount, Nat.succ_le_succ_iff, Nat.succ_le_iff, List.countP_pos_iff]
  constructor
  · rintro ⟨y, hy, hq⟩
    obtain ⟨j, hj, hy⟩ := List.mem_eraseIdx_iff_getElem?.1 hy
    exact ⟨j, y, hj, hy, hq⟩
  · rintro ⟨j, y, hj, hy, hq⟩
    exact ⟨y, List.mem_eraseIdx_iff_getElem?.2 ⟨j, hj, hy⟩, hq⟩

/-- Different elements are found at their own positions. -/
theorem findIdx?_beq_iff [BEq α] [LawfulBEq α] {xs : List α} (h : xs.Nodup) {i : Nat} {x : α} :
    xs.findIdx? (· == x) = some i ↔ xs[i]? = some x := by
  rw [List.findIdx?_eq_some_iff_getElem, List.getElem?_eq_some_iff]
  constructor
  · rintro ⟨hlt, hx, -⟩
    exact ⟨hlt, eq_of_beq hx⟩
  · rintro ⟨hlt, rfl⟩
    refine ⟨hlt, beq_self_eq_true _, fun j hj hx => ?_⟩
    have hsame : j = i := (h.getElem_inj_iff).1 (eq_of_beq hx)
    omega

end Positions

/-! ## The workflows of the resources -/

/-- The resource that an operation serves. -/
def Operation.resource (o : Operation) : String := resourceOf o.endpoint

/-- Whether the file of a function is named after the resource of an operation. -/
def Operation.names (o : Operation) (h : Handler) : Bool := servesResource o.resource h

/-- The resources of operations, in the order of their first operations. -/
def resourcesOf (operations : List Operation) : List String :=
  Text.distinct (operations.map Operation.resource)

/-- The workflows of the resources take each the functions for which theirs is the first resource,
and leave those that serve none. -/
theorem resourceWorkflows_eq (edges : List Edge) (rs : List (String × List Operation))
    (handlers : List Handler) :
    resourceWorkflows edges rs handlers =
      (rs.mapIdx fun i r => resourceWorkflow edges r.1 r.2
          (handlers.filter fun h => rs.findIdx? (fun r => servesResource r.1 h) == some i),
        handlers.filter fun h => !rs.any fun r => servesResource r.1 h) := by
  induction rs generalizing handlers with
  | nil => simp [resourceWorkflows]
  | cons r rest ih =>
    rw [resourceWorkflows, List.partition_eq_filter_filter]
    simp only [ih, List.mapIdx_cons, List.filter_filter, List.findIdx?_cons, List.any_cons]
    refine Prod.ext (congrArg₂ List.cons ?_ (List.mapIdx_eq_mapIdx_iff.2 ?_)) ?_
    · refine congrArg _ (List.filter_congr fun h _ => ?_)
      cases servesResource r.1 h <;> simp
    · -- The next resources count from one, and take only what the first one has left.
      intro i _
      refine congrArg _ (List.filter_congr fun h _ => ?_)
      cases hserves : servesResource r.1 h <;> cases rest.findIdx? _ <;> simp [hserves]
    · refine List.filter_congr fun h _ => ?_
      rw [Function.comp_apply, Bool.not_or, Bool.and_comm]

/-! ## Places -/

/-- The functions that serve no resource. -/
def remaining (operations : List Operation) (handlers : List Handler) : List Handler :=
  handlers.filter fun h => !(resourcesOf operations).any fun r => servesResource r h

/-- The known categories that at least two of the remaining functions have, in the order of the
first of these. -/
def categoriesOf (operations : List Operation) (handlers : List Handler) : List Category :=
  (Text.distinct (((remaining operations handlers).filter fun h => h.category != .unknown).map
    (·.category))).filter fun c => 2 ≤ (remaining operations handlers).countP (·.category == c)

/-- The place of a function among the workflows: that of the first resource that it serves, or that
of its category after all resources. -/
def placeOf (operations : List Operation) (handlers : List Handler) (h : Handler) : Option Nat :=
  match (resourcesOf operations).findIdx? fun r => servesResource r h with
  | some i => some i
  | none => ((categoriesOf operations handlers).findIdx? (· == h.category)).map
      ((resourcesOf operations).length + ·)

/-- A function serves none of the resources if it is named by none of the operations. -/
theorem servesNone_iff {h : Handler} :
    (resourcesOf operations).any (fun r => servesResource r h) = false ↔
      ∀ o ∈ operations, o.names h = false := by
  simp only [resourcesOf, List.any_eq_false, Text.mem_distinct, List.mem_map, forall_exists_index,
    and_imp, forall_apply_eq_imp_iff₂, Bool.not_eq_true, Operation.names]

/-- A category has a workflow if it is known and at least two of the remaining functions have it. -/
theorem mem_categoriesOf {c : Category} : c ∈ categoriesOf operations handlers ↔
    c ≠ .unknown ∧ 2 ≤ (remaining operations handlers).countP (·.category == c) := by
  simp only [categoriesOf, List.mem_filter, Text.mem_distinct, List.mem_map, decide_eq_true_eq,
    bne_iff_ne]
  constructor
  · rintro ⟨⟨h, ⟨-, hknown⟩, rfl⟩, htwo⟩
    exact ⟨hknown, htwo⟩
  · rintro ⟨hknown, htwo⟩
    obtain ⟨h, hh, hc⟩ := List.countP_pos_iff.1 (Nat.lt_of_lt_of_le Nat.zero_lt_two htwo)
    obtain rfl := eq_of_beq hc
    exact ⟨⟨h, ⟨hh, hknown⟩, rfl⟩, htwo⟩

/-- No category is there twice. -/
theorem nodup_categoriesOf (operations : List Operation) (handlers : List Handler) :
    (categoriesOf operations handlers).Nodup :=
  (Text.nodup_distinct _).filter _

/-- The functions that have their place at a resource are those for which it is the first. -/
theorem placeOf_eq_resource {i : Nat} (hi : i < (resourcesOf operations).length) (h : Handler) :
    placeOf operations handlers h = some i ↔
      (resourcesOf operations).findIdx? (fun r => servesResource r h) = some i := by
  unfold placeOf
  cases (resourcesOf operations).findIdx? fun r => servesResource r h with
  | some k => exact Iff.rfl
  | none =>
    -- The places of the categories come after all resources.
    simp only [Option.map_eq_some_iff, reduceCtorEq, iff_false, not_exists, not_and]
    omega

/-- The functions that have their place at a category are the remaining ones that have it. -/
theorem placeOf_eq_category {j : Nat} (h : Handler) :
    placeOf operations handlers h = some ((resourcesOf operations).length + j) ↔
      (resourcesOf operations).any (fun r => servesResource r h) = false ∧
        (categoriesOf operations handlers)[j]? = some h.category := by
  rw [← findIdx?_beq_iff (nodup_categoriesOf operations handlers), placeOf]
  cases hfind : (resourcesOf operations).findIdx? fun r => servesResource r h with
  | some k =>
    obtain ⟨hk, -⟩ := List.findIdx?_eq_some_iff_getElem.1 hfind
    rw [← List.findIdx?_isSome, hfind]
    simp only [Option.isSome_some, Bool.true_eq_false, false_and, iff_false, Option.some.injEq]
    omega
  | none =>
    rw [← List.findIdx?_isSome, hfind]
    simp

/-- A function has no place if it serves no resource and its category has no workflow. -/
theorem placeOf_eq_none {h : Handler} : placeOf operations handlers h = none ↔
    (resourcesOf operations).any (fun r => servesResource r h) = false ∧
      h.category ∉ categoriesOf operations handlers := by
  unfold placeOf
  cases hfind : (resourcesOf operations).findIdx? fun r => servesResource r h with
  | some k =>
    rw [← List.findIdx?_isSome, hfind]
    simp
  | none =>
    rw [← List.findIdx?_isSome, hfind, Option.map_eq_none_iff, List.findIdx?_eq_none_iff]
    simp only [Option.isSome_none, true_and, beq_eq_false_iff_ne]
    exact ⟨fun hne hmem => hne _ hmem rfl, fun hmem c hc heq => hmem (heq ▸ hc)⟩

/-- The groups that have a workflow are those of the categories, each with all remaining functions
of its category. -/
theorem groups_eq (operations : List Operation) (handlers : List Handler) :
    ((classes (·.category) ((remaining operations handlers).filter fun h =>
      h.category != .unknown)).filter fun g => 2 ≤ g.2.length) =
        (categoriesOf operations handlers).map fun c =>
          (c, (remaining operations handlers).filter (·.category == c)) := by
  unfold categoriesOf
  generalize remaining operations handlers = left
  -- All functions of a known category are known.
  have hclass : ∀ c ∈ Text.distinct ((left.filter fun h => h.category != .unknown).map
      (·.category)), (left.filter fun h => h.category != .unknown).filter (·.category == c) =
        left.filter (·.category == c) := by
    intro c hc
    obtain ⟨h, hh, rfl⟩ := List.mem_map.1 (Text.mem_distinct.1 hc)
    have hknown : h.category ≠ .unknown := by simpa using (List.mem_filter.1 hh).2
    rw [List.filter_filter]
    refine List.filter_congr fun h' _ => ?_
    by_cases hsame : h'.category = h.category
    · simp [hsame, hknown]
    · simp [hsame]
  rw [classes, List.filter_map]
  refine (List.map_congr_left fun c hc => ?_).trans (congrArg _ (List.filter_congr fun c hc => ?_))
  · rw [hclass c (List.mem_of_mem_filter hc)]
  · rw [Function.comp_apply, hclass c hc, List.countP_eq_length_filter]

/-- The workflows are those of the resources and then those of the categories, each with the
functions that have their place there. -/
theorem workflowsOf_eq (operations : List Operation) (handlers : List Handler)
    (edges : List Edge) :
    workflowsOf operations handlers edges =
      (resourcesOf operations).mapIdx (fun i r =>
        resourceWorkflow edges r (operations.filter fun o => o.resource == r)
          (handlers.filter fun h => placeOf operations handlers h == some i)) ++
      (categoriesOf operations handlers).mapIdx (fun j c =>
        categoryWorkflow edges c (handlers.filter fun h =>
          placeOf operations handlers h == some ((resourcesOf operations).length + j))) := by
  have hclasses : classes (fun o => resourceOf o.endpoint) operations =
      (resourcesOf operations).map fun r => (r, operations.filter fun o => o.resource == r) := rfl
  have hremaining : handlers.filter (fun h =>
      !((resourcesOf operations).map fun r => (r, operations.filter fun o => o.resource == r)).any
        fun r => servesResource r.1 h) = remaining operations handlers := by
    simp only [List.any_map, Function.comp_def, remaining]
  unfold workflowsOf
  rw [resourceWorkflows_eq, hclasses]
  dsimp only
  rw [hremaining, groups_eq, List.map_map]
  -- The two lists are compared entry by entry: first the resources, then the categories.
  congr 1
  · refine List.ext_getElem? fun i => ?_
    simp only [List.getElem?_mapIdx, List.getElem?_map, Option.map_map]
    cases hr : (resourcesOf operations)[i]? with
    | none => rw [Option.map_none, Option.map_none]
    | some r =>
      have hi : i < (resourcesOf operations).length := (List.getElem?_eq_some_iff.1 hr).1
      refine congrArg some (congrArg _ (List.filter_congr fun h _ => ?_))
      rw [Bool.eq_iff_iff, beq_iff_eq, beq_iff_eq, placeOf_eq_resource hi, List.findIdx?_map,
        Function.comp_def]
  · refine List.ext_getElem? fun j => ?_
    simp only [List.getElem?_mapIdx, List.getElem?_map]
    cases hc : (categoriesOf operations handlers)[j]? with
    | none => rw [Option.map_none, Option.map_none]
    | some c =>
      refine congrArg some (congrArg (categoryWorkflow edges c) ?_)
      show (remaining operations handlers).filter (·.category == c) = _
      rw [remaining, List.filter_filter]
      refine List.filter_congr fun h _ => ?_
      rw [Bool.eq_iff_iff, beq_iff_eq, placeOf_eq_category, hc, Option.some.injEq,
        Bool.and_eq_true, Bool.not_eq_true', beq_iff_eq, and_comm, eq_comm (a := c)]

/-- What the workflow at a position has: the functions with their place there, and the operations of
the resource at this position. -/
theorem parts_of_getElem? {i : Nat} {w : Flow}
    (hw : (workflowsOf operations handlers edges)[i]? = some w) :
    w.handlers = handlers.filter (fun h => placeOf operations handlers h == some i) ∧
      w.operations = operations.filter fun o =>
        (resourcesOf operations)[i]? == some o.resource := by
  rw [workflowsOf_eq, List.getElem?_append, List.length_mapIdx] at hw
  split_ifs at hw with hi
  · rw [List.getElem?_mapIdx] at hw
    obtain ⟨r, hr, rfl⟩ := Option.map_eq_some_iff.1 hw
    refine ⟨rfl, List.filter_congr fun o _ => ?_⟩
    rw [hr, Bool.eq_iff_iff, beq_iff_eq, beq_iff_eq, Option.some.injEq, eq_comm]
  · obtain ⟨j, rfl⟩ := Nat.exists_eq_add_of_le (Nat.le_of_not_lt hi)
    rw [Nat.add_sub_cancel_left, List.getElem?_mapIdx] at hw
    obtain ⟨c, hc, rfl⟩ := Option.map_eq_some_iff.1 hw
    refine ⟨rfl, (List.filter_eq_nil_iff.2 fun o _ => ?_).symm⟩
    rw [List.getElem?_eq_none (Nat.le_add_right _ _)]
    simp

/-- The operations of a workflow are those of the resource at its position. -/
theorem mem_operations_iff {i : Nat} {w : Flow} {o : Operation}
    (hw : (workflowsOf operations handlers edges)[i]? = some w) :
    o ∈ w.operations ↔ o ∈ operations ∧ (resourcesOf operations)[i]? = some o.resource := by
  rw [(parts_of_getElem? hw).2, List.mem_filter, beq_iff_eq]

/-- The workflows after those of the resources are of the categories. -/
theorem category_of_getElem? {j : Nat} {w : Flow}
    (hw : (workflowsOf operations handlers edges)[(resourcesOf operations).length + j]? = some w) :
    (categoriesOf operations handlers)[j]? = some w.category := by
  rw [workflowsOf_eq, List.getElem?_append_right (by simp), List.length_mapIdx,
    Nat.add_sub_cancel_left, List.getElem?_mapIdx] at hw
  obtain ⟨c, hc, rfl⟩ := Option.map_eq_some_iff.1 hw
  exact hc

/-- There is a workflow for each resource and one for each category. -/
theorem length_workflowsOf (operations : List Operation) (handlers : List Handler)
    (edges : List Edge) : (workflowsOf operations handlers edges).length =
      (resourcesOf operations).length + (categoriesOf operations handlers).length := by
  rw [workflowsOf_eq, List.length_append, List.length_mapIdx, List.length_mapIdx]

/-- A place is the position of a workflow. -/
theorem placeOf_lt {h : Handler} {i : Nat} (hplace : placeOf operations handlers h = some i) :
    i < (workflowsOf operations handlers edges).length := by
  rw [length_workflowsOf]
  by_cases hi : i < (resourcesOf operations).length
  · omega
  · obtain ⟨j, rfl⟩ := Nat.exists_eq_add_of_le (Nat.le_of_not_lt hi)
    obtain ⟨hj, -⟩ := List.getElem?_eq_some_iff.1 (placeOf_eq_category h |>.1 hplace).2
    omega

/-- A function that is named by an operation has its place where the first of these is. -/
theorem placeOf_eq_of_find? (handlers : List Handler) {h : Handler} {o : Operation}
    (ho : operations.find? (fun o => o.names h) = some o) :
    ∃ i, placeOf operations handlers h = some i ∧
      (resourcesOf operations)[i]? = some o.resource := by
  have hnames : (fun r => servesResource r h) ∘ Operation.resource = fun o => o.names h := by
    funext o
    rw [Function.comp_apply, Operation.names]
  have hfind : (resourcesOf operations).find? (fun r => servesResource r h) = some o.resource := by
    rw [resourcesOf, Text.find?_distinct, List.find?_map, hnames, ho, Option.map_some]
  obtain ⟨hserves, i, hi, hr, hfirst⟩ := List.find?_eq_some_iff_getElem.1 hfind
  refine ⟨i, (placeOf_eq_resource hi h).2 ?_, List.getElem?_eq_some_iff.2 ⟨hi, hr⟩⟩
  rw [List.findIdx?_eq_some_iff_getElem]
  refine ⟨hi, ?_, fun j hj => ?_⟩
  · rw [hr]
    exact hserves
  · simpa using hfirst j hj

/-- A function has no place if no operation names it, and it is of no known category or the only one
of its category that no operation names. -/
theorem placeOf_eq_none_iff {p : Nat} {h : Handler} (hp : handlers[p]? = some h) :
    placeOf operations handlers h = none ↔
      (∀ o ∈ operations, o.names h = false) ∧
        (h.category = .unknown ∨ ∀ p' h', p' ≠ p → handlers[p']? = some h' →
          (∀ o ∈ operations, o.names h' = false) → h'.category ≠ h.category) := by
  rw [placeOf_eq_none, servesNone_iff, and_congr_right_iff]
  intro hunnamed
  have hself : (h.category == h.category &&
      !(resourcesOf operations).any fun r => servesResource r h) = true := by
    rw [servesNone_iff.2 hunnamed]
    simp
  rw [mem_categoriesOf, remaining, List.countP_filter, two_le_countP_iff hp hself, not_and_or,
    not_not]
  simp only [not_exists, not_and, Bool.and_eq_true, beq_iff_eq, Bool.not_eq_true', servesNone_iff]
  refine or_congr_right ⟨fun hall p' h' hne hp' hunnamed' hsame => ?_,
    fun hall p' h' hne hp' hsame hunnamed' => ?_⟩
  · exact hall p' h' hne hp' hsame hunnamed'
  · exact hall p' h' hne hp' hunnamed' hsame

/-- An operation is in one workflow, that of its resource: the resources are different. -/
theorem existsUnique_workflow (handlers : List Handler) (edges : List Edge) {o : Operation}
    (ho : o ∈ operations) : ∃! i : Nat, ∃ w,
      (workflowsOf operations handlers edges)[i]? = some w ∧ o ∈ w.operations := by
  have hmem : o.resource ∈ resourcesOf operations :=
    Text.mem_distinct.2 (List.mem_map.2 ⟨o, ho, rfl⟩)
  obtain ⟨i, hi, hresource⟩ := List.getElem_of_mem hmem
  have hi' : (resourcesOf operations)[i]? = some o.resource :=
    List.getElem?_eq_some_iff.2 ⟨hi, hresource⟩
  obtain ⟨w, hw⟩ : ∃ w, (workflowsOf operations handlers edges)[i]? = some w :=
    ⟨_, List.getElem?_eq_getElem (by rw [length_workflowsOf]; omega)⟩
  refine ⟨i, ⟨w, hw, (mem_operations_iff hw).2 ⟨ho, hi'⟩⟩, ?_⟩
  rintro i' ⟨w', hw', ho'⟩
  have hresource' := ((mem_operations_iff hw').1 ho').2
  obtain ⟨hlt, -⟩ := List.getElem?_eq_some_iff.1 hresource'
  exact (List.getElem?_inj hlt (Text.nodup_distinct _)).1 (hresource'.trans hi'.symm)

/-- A function that no operation names has its place in a workflow of its category, if any. -/
theorem category_of_unnamed {h : Handler} {i : Nat} {w : Flow}
    (hunnamed : ∀ o ∈ operations, o.names h = false)
    (hi : placeOf operations handlers h = some i)
    (hw : (workflowsOf operations handlers edges)[i]? = some w) : w.category = h.category := by
  by_cases hlt : i < (resourcesOf operations).length
  · -- No resource is one that the function serves.
    have hnone := servesNone_iff.2 hunnamed
    rw [← List.findIdx?_isSome, (placeOf_eq_resource hlt h).1 hi] at hnone
    cases hnone
  · obtain ⟨j, rfl⟩ := Nat.exists_eq_add_of_le (Nat.le_of_not_lt hlt)
    have hsame := (category_of_getElem? hw).symm.trans ((placeOf_eq_category h).1 hi).2
    exact Option.some.inj hsame

/-- The call sequence of a workflow puts the names of its functions in some order. -/
theorem perm_callSequence {w : Flow} (hw : w ∈ workflowsOf operations handlers edges) :
    w.callSequence.Perm (Text.distinct (w.handlers.map (·.name))) := by
  obtain ⟨visited, hsequence, hsearching, -⟩ :=
    exists_searching (w.handlers.map (·.name)) (edges.map fun e => (e.caller, e.callee))
  have hperm := hsearching.perm_append_unvisited (Text.nodup_distinct _)
  rw [← hsequence] at hperm
  rw [callSequence_eq hw, sequenceOf]
  exact hperm

/-- A placement of functions, told by their positions, in workflows, together with the operations
that these have. -/
structure IsPlacement (operations : List Operation) (handlers : List Handler)
    (workflows : List Flow) (place : Nat → Option Nat) : Prop where
  /-- Every operation is in one workflow. -/
  operation_once : ∀ o ∈ operations, ∃! i : Nat, ∃ w, workflows[i]? = some w ∧ o ∈ w.operations
  /-- There it stands with the operations of its resource, in their order, and no others. -/
  operations_eq : ∀ w ∈ workflows, ∀ o ∈ w.operations,
    w.operations = operations.filter fun o' => o'.resource == o.resource
  /-- The functions of a workflow are those that have their place there, in their order. -/
  handlers_eq : ∀ i w, workflows[i]? = some w →
    w.handlers = (handlers.zipIdx.filter fun h => place h.2 == some i).map (·.1)
  /-- A place is that of a workflow. -/
  place_lt : ∀ p i, place p = some i → i < workflows.length
  /-- A function that is named by operations is in the workflow of the first of them. -/
  at_first : ∀ p h o, handlers[p]? = some h → operations.find? (fun o => o.names h) = some o →
    ∃ i w, place p = some i ∧ workflows[i]? = some w ∧ o ∈ w.operations
  /-- Any other function with a place is in a workflow of its category. -/
  by_category : ∀ p h i w, handlers[p]? = some h → (∀ o ∈ operations, o.names h = false) →
    place p = some i → workflows[i]? = some w → w.category = h.category
  /-- A function is left out if no operation names it, and it is of no known category or the only
  such function of its category. -/
  left_out_iff : ∀ p h, handlers[p]? = some h → (place p = none ↔
    (∀ o ∈ operations, o.names h = false) ∧
      (h.category = .unknown ∨ ∀ p' h', p' ≠ p → handlers[p']? = some h' →
        (∀ o ∈ operations, o.names h' = false) → h'.category ≠ h.category))
  /-- A call sequence has each name of a function of its workflow once, and no others. -/
  names_once : ∀ w ∈ workflows, w.callSequence.Nodup ∧
    ∀ name, name ∈ w.callSequence ↔ ∃ h ∈ w.handlers, h.name = name

/-- No operation and no function is in two workflows, and what is in none is told: every operation
is placed by its resource, and every function by the first resource that its file is named after, or
else by its category. -/
theorem operations_and_functions_are_placed (operations : List Operation)
    (handlers : List Handler) (edges : List Edge) :
    ∃ place, IsPlacement operations handlers (workflowsOf operations handlers edges) place := by
  -- What the lemmas say of a function holds of its position.
  have hplace : ∀ (p : Nat) (h : Handler), handlers[p]? = some h →
      handlers[p]?.bind (placeOf operations handlers) = placeOf operations handlers h := by
    intro p h hp
    rw [hp, Option.bind_some]
  refine ⟨fun p => handlers[p]?.bind (placeOf operations handlers), ?_⟩
  constructor
  case operation_once => exact fun o ho => existsUnique_workflow handlers edges ho
  case operations_eq =>
    intro w hw o ho
    obtain ⟨i, hi⟩ := List.mem_iff_getElem?.1 hw
    rw [(parts_of_getElem? hi).2]
    refine List.filter_congr fun o' _ => ?_
    rw [((mem_operations_iff hi).1 ho).2, Bool.eq_iff_iff, beq_iff_eq, beq_iff_eq,
      Option.some.injEq, eq_comm]
  case handlers_eq =>
    intro i w hw
    rw [(parts_of_getElem? hw).1]
    refine (map_fst_filter_zipIdx (fun p =>
      handlers[p]?.bind (placeOf operations handlers) == some i) fun p h hp => ?_).symm
    rw [hplace p h hp]
  case place_lt =>
    intro p i hp
    obtain ⟨h, -, hh⟩ := Option.bind_eq_some_iff.1 hp
    exact placeOf_lt hh
  case at_first =>
    intro p h o hp ho
    obtain ⟨i, hi, hresource⟩ := placeOf_eq_of_find? handlers ho
    obtain ⟨w, hw⟩ : ∃ w, (workflowsOf operations handlers edges)[i]? = some w :=
      ⟨_, List.getElem?_eq_getElem (placeOf_lt hi)⟩
    exact ⟨i, w, (hplace p h hp).trans hi, hw,
      (mem_operations_iff hw).2 ⟨List.mem_of_find?_eq_some ho, hresource⟩⟩
  case by_category =>
    intro p h i w hp hunnamed hi hw
    rw [hplace p h hp] at hi
    exact category_of_unnamed hunnamed hi hw
  case left_out_iff =>
    intro p h hp
    rw [hplace p h hp]
    exact placeOf_eq_none_iff hp
  case names_once =>
    intro w hw
    have hperm := perm_callSequence hw
    refine ⟨hperm.nodup_iff.2 (Text.nodup_distinct _), fun name => ?_⟩
    rw [hperm.mem_iff, Text.mem_distinct, List.mem_map]

end CodeSurvey.Workflow
