import CodeSurvey.Syntax.Walk
import Mathlib.Data.List.Basic
import Mathlib.Data.List.Induction
import Mathlib.Tactic.Common

/-!
# The loop and the recursion

The loop over pending places finds the wanted ones among the places below each pending place
(`collect_eq`), since it puts the places below a node before all others that are pending. So the
nodes that are selected from a tree are those of its preorder (`select_eq`).

Written with a stack, a turn of the loop takes the last node and puts its parts on the stack in
reverse (`Iterates`). What it gives is told by the preorders of the pending nodes, the last one
first, and it takes as many turns as there are nodes in them (`iterates_iff`), so that from a single
root it comes to an end with the nodes that are selected (`select_is_preorder`).

Two nodes of a tree may look alike. They are told apart by their addresses, the indices of the parts
on the way down. The preorder has the nodes in the order of their addresses
(`map_at?_addresses`, `pairwise_addresses`), each once.
-/

namespace CodeSurvey.Syntax

/-! ## Places -/

namespace Place

/-- The preorders of several nodes under one are those of their places. -/
theorem preorderAll_eq (above : List Kind) (ns : List Node) :
    preorder.preorderAll above ns =
      (ns.map fun n => Place.mk n above).flatMap fun p => preorder p.above p.node := by
  induction ns with
  | nil => rfl
  | cons n ns ih => rw [preorder.preorderAll, ih, List.map_cons, List.flatMap_cons]

/-- The preorder of a place is the place itself and then the preorders of those below it. -/
theorem preorder_eq (p : Place) :
    preorder p.above p.node = p :: p.below.flatMap fun q => preorder q.above q.node := by
  obtain ⟨node, above⟩ := p
  cases node with
  | leaf role kind gap text line => rfl
  | branch role kind children => exact congrArg _ (preorderAll_eq _ _)

/-- The loop finds what is wanted in the preorders of the pending places, behind what was found
before. -/
theorem collect_eq (wanted : Kind → Bool) (found pending : List Place) :
    collect wanted found pending = found.reverse ++
      (pending.flatMap fun p => preorder p.above p.node).filter fun p => wanted p.node.kind := by
  induction found, pending using collect.induct wanted with
  | case1 found => rw [collect, List.flatMap_nil, List.filter_nil, List.append_nil]
  | case2 found p pending ih =>
    -- The places below are pending before all others, as the preorder has them.
    simp only [dite_eq_ite] at ih
    rw [collect, ih, List.flatMap_append, List.flatMap_cons, preorder_eq p]
    cases hwanted : wanted p.node.kind with
    | true => simp [hwanted]
    | false => simp [hwanted]

end Place

/-- The places of a tree that a walk finds are the wanted ones of its preorder. -/
theorem Node.places_eq (root : Node) (wanted : Kind → Bool) :
    root.places wanted = (Place.preorder [] root).filter fun p => wanted p.node.kind := by
  rw [Node.places, Place.collect_eq, List.reverse_nil, List.nil_append, List.flatMap_singleton]

/-- The nodes that are selected from a tree are the wanted ones of its preorder. -/
theorem Node.select_eq (root : Node) (wanted : Kind → Bool) :
    root.select wanted =
      ((Place.preorder [] root).filter fun p => wanted p.node.kind).map Place.node := by
  rw [Node.select, Node.places_eq]

namespace Node

/-! ## Nodes -/

/-- The nodes of a tree: the node itself, then the nodes of its parts from left to right. -/
def preorder : Node → List Node
  | leaf r k g t l => [leaf r k g t l]
  | branch r k cs => branch r k cs :: preorderAll cs
where
  preorderAll : List Node → List Node
    | [] => []
    | n :: ns => n.preorder ++ preorderAll ns

/-- The preorder of several nodes is that of each, one after the other. -/
theorem preorderAll_eq (ns : List Node) : preorder.preorderAll ns = ns.flatMap preorder := by
  induction ns with
  | nil => rfl
  | cons n ns ih => rw [preorder.preorderAll, ih, List.flatMap_cons]

/-- The preorder of a node is the node itself and then the preorders of its parts. -/
theorem preorder_eq (n : Node) : n.preorder = n :: n.children.flatMap preorder := by
  cases n with
  | leaf role kind gap text line => rfl
  | branch role kind parts => rw [preorder, preorderAll_eq, children]

/-- Which kinds stand above a place makes no difference to the nodes of its preorder. -/
theorem map_node_preorder (above : List Kind) (n : Node) :
    (Place.preorder above n).map Place.node = n.preorder := by
  induction above, n using Place.preorder.induct
    (motive_1 := fun above ns => (Place.preorder.preorderAll above ns).map Place.node =
      preorder.preorderAll ns) with
  | case1 above role kind gap text line => rfl
  | case2 above role kind parts ih => rw [Place.preorder, List.map_cons, ih, preorder]
  | case3 above => rfl
  | case4 above n ns ih ihs =>
    rw [Place.preorder.preorderAll, List.map_append, ih, ihs, preorder.preorderAll]

/-- The nodes that are selected are the wanted ones of the preorder. -/
theorem select_eq_filter (root : Node) (wanted : Kind → Bool) :
    root.select wanted = root.preorder.filter fun n => wanted n.kind := by
  rw [select_eq, ← map_node_preorder [], List.filter_map, Function.comp_def]

/-- The preorder is as long as the tree has nodes. -/
theorem length_preorder (n : Node) : n.preorder.length = n.size := by
  induction n using preorder.induct
    (motive_1 := fun ns => (preorder.preorderAll ns).length = size.sizes ns) with
  | case1 role kind gap text line => rfl
  | case2 role kind parts ih => rw [preorder, List.length_cons, ih, size]
  | case3 => rfl
  | case4 n ns ih ihs => rw [preorder.preorderAll, List.length_append, ih, ihs, size.sizes]

/-! ## Addresses -/

/-- The node at an address: the indices of the parts on the way down. -/
def at? : Node → List Nat → Option Node
  | n, [] => some n
  | n, i :: rest => n.children[i]?.bind fun c => c.at? rest

/-- The addresses of the nodes of a tree, in the order of `preorder`. -/
def addresses : Node → List (List Nat)
  | leaf .. => [[]]
  | branch _ _ cs => [] :: addressesFrom 0 cs
where
  /-- The addresses below a node, from the part with the given index on. -/
  addressesFrom (i : Nat) : List Node → List (List Nat)
    | [] => []
    | n :: ns => n.addresses.map (i :: ·) ++ addressesFrom (i + 1) ns

/-- The addresses below a node go through the parts from the given one on. -/
theorem mem_addressesFrom {i : Nat} {ns : List Node} {address : List Nat} :
    address ∈ addresses.addressesFrom i ns ↔
      ∃ j n rest, ns[j]? = some n ∧ rest ∈ n.addresses ∧ address = (i + j) :: rest := by
  induction ns generalizing i with
  | nil => simp [addresses.addressesFrom]
  | cons n ns ih =>
    rw [addresses.addressesFrom, List.mem_append, ih, List.mem_map]
    constructor
    · rintro (⟨rest, hrest, rfl⟩ | ⟨j, m, rest, hm, hrest, rfl⟩)
      · exact ⟨0, n, rest, rfl, hrest, rfl⟩
      · exact ⟨j + 1, m, rest, hm, hrest, by rw [Nat.add_right_comm, Nat.add_assoc]⟩
    · rintro ⟨j, m, rest, hm, hrest, rfl⟩
      cases j with
      | zero =>
        obtain rfl := Option.some.inj hm
        exact .inl ⟨rest, hrest, rfl⟩
      | succ j => exact .inr ⟨j, m, rest, hm, hrest, by rw [Nat.add_right_comm, Nat.add_assoc]⟩

/-- The address of a node itself is empty; every other one goes through a part. -/
theorem addresses_eq (n : Node) :
    n.addresses = [] :: addresses.addressesFrom 0 n.children := by
  cases n <;> rfl

/-- The addresses are those at which there is a node. -/
theorem mem_addresses {n : Node} {address : List Nat} :
    address ∈ n.addresses ↔ (n.at? address).isSome = true := by
  induction address generalizing n with
  | nil => simp [addresses_eq, at?]
  | cons i rest ih =>
    rw [addresses_eq, List.mem_cons, or_iff_right (List.cons_ne_nil _ _), mem_addressesFrom, at?]
    constructor
    · rintro ⟨j, c, rest', hc, hrest, heq⟩
      obtain ⟨rfl, rfl⟩ := List.cons.inj heq
      rw [Nat.zero_add, hc, Option.bind_some]
      exact ih.1 hrest
    · intro h
      obtain ⟨c, hc⟩ := Option.isSome_iff_exists.1 (Option.isSome_of_isSome_bind h)
      rw [hc, Option.bind_some] at h
      exact ⟨i, c, rest, hc, ih.2 h, by rw [Nat.zero_add]⟩

/-- The nodes at the addresses are those of the preorder. -/
theorem map_at?_addresses (n : Node) : n.addresses.map n.at? = n.preorder.map some := by
  induction n using preorder.induct
    (motive_1 := fun ns => ∀ (root : Node) (i : Nat), root.children.drop i = ns →
      (addresses.addressesFrom i ns).map root.at? = (preorder.preorderAll ns).map some) with
  | case1 role kind gap text line => rfl
  | case2 role kind parts ih =>
    rw [addresses, preorder, List.map_cons, List.map_cons, ih (branch role kind parts) 0 rfl, at?]
  | case3 root i hns => rfl
  | case4 n ns ih ihs root i hns =>
    -- The remaining parts stand in the node from their own index on.
    have hpart : root.children[i]? = some n := by
      rw [← List.head?_drop, hns, List.head?_cons]
    have hnext : root.children.drop (i + 1) = ns := by
      rw [← List.tail_drop, hns, List.tail_cons]
    have hbelow : root.at? ∘ (i :: ·) = n.at? := by
      funext rest
      rw [Function.comp_apply, at?, hpart, Option.bind_some]
    rw [addresses.addressesFrom, preorder.preorderAll, List.map_append, List.map_append,
      List.map_map, hbelow, ih, ihs root (i + 1) hnext]

/-- A node stands before those below it, and what is below one part before what is below the
next. -/
theorem pairwise_addresses (n : Node) : n.addresses.Pairwise (· < ·) := by
  induction n using addresses.induct
    (motive_1 := fun i ns => (addresses.addressesFrom i ns).Pairwise (· < ·)) with
  | case1 role kind gap text line => exact List.pairwise_singleton _ _
  | case2 role kind parts ih =>
    refine List.pairwise_cons.2 ⟨fun address h => ?_, ih⟩
    obtain ⟨j, c, rest, -, -, rfl⟩ := mem_addressesFrom.1 h
    exact List.nil_lt_cons _ _
  | case3 i => exact List.Pairwise.nil
  | case4 i n ns ih ihs =>
    -- Below one part the rest of the addresses decides, between two parts the first index does.
    refine List.pairwise_append.2 ⟨?_, ihs, fun address h address' h' => ?_⟩
    · exact ih.map _ fun _ _ hlt => List.cons_lt_cons_iff.2 (.inr ⟨rfl, hlt⟩)
    · obtain ⟨rest, -, rfl⟩ := List.mem_map.1 h
      obtain ⟨j, c, rest', -, -, rfl⟩ := mem_addressesFrom.1 h'
      exact List.cons_lt_cons_iff.2 (.inl (by omega))

end Node

/-! ## The loop with a stack -/

variable {wanted : Kind → Bool} {stack : List Node} {turns : Nat} {found : List Node}

/-- The loop over a stack of pending nodes, the next one last: after as many turns as are counted it
has given the nodes found. A turn takes a node, gives it if its kind is wanted, and puts its parts
on the stack in reverse. -/
inductive Iterates (wanted : Kind → Bool) : Nat → List Node → List Node → Prop
  | done : Iterates wanted 0 [] []
  | turn {turns : Nat} {stack found : List Node} {n : Node}
      (hrest : Iterates wanted turns (stack ++ n.children.reverse) found) :
      Iterates wanted (turns + 1) (stack ++ [n])
        (if wanted n.kind then n :: found else found)

/-- The nodes that a loop meets: the preorders of the pending nodes, the last one first. -/
def ahead (stack : List Node) : List Node := stack.reverse.flatMap Node.preorder

/-- A turn meets the node that it takes, and leaves the nodes below it ahead. -/
theorem ahead_concat (stack : List Node) (n : Node) :
    ahead (stack ++ [n]) = n :: ahead (stack ++ n.children.reverse) := by
  rw [ahead, ahead, List.reverse_concat, List.flatMap_cons, Node.preorder_eq, List.reverse_append,
    List.reverse_reverse, List.flatMap_append, List.cons_append]

/-- What a turn gives stands before what is given after it. -/
theorem filter_ahead_concat (wanted : Kind → Bool) (stack : List Node) (n : Node) :
    (ahead (stack ++ [n])).filter (fun m => wanted m.kind) =
      if wanted n.kind then n :: (ahead (stack ++ n.children.reverse)).filter fun m => wanted m.kind
      else (ahead (stack ++ n.children.reverse)).filter fun m => wanted m.kind := by
  rw [ahead_concat, List.filter_cons]

/-- A loop that comes to an end has met what was ahead. -/
theorem Iterates.spec (h : Iterates wanted turns stack found) :
    turns = (ahead stack).length ∧ found = (ahead stack).filter fun n => wanted n.kind := by
  induction h with
  | done => exact ⟨rfl, rfl⟩
  | @turn turns stack found n _ ih =>
    obtain ⟨rfl, rfl⟩ := ih
    exact ⟨by rw [ahead_concat, List.length_cons], (filter_ahead_concat wanted stack n).symm⟩

/-- Every loop comes to an end. -/
theorem iterates_ahead (wanted : Kind → Bool) (stack : List Node) :
    Iterates wanted (ahead stack).length stack
      ((ahead stack).filter fun n => wanted n.kind) := by
  -- Every turn leaves one node less ahead.
  induction hahead : (ahead stack).length generalizing stack with
  | zero =>
    cases stack using List.reverseRecOn with
    | nil => exact .done
    | append_singleton stack n =>
      rw [ahead_concat] at hahead
      cases hahead
  | succ turns ih =>
    cases stack using List.reverseRecOn with
    | nil => cases hahead
    | append_singleton stack n =>
      rw [ahead_concat, List.length_cons, Nat.succ_inj] at hahead
      rw [filter_ahead_concat]
      exact .turn (ih _ hahead)

/-- The loop comes to an end with the wanted nodes ahead, after as many turns as there are nodes
ahead, and in no other way. -/
theorem iterates_iff :
    Iterates wanted turns stack found ↔
      turns = (ahead stack).length ∧ found = (ahead stack).filter fun n => wanted n.kind := by
  refine ⟨Iterates.spec, ?_⟩
  rintro ⟨rfl, rfl⟩
  exact iterates_ahead wanted stack

/-- Ahead of a single root is its preorder. -/
theorem ahead_singleton (root : Node) : ahead [root] = root.preorder := by
  rw [ahead, List.reverse_singleton, List.flatMap_singleton]

namespace Node

/-- The nodes that are selected from a tree stand at the addresses of the wanted nodes, each once
and in the order of the addresses. -/
theorem exists_addresses (root : Node) (wanted : Kind → Bool) :
    ∃ chosen : List (List Nat), chosen.Pairwise (· < ·) ∧
      (∀ address, address ∈ chosen ↔ ∃ n, root.at? address = some n ∧ wanted n.kind = true) ∧
      chosen.map root.at? = (root.select wanted).map some := by
  refine ⟨root.addresses.filter fun address => (root.at? address).any (wanted ·.kind),
    root.pairwise_addresses.filter _, fun address => ?_, ?_⟩
  · rw [List.mem_filter, mem_addresses, Option.any_eq_true]
    refine and_iff_right_of_imp ?_
    rintro ⟨n, hn, -⟩
    rw [hn, Option.isSome_some]
  · calc (root.addresses.filter fun address => (root.at? address).any (wanted ·.kind)).map root.at?
        = (root.addresses.map root.at?).filter fun n => n.any (wanted ·.kind) := by
          rw [List.filter_map, Function.comp_def]
      _ = (root.preorder.map some).filter fun n => n.any (wanted ·.kind) := by
          rw [map_at?_addresses]
      _ = (root.preorder.filter fun n => wanted n.kind).map some := by
          rw [List.filter_map, Function.comp_def]
          rfl
      _ = (root.select wanted).map some := by rw [select_eq_filter]

/-- The loop over a stack that holds a tree comes to an end after as many turns as the tree has
nodes, and in no other way; what it gives, and what is selected, are the wanted nodes of the
preorder, each at its address once and in the order of addresses: the root, if wanted, and then what
is selected from each of its parts. -/
theorem select_is_preorder (root : Node) (wanted : Kind → Bool) :
    (∀ turns found, Iterates wanted turns [root] found ↔
      turns = root.size ∧ found = root.select wanted) ∧
    root.select wanted = (root.preorder.filter fun n => wanted n.kind) ∧
    (∃ chosen : List (List Nat), chosen.Pairwise (· < ·) ∧
      (∀ address, address ∈ chosen ↔ ∃ n, root.at? address = some n ∧ wanted n.kind = true) ∧
      chosen.map root.at? = (root.select wanted).map some) ∧
    root.select wanted =
      (if wanted root.kind then [root] else []) ++ root.children.flatMap (·.select wanted) := by
  refine ⟨fun turns found => ?_, select_eq_filter root wanted, exists_addresses root wanted, ?_⟩
  · rw [iterates_iff, ahead_singleton, length_preorder, select_eq_filter]
  · have hparts : (root.children.flatMap preorder).filter (fun n => wanted n.kind) =
        root.children.flatMap (·.select wanted) := by
      rw [List.filter_flatMap]
      exact List.flatMap_congr fun n _ => (select_eq_filter n wanted).symm
    rw [select_eq_filter, preorder_eq, List.filter_cons, hparts]
    cases wanted root.kind with
    | true => rfl
    | false => rfl

example : (branch none .program [branch none .block [leaf none .mark "" ";" 1],
    leaf none .comment "" "//" 1]).addresses = [[], [0], [0, 0], [1]] := rfl

end Node

end CodeSurvey.Syntax
