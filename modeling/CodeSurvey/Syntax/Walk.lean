import CodeSurvey.Syntax.Node

/-!
# Walking a syntax tree

The nodes of a tree in the order of their first tokens, a node before its parts. `Place.collect`
is the loop that finds them, over a list of pending places; `Place.preorder` says recursively
which places a walk meets, and in which order.
-/

namespace CodeSurvey.Syntax

/-- A node together with the kinds of the nodes above it, the nearest first. -/
structure Place where
  node : Node
  above : List Kind

namespace Place

/-- The places of the parts of a node. -/
def below (p : Place) : List Place :=
  p.node.children.map fun c => ⟨c, p.node.kind :: p.above⟩

/-- The number of nodes under the places of a list. -/
def pendingSize (ps : List Place) : Nat :=
  Node.size.sizes (ps.map Place.node)

/-- The nodes of several trees are those of some and those of the others. -/
theorem sizes_append (xs ys : List Node) :
    Node.size.sizes (xs ++ ys) = Node.size.sizes xs + Node.size.sizes ys := by
  induction xs with
  | nil => simp [Node.size.sizes]
  | cons x xs ih => simp [Node.size.sizes, ih, Nat.add_assoc]

/-- Replacing a place by the places below it leaves fewer nodes. -/
theorem pendingSize_below_lt (p : Place) (ps : List Place) :
    pendingSize (p.below ++ ps) < pendingSize (p :: ps) := by
  have h : (p.below.map Place.node) = p.node.children := by
    simp [below, Function.comp_def]
  simp only [pendingSize, List.map_append, List.map_cons, sizes_append, h, Node.size.sizes]
  cases p.node <;> simp [Node.children, Node.size, Node.size.sizes]

/-- The places with a wanted kind under the pending ones, in order, after those found already
(which are held in reverse). -/
def collect (wanted : Kind → Bool) (found : List Place) : List Place → List Place
  | [] => found.reverse
  | p :: pending =>
    collect wanted (if wanted p.node.kind then p :: found else found) (p.below ++ pending)
termination_by pending => pendingSize pending
decreasing_by exact pendingSize_below_lt p pending

/-- All places of a tree: the node itself, then the places of its parts from left to right. -/
def preorder (above : List Kind) : Node → List Place
  | .leaf r k g t l => [⟨.leaf r k g t l, above⟩]
  | .branch r k cs => ⟨.branch r k cs, above⟩ :: preorderAll (k :: above) cs
where
  preorderAll (above : List Kind) : List Node → List Place
    | [] => []
    | n :: ns => preorder above n ++ preorderAll above ns

end Place

/-- The places of a tree whose kind is wanted, in the order of a walk. -/
def Node.places (root : Node) (wanted : Kind → Bool) : List Place :=
  Place.collect wanted [] [⟨root, []⟩]

/-- The nodes of a tree whose kind is wanted, in the order of a walk. -/
def Node.select (root : Node) (wanted : Kind → Bool) : List Node :=
  (root.places wanted).map Place.node

end CodeSurvey.Syntax
