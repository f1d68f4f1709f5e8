import GoFront.Tree.Basic

/-!
# Typed nodes

A typed node is a node whose kind is known. The parts of typed nodes are found by kind, so an accessor
never fails on a tree with errors: it finds nothing.
-/

namespace GoFront

/-- A node of a known kind. -/
structure Typed (k : Kind) where
  /-- The node. -/
  node : Node
  /-- It has the kind. -/
  kind_eq : node.kind = k

namespace Node

/-- A node as one of a known kind. -/
def as? (n : Node) (k : Kind) : Option (Typed k) := if h : n.kind = k then some ⟨n, h⟩ else none

/-- A node can be taken as one of a kind exactly if it has that kind. -/
theorem isSome_as? (n : Node) (k : Kind) : (n.as? k).isSome = decide (n.kind = k) := by
  unfold as?
  split <;> simp_all

/-- The first child of a kind, typed. -/
def child? (n : Node) (k : Kind) : Option (Typed k) := n.nodes.findSome? (·.as? k)

/-- The children of a kind, typed. -/
def typedChildren (n : Node) (k : Kind) : List (Typed k) := n.nodes.filterMap (·.as? k)

/-- The first child token that is neither blank nor comment. -/
def firstSignificant? (n : Node) : Option Leaf := n.tokens.find? (fun l => !l.kind.isTrivia)

end Node

end GoFront
