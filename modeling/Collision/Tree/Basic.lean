import Collision.Shape.Basic

/-!
# Box trees

A box tree holds parts at its leaves and, above any two trees, a box around the parts of both. Its
nodes are numbered by their place in a row of all nodes, in which children stand before their
parent.

Main definitions.

* `BoxTree` is the tree, `TreeLeaf` what stands at a leaf.
* `BoxTree.subtrees` lists the trees of all nodes and `BoxTree.row` lists them by place.
* `BoxTree.size`, `BoxTree.leafCount`, `BoxTree.innerCount`, `BoxTree.depth` are its measures.
* `BoxTree.reference` is the point by which a tree counts as near to another one.
-/

set_option autoImplicit false
set_option relaxedAutoImplicit false

namespace Collision

/-- A part with its box and its place. -/
structure TreeLeaf (α : Type) where
  place : Nat
  box : OrientedBox α
  part : Part α

/-- A binary tree of boxes over parts. -/
inductive BoxTree (α : Type) where
  | leaf (leaf : TreeLeaf α)
  | node (place : Nat) (box : OrientedBox α) (left right : BoxTree α)

namespace BoxTree

variable {α : Type}

/-- The box of the root. -/
def box : BoxTree α → OrientedBox α
  | leaf l => l.box
  | node _ box _ _ => box

/-- The place of the root. -/
def place : BoxTree α → Nat
  | leaf l => l.place
  | node place _ _ _ => place

/-- The leaves from left to right. -/
def leaves : BoxTree α → List (TreeLeaf α)
  | leaf l => [l]
  | node _ _ left right => left.leaves ++ right.leaves

/-- The trees of all nodes, a parent before its children. -/
def subtrees : BoxTree α → List (BoxTree α)
  | leaf l => [leaf l]
  | node place box left right => node place box left right :: (left.subtrees ++ right.subtrees)

/-- The trees of all nodes by place. -/
def row (t : BoxTree α) : List (BoxTree α) :=
  t.subtrees.mergeSort fun a b => decide (a.place ≤ b.place)

/-- The number of nodes. -/
def size : BoxTree α → Nat
  | leaf _ => 1
  | node _ _ left right => left.size + right.size + 1

/-- The number of leaves. -/
def leafCount : BoxTree α → Nat
  | leaf _ => 1
  | node _ _ left right => left.leafCount + right.leafCount

/-- The number of nodes that are not leaves. -/
def innerCount : BoxTree α → Nat
  | leaf _ => 0
  | node _ _ left right => left.innerCount + right.innerCount + 1

/-- The number of steps from the root to the farthest leaf. -/
def depth : BoxTree α → Nat
  | leaf _ => 0
  | node _ _ left right => Nat.max left.depth right.depth + 1

/-- The tree with every place moved on. -/
def shift (distance : Nat) : BoxTree α → BoxTree α
  | leaf l => leaf { l with place := l.place + distance }
  | node place box left right =>
    node (place + distance) box (left.shift distance) (right.shift distance)

/-- A tree has a node. -/
theorem size_pos (t : BoxTree α) : 0 < t.size := by cases t <;> simp [size]

/-- The trees of all nodes are as many as the nodes. -/
theorem length_subtrees (t : BoxTree α) : t.subtrees.length = t.size := by
  induction t with
  | leaf l => rfl
  | node place box left right ihLeft ihRight => simp [subtrees, size, ihLeft, ihRight]

/-- One node fewer than twice the leaves. -/
theorem size_add_one (t : BoxTree α) : t.size + 1 = 2 * t.leafCount := by
  induction t with
  | leaf l => rfl
  | node place box left right ihLeft ihRight => simp only [size, leafCount]; omega

variable [Scalar α]

/-- The point by which a tree counts as near: an interior point of a part, the centre of a box. -/
def reference : BoxTree α → Vec3 α
  | leaf l => l.part.center Pose.identity
  | node _ box _ _ => box.center

/-- The tree of one part. -/
def single (place : Nat) (part : Part α) : BoxTree α := leaf ⟨place, part.localBox, part⟩

end BoxTree

end Collision
