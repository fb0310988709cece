import Collision.Box.Aligned
import Collision.Pair.Tester
import Collision.Tree.Build
import Collision.Tree.Overlap

/-!
# Geoms

A geom is a rigid group of shapes with one pose. Its box tree is that of its last build: shapes
added since are not tested, while moves count at once.

Main definitions.

* `Geom` with its edits, `Geom.add`, `Geom.addAt?` and the setters of pose, position and rotation.
* `Geom.build` makes the tree, `Geom.worldBox?` is the box around it where it stands.
* `Geom.collide` and `Geom.separate` test the leaves of two geoms against each other.
-/

set_option autoImplicit false
set_option relaxedAutoImplicit false

namespace Collision

/-- A rigid group of shapes. -/
structure Geom (α : Type) [Scalar α] where
  pose : Pose α
  shapes : List (Shape α)
  /-- The tree of the last build; there is none over no shapes. -/
  tree? : Option (BoxTree α)
  /-- Shapes were added since the last build. -/
  stale : Bool
  /-- The number of contacts to remember of a pair. -/
  remembered : Nat

namespace Geom

variable {α : Type} [Scalar α]

/-- A geom without shapes. -/
def atPose (pose : Pose α) : Geom α :=
  { pose, shapes := [], tree? := none, stale := false, remembered := 0 }

/-! ### Edits -/

/-- Add a shape in the frame of the geom. -/
def add (g : Geom α) (s : Shape α) : Geom α := { g with shapes := g.shapes ++ [s], stale := true }

/-- Add a shape moved inside the frame of the geom. -/
def addAt? (g : Geom α) (s : Shape α) (pose : Pose α) : Except (Error α) (Geom α) :=
  return g.add (← s.placedAt? pose)

/-- Put the geom at a pose. -/
def setPose (g : Geom α) (pose : Pose α) : Geom α := { g with pose }

/-- Move the geom and keep its rotation. -/
def setPosition (g : Geom α) (position : Vec3 α) : Geom α :=
  g.setPose { g.pose with position }

/-- Turn the geom and keep its position. -/
def setRotation (g : Geom α) (rotation : Rotation α) : Geom α :=
  g.setPose { g.pose with rotation }

/-- Turn the geom by roll, pitch and yaw and keep its position. -/
def setEuler (g : Geom α) (roll pitch yaw : α) : Geom α :=
  g.setRotation (Rotation.ofEuler roll pitch yaw)

/-- Ask for a number of contacts to be remembered of a pair. -/
def setRemembered (g : Geom α) (count : Nat) : Geom α := { g with remembered := count }

/-! ### Tree -/

/-- Build the tree around the shapes. -/
def build (g : Geom α) (config : BuildConfig) : Geom α :=
  { g with tree? := BoxTree.build? config (g.shapes.flatMap Shape.parts), stale := false }

/-- Build the tree if shapes were added. -/
def rebuildIfStale (g : Geom α) (config : BuildConfig) : Geom α :=
  if g.stale then g.build config else g

/-- The box around the tree where it stands. -/
def worldBox? (g : Geom α) : Option (AlignedBox α) :=
  g.tree?.map fun t => AlignedBox.ofOriented t.box g.pose

/-! ### Queries -/

/-- A leaf of the geom where it stands. -/
def placedLeaf (g : Geom α) (l : TreeLeaf α) : Placed α := ⟨.part l.part, g.pose⟩

/-- The pairs of leaves of two geoms whose boxes are not found disjoint. -/
def overlaps (g other : Geom α) : List (TreeLeaf α × TreeLeaf α) :=
  match g.tree?, other.tree? with
  | some t, some u => t.overlaps g.pose u other.pose
  | _, _ => []

/-- A leaf of one geom overlaps a leaf of the other; the search ends with the first such pair. -/
def collide (g other : Geom α) (tester : PairTester α) : Bool :=
  match g.tree?, other.tree? with
  | some t, some u =>
    (t.visitOverlaps
      (fun _ pair => ((), tester.collide (g.placedLeaf pair.1) (other.placedLeaf pair.2)))
      () g.pose u other.pose).2
  | _, _ => false

/-- The contacts of the leaves of two geoms, from the first geom towards the second, as many as the
settings allow. -/
def separate (g other : Geom α) (tester : PairTester α) : Contacts α :=
  Contacts.limit tester.config.contacts ((g.overlaps other).flatMap fun pair =>
    tester.separate (g.placedLeaf pair.1) (other.placedLeaf pair.2))

end Geom

end Collision
