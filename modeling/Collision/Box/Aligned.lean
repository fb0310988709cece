import Collision.Box.Oriented

/-!
# Aligned boxes

Boxes along the coordinate axes, by which candidate pairs are found.

Main definitions.

* `AlignedBox` is a box by its least and its largest corner, in no checked order.
* `AlignedBox.overlaps` counts touching as overlapping: a candidate too many does no harm.
* `AlignedBox.ofOriented` is the box around a placed oriented box.
-/

set_option autoImplicit false
set_option relaxedAutoImplicit false

namespace Collision

/-- A box along the coordinate axes. -/
structure AlignedBox (α : Type) where
  lo : Vec3 α
  hi : Vec3 α
  deriving Inhabited

namespace AlignedBox

variable {α : Type} [Scalar α]

/-- The box of a centre and half lengths. -/
def ofCenter (center half : Vec3 α) : AlignedBox α := ⟨center - half, center + half⟩

/-- The box around a placed oriented box. -/
def ofOriented (b : OrientedBox α) (pose : Pose α) : AlignedBox α :=
  let world := b.placed pose
  ofCenter world.center ((world.axes.mapCols Vec3.abs).mulVec world.half)

/-- The boxes overlap or touch on an axis. -/
def overlapsOn (a b : AlignedBox α) (i : Fin 3) : Bool :=
  decide (a.lo.get i ≤ b.hi.get i) && decide (b.lo.get i ≤ a.hi.get i)

/-- The boxes overlap or touch on all axes. -/
def overlaps (a b : AlignedBox α) : Bool := [0, 1, 2].all (a.overlapsOn b)

/-- The box grown by a margin on all sides. -/
def expanded (b : AlignedBox α) (margin : α) : AlignedBox α :=
  ⟨b.lo - Vec3.replicate margin, b.hi + Vec3.replicate margin⟩

/-- The centre. -/
def center (b : AlignedBox α) : Vec3 α := b.lo.midpoint b.hi

/-- The length along an axis. -/
def extent (b : AlignedBox α) (i : Fin 3) : α := b.hi.get i - b.lo.get i

end AlignedBox

end Collision
