import Collision.Shape.Basic

/-!
# Placed shapes

`Placed` is a shape with the pose at which it stands. `Placed.rebase` trades the offset of a shape
for a composed pose, so that what remains is a primitive or a surface; `Placed.supportPoint` and
`Placed.center` are the points that pair tests ask for.
-/

set_option autoImplicit false
set_option relaxedAutoImplicit false

namespace Collision

/-- A shape where it stands. -/
structure Placed (α : Type) [Scalar α] where
  shape : Shape α
  pose : Pose α

namespace Placed

variable {α : Type} [Scalar α]

/-- A primitive where it stands. -/
def ofPrimitive (p : Primitive α) (pose : Pose α) : Placed α := ⟨.primitive p, pose⟩

/-- The same body without an offset. -/
def rebase (body : Placed α) : Placed α :=
  match body.shape with
  | .part part => ofPrimitive part.primitive (part.rebase body.pose)
  | .mesh _ | .heightField _ => body

/-- What the shape is. -/
def kind (body : Placed α) : ShapeKind := body.shape.kind

/-- The parts of a surface, each where it stands; none for other shapes. -/
def surfaceParts? (body : Placed α) : Option (List (Placed α)) :=
  body.shape.surface?.map fun m =>
    m.triangles.map fun t => ofPrimitive (.meshTriangle t) body.pose

/-- A point farthest along a direction; the position of a shape that has none. -/
def supportPoint (body : Placed α) (direction : Vec3 α) : Vec3 α :=
  (body.shape.supportAt? body.pose direction).getD body.pose.position

/-- An interior point. -/
def center (body : Placed α) : Vec3 α := body.shape.center body.pose

/-- The corners of a triangle where they stand. -/
def triangle? (body : Placed α) : Option (Triangle α) :=
  body.shape.triangle?.map fun t => t.placed body.pose

end Placed

end Collision
