import Collision.Box.Corners
import Collision.Space.Interval

/-!
# Separating axes

Boxes and triangles overlap unless some axis separates them, and it is enough to try the normals of
their faces and the products of their edges. Intervals that only touch are separate.

Main definitions.

* `Polytope` is a body by its corners, the normals of its faces and the directions of its edges,
  with `Polytope.box` and `Polytope.triangle`.
* `Polytope.separatedBy` tries one axis, `Polytope.overlap` all of them.
* `Polytope.separatedByFaces` tries the face normals alone.
-/

set_option autoImplicit false
set_option relaxedAutoImplicit false

namespace Collision

/-- A convex body with flat faces. -/
structure Polytope (α : Type) where
  corners : List (Vec3 α)
  /-- The normals of the faces. -/
  faces : List (Vec3 α)
  /-- The directions of the edges. -/
  edges : List (Vec3 α)

namespace Polytope

variable {α : Type} [Scalar α]

/-- A placed box. -/
def box (half : Vec3 α) (pose : Pose α) : Polytope α :=
  let axes := [pose.axis 0, pose.axis 1, pose.axis 2]
  { corners := (BoxCorners.all half).map pose.transformPoint, faces := axes, edges := axes }

/-- A triangle where it stands. -/
def triangle (t : Triangle α) : Polytope α :=
  { corners := t.corners, faces := [t.faceAxis], edges := t.edges }

/-- Axes up to this length separate nothing. -/
def shortestAxis : α := 1e-12

/-- The axis separates the bodies: what they cover on it overlaps at no more than an end. Bodies
whose places are no numbers are separate. -/
def separatedBy (a b : Polytope α) (axis : Vec3 α) : Bool :=
  match axis.unit? shortestAxis with
  | none => false
  | some unit =>
    match Interval.ofPoints? a.corners unit, Interval.ofPoints? b.corners unit with
    | some i, some j => decide (i.hi ≤ j.lo) || decide (j.hi ≤ i.lo)
    | _, _ => true

/-- The axes that are tried: the normals of the faces and the products of the edges. -/
def candidateAxes (a b : Polytope α) : List (Vec3 α) :=
  a.faces ++ b.faces ++ a.edges.flatMap fun ea => b.edges.map fun eb => ea.cross eb

/-- No candidate axis separates the bodies. -/
def overlap (a b : Polytope α) : Bool := !(candidateAxes a b).any (separatedBy a b)

/-- The normal of a face of either body separates them. -/
def separatedByFaces (a b : Polytope α) : Bool := (a.faces ++ b.faces).any (separatedBy a b)

end Polytope

end Collision
