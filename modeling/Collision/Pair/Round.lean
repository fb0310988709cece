import Collision.Contact
import Collision.Shape.Primitive
import Collision.Space.Segment

/-!
# Contacts of round bodies

Spheres and capsules are a core, a point or a segment, grown by a radius. Two round bodies touch
where their cores come closest; boxes and triangles take part with radius zero.

Main definitions.

* `Round.contact` is the contact of two points grown by radii, in the middle of the overlap.
* `Round.sphereSphere`, `Round.sphereBox`, `Round.sphereCapsule`, `Round.capsuleCapsule` and
  `Round.sphereTriangle` find the closest points of the cores.
* `Round.contacts?` is the contact of two primitives where one of these forms applies, in either
  order.
-/

set_option autoImplicit false
set_option relaxedAutoImplicit false

namespace Collision

namespace Round

variable {α : Type} [Scalar α]

/-- The contact of a point `pa` grown by `ra` and a point `pb` grown by `rb`, none unless they are
closer than the radii together. The normal is `fallback` where the points coincide. -/
def contact (pa : Vec3 α) (ra : α) (pb : Vec3 α) (rb : α) (fallback : Vec3 α) : Contacts α :=
  let separation := pb - pa
  let distance := separation.norm
  if ra + rb ≤ distance then []
  else
    let depth := ra + rb - distance
    let normal := if 0 < distance then separation / distance else fallback
    [{ position := pa + normal * (ra - depth * 0.5), normal, depth }]

/-- The core of a capsule. -/
def capsuleCore (halfHeight : α) (pose : Pose α) : Segment α :=
  let axis := pose.axis 2 * halfHeight
  ⟨pose.position - axis, pose.position + axis⟩

/-- Two spheres. -/
def sphereSphere (r1 : α) (pose1 : Pose α) (r2 : α) (pose2 : Pose α) : Contacts α :=
  contact pose1.position r1 pose2.position r2 (Vec3.axis 0)

/-- A coordinate moved into the interval between minus and plus a half length. -/
def clampTo (half coordinate : α) : α := Scalar.clamp coordinate (-half) half

/-- A point lies in the box of given half lengths. -/
def insideBox (half p : Vec3 α) : Bool :=
  [0, 1, 2].all fun i => decide (-half.get i ≤ p.get i) && decide (p.get i ≤ half.get i)

/-- The axis along which a point of a box is nearest to its surface, the first one of several. -/
def nearestFace (half p : Vec3 α) : Fin 3 :=
  (Scalar.firstMinBy? (fun i => half.get i - Scalar.abs (p.get i)) [0, 1, 2]).getD 0

/-- A sphere and a box. Outside, the contact joins the centre to the nearest point of the box; a
centre inside is pushed out through the nearest face. -/
def sphereBox (radius : α) (sphere : Pose α) (half : Vec3 α) (box : Pose α) : Contacts α :=
  let center := box.inverseTransformPoint sphere.position
  if insideBox half center then
    let axis := nearestFace half center
    let gap := half.get axis - Scalar.abs (center.get axis)
    let side : α := if 0 ≤ center.get axis then 1 else -1
    let outward := box.axis axis * side
    [{ position := sphere.position + outward * ((gap - radius) * 0.5)
       normal := -outward
       depth := radius + gap }]
  else
    let closest := box.transformPoint (Vec3.zipWith clampTo half center)
    contact sphere.position radius closest 0 (-box.axis 0)

/-- A sphere and a capsule. -/
def sphereCapsule (radius : α) (sphere : Pose α) (capsuleRadius halfHeight : α) (capsule : Pose α) :
    Contacts α :=
  let closest := Segment.closestPoints ⟨sphere.position, sphere.position⟩
    (capsuleCore halfHeight capsule)
  contact sphere.position radius closest.2 capsuleRadius (capsule.axis 0)

/-- Two capsules. Where the cores cross, the normal is perpendicular to both. -/
def capsuleCapsule (r1 halfHeight1 : α) (pose1 : Pose α) (r2 halfHeight2 : α) (pose2 : Pose α) :
    Contacts α :=
  let closest :=
    Segment.closestPoints (capsuleCore halfHeight1 pose1) (capsuleCore halfHeight2 pose2)
  let across := (pose1.axis 2).cross (pose2.axis 2)
  let fallback := (across.unit? Segment.negligible).getD (pose1.axis 0)
  contact closest.1 r1 closest.2 r2 fallback

/-- A sphere and a triangle, which is given where it stands. -/
def sphereTriangle (radius : α) (sphere : Pose α) (t : Triangle α) : Contacts α :=
  let closest := t.closestPoint sphere.position
  let fallback := (((t.b - t.a).cross (t.c - t.a)).unit? Segment.negligible).getD (Vec3.axis 0)
  contact sphere.position radius closest 0 fallback

/-- The contacts of a sphere with a primitive that has a form for it, or of two capsules. -/
def ordered? (a : Primitive α) (poseA : Pose α) (b : Primitive α) (poseB : Pose α) :
    Option (Contacts α) :=
  match a, b with
  | .sphere r1, .sphere r2 => some (sphereSphere r1 poseA r2 poseB)
  | .sphere radius, .box half => some (sphereBox radius poseA half poseB)
  | .sphere radius, .capsule capsuleRadius halfHeight =>
    some (sphereCapsule radius poseA capsuleRadius halfHeight poseB)
  | .sphere radius, .triangle t | .sphere radius, .meshTriangle t =>
    some (sphereTriangle radius poseA (t.placed poseB))
  | .capsule r1 halfHeight1, .capsule r2 halfHeight2 =>
    some (capsuleCapsule r1 halfHeight1 poseA r2 halfHeight2 poseB)
  | _, _ => none

/-- The contacts of two primitives that have a form for it, in either order. -/
def contacts? (a : Primitive α) (poseA : Pose α) (b : Primitive α) (poseB : Pose α) :
    Option (Contacts α) :=
  match ordered? a poseA b poseB with
  | some contacts => some contacts
  | none => (ordered? b poseB a poseA).map Contacts.flipped

end Round

end Collision
