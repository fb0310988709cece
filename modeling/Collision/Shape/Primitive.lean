import Collision.Box.Fitted
import Collision.Error

/-!
# Primitives

The convex bodies that collision tests work on, each in its own frame: spheres and boxes are centred
at the origin, cylinders and capsules stand along z, the plane is the half-space below the xy plane,
triangles and hulls are where their points are.

Main definitions.

* `Primitive` and its constructors with checked parameters: `Primitive.sphere?`, `Primitive.box?`
  and so on.
* `Primitive.points?` are the points whose hull the primitive is, where it is the hull of points.
* `Primitive.support?` is a point of the primitive farthest along a direction; the plane has none.
* `Primitive.project` is the interval that the placed primitive covers on an axis; the plane counts
  as a box of side `2 * planeExtent`.
* `Primitive.center`, `Primitive.localBox` and `Primitive.hullPoints` are an interior point, a box
  around the primitive, and the points its boxes are fitted to.
-/

set_option autoImplicit false
set_option relaxedAutoImplicit false

namespace Collision

/-- A convex body in its own frame. -/
inductive Primitive (α : Type) where
  | sphere (radius : α)
  /-- A box by its half lengths. -/
  | box (half : Vec3 α)
  | cylinder (radius halfHeight : α)
  /-- A cylinder of the given half height with half spheres at both ends. -/
  | capsule (radius halfHeight : α)
  /-- The half-space of points with `z` at most zero. -/
  | plane
  | triangle (corners : Triangle α)
  /-- One triangle of a mesh. -/
  | meshTriangle (corners : Triangle α)
  /-- The convex hull of points. -/
  | convexHull (points : List (Vec3 α))

namespace Primitive

variable {α : Type}

/-- What the primitive is. -/
def kind : Primitive α → ShapeKind
  | sphere .. => .sphere
  | box .. => .box
  | cylinder .. => .cylinder
  | capsule .. => .capsule
  | plane => .plane
  | triangle .. => .triangle
  | meshTriangle .. => .meshTriangle
  | convexHull .. => .convexHull

/-- The corners of a triangle. -/
def triangle? : Primitive α → Option (Triangle α)
  | triangle corners | meshTriangle corners => some corners
  | _ => none

variable [Scalar α]

/-! ### Checked construction -/

/-- The value, if it is a positive finite number. -/
def checkPositive (kind : ShapeKind) (parameter : ShapeParameter) (value : α) :
    Except (Error α) α :=
  if Scalar.isFinite value ∧ 0 < value then .ok value
  else .error (.shape kind (.notPositive parameter value))

/-- Every point is finite. -/
def checkPoints (kind : ShapeKind) (points : List (Vec3 α)) : Except (Error α) Unit :=
  match points.find? fun p => !p.isFinite with
  | some p => .error (.shape kind (.vertexNotFinite p))
  | none => .ok ()

/-- The sphere of a radius. -/
def sphere? (radius : α) : Except (Error α) (Primitive α) :=
  return .sphere (← checkPositive .sphere .radius radius)

/-- The box of given half lengths. -/
def boxOfHalf? (half : Vec3 α) : Except (Error α) (Primitive α) := do
  let x ← checkPositive .box (.side 0) half.x
  let y ← checkPositive .box (.side 1) half.y
  let z ← checkPositive .box (.side 2) half.z
  return .box ⟨x, y, z⟩

/-- The box of given lengths. -/
def box? (lengths : Vec3 α) : Except (Error α) (Primitive α) := boxOfHalf? (lengths * (0.5 : α))

/-- The cylinder of a radius and a height. -/
def cylinder? (radius height : α) : Except (Error α) (Primitive α) := do
  let radius ← checkPositive .cylinder .radius radius
  let height ← checkPositive .cylinder .height height
  return .cylinder radius (height * 0.5)

/-- The capsule of a radius and a height between the centres of its half spheres. -/
def capsule? (radius height : α) : Except (Error α) (Primitive α) := do
  let radius ← checkPositive .capsule .radius radius
  let height ← checkPositive .capsule .height height
  return .capsule radius (height * 0.5)

/-- The triangle of three corners. -/
def triangleOf? (corners : Triangle α) : Except (Error α) (Primitive α) := do
  checkPoints .triangle corners.corners
  return .triangle corners

/-- The convex hull of at least one point. -/
def convexHull? (points : List (Vec3 α)) : Except (Error α) (Primitive α) :=
  match points with
  | [] => .error (.shape .convexHull .noPoints)
  | _ => do
    checkPoints .convexHull points
    return .convexHull points

/-! ### Extent -/

/-- The points whose hull the primitive is. -/
def points? : Primitive α → Option (List (Vec3 α))
  | triangle corners | meshTriangle corners => some corners.corners
  | convexHull points => some points
  | _ => none

/-- Directions up to this length count as none. -/
def shortestSupportDirection : α := 1e-10

/-- The point at a height on the side of z that a direction looks to. -/
def capCenter (halfHeight : α) (direction : Vec3 α) : Vec3 α :=
  ⟨0, 0, Scalar.copySign halfHeight direction.z⟩

/-- A point of the primitive farthest along a direction. -/
def support? (p : Primitive α) (direction : Vec3 α) : Option (Vec3 α) :=
  match p with
  | sphere radius =>
    some (((direction.unit? shortestSupportDirection).getD (Vec3.axis 0)) * radius)
  | box half =>
    some ⟨half.x * Scalar.signum direction.x, half.y * Scalar.signum direction.y,
      half.z * Scalar.signum direction.z⟩
  | cylinder radius halfHeight =>
    let sideways : Vec3 α := ⟨direction.x, direction.y, 0⟩
    let radial := match sideways.unit? shortestSupportDirection with
      | some r => r * radius
      | none => Vec3.zero
    some ⟨radial.x, radial.y, Scalar.copySign halfHeight direction.z⟩
  | capsule radius halfHeight =>
    some (((direction.unit? shortestSupportDirection).getD (Vec3.axis 2)) * radius +
      capCenter halfHeight direction)
  | plane => none
  | triangle corners | meshTriangle corners => Vec3.farthest? corners.corners direction
  | convexHull points => Vec3.farthest? points direction

/-- The half side of the box that stands for a plane. -/
def planeExtent : α := 1e6

/-- The box that stands for a plane. -/
def planeBox : OrientedBox α :=
  OrientedBox.aligned ⟨0, 0, -planeExtent⟩ (Vec3.replicate planeExtent)

/-- The interval that placed points cover on an axis; the position of the pose when there is no
number among their places. -/
def projectPoints (points : List (Vec3 α)) (axis : Vec3 α) (pose : Pose α) : Interval α :=
  let offset := pose.position.dot axis
  match Interval.ofPoints? points (pose.inverseTransformVector axis) with
  | some i => i.shift offset
  | none => ⟨offset, offset⟩

/-- The interval that the placed primitive covers on an axis, which need not have length one. -/
def project (p : Primitive α) (axis : Vec3 α) (pose : Pose α) : Interval α :=
  let center := pose.position.dot axis
  let inside := pose.inverseTransformVector axis
  match p with
  | sphere radius => Interval.around center (radius * axis.norm)
  | box half => Interval.around center (inside.abs.dot half)
  | cylinder radius halfHeight =>
    let radial := Scalar.sqrt (inside.x * inside.x + inside.y * inside.y)
    Interval.around center (halfHeight * Scalar.abs inside.z + radius * radial)
  | capsule radius halfHeight =>
    Interval.around center (halfHeight * Scalar.abs inside.z + radius * axis.norm)
  | plane => (planeBox.placed pose).project axis
  | triangle corners | meshTriangle corners => projectPoints corners.corners axis pose
  | convexHull points => projectPoints points axis pose

/-- An interior point of the placed primitive; for the plane a point of its surface. -/
def center (p : Primitive α) (pose : Pose α) : Vec3 α :=
  match p with
  | triangle corners | meshTriangle corners => pose.transformPoint corners.centroid
  | convexHull points => pose.transformPoint (Vec3.mean points)
  | sphere .. | box .. | cylinder .. | capsule .. | plane => pose.position

/-- A box around the primitive. -/
def localBox : Primitive α → OrientedBox α
  | sphere radius => OrientedBox.aligned Vec3.zero (Vec3.replicate radius)
  | box half => OrientedBox.aligned Vec3.zero half
  | cylinder radius halfHeight => OrientedBox.aligned Vec3.zero ⟨radius, radius, halfHeight⟩
  | capsule radius halfHeight =>
    OrientedBox.aligned Vec3.zero ⟨radius, radius, halfHeight + radius⟩
  | plane => planeBox
  | triangle corners | meshTriangle corners => OrientedBox.aroundTriangle corners
  | convexHull points => OrientedBox.fittedToPoints points

/-- The points that box axes are fitted to: the centre of a sphere, the corners of a box, the ends
of an axis, the points of a hull, nothing of a plane. -/
def hullPoints (p : Primitive α) (pose : Pose α) : List (Vec3 α) :=
  match p with
  | sphere _ => [pose.position]
  | box half => (BoxCorners.all half).map pose.transformPoint
  | cylinder _ halfHeight | capsule _ halfHeight =>
    [pose.transformPoint ⟨0, 0, halfHeight⟩, pose.transformPoint ⟨0, 0, -halfHeight⟩]
  | plane => []
  | triangle corners | meshTriangle corners => corners.corners.map pose.transformPoint
  | convexHull points => points.map pose.transformPoint

end Primitive

end Collision
