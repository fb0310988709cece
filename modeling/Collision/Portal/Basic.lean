import Collision.Contact
import Collision.Space.Triangle

/-!
# Portals

Two bodies overlap if and only if the difference body of all `a - b` holds the origin. A portal is a
triangle of points of the difference body which the ray from an interior point towards the origin
passes through.

Main definitions.

* `DifferencePoint` is a point of the difference body with the points it is the difference of, and
  `DifferenceBody` what a search asks for: an interior point and farthest points.
* `Portal` is an interior point with a portal triangle; `Portal.direction` is the outward normal,
  `Portal.enclosesOrigin` says that the origin is not beyond the triangle.
* `Portal.expand` replaces one corner by a point farther out, and `Portal.reachesTolerance` says
  that the point would not gain enough.
* `Portal.contactPosition` is the point of the overlap that the portal names.
-/

set_option autoImplicit false
set_option relaxedAutoImplicit false

namespace Collision

/-- A difference of a point of the first body and a point of the second. -/
structure DifferencePoint (α : Type) where
  v : Vec3 α
  onFirst : Vec3 α
  onSecond : Vec3 α
  deriving Inhabited

/-- What a search over a difference body asks for. -/
structure DifferenceBody (α : Type) where
  /-- An interior point. -/
  center : DifferencePoint α
  /-- A point farthest along a direction. -/
  support : Vec3 α → DifferencePoint α

/-- An interior point with a triangle of the difference body. -/
structure Portal (α : Type) where
  v0 : DifferencePoint α
  v1 : DifferencePoint α
  v2 : DifferencePoint α
  v3 : DifferencePoint α
  deriving Inhabited

variable {α : Type} [Scalar α]

namespace DifferencePoint

/-- The difference of two points. -/
def ofPoints (onFirst onSecond : Vec3 α) : DifferencePoint α :=
  ⟨onFirst - onSecond, onFirst, onSecond⟩

/-- The point midway between the two points. -/
def midpoint (p : DifferencePoint α) : Vec3 α := p.onFirst.midpoint p.onSecond

end DifferencePoint

namespace Portal

/-- What is smaller than this counts as zero. -/
def zeroWidth : α := Scalar.ofNat 1 / Scalar.ofNat (2 ^ (52 : Nat))

/-- The value counts as zero. -/
def isTiny (value : α) : Bool := decide (Scalar.abs value < zeroWidth)

/-- Every component counts as zero. -/
def isTinyVector (v : Vec3 α) : Bool := isTiny v.x && isTiny v.y && isTiny v.z

/-- The unit normal of a triangle, zero if it has none. -/
def unitNormal (a b c : Vec3 α) : Vec3 α :=
  (((b - a).cross (c - a)).unit? 0).getD Vec3.zero

/-- The outward unit normal of the portal triangle. -/
def direction (p : Portal α) : Vec3 α := unitNormal p.v1.v p.v2.v p.v3.v

/-- The origin is not beyond the portal triangle. -/
def enclosesOrigin (p : Portal α) (direction : Vec3 α) : Bool :=
  let distance := direction.dot p.v1.v
  isTiny distance || decide (0 < distance)

/-- The corners of the portal triangle. -/
def corners (p : Portal α) : List (DifferencePoint α) := [p.v1, p.v2, p.v3]

/-- The portal with one corner replaced by `v4`, so that the ray from the interior point towards the
origin still passes through it. -/
def expand (p : Portal α) (v4 : DifferencePoint α) : Portal α :=
  let side := v4.v.cross p.v0.v
  if 0 < p.v1.v.dot side then
    if 0 < p.v2.v.dot side then { p with v1 := v4 } else { p with v3 := v4 }
  else if 0 < p.v3.v.dot side then { p with v2 := v4 }
  else { p with v1 := v4 }

/-- The point `v4` lies no more than `tolerance` farther out than some corner of the portal. -/
def reachesTolerance (p : Portal α) (v4 : DifferencePoint α) (direction : Vec3 α) (tolerance : α) :
    Bool :=
  let reach := v4.v.dot direction
  let gap := Scalar.minimum? (p.corners.map fun c => reach - c.v.dot direction)
  decide (gap.getD Scalar.unbounded ≤ tolerance)

/-! ### The contact position -/

/-- Weights of the interior point and the three corners. -/
structure Weights (α : Type) where
  w0 : α
  w1 : α
  w2 : α
  w3 : α

/-- The sum of the weights. -/
def Weights.total (w : Weights α) : α := w.w0 + w.w1 + w.w2 + w.w3

/-- The weights by which the origin lies in the tetrahedron of the portal. -/
def tetrahedronWeights (p : Portal α) : Weights α :=
  { w0 := (p.v1.v.cross p.v2.v).dot p.v3.v
    w1 := (p.v3.v.cross p.v2.v).dot p.v0.v
    w2 := (p.v0.v.cross p.v1.v).dot p.v3.v
    w3 := (p.v2.v.cross p.v1.v).dot p.v0.v }

/-- The weights by which the ray along the normal lies in the portal triangle. -/
def triangleWeights (p : Portal α) (direction : Vec3 α) : Weights α :=
  { w0 := 0
    w1 := (p.v2.v.cross p.v3.v).dot direction
    w2 := (p.v3.v.cross p.v1.v).dot direction
    w3 := (p.v1.v.cross p.v2.v).dot direction }

/-- The weights that are used: those of the tetrahedron, or those of the triangle where their sum is
not positive. -/
def weights (p : Portal α) (direction : Vec3 α) : Weights α :=
  let inside := p.tetrahedronWeights
  if isTiny inside.total || decide (inside.total < 0) then p.triangleWeights direction else inside

/-- The weighted mean of points. -/
def Weights.mean (w : Weights α) (p0 p1 p2 p3 : Vec3 α) : Vec3 α :=
  (p0 * w.w0 + p1 * w.w1 + p2 * w.w2 + p3 * w.w3) / w.total

/-- The point midway between the weighted means of the points on both bodies. -/
def contactPosition (p : Portal α) (direction : Vec3 α) : Vec3 α :=
  let w := p.weights direction
  if isTiny w.total then p.v1.midpoint
  else
    (w.mean p.v0.onFirst p.v1.onFirst p.v2.onFirst p.v3.onFirst).midpoint
      (w.mean p.v0.onSecond p.v1.onSecond p.v2.onSecond p.v3.onSecond)

end Portal

end Collision
