import Collision.Shape.Basic

/-!
# Surface moments

Area, centroid and covariance of surfaces, gathered piece by piece.

Main definitions.

* `SurfaceMoments` holds the area and the area-weighted first and second moments;
  `SurfaceMoments.addTriangle` adds the exact moments of a triangle and `SurfaceMoments.addPoint` a
  weight concentrated in a point.
* `SurfaceMoments.centroid?` and `SurfaceMoments.covariance?` exist once the area is positive.
* `SurfaceMoments.addPart` and `SurfaceMoments.addShape` add the surface of a placed part or shape.
  Triangles and boxes count with their faces, round primitives with their area at their centre,
  hulls with a unit weight at each point, planes not at all.
-/

set_option autoImplicit false
set_option relaxedAutoImplicit false

namespace Collision

/-- Area and area-weighted moments of a surface. -/
structure SurfaceMoments (α : Type) where
  area : α
  /-- The integral of the position. -/
  first : Vec3 α
  /-- The integral of the product of the position by itself. -/
  second : Mat3 α

namespace SurfaceMoments

variable {α : Type} [Scalar α]

/-- The moments of nothing. -/
def empty : SurfaceMoments α := ⟨0, Vec3.zero, Mat3.zero⟩

/-- Add a weight at a point. -/
def addPoint (m : SurfaceMoments α) (p : Vec3 α) (weight : α) : SurfaceMoments α :=
  { area := m.area + weight
    first := m.first + p * weight
    second := m.second + Mat3.outer p p * weight }

/-- Add a triangle. Its second moment is a twelfth of its area times the sum of the products of the
corners by themselves and nine times that of the centroid. -/
def addTriangle (m : SurfaceMoments α) (t : Triangle α) : SurfaceMoments α :=
  let area := 0.5 * ((t.b - t.a).cross (t.c - t.a)).norm
  let c := t.centroid
  let products := Mat3.outer (c * (9 : α)) c + Mat3.outer t.a t.a + Mat3.outer t.b t.b +
    Mat3.outer t.c t.c
  { area := m.area + area
    first := m.first + c * area
    second := m.second + products * (area / 12) }

/-- The centroid, if there is area. -/
def centroid? (m : SurfaceMoments α) : Option (Vec3 α) :=
  if 0 < m.area then some (m.first / m.area) else none

/-- The covariance about the centroid, if there is area. -/
def covariance? (m : SurfaceMoments α) : Option (Mat3 α) :=
  m.centroid?.map fun mean => m.second / m.area - Mat3.outer mean mean

/-- Add the surface of a placed primitive. -/
def addPrimitive (m : SurfaceMoments α) (p : Primitive α) (pose : Pose α) : SurfaceMoments α :=
  match p with
  | .sphere radius => m.addPoint pose.position (4 * Scalar.pi * radius * radius)
  | .box half =>
    (BoxCorners.surfaceTriangles half).foldl (fun m t => m.addTriangle (t.placed pose)) m
  | .cylinder radius halfHeight =>
    m.addPoint pose.position (2 * Scalar.pi * radius * (2 * halfHeight + radius))
  | .capsule radius halfHeight =>
    m.addPoint pose.position (2 * Scalar.pi * radius * (2 * halfHeight + 2 * radius))
  | .plane => m
  | .triangle corners | .meshTriangle corners => m.addTriangle (corners.placed pose)
  | .convexHull points => points.foldl (fun m p => m.addPoint (pose.transformPoint p) 1) m

/-- Add the surface of a placed part. -/
def addPart (m : SurfaceMoments α) (part : Part α) (pose : Pose α) : SurfaceMoments α :=
  m.addPrimitive part.primitive (part.rebase pose)

/-- Add the surface of a placed shape. -/
def addShape (m : SurfaceMoments α) (s : Shape α) (pose : Pose α) : SurfaceMoments α :=
  s.parts.foldl (fun m part => m.addPart part pose) m

/-- The moments of shapes in one frame. -/
def ofShapes (shapes : List (Shape α)) : SurfaceMoments α :=
  shapes.foldl (fun m s => m.addShape s Pose.identity) empty

end SurfaceMoments

end Collision
