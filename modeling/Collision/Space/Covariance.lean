import Collision.Space.Eigen

/-!
# Principal axes

The frame along which a distribution spreads.

Main definitions.

* `pointCovariance` is the covariance of a list of points about their mean.
* `frameAlong` completes one direction, and if possible a second one, to a right-handed orthonormal
  frame; `frameOfEigen` takes the directions of the two largest eigenvalues.
* `principalAxes` is the frame of a symmetric matrix; a matrix with an entry that is not finite gets
  the coordinate axes.
-/

set_option autoImplicit false
set_option relaxedAutoImplicit false

namespace Collision

variable {α : Type} [Scalar α]

/-- The covariance of a list of points about their mean; zero when there are none. -/
def pointCovariance (points : List (Vec3 α)) : Mat3 α :=
  if points.isEmpty then Mat3.zero
  else
    let mean := Vec3.mean points
    Mat3.sum (points.map fun p => let d := p - mean; Mat3.outer d d) /
      (Scalar.ofNat points.length : α)

/-- Vectors up to this length give no direction. -/
def shortestDirection : α := 1e-12

/-- A unit vector perpendicular to a unit vector: the product by x, or by y where x is too close. -/
def anyPerpendicular (v : Vec3 α) : Vec3 α :=
  (v.cross (if Scalar.abs v.x < 0.9 then Vec3.axis 0 else Vec3.axis 1)).normalize

/-- The right-handed orthonormal frame whose first axis is along `a` and whose second axis lies in
the plane of `a` and `b`. -/
def frameAlong (a b : Vec3 α) : Mat3 α :=
  match a.unit? shortestDirection with
  | none => Mat3.identity
  | some x =>
    let y := ((b - x * x.dot b).unit? shortestDirection).getD (anyPerpendicular x)
    ⟨x, y, x.cross y⟩

/-- The frame along the eigenvectors of the largest and the second largest eigenvalue. -/
def frameOfEigen (values : Vec3 α) (vectors : Mat3 α) : Mat3 α :=
  match Scalar.sortDescending values.get [0, 1, 2] with
  | first :: second :: _ => frameAlong (vectors.col first) (vectors.col second)
  | _ => Mat3.identity

/-- The eigenvectors of a symmetric matrix by falling eigenvalue, as a right-handed orthonormal
frame. -/
def principalAxes (m : Mat3 α) : Mat3 α :=
  if m.isFinite then
    let eigen := symmetricEigen m
    frameOfEigen eigen.1 eigen.2
  else Mat3.identity

end Collision
