import Collision.Space.Pose

/-!
# Segments

The points at which two segments come closest.

Main definitions.

* `Segment` is a segment by its two ends, `Segment.point` the point at a parameter.
* `Segment.closestParameters` are the parameters of the closest points: the unconstrained minimum of
  two lines, moved into the segments one parameter at a time. A segment whose squared length is at
  most `Segment.negligible` counts as its first end, and lines that are parallel to that tolerance
  start at the first end of the first segment.
* `Segment.closestPoints` are the closest points themselves.
-/

set_option autoImplicit false
set_option relaxedAutoImplicit false

namespace Collision

/-- A segment by its ends. -/
structure Segment (α : Type) where
  start : Vec3 α
  stop : Vec3 α
  deriving Inhabited

namespace Segment

variable {α : Type} [Scalar α]

/-- Squared lengths up to this one count as zero. -/
def negligible : α := 1e-18

/-- The vector from the first end to the second. -/
def extent (s : Segment α) : Vec3 α := s.stop - s.start

/-- The point at a parameter, `0` at the first end and `1` at the second. -/
def point (s : Segment α) (parameter : α) : Vec3 α := s.start + s.extent * parameter

/-- The parameters at which two segments come closest. -/
def closestParameters (first second : Segment α) : α × α :=
  let d1 := first.extent
  let d2 := second.extent
  let r := first.start - second.start
  let a := d1.normSq
  let e := d2.normSq
  let f := d2.dot r
  if a ≤ negligible ∧ e ≤ negligible then (0, 0)
  else if a ≤ negligible then (0, Scalar.clamp (f / e) 0 1)
  else
    let c := d1.dot r
    if e ≤ negligible then (Scalar.clamp (-c / a) 0 1, 0)
    else
      let b := d1.dot d2
      let denominator := a * e - b * b
      let s :=
        if negligible < denominator then Scalar.clamp ((b * f - c * e) / denominator) 0 1 else 0
      let t := (b * s + f) / e
      if t < 0 then (Scalar.clamp (-c / a) 0 1, 0)
      else if 1 < t then (Scalar.clamp ((b - c) / a) 0 1, 1)
      else (s, t)

/-- The points at which two segments come closest. -/
def closestPoints (first second : Segment α) : Vec3 α × Vec3 α :=
  let parameters := closestParameters first second
  (first.point parameters.1, second.point parameters.2)

end Segment

end Collision
