import Collision.Space.Pose

/-!
# Triangles

Triangles in space, and triangles named by the indices of their corners.

Main definitions.

* `Triangle` with its edges, `Triangle.faceAxis` and `Triangle.centroid`.
* `Triangle.closestPoint` finds the point of a triangle nearest to a point by the region the point
  lies over: a corner, an edge or the face.
* `Face` names the corners of a triangle by their places in a list of vertices.
-/

set_option autoImplicit false
set_option relaxedAutoImplicit false

namespace Collision

/-- A triangle by its corners. -/
structure Triangle (α : Type) where
  a : Vec3 α
  b : Vec3 α
  c : Vec3 α
  deriving Inhabited

/-- A triangle by the places of its corners in a list of vertices. -/
structure Face where
  first : Nat
  second : Nat
  third : Nat
  deriving DecidableEq, Repr, Inhabited

namespace Face

/-- The three places. -/
def corners (f : Face) : List Nat := [f.first, f.second, f.third]

/-- The places are below a count of vertices. -/
def InRange (f : Face) (count : Nat) : Prop :=
  f.first < count ∧ f.second < count ∧ f.third < count

instance (f : Face) (count : Nat) : Decidable (f.InRange count) :=
  inferInstanceAs (Decidable (_ ∧ _ ∧ _))

end Face

namespace Triangle

variable {α : Type}

/-- The corners in order. -/
def corners (t : Triangle α) : List (Vec3 α) := [t.a, t.b, t.c]

/-- The triangle whose corners are images of the corners. -/
def map (f : Vec3 α → Vec3 α) (t : Triangle α) : Triangle α := ⟨f t.a, f t.b, f t.c⟩

variable [Scalar α]

/-- The triangle moved by a pose. -/
def placed (t : Triangle α) (pose : Pose α) : Triangle α := t.map pose.transformPoint

/-- The edges in order: each corner to the next. -/
def edges (t : Triangle α) : List (Vec3 α) := [t.b - t.a, t.c - t.b, t.a - t.c]

/-- The direction perpendicular to the triangle, of twice its area in length. -/
def faceAxis (t : Triangle α) : Vec3 α := (t.b - t.a).cross (t.c - t.b)

/-- The mean of the corners. -/
def centroid (t : Triangle α) : Vec3 α := (t.a + t.b + t.c) / (3 : α)

/-- The point of the triangle nearest to `p`. -/
def closestPoint (t : Triangle α) (p : Vec3 α) : Vec3 α :=
  let ab := t.b - t.a
  let ac := t.c - t.a
  let ap := p - t.a
  let d1 := ab.dot ap
  let d2 := ac.dot ap
  if d1 ≤ 0 ∧ d2 ≤ 0 then t.a
  else
    let bp := p - t.b
    let d3 := ab.dot bp
    let d4 := ac.dot bp
    if 0 ≤ d3 ∧ d4 ≤ d3 then t.b
    else
      let vc := d1 * d4 - d3 * d2
      if vc ≤ 0 ∧ 0 ≤ d1 ∧ d3 ≤ 0 then t.a + ab * (d1 / (d1 - d3))
      else
        let cp := p - t.c
        let d5 := ab.dot cp
        let d6 := ac.dot cp
        if 0 ≤ d6 ∧ d5 ≤ d6 then t.c
        else
          let vb := d5 * d2 - d1 * d6
          if vb ≤ 0 ∧ 0 ≤ d2 ∧ d6 ≤ 0 then t.a + ac * (d2 / (d2 - d6))
          else
            let va := d3 * d6 - d5 * d4
            if va ≤ 0 ∧ 0 ≤ d4 - d3 ∧ 0 ≤ d5 - d6 then
              t.b + (t.c - t.b) * ((d4 - d3) / ((d4 - d3) + (d5 - d6)))
            else
              let share := 1 / (va + vb + vc)
              t.a + ab * (vb * share) + ac * (vc * share)

end Triangle

end Collision
