import Collision.Proofs.Scalar.Spreading
import Collision.Space.Interval
import Collision.Space.Triangle

/-!
# Places that are no numbers

A point is nowhere if one of its coordinates is no number (`Vec3.Nowhere`). Adding and placing keep
that coordinate (`Vec3.NowhereAlong`), products and lengths have no value at all, and a rotation
spreads it over all coordinates. So every point of a body that stands at a pose without a place is
nowhere along the same axis (`Pose.transformPoint_nowhere`), read in a frame it is nowhere along
every axis (`Pose.inverseTransformPoint_nowhere`), and the body covers no interval on any axis
(`Interval.ofPoints?_nowhere`).
-/

set_option autoImplicit false
set_option relaxedAutoImplicit false

namespace Collision

open Scalar (NoNumber)

variable {α : Type} [Scalar α]

namespace Vec3

omit [Scalar α] in
theorem get_zipWith (f : α → α → α) (v w : Vec3 α) (i : Fin 3) :
    (zipWith f v w).get i = f (v.get i) (w.get i) := by
  match i with
  | 0 => rfl
  | 1 => rfl
  | 2 => rfl

/-- The coordinate along an axis is no number. -/
def NowhereAlong (v : Vec3 α) (i : Fin 3) : Prop := NoNumber (v.get i)

/-- Some coordinate is no number. -/
def Nowhere (v : Vec3 α) : Prop := ∃ i, v.NowhereAlong i

instance (v : Vec3 α) (i : Fin 3) : Decidable (v.NowhereAlong i) :=
  inferInstanceAs (Decidable (NoNumber _))

instance (v : Vec3 α) : Decidable v.Nowhere := inferInstanceAs (Decidable (∃ i, v.NowhereAlong i))

variable [SpreadingScalar α]

namespace NowhereAlong

variable {v : Vec3 α} {i : Fin 3} (h : v.NowhereAlong i)

include h

/-! ### Coordinate by coordinate -/

theorem add_left (w : Vec3 α) : (v + w).NowhereAlong i := by
  show NoNumber ((zipWith (· + ·) v w).get i)
  rw [get_zipWith]
  exact NoNumber.add_left h _

theorem add_right (w : Vec3 α) : (w + v).NowhereAlong i := by
  show NoNumber ((zipWith (· + ·) w v).get i)
  rw [get_zipWith]
  exact NoNumber.add_right h _

theorem sub_left (w : Vec3 α) : (v - w).NowhereAlong i := by
  show NoNumber ((zipWith (· - ·) v w).get i)
  rw [get_zipWith]
  exact NoNumber.sub_left h _

theorem sub_right (w : Vec3 α) : (w - v).NowhereAlong i := by
  show NoNumber ((zipWith (· - ·) w v).get i)
  rw [get_zipWith]
  exact NoNumber.sub_right h _

theorem mul (s : α) : (v * s).NowhereAlong i := by
  match i with
  | 0 => exact NoNumber.mul_left h s
  | 1 => exact NoNumber.mul_left h s
  | 2 => exact NoNumber.mul_left h s

/-! ### Products and lengths -/

theorem dot_left (w : Vec3 α) : NoNumber (v.dot w) := by
  match i with
  | 0 => exact ((NoNumber.mul_left h w.x).add_left _).add_left _
  | 1 => exact ((NoNumber.mul_left h w.y).add_right _).add_left _
  | 2 => exact (NoNumber.mul_left h w.z).add_right _

theorem dot_right (w : Vec3 α) : NoNumber (w.dot v) := by
  match i with
  | 0 => exact ((NoNumber.mul_right h w.x).add_left _).add_left _
  | 1 => exact ((NoNumber.mul_right h w.y).add_right _).add_left _
  | 2 => exact (NoNumber.mul_right h w.z).add_right _

/-- A vector product takes each coordinate from the two others. -/
theorem cross_right (w : Vec3 α) {j : Fin 3} (hj : j ≠ i) : (w.cross v).NowhereAlong j := by
  match i, j with
  | 0, 0 | 1, 1 | 2, 2 => exact absurd rfl hj
  | 0, 1 => exact (NoNumber.mul_right h w.z).sub_left _
  | 0, 2 => exact (NoNumber.mul_right h w.y).sub_right _
  | 1, 0 => exact (NoNumber.mul_right h w.z).sub_right _
  | 1, 2 => exact (NoNumber.mul_right h w.x).sub_left _
  | 2, 0 => exact (NoNumber.mul_right h w.y).sub_left _
  | 2, 1 => exact (NoNumber.mul_right h w.x).sub_right _

theorem normSq : NoNumber v.normSq := h.dot_left v

theorem norm : NoNumber v.norm := h.normSq.sqrt

end NowhereAlong

theorem sub_nowhere {v w : Vec3 α} {i : Fin 3} (h : v.NowhereAlong i ∨ w.NowhereAlong i) :
    (v - w).NowhereAlong i := h.elim (·.sub_left w) (·.sub_right v)

end Vec3

/-! ### Frames -/

/-- The position of the pose is nowhere. -/
def Pose.Nowhere (pose : Pose α) : Prop := pose.position.Nowhere

instance (pose : Pose α) : Decidable pose.Nowhere :=
  inferInstanceAs (Decidable pose.position.Nowhere)

variable [SpreadingScalar α] {v : Vec3 α} {pose : Pose α} {i : Fin 3}

/-- A rotation spreads a coordinate over the others. -/
theorem Rotation.apply_nowhere (q : Rotation α) (h : v.NowhereAlong i) (j : Fin 3) :
    (q.apply v).NowhereAlong j := by
  by_cases hj : j = i
  · subst hj
    exact h.add_right _
  · exact ((((h.cross_right q.vector hj).mul _).mul _).add_left _).add_left _

namespace Pose

theorem transformPoint_nowhere (h : pose.position.NowhereAlong i) (p : Vec3 α) :
    (pose.transformPoint p).NowhereAlong i := h.add_left _

theorem compose_nowhere (h : pose.position.NowhereAlong i) (inner : Pose α) :
    (pose.compose inner).position.NowhereAlong i := transformPoint_nowhere h _

theorem inverseTransformPoint_nowhere {p : Vec3 α} (h : (p - pose.position).NowhereAlong i)
    (j : Fin 3) : (pose.inverseTransformPoint p).NowhereAlong j :=
  pose.rotation.inverse.apply_nowhere h j

end Pose

/-- Points that are nowhere cover no interval. -/
theorem Interval.ofPoints?_nowhere {points : List (Vec3 α)} (h : ∀ p ∈ points, p.NowhereAlong i)
    (axis : Vec3 α) : Interval.ofPoints? points axis = none := by
  have hvalues : ∀ a ∈ points.map fun p ↦ p.dot axis, NoNumber a := by
    rw [List.forall_mem_map]
    exact fun p hp ↦ (h p hp).dot_left axis
  rw [ofPoints?, hull?, Scalar.minimum?_eq_none hvalues]

/-- The direction perpendicular to a triangle that is nowhere has no length. -/
theorem Triangle.faceAxis_nowhere {t : Triangle α} (h : ∀ p ∈ t.corners, p.NowhereAlong i) :
    t.faceAxis.NowhereAlong (i + 1) := by
  have hedge : (t.c - t.b).NowhereAlong i := (h t.c (by simp [corners])).sub_left t.b
  have hnext : ∀ i : Fin 3, i + 1 ≠ i := by decide
  exact hedge.cross_right (t.b - t.a) (hnext i)

end Collision
