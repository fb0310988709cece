import Collision.Proofs.Scalar.Mirror
import Collision.Space.Interval

/-!
# Opposed vectors

Vectors whose components are opposed scalars (`Vec3.Opposed`). The two orders of a difference and of
a vector product are opposed (`Vec3.sub_opposed`, `Vec3.cross_opposed`), opposed vectors have the
same length and opposed unit vectors (`Vec3.Opposed.unit?`), and points cover opposed intervals on
them, the ends exchanged (`Interval.ofPoints?_opposed`).
-/

set_option autoImplicit false
set_option relaxedAutoImplicit false

namespace Collision

variable {α : Type} [Scalar α] [MirroredScalar α]

namespace Vec3

/-- The components are opposed. -/
structure Opposed (v w : Vec3 α) : Prop where
  x : Scalar.Opposed v.x w.x
  y : Scalar.Opposed v.y w.y
  z : Scalar.Opposed v.z w.z

theorem sub_opposed (v w : Vec3 α) : Opposed (v - w) (w - v) where
  x := MirroredScalar.sub_opposed v.x w.x
  y := MirroredScalar.sub_opposed v.y w.y
  z := MirroredScalar.sub_opposed v.z w.z

theorem cross_opposed (v w : Vec3 α) : Opposed (v.cross w) (w.cross v) := by
  have hcomponent (a b c d : α) : Scalar.Opposed (a * b - c * d) (d * c - b * a) := by
    rw [MirroredScalar.mul_comm d c, MirroredScalar.mul_comm b a]
    exact MirroredScalar.sub_opposed _ _
  exact ⟨hcomponent v.y w.z v.z w.y, hcomponent v.z w.x v.x w.z, hcomponent v.x w.y v.y w.x⟩

variable {v w : Vec3 α}

theorem Opposed.norm_eq (h : Opposed v w) : w.norm = v.norm := by
  unfold norm normSq dot
  rw [MirroredScalar.mul_self_opposed h.x, MirroredScalar.mul_self_opposed h.y,
    MirroredScalar.mul_self_opposed h.z]

theorem Opposed.dot (h : Opposed v w) (p : Vec3 α) : Scalar.Opposed (p.dot v) (p.dot w) :=
  MirroredScalar.add_opposed
    (MirroredScalar.add_opposed (MirroredScalar.mul_opposed p.x h.x)
      (MirroredScalar.mul_opposed p.y h.y))
    (MirroredScalar.mul_opposed p.z h.z)

theorem Opposed.unit? (h : Opposed v w) (shortest : α) :
    Option.Rel Opposed (v.unit? shortest) (w.unit? shortest) := by
  unfold Vec3.unit?
  simp only [h.norm_eq]
  split_ifs
  · exact .none
  · exact .some ⟨MirroredScalar.div_opposed _ h.x, MirroredScalar.div_opposed _ h.y,
      MirroredScalar.div_opposed _ h.z⟩

end Vec3

namespace Interval

/-- The ends of one interval are opposed to the other ends of the other. -/
structure Opposed (i j : Interval α) : Prop where
  lo_hi : Scalar.Opposed i.lo j.hi
  hi_lo : Scalar.Opposed i.hi j.lo

theorem ofPoints?_opposed (points : List (Vec3 α)) {v w : Vec3 α} (h : v.Opposed w) :
    Option.Rel Opposed (ofPoints? points v) (ofPoints? points w) := by
  have hleast := Scalar.minimum?_opposed (fun p ↦ h.dot p) points
  have hlargest := Scalar.minimum?_opposed (fun p ↦ (h.dot p).symm) points
  unfold ofPoints? hull?
  generalize Scalar.minimum? (points.map fun p ↦ p.dot v) = lo at hleast ⊢
  generalize Scalar.maximum? (points.map fun p ↦ p.dot v) = hi at hlargest ⊢
  generalize Scalar.minimum? (points.map fun p ↦ p.dot w) = lo' at hlargest ⊢
  generalize Scalar.maximum? (points.map fun p ↦ p.dot w) = hi' at hleast ⊢
  cases hleast with
  | none => cases hlargest <;> exact .none
  | some hlohi =>
    cases hlargest with
    | none => exact .none
    | some hlohi' => exact .some ⟨hlohi, hlohi'.symm⟩

end Interval

end Collision
