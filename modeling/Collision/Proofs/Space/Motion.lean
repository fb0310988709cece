import Collision.Proofs.Space.Form
import Mathlib.Algebra.Group.Action.Defs

/-!
# Rigid motions

Rigid poses are a group: `Pose.compose` is its product, `Pose.identity` its unit and `Pose.inverse`
undoes a pose (`Motion`). The group acts on the points of space by `Pose.transformPoint`. What poses
do to each other is group theory from there on: reading a point in a local frame is moving it by the
inverse (`Pose.inverse_transformPoint`), and a pose read in the frame of another is the inverse of
that one composed with it (`Pose.inverse_compose_eq_relative`).

A rotation is kept as a quaternion and used as a matrix too. The two agree for quaternions of length
one: the columns of the matrix are the rotated axes (`Rotation.matrix_col`), and the matrix of a
product is the product of the matrices (`Rotation.matrix_mul_eq`). `Pose.rigid_group_action` collects
what holds of all rigid poses.
-/

set_option autoImplicit false
set_option relaxedAutoImplicit false

namespace Collision

namespace Rotation

/-! ### Quaternions -/

theorem identity_mul (q : Rotation ℝ) : identity * q = q := by
  apply Rotation.ext <;> simp [mul_w, mul_i, mul_j, mul_k, identity]

theorem mul_identity (q : Rotation ℝ) : q * identity = q := by
  apply Rotation.ext <;> simp [mul_w, mul_i, mul_j, mul_k, identity]

/-- The conjugate undoes a quaternion of length one, with the sign it has. -/
theorem IsUnit.inverse_mul_self {q : Rotation ℝ} (hq : q.IsUnit) : q.inverse * q = identity := by
  rw [isUnit_iff] at hq
  apply Rotation.ext
  · simp only [Rotation.inverse, mul_w, identity, Scalar.one_real]
    linear_combination hq
  · simp only [Rotation.inverse, mul_i, identity, Scalar.zero_real]
    ring
  · simp only [Rotation.inverse, mul_j, identity, Scalar.zero_real]
    ring
  · simp only [Rotation.inverse, mul_k, identity, Scalar.zero_real]
    ring

theorem apply_neg (q : Rotation ℝ) (v : Vec3 ℝ) : q.apply (-v) = -q.apply v := by
  rw [← neg_one_smul ℝ v, apply_smul, neg_one_smul]

/-! ### Matrices -/

theorem matrix_mul_eq (p q : Rotation ℝ) : (p * q).matrix = p.matrix * q.matrix :=
  Mat3.ext_form fun v w ↦ by
    rw [Mat3.form, Mat3.form, matrix_mul, Mat3.mul_mulVec]

/-- The columns of the matrix are the rotated coordinate axes. -/
theorem matrix_col {q : Rotation ℝ} (hq : q.IsUnit) (i : Fin 3) :
    q.matrix.col i = q.apply (Vec3.axis i) := by
  rw [← matrix_mulVec hq, Mat3.mulVec_eq]
  fin_cases i <;> simp [Vec3.axis, Vec3.ofFn, Mat3.col]

end Rotation

namespace Pose

variable {pose other : Pose ℝ}

/-! ### Unit and inverse -/

theorem identity_compose (pose : Pose ℝ) : identity.compose pose = pose :=
  congrArg₂ Pose.mk (identity_transformPoint pose.position) (Rotation.identity_mul pose.rotation)

theorem compose_identity (pose : Pose ℝ) : pose.compose identity = pose := by
  have hposition : pose.transformPoint Vec3.zero = pose.position := by
    rw [Vec3.zero_eq, transformPoint, ← zero_smul ℝ (0 : Vec3 ℝ), Rotation.apply_smul, zero_smul,
      add_zero]
  exact congrArg₂ Pose.mk hposition (Rotation.mul_identity pose.rotation)

/-- Rigid poses move different points to different places. -/
theorem Rigid.transformPoint_injective (hpose : pose.Rigid) :
    Function.Injective pose.transformPoint := by
  intro p q h
  have hnorm := hpose.norm_transformPoint_sub p q
  rw [h, sub_self, norm_zero] at hnorm
  exact sub_eq_zero.mp (norm_eq_zero.mp hnorm.symm)

theorem Rigid.inverse (hpose : pose.Rigid) : pose.inverse.Rigid := Rotation.IsUnit.inverse hpose

/-- Reading a point in the local frame is moving it by the inverse pose. -/
theorem inverse_transformPoint (pose : Pose ℝ) (p : Vec3 ℝ) :
    pose.inverse.transformPoint p = pose.inverseTransformPoint p := by
  show -pose.rotation.inverse.apply pose.position + pose.rotation.inverse.apply p =
    pose.rotation.inverse.apply (p - pose.position)
  rw [sub_eq_add_neg, Rotation.apply_add, Rotation.apply_neg, add_comm]

/-- Reading a pose in the local frame is composing it with the inverse pose. -/
theorem inverse_compose_eq_relative (pose other : Pose ℝ) :
    pose.inverse.compose other = pose.relative other := by
  rw [compose, inverse_transformPoint]
  rfl

theorem Rigid.inverse_compose (hpose : pose.Rigid) : pose.inverse.compose pose = identity := by
  have hposition : pose.inverse.transformPoint pose.position = Vec3.zero := by
    rw [inverse_transformPoint, inverseTransformPoint, sub_self, ← zero_smul ℝ (0 : Vec3 ℝ),
      Rotation.apply_smul, zero_smul, Vec3.zero_eq]
  exact congrArg₂ Pose.mk hposition (Rotation.IsUnit.inverse_mul_self hpose)

end Pose

/-! ### The group and its action -/

/-- A rigid pose, as a motion of space. -/
abbrev Motion : Type := {pose : Pose ℝ // pose.Rigid}

namespace Motion

noncomputable instance : Group Motion where
  mul a b := ⟨a.1.compose b.1, a.2.compose b.2⟩
  one := ⟨Pose.identity, Pose.identity_rigid⟩
  inv a := ⟨a.1.inverse, a.2.inverse⟩
  mul_assoc a b c := Subtype.ext (Pose.compose_assoc a.2 b.2 c.1)
  one_mul a := Subtype.ext (Pose.identity_compose a.1)
  mul_one a := Subtype.ext (Pose.compose_identity a.1)
  inv_mul_cancel a := Subtype.ext a.2.inverse_compose

noncomputable instance : MulAction Motion (Vec3 ℝ) where
  smul a p := a.1.transformPoint p
  one_smul p := Pose.identity_transformPoint p
  mul_smul a b p := Pose.compose_transformPoint a.2 b.2 p

theorem inv_smul_eq (a : Motion) (p : Vec3 ℝ) : a⁻¹ • p = a.1.inverseTransformPoint p :=
  a.1.inverse_transformPoint p

theorem val_inv_mul (a b : Motion) : (a⁻¹ * b).1 = a.1.relative b.1 :=
  a.1.inverse_compose_eq_relative b.1

end Motion

namespace Pose

/-- Rigid poses are a group with `compose` as product, `identity` as unit and `inverse` as inverse,
and the group acts on points by `transformPoint`. The inverse and the local coordinates undo a pose
from either side, and a pose that is read in the frame of another and placed from there again is the
pose it was. The matrix of a composed pose is the product of the matrices, its columns are the
axes, and distances stay as they are. -/
theorem rigid_group_action {a b : Pose ℝ} (ha : a.Rigid) (hb : b.Rigid) (c : Pose ℝ)
    (x y : Vec3 ℝ) :
    ((identity : Pose ℝ).Rigid ∧ (a.compose b).Rigid ∧ a.inverse.Rigid) ∧
      ((a.compose b).compose c = a.compose (b.compose c) ∧ identity.compose a = a ∧
        a.compose identity = a) ∧
      (a.compose a.inverse = identity ∧ a.inverse.compose a = identity) ∧
      (identity.transformPoint x = x ∧
        (a.compose b).transformPoint x = a.transformPoint (b.transformPoint x)) ∧
      (a.inverseTransformPoint (a.transformPoint x) = x ∧
        a.transformPoint (a.inverseTransformPoint x) = x) ∧
      (a.compose (a.relative b) = b ∧
        (a.compose (a.relative b)).transformPoint x = b.transformPoint x) ∧
      ((a.compose b).matrix = a.matrix * b.matrix ∧ ∀ i, a.matrix.col i = a.axis i) ∧
      ‖a.transformPoint x - a.transformPoint y‖ = ‖x - y‖ := by
  let f : Motion := ⟨a, ha⟩
  let g : Motion := ⟨b, hb⟩
  have hrelative : a.compose (a.relative b) = b := by
    have h := congrArg Subtype.val (mul_inv_cancel_left f g)
    rwa [← Motion.val_inv_mul f g]
  refine ⟨⟨identity_rigid, ha.compose hb, ha.inverse⟩,
    ⟨compose_assoc ha hb c, identity_compose a, compose_identity a⟩,
    ⟨congrArg Subtype.val (mul_inv_cancel f), ha.inverse_compose⟩,
    ⟨identity_transformPoint x, compose_transformPoint ha hb x⟩, ⟨?_, ?_⟩,
    ⟨hrelative, by rw [hrelative]⟩,
    ⟨Rotation.matrix_mul_eq a.rotation b.rotation, Rotation.matrix_col ha⟩,
    ha.norm_transformPoint_sub x y⟩
  · rw [← Motion.inv_smul_eq f]
    exact inv_smul_smul f x
  · rw [← Motion.inv_smul_eq f]
    exact smul_inv_smul f x

/-- A third of a turn about the diagonal of space, and a turn about y by an angle of cosine
`-7 / 25`. -/
theorem rigid_group_action_of_turns :
    let a : Pose ℝ := ⟨⟨1, 2, 3⟩, ⟨1 / 2, 1 / 2, 1 / 2, 1 / 2⟩⟩
    let b : Pose ℝ := ⟨⟨0, -1, 1⟩, ⟨3 / 5, 0, 4 / 5, 0⟩⟩
    a.Rigid ∧ b.Rigid ∧ a.compose (a.relative b) = b ∧ a.compose a.inverse = identity ∧
      (a.compose b).transformPoint ⟨1, 0, 0⟩ = ⟨26 / 25, 43 / 25, 2⟩ := by
  intro a b
  have ha : a.Rigid := by norm_num [Rigid, Rotation.isUnit_iff, a]
  have hb : b.Rigid := by norm_num [Rigid, Rotation.isUnit_iff, b]
  obtain ⟨-, -, ⟨hinverse, -⟩, ⟨-, hcompose⟩, -, ⟨hrelative, -⟩, -⟩ :=
    rigid_group_action ha hb identity ⟨1, 0, 0⟩ 0
  refine ⟨ha, hb, hrelative, hinverse, hcompose.trans ?_⟩
  ext <;> norm_num [transformPoint, Rotation.apply, Rotation.vector, Vec3.mul_eq_smul, Vec3.cross,
    a, b]

end Pose

end Collision
