import Collision.Proofs.Space.Vector
import Collision.Space.Pose
import Mathlib.LinearAlgebra.Matrix.NonsingularInverse
import Mathlib.Tactic.LinearCombination

/-!
# Frames and rigid motions

`Mat3.Orthonormal` is a matrix of perpendicular unit columns: reading a vector in its frame and
writing it out again changes nothing, and scalar products do not see the change of frame.

`Rotation.IsUnit` is a quaternion of length one, and `Pose.Rigid` a pose with such a rotation. A
rigid pose moves points by an orthonormal frame (`Pose.matrix_orthonormal`), poses compose as the
motions do (`Pose.compose_transformPoint`), and an axis seen from the local frame measures the same
(`Pose.transformPoint_dot`).
-/

set_option autoImplicit false
set_option relaxedAutoImplicit false

namespace Collision

namespace Mat3

/-! ### Orthonormal frames -/

/-- The columns are perpendicular unit vectors. -/
structure Orthonormal (m : Mat3 ℝ) : Prop where
  unit0 : m.col0.dot m.col0 = 1
  unit1 : m.col1.dot m.col1 = 1
  unit2 : m.col2.dot m.col2 = 1
  perp01 : m.col0.dot m.col1 = 0
  perp02 : m.col0.dot m.col2 = 0
  perp12 : m.col1.dot m.col2 = 0

theorem mulVec_eq (m : Mat3 ℝ) (v : Vec3 ℝ) :
    m.mulVec v = v.x • m.col0 + v.y • m.col1 + v.z • m.col2 := by
  ext
  · simp only [mulVec, row, entry, col, Vec3.get, Vec3.dot_eq, Vec3.add_x, Vec3.smul_x]
    ring
  · simp only [mulVec, row, entry, col, Vec3.get, Vec3.dot_eq, Vec3.add_y, Vec3.smul_y]
    ring
  · simp only [mulVec, row, entry, col, Vec3.get, Vec3.dot_eq, Vec3.add_z, Vec3.smul_z]
    ring

theorem transposeMulVec_get (m : Mat3 ℝ) (v : Vec3 ℝ) (i : Fin 3) :
    (m.transposeMulVec v).get i = (m.col i).dot v := by
  fin_cases i <;> rfl

theorem mulVec_dot (m : Mat3 ℝ) (v w : Vec3 ℝ) :
    (m.mulVec v).dot w = v.dot (m.transposeMulVec w) := by
  rw [mulVec_eq]
  simp only [Vec3.add_dot, Vec3.smul_dot]
  rfl

namespace Orthonormal

variable {m n : Mat3 ℝ}

theorem mulVec_dot_mulVec (hm : m.Orthonormal) (v w : Vec3 ℝ) :
    (m.mulVec v).dot (m.mulVec w) = v.dot w := by
  rw [mulVec_eq, mulVec_eq]
  simp only [Vec3.add_dot, Vec3.dot_add, Vec3.smul_dot, Vec3.dot_smul, hm.unit0, hm.unit1,
    hm.unit2, hm.perp01, hm.perp02, hm.perp12, Vec3.dot_comm m.col1 m.col0,
    Vec3.dot_comm m.col2 m.col0, Vec3.dot_comm m.col2 m.col1, Vec3.dot_eq v w]
  ring

theorem transposeMulVec_mulVec (hm : m.Orthonormal) (v : Vec3 ℝ) :
    m.transposeMulVec (m.mulVec v) = v := by
  have h := hm.mulVec_dot_mulVec v
  rw [mulVec_eq] at h ⊢
  ext
  · simp [transposeMulVec, hm.unit0, hm.perp01, hm.perp02]
  · simp [transposeMulVec, hm.unit1, hm.perp01, hm.perp12, Vec3.dot_comm m.col1 m.col0]
  · simp [transposeMulVec, hm.unit2, hm.perp02, hm.perp12, Vec3.dot_comm m.col2 m.col0,
      Vec3.dot_comm m.col2 m.col1]

/-- The rows are perpendicular unit vectors too. -/
theorem transpose (hm : m.Orthonormal) : m.transpose.Orthonormal := by
  have hleft : Matrix.of (fun i j ↦ m.entry j i) * Matrix.of m.entry =
      (1 : Matrix (Fin 3) (Fin 3) ℝ) := by
    have h01 := Vec3.dot_comm m.col1 m.col0
    have h02 := Vec3.dot_comm m.col2 m.col0
    have h12 := Vec3.dot_comm m.col2 m.col1
    rw [hm.perp01] at h01
    rw [hm.perp02] at h02
    rw [hm.perp12] at h12
    ext i j
    rw [Matrix.mul_apply, Fin.sum_univ_three]
    fin_cases i <;> fin_cases j <;>
      first
        | exact hm.unit0 | exact hm.unit1 | exact hm.unit2 | exact hm.perp01 | exact hm.perp02
        | exact hm.perp12 | exact h01 | exact h02 | exact h12
  have hright := mul_eq_one_comm.mp hleft
  have hentry (i j : Fin 3) : m.entry i 0 * m.entry j 0 + m.entry i 1 * m.entry j 1 +
      m.entry i 2 * m.entry j 2 = (1 : Matrix (Fin 3) (Fin 3) ℝ) i j := by
    rw [← hright, Matrix.mul_apply, Fin.sum_univ_three]
    rfl
  exact ⟨hentry 0 0, hentry 1 1, hentry 2 2, hentry 0 1, hentry 0 2, hentry 1 2⟩

theorem mulVec_transposeMulVec (hm : m.Orthonormal) (v : Vec3 ℝ) :
    m.mulVec (m.transposeMulVec v) = v :=
  hm.transpose.transposeMulVec_mulVec v

theorem transposeMulVec_dot (hm : m.Orthonormal) (v w : Vec3 ℝ) :
    (m.transposeMulVec v).dot (m.transposeMulVec w) = v.dot w := by
  rw [← mulVec_dot, hm.mulVec_transposeMulVec]

theorem mul (hm : m.Orthonormal) (hn : n.Orthonormal) : (m * n).Orthonormal where
  unit0 := (hm.mulVec_dot_mulVec _ _).trans hn.unit0
  unit1 := (hm.mulVec_dot_mulVec _ _).trans hn.unit1
  unit2 := (hm.mulVec_dot_mulVec _ _).trans hn.unit2
  perp01 := (hm.mulVec_dot_mulVec _ _).trans hn.perp01
  perp02 := (hm.mulVec_dot_mulVec _ _).trans hn.perp02
  perp12 := (hm.mulVec_dot_mulVec _ _).trans hn.perp12

theorem dot_eq_transposeMulVec (hm : m.Orthonormal) (v w : Vec3 ℝ) :
    v.dot w = (m.transposeMulVec v).x * m.col0.dot w + (m.transposeMulVec v).y * m.col1.dot w +
      (m.transposeMulVec v).z * m.col2.dot w :=
  (hm.transposeMulVec_dot v w).symm

end Orthonormal

theorem identity_orthonormal : (identity : Mat3 ℝ).Orthonormal where
  unit0 := Vec3.axis_isDirection 0
  unit1 := Vec3.axis_isDirection 1
  unit2 := Vec3.axis_isDirection 2
  perp01 := by simp [identity, Vec3.axis, Vec3.ofFn, Vec3.dot_eq]
  perp02 := by simp [identity, Vec3.axis, Vec3.ofFn, Vec3.dot_eq]
  perp12 := by simp [identity, Vec3.axis, Vec3.ofFn, Vec3.dot_eq]

end Mat3

namespace Rotation

/-! ### Unit quaternions -/

/-- The quaternion has length one. -/
def IsUnit (q : Rotation ℝ) : Prop := q.normSq = 1

theorem isUnit_iff (q : Rotation ℝ) :
    q.IsUnit ↔ q.w * q.w + q.i * q.i + q.j * q.j + q.k * q.k = 1 := Iff.rfl

theorem identity_isUnit : (identity : Rotation ℝ).IsUnit := by simp [isUnit_iff, identity]

theorem IsUnit.inverse {q : Rotation ℝ} (hq : q.IsUnit) : q.inverse.IsUnit := by
  rw [isUnit_iff] at *
  simpa [Rotation.inverse] using hq

theorem ext {p q : Rotation ℝ} (hw : p.w = q.w) (hi : p.i = q.i) (hj : p.j = q.j)
    (hk : p.k = q.k) : p = q := by
  cases p
  cases q
  simp_all

section Components

variable (p q : Rotation ℝ)

theorem mul_w : (p * q).w = p.w * q.w - p.i * q.i - p.j * q.j - p.k * q.k := rfl

theorem mul_i : (p * q).i = p.w * q.i + p.i * q.w + p.j * q.k - p.k * q.j := rfl

theorem mul_j : (p * q).j = p.w * q.j - p.i * q.k + p.j * q.w + p.k * q.i := rfl

theorem mul_k : (p * q).k = p.w * q.k + p.i * q.j - p.j * q.i + p.k * q.w := rfl

end Components

theorem normSq_mul (p q : Rotation ℝ) : (p * q).normSq = p.normSq * q.normSq := by
  simp only [normSq, mul_w, mul_i, mul_j, mul_k]
  ring

theorem IsUnit.mul {p q : Rotation ℝ} (hp : p.IsUnit) (hq : q.IsUnit) : (p * q).IsUnit := by
  unfold IsUnit at *
  rw [normSq_mul, hp, hq, one_mul]

/-- Roll, pitch and yaw are quaternions of length one, and so is their product. -/
theorem ofEuler_isUnit (roll pitch yaw : ℝ) : (ofEuler roll pitch yaw).IsUnit := by
  have hone (t : ℝ) : Real.sin t * Real.sin t + Real.cos t * Real.cos t = 1 := by
    rw [← sq, ← sq]
    exact Real.sin_sq_add_cos_sq t
  simp only [isUnit_iff, ofEuler, Scalar.sin_real, Scalar.cos_real]
  generalize roll * _ = r
  generalize pitch * _ = p
  generalize yaw * _ = y
  linear_combination hone r * (Real.sin p * Real.sin p + Real.cos p * Real.cos p) *
    (Real.sin y * Real.sin y + Real.cos y * Real.cos y) +
    hone p * (Real.sin y * Real.sin y + Real.cos y * Real.cos y) + hone y

/-! ### Rotated vectors -/

/-- An axis measures a rotated vector as the axis rotated back measures the vector. -/
theorem apply_dot (q : Rotation ℝ) (v w : Vec3 ℝ) :
    (q.apply v).dot w = v.dot (q.inverse.apply w) := by
  simp only [apply, inverse, vector, Vec3.mul_eq_smul, Vec3.cross, Vec3.dot_eq, Vec3.add_x,
    Vec3.add_y, Vec3.add_z, Vec3.smul_x, Vec3.smul_y, Vec3.smul_z]
  ring

theorem matrix_mulVec {q : Rotation ℝ} (hq : q.IsUnit) (v : Vec3 ℝ) :
    q.matrix.mulVec v = q.apply v := by
  have h := q.isUnit_iff.mp hq
  ext
  · simp [matrix, apply, vector, Vec3.mul_eq_smul, Vec3.cross, Mat3.mulVec, Mat3.row, Mat3.entry,
      Mat3.col, Mat3.ofRows, Vec3.get, Vec3.dot_eq]
    linear_combination v.x * h
  · simp [matrix, apply, vector, Vec3.mul_eq_smul, Vec3.cross, Mat3.mulVec, Mat3.row, Mat3.entry,
      Mat3.col, Mat3.ofRows, Vec3.get, Vec3.dot_eq]
    linear_combination v.y * h
  · simp [matrix, apply, vector, Vec3.mul_eq_smul, Vec3.cross, Mat3.mulVec, Mat3.row, Mat3.entry,
      Mat3.col, Mat3.ofRows, Vec3.get, Vec3.dot_eq]
    linear_combination v.z * h

theorem matrix_orthonormal {q : Rotation ℝ} (hq : q.IsUnit) : q.matrix.Orthonormal := by
  have h := q.isUnit_iff.mp hq
  have hsq : (q.w * q.w + q.i * q.i + q.j * q.j + q.k * q.k) *
      (q.w * q.w + q.i * q.i + q.j * q.j + q.k * q.k) = 1 := by rw [h, one_mul]
  constructor
  · simp [matrix, Mat3.ofRows, Vec3.dot_eq]
    linear_combination hsq
  · simp [matrix, Mat3.ofRows, Vec3.dot_eq]
    linear_combination hsq
  · simp [matrix, Mat3.ofRows, Vec3.dot_eq]
    linear_combination hsq
  · simp [matrix, Mat3.ofRows, Vec3.dot_eq]
    ring
  · simp [matrix, Mat3.ofRows, Vec3.dot_eq]
    ring
  · simp [matrix, Mat3.ofRows, Vec3.dot_eq]
    ring

theorem apply_dot_apply {q : Rotation ℝ} (hq : q.IsUnit) (v w : Vec3 ℝ) :
    (q.apply v).dot (q.apply w) = v.dot w := by
  rw [← matrix_mulVec hq, ← matrix_mulVec hq]
  exact (matrix_orthonormal hq).mulVec_dot_mulVec v w

/-- Rotating back and forth changes nothing. -/
theorem apply_inverse_apply {q : Rotation ℝ} (hq : q.IsUnit) (v : Vec3 ℝ) :
    q.apply (q.inverse.apply v) = v := by
  have hdot (w : Vec3 ℝ) : (q.apply (q.inverse.apply v) - v).dot w = 0 := by
    rw [Vec3.sub_dot, apply_dot, apply_dot_apply hq.inverse, sub_self]
  exact sub_eq_zero.mp (Vec3.eq_zero_of_dot_self (hdot _))

theorem norm_apply {q : Rotation ℝ} (hq : q.IsUnit) (v : Vec3 ℝ) : ‖q.apply v‖ = ‖v‖ := by
  rw [Vec3.norm_eq_sqrt_dot, Vec3.norm_eq_sqrt_dot, apply_dot_apply hq]

theorem apply_add (q : Rotation ℝ) (v w : Vec3 ℝ) : q.apply (v + w) = q.apply v + q.apply w := by
  ext <;> simp [apply, vector, Vec3.mul_eq_smul, Vec3.cross] <;> ring

theorem apply_smul (q : Rotation ℝ) (s : ℝ) (v : Vec3 ℝ) : q.apply (s • v) = s • q.apply v := by
  ext <;> simp [apply, vector, Vec3.mul_eq_smul, Vec3.cross] <;> ring

theorem identity_apply (v : Vec3 ℝ) : (identity : Rotation ℝ).apply v = v := by
  ext <;> simp [identity, apply, vector, Vec3.mul_eq_smul, Vec3.cross]

theorem matrix_mul (p q : Rotation ℝ) (v : Vec3 ℝ) :
    (p * q).matrix.mulVec v = p.matrix.mulVec (q.matrix.mulVec v) := by
  ext <;>
    · simp [matrix, mul_w, mul_i, mul_j, mul_k, Mat3.mulVec, Mat3.row, Mat3.entry, Mat3.col,
        Mat3.ofRows, Vec3.get, Vec3.dot_eq]
      ring

theorem mul_apply {p q : Rotation ℝ} (hp : p.IsUnit) (hq : q.IsUnit) (v : Vec3 ℝ) :
    (p * q).apply v = p.apply (q.apply v) := by
  rw [← matrix_mulVec (hp.mul hq), matrix_mul, matrix_mulVec hq, matrix_mulVec hp]

theorem mul_assoc (p q r : Rotation ℝ) : p * q * r = p * (q * r) := by
  apply Rotation.ext
  · simp only [mul_w, mul_i, mul_j, mul_k]
    ring
  · simp only [mul_w, mul_i, mul_j, mul_k]
    ring
  · simp only [mul_w, mul_i, mul_j, mul_k]
    ring
  · simp only [mul_w, mul_i, mul_j, mul_k]
    ring

/-- A product is undone by undoing the outer rotation first. -/
theorem inverse_mul (p q : Rotation ℝ) : (p * q).inverse = q.inverse * p.inverse := by
  apply Rotation.ext
  · simp only [inverse, mul_w, mul_i, mul_j, mul_k]
    ring
  · simp only [inverse, mul_w, mul_i, mul_j, mul_k]
    ring
  · simp only [inverse, mul_w, mul_i, mul_j, mul_k]
    ring
  · simp only [inverse, mul_w, mul_i, mul_j, mul_k]
    ring

end Rotation

namespace Pose

/-! ### Rigid poses -/

/-- The rotation of the pose is a unit quaternion. -/
def Rigid (pose : Pose ℝ) : Prop := pose.rotation.IsUnit

theorem identity_rigid : (identity : Pose ℝ).Rigid := Rotation.identity_isUnit

theorem identity_transformPoint (p : Vec3 ℝ) : (identity : Pose ℝ).transformPoint p = p := by
  unfold identity transformPoint
  rw [Rotation.identity_apply, Vec3.zero_eq, zero_add]

theorem ofPosition_transformPoint (position p : Vec3 ℝ) :
    (ofPosition position).transformPoint p = position + p := by
  unfold ofPosition transformPoint
  rw [Rotation.identity_apply]

theorem ofPosition_inverseTransformVector (position v : Vec3 ℝ) :
    (ofPosition position).inverseTransformVector v = v := by
  have h := Rotation.apply_inverse_apply Rotation.identity_isUnit v
  rwa [Rotation.identity_apply] at h

theorem identity_inverseTransformVector (v : Vec3 ℝ) :
    (identity : Pose ℝ).inverseTransformVector v = v := ofPosition_inverseTransformVector 0 v

theorem Rigid.compose {outer inner : Pose ℝ} (houter : outer.Rigid) (hinner : inner.Rigid) :
    (outer.compose inner).Rigid :=
  Rotation.IsUnit.mul houter hinner

/-- Composed poses move a point by the inner pose first. -/
theorem compose_transformPoint {outer inner : Pose ℝ} (houter : outer.Rigid)
    (hinner : inner.Rigid) (p : Vec3 ℝ) :
    (outer.compose inner).transformPoint p = outer.transformPoint (inner.transformPoint p) := by
  unfold compose transformPoint
  rw [Rotation.mul_apply houter hinner, Rotation.apply_add, add_assoc]

theorem compose_assoc {outer middle : Pose ℝ} (houter : outer.Rigid) (hmiddle : middle.Rigid)
    (inner : Pose ℝ) :
    (outer.compose middle).compose inner = outer.compose (middle.compose inner) := by
  have hposition := compose_transformPoint houter hmiddle inner.position
  have hrotation := Rotation.mul_assoc outer.rotation middle.rotation inner.rotation
  exact congrArg₂ Pose.mk hposition hrotation

/-- A direction is read in the frame of the outer pose first. -/
theorem compose_inverseTransformVector {outer inner : Pose ℝ} (houter : outer.Rigid)
    (hinner : inner.Rigid) (v : Vec3 ℝ) :
    (outer.compose inner).inverseTransformVector v =
      inner.inverseTransformVector (outer.inverseTransformVector v) := by
  show (outer.rotation * inner.rotation).inverse.apply v = _
  rw [Rotation.inverse_mul]
  exact Rotation.mul_apply (Rotation.IsUnit.inverse hinner) (Rotation.IsUnit.inverse houter) v

/-- A frame is turned by the inner pose first. -/
theorem compose_matrix_mul (outer inner : Pose ℝ) (m : Mat3 ℝ) :
    (outer.compose inner).matrix * m = outer.matrix * (inner.matrix * m) := by
  have hcol (v : Vec3 ℝ) : (outer.compose inner).matrix.mulVec v =
      outer.matrix.mulVec (inner.matrix.mulVec v) :=
    Rotation.matrix_mul outer.rotation inner.rotation v
  show Mat3.mk _ _ _ = Mat3.mk _ _ _
  rw [hcol, hcol, hcol]
  rfl

/-- A point read in the local frame and placed again is where it was. -/
theorem Rigid.transformPoint_inverseTransformPoint {pose : Pose ℝ} (hpose : pose.Rigid)
    (p : Vec3 ℝ) : pose.transformPoint (pose.inverseTransformPoint p) = p := by
  unfold transformPoint inverseTransformPoint
  rw [Rotation.apply_inverse_apply hpose, add_sub_cancel]

theorem transformPoint_sub (pose : Pose ℝ) (p q : Vec3 ℝ) :
    pose.transformPoint p - pose.transformPoint q = pose.rotation.apply (p - q) := by
  have h := pose.rotation.apply_add (p - q) q
  rw [sub_add_cancel] at h
  unfold transformPoint
  rw [h]
  abel

/-- Rigid poses keep distances. -/
theorem Rigid.norm_transformPoint_sub {pose : Pose ℝ} (hpose : pose.Rigid) (p q : Vec3 ℝ) :
    ‖pose.transformPoint p - pose.transformPoint q‖ = ‖p - q‖ := by
  rw [transformPoint_sub, Rotation.norm_apply hpose]

/-- An axis measures a placed point as the axis in local coordinates does, up to the position. -/
theorem transformPoint_dot (pose : Pose ℝ) (p axis : Vec3 ℝ) :
    (pose.transformPoint p).dot axis =
      pose.position.dot axis + p.dot (pose.inverseTransformVector axis) := by
  unfold transformPoint inverseTransformVector
  rw [Vec3.add_dot, Rotation.apply_dot]

theorem inverseTransformVector_smul (pose : Pose ℝ) (s : ℝ) (v : Vec3 ℝ) :
    pose.inverseTransformVector (s • v) = s • pose.inverseTransformVector v :=
  Rotation.apply_smul _ s v

theorem norm_inverseTransformVector {pose : Pose ℝ} (hpose : pose.Rigid) (v : Vec3 ℝ) :
    ‖pose.inverseTransformVector v‖ = ‖v‖ :=
  Rotation.norm_apply (Rotation.IsUnit.inverse hpose) v

theorem matrix_orthonormal {pose : Pose ℝ} (hpose : pose.Rigid) : pose.matrix.Orthonormal :=
  Rotation.matrix_orthonormal hpose

theorem matrix_transposeMulVec {pose : Pose ℝ} (hpose : pose.Rigid) (v : Vec3 ℝ) :
    pose.matrix.transposeMulVec (pose.rotation.apply v) = v := by
  rw [← Rotation.matrix_mulVec hpose]
  exact (matrix_orthonormal hpose).transposeMulVec_mulVec v

/-! ### Moved poses -/

/-- The pose moved by a vector of the parent frame, with the rotation it had. -/
noncomputable def translated (pose : Pose ℝ) (offset : Vec3 ℝ) : Pose ℝ :=
  ⟨pose.position + offset, pose.rotation⟩

theorem Rigid.translated {pose : Pose ℝ} (hpose : pose.Rigid) (offset : Vec3 ℝ) :
    (pose.translated offset).Rigid := hpose

theorem translated_transformPoint (pose : Pose ℝ) (offset p : Vec3 ℝ) :
    (pose.translated offset).transformPoint p = pose.transformPoint p + offset := by
  show pose.position + offset + pose.rotation.apply p =
    pose.position + pose.rotation.apply p + offset
  abel

theorem translated_compose (outer inner : Pose ℝ) (offset : Vec3 ℝ) :
    (outer.translated offset).compose inner = (outer.compose inner).translated offset := by
  unfold compose
  rw [translated_transformPoint]
  rfl

end Pose

end Collision
