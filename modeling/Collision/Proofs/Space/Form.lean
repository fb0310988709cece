import Collision.Proofs.Space.Frame

/-!
# Matrices as bilinear forms

A matrix of real numbers is known by the numbers `Mat3.form` that it makes of pairs of vectors
(`Mat3.ext_form`), and these are linear in the matrix. The form of a product of vectors is a product
of numbers (`Mat3.form_outer`), and the form of a matrix seen from another frame is its form on the
vectors read in that frame (`Mat3.form_conjugate`). Identities of matrices become identities of
numbers this way.
-/

set_option autoImplicit false
set_option relaxedAutoImplicit false

namespace Collision

attribute [ext] Mat3

namespace Mat3

/-- The second vector multiplied by the matrix, measured by the first. -/
noncomputable def form (m : Mat3 ℝ) (v w : Vec3 ℝ) : ℝ := v.dot (m.mulVec w)

section Linear

variable (m n : Mat3 ℝ) (s : ℝ) (v w : Vec3 ℝ)

theorem form_eq : m.form v w = w.x * v.dot m.col0 + w.y * v.dot m.col1 + w.z * v.dot m.col2 := by
  rw [form, mulVec_eq]
  simp only [Vec3.dot_add, Vec3.dot_smul]

theorem form_add : (m + n).form v w = m.form v w + n.form v w := by
  have hsum : m + n = ⟨m.col0 + n.col0, m.col1 + n.col1, m.col2 + n.col2⟩ := rfl
  rw [hsum, form_eq, form_eq, form_eq]
  simp only [Vec3.dot_add]
  ring

theorem form_sub : (m - n).form v w = m.form v w - n.form v w := by
  have hdifference : m - n = ⟨m.col0 - n.col0, m.col1 - n.col1, m.col2 - n.col2⟩ := rfl
  rw [hdifference, form_eq, form_eq, form_eq]
  simp only [Vec3.dot_sub]
  ring

theorem form_mul : (m * s).form v w = m.form v w * s := by
  have hproduct : m * s = ⟨s • m.col0, s • m.col1, s • m.col2⟩ := rfl
  rw [hproduct, form_eq, form_eq]
  simp only [Vec3.dot_smul]
  ring

theorem form_div : (m / s).form v w = m.form v w / s := by
  have hquotient : m / s = ⟨m.col0 / s, m.col1 / s, m.col2 / s⟩ := rfl
  rw [hquotient, form_eq, form_eq]
  simp only [Vec3.div_eq_smul, Vec3.dot_smul]
  ring

theorem form_zero : (zero : Mat3 ℝ).form v w = 0 := by
  rw [form_eq]
  simp [zero, Vec3.zero_eq]

theorem form_outer (a b : Vec3 ℝ) : (outer a b).form v w = v.dot a * b.dot w := by
  rw [form_eq]
  simp only [outer, Vec3.mul_eq_smul, Vec3.dot_smul, Vec3.dot_eq b w]
  ring

end Linear

/-- Matrices that make the same numbers of all pairs of vectors are equal. -/
theorem ext_form {m n : Mat3 ℝ} (h : ∀ v w, m.form v w = n.form v w) : m = n := by
  have hcol (k : Mat3 ℝ) (i j : Fin 3) :
      k.form (Vec3.axis i) (Vec3.axis j) = (k.col j).get i := by
    rw [form_eq, ← Vec3.dot_axis, Vec3.dot_comm (k.col j)]
    fin_cases j <;> simp [Vec3.axis, Vec3.ofFn, col]
  have hcols (j : Fin 3) : m.col j = n.col j :=
    Vec3.ext_get fun i ↦ by rw [← hcol, ← hcol, h]
  exact Mat3.ext (hcols 0) (hcols 1) (hcols 2)

theorem mul_mulVec (m n : Mat3 ℝ) (v : Vec3 ℝ) : (m * n).mulVec v = m.mulVec (n.mulVec v) := by
  have hproduct : m * n = ⟨m.mulVec n.col0, m.mulVec n.col1, m.mulVec n.col2⟩ := rfl
  rw [hproduct, mulVec_eq, mulVec_eq n, mulVec_eq m, mulVec_eq m, mulVec_eq m, mulVec_eq m]
  ext <;> simp <;> ring

/-- Exchanging rows and columns exchanges the vectors. -/
theorem form_transpose (m : Mat3 ℝ) (v w : Vec3 ℝ) : m.transpose.form v w = m.form w v := by
  rw [form, form, Vec3.dot_comm w, mulVec_dot]
  rfl

/-- The form of a matrix in another frame is its form on vectors read in that frame. -/
theorem form_conjugate (r m : Mat3 ℝ) (v w : Vec3 ℝ) :
    (r * m * r.transpose).form v w = m.form (r.transposeMulVec v) (r.transposeMulVec w) := by
  have hread : r.transpose.mulVec w = r.transposeMulVec w := rfl
  rw [form, mul_mulVec, mul_mulVec, hread, Vec3.dot_comm, mulVec_dot, Vec3.dot_comm, form]

end Mat3

end Collision
