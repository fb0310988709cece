import Collision.Proofs.Scalar.Exact
import Collision.Space.Vector
import Mathlib.Analysis.InnerProductSpace.Basic
import Mathlib.LinearAlgebra.FiniteDimensional.Basic

/-!
# Vectors in exact arithmetic

Vectors of real numbers are a Euclidean space: `Vec3.dot` is its inner product and `Vec3.norm` its
norm. The lemmas of this module rewrite the operations of the library into those of that space, and
give the few identities of the vector product that frames and portals need.

`Vec3.IsDirection` is a vector of length one; `Vec3.unit?` and `Vec3.normalize` make them.
-/

set_option autoImplicit false
set_option relaxedAutoImplicit false

namespace Collision

attribute [ext] Vec3

namespace Vec3

/-! ### Components -/

section Components

variable (v w : Vec3 ℝ) (s : ℝ)

@[simp]
theorem add_x : (v + w).x = v.x + w.x := rfl

@[simp]
theorem add_y : (v + w).y = v.y + w.y := rfl

@[simp]
theorem add_z : (v + w).z = v.z + w.z := rfl

@[simp]
theorem sub_x : (v - w).x = v.x - w.x := rfl

@[simp]
theorem sub_y : (v - w).y = v.y - w.y := rfl

@[simp]
theorem sub_z : (v - w).z = v.z - w.z := rfl

@[simp]
theorem neg_x : (-v).x = -v.x := rfl

@[simp]
theorem neg_y : (-v).y = -v.y := rfl

@[simp]
theorem neg_z : (-v).z = -v.z := rfl

end Components

/-! ### The space -/

instance : Zero (Vec3 ℝ) := ⟨⟨0, 0, 0⟩⟩

noncomputable instance : AddCommGroup (Vec3 ℝ) where
  add_assoc u v w := by ext <;> simp [add_assoc]
  zero_add v := by
    ext
    · exact zero_add v.x
    · exact zero_add v.y
    · exact zero_add v.z
  add_zero v := by
    ext
    · exact add_zero v.x
    · exact add_zero v.y
    · exact add_zero v.z
  add_comm v w := by ext <;> simp [add_comm]
  neg_add_cancel v := by
    ext
    · exact neg_add_cancel v.x
    · exact neg_add_cancel v.y
    · exact neg_add_cancel v.z
  sub_eq_add_neg v w := by ext <;> simp [sub_eq_add_neg]
  nsmul := nsmulRec
  zsmul := zsmulRec

noncomputable instance : SMul ℝ (Vec3 ℝ) := ⟨fun s v ↦ v * s⟩

theorem mul_eq_smul (v : Vec3 ℝ) (s : ℝ) : v * s = s • v := rfl

@[simp]
theorem zero_x : (0 : Vec3 ℝ).x = 0 := rfl

@[simp]
theorem zero_y : (0 : Vec3 ℝ).y = 0 := rfl

@[simp]
theorem zero_z : (0 : Vec3 ℝ).z = 0 := rfl

@[simp]
theorem smul_x (s : ℝ) (v : Vec3 ℝ) : (s • v).x = s * v.x := mul_comm _ _

@[simp]
theorem smul_y (s : ℝ) (v : Vec3 ℝ) : (s • v).y = s * v.y := mul_comm _ _

@[simp]
theorem smul_z (s : ℝ) (v : Vec3 ℝ) : (s • v).z = s * v.z := mul_comm _ _

theorem zero_eq : (Vec3.zero : Vec3 ℝ) = 0 := by ext <;> simp [Vec3.zero, Vec3.replicate]

theorem div_eq_smul (v : Vec3 ℝ) (s : ℝ) : v / s = s⁻¹ • v := by
  ext
  · rw [smul_x, ← div_eq_inv_mul]
    rfl
  · rw [smul_y, ← div_eq_inv_mul]
    rfl
  · rw [smul_z, ← div_eq_inv_mul]
    rfl

noncomputable instance : Module ℝ (Vec3 ℝ) where
  one_smul v := by ext <;> simp
  mul_smul s t v := by ext <;> simp [mul_assoc]
  smul_zero s := by ext <;> simp
  smul_add s v w := by ext <;> simp [mul_add]
  add_smul s t v := by ext <;> simp [add_mul]
  zero_smul v := by ext <;> simp

theorem dot_eq (v w : Vec3 ℝ) : v.dot w = v.x * w.x + v.y * w.y + v.z * w.z := rfl

theorem dot_self_nonneg (v : Vec3 ℝ) : 0 ≤ v.dot v := by
  rw [dot_eq]
  have hx := mul_self_nonneg v.x
  have hy := mul_self_nonneg v.y
  have hz := mul_self_nonneg v.z
  linarith

theorem eq_zero_of_dot_self {v : Vec3 ℝ} (h : v.dot v = 0) : v = 0 := by
  rw [dot_eq] at h
  have hx := mul_self_nonneg v.x
  have hy := mul_self_nonneg v.y
  have hz := mul_self_nonneg v.z
  ext
  · exact mul_self_eq_zero.mp (by linarith)
  · exact mul_self_eq_zero.mp (by linarith)
  · exact mul_self_eq_zero.mp (by linarith)

/-- The scalar product is an inner product. -/
noncomputable abbrev innerCore : InnerProductSpace.Core ℝ (Vec3 ℝ) where
  inner := dot
  conj_inner_symm v w := by
    simp only [dot_eq, conj_trivial]
    ring
  re_inner_nonneg v := dot_self_nonneg v
  add_left u v w := by
    simp only [dot_eq, add_x, add_y, add_z]
    ring
  smul_left v w s := by
    simp only [dot_eq, smul_x, smul_y, smul_z, conj_trivial]
    ring
  definite v h := eq_zero_of_dot_self h

noncomputable instance : NormedAddCommGroup (Vec3 ℝ) :=
  @InnerProductSpace.Core.toNormedAddCommGroup ℝ (Vec3 ℝ) _ _ _ innerCore

noncomputable instance : InnerProductSpace ℝ (Vec3 ℝ) := .ofCore innerCore.toCore

theorem norm_eq_norm (v : Vec3 ℝ) : v.norm = ‖v‖ := rfl

/-- The components as a linear map. -/
noncomputable def components : Vec3 ℝ ≃ₗ[ℝ] (Fin 3 → ℝ) where
  toFun := get
  invFun := ofFn
  map_add' v w := by
    funext i
    fin_cases i <;> rfl
  map_smul' s v := by
    funext i
    fin_cases i
    · exact smul_x s v
    · exact smul_y s v
    · exact smul_z s v
  left_inv _ := rfl
  right_inv component := by
    funext i
    fin_cases i <;> rfl

instance : FiniteDimensional ℝ (Vec3 ℝ) := Module.Finite.equiv components.symm

theorem get_add (v w : Vec3 ℝ) (i : Fin 3) : (v + w).get i = v.get i + w.get i :=
  congrFun (components.map_add v w) i

theorem get_sub (v w : Vec3 ℝ) (i : Fin 3) : (v - w).get i = v.get i - w.get i :=
  congrFun (components.map_sub v w) i

theorem get_smul (s : ℝ) (v : Vec3 ℝ) (i : Fin 3) : (s • v).get i = s * v.get i :=
  congrFun (components.map_smul s v) i

theorem abs_get (v : Vec3 ℝ) (i : Fin 3) : v.abs.get i = |v.get i| := by
  fin_cases i <;> rfl

theorem get_axis (i j : Fin 3) : (axis i : Vec3 ℝ).get j = if i = j then 1 else 0 := by
  fin_cases j <;> simp [axis, ofFn, get]

/-- Vectors with the same components are equal. -/
theorem ext_get {v w : Vec3 ℝ} (h : ∀ i, v.get i = w.get i) : v = w :=
  components.injective (funext h)

/-! ### The scalar product -/

theorem dot_comm (v w : Vec3 ℝ) : v.dot w = w.dot v := by
  simp only [dot_eq]
  ring

@[simp]
theorem add_dot (u v w : Vec3 ℝ) : (u + v).dot w = u.dot w + v.dot w := by
  simp only [dot_eq, add_x, add_y, add_z]
  ring

@[simp]
theorem dot_add (u v w : Vec3 ℝ) : u.dot (v + w) = u.dot v + u.dot w := by
  simp only [dot_eq, add_x, add_y, add_z]
  ring

@[simp]
theorem sub_dot (u v w : Vec3 ℝ) : (u - v).dot w = u.dot w - v.dot w := by
  simp only [dot_eq, sub_x, sub_y, sub_z]
  ring

@[simp]
theorem dot_sub (u v w : Vec3 ℝ) : u.dot (v - w) = u.dot v - u.dot w := by
  simp only [dot_eq, sub_x, sub_y, sub_z]
  ring

@[simp]
theorem neg_dot (v w : Vec3 ℝ) : (-v).dot w = -v.dot w := by
  simp only [dot_eq, neg_x, neg_y, neg_z]
  ring

@[simp]
theorem dot_neg (v w : Vec3 ℝ) : v.dot (-w) = -v.dot w := by
  simp only [dot_eq, neg_x, neg_y, neg_z]
  ring

@[simp]
theorem smul_dot (s : ℝ) (v w : Vec3 ℝ) : (s • v).dot w = s * v.dot w := by
  simp only [dot_eq, smul_x, smul_y, smul_z]
  ring

@[simp]
theorem dot_smul (s : ℝ) (v w : Vec3 ℝ) : v.dot (s • w) = s * v.dot w := by
  simp only [dot_eq, smul_x, smul_y, smul_z]
  ring

@[simp]
theorem zero_dot (v : Vec3 ℝ) : (0 : Vec3 ℝ).dot v = 0 := by simp [dot_eq]

@[simp]
theorem dot_zero (v : Vec3 ℝ) : v.dot 0 = 0 := by simp [dot_eq]

theorem abs_dot_le_norm (v w : Vec3 ℝ) : |v.dot w| ≤ ‖v‖ * ‖w‖ := abs_real_inner_le_norm v w

theorem dot_self_eq (v : Vec3 ℝ) : v.dot v = ‖v‖ * ‖v‖ := real_inner_self_eq_norm_mul_norm v

theorem norm_eq_sqrt_dot (v : Vec3 ℝ) : ‖v‖ = √(v.dot v) := rfl

/-- A vector that reaches as far along another as that one is long is no shorter. -/
theorem norm_le_of_dot_le {v w : Vec3 ℝ} (h : v.dot v ≤ v.dot w) : ‖v‖ ≤ ‖w‖ := by
  rcases (norm_nonneg v).eq_or_lt with hzero | hpos
  · rw [← hzero]
    exact norm_nonneg w
  · rw [dot_self_eq] at h
    exact le_of_mul_le_mul_left (h.trans ((le_abs_self _).trans (abs_dot_le_norm v w))) hpos

/-! ### The vector product -/

theorem cross_dot_left (v w : Vec3 ℝ) : (v.cross w).dot v = 0 := by
  simp only [dot_eq, cross]
  ring

theorem cross_dot_right (v w : Vec3 ℝ) : (v.cross w).dot w = 0 := by
  simp only [dot_eq, cross]
  ring

theorem cross_dot_self (v w : Vec3 ℝ) :
    (v.cross w).dot (v.cross w) = v.dot v * w.dot w - v.dot w * v.dot w := by
  simp only [dot_eq, cross]
  ring

theorem norm_cross_le (v w : Vec3 ℝ) : ‖v.cross w‖ ≤ ‖v‖ * ‖w‖ := by
  rw [norm_eq_sqrt_dot (v.cross w), cross_dot_self, dot_self_eq, dot_self_eq]
  refine Real.sqrt_le_iff.mpr ⟨by positivity, ?_⟩
  nlinarith [mul_self_nonneg (v.dot w)]

theorem cross_comm (v w : Vec3 ℝ) : v.cross w = -w.cross v := by
  ext <;> simp [cross] <;> ring

/-- Where a vector product vanishes, what is perpendicular to the first factor is perpendicular to
the second. -/
theorem dot_eq_zero_of_cross_eq_zero {v w n : Vec3 ℝ} (hcross : v.cross w = 0) (hv : v ≠ 0)
    (hn : v.dot n = 0) : w.dot n = 0 := by
  have hexpand : v.dot v * w.dot n = v.dot w * v.dot n + ((v.cross w).cross v).dot n := by
    simp only [dot_eq, cross]
    ring
  have hzero : (0 : Vec3 ℝ).cross v = 0 := by ext <;> simp [cross]
  rw [hcross, hn, hzero, zero_dot, mul_zero, add_zero] at hexpand
  refine (mul_eq_zero.mp hexpand).resolve_left fun hself ↦ hv (eq_zero_of_dot_self hself)

/-- A vector with no vector product with another that is not zero is a multiple of it. -/
theorem exists_multiple_of_cross {v w : Vec3 ℝ} (hv : v ≠ 0) (h : v.cross w = 0) :
    ∃ s : ℝ, w = s • v := by
  have hlength : v.dot v ≠ 0 := fun hzero ↦ hv (eq_zero_of_dot_self hzero)
  have htwice : v.dot v • w = v.dot w • v := by
    have hcross : v.cross (v.cross w) = v.dot w • v - v.dot v • w := by
      ext <;> simp [cross, dot_eq] <;> ring
    rw [h] at hcross
    refine (sub_eq_zero.mp (hcross.symm.trans ?_)).symm
    ext <;> simp [cross]
  refine ⟨v.dot w / v.dot v, ?_⟩
  rw [div_eq_inv_mul, mul_smul, ← htwice, smul_smul, inv_mul_cancel₀ hlength, one_smul]

/-- Two vectors with no vector product lie along a common one. -/
theorem exists_common_line {v w : Vec3 ℝ} (h : v.cross w = 0) :
    ∃ (e : Vec3 ℝ) (s t : ℝ), v = s • e ∧ w = t • e := by
  by_cases hv : v = 0
  · exact ⟨w, 0, 1, by rw [hv, zero_smul], by rw [one_smul]⟩
  obtain ⟨t, ht⟩ := exists_multiple_of_cross hv h
  exact ⟨v, 1, t, by rw [one_smul], ht⟩

/-! ### Directions -/

/-- The vector has length one. -/
def IsDirection (u : Vec3 ℝ) : Prop := u.dot u = 1

theorem IsDirection.norm_eq {u : Vec3 ℝ} (hu : u.IsDirection) : ‖u‖ = 1 := by
  rw [norm_eq_sqrt_dot, hu, Real.sqrt_one]

theorem IsDirection.ne_zero {u : Vec3 ℝ} (hu : u.IsDirection) : u ≠ 0 :=
  norm_ne_zero_iff.mp (hu.norm_eq ▸ one_ne_zero)

theorem IsDirection.neg {u : Vec3 ℝ} (hu : u.IsDirection) : (-u).IsDirection := by
  unfold IsDirection at *
  simpa using hu

/-- No vector is longer along a direction than it is. -/
theorem IsDirection.abs_dot_le {u : Vec3 ℝ} (hu : u.IsDirection) (v : Vec3 ℝ) :
    |v.dot u| ≤ ‖v‖ := by
  have h := abs_dot_le_norm v u
  rwa [hu.norm_eq, mul_one] at h

theorem axis_isDirection (i : Fin 3) : (Vec3.axis i : Vec3 ℝ).IsDirection := by
  fin_cases i <;> simp [IsDirection, axis, ofFn, dot_eq]

/-- A coordinate axis measures a component. -/
theorem dot_axis (v : Vec3 ℝ) (i : Fin 3) : v.dot (Vec3.axis i) = v.get i := by
  fin_cases i <;> simp [axis, ofFn, dot_eq, get]

/-- A negative product has a negative term. -/
theorem exists_get_mul_neg {v w : Vec3 ℝ} (h : v.dot w < 0) : ∃ i, v.get i * w.get i < 0 := by
  by_contra hall
  push Not at hall
  rw [dot_eq] at h
  have hx : 0 ≤ v.x * w.x := hall 0
  have hy : 0 ≤ v.y * w.y := hall 1
  have hz : 0 ≤ v.z * w.z := hall 2
  linarith

theorem smul_inv_norm_isDirection {v : Vec3 ℝ} (hv : v ≠ 0) : (‖v‖⁻¹ • v).IsDirection := by
  have hnorm : ‖v‖ ≠ 0 := norm_ne_zero_iff.mpr hv
  unfold IsDirection
  rw [smul_dot, dot_smul, dot_self_eq]
  field_simp

theorem normalize_eq (v : Vec3 ℝ) : v.normalize = ‖v‖⁻¹ • v := div_eq_smul v ‖v‖

theorem neg_normalize (v : Vec3 ℝ) : -v.normalize = (-v).normalize := by
  rw [normalize_eq, normalize_eq, norm_neg, smul_neg]

theorem normalize_isDirection {v : Vec3 ℝ} (hv : v ≠ 0) : v.normalize.IsDirection := by
  rw [normalize_eq]
  exact smul_inv_norm_isDirection hv

theorem unit?_eq (v : Vec3 ℝ) (shortest : ℝ) :
    v.unit? shortest = if ‖v‖ ≤ shortest then none else some (‖v‖⁻¹ • v) := by
  simp only [unit?, norm_eq_norm, div_eq_smul]

/-- A vector that is given a unit vector is longer than required and has its direction. -/
theorem unit?_eq_some {v u : Vec3 ℝ} {shortest : ℝ} (hshortest : 0 ≤ shortest)
    (h : v.unit? shortest = some u) : shortest < ‖v‖ ∧ v ≠ 0 ∧ u = ‖v‖⁻¹ • v ∧ u.IsDirection := by
  rw [unit?_eq] at h
  split_ifs at h with hle
  have hlt : shortest < ‖v‖ := not_le.mp hle
  have hv : v ≠ 0 := norm_pos_iff.mp (hshortest.trans_lt hlt)
  obtain rfl := Option.some_inj.mp h
  exact ⟨hlt, hv, rfl, smul_inv_norm_isDirection hv⟩

end Vec3

end Collision
