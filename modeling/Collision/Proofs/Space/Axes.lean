import Collision.Box.Fit
import Collision.Proofs.Space.Frame

/-!
# The axes of boxes

However the axes of a box are found, they are an orthonormal frame: `principalAxes` completes any
two directions to one, `Mat3.rotationAbout` and `Mat3.ofEuler` turn one into another, and
`OrientedBox.triangleAxes` takes an edge and the normal of a triangle, which are perpendicular. What
the search for eigenvectors finds does not matter here.
-/

set_option autoImplicit false
set_option relaxedAutoImplicit false

namespace Collision

/-! ### Completing a frame -/

theorem orthonormal_of_first_two {x y : Vec3 ℝ} (hx : x.IsDirection) (hy : y.IsDirection)
    (hxy : x.dot y = 0) : (Mat3.mk x y (x.cross y)).Orthonormal where
  unit0 := hx
  unit1 := hy
  unit2 := by
    show (x.cross y).dot (x.cross y) = 1
    rw [Vec3.cross_dot_self, hx, hy, hxy]
    ring
  perp01 := hxy
  perp02 := (Vec3.dot_comm _ _).trans (Vec3.cross_dot_left x y)
  perp12 := (Vec3.dot_comm _ _).trans (Vec3.cross_dot_right x y)

theorem orthonormal_of_first_last {x z : Vec3 ℝ} (hx : x.IsDirection) (hz : z.IsDirection)
    (hzx : z.dot x = 0) : (Mat3.mk x (z.cross x) z).Orthonormal where
  unit0 := hx
  unit1 := by
    show (z.cross x).dot (z.cross x) = 1
    rw [Vec3.cross_dot_self, hx, hz, hzx]
    ring
  unit2 := hz
  perp01 := (Vec3.dot_comm _ _).trans (Vec3.cross_dot_right z x)
  perp02 := (Vec3.dot_comm _ _).trans hzx
  perp12 := Vec3.cross_dot_left z x

theorem cross_axis_zero_ne_zero {v : Vec3 ℝ} (hv : v.IsDirection) (hx : |v.x| < 9 / 10) :
    v.cross (Vec3.axis 0) ≠ 0 := by
  have hunit : v.x * v.x + v.y * v.y + v.z * v.z = 1 := hv
  intro hzero
  have hy := congrArg Vec3.y hzero
  have hz := congrArg Vec3.z hzero
  simp [Vec3.cross, Vec3.axis, Vec3.ofFn] at hy hz
  rw [hy, hz, mul_zero, add_zero, add_zero] at hunit
  have habs : |v.x| = 1 := by
    rcases mul_self_eq_one_iff.mp hunit with h | h <;> rw [h] <;> norm_num
  rw [habs] at hx
  norm_num at hx

theorem cross_axis_one_ne_zero {v : Vec3 ℝ} (hx : ¬ |v.x| < 9 / 10) :
    v.cross (Vec3.axis 1) ≠ 0 := by
  intro hzero
  have hz := congrArg Vec3.z hzero
  simp [Vec3.cross, Vec3.axis, Vec3.ofFn] at hz
  rw [hz, abs_zero] at hx
  norm_num at hx

/-- The perpendicular of a unit vector is a unit vector perpendicular to it. -/
theorem anyPerpendicular_spec {v : Vec3 ℝ} (hv : v.IsDirection) :
    (anyPerpendicular v).IsDirection ∧ v.dot (anyPerpendicular v) = 0 := by
  have hperp (w : Vec3 ℝ) (hw : v.cross w ≠ 0) :
      (v.cross w).normalize.IsDirection ∧ v.dot (v.cross w).normalize = 0 := by
    refine ⟨Vec3.normalize_isDirection hw, ?_⟩
    rw [Vec3.normalize_eq, Vec3.dot_smul, Vec3.dot_comm, Vec3.cross_dot_left, mul_zero]
  unfold anyPerpendicular
  simp only [Scalar.abs_real, Scalar.decimal_real, if_true, Nat.cast_ofNat, pow_one]
  split_ifs with hx
  · exact hperp _ (cross_axis_zero_ne_zero hv hx)
  · exact hperp _ (cross_axis_one_ne_zero hx)

theorem zero_le_shortestDirection : (0 : ℝ) ≤ shortestDirection := by
  unfold shortestDirection
  rw [Scalar.decimal_real]
  positivity

theorem frameAlong_orthonormal (a b : Vec3 ℝ) : (frameAlong a b).Orthonormal := by
  unfold frameAlong
  rcases ha : a.unit? shortestDirection with _ | x
  · exact Mat3.identity_orthonormal
  · obtain ⟨-, -, -, hx⟩ := Vec3.unit?_eq_some zero_le_shortestDirection ha
    rcases hb : (b - x * x.dot b).unit? shortestDirection with _ | y
    · obtain ⟨hy, hxy⟩ := anyPerpendicular_spec hx
      simp only [hb, Option.getD_none]
      exact orthonormal_of_first_two hx hy hxy
    · obtain ⟨-, -, hydef, hy⟩ := Vec3.unit?_eq_some zero_le_shortestDirection hb
      have hxy : x.dot y = 0 := by
        rw [hydef, Vec3.mul_eq_smul, Vec3.dot_smul, Vec3.dot_sub, Vec3.dot_smul, hx]
        ring
      simp only [hb, Option.getD_some]
      exact orthonormal_of_first_two hx hy hxy

theorem principalAxes_orthonormal (m : Mat3 ℝ) : (principalAxes m).Orthonormal := by
  unfold principalAxes
  split_ifs
  · simp only [frameOfEigen]
    split
    · exact frameAlong_orthonormal _ _
    · exact Mat3.identity_orthonormal
  · exact Mat3.identity_orthonormal

/-! ### Turning a frame -/

theorem rotationAbout_orthonormal {u : Vec3 ℝ} (hu : u.IsDirection) (angle : ℝ) :
    (Mat3.rotationAbout u angle).Orthonormal := by
  unfold Mat3.rotationAbout
  split_ifs
  · exact Mat3.identity_orthonormal
  · -- The columns are `u` times its own component, and the turned rest of a coordinate axis.
    have hunit : u.x * u.x + u.y * u.y + u.z * u.z = 1 := hu
    have hcircle := Real.sin_sq_add_cos_sq angle
    constructor
    all_goals
      simp [Mat3.ofRows, Vec3.dot_eq]
      grind

theorem ofEuler_orthonormal (roll pitch yaw : ℝ) : (Mat3.ofEuler roll pitch yaw).Orthonormal := by
  have hroll := Real.sin_sq_add_cos_sq roll
  have hpitch := Real.sin_sq_add_cos_sq pitch
  have hyaw := Real.sin_sq_add_cos_sq yaw
  constructor
  all_goals
    simp [Mat3.ofEuler, Mat3.ofRows, Vec3.dot_eq]
    grind

namespace OrientedBox

/-! ### The axes of a triangle -/

/-- The normal of a triangle is perpendicular to its edges. -/
theorem faceAxis_dot_edge (t : Triangle ℝ) (e : Vec3 ℝ) (he : e ∈ t.edges) :
    t.faceAxis.dot e = 0 := by
  have hfirst := Vec3.cross_dot_left (t.b - t.a) (t.c - t.b)
  have hsecond := Vec3.cross_dot_right (t.b - t.a) (t.c - t.b)
  rcases List.mem_cons.mp he with rfl | he
  · exact hfirst
  · rcases List.mem_cons.mp he with rfl | he
    · exact hsecond
    · obtain rfl := List.mem_singleton.mp he
      have hthird : t.a - t.c = -(t.b - t.a) - (t.c - t.b) := by abel
      rw [hthird, Vec3.dot_sub, Vec3.dot_neg]
      unfold Triangle.faceAxis
      rw [hfirst, hsecond]
      ring

theorem zero_le_shortestAxis : (0 : ℝ) ≤ shortestAxis := by
  unfold shortestAxis
  rw [Scalar.decimal_real]
  positivity

theorem triangleAxes_orthonormal (t : Triangle ℝ) : (triangleAxes t).Orthonormal := by
  obtain ⟨longest, hlongest, hedge, -⟩ :=
    Scalar.lastMaxBy?_real Vec3.normSq t.edges (List.cons_ne_nil _ _)
  simp only [triangleAxes, hlongest, Option.getD_some]
  rcases he : longest.unit? shortestAxis with _ | e
  · exact Mat3.identity_orthonormal
  · rcases hn : t.faceAxis.unit? shortestAxis with _ | n
    · exact Mat3.identity_orthonormal
    · obtain ⟨-, -, hedef, heunit⟩ := Vec3.unit?_eq_some zero_le_shortestAxis he
      obtain ⟨-, -, hndef, hnunit⟩ := Vec3.unit?_eq_some zero_le_shortestAxis hn
      have hperp : n.dot e = 0 := by
        rw [hedef, hndef, Vec3.smul_dot, Vec3.dot_smul, faceAxis_dot_edge t longest hedge]
        ring
      exact orthonormal_of_first_last heunit hnunit hperp

end OrientedBox

end Collision
