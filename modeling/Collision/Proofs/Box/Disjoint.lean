import Collision.Proofs.Box.Holds

/-!
# Boxes found disjoint share no point

`OrientedBox.disjoint_eq_false` says that two placed boxes with a common point are never found
disjoint. All fifteen axes rest on one fact: along any vector the centres are no farther apart than
both boxes reach (`OrientedBox.abs_offset_dot_le`). An axis of either box, or the vector product of
two, is put in for the vector; what the library computes is then at least what the boxes reach,
since its padding only adds to it.
-/

set_option autoImplicit false
set_option relaxedAutoImplicit false

namespace Collision

/-! ### Columns by number -/

theorem Vec3.dot_eq_cyclic (v w : Vec3 ℝ) (i : Fin 3) :
    v.dot w =
      v.get i * w.get i + v.get (i + 1) * w.get (i + 1) + v.get (i + 2) * w.get (i + 2) := by
  rw [Vec3.dot_eq]
  match i with
  | 0 => rfl
  | 1 =>
    show v.x * w.x + v.y * w.y + v.z * w.z = v.y * w.y + v.z * w.z + v.x * w.x
    ring
  | 2 =>
    show v.x * w.x + v.y * w.y + v.z * w.z = v.z * w.z + v.x * w.x + v.y * w.y
    ring

theorem Vec3.triple_comm (u v w : Vec3 ℝ) : u.dot (v.cross w) = (u.cross v).dot w := by
  simp only [Vec3.dot_eq, Vec3.cross]
  ring

namespace Mat3

namespace Orthonormal

variable {m : Mat3 ℝ}

theorem col_dot_self (hm : m.Orthonormal) (i : Fin 3) : (m.col i).dot (m.col i) = 1 := by
  fin_cases i
  · exact hm.unit0
  · exact hm.unit1
  · exact hm.unit2

theorem col_dot_next (hm : m.Orthonormal) (i : Fin 3) : (m.col i).dot (m.col (i + 1)) = 0 := by
  fin_cases i
  · exact hm.perp01
  · exact hm.perp12
  · exact (Vec3.dot_comm _ _).trans hm.perp02

theorem col_dot_previous (hm : m.Orthonormal) (i : Fin 3) :
    (m.col i).dot (m.col (i + 2)) = 0 := by
  fin_cases i
  · exact hm.perp02
  · exact (Vec3.dot_comm _ _).trans hm.perp01
  · exact (Vec3.dot_comm _ _).trans hm.perp12

theorem eq_sum_col (hm : m.Orthonormal) (v : Vec3 ℝ) (i : Fin 3) :
    v = (m.col i).dot v • m.col i + (m.col (i + 1)).dot v • m.col (i + 1) +
      (m.col (i + 2)).dot v • m.col (i + 2) := by
  have h := (hm.mulVec_transposeMulVec v).symm
  rw [mulVec_eq] at h
  match i with
  | 0 => exact h
  | 1 => exact h.trans (add_rotate _ _ _)
  | 2 => exact (h.trans (add_rotate _ _ _)).trans (add_rotate _ _ _)

/-- Two columns multiply to the third one, up to the handedness of the frame. -/
theorem cross_col (hm : m.Orthonormal) (i : Fin 3) :
    (m.col i).cross (m.col (i + 1)) = m.det • m.col (i + 2) := by
  have hdet : (m.col (i + 2)).dot ((m.col i).cross (m.col (i + 1))) = m.det := by
    fin_cases i
    · show m.col2.dot (m.col0.cross m.col1) = m.det
      simp only [det, Vec3.dot_eq, Vec3.cross]
      ring
    · show m.col0.dot (m.col1.cross m.col2) = m.det
      simp only [det, Vec3.dot_eq, Vec3.cross]
    · show m.col1.dot (m.col2.cross m.col0) = m.det
      simp only [det, Vec3.dot_eq, Vec3.cross]
      ring
  rw [hm.eq_sum_col ((m.col i).cross (m.col (i + 1))) i, hdet, Vec3.dot_comm,
    Vec3.cross_dot_left, Vec3.dot_comm (m.col (i + 1)), Vec3.cross_dot_right]
  simp

theorem abs_det (hm : m.Orthonormal) : |m.det| = 1 := by
  have hlength := Vec3.cross_dot_self m.col0 m.col1
  have hcross : m.col0.cross m.col1 = m.det • m.col2 := hm.cross_col 0
  rw [hcross, Vec3.smul_dot, Vec3.dot_smul, hm.unit0, hm.unit1, hm.unit2, hm.perp01] at hlength
  refine (abs_eq zero_le_one).mpr (mul_self_eq_one_iff.mp ?_)
  linarith

/-- The product of a column by a vector, measured along the next column. -/
theorem col_next_dot_cross (hm : m.Orthonormal) (i : Fin 3) (v : Vec3 ℝ) :
    (m.col (i + 1)).dot ((m.col i).cross v) = -(m.det * (m.col (i + 2)).dot v) := by
  rw [Vec3.triple_comm, Vec3.cross_comm, hm.cross_col, Vec3.neg_dot, Vec3.smul_dot]

theorem col_previous_dot_cross (hm : m.Orthonormal) (i : Fin 3) (v : Vec3 ℝ) :
    (m.col (i + 2)).dot ((m.col i).cross v) = m.det * (m.col (i + 1)).dot v := by
  have hcross : (m.col (i + 2)).cross (m.col i) = m.det • m.col (i + 1) := by
    have h := hm.cross_col (i + 2)
    match i with
    | 0 => exact h
    | 1 => exact h
    | 2 => exact h
  rw [Vec3.triple_comm, hcross, Vec3.smul_dot]

end Orthonormal

theorem transposeMulVec_abs_dot (m : Mat3 ℝ) (n half : Vec3 ℝ) (i : Fin 3) :
    (m.transposeMulVec n).abs.dot half = |(m.col i).dot n| * half.get i +
      |(m.col (i + 1)).dot n| * half.get (i + 1) + |(m.col (i + 2)).dot n| * half.get (i + 2) := by
  rw [Vec3.dot_eq_cyclic _ _ i]
  simp only [Vec3.abs_get, transposeMulVec_get]

theorem transposeMulVec_abs_neg (m : Mat3 ℝ) (v : Vec3 ℝ) :
    (m.transposeMulVec (-v)).abs = (m.transposeMulVec v).abs := by
  ext <;> simp [transposeMulVec, Vec3.abs, Vec3.map]

/-- A box reaches half its length along a column of its own. -/
theorem Orthonormal.col_abs_dot {m : Mat3 ℝ} (hm : m.Orthonormal) (half : Vec3 ℝ) (i : Fin 3) :
    (m.transposeMulVec (m.col i)).abs.dot half = half.get i := by
  rw [transposeMulVec_abs_dot _ _ _ i, hm.col_dot_self, Vec3.dot_comm (m.col (i + 1)),
    hm.col_dot_next, Vec3.dot_comm (m.col (i + 2)), hm.col_dot_previous]
  simp

/-- The product with a column is perpendicular to the column and turns its neighbours into each
other. -/
theorem Orthonormal.cross_abs_dot {m : Mat3 ℝ} (hm : m.Orthonormal) (v half : Vec3 ℝ) (i : Fin 3) :
    (m.transposeMulVec ((m.col i).cross v)).abs.dot half =
      half.get (i + 1) * |(m.col (i + 2)).dot v| + half.get (i + 2) * |(m.col (i + 1)).dot v| := by
  rw [transposeMulVec_abs_dot _ _ _ i, Vec3.dot_comm (m.col i), Vec3.cross_dot_left,
    hm.col_next_dot_cross, hm.col_previous_dot_cross, abs_neg, abs_mul, abs_mul, hm.abs_det]
  simp [mul_comm]

end Mat3

namespace OrientedBox

variable {a b : OrientedBox ℝ} {x : Vec3 ℝ}

/-- Along any vector the centres of two boxes with a common point are no farther apart than both
boxes reach. -/
theorem abs_offset_dot_le (ha : a.Regular) (hb : b.Regular) (hxa : a.Holds x) (hxb : b.Holds x)
    (n : Vec3 ℝ) :
    |(b.center - a.center).dot n| ≤
      (a.axes.transposeMulVec n).abs.dot a.half + (b.axes.transposeMulVec n).abs.dot b.half := by
  have hsplit : (b.center - a.center).dot n = (x - a.center).dot n - (x - b.center).dot n := by
    rw [← Vec3.sub_dot]
    congr 1
    abel
  rw [hsplit]
  exact (abs_sub _ _).trans (add_le_add (ha.abs_dot_le hxa n) (hb.abs_dot_le hxb n))

theorem half_nonneg (hx : a.Holds x) (i : Fin 3) : 0 ≤ a.half.get i := (abs_nonneg _).trans (hx i)

/-! ### The first test -/

theorem normSq_offset_le (ha : a.Regular) (hb : b.Regular) (hxa : a.Holds x) (hxb : b.Holds x) :
    (b.center - a.center).normSq ≤ (a.radius + b.radius) * (a.radius + b.radius) := by
  have hdistance : ‖b.center - a.center‖ ≤ a.radius + b.radius := by
    have hsplit : b.center - a.center = (x - a.center) - (x - b.center) := by abel
    rw [hsplit]
    exact (norm_sub_le _ _).trans
      (add_le_add (ha.norm_le_radius hxa) (hb.norm_le_radius hxb))
  show (b.center - a.center).dot (b.center - a.center) ≤ _
  rw [Vec3.dot_self_eq]
  exact mul_self_le_mul_self (norm_nonneg _) hdistance

/-! ### The fifteen axes -/

/-- Two boxes in the frame of the first one. -/
noncomputable def relative (a b : OrientedBox ℝ) : RelativeBoxes ℝ :=
  { first := a.half
    second := b.half
    rotation := b.axes.mapCols a.axes.transposeMulVec
    offset := a.axes.transposeMulVec (b.center - a.center) }

theorem relative_entry (i j : Fin 3) :
    (relative a b).rotation.entry i j = (a.axes.col i).dot (b.axes.col j) := by
  fin_cases i <;> fin_cases j <;> rfl

theorem relative_offset (i : Fin 3) :
    (relative a b).offset.get i = (a.axes.col i).dot (b.center - a.center) :=
  Mat3.transposeMulVec_get _ _ i

theorem relative_reach_entry (i j : Fin 3) :
    (relative a b).reach.entry i j = |(a.axes.col i).dot (b.axes.col j)| + rotationPadding := by
  rw [← relative_entry]
  fin_cases i <;> fin_cases j <;> rfl

/-- The padded entries are no less than the entries. -/
theorem abs_le_reach (i j : Fin 3) :
    |(a.axes.col i).dot (b.axes.col j)| ≤ (relative a b).reach.entry i j := by
  have hpadding : (0 : ℝ) ≤ rotationPadding := by
    unfold rotationPadding
    rw [Scalar.decimal_real]
    positivity
  rw [relative_reach_entry]
  linarith

/-- How far the centres are apart along an axis of the second box. -/
theorem relative_offset_dot_col (ha : a.axes.Orthonormal) (j : Fin 3) :
    (relative a b).offset.dot ((relative a b).rotation.col j) =
      (b.center - a.center).dot (b.axes.col j) := by
  have hcol : (relative a b).rotation.col j = a.axes.transposeMulVec (b.axes.col j) := by
    fin_cases j <;> rfl
  rw [hcol]
  exact ha.transposeMulVec_dot _ _

/-- How far the centres are apart along the product of an axis of either box. -/
theorem relative_abs_edge_distance (ha : a.axes.Orthonormal) (i j : Fin 3) :
    |(relative a b).offset.get (i + 2) * (relative a b).rotation.entry (i + 1) j -
      (relative a b).offset.get (i + 1) * (relative a b).rotation.entry (i + 2) j| =
        |(b.center - a.center).dot ((a.axes.col i).cross (b.axes.col j))| := by
  have hdot : (b.center - a.center).dot ((a.axes.col i).cross (b.axes.col j)) = a.axes.det *
      ((relative a b).offset.get (i + 2) * (relative a b).rotation.entry (i + 1) j -
        (relative a b).offset.get (i + 1) * (relative a b).rotation.entry (i + 2) j) := by
    rw [← ha.transposeMulVec_dot, Vec3.dot_eq_cyclic _ _ i]
    simp only [Mat3.transposeMulVec_get, relative_offset, relative_entry]
    rw [Vec3.dot_comm (a.axes.col i) ((a.axes.col i).cross _), Vec3.cross_dot_left,
      ha.col_next_dot_cross, ha.col_previous_dot_cross]
    ring
  rw [hdot, abs_mul, ha.abs_det, one_mul]

theorem separatedByFirst_eq_false (ha : a.Regular) (hb : b.Regular) (hxa : a.Holds x)
    (hxb : b.Holds x) (i : Fin 3) : (relative a b).separatedByFirst i = false := by
  have hbound := abs_offset_dot_le ha hb hxa hxb (a.axes.col i)
  have hfirst := ha.orthonormal.col_abs_dot a.half i
  have hsecond : (b.axes.transposeMulVec (a.axes.col i)).abs.dot b.half ≤
      b.half.dot ((relative a b).reach.row i) := by
    rw [Vec3.dot_comm b.half]
    have hle (j : Fin 3) : |(b.axes.col j).dot (a.axes.col i)| * b.half.get j ≤
        (relative a b).reach.entry i j * b.half.get j := by
      rw [Vec3.dot_comm]
      exact mul_le_mul_of_nonneg_right (abs_le_reach i j) (half_nonneg hxb j)
    exact add_le_add (add_le_add (hle 0) (hle 1)) (hle 2)
  unfold RelativeBoxes.separatedByFirst
  rw [decide_eq_false_iff_not, not_lt, relative_offset, Scalar.abs_real, Vec3.dot_comm]
  exact hbound.trans (add_le_add hfirst.le hsecond)

theorem separatedBySecond_eq_false (ha : a.Regular) (hb : b.Regular) (hxa : a.Holds x)
    (hxb : b.Holds x) (j : Fin 3) : (relative a b).separatedBySecond j = false := by
  have hbound := abs_offset_dot_le ha hb hxa hxb (b.axes.col j)
  have hsecond := hb.orthonormal.col_abs_dot b.half j
  have hfirst : (a.axes.transposeMulVec (b.axes.col j)).abs.dot a.half ≤
      a.half.dot ((relative a b).reach.col j) := by
    rw [Vec3.dot_comm a.half]
    have hle (i : Fin 3) : |(a.axes.col i).dot (b.axes.col j)| * a.half.get i ≤
        (relative a b).reach.entry i j * a.half.get i :=
      mul_le_mul_of_nonneg_right (abs_le_reach i j) (half_nonneg hxa i)
    exact add_le_add (add_le_add (hle 0) (hle 1)) (hle 2)
  unfold RelativeBoxes.separatedBySecond
  rw [decide_eq_false_iff_not, not_lt, relative_offset_dot_col ha.orthonormal]
  exact hbound.trans (add_le_add hfirst hsecond.le)

theorem separatedByEdges_eq_false (ha : a.Regular) (hb : b.Regular) (hxa : a.Holds x)
    (hxb : b.Holds x) (i j : Fin 3) : (relative a b).separatedByEdges i j = false := by
  let n := (a.axes.col i).cross (b.axes.col j)
  have hbound := abs_offset_dot_le ha hb hxa hxb n
  have hturned : n = -(b.axes.col j).cross (a.axes.col i) := Vec3.cross_comm _ _
  have hfirst : (a.axes.transposeMulVec n).abs.dot a.half ≤
      a.half.get (i + 1) * (relative a b).reach.entry (i + 2) j +
        a.half.get (i + 2) * (relative a b).reach.entry (i + 1) j := by
    rw [ha.orthonormal.cross_abs_dot]
    exact add_le_add (mul_le_mul_of_nonneg_left (abs_le_reach _ _) (half_nonneg hxa _))
      (mul_le_mul_of_nonneg_left (abs_le_reach _ _) (half_nonneg hxa _))
  have hsecond : (b.axes.transposeMulVec n).abs.dot b.half ≤
      b.half.get (j + 1) * (relative a b).reach.entry i (j + 2) +
        b.half.get (j + 2) * (relative a b).reach.entry i (j + 1) := by
    rw [hturned, Mat3.transposeMulVec_abs_neg, hb.orthonormal.cross_abs_dot,
      Vec3.dot_comm (b.axes.col (j + 2)), Vec3.dot_comm (b.axes.col (j + 1))]
    exact add_le_add (mul_le_mul_of_nonneg_left (abs_le_reach _ _) (half_nonneg hxb _))
      (mul_le_mul_of_nonneg_left (abs_le_reach _ _) (half_nonneg hxb _))
  unfold RelativeBoxes.separatedByEdges
  rw [decide_eq_false_iff_not, not_lt]
  simp only [Scalar.abs_real]
  rw [relative_abs_edge_distance ha.orthonormal]
  exact hbound.trans (add_le_add hfirst hsecond)

theorem separated_relative_eq_false (ha : a.Regular) (hb : b.Regular) (hxa : a.Holds x)
    (hxb : b.Holds x) : (relative a b).separated = false := by
  unfold RelativeBoxes.separated
  rw [Bool.or_eq_false_iff, Bool.or_eq_false_iff, List.any_eq_false, List.any_eq_false,
    List.any_eq_false]
  refine ⟨⟨fun i _ ↦ ?_, fun j _ ↦ ?_⟩, fun i _ ↦ ?_⟩
  · exact Bool.not_eq_true _ ▸ separatedByFirst_eq_false ha hb hxa hxb i
  · exact Bool.not_eq_true _ ▸ separatedBySecond_eq_false ha hb hxa hxb j
  · rw [Bool.not_eq_true, List.any_eq_false]
    intro j _
    exact Bool.not_eq_true _ ▸ separatedByEdges_eq_false ha hb hxa hxb i j

/-- The distance of the centres decides first, then the fifteen axes do. -/
theorem disjoint_eq (a b : OrientedBox ℝ) (poseA poseB : Pose ℝ) :
    a.disjoint poseA b poseB =
      if (a.radius + b.radius) * (a.radius + b.radius) <
          ((b.placed poseB).center - (a.placed poseA).center).normSq then true
      else (relative (a.placed poseA) (b.placed poseB)).separated :=
  rfl

/-- Placed boxes with a common point are not found disjoint. -/
theorem disjoint_eq_false {poseA poseB : Pose ℝ} (ha : (a.placed poseA).Regular)
    (hb : (b.placed poseB).Regular) (hxa : (a.placed poseA).Holds x)
    (hxb : (b.placed poseB).Holds x) : a.disjoint poseA b poseB = false := by
  refine (disjoint_eq a b poseA poseB).trans ((if_neg ?_).trans ?_)
  · exact not_lt.mpr (normSq_offset_le ha hb hxa hxb)
  · exact separated_relative_eq_false ha hb hxa hxb

end OrientedBox

end Collision
