import Collision.Proofs.Box.Disjoint

/-!
# Two boxes in either order

Which box is named first decides in whose frame the fifteen axes are tried. Exchanging the boxes
transposes the relative rotation and turns the offset round, so the axes of the one box change
places with those of the other, and the product of axis `i` by axis `j` with that of `j` by `i`
(`OrientedBox.separated_relative_comm`). The padding is added to every entry alike and takes no
side.

* `OrientedBox.disjoint_exact` says what the answer of the test means and that the order of the
  boxes does not matter to it.
-/

set_option autoImplicit false
set_option relaxedAutoImplicit false

namespace Collision

namespace OrientedBox

variable {a b : OrientedBox ℝ}

/-! ### The exchanged frame -/

theorem relative_reach_comm (i j : Fin 3) :
    (relative b a).reach.entry j i = (relative a b).reach.entry i j := by
  rw [relative_reach_entry, relative_reach_entry, Vec3.dot_comm]

theorem relative_reach_row (i : Fin 3) :
    (relative a b).reach.row i = (relative b a).reach.col i := by
  have hentry (j : Fin 3) : ((relative a b).reach.row i).get j =
      ((relative b a).reach.col i).get j := by
    have hrow : ((relative a b).reach.row i).get j = (relative a b).reach.entry i j := by
      fin_cases j <;> rfl
    rw [hrow, ← relative_reach_comm]
    rfl
  exact Vec3.ext (hentry 0) (hentry 1) (hentry 2)

/-- The centres are as far apart along a vector from either side. -/
theorem abs_center_sub_dot_comm (a b : OrientedBox ℝ) (n : Vec3 ℝ) :
    |(a.center - b.center).dot n| = |(b.center - a.center).dot n| := by
  rw [← neg_sub, Vec3.neg_dot, abs_neg]

/-! ### The exchanged axes -/

theorem separatedBySecond_comm (hb : b.axes.Orthonormal) (i : Fin 3) :
    (relative b a).separatedBySecond i = (relative a b).separatedByFirst i := by
  unfold RelativeBoxes.separatedBySecond RelativeBoxes.separatedByFirst
  rw [relative_offset_dot_col hb, relative_offset, relative_reach_row, Scalar.abs_real,
    Scalar.abs_real, abs_center_sub_dot_comm, Vec3.dot_comm (a.axes.col i), add_comm]
  rfl

theorem separatedByEdges_comm (ha : a.axes.Orthonormal) (hb : b.axes.Orthonormal) (i j : Fin 3) :
    (relative b a).separatedByEdges j i = (relative a b).separatedByEdges i j := by
  have hdistance : |(a.center - b.center).dot ((b.axes.col j).cross (a.axes.col i))| =
      |(b.center - a.center).dot ((a.axes.col i).cross (b.axes.col j))| := by
    rw [abs_center_sub_dot_comm, Vec3.cross_comm, Vec3.dot_neg, abs_neg]
  unfold RelativeBoxes.separatedByEdges
  simp only [Scalar.abs_real, relative_abs_edge_distance ha, relative_abs_edge_distance hb,
    hdistance, relative_reach_comm]
  rw [add_comm]
  rfl

theorem separated_iff (r : RelativeBoxes ℝ) : r.separated = true ↔
    (∃ i, r.separatedByFirst i = true) ∨ (∃ j, r.separatedBySecond j = true) ∨
      ∃ i j, r.separatedByEdges i j = true := by
  have hany (p : Fin 3 → Bool) : [0, 1, 2].any p = true ↔ ∃ i, p i = true := by
    simp [Fin.exists_fin_succ]
  unfold RelativeBoxes.separated
  simp only [Bool.or_eq_true, hany, or_assoc]

/-- One of the fifteen axes separates two boxes iff one separates them in the other order. -/
theorem separated_relative_comm (ha : a.axes.Orthonormal) (hb : b.axes.Orthonormal) :
    (relative b a).separated = (relative a b).separated := by
  rw [Bool.eq_iff_iff, separated_iff, separated_iff]
  simp only [separatedBySecond_comm hb, ← separatedBySecond_comm ha]
  rw [or_left_comm]
  refine or_congr_right (or_congr_right ?_)
  rw [exists_comm]
  simp only [separatedByEdges_comm ha hb]

theorem disjoint_comm {poseA poseB : Pose ℝ} (ha : (a.placed poseA).axes.Orthonormal)
    (hb : (b.placed poseB).axes.Orthonormal) :
    a.disjoint poseA b poseB = b.disjoint poseB a poseA := by
  have hdistance (v w : Vec3 ℝ) : (v - w).normSq = (w - v).normSq := by
    show (v - w).dot (v - w) = (w - v).dot (w - v)
    rw [← neg_sub w v, Vec3.neg_dot, Vec3.dot_neg, neg_neg]
  rw [disjoint_eq, disjoint_eq, separated_relative_comm hb ha, add_comm b.radius, hdistance]

/-! ### What the answer means -/

theorem placed_identity (b : OrientedBox ℝ) : b.placed .identity = b := by
  have hcenter : Pose.identity.transformPoint b.center = b.center := Pose.identity_transformPoint _
  have hmatrix (v : Vec3 ℝ) : (Pose.identity : Pose ℝ).matrix.mulVec v = v :=
    (Rotation.matrix_mulVec Rotation.identity_isUnit v).trans (Rotation.identity_apply v)
  have haxes : b.axes.mapCols (Pose.identity : Pose ℝ).matrix.mulVec = b.axes := by
    simp only [Mat3.mapCols, hmatrix]
  unfold placed
  rw [hcenter]
  congr 1

/-- The box with the smallest sphere around its centre. -/
noncomputable def tight (b : OrientedBox ℝ) : OrientedBox ℝ := ofHalfLengths b.center b.axes b.half

theorem tight_regular (h : b.axes.Orthonormal) : b.tight.Regular :=
  ofHalfLengths_regular h b.center b.half

/-- A larger sphere than the smallest one only hides how far the boxes are apart. -/
theorem disjoint_tight (ha : a.half.norm ≤ a.radius) (hb : b.half.norm ≤ b.radius)
    {poseA poseB : Pose ℝ} (h : a.disjoint poseA b poseB = true) :
    a.tight.disjoint poseA b.tight poseB = true := by
  rw [disjoint_eq] at h ⊢
  split_ifs at h with hfar
  · have hnonneg : 0 ≤ a.half.norm + b.half.norm :=
      add_nonneg (norm_nonneg a.half) (norm_nonneg b.half)
    have hreach : a.half.norm + b.half.norm ≤ a.radius + b.radius := add_le_add ha hb
    exact if_pos ((mul_self_le_mul_self hnonneg hreach).trans_lt hfar)
  · split_ifs
    · rfl
    · exact h

/-- Two boxes with orthonormal axes, wherever they are placed. The test answers the same in either
order. If each radius is at least that of the smallest sphere around the box, boxes that are found
disjoint have no common point. -/
theorem disjoint_exact (a b : OrientedBox ℝ) (ha : a.axes.Orthonormal) (hb : b.axes.Orthonormal)
    (poseA poseB : Pose ℝ) (hA : poseA.Rigid) (hB : poseB.Rigid) :
    a.disjoint poseA b poseB = b.disjoint poseB a poseA ∧
      (a.half.norm ≤ a.radius → b.half.norm ≤ b.radius → a.disjoint poseA b poseB = true →
        poseA.transformPoint '' {p | a.Holds p} ∩ poseB.transformPoint '' {p | b.Holds p} = ∅) := by
  have hplacedA := (Pose.matrix_orthonormal hA).mul ha
  have hplacedB := (Pose.matrix_orthonormal hB).mul hb
  refine ⟨disjoint_comm hplacedA hplacedB, fun hradiusA hradiusB h ↦ ?_⟩
  refine Set.eq_empty_iff_forall_notMem.mpr ?_
  rintro - ⟨⟨p, hp, rfl⟩, q, hq, hcommon⟩
  have htight := disjoint_tight hradiusA hradiusB h
  have hholdsA : (a.tight.placed poseA).Holds (poseA.transformPoint p) := placed_holds hA hp
  have hholdsB : (b.tight.placed poseB).Holds (poseA.transformPoint p) := by
    rw [← hcommon]
    exact placed_holds hB hq
  rw [disjoint_eq_false ((tight_regular ha).placed hA) ((tight_regular hb).placed hB) hholdsA
    hholdsB] at htight
  exact Bool.false_ne_true htight

/-- Two bars that cross, one above the other and each turned onto an edge: their spheres overlap and
no axis of either bar separates them, but the product of the two long axes does. -/
theorem disjoint_exact_crossed_bars :
    let bar : OrientedBox ℝ :=
      ofHalfLengths 0 ⟨⟨1, 0, 0⟩, ⟨0, 4 / 5, 3 / 5⟩, ⟨0, -(3 / 5), 4 / 5⟩⟩ ⟨3, 1, 1⟩
    let above : Pose ℝ := ⟨⟨0, 0, 3⟩, ⟨1 / 2, 1 / 2, 1 / 2, 1 / 2⟩⟩
    let r := relative (bar.placed .identity) (bar.placed above)
    bar.axes.Orthonormal ∧ Pose.identity.Rigid ∧ above.Rigid ∧ bar.half.norm ≤ bar.radius ∧
      ((bar.placed above).center - (bar.placed .identity).center).normSq ≤
        (bar.radius + bar.radius) * (bar.radius + bar.radius) ∧
      (∀ i, r.separatedByFirst i = false ∧ r.separatedBySecond i = false) ∧
      r.separatedByEdges 0 0 = true ∧
      bar.disjoint .identity bar above = true ∧ bar.disjoint above bar .identity = true ∧
      Pose.identity.transformPoint '' {p | bar.Holds p} ∩
        above.transformPoint '' {p | bar.Holds p} = ∅ := by
  intro bar above r
  have haxes : bar.axes.Orthonormal := by
    constructor <;> norm_num [bar, ofHalfLengths, Vec3.dot_eq]
  have habove : above.Rigid := by norm_num [Pose.Rigid, Rotation.isUnit_iff, above]
  have hturn (v : Vec3 ℝ) : above.rotation.apply v = ⟨v.z, v.x, v.y⟩ := by
    ext <;> simp only [above, Rotation.apply, Rotation.vector, Vec3.mul_eq_smul, Vec3.cross,
      Vec3.add_x, Vec3.add_y, Vec3.add_z, Vec3.smul_x, Vec3.smul_y, Vec3.smul_z] <;> ring
  have hcenters : (bar.placed above).center - bar.center = ⟨0, 0, 3⟩ := by
    show above.position + above.rotation.apply 0 - 0 = ⟨0, 0, 3⟩
    rw [hturn, sub_zero]
    exact add_zero above.position
  have hspheres : ((bar.placed above).center - (bar.placed .identity).center).normSq ≤
      (bar.radius + bar.radius) * (bar.radius + bar.radius) := by
    have hlength : (3 : ℝ) ≤ ‖bar.half‖ := by
      rw [Vec3.norm_eq_sqrt_dot]
      exact Real.le_sqrt_of_sq_le (by norm_num [bar, ofHalfLengths, Vec3.dot_eq])
    rw [placed_identity, hcenters]
    show (0 : ℝ) * 0 + 0 * 0 + 3 * 3 ≤ (‖bar.half‖ + ‖bar.half‖) * (‖bar.half‖ + ‖bar.half‖)
    nlinarith only [hlength]
  have hframe : (bar.placed above).axes =
      ⟨⟨0, 1, 0⟩, ⟨3 / 5, 0, 4 / 5⟩, ⟨4 / 5, 0, -(3 / 5)⟩⟩ := by
    show bar.axes.mapCols above.matrix.mulVec = _
    simp only [Mat3.mapCols, Pose.matrix, Rotation.matrix_mulVec habove, hturn]
    rfl
  have hr : r = ⟨⟨3, 1, 1⟩, ⟨3, 1, 1⟩,
      ⟨⟨0, 4 / 5, -(3 / 5)⟩, ⟨3 / 5, 12 / 25, 16 / 25⟩, ⟨4 / 5, -(9 / 25), -(12 / 25)⟩⟩,
      ⟨0, 9 / 5, 12 / 5⟩⟩ := by
    simp only [r, relative, placed_identity, hcenters, hframe]
    norm_num [bar, ofHalfLengths, placed, Mat3.mapCols, Mat3.transposeMulVec, Vec3.dot_eq]
  have hpadding : (rotationPadding : ℝ) = 1 / 10 ^ 9 := by
    norm_num [rotationPadding, Scalar.decimal_real]
  have hreach : r.reach =
      ⟨⟨1 / 10 ^ 9, 4 / 5 + 1 / 10 ^ 9, 3 / 5 + 1 / 10 ^ 9⟩,
        ⟨3 / 5 + 1 / 10 ^ 9, 12 / 25 + 1 / 10 ^ 9, 16 / 25 + 1 / 10 ^ 9⟩,
        ⟨4 / 5 + 1 / 10 ^ 9, 9 / 25 + 1 / 10 ^ 9, 12 / 25 + 1 / 10 ^ 9⟩⟩ := by
    rw [hr]
    norm_num [RelativeBoxes.reach, Mat3.mapCols, Vec3.map, hpadding, abs_of_nonneg]
  have hfaces (i : Fin 3) : r.separatedByFirst i = false ∧ r.separatedBySecond i = false := by
    unfold RelativeBoxes.separatedByFirst RelativeBoxes.separatedBySecond
    rw [hreach, hr]
    fin_cases i <;> norm_num [Vec3.dot_eq, Vec3.get, Mat3.row, Mat3.col, Mat3.entry]
  -- Along the vertical both bars reach 1.4, and their centres are 3 apart.
  have hedges : r.separatedByEdges 0 0 = true := by
    unfold RelativeBoxes.separatedByEdges
    rw [hreach, hr]
    norm_num [Vec3.get, Mat3.row, Mat3.col, Mat3.entry]
  have hdisjoint : bar.disjoint .identity bar above = true := by
    rw [disjoint_eq, if_neg (not_lt.mpr hspheres)]
    exact (separated_iff r).mpr (.inr (.inr ⟨0, 0, hedges⟩))
  obtain ⟨hcomm, hpoints⟩ :=
    disjoint_exact bar bar haxes haxes .identity above Pose.identity_rigid habove
  exact ⟨haxes, Pose.identity_rigid, habove, le_refl _, hspheres, hfaces, hedges, hdisjoint,
    hcomm ▸ hdisjoint, hpoints (le_refl _) (le_refl _) hdisjoint⟩

end OrientedBox

end Collision
