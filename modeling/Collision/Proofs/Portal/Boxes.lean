import Collision.Proofs.Portal.Triangle

/-!
# Portal refinement step by step

A search looks along unit vectors, each of them the normal of a triangle at hand divided by its
length. Whether a point is ahead along it, and by more than some width, can be told from the normal
itself (`Portal.IsBeyond`), so where the corners of a search are known, the next step is a matter of
sums and products of their coordinates: `Portal.discover_eq_portal`, `Portal.refine_of_gain`,
`Portal.refine_of_enclosing`, `Portal.pushOut_of_gain` and `Portal.pushOut_of_reached` are the
steps.

The corners themselves are known for two boxes: the farthest point of their difference depends on
the signs of the direction in the frames of the boxes alone (`Placed.support_boxes`). For
two of them the search is followed from the first portal to the boundary
(`DifferenceBody.search_turnedBoxes`).
-/

set_option autoImplicit false
set_option relaxedAutoImplicit false

namespace Collision

namespace Portal

/-! ### Directions up to their length -/

/-- The point is more than `width` ahead along a vector, whatever the length of the vector. -/
structure IsBeyond (width : ℝ) (n v : Vec3 ℝ) : Prop where
  pos : 0 < v.dot n
  far : width * width * n.dot n < v.dot n * v.dot n

theorem IsBeyond.lt {width : ℝ} {n v : Vec3 ℝ} (h : IsBeyond width n v) :
    width < v.dot n.normalize := by
  have hn : 0 < ‖n‖ := norm_pos_iff.mpr fun hzero ↦ by
    have hpos := h.pos
    rw [hzero, Vec3.dot_zero] at hpos
    exact lt_irrefl 0 hpos
  have hlt : width * ‖n‖ < v.dot n := by
    refine (abs_lt_of_sq_lt_sq' ?_ h.pos.le).2
    rw [mul_pow, sq, sq ‖n‖, sq (v.dot n), ← Vec3.dot_self_eq]
    exact h.far
  rwa [Vec3.normalize_eq, Vec3.dot_smul, inv_mul_eq_div, lt_div_iff₀ hn]

theorem dot_normalize_pos {n v : Vec3 ℝ} (h : 0 < v.dot n) : 0 < v.dot n.normalize :=
  IsBeyond.lt ⟨h, by simpa using mul_pos h h⟩

theorem dot_normalize_nonpos {n v : Vec3 ℝ} (h : v.dot n ≤ 0) : v.dot n.normalize ≤ 0 := by
  rw [Vec3.normalize_eq, Vec3.dot_smul]
  exact mul_nonpos_of_nonneg_of_nonpos (inv_nonneg.mpr (norm_nonneg n)) h

theorem IsBeyond.isAhead {n : Vec3 ℝ} {p : DifferencePoint ℝ} (h : IsBeyond zeroWidth n p.v) :
    isAhead p n.normalize = true :=
  (isAhead_iff _ _).mpr h.lt.le

theorem unitNormal_eq_normalize (a b c : Vec3 ℝ) :
    unitNormal a b c = ((b - a).cross (c - a)).normalize := by
  rw [unitNormal_eq, Vec3.normalize_eq]

theorem not_isClearlyNegative {value : ℝ} (h : 0 ≤ value) : isClearlyNegative value = false := by
  simp [isClearlyNegative, not_lt.mpr h]

/-! ### Discovery -/

variable {d : DifferenceBody ℝ}

/-- The search for a first portal looks along `n1` and `n2`, turns the triangle over, and completes
the portal with the point it finds along `n3`. -/
theorem discover_eq_portal (rounds : ℕ) {v0 v1 v2 v3 : DifferencePoint ℝ} {n1 n2 n3 : Vec3 ℝ}
    (hstart : interiorPoint d = v0) (hn1 : -v0.v = n1) (hn2 : v0.v.cross v1.v = n2)
    (hn3 : (v2.v - v0.v).cross (v1.v - v0.v) = n3) (hfirst : d.support n1.normalize = v1)
    (hsecond : d.support n2.normalize = v2) (hthird : d.support n3.normalize = v3)
    (hahead1 : IsBeyond zeroWidth n1 v1.v) (hahead2 : IsBeyond zeroWidth n2 v2.v)
    (hahead3 : IsBeyond zeroWidth n3 v3.v) (haside : zeroWidth ≤ n2.dot n2)
    (hover : 0 < (v1.v.cross v2.v).dot v0.v) (hside13 : 0 ≤ (v2.v.cross v3.v).dot v0.v)
    (hside32 : 0 ≤ (v3.v.cross v1.v).dot v0.v) :
    discover d (rounds + 1) = .portal ⟨v0, v2, v1, v3⟩ := by
  have htowards : -v0.v.normalize = n1.normalize := by rw [Vec3.neg_normalize, hn1]
  have hwide : isTiny n2.normSq = false := by
    refine Bool.eq_false_iff.mpr fun htiny ↦ absurd ((isTiny_iff _).mp htiny) ?_
    exact not_lt.mpr (haside.trans (le_abs_self _))
  obtain ⟨scale, hscale, hdot⟩ := unitNormal_dot hover.ne'
  have hnormal : 0 < (unitNormal v0.v v1.v v2.v).dot v0.v := by
    rw [hdot]
    exact mul_pos hscale hover
  have hdown : -unitNormal v0.v v1.v v2.v = n3.normalize := by
    rw [unitNormal_eq_normalize, Vec3.neg_normalize, ← Vec3.cross_comm, hn3]
  simp only [discover, startTurning, turnToRay, hstart, htowards, hn2, hfirst, hsecond, hthird,
    hahead1.isAhead, hahead2.isAhead, hahead3.isAhead, hwide, hnormal, hdown, Scalar.zero_real,
    not_isClearlyNegative hside13, not_isClearlyNegative hside32, Bool.not_true,
    Bool.false_eq_true, if_true, if_false]

/-! ### Refinement and the push to the boundary -/

variable {p : Portal ℝ} {tolerance : ℝ}

/-- The outward normal of the portal triangle, as long as twice its area. -/
noncomputable def outward (p : Portal ℝ) : Vec3 ℝ := (p.v2.v - p.v1.v).cross (p.v3.v - p.v1.v)

theorem direction_eq (p : Portal ℝ) : p.direction = p.outward.normalize :=
  unitNormal_eq_normalize _ _ _

theorem not_enclosesOrigin (h : IsBeyond zeroWidth p.outward (-p.v1.v)) :
    p.enclosesOrigin p.direction = false := by
  have hlt := h.lt
  rw [← direction_eq, Vec3.neg_dot, Vec3.dot_comm] at hlt
  have hneg : p.direction.dot p.v1.v < 0 := by linarith [zeroWidth_pos]
  simp only [enclosesOrigin, Scalar.zero_real, Bool.or_eq_false_iff, decide_eq_false_iff_not,
    not_lt, hneg.le, and_true]
  refine Bool.eq_false_iff.mpr fun htiny ↦ ?_
  have habs := (isTiny_iff _).mp htiny
  rw [abs_of_neg hneg] at habs
  linarith

theorem enclosesOrigin_of_pos (h : 0 < p.v1.v.dot p.outward) :
    p.enclosesOrigin p.direction = true := by
  have hpos := dot_normalize_pos h
  rw [← direction_eq, Vec3.dot_comm] at hpos
  simp [enclosesOrigin, hpos]

/-- A point that gains more than the tolerance on the portal is not within it. -/
theorem not_reachesTolerance
    (hgain : IsBeyond tolerance p.outward ((d.support p.direction).v - p.v1.v)) :
    p.reachesTolerance (d.support p.direction) p.direction tolerance = false := by
  have hlt := hgain.lt
  rw [← direction_eq, Vec3.sub_dot] at hlt
  refine Bool.eq_false_iff.mpr fun hreaches ↦ ?_
  linarith [reachesTolerance_iff.mp hreaches]

theorem refine_of_gain (rounds : ℕ) (hnear : IsBeyond zeroWidth p.outward (-p.v1.v))
    (hahead : 0 < (d.support p.direction).v.dot p.outward)
    (hgain : IsBeyond tolerance p.outward ((d.support p.direction).v - p.v1.v)) :
    p.refine d tolerance (rounds + 1) =
      (p.expand (d.support p.direction)).refine d tolerance rounds := by
  have hpos := dot_normalize_pos hahead
  rw [← direction_eq] at hpos
  simp [Portal.refine, not_enclosesOrigin hnear, not_reachesTolerance hgain, hpos]

theorem refine_of_enclosing (rounds : ℕ) (h : 0 < p.v1.v.dot p.outward) :
    p.refine d tolerance (rounds + 1) = .encloses p := by
  simp [Portal.refine, enclosesOrigin_of_pos h]

theorem pushOut_of_gain (rounds : ℕ)
    (hgain : IsBeyond tolerance p.outward ((d.support p.direction).v - p.v1.v)) :
    p.pushOut d tolerance (rounds + 1) =
      (p.expand (d.support p.direction)).pushOut d tolerance rounds := by
  simp [pushOut, not_reachesTolerance hgain]

theorem pushOut_of_reached (rounds : ℕ) (htolerance : 0 ≤ tolerance)
    (h : ((d.support p.direction).v - p.v1.v).dot p.outward ≤ 0) :
    p.pushOut d tolerance (rounds + 1) = (p, true) := by
  have hle := dot_normalize_nonpos h
  rw [← direction_eq, Vec3.sub_dot] at hle
  have hreaches : p.reachesTolerance (d.support p.direction) p.direction tolerance = true :=
    reachesTolerance_iff.mpr (by linarith)
  simp [pushOut, hreaches]

/-- The interior point and the corners of the portal. -/
structure At (p : Portal ℝ) (w0 w1 w2 w3 : Vec3 ℝ) : Prop where
  v0 : p.v0.v = w0
  v1 : p.v1.v = w1
  v2 : p.v2.v = w2
  v3 : p.v3.v = w3

namespace At

variable {w0 w1 w2 w3 w4 : Vec3 ℝ} {v4 : DifferencePoint ℝ}

theorem outward_eq (h : p.At w0 w1 w2 w3) : p.outward = (w2 - w1).cross (w3 - w1) := by
  rw [outward, h.v1, h.v2, h.v3]

theorem expand_first (h : p.At w0 w1 w2 w3) (hv4 : v4.v = w4) (h1 : w1.dot (w4.cross w0) ≤ 0)
    (h3 : w3.dot (w4.cross w0) ≤ 0) : (p.expand v4).At w0 w4 w2 w3 := by
  have hexpand : p.expand v4 = { p with v1 := v4 } := by
    simp only [Portal.expand, Scalar.zero_real, h.v0, h.v1, h.v3, hv4, if_neg (not_lt.mpr h1),
      if_neg (not_lt.mpr h3)]
  rw [hexpand]
  exact ⟨h.v0, hv4, h.v2, h.v3⟩

theorem expand_third (h : p.At w0 w1 w2 w3) (hv4 : v4.v = w4) (h1 : 0 < w1.dot (w4.cross w0))
    (h2 : w2.dot (w4.cross w0) ≤ 0) : (p.expand v4).At w0 w1 w2 w4 := by
  have hexpand : p.expand v4 = { p with v3 := v4 } := by
    simp only [Portal.expand, Scalar.zero_real, h.v0, h.v1, h.v2, hv4, if_pos h1,
      if_neg (not_lt.mpr h2)]
  rw [hexpand]
  exact ⟨h.v0, h.v1, h.v2, hv4⟩

end At

end Portal

namespace Placed

/-! ### Boxes -/

/-- The farthest point of the difference of two boxes: a corner of the one less a corner of the
other, which the signs of the direction in the frames of the boxes tell. -/
theorem support_boxes (halfA halfB : Vec3 ℝ) (poseA poseB : Pose ℝ) {n : Vec3 ℝ} (hn : n ≠ 0) :
    ((DifferenceBody.ofPlaced ⟨.part (.bare (.box halfA)), poseA⟩
      ⟨.part (.bare (.box halfB)), poseB⟩).support n.normalize).v =
        poseA.transformPoint (Primitive.cornerTowards halfA (poseA.inverseTransformVector n)) -
          poseB.transformPoint
            (Primitive.cornerTowards halfB (poseB.inverseTransformVector (-n))) := by
  have hpos : 0 < ‖n‖⁻¹ := inv_pos.mpr (norm_pos_iff.mpr hn)
  show Placed.supportPoint _ n.normalize - Placed.supportPoint _ (-n.normalize) = _
  rw [Part.supportPoint_box, Part.supportPoint_box, Vec3.normalize_eq, ← smul_neg,
    Pose.inverseTransformVector_smul, Pose.inverseTransformVector_smul,
    Primitive.cornerTowards_smul hpos, Primitive.cornerTowards_smul hpos]

end Placed

/-! ### A search -/

theorem PortalConfig.standard_bounds : 2 ≤ (standard : PortalConfig ℝ).iterations ∧
    0 ≤ (standard : PortalConfig ℝ).tolerance ∧ (standard : PortalConfig ℝ).tolerance ≤ 1 := by
  refine ⟨(by decide : 2 ≤ wordLimit), ?_⟩
  norm_num [standard, Scalar.decimal_real]

namespace DifferenceBody

-- The difference of two boxes, the first one turned about the diagonal of a face.
variable {d : DifferenceBody ℝ} (hd : d = .ofPlaced
  ⟨.part (.bare (.box ⟨27, 27, 9⟩)), ⟨⟨9, -9, 27⟩, ⟨1 / 3, 2 / 3, 2 / 3, 0⟩⟩⟩
  ⟨.part (.bare (.box ⟨27, 9, 9⟩)), .identity⟩)

include hd

theorem turnedBoxes_center : d.center.v = ⟨9, -9, 27⟩ := by
  rw [hd]
  show (⟨9, -9, 27⟩ : Vec3 ℝ) - Vec3.zero = _
  rw [Vec3.zero_eq, sub_zero]

theorem turnedBoxes_large : Portal.isTinyVector d.center.v = false := by
  refine Portal.isTinyVector_eq_false 0 ?_
  rw [turnedBoxes_center hd, Portal.zeroWidth_real]
  norm_num [Vec3.get]

/-- The farthest points along the directions of the search. -/
theorem turnedBoxes_support :
    (d.support (⟨-9, 9, -27⟩ : Vec3 ℝ).normalize).v = ⟨-35, 17, -13⟩ ∧
      (d.support (⟨-342, -828, -162⟩ : Vec3 ℝ).normalize).v = ⟨-41, -49, 11⟩ ∧
      (d.support (⟨2016, -1296, -3060⟩ : Vec3 ℝ).normalize).v = ⟨67, 5, 11⟩ ∧
      (d.support (⟨1296, -2592, -6804⟩ : Vec3 ℝ).normalize).v = ⟨19, -1, -13⟩ ∧
      (d.support (⟨-432, -1296, -3672⟩ : Vec3 ℝ).normalize).v = ⟨-35, -1, -13⟩ ∧
      (d.support (⟨0, 0, -972⟩ : Vec3 ℝ).normalize).v = ⟨-35, -1, -13⟩ := by
  let pose : Pose ℝ := ⟨⟨9, -9, 27⟩, ⟨1 / 3, 2 / 3, 2 / 3, 0⟩⟩
  have hsupport {n w : Vec3 ℝ} (hn : 0 < n.dot n)
      (hw : pose.transformPoint
          (Primitive.cornerTowards ⟨27, 27, 9⟩ (pose.inverseTransformVector n)) -
        Primitive.cornerTowards ⟨27, 9, 9⟩ (-n) = w) : (d.support n.normalize).v = w := by
    have hne : n ≠ 0 := fun hzero ↦ by simp [hzero] at hn
    rw [hd, Placed.support_boxes _ _ _ _ hne, Pose.identity_transformPoint,
      Pose.identity_inverseTransformVector, hw]
  refine ⟨hsupport (by norm_num [Vec3.dot_eq]) ?_, hsupport (by norm_num [Vec3.dot_eq]) ?_,
    hsupport (by norm_num [Vec3.dot_eq]) ?_, hsupport (by norm_num [Vec3.dot_eq]) ?_,
    hsupport (by norm_num [Vec3.dot_eq]) ?_, hsupport (by norm_num [Vec3.dot_eq]) ?_⟩
  all_goals
    ext <;> norm_num [pose, Primitive.cornerTowards, Pose.transformPoint,
      Pose.inverseTransformVector, Rotation.apply, Rotation.inverse, Rotation.vector,
      Vec3.mul_eq_smul, Vec3.cross, Scalar.signum_real, Scalar.copySign, Scalar.isSigned_real]

theorem discover_turnedBoxes (rounds : ℕ) :
    ∃ p : Portal ℝ, p.At ⟨9, -9, 27⟩ ⟨-41, -49, 11⟩ ⟨-35, 17, -13⟩ ⟨67, 5, 11⟩ ∧
      Portal.discover d (rounds + 1) = .portal p := by
  let v0 : DifferencePoint ℝ := d.center
  let v1 : DifferencePoint ℝ := d.support (⟨-9, 9, -27⟩ : Vec3 ℝ).normalize
  let v2 : DifferencePoint ℝ := d.support (⟨-342, -828, -162⟩ : Vec3 ℝ).normalize
  let v3 : DifferencePoint ℝ := d.support (⟨2016, -1296, -3060⟩ : Vec3 ℝ).normalize
  have hv0 : v0.v = ⟨9, -9, 27⟩ := turnedBoxes_center hd
  obtain ⟨hv1, hv2, hv3, -⟩ : v1.v = ⟨-35, 17, -13⟩ ∧ v2.v = ⟨-41, -49, 11⟩ ∧
      v3.v = ⟨67, 5, 11⟩ ∧ _ := turnedBoxes_support hd
  have hn1 : -v0.v = ⟨-9, 9, -27⟩ := by
    rw [hv0]
    ext <;> norm_num
  have hn2 : v0.v.cross v1.v = ⟨-342, -828, -162⟩ := by
    rw [hv0, hv1]
    ext <;> norm_num [Vec3.cross]
  have hn3 : (v2.v - v0.v).cross (v1.v - v0.v) = ⟨2016, -1296, -3060⟩ := by
    rw [hv0, hv1, hv2]
    ext <;> norm_num [Vec3.cross]
  refine ⟨⟨v0, v2, v1, v3⟩, ⟨hv0, hv2, hv1, hv3⟩, Portal.discover_eq_portal rounds
    (Portal.interiorPoint_of_large (turnedBoxes_large hd)) hn1 hn2 hn3 rfl rfl rfl ?_ ?_ ?_ ?_ ?_
    ?_ ?_⟩
  · rw [hv1]
    constructor <;> norm_num [Vec3.dot_eq, Portal.zeroWidth_real]
  · rw [hv2]
    constructor <;> norm_num [Vec3.dot_eq, Portal.zeroWidth_real]
  · rw [hv3]
    constructor <;> norm_num [Vec3.dot_eq, Portal.zeroWidth_real]
  · norm_num [Vec3.dot_eq, Portal.zeroWidth_real]
  · rw [hv0, hv1, hv2]
    norm_num [Vec3.dot_eq, Vec3.cross]
  · rw [hv0, hv2, hv3]
    norm_num [Vec3.dot_eq, Vec3.cross]
  · rw [hv0, hv1, hv3]
    norm_num [Vec3.dot_eq, Vec3.cross]

section Rounds

variable {tolerance : ℝ} (hnonneg : 0 ≤ tolerance) (hsmall : tolerance ≤ 1) (rounds : ℕ)

include hnonneg hsmall

/-- One corner is replaced before the portal lies beyond the origin. -/
theorem refine_turnedBoxes {p : Portal ℝ}
    (hp : p.At ⟨9, -9, 27⟩ ⟨-41, -49, 11⟩ ⟨-35, 17, -13⟩ ⟨67, 5, 11⟩) :
    let q := p.expand (d.support p.direction)
    p.enclosesOrigin p.direction = false ∧ (d.support p.direction).v = ⟨19, -1, -13⟩ ∧
      q.At ⟨9, -9, 27⟩ ⟨-41, -49, 11⟩ ⟨-35, 17, -13⟩ ⟨19, -1, -13⟩ ∧
      p.refine d tolerance (rounds + 2) = .encloses q := by
  intro q
  obtain ⟨-, -, -, hv4, -⟩ := turnedBoxes_support hd
  have hn : p.outward = ⟨1296, -2592, -6804⟩ := by
    rw [hp.outward_eq]
    ext <;> norm_num [Vec3.cross]
  have hnext : (d.support p.direction).v = ⟨19, -1, -13⟩ := by
    rw [Portal.direction_eq, hn, hv4]
  have hq : q.At ⟨9, -9, 27⟩ ⟨-41, -49, 11⟩ ⟨-35, 17, -13⟩ ⟨19, -1, -13⟩ := by
    refine hp.expand_third hnext ?_ ?_ <;> norm_num [Vec3.dot_eq, Vec3.cross]
  have hnear : Portal.IsBeyond Portal.zeroWidth p.outward (-p.v1.v) := by
    rw [hn, hp.v1]
    constructor <;> norm_num [Vec3.dot_eq, Portal.zeroWidth_real]
  have hgain : Portal.IsBeyond tolerance p.outward ((d.support p.direction).v - p.v1.v) := by
    rw [hn, hnext, hp.v1]
    constructor <;> norm_num [Vec3.dot_eq]
    nlinarith only [hnonneg, hsmall]
  refine ⟨Portal.not_enclosesOrigin hnear, hnext, hq, ?_⟩
  refine (Portal.refine_of_gain (rounds + 1) hnear ?_ hgain).trans
    (Portal.refine_of_enclosing rounds ?_)
  · rw [hn, hnext]
    norm_num [Vec3.dot_eq]
  · rw [hq.outward_eq, hq.v1]
    norm_num [Vec3.dot_eq, Vec3.cross]

/-- One corner is replaced before the portal lies on the boundary. -/
theorem pushOut_turnedBoxes {q : Portal ℝ}
    (hq : q.At ⟨9, -9, 27⟩ ⟨-41, -49, 11⟩ ⟨-35, 17, -13⟩ ⟨19, -1, -13⟩) :
    let r := q.expand (d.support q.direction)
    r.At ⟨9, -9, 27⟩ ⟨-35, -1, -13⟩ ⟨-35, 17, -13⟩ ⟨19, -1, -13⟩ ∧
      q.pushOut d tolerance (rounds + 2) = (r, true) := by
  intro r
  obtain ⟨-, -, -, -, hv5, hlast⟩ := turnedBoxes_support hd
  have hn : q.outward = ⟨-432, -1296, -3672⟩ := by
    rw [hq.outward_eq]
    ext <;> norm_num [Vec3.cross]
  have hnext : (d.support q.direction).v = ⟨-35, -1, -13⟩ := by
    rw [Portal.direction_eq, hn, hv5]
  have hr : r.At ⟨9, -9, 27⟩ ⟨-35, -1, -13⟩ ⟨-35, 17, -13⟩ ⟨19, -1, -13⟩ := by
    refine hq.expand_first hnext ?_ ?_ <;> norm_num [Vec3.dot_eq, Vec3.cross]
  have hgain : Portal.IsBeyond tolerance q.outward ((d.support q.direction).v - q.v1.v) := by
    rw [hn, hnext, hq.v1]
    constructor <;> norm_num [Vec3.dot_eq]
    nlinarith only [hnonneg, hsmall]
  refine ⟨hr, (Portal.pushOut_of_gain (rounds + 1) hgain).trans
    (Portal.pushOut_of_reached rounds hnonneg ?_)⟩
  have hout : r.outward = ⟨0, 0, -972⟩ := by
    rw [hr.outward_eq]
    ext <;> norm_num [Vec3.cross]
  rw [Portal.direction_eq, hout, hlast, hr.v1]
  norm_num [Vec3.dot_eq]

end Rounds

/-- The whole search, from the first portal to the boundary, with settings that leave it two
rounds and tolerate at most one unit. -/
theorem search_turnedBoxes {config : PortalConfig ℝ} (hrounds : 2 ≤ config.iterations)
    (hnonneg : 0 ≤ config.tolerance) (hsmall : config.tolerance ≤ 1) :
    ∃ p : Portal ℝ, Portal.discover d config.iterations = .portal p ∧
      let q := p.expand (d.support p.direction)
      p.refine d config.tolerance config.iterations = .encloses q ∧
        let r := q.expand (d.support q.direction)
        q.pushOut d config.tolerance config.iterations = (r, true) ∧
          r.At ⟨9, -9, 27⟩ ⟨-35, -1, -13⟩ ⟨-35, 17, -13⟩ ⟨19, -1, -13⟩ := by
  obtain ⟨rounds, hrounds⟩ := Nat.exists_eq_add_of_le' hrounds
  rw [hrounds]
  obtain ⟨p, hp, hdiscover⟩ := discover_turnedBoxes hd (rounds + 1)
  obtain ⟨-, -, hq, hrefine⟩ := refine_turnedBoxes hd hnonneg hsmall rounds hp
  obtain ⟨hr, hpush⟩ := pushOut_turnedBoxes hd hnonneg hsmall rounds hq
  exact ⟨p, hdiscover, hrefine, hpush, hr⟩

omit hd in
/-- The portal on the boundary lies straight below the origin. -/
theorem contact_turnedBoxes {r : Portal ℝ}
    (hr : r.At ⟨9, -9, 27⟩ ⟨-35, -1, -13⟩ ⟨-35, 17, -13⟩ ⟨19, -1, -13⟩) :
    ∃ contact, r.contact? = some contact ∧ contact.normal = ⟨0, 0, -1⟩ ∧ contact.depth = 13 := by
  have hnearest : (Triangle.mk r.v1.v r.v2.v r.v3.v).closestPoint Vec3.zero = ⟨0, 0, -13⟩ := by
    simp only [hr.v1, hr.v2, hr.v3, Triangle.closestPoint, Scalar.zero_real, Scalar.one_real,
      Vec3.zero_eq, Vec3.dot_eq, Vec3.mul_eq_smul]
    norm_num
    ext <;> norm_num
  have hnorm : ‖(⟨0, 0, -13⟩ : Vec3 ℝ)‖ = 13 := by
    rw [Vec3.norm_eq_sqrt_dot, Real.sqrt_eq_iff_mul_self_eq] <;> norm_num [Vec3.dot_eq]
  have hunit : (⟨0, 0, -13⟩ : Vec3 ℝ).unit? Portal.zeroWidth = some ⟨0, 0, -1⟩ := by
    have hlong : ¬ (13 : ℝ) ≤ Portal.zeroWidth := by
      rw [Portal.zeroWidth_real]
      norm_num
    rw [Vec3.unit?_eq, hnorm, if_neg hlong]
    congr 1
    ext <;> norm_num
  refine ⟨⟨r.contactPosition r.direction, ⟨0, 0, -1⟩, Vec3.norm ⟨0, 0, -13⟩, none⟩, ?_, rfl, hnorm⟩
  simp only [Portal.contact?, hnearest, hunit, Option.map_some]

end DifferenceBody

end Collision
