import Collision.Pair.Tester
import Collision.Proofs.Shape.Convex

/-!
# When portal refinement finds bodies separate

`DifferenceBody.IsNarrow d width` says that the difference body reaches less than `width` past the
origin along some unit vector. Each way in which portal refinement can find two bodies separate
shows such a vector; what has to be seen is that the vector in use has length one, though a
degenerate triangle has no normal.

* The searches for a first portal start from vectors that are not zero, and afterwards look along
  the normal of a triangle with the interior point, whose triple product with it was tested just
  before (`Portal.discover_separated`, `Portal.discover_touching`).
* A degenerate portal counts as lying beyond the origin, so refinement goes on only along a proper
  normal, and stops at a point no more than the tolerance farther out than the portal, which lies on
  the near side of the origin (`Portal.refine_separated`).

`Placed.narrow_of_not_generallyOverlaps` puts them together for placed parts.
-/

set_option autoImplicit false
set_option relaxedAutoImplicit false

namespace Collision

/-- The difference body reaches less than `width` past the origin along some unit vector. -/
def DifferenceBody.IsNarrow (d : DifferenceBody ℝ) (width : ℝ) : Prop :=
  ∃ u : Vec3 ℝ, u.IsDirection ∧ (d.support u).v.dot u < width

theorem DifferenceBody.IsNarrow.mono {d : DifferenceBody ℝ} {width wider : ℝ} (h : d.IsNarrow width)
    (hle : width ≤ wider) : d.IsNarrow wider := by
  obtain ⟨u, hu, hlt⟩ := h
  exact ⟨u, hu, hlt.trans_le hle⟩

namespace Portal

/-! ### What counts as zero -/

theorem zeroWidth_real : (zeroWidth : ℝ) = 1 / 2 ^ 52 := by
  simp only [zeroWidth, Scalar.ofNat_real]
  norm_num

theorem zeroWidth_pos : (0 : ℝ) < zeroWidth := by
  rw [zeroWidth_real]
  positivity

theorem isTiny_iff (value : ℝ) : isTiny value = true ↔ |value| < zeroWidth := decide_eq_true_iff

/-- A value that neither counts as zero nor is positive is below zero by what counts as zero. -/
theorem le_neg_zeroWidth {value : ℝ} (htiny : isTiny value = false) (hpos : ¬ 0 < value) :
    value ≤ -zeroWidth := by
  have hle : zeroWidth ≤ |value| := not_lt.mp fun h ↦ by
    rw [(isTiny_iff value).mpr h] at htiny
    cases htiny
  rw [abs_of_nonpos (not_lt.mp hpos)] at hle
  linarith

theorem isTiny_zero : isTiny (0 : ℝ) = true := by
  rw [isTiny_iff, abs_zero]
  exact zeroWidth_pos

/-- A vector with a component that does not count as zero does not count as zero. -/
theorem isTinyVector_eq_false {v : Vec3 ℝ} (i : Fin 3) (h : zeroWidth ≤ |v.get i|) :
    isTinyVector v = false := by
  refine Bool.eq_false_iff.mpr fun htiny ↦ absurd h (not_le.mpr ?_)
  simp only [isTinyVector, Bool.and_eq_true, isTiny_iff] at htiny
  obtain ⟨⟨hx, hy⟩, hz⟩ := htiny
  fin_cases i <;> assumption

theorem isAhead_iff (p : DifferencePoint ℝ) (u : Vec3 ℝ) :
    isAhead p u = true ↔ zeroWidth ≤ p.v.dot u := by
  simp only [isAhead, Scalar.zero_real, Bool.not_eq_true', Bool.or_eq_false_iff,
    decide_eq_false_iff_not, not_lt]
  constructor
  · rintro ⟨htiny, hnonneg⟩
    have hle : zeroWidth ≤ |p.v.dot u| := not_lt.mp fun h ↦ by
      rw [(isTiny_iff _).mpr h] at htiny
      cases htiny
    rwa [abs_of_nonneg hnonneg] at hle
  · intro hle
    have hnonneg : 0 ≤ p.v.dot u := zeroWidth_pos.le.trans hle
    refine ⟨Bool.eq_false_iff.mpr fun h ↦ ?_, hnonneg⟩
    have hlt := (isTiny_iff _).mp h
    rw [abs_of_nonneg hnonneg] at hlt
    exact absurd hle (not_le.mpr hlt)

/-- A farthest point that is not ahead of the origin shows the body narrow. -/
theorem isNarrow_of_not_isAhead {d : DifferenceBody ℝ} {u : Vec3 ℝ} (hu : u.IsDirection)
    (h : ¬ isAhead (d.support u) u = true) : d.IsNarrow zeroWidth := by
  rw [isAhead_iff] at h
  exact ⟨u, hu, not_le.mp h⟩

/-! ### Normals -/

theorem unitNormal_eq (a b c : Vec3 ℝ) :
    unitNormal a b c = ‖(b - a).cross (c - a)‖⁻¹ • (b - a).cross (c - a) := by
  rw [unitNormal, Vec3.unit?_eq, Scalar.zero_real]
  split_ifs with hflat
  · rw [norm_le_zero_iff.mp hflat, smul_zero]
    exact Vec3.zero_eq
  · rfl

theorem unitNormal_isDirection {a b c : Vec3 ℝ} (h : (b - a).cross (c - a) ≠ 0) :
    (unitNormal a b c).IsDirection := by
  rw [unitNormal_eq]
  exact Vec3.smul_inv_norm_isDirection h

/-- A triangle whose plane misses the origin has a normal. -/
theorem unitNormal_isDirection_of_triple {a b c : Vec3 ℝ} (h : (b.cross c).dot a ≠ 0) :
    (unitNormal a b c).IsDirection := by
  refine unitNormal_isDirection fun hzero ↦ h ?_
  have htriple : (b.cross c).dot a = ((b - a).cross (c - a)).dot a := by
    simp only [Vec3.dot_eq, Vec3.cross, Vec3.sub_x, Vec3.sub_y, Vec3.sub_z]
    ring
  rw [htriple, hzero, Vec3.zero_dot]

/-- The normal of a triangle is zero or of length one, and measures its corners alike. -/
theorem unitNormal_spec (a b c : Vec3 ℝ) :
    (unitNormal a b c = 0 ∨ (unitNormal a b c).IsDirection) ∧
      b.dot (unitNormal a b c) = a.dot (unitNormal a b c) ∧
      c.dot (unitNormal a b c) = a.dot (unitNormal a b c) := by
  refine ⟨?_, ?_, ?_⟩
  · by_cases hzero : (b - a).cross (c - a) = 0
    · left
      rw [unitNormal_eq, hzero, smul_zero]
    · exact .inr (unitNormal_isDirection hzero)
  · have hperp := Vec3.cross_dot_left (b - a) (c - a)
    rw [Vec3.dot_sub] at hperp
    rw [unitNormal_eq, Vec3.dot_smul, Vec3.dot_smul, Vec3.dot_comm b, Vec3.dot_comm a,
      sub_eq_zero.mp hperp]
  · have hperp := Vec3.cross_dot_right (b - a) (c - a)
    rw [Vec3.dot_sub] at hperp
    rw [unitNormal_eq, Vec3.dot_smul, Vec3.dot_smul, Vec3.dot_comm c, Vec3.dot_comm a,
      sub_eq_zero.mp hperp]

/-! ### Discovery -/

theorem interiorPoint_ne_zero (d : DifferenceBody ℝ) : (interiorPoint d).v ≠ 0 := by
  unfold interiorPoint
  simp only
  split_ifs with htiny
  · intro hzero
    have hx := congrArg Vec3.x hzero
    simp only [isTinyVector, Bool.and_eq_true] at htiny
    have hlt := (isTiny_iff _).mp htiny.1.1
    have hcenter : d.center.v.x = -(10 * zeroWidth) := eq_neg_of_add_eq_zero_left hx
    rw [hcenter, abs_neg, abs_of_pos (by linarith [zeroWidth_pos])] at hlt
    linarith [zeroWidth_pos]
  · intro hzero
    refine htiny ?_
    rw [hzero]
    simp only [isTinyVector, Vec3.zero_x, Vec3.zero_y, Vec3.zero_z, isTiny_zero, Bool.and_self]

/-- A centre that does not count as zero is taken as it is. -/
theorem interiorPoint_of_large {d : DifferenceBody ℝ} (h : isTinyVector d.center.v = false) :
    interiorPoint d = d.center := by
  simp only [interiorPoint, h, Bool.false_eq_true, if_false]

theorem isClearlyNegative_ne_zero {value : ℝ} (h : isClearlyNegative value = true) : value ≠ 0 := by
  simp only [isClearlyNegative, Scalar.zero_real, Bool.and_eq_true, decide_eq_true_eq] at h
  exact h.1.ne

/-- Turning goes on along the normal of a triangle that was just seen not to be degenerate. -/
theorem turnToRay_separated {d : DifferenceBody ℝ} {v0 : DifferencePoint ℝ} (rounds : ℕ)
    (v1 v2 : DifferencePoint ℝ) (direction : Vec3 ℝ) (hdirection : direction.IsDirection)
    (h : turnToRay d v0 rounds v1 v2 direction = .separated) : d.IsNarrow zeroWidth := by
  induction rounds generalizing v1 v2 direction with
  | zero => cases h
  | succ rounds ih =>
    simp only [turnToRay] at h
    split_ifs at h with hahead hfirst hsecond
    · exact isNarrow_of_not_isAhead hdirection (by simpa using hahead)
    · exact ih _ _ _ (unitNormal_isDirection_of_triple (isClearlyNegative_ne_zero hfirst)) h
    · exact ih _ _ _ (unitNormal_isDirection_of_triple (isClearlyNegative_ne_zero hsecond)) h

theorem startTurning_separated {d : DifferenceBody ℝ} {rounds : ℕ} {v0 v1 v2 : DifferencePoint ℝ}
    (htriple : (v1.v.cross v2.v).dot v0.v ≠ 0)
    (h : startTurning d rounds v0 v1 v2 = .separated) : d.IsNarrow zeroWidth := by
  have hnormal := unitNormal_isDirection_of_triple htriple
  simp only [startTurning] at h
  split_ifs at h
  · exact turnToRay_separated _ _ _ _ hnormal.neg h
  · exact turnToRay_separated _ _ _ _ hnormal h

theorem aside_ne_zero {v : Vec3 ℝ} (h : ¬ isTiny v.normSq = true) : v ≠ 0 := by
  rintro rfl
  refine h ?_
  rw [Vec3.normSq, Vec3.zero_dot]
  exact isTiny_zero

/-- A point ahead along the normal of two vectors does not lie in their plane. -/
theorem triple_ne_zero {v0 v1 : Vec3 ℝ} {p : DifferencePoint ℝ}
    (hahead : isAhead p (v0.cross v1).normalize = true) : (v1.cross p.v).dot v0 ≠ 0 := by
  have hpos := zeroWidth_pos.trans_le ((isAhead_iff _ _).mp hahead)
  rw [Vec3.normalize_eq, Vec3.dot_smul] at hpos
  have htriple : (v1.cross p.v).dot v0 = p.v.dot (v0.cross v1) := by
    simp only [Vec3.dot_eq, Vec3.cross]
    ring
  rw [htriple]
  intro hzero
  rw [hzero, mul_zero] at hpos
  exact lt_irrefl 0 hpos

theorem towards_isDirection (d : DifferenceBody ℝ) :
    (-(interiorPoint d).v.normalize).IsDirection :=
  (Vec3.normalize_isDirection (interiorPoint_ne_zero d)).neg

theorem discover_separated {d : DifferenceBody ℝ} {rounds : ℕ}
    (h : discover d rounds = .separated) : d.IsNarrow zeroWidth := by
  have htowards := towards_isDirection d
  simp only [discover] at h
  split_ifs at h with hfirst haside hsmall hsecond
  · exact isNarrow_of_not_isAhead htowards (by simpa using hfirst)
  · exact isNarrow_of_not_isAhead (Vec3.normalize_isDirection (aside_ne_zero haside))
      (by simpa using hsecond)
  · exact startTurning_separated (triple_ne_zero (by simpa using hsecond)) h

/-- A difference body that stays nearer to its interior point than the origin is, is found separate
at once. -/
theorem discover_eq_separated {d : DifferenceBody ℝ} (radius : ℝ) (rounds : ℕ)
    (hball : ∀ u : Vec3 ℝ, u.IsDirection → ‖(d.support u).v - (interiorPoint d).v‖ ≤ radius)
    (hfar : radius < ‖(interiorPoint d).v‖) : discover d rounds = .separated := by
  have htowards := towards_isDirection d
  have hreach := (le_of_abs_le (htowards.abs_dot_le _)).trans (hball _ htowards)
  have hcenter : (interiorPoint d).v.dot (-(interiorPoint d).v.normalize) =
      -‖(interiorPoint d).v‖ := by
    have hne : ‖(interiorPoint d).v‖ ≠ 0 := norm_ne_zero_iff.mpr (interiorPoint_ne_zero d)
    rw [Vec3.dot_neg, Vec3.normalize_eq, Vec3.dot_smul, Vec3.dot_self_eq, inv_mul_cancel_left₀ hne]
  rw [Vec3.sub_dot, hcenter] at hreach
  have hbehind : ¬ isAhead (d.support (-(interiorPoint d).v.normalize))
      (-(interiorPoint d).v.normalize) = true := by
    rw [isAhead_iff]
    linarith [zeroWidth_pos]
  simp only [discover, hbehind, Bool.not_false, if_true]

/-- A vector whose components count as zero is short. -/
theorem norm_lt_of_isTinyVector {v : Vec3 ℝ} (h : isTinyVector v = true) : ‖v‖ < 4 * zeroWidth := by
  simp only [isTinyVector, Bool.and_eq_true, isTiny_iff] at h
  obtain ⟨⟨hx, hy⟩, hz⟩ := h
  have hpos := zeroWidth_pos
  have hsquare {a : ℝ} (ha : |a| < zeroWidth) : a * a < zeroWidth * zeroWidth := by
    rw [← abs_mul_abs_self]
    exact mul_self_lt_mul_self (abs_nonneg a) ha
  rw [Vec3.norm_eq_sqrt_dot, Real.sqrt_lt' (by linarith), Vec3.dot_eq]
  have hx' := hsquare hx
  have hy' := hsquare hy
  have hz' := hsquare hz
  nlinarith

/-- Turning ends without a portal, with one, or without rounds. -/
theorem turnToRay_cases (d : DifferenceBody ℝ) (v0 : DifferencePoint ℝ) (rounds : ℕ)
    (v1 v2 : DifferencePoint ℝ) (direction : Vec3 ℝ) :
    turnToRay d v0 rounds v1 v2 direction = .separated ∨
      turnToRay d v0 rounds v1 v2 direction = .exhausted ∨
      ∃ p, turnToRay d v0 rounds v1 v2 direction = .portal p := by
  induction rounds generalizing v1 v2 direction with
  | zero => exact .inr (.inl rfl)
  | succ rounds ih =>
    simp only [turnToRay]
    split_ifs
    · exact .inl rfl
    · exact ih _ _ _
    · exact ih _ _ _
    · exact .inr (.inr ⟨_, rfl⟩)

theorem discover_touching {d : DifferenceBody ℝ} {rounds : ℕ}
    (h : discover d rounds = .touching) : d.IsNarrow (4 * zeroWidth) := by
  have htowards := towards_isDirection d
  have hturn (v0 v1 v2 : DifferencePoint ℝ) (u : Vec3 ℝ) :
      turnToRay d v0 rounds v1 v2 u ≠ .touching := by
    rcases turnToRay_cases d v0 rounds v1 v2 u with h | h | ⟨p, h⟩ <;> rw [h] <;> nofun
  simp only [discover, startTurning] at h
  split_ifs at h with hfirst haside hsmall
  · refine ⟨_, htowards, ?_⟩
    exact (le_of_abs_le (htowards.abs_dot_le _)).trans_lt (norm_lt_of_isTinyVector hsmall)
  · exact absurd h (hturn _ _ _ _)
  · exact absurd h (hturn _ _ _ _)

/-- The segment on which the origin is found ends at the point farthest towards the origin. -/
theorem discover_segment {d : DifferenceBody ℝ} {rounds : ℕ} {v1 : DifferencePoint ℝ}
    (h : discover d rounds = .segment v1) :
    v1 = d.support (-(interiorPoint d).v.normalize) ∧
      isAhead v1 (-(interiorPoint d).v.normalize) = true ∧
      isTiny ((interiorPoint d).v.cross v1.v).normSq = true := by
  have hturn (v0 v1' v2 : DifferencePoint ℝ) (u : Vec3 ℝ) :
      turnToRay d v0 rounds v1' v2 u ≠ .segment v1 := by
    rcases turnToRay_cases d v0 rounds v1' v2 u with h | h | ⟨p, h⟩ <;> rw [h] <;> nofun
  simp only [discover, startTurning] at h
  split_ifs at h with hfirst haside hsmall
  · obtain rfl := Discovery.segment.inj h
    exact ⟨rfl, by simpa using hfirst, haside⟩
  · exact absurd h (hturn _ _ _ _)
  · exact absurd h (hturn _ _ _ _)

/-- A farthest point that seems to lie on the ray is found as the end of the segment. -/
theorem discover_eq_segment {d : DifferenceBody ℝ} {rounds : ℕ} {u : Vec3 ℝ}
    (htowards : -(interiorPoint d).v.normalize = u) (hahead : isAhead (d.support u) u = true)
    (haside : isTiny ((interiorPoint d).v.cross (d.support u).v).normSq = true)
    (hlarge : isTinyVector (d.support u).v = false) :
    discover d rounds = .segment (d.support u) := by
  simp only [discover, htowards, hahead, haside, hlarge, Bool.not_true, Bool.false_eq_true,
    if_true, if_false]

/-! ### Refinement -/

/-- The normal measures the corners of a portal alike. -/
theorem corners_level (p : Portal ℝ) : p.v2.v.dot p.direction = p.v1.v.dot p.direction ∧
    p.v3.v.dot p.direction = p.v1.v.dot p.direction :=
  (unitNormal_spec p.v1.v p.v2.v p.v3.v).2

/-- A point reaches the tolerance if it is no more than the tolerance farther out than the portal,
which the normal measures alike at all corners. -/
theorem reachesTolerance_iff {p : Portal ℝ} {v4 : DifferencePoint ℝ} {tolerance : ℝ} :
    p.reachesTolerance v4 p.direction tolerance = true ↔
      v4.v.dot p.direction ≤ p.v1.v.dot p.direction + tolerance := by
  obtain ⟨hsecond, hthird⟩ := p.corners_level
  simp only [reachesTolerance, corners, List.map_cons, List.map_nil, hsecond, hthird,
    decide_eq_true_eq]
  have hgap : Scalar.minimum? [v4.v.dot p.direction - p.v1.v.dot p.direction,
      v4.v.dot p.direction - p.v1.v.dot p.direction,
      v4.v.dot p.direction - p.v1.v.dot p.direction] =
        some (v4.v.dot p.direction - p.v1.v.dot p.direction) := by
    simp [Scalar.minimum?]
  rw [hgap, Option.getD_some, sub_le_iff_le_add']

/-- A portal that does not lie beyond the origin has a normal, and lies on the near side by more
than what counts as zero. -/
theorem direction_of_not_enclosesOrigin {p : Portal ℝ}
    (h : ¬ p.enclosesOrigin p.direction = true) :
    p.direction.IsDirection ∧ p.v1.v.dot p.direction ≤ -zeroWidth := by
  simp only [enclosesOrigin, Scalar.zero_real, Bool.or_eq_true, decide_eq_true_eq, not_or,
    Bool.not_eq_true] at h
  have hnear := le_neg_zeroWidth h.1 h.2
  refine ⟨(unitNormal_spec p.v1.v p.v2.v p.v3.v).1.resolve_left fun hzero ↦ ?_, ?_⟩
  · rw [show p.direction = 0 from hzero, Vec3.zero_dot] at hnear
    linarith [zeroWidth_pos]
  · rwa [Vec3.dot_comm]

theorem refine_separated {d : DifferenceBody ℝ} {tolerance : ℝ} (rounds : ℕ) (p : Portal ℝ)
    (h : p.refine d tolerance rounds = .separated) :
    d.IsNarrow (max tolerance (4 * zeroWidth)) := by
  induction rounds generalizing p with
  | zero => cases h
  | succ rounds ih =>
    simp only [refine] at h
    split_ifs at h with hencloses hstop
    · obtain ⟨hdirection, hnear⟩ := direction_of_not_enclosesOrigin hencloses
      have hpos := zeroWidth_pos
      refine ⟨p.direction, hdirection, ?_⟩
      rcases Bool.or_eq_true _ _ ▸ hstop with hreach | htolerance
      · simp only [Scalar.zero_real, Bool.not_eq_true', Bool.or_eq_false_iff,
          decide_eq_false_iff_not] at hreach
        have hbehind := le_neg_zeroWidth hreach.1 hreach.2
        exact lt_max_of_lt_right (by linarith)
      · have hle := reachesTolerance_iff.mp htolerance
        exact lt_max_of_lt_left (by linarith)
    · exact ih _ h

end Portal

/-! ### The verdict -/

/-- No search runs out of rounds. -/
def DifferenceBody.RoundsSuffice (d : DifferenceBody ℝ) (config : PortalConfig ℝ) : Prop :=
  Portal.discover d config.iterations ≠ .exhausted ∧
    ∀ p, Portal.discover d config.iterations = .portal p →
      p.refine d config.tolerance config.iterations ≠ .exhausted

theorem DifferenceBody.isNarrow_of_not_holdsOrigin {d : DifferenceBody ℝ} {config : PortalConfig ℝ}
    (hrounds : d.RoundsSuffice config) (h : d.holdsOrigin config = false) :
    d.IsNarrow (max config.tolerance (4 * Portal.zeroWidth)) := by
  have hpos := Portal.zeroWidth_pos
  simp only [holdsOrigin] at h
  split at h
  · rename_i hdiscover
    refine (Portal.discover_separated hdiscover).mono (le_max_of_le_right ?_)
    linarith
  · rename_i hdiscover
    exact absurd hdiscover hrounds.1
  · rename_i hdiscover
    exact (Portal.discover_touching hdiscover).mono (le_max_right _ _)
  · cases h
  · rename_i p hdiscover
    split at h
    · rename_i hrefine
      exact Portal.refine_separated _ _ hrefine
    · rename_i hrefine
      exact absurd hrefine (hrounds.2 p hdiscover)
    · cases h

namespace Placed

/-- The farthest that the first body reaches past the second along a unit vector. -/
theorem supportPoint_isGreatest {a b : Part ℝ} (ha : a.Supported) (hb : b.Supported)
    {poseA poseB : Pose ℝ} (hA : poseA.Rigid) (hB : poseB.Rigid) {u : Vec3 ℝ}
    (hu : u.IsDirection) :
    IsGreatest {x | ∃ p ∈ a.regionAt poseA, ∃ q ∈ b.regionAt poseB, x = u.dot (p - q)}
      (((DifferenceBody.ofPlaced ⟨.part a, poseA⟩ ⟨.part b, poseB⟩).support u).v.dot u) := by
  obtain ⟨hfirst, hfirstmax⟩ := Part.supportPoint_spec ha hA hu
  obtain ⟨hsecond, hsecondmax⟩ := Part.supportPoint_spec hb hB hu.neg
  refine ⟨⟨_, hfirst, _, hsecond, Vec3.dot_comm _ _⟩, ?_⟩
  rintro _ ⟨p, hp, q, hq, rfl⟩
  have hp' := hfirstmax p hp
  have hq' := hsecondmax q hq
  rw [Vec3.dot_neg, Vec3.dot_neg] at hq'
  show u.dot (p - q) ≤ ((Placed.mk (.part a) poseA).supportPoint u -
    (Placed.mk (.part b) poseB).supportPoint (-u)).dot u
  rw [Vec3.dot_comm, Vec3.sub_dot, Vec3.sub_dot]
  linarith

theorem isNarrow_of_not_generallyOverlaps {a b : Placed ℝ} {config : PortalConfig ℝ}
    (hrounds : (DifferenceBody.ofPlaced a b).RoundsSuffice config)
    (h : a.generallyOverlaps b config = false) :
    (DifferenceBody.ofPlaced a b).IsNarrow (max config.tolerance (4 * Portal.zeroWidth)) :=
  DifferenceBody.isNarrow_of_not_holdsOrigin hrounds h

end Placed

/-! ### Triangles separated by a face -/

theorem Interval.holds_of_mem_image_hull {corners : List (Vec3 ℝ)} {pose : Pose ℝ} {n : Vec3 ℝ}
    {i : Interval ℝ} (h : ∀ c ∈ corners, i.Holds ((pose.transformPoint c).dot n)) {p : Vec3 ℝ}
    (hp : p ∈ pose.transformPoint '' Vec3.hull corners) : i.Holds (p.dot n) := by
  obtain ⟨q, hq, rfl⟩ := hp
  have hinside :
      (i.shift (-pose.position.dot n)).Holds (q.dot (pose.inverseTransformVector n)) := by
    refine Interval.holds_of_mem_hull (fun c hc ↦ ?_) hq
    have hcorner := Interval.shift_holds (h c hc) (-pose.position.dot n)
    rwa [Pose.transformPoint_dot, add_comm (pose.position.dot n), add_assoc, add_neg_cancel,
      add_zero] at hcorner
  rw [Pose.transformPoint_dot]
  obtain ⟨hlo, hhi⟩ := hinside
  change i.lo + -pose.position.dot n ≤ _ at hlo
  change _ ≤ i.hi + -pose.position.dot n at hhi
  constructor <;> linarith

/-- An axis that separates two placed triangles shows a direction along which they are apart. -/
theorem Polytope.exists_direction_of_separatedBy {t u : Triangle ℝ} {poseA poseB : Pose ℝ}
    {axis : Vec3 ℝ}
    (h : separatedBy (.triangle (t.placed poseA)) (.triangle (u.placed poseB)) axis = true) :
    ∃ n : Vec3 ℝ, n.IsDirection ∧ ∀ p ∈ poseA.transformPoint '' Vec3.hull t.corners,
      ∀ q ∈ poseB.transformPoint '' Vec3.hull u.corners, n.dot (p - q) ≤ 0 := by
  have hshortest : (0 : ℝ) ≤ shortestAxis := by
    unfold shortestAxis
    rw [Scalar.decimal_real]
    positivity
  have hholds (t : Triangle ℝ) (pose : Pose ℝ) (n : Vec3 ℝ) :
      ∃ i, Interval.ofPoints? (Polytope.triangle (t.placed pose)).corners n = some i ∧
        ∀ p ∈ pose.transformPoint '' Vec3.hull t.corners, i.Holds (p.dot n) := by
    obtain ⟨i, hi, hcorners⟩ := Interval.hull?_holds
      ((Polytope.triangle (t.placed pose)).corners.map fun p ↦ p.dot n) (List.cons_ne_nil _ _)
    refine ⟨i, hi, fun p hp ↦ Interval.holds_of_mem_image_hull (fun c hc ↦ ?_) hp⟩
    refine hcorners _ (List.mem_map.mpr ⟨pose.transformPoint c, ?_, rfl⟩)
    exact List.mem_map_of_mem hc
  unfold separatedBy at h
  rcases hunit : axis.unit? shortestAxis with _ | n
  · simp [hunit] at h
  · obtain ⟨-, -, -, hn⟩ := Vec3.unit?_eq_some hshortest hunit
    obtain ⟨i, hi, hfirst⟩ := hholds t poseA n
    obtain ⟨j, hj, hsecond⟩ := hholds u poseB n
    simp only [hunit, hi, hj, Bool.or_eq_true, decide_eq_true_eq] at h
    rcases h with hle | hle
    · refine ⟨n, hn, fun p hp q hq ↦ ?_⟩
      rw [Vec3.dot_comm, Vec3.sub_dot]
      linarith [(hfirst p hp).2, (hsecond q hq).1]
    · refine ⟨-n, hn.neg, fun p hp q hq ↦ ?_⟩
      rw [Vec3.neg_dot, Vec3.dot_comm, Vec3.sub_dot]
      linarith [(hfirst p hp).1, (hsecond q hq).2]

theorem Polytope.exists_direction_of_separatedByFaces {t u : Triangle ℝ} {poseA poseB : Pose ℝ}
    (h : separatedByFaces (.triangle (t.placed poseA)) (.triangle (u.placed poseB)) = true) :
    ∃ n : Vec3 ℝ, n.IsDirection ∧ ∀ p ∈ poseA.transformPoint '' Vec3.hull t.corners,
      ∀ q ∈ poseB.transformPoint '' Vec3.hull u.corners, n.dot (p - q) ≤ 0 := by
  obtain ⟨axis, -, haxis⟩ := List.any_eq_true.mp h
  exact exists_direction_of_separatedBy haxis

theorem Placed.triangle?_eq_some {part : Part ℝ} {pose : Pose ℝ} {t : Triangle ℝ}
    (h : (Placed.mk (.part part) pose).triangle? = some t) :
    ∃ corners : Triangle ℝ, t = corners.placed pose ∧
      part.regionAt pose = pose.transformPoint '' Vec3.hull corners.corners := by
  obtain ⟨corners, hcorners, rfl⟩ := Option.map_eq_some_iff.mp h
  refine ⟨corners, rfl, ?_⟩
  cases part with
  | offset prim inner => cases hcorners
  | bare prim => rcases Primitive.triangle?_cases hcorners with rfl | rfl <;> rfl

namespace PairConfig

/-- Bodies that overlap along every direction are not separated by a face. -/
theorem separatedByFaces_eq_false {a b : Part ℝ} {poseA poseB : Pose ℝ}
    (h : ∀ u : Vec3 ℝ, u.IsDirection →
      ∃ p ∈ a.regionAt poseA, ∃ q ∈ b.regionAt poseB, 0 < u.dot (p - q)) :
    separatedByFaces (⟨.part a, poseA⟩ : Placed ℝ) ⟨.part b, poseB⟩ = false := by
  unfold separatedByFaces
  rcases hfirst : (Placed.mk (.part a) poseA).triangle? with _ | t
  · rfl
  · rcases hsecond : (Placed.mk (.part b) poseB).triangle? with _ | u
    · rfl
    · obtain ⟨t, rfl, hregionA⟩ := Placed.triangle?_eq_some hfirst
      obtain ⟨u, rfl, hregionB⟩ := Placed.triangle?_eq_some hsecond
      rw [hregionA, hregionB] at h
      refine Bool.eq_false_iff.mpr fun hseparated ↦ ?_
      obtain ⟨n, hn, hnonpos⟩ := Polytope.exists_direction_of_separatedByFaces hseparated
      obtain ⟨p, hp, q, hq, hpos⟩ := h n hn
      exact absurd hpos (not_lt.mpr (hnonpos p hp q hq))

/-- Two placed bodies with farthest points, tried in enough rounds. When portal refinement finds
them separate, there is a direction along which they overlap by less than the tolerance, or by less
than four units of what counts as zero. Bodies that overlap by at least that along every direction
have a common point, and portal refinement says that they overlap, as any exact test does. -/
theorem portal_verdict (c : PairConfig ℝ) (a b : Part ℝ) (ha : a.Supported) (hb : b.Supported)
    (poseA poseB : Pose ℝ) (hA : poseA.Rigid) (hB : poseB.Rigid)
    (hrounds : (DifferenceBody.ofPlaced (⟨.part a, poseA⟩ : Placed ℝ)
      ⟨.part b, poseB⟩).RoundsSuffice c.portal) :
    let bodyA : Placed ℝ := ⟨.part a, poseA⟩
    let bodyB : Placed ℝ := ⟨.part b, poseB⟩
    let reach : Vec3 ℝ → Set ℝ := fun u ↦
      {x | ∃ p ∈ a.regionAt poseA, ∃ q ∈ b.regionAt poseB, x = u.dot (p - q)}
    let width := max c.portal.tolerance (4 * (1 / 2 ^ 52))
    (bodyA.generallyOverlaps bodyB c.portal = false →
      ∃ u largest, u.IsDirection ∧ IsGreatest (reach u) largest ∧ largest < width) ∧
    ((∀ u, u.IsDirection → ∃ largest, IsGreatest (reach u) largest ∧ width ≤ largest) →
      bodyA.generallyOverlaps bodyB c.portal = true ∧ c.collideGeneral bodyA bodyB = true ∧
        (a.regionAt poseA ∩ b.regionAt poseB).Nonempty ∧
        ∀ exact : Bool, (exact = true ↔ (a.regionAt poseA ∩ b.regionAt poseB).Nonempty) →
          c.collideGeneral bodyA bodyB = exact) := by
  intro bodyA bodyB reach width
  have hwidth : width = max c.portal.tolerance (4 * Portal.zeroWidth) := by
    rw [Portal.zeroWidth_real]
  have hseparate : bodyA.generallyOverlaps bodyB c.portal = false →
      ∃ u largest, u.IsDirection ∧ IsGreatest (reach u) largest ∧ largest < width := by
    intro hfalse
    obtain ⟨u, hu, hlt⟩ := Placed.isNarrow_of_not_generallyOverlaps hrounds hfalse
    rw [hwidth]
    exact ⟨u, _, hu, Placed.supportPoint_isGreatest ha hb hA hB hu, hlt⟩
  refine ⟨hseparate, fun hdeep ↦ ?_⟩
  have hoverlap : ∀ u : Vec3 ℝ, u.IsDirection →
      ∃ p ∈ a.regionAt poseA, ∃ q ∈ b.regionAt poseB, 0 < u.dot (p - q) := by
    intro u hu
    obtain ⟨largest, ⟨⟨p, hp, q, hq, rfl⟩, -⟩, hle⟩ := hdeep u hu
    have hpos : 0 < width := lt_max_of_lt_right (by positivity)
    exact ⟨p, hp, q, hq, hpos.trans_le hle⟩
  have hgeneral : bodyA.generallyOverlaps bodyB c.portal = true := by
    by_contra hfalse
    obtain ⟨u, largest, hu, hgreatest, hlt⟩ := hseparate (Bool.not_eq_true _ ▸ hfalse)
    obtain ⟨other, hother, hle⟩ := hdeep u hu
    rw [hother.unique hgreatest] at hle
    exact absurd hlt (not_lt.mpr hle)
  have hcollide : c.collideGeneral bodyA bodyB = true := by
    unfold collideGeneral
    rw [separatedByFaces_eq_false hoverlap, hgeneral]
    rfl
  have hcommon := Part.exists_common_point ha hb poseA poseB hoverlap
  refine ⟨hgeneral, hcollide, hcommon, fun exact hexact ↦ ?_⟩
  rw [hcollide, hexact.mpr hcommon]

/-- Two unit balls with centres ten apart. -/
theorem portal_verdict_far_balls :
    let c : PairConfig ℝ := ⟨.standard, 20⟩
    let ball : Part ℝ := .bare (.sphere 1)
    let aside : Pose ℝ := .ofPosition ⟨10, 0, 0⟩
    let bodyA : Placed ℝ := ⟨.part ball, Pose.identity⟩
    let bodyB : Placed ℝ := ⟨.part ball, aside⟩
    ball.Supported ∧ (Pose.identity : Pose ℝ).Rigid ∧ aside.Rigid ∧
      (DifferenceBody.ofPlaced bodyA bodyB).RoundsSuffice c.portal ∧
      bodyA.generallyOverlaps bodyB c.portal = false ∧
      ∃ (u : Vec3 ℝ) (largest : ℝ), u.IsDirection ∧
        IsGreatest {x | ∃ p ∈ ball.regionAt Pose.identity, ∃ q ∈ ball.regionAt aside,
          x = u.dot (p - q)} largest ∧
        largest < max c.portal.tolerance (4 * (1 / 2 ^ 52)) := by
  intro c ball aside bodyA bodyB
  have hball : ball.Supported := ⟨trivial, one_pos, nofun, nofun⟩
  have haside : aside.Rigid := Pose.identity_rigid
  have hcenter : (Portal.interiorPoint (.ofPlaced bodyA bodyB)).v = -⟨10, 0, 0⟩ := by
    have hv : (DifferenceBody.ofPlaced bodyA bodyB).center.v = -⟨10, 0, 0⟩ :=
      (congrArg (· - aside.position) Vec3.zero_eq).trans (zero_sub _)
    have htiny : Portal.isTinyVector (DifferenceBody.ofPlaced bodyA bodyB).center.v = false := by
      rw [hv, Portal.isTinyVector, Bool.and_assoc]
      refine Bool.and_eq_false_imp.mpr fun hx ↦ absurd ((Portal.isTiny_iff _).mp hx) ?_
      rw [Portal.zeroWidth_real]
      norm_num
    simp only [Portal.interiorPoint, htiny, Bool.false_eq_true, if_false]
    exact hv
  have hdiscover : Portal.discover (.ofPlaced bodyA bodyB) c.portal.iterations = .separated := by
    refine Portal.discover_eq_separated 2 _ (fun u hu ↦ ?_) ?_
    · have hp := Part.mem_regionAt_sphere.mp
        (Part.supportPoint_spec hball Pose.identity_rigid hu).1
      have hq := Part.mem_regionAt_sphere.mp (Part.supportPoint_spec hball haside hu.neg).1
      have hsplit : ((DifferenceBody.ofPlaced bodyA bodyB).support u).v - -⟨10, 0, 0⟩ =
          (bodyA.supportPoint u - Vec3.zero) - (bodyB.supportPoint (-u) - ⟨10, 0, 0⟩) := by
        show bodyA.supportPoint u - bodyB.supportPoint (-u) - -⟨10, 0, 0⟩ = _
        rw [Vec3.zero_eq]
        abel
      rw [hcenter, hsplit]
      refine (norm_sub_le _ _).trans ?_
      linarith
    · rw [hcenter, norm_neg, Vec3.norm_eq_sqrt_dot, Real.lt_sqrt (by norm_num)]
      simp only [Vec3.dot_eq]
      norm_num
  have hrounds : (DifferenceBody.ofPlaced bodyA bodyB).RoundsSuffice c.portal := by
    constructor
    · rw [hdiscover]
      nofun
    · intro p hp
      rw [hdiscover] at hp
      cases hp
  have hfalse : bodyA.generallyOverlaps bodyB c.portal = false := by
    simp only [Placed.generallyOverlaps, DifferenceBody.holdsOrigin, hdiscover]
  obtain ⟨hseparate, -⟩ := portal_verdict c ball ball hball hball Pose.identity aside
    Pose.identity_rigid haside hrounds
  exact ⟨hball, Pose.identity_rigid, haside, hrounds, hfalse, hseparate hfalse⟩

end PairConfig

end Collision
