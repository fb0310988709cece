import Collision.Proofs.Shape.Convex
import Mathlib.Analysis.Convex.KreinMilman
import Mathlib.Analysis.InnerProductSpace.Orthogonal
import Mathlib.Analysis.Normed.Affine.AddTorsorBases

/-!
# Interior points of convex sets

The origin is an interior point of a convex set if and only if the set reaches past it along every
vector that is not zero (`origin_mem_interior_iff`). Where the set has interior points but the
origin is none of them, the vector along which it does not reach past the origin can be chosen well:
among the vectors that measure the set by at most one from an interior point, an extreme one
(`exists_extreme_normal`). Of a hull of finitely many points, an extreme vector is known up to a
factor by the points that it measures by one (`exists_multiple_of_extreme`): these are the corners
of a face.
-/

set_option autoImplicit false
set_option relaxedAutoImplicit false

open scoped Pointwise

namespace Collision

variable {points : Set (Vec3 ℝ)}

/-! ### Reaching past the origin -/

/-- A set around a point reaches past it along every vector. -/
theorem exists_lt_of_mem_interior {center : Vec3 ℝ} (h : center ∈ interior points) {n : Vec3 ℝ}
    (hn : n ≠ 0) : ∃ x ∈ points, n.dot center < n.dot x := by
  obtain ⟨radius, hradius, hball⟩ := Metric.mem_nhds_iff.mp (mem_interior_iff_mem_nhds.mp h)
  have hpos : 0 < ‖n‖ := norm_pos_iff.mpr hn
  refine ⟨center + (radius / 2 / ‖n‖) • n, hball ?_, ?_⟩
  · rw [mem_ball_iff_norm, add_sub_cancel_left, norm_smul, Real.norm_of_nonneg (by positivity),
      div_mul_cancel₀ _ hpos.ne']
    exact half_lt_self hradius
  · rw [Vec3.dot_add, Vec3.dot_smul, Vec3.dot_self_eq]
    have hreach : 0 < radius / 2 / ‖n‖ * (‖n‖ * ‖n‖) := by positivity
    linarith

/-- A set around the origin reaches past it along every vector. -/
theorem exists_pos_of_mem_interior (h : (0 : Vec3 ℝ) ∈ interior points) {n : Vec3 ℝ} (hn : n ≠ 0) :
    ∃ x ∈ points, 0 < n.dot x := by
  simpa using exists_lt_of_mem_interior h hn

/-- A convex set without interior points lies in a plane. -/
theorem exists_level_of_interior_eq_empty (hconvex : Convex ℝ points)
    (h : interior points = ∅) : ∃ n : Vec3 ℝ, n ≠ 0 ∧ ∀ x ∈ points, ∀ y ∈ points,
      n.dot x = n.dot y := by
  obtain rfl | ⟨x₀, hx₀⟩ := points.eq_empty_or_nonempty
  · exact ⟨Vec3.axis 0, (Vec3.axis_isDirection 0).ne_zero, nofun⟩
  have hspan : vectorSpan ℝ points ≠ ⊤ := by
    intro htop
    have hnonempty : (interior points).Nonempty := by
      rw [hconvex.interior_nonempty_iff_affineSpan_eq_top,
        AffineSubspace.affineSpan_eq_top_iff_vectorSpan_eq_top_of_nonempty ℝ (Vec3 ℝ) (Vec3 ℝ)
          ⟨x₀, hx₀⟩]
      exact htop
    exact Set.not_nonempty_iff_eq_empty.mpr h hnonempty
  obtain ⟨n, hmem, hn⟩ : ∃ n ∈ (vectorSpan ℝ points)ᗮ, n ≠ 0 :=
    Submodule.exists_mem_ne_zero_of_ne_bot fun hbot ↦
      hspan (Submodule.orthogonal_eq_bot_iff.mp hbot)
  refine ⟨n, hn, fun x hx y hy ↦ ?_⟩
  have hperp : (x - y).dot n = 0 :=
    (Submodule.mem_orthogonal _ _).mp hmem _ (vsub_mem_vectorSpan ℝ hx hy)
  rw [Vec3.dot_comm, Vec3.dot_sub] at hperp
  linarith

theorem Vec3.ne_zero_of_dot_eq {f : StrongDual ℝ (Vec3 ℝ)} (hf : f ≠ 0) {n : Vec3 ℝ}
    (hn : ∀ v, n.dot v = f v) : n ≠ 0 := by
  rintro rfl
  refine hf (ContinuousLinearMap.ext fun v ↦ ?_)
  rw [← hn, Vec3.zero_dot, zero_apply]

/-- A convex set around which the origin is not, stays behind it along some vector. -/
theorem exists_nonpos_of_notMem_interior (hconvex : Convex ℝ points)
    (h : (0 : Vec3 ℝ) ∉ interior points) (hinterior : (interior points).Nonempty) :
    ∃ n : Vec3 ℝ, n ≠ 0 ∧ ∀ x ∈ points, n.dot x ≤ 0 := by
  obtain ⟨f, hf, hle⟩ := geometric_hahn_banach_of_nonempty_interior_point hconvex h hinterior
  obtain ⟨n, hn⟩ := Vec3.exists_dot_eq f
  refine ⟨n, Vec3.ne_zero_of_dot_eq hf hn, fun x hx ↦ ?_⟩
  rw [hn, ← map_zero f]
  exact hle x hx

theorem origin_mem_interior_iff (hconvex : Convex ℝ points) :
    (0 : Vec3 ℝ) ∈ interior points ↔ ∀ n : Vec3 ℝ, n ≠ 0 → ∃ x ∈ points, 0 < n.dot x := by
  refine ⟨fun h n hn ↦ exists_pos_of_mem_interior h hn, fun h ↦ ?_⟩
  by_contra hnot
  obtain hempty | hinterior := (interior points).eq_empty_or_nonempty
  · obtain ⟨n, hn, hlevel⟩ := exists_level_of_interior_eq_empty hconvex hempty
    obtain ⟨x, hx, hpos⟩ := h n hn
    obtain ⟨y, hy, hneg⟩ := h (-n) (neg_ne_zero.mpr hn)
    rw [Vec3.neg_dot, hlevel y hy x hx] at hneg
    linarith
  · obtain ⟨n, hn, hnonpos⟩ := exists_nonpos_of_notMem_interior hconvex hnot hinterior
    obtain ⟨x, hx, hpos⟩ := h n hn
    exact absurd hpos (not_lt.mpr (hnonpos x hx))

/-- A point is an interior point of a convex set that reaches past it along every vector. -/
theorem mem_interior_iff (hconvex : Convex ℝ points) {center : Vec3 ℝ} :
    center ∈ interior points ↔
      ∀ n : Vec3 ℝ, n ≠ 0 → ∃ x ∈ points, n.dot center < n.dot x := by
  refine ⟨fun h n hn ↦ exists_lt_of_mem_interior h hn, fun h ↦ ?_⟩
  have hmoved : Homeomorph.subRight center '' points = points - {center} := Set.sub_singleton.symm
  have hconvexMoved : Convex ℝ (Homeomorph.subRight center '' points) := by
    rw [hmoved]
    exact hconvex.sub (convex_singleton _)
  have horigin : (0 : Vec3 ℝ) ∈ Homeomorph.subRight center '' interior points := by
    rw [Homeomorph.image_interior, origin_mem_interior_iff hconvexMoved]
    intro n hn
    obtain ⟨x, hx, hlt⟩ := h n hn
    refine ⟨x - center, ⟨x, hx, rfl⟩, ?_⟩
    rw [Vec3.dot_sub]
    exact sub_pos.mpr hlt
  obtain ⟨x, hx, hzero⟩ := horigin
  rwa [← sub_eq_zero.mp hzero]

/-- The interiors of two bodies meet exactly if the origin is an interior point of their
difference. -/
theorem interiors_meet_iff {first second : Set (Vec3 ℝ)} (hfirst : Convex ℝ first)
    (hsecond : Convex ℝ second) (hfirstint : (interior first).Nonempty)
    (hsecondint : (interior second).Nonempty) :
    (interior first ∩ interior second).Nonempty ↔ (0 : Vec3 ℝ) ∈ interior (first - second) := by
  constructor
  · rintro ⟨x, hx, hx'⟩
    have hopen : IsOpen (interior first - interior second) := isOpen_interior.sub_right
    refine interior_maximal (Set.sub_subset_sub interior_subset interior_subset) hopen ?_
    exact ⟨x, hx, x, hx', sub_self x⟩
  · intro h
    by_contra hempty
    have hdisjoint : Disjoint (interior first) (interior second) :=
      Set.disjoint_iff_inter_eq_empty.mpr (Set.not_nonempty_iff_eq_empty.mp hempty)
    obtain ⟨f, bound, hf, hlow, hhigh⟩ := geometric_hahn_banach_of_nonempty_interior hfirst
      hsecond.interior hdisjoint hfirstint hsecondint
    -- The bound for the interior of the second body holds on its closure.
    have hclosed : closure (interior second) ⊆ {x | bound ≤ f x} :=
      closure_minimal hhigh (isClosed_le continuous_const f.continuous)
    rw [hsecond.closure_interior_eq_closure_of_nonempty_interior hsecondint] at hclosed
    obtain ⟨n, hn⟩ := Vec3.exists_dot_eq f
    have hne := Vec3.ne_zero_of_dot_eq hf hn
    obtain ⟨_, ⟨p, hp, q, hq, rfl⟩, hpos⟩ := exists_pos_of_mem_interior h hne
    rw [Vec3.dot_sub, hn, hn] at hpos
    have hq' : bound ≤ f q := hclosed (subset_closure hq)
    linarith [hlow p hp]

/-! ### Extreme normals -/

/-- The vectors that measure a set by at most one from a point. -/
def polar (points : Set (Vec3 ℝ)) (center : Vec3 ℝ) : Set (Vec3 ℝ) :=
  {n | ∀ x ∈ points, n.dot (x - center) ≤ 1}

theorem continuous_dot (v : Vec3 ℝ) : Continuous fun n : Vec3 ℝ ↦ n.dot v :=
  continuous_id.inner continuous_const

/-- Around an interior point no long vector measures the set by at most one. -/
theorem polar_isCompact {center : Vec3 ℝ} (hcenter : center ∈ interior points) :
    IsCompact (polar points center) := by
  obtain ⟨radius, hradius, hball⟩ := Metric.mem_nhds_iff.mp (mem_interior_iff_mem_nhds.mp hcenter)
  refine Metric.isCompact_of_isClosed_isBounded ?_ ?_
  · have hinter : polar points center = ⋂ x ∈ points, {n | n.dot (x - center) ≤ 1} := by
      ext n
      simp [polar]
    rw [hinter]
    exact isClosed_biInter fun x _ ↦ isClosed_le (continuous_dot _) continuous_const
  · refine (Metric.isBounded_iff_subset_closedBall 0).mpr ⟨2 / radius, fun n hn ↦ ?_⟩
    rw [mem_closedBall_zero_iff]
    by_cases hzero : n = 0
    · rw [hzero, norm_zero]
      positivity
    have hpos : 0 < ‖n‖ := norm_pos_iff.mpr hzero
    have hreach := hn (center + (radius / 2 / ‖n‖) • n) (hball ?_)
    · rw [add_sub_cancel_left, Vec3.dot_smul, Vec3.dot_self_eq] at hreach
      have hproduct : radius / 2 / ‖n‖ * (‖n‖ * ‖n‖) = radius / 2 * ‖n‖ := by
        field_simp
      rw [hproduct] at hreach
      rw [le_div_iff₀ hradius]
      linarith
    · rw [mem_ball_iff_norm, add_sub_cancel_left, norm_smul, Real.norm_of_nonneg (by positivity),
        div_mul_cancel₀ _ hpos.ne']
      exact half_lt_self hradius

/-- A convex set with interior points, the origin not one of them, stays behind the origin along
some extreme vector of its polar. -/
theorem exists_extreme_normal (hconvex : Convex ℝ points) {center : Vec3 ℝ}
    (hcenter : center ∈ interior points) (h : (0 : Vec3 ℝ) ∉ interior points) :
    ∃ n ∈ (polar points center).extremePoints ℝ, ∀ x ∈ points, n.dot x ≤ 0 := by
  obtain ⟨m, hm, hnonpos⟩ := exists_nonpos_of_notMem_interior hconvex h ⟨center, hcenter⟩
  obtain ⟨x₀, hx₀, hlt⟩ := exists_lt_of_mem_interior hcenter hm
  have hbehind : 0 < -m.dot center := by linarith [hnonpos x₀ hx₀]
  -- Scaled to measure the origin by one from the centre, that vector is in the polar.
  have hscaled : (-m.dot center)⁻¹ • m ∈ polar points center := by
    intro x hx
    rw [Vec3.smul_dot, inv_mul_le_one₀ hbehind, Vec3.dot_sub]
    linarith [hnonpos x hx]
  -- Of the vectors that measure the origin most, an extreme one will do.
  let l : StrongDual ℝ (Vec3 ℝ) := innerSL ℝ (-center)
  have hl (v : Vec3 ℝ) : l v = -v.dot center := by
    show (-center).dot v = _
    rw [Vec3.neg_dot, Vec3.dot_comm]
  have hcompact := polar_isCompact hcenter
  have hexposed : IsExposed ℝ (polar points center) (l.toExposed (polar points center)) :=
    ContinuousLinearMap.toExposed.isExposed
  obtain ⟨best, hbest, hmax⟩ := hcompact.exists_isMaxOn ⟨_, hscaled⟩ l.continuous.continuousOn
  obtain ⟨n, hn⟩ := (hexposed.isCompact hcompact).extremePoints_nonempty ⟨best, hbest, hmax⟩
  refine ⟨n, hexposed.isExtreme.extremePoints_subset_extremePoints hn, fun x hx ↦ ?_⟩
  obtain ⟨hpolar, hlargest⟩ := hn.1
  have horigin := hlargest _ hscaled
  rw [hl, hl, Vec3.smul_dot, ← mul_neg, inv_mul_cancel₀ hbehind.ne'] at horigin
  have hmeasure := hpolar x hx
  rw [Vec3.dot_sub] at hmeasure
  linarith

theorem polar_convexHull (points : Set (Vec3 ℝ)) (center : Vec3 ℝ) :
    polar (convexHull ℝ points) center = polar points center := by
  refine Set.Subset.antisymm (fun n hn x hx ↦ hn x (subset_convexHull ℝ _ hx)) fun n hn x hx ↦ ?_
  have hhalf : Convex ℝ {x : Vec3 ℝ | n.dot x ≤ 1 + n.dot center} :=
    convex_halfSpace_le ⟨n.dot_add, fun s v ↦ Vec3.dot_smul s n v⟩ _
  have hle := convexHull_min (fun y hy ↦ ?_) hhalf hx
  · rw [Vec3.dot_sub]
    exact sub_le_iff_le_add.mpr hle
  · have hmeasure := hn y hy
    rw [Vec3.dot_sub] at hmeasure
    exact sub_le_iff_le_add.mp hmeasure

/-- No vector is perpendicular to all that an extreme vector measures by one. -/
theorem eq_zero_of_extreme (hfinite : points.Finite) {center n v : Vec3 ℝ}
    (hn : n ∈ (polar points center).extremePoints ℝ)
    (hv : ∀ x ∈ points, n.dot (x - center) = 1 → v.dot (x - center) = 0) : v = 0 := by
  -- The extreme vector can be moved a little both ways along such a vector.
  have hnear : ∀ᶠ s : ℝ in nhds 0, ∀ x ∈ points, (n + s • v).dot (x - center) ≤ 1 := by
    rw [Filter.eventually_all_finite hfinite]
    intro x hx
    rcases (hn.1 x hx).lt_or_eq with hlt | htight
    · have hcontinuous : Continuous fun s : ℝ ↦ (n + s • v).dot (x - center) :=
        (continuous_dot _).comp (continuous_const.add (continuous_id.smul continuous_const))
      refine (hcontinuous.tendsto 0).eventually_le_const ?_
      rwa [zero_smul, add_zero]
    · refine Filter.Eventually.of_forall fun s ↦ le_of_eq ?_
      rw [Vec3.add_dot, Vec3.smul_dot, hv x hx htight, mul_zero, add_zero, htight]
  obtain ⟨width, hwidth, hball⟩ := Metric.eventually_nhds_iff.mp hnear
  have hmove {s : ℝ} (hs : |s| < width) : n + s • v ∈ polar points center := by
    refine hball ?_
    rwa [Real.dist_eq, sub_zero]
  have hhalf : |width / 2| < width := by
    rw [abs_of_pos (half_pos hwidth)]
    exact half_lt_self hwidth
  have hmiddle : n ∈ openSegment ℝ (n + (width / 2) • v) (n + (-(width / 2)) • v) := by
    refine ⟨1 / 2, 1 / 2, by norm_num, by norm_num, by norm_num, ?_⟩
    module
  have hend := hn.2 (hmove hhalf) (hmove (by rwa [abs_neg])) hmiddle
  rw [add_eq_left, smul_eq_zero] at hend
  exact hend.resolve_left (half_pos hwidth).ne'

/-- A vector that measures alike all points that an extreme vector measures by one is a multiple of
it. -/
theorem exists_multiple_of_extreme (hfinite : points.Finite) {center n v : Vec3 ℝ}
    (hn : n ∈ (polar points center).extremePoints ℝ)
    (hv : ∀ x ∈ points, ∀ y ∈ points, n.dot (x - center) = 1 → n.dot (y - center) = 1 →
      v.dot (x - y) = 0) : ∃ s : ℝ, v = s • n := by
  obtain ⟨x₀, hx₀, htight⟩ : ∃ x₀ ∈ points, n.dot (x₀ - center) = 1 := by
    by_contra hnone
    push Not at hnone
    exact (Vec3.axis_isDirection 0).ne_zero
      (eq_zero_of_extreme hfinite hn fun x hx h ↦ absurd h (hnone x hx))
  refine ⟨v.dot (x₀ - center), sub_eq_zero.mp (eq_zero_of_extreme hfinite hn fun x hx h ↦ ?_)⟩
  have hlevel := hv x hx x₀ hx₀ h htight
  rw [Vec3.sub_dot, Vec3.smul_dot, h, mul_one, ← Vec3.dot_sub, sub_sub_sub_cancel_right, hlevel]

end Collision
