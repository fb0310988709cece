import Collision.Proofs.Shape.Support
import Mathlib.Algebra.BigOperators.Fin
import Mathlib.Analysis.Convex.Combination
import Mathlib.Analysis.Convex.Topology
import Mathlib.Analysis.InnerProductSpace.Dual
import Mathlib.Analysis.LocallyConvex.Separation
import Mathlib.Analysis.Normed.Module.FiniteDimension

/-!
# Shapes as convex bodies

Parts are convex where they stand (`Part.regionAt_convex`), and those that have farthest points are
compact (`Part.regionAt_isCompact`): boxes and capsules are sums of segments and balls, and the
others are hulls of finitely many points. Two such bodies without a common point are separated by a
plane, so bodies that overlap along every direction have a common point
(`Part.exists_common_point`).
-/

set_option autoImplicit false
set_option relaxedAutoImplicit false

open scoped Pointwise

namespace Collision

/-! ### Primitives -/

/-- The segment that reaches equally far to both sides of the origin along a vector. -/
def beam (axis : Vec3 ℝ) (reach : ℝ) : Set (Vec3 ℝ) :=
  (fun s : ℝ ↦ s • axis) '' Set.Icc (-reach) reach

theorem beam_isCompact (axis : Vec3 ℝ) (reach : ℝ) : IsCompact (beam axis reach) :=
  isCompact_Icc.image (continuous_id.smul continuous_const)

theorem beam_convex (axis : Vec3 ℝ) (reach : ℝ) : Convex ℝ (beam axis reach) := by
  refine (convex_Icc _ _).is_linear_image ⟨?_, ?_⟩
  · exact fun s t ↦ add_smul s t axis
  · exact fun s t ↦ mul_smul s t axis

theorem smul_mem_beam {axis : Vec3 ℝ} {reach s : ℝ} (h : |s| ≤ reach) :
    s • axis ∈ beam axis reach :=
  ⟨s, Set.mem_Icc.mpr (abs_le.mp h), rfl⟩

theorem hull_isCompact (points : List (Vec3 ℝ)) : IsCompact (Vec3.hull points) :=
  (List.finite_toSet points).isCompact_convexHull ℝ

namespace Primitive

theorem box_region_eq (half : Vec3 ℝ) : (box half).region =
    beam (Vec3.axis 0) half.x + (beam (Vec3.axis 1) half.y + beam (Vec3.axis 2) half.z) := by
  ext p
  constructor
  · rintro ⟨hx, hy, hz⟩
    refine ⟨_, smul_mem_beam hx, _, ⟨_, smul_mem_beam hy, _, smul_mem_beam hz, rfl⟩, ?_⟩
    ext <;> simp [Vec3.axis, Vec3.ofFn]
  · rintro ⟨_, ⟨x, hx, rfl⟩, _, ⟨_, ⟨y, hy, rfl⟩, _, ⟨z, hz, rfl⟩, rfl⟩, rfl⟩
    refine ⟨?_, ?_, ?_⟩
    · simpa [Vec3.axis, Vec3.ofFn] using abs_le.mpr (Set.mem_Icc.mp hx)
    · simpa [Vec3.axis, Vec3.ofFn] using abs_le.mpr (Set.mem_Icc.mp hy)
    · simpa [Vec3.axis, Vec3.ofFn] using abs_le.mpr (Set.mem_Icc.mp hz)

theorem smul_axis_two (height : ℝ) : height • (Vec3.axis 2 : Vec3 ℝ) = ⟨0, 0, height⟩ := by
  ext <;> simp [Vec3.axis, Vec3.ofFn]

theorem capsule_region_eq (radius halfHeight : ℝ) : (capsule radius halfHeight).region =
    beam (Vec3.axis 2) halfHeight + Metric.closedBall (0 : Vec3 ℝ) radius := by
  ext p
  constructor
  · rintro ⟨height, hheight, hnorm⟩
    refine ⟨_, smul_mem_beam hheight, p - ⟨0, 0, height⟩, ?_, ?_⟩
    · rwa [mem_closedBall_zero_iff]
    · simp only [smul_axis_two, add_sub_cancel]
  · rintro ⟨_, ⟨height, hheight, rfl⟩, ball, hball, rfl⟩
    refine ⟨height, abs_le.mpr (Set.mem_Icc.mp hheight), ?_⟩
    simp only [smul_axis_two, add_sub_cancel_left]
    rwa [mem_closedBall_zero_iff] at hball

theorem sphere_region_eq (radius : ℝ) :
    (sphere radius).region = Metric.closedBall (0 : Vec3 ℝ) radius := by
  ext p
  exact mem_closedBall_zero_iff.symm

theorem region_isCompact {prim : Primitive ℝ} (hplane : prim.kind ≠ .plane)
    (hcylinder : prim.kind ≠ .cylinder) : IsCompact prim.region := by
  cases prim with
  | sphere radius =>
    rw [sphere_region_eq]
    exact isCompact_closedBall 0 radius
  | box half =>
    rw [box_region_eq]
    exact (beam_isCompact _ _).add ((beam_isCompact _ _).add (beam_isCompact _ _))
  | cylinder radius halfHeight => exact absurd rfl hcylinder
  | capsule radius halfHeight =>
    rw [capsule_region_eq]
    exact (beam_isCompact _ _).add (isCompact_closedBall 0 radius)
  | plane => exact absurd rfl hplane
  | triangle corners => exact hull_isCompact _
  | meshTriangle corners => exact hull_isCompact _
  | convexHull points => exact hull_isCompact _

theorem sideways_isLinearMap : IsLinearMap ℝ sideways := by
  refine ⟨fun p q ↦ ?_, fun s p ↦ ?_⟩ <;> ext <;> simp [sideways]

theorem height_isLinearMap : IsLinearMap ℝ fun p : Vec3 ℝ ↦ p.z :=
  ⟨fun _ _ ↦ rfl, fun _ _ ↦ by simp⟩

theorem cylinder_region_eq (radius halfHeight : ℝ) : (cylinder radius halfHeight).region =
    Set.preimage sideways (Metric.closedBall 0 radius) ∩
      Set.preimage (fun p : Vec3 ℝ ↦ p.z) (Set.Icc (-halfHeight) halfHeight) := by
  ext p
  simp only [region, Set.mem_ofPred_eq, Set.mem_inter_iff, Set.mem_preimage,
    mem_closedBall_zero_iff, norm_sideways, Set.mem_Icc, abs_le]

theorem region_convex (prim : Primitive ℝ) : Convex ℝ prim.region := by
  cases prim with
  | sphere radius =>
    rw [sphere_region_eq]
    exact convex_closedBall 0 radius
  | box half =>
    rw [box_region_eq]
    exact (beam_convex _ _).add ((beam_convex _ _).add (beam_convex _ _))
  | cylinder radius halfHeight =>
    rw [cylinder_region_eq]
    exact ((convex_closedBall 0 radius).is_linear_preimage sideways_isLinearMap).inter
      ((convex_Icc _ _).is_linear_preimage height_isLinearMap)
  | capsule radius halfHeight =>
    rw [capsule_region_eq]
    exact (beam_convex _ _).add (convex_closedBall 0 radius)
  | plane => exact convex_halfSpace_le height_isLinearMap 0
  | triangle corners => exact convex_convexHull ℝ _
  | meshTriangle corners => exact convex_convexHull ℝ _
  | convexHull points => exact convex_convexHull ℝ _

end Primitive

/-! ### Moved bodies -/

/-- A rotation as a linear map. -/
noncomputable def Rotation.linear (q : Rotation ℝ) : Vec3 ℝ →ₗ[ℝ] Vec3 ℝ where
  toFun := q.apply
  map_add' := q.apply_add
  map_smul' := q.apply_smul

namespace Pose

theorem transformPoint_image (pose : Pose ℝ) (points : Set (Vec3 ℝ)) :
    pose.transformPoint '' points = {pose.position} + pose.rotation.linear '' points := by
  rw [Set.singleton_add, Set.image_image]
  rfl

theorem image_isCompact (pose : Pose ℝ) {points : Set (Vec3 ℝ)} (h : IsCompact points) :
    IsCompact (pose.transformPoint '' points) := by
  rw [transformPoint_image]
  exact isCompact_singleton.add (h.image pose.rotation.linear.continuous_of_finiteDimensional)

theorem image_convex (pose : Pose ℝ) {points : Set (Vec3 ℝ)} (h : Convex ℝ points) :
    Convex ℝ (pose.transformPoint '' points) := by
  rw [transformPoint_image]
  exact (convex_singleton _).add (h.linear_image pose.rotation.linear)

theorem preimage_convex (pose : Pose ℝ) {points : Set (Vec3 ℝ)} (h : Convex ℝ points) :
    Convex ℝ (Set.preimage pose.transformPoint points) :=
  (h.translate_preimage_right pose.position).linear_preimage pose.rotation.linear

theorem transformPoint_continuous (pose : Pose ℝ) : Continuous pose.transformPoint :=
  continuous_const.add pose.rotation.linear.continuous_of_finiteDimensional

theorem transformPoint_mem_segment (pose : Pose ℝ) {a b q : Vec3 ℝ} (h : q ∈ segment ℝ a b) :
    pose.transformPoint q ∈ segment ℝ (pose.transformPoint a) (pose.transformPoint b) :=
  (pose.preimage_convex (convex_segment _ _)).segment_subset (left_mem_segment ℝ _ _)
    (right_mem_segment ℝ _ _) h

end Pose

/-- Moved corners span the moved hull. -/
theorem hull_map_transformPoint (points : List (Vec3 ℝ)) (pose : Pose ℝ) :
    Vec3.hull (points.map pose.transformPoint) = pose.transformPoint '' Vec3.hull points := by
  have hset : {p | p ∈ points.map pose.transformPoint} =
      {pose.position} + pose.rotation.linear '' {p | p ∈ points} := by
    rw [← Pose.transformPoint_image]
    ext p
    simp
  rw [Vec3.hull, hset, convexHull_add, convexHull_singleton, ← LinearMap.image_convexHull,
    Pose.transformPoint_image, Vec3.hull]

/-! ### Interior points -/

namespace Vec3

theorem sum_eq (points : List (Vec3 ℝ)) : sum points = points.sum := by
  rw [List.sum_eq_foldl, ← zero_eq]
  rfl

/-- The mean of points is in their hull. -/
theorem sum_div_length_mem_hull {points : List (Vec3 ℝ)} (h : points ≠ []) :
    sum points / (Scalar.ofNat points.length : ℝ) ∈ hull points := by
  have hlength : 0 < points.length := List.length_pos_of_ne_nil h
  have hmean : sum points / (Scalar.ofNat points.length : ℝ) =
      Finset.univ.centerMass (fun _ ↦ (1 : ℝ)) points.get := by
    have hsum : ∑ i, points.get i = points.sum := by
      rw [← List.sum_ofFn, List.ofFn_get]
    simp only [sum_eq, div_eq_smul, Scalar.ofNat_real, Finset.centerMass, one_smul,
      hsum, Finset.sum_const, Finset.card_univ, Fintype.card_fin, nsmul_eq_mul, mul_one]
  rw [hmean]
  refine (convex_convexHull ℝ _).centerMass_mem (fun _ _ ↦ zero_le_one) ?_ fun i _ ↦ ?_
  · simpa using hlength
  · exact subset_convexHull ℝ _ (points.get_mem i)

theorem mean_mem_hull {points : List (Vec3 ℝ)} (h : points ≠ []) : mean points ∈ hull points := by
  have hcount : Nat.max points.length 1 = points.length :=
    max_eq_left (List.length_pos_of_ne_nil h)
  rw [mean, hcount]
  exact sum_div_length_mem_hull h

end Vec3

theorem Triangle.centroid_eq (t : Triangle ℝ) : t.centroid = Vec3.mean t.corners := by
  have hsum : t.corners.sum = t.a + t.b + t.c := by simp [corners, add_assoc]
  rw [Vec3.mean, Vec3.sum_eq, hsum]
  simp [centroid, corners, Vec3.div_eq_smul]

theorem Triangle.centroid_eq_smul (t : Triangle ℝ) :
    t.centroid = (3 : ℝ)⁻¹ • (t.a + t.b + t.c) := by
  simp [centroid, Vec3.div_eq_smul]

theorem Triangle.dot_centroid (t : Triangle ℝ) (n : Vec3 ℝ) :
    n.dot t.centroid = 3⁻¹ * (n.dot t.a + n.dot t.b + n.dot t.c) := by
  rw [t.centroid_eq_smul, Vec3.dot_smul, Vec3.dot_add, Vec3.dot_add]

/-- The interior point of a body that points span is their mean. -/
theorem Primitive.center_of_points {prim : Primitive ℝ} {points : List (Vec3 ℝ)}
    (h : prim.points? = some points) (pose : Pose ℝ) :
    prim.center pose = pose.transformPoint (Vec3.mean points) := by
  cases prim with
  | triangle corners | meshTriangle corners =>
    obtain rfl := Option.some_inj.mp h
    exact congrArg pose.transformPoint corners.centroid_eq
  | convexHull hull =>
    obtain rfl := Option.some_inj.mp h
    rfl
  | _ => cases h

theorem Pose.transformPoint_zero (pose : Pose ℝ) : pose.transformPoint 0 = pose.position := by
  show pose.position + pose.rotation.linear 0 = _
  rw [map_zero, add_zero]

/-- The interior point of a placed primitive is one of its points. -/
theorem Primitive.center_mem {prim : Primitive ℝ} (hvalid : prim.Valid) (pose : Pose ℝ) :
    prim.center pose ∈ pose.transformPoint '' prim.region := by
  have hposition (h : (0 : Vec3 ℝ) ∈ prim.region) :
      pose.position ∈ pose.transformPoint '' prim.region := ⟨0, h, pose.transformPoint_zero⟩
  cases prim with
  | sphere radius =>
    refine hposition ?_
    show ‖(0 : Vec3 ℝ)‖ ≤ radius
    rw [norm_zero]
    exact hvalid.le
  | box half =>
    obtain ⟨hx, hy, hz⟩ := hvalid
    refine hposition ⟨?_, ?_, ?_⟩ <;> simpa using le_of_lt ‹_›
  | cylinder radius halfHeight =>
    obtain ⟨hradius, hheight⟩ := hvalid
    refine hposition ⟨?_, ?_⟩
    · simpa using hradius.le
    · simpa using hheight.le
  | capsule radius halfHeight =>
    obtain ⟨hradius, hheight⟩ := hvalid
    refine hposition ⟨0, ?_, ?_⟩
    · simpa using hheight.le
    · simpa [Vec3.norm_eq_sqrt_dot, Vec3.dot_eq] using hradius.le
  | plane => exact hposition (le_refl (0 : ℝ))
  | triangle corners | meshTriangle corners =>
    exact ⟨_, Vec3.mean_mem_hull (List.cons_ne_nil _ _), (center_of_points rfl pose).symm⟩
  | convexHull points => exact ⟨_, Vec3.mean_mem_hull hvalid, (center_of_points rfl pose).symm⟩

/-- A linear functional is the scalar product by some vector. -/
theorem Vec3.exists_dot_eq (f : StrongDual ℝ (Vec3 ℝ)) : ∃ n : Vec3 ℝ, ∀ v, n.dot v = f v :=
  ⟨(InnerProductSpace.toDual ℝ (Vec3 ℝ)).symm f, fun v ↦
    InnerProductSpace.toDual_symm_apply (𝕜 := ℝ) (E := Vec3 ℝ) (x := v) (y := f)⟩

namespace Part

theorem regionAt_isCompact {part : Part ℝ} (h : part.Supported) (pose : Pose ℝ) :
    IsCompact (part.regionAt pose) := by
  have hprimitive := Primitive.region_isCompact h.not_plane h.not_cylinder
  refine pose.image_isCompact ?_
  cases part with
  | bare prim => exact hprimitive
  | offset prim inner => exact inner.image_isCompact hprimitive

theorem regionAt_convex (part : Part ℝ) (pose : Pose ℝ) : Convex ℝ (part.regionAt pose) := by
  refine pose.image_convex ?_
  cases part with
  | bare prim => exact prim.region_convex
  | offset prim inner => exact inner.image_convex prim.region_convex

/-- The interior point of a placed part is one of its points. -/
theorem center_mem {part : Part ℝ} (hpart : part.Rigid) (hvalid : part.primitive.Valid)
    {pose : Pose ℝ} (hpose : pose.Rigid) : part.center pose ∈ part.regionAt pose := by
  unfold regionAt
  rw [image_carry hpart hpose]
  exact Primitive.center_mem hvalid _

/-- Bodies that overlap along every direction have a common point. -/
theorem exists_common_point {a b : Part ℝ} (ha : a.Supported) (hb : b.Supported)
    (poseA poseB : Pose ℝ)
    (h : ∀ u : Vec3 ℝ, u.IsDirection →
      ∃ p ∈ a.regionAt poseA, ∃ q ∈ b.regionAt poseB, 0 < u.dot (p - q)) :
    (a.regionAt poseA ∩ b.regionAt poseB).Nonempty := by
  by_contra hempty
  have hdisjoint : Disjoint (a.regionAt poseA) (b.regionAt poseB) :=
    Set.disjoint_iff_inter_eq_empty.mpr (Set.not_nonempty_iff_eq_empty.mp hempty)
  obtain ⟨f, low, high, hlow, hgap, hhigh⟩ := geometric_hahn_banach_compact_closed
    (a.regionAt_convex poseA) (regionAt_isCompact ha poseA) (b.regionAt_convex poseB)
    (regionAt_isCompact hb poseB).isClosed hdisjoint
  obtain ⟨n, hn⟩ := Vec3.exists_dot_eq f
  have hseparated {p q : Vec3 ℝ} (hp : p ∈ a.regionAt poseA) (hq : q ∈ b.regionAt poseB) :
      n.dot (p - q) < 0 := by
    rw [Vec3.dot_sub, hn, hn]
    have hp' := hlow p hp
    have hq' := hhigh q hq
    linarith
  have hne : n ≠ 0 := by
    intro hzero
    obtain ⟨p, hp, q, hq, -⟩ := h (Vec3.axis 0) (Vec3.axis_isDirection 0)
    have hlt := hseparated hp hq
    rw [hzero, Vec3.zero_dot] at hlt
    exact lt_irrefl 0 hlt
  obtain ⟨p, hp, q, hq, hpos⟩ := h _ (Vec3.smul_inv_norm_isDirection hne)
  rw [Vec3.smul_dot] at hpos
  have hnonpos := mul_nonpos_of_nonneg_of_nonpos (inv_nonneg.mpr (norm_nonneg n))
    (hseparated hp hq).le
  exact absurd hpos (not_lt.mpr hnonpos)

end Part

end Collision
