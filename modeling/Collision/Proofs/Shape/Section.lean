import Collision.Proofs.Shape.Corners
import Collision.Proofs.Shape.Interior

/-!
# Sections of a box

A plane cuts a box in a convex set, which is the hull of its extreme points. An extreme point has no
room to move inside the plane (`eq_zero_of_extreme_section`), so at most one of its components is
strictly between the faces (`only_free_component`), and the point lies on an edge of the box. If the
box reaches below the plane, that edge can be chosen to have one end strictly below the plane and
the other one not (`exists_edge_of_extreme`): also where the point is a corner of the box, or where
edges or faces lie in the plane.
-/

set_option autoImplicit false
set_option relaxedAutoImplicit false

open scoped Topology

namespace Collision

variable {half m : Vec3 ℝ} {level : ℝ}

/-! ### Extreme points of a section -/

/-- The points of a box that a vector measures by `level`. -/
def boxSection (half m : Vec3 ℝ) (level : ℝ) : Set (Vec3 ℝ) :=
  {q | q ∈ (Primitive.box half).region ∧ q.dot m = level}

theorem boxSection_isCompact (half m : Vec3 ℝ) (level : ℝ) : IsCompact (boxSection half m level) :=
  (Primitive.region_isCompact (by simp [Primitive.kind]) (by simp [Primitive.kind])).inter_right
    (isClosed_eq (continuous_dot m) continuous_const)

theorem boxSection_convex (half m : Vec3 ℝ) (level : ℝ) : Convex ℝ (boxSection half m level) :=
  (Primitive.region_convex _).inter
    (convex_hyperplane ⟨fun p q ↦ Vec3.add_dot p q m, fun s p ↦ Vec3.smul_dot s p m⟩ level)

/-- A point has room to move inside the plane along a vector that does not lead off the faces on
which the point is. -/
theorem eventually_mem_boxSection {q v : Vec3 ℝ} (hq : q ∈ boxSection half m level)
    (hplane : v.dot m = 0) (hroom : ∀ i, v.get i = 0 ∨ |q.get i| < half.get i) :
    ∀ᶠ s : ℝ in 𝓝 0, q + s • v ∈ boxSection half m level := by
  have hcomponent (i : Fin 3) : ∀ᶠ s : ℝ in 𝓝 0, |(q + s • v).get i| ≤ half.get i := by
    simp only [Vec3.get_add, Vec3.get_smul]
    rcases hroom i with hzero | hlt
    · refine .of_forall fun s ↦ ?_
      rw [hzero, mul_zero, add_zero]
      exact Primitive.mem_box_region_iff.mp hq.1 i
    · have hcontinuous : Continuous fun s : ℝ ↦ |q.get i + s * v.get i| := by fun_prop
      have hnear : |q.get i + 0 * v.get i| < half.get i := by rwa [zero_mul, add_zero]
      exact (hcontinuous.tendsto 0).eventually_le_const hnear
  filter_upwards [Filter.eventually_all.mpr hcomponent] with s hs
  refine ⟨Primitive.mem_box_region_iff.mpr hs, ?_⟩
  rw [Vec3.add_dot, Vec3.smul_dot, hplane, mul_zero, add_zero, hq.2]

/-- An extreme point of a section has no room to move inside the plane. -/
theorem eq_zero_of_extreme_section {q v : Vec3 ℝ}
    (hq : q ∈ (boxSection half m level).extremePoints ℝ) (hplane : v.dot m = 0)
    (hroom : ∀ i, v.get i = 0 ∨ |q.get i| < half.get i) : v = 0 := by
  have hstay := eventually_mem_boxSection hq.1 hplane hroom
  obtain ⟨radius, hradius, hball⟩ := Metric.eventually_nhds_iff.mp hstay
  have hstep : |radius / 2| < radius := by
    rw [abs_of_pos (half_pos hradius)]
    exact half_lt_self hradius
  have hforward : q + (radius / 2) • v ∈ boxSection half m level :=
    hball (by rwa [dist_zero_right, Real.norm_eq_abs])
  have hbackward : q + (-(radius / 2)) • v ∈ boxSection half m level :=
    hball (by rwa [dist_zero_right, Real.norm_eq_abs, abs_neg])
  have hbetween : q ∈ openSegment ℝ (q + (radius / 2) • v) (q + (-(radius / 2)) • v) :=
    ⟨1 / 2, 1 / 2, by norm_num, by norm_num, by norm_num, by module⟩
  have hsame := hq.2 hforward hbackward hbetween
  exact (smul_eq_zero.mp (add_eq_left.mp hsame)).resolve_left (half_pos hradius).ne'

/-- A component that is not strictly between two faces is on one of them. -/
theorem on_face_of_not_lt {q : Vec3 ℝ} (hq : q ∈ (Primitive.box half).region) {i : Fin 3}
    (h : ¬|q.get i| < half.get i) : q.get i = half.get i ∨ q.get i = -half.get i := by
  have hle := Primitive.mem_box_region_iff.mp hq i
  exact (abs_eq ((abs_nonneg _).trans hle)).mp (hle.antisymm (not_lt.mp h))

/-- If a component of an extreme point is strictly between the faces, it is the only one, and the
plane is not parallel to its axis. -/
theorem only_free_component {q : Vec3 ℝ} (hq : q ∈ (boxSection half m level).extremePoints ℝ)
    {k : Fin 3} (hfree : |q.get k| < half.get k) :
    m.get k ≠ 0 ∧ ∀ i ≠ k, q.get i = half.get i ∨ q.get i = -half.get i := by
  have hslope : m.get k ≠ 0 := by
    intro hzero
    have haxis : (Vec3.axis k : Vec3 ℝ) = 0 := by
      refine eq_zero_of_extreme_section hq ?_ fun i ↦ ?_
      · rw [Vec3.dot_comm, Vec3.dot_axis, hzero]
      · rw [Vec3.get_axis]
        split_ifs with hik
        · exact .inr (hik ▸ hfree)
        · exact .inl rfl
    exact (Vec3.axis_isDirection k).ne_zero haxis
  refine ⟨hslope, fun i hik ↦ on_face_of_not_lt hq.1.1 fun hbetween ↦ ?_⟩
  -- Two free components leave room for a move that does not change the measure.
  have hmove : m.get k • Vec3.axis i - m.get i • Vec3.axis k = (0 : Vec3 ℝ) := by
    refine eq_zero_of_extreme_section hq ?_ fun j ↦ ?_
    · rw [Vec3.sub_dot, Vec3.smul_dot, Vec3.smul_dot, Vec3.dot_comm, Vec3.dot_axis,
        Vec3.dot_comm (Vec3.axis k), Vec3.dot_axis]
      ring
    · rw [Vec3.get_sub, Vec3.get_smul, Vec3.get_smul, Vec3.get_axis, Vec3.get_axis]
      by_cases hij : i = j
      · exact .inr (hij ▸ hbetween)
      by_cases hkj : k = j
      · exact .inr (hkj ▸ hfree)
      · left
        simp [hij, hkj]
  have hcomponent := congrArg (fun v ↦ v.get i) (sub_eq_zero.mp hmove)
  simp only [Vec3.get_smul, Vec3.get_axis, if_neg (Ne.symm hik), if_true, mul_one,
    mul_zero] at hcomponent
  exact hslope hcomponent

/-- Along some axis an extreme point lies on an edge, and one of the two ways along that edge leads
below the plane. -/
theorem exists_axis_below {q : Vec3 ℝ} (hq : q ∈ (boxSection half m level).extremePoints ℝ)
    (hbelow : ∃ p ∈ (Primitive.box half).region, p.dot m < level) :
    ∃ k, (∀ i ≠ k, q.get i = half.get i ∨ q.get i = -half.get i) ∧
      ((half.get k - q.get k) * m.get k < 0 ∨ 0 < (half.get k + q.get k) * m.get k) := by
  by_cases hfree : ∃ k, |q.get k| < half.get k
  · obtain ⟨k, hk⟩ := hfree
    obtain ⟨hslope, hends⟩ := only_free_component hq hk
    obtain ⟨hleft, hright⟩ := abs_lt.mp hk
    refine ⟨k, hends, ?_⟩
    rcases lt_or_gt_of_ne hslope with hneg | hpos
    · exact .inl (mul_neg_of_pos_of_neg (sub_pos.mpr hright) hneg)
    · exact .inr (mul_pos (by linarith) hpos)
  · -- At a corner of the box, some component of a point below leads below.
    obtain ⟨p, hp, hlt⟩ := hbelow
    have hmeasure : (p - q).dot m < 0 := by
      rw [Vec3.sub_dot, hq.1.2]
      exact sub_neg.mpr hlt
    obtain ⟨k, hk⟩ := Vec3.exists_get_mul_neg hmeasure
    rw [Vec3.get_sub] at hk
    refine ⟨k, fun i _ ↦ on_face_of_not_lt hq.1.1 fun hi ↦ hfree ⟨i, hi⟩, ?_⟩
    obtain ⟨hleft, hright⟩ := abs_le.mp (Primitive.mem_box_region_iff.mp hp k)
    rcases le_total (m.get k) 0 with hnonpos | hnonneg
    · exact .inl ((mul_le_mul_of_nonpos_right (by linarith) hnonpos).trans_lt hk)
    · have hback : 0 < (q.get k - p.get k) * m.get k := by linarith
      exact .inr (hback.trans_le (mul_le_mul_of_nonneg_right (by linarith) hnonneg))

/-- An extreme point of a section lies on an edge with ends on different sides of the plane. -/
theorem exists_edge_of_extreme (hhalf : (Primitive.box half).Valid) {q : Vec3 ℝ}
    (hq : q ∈ (boxSection half m level).extremePoints ℝ)
    (hbelow : ∃ p ∈ (Primitive.box half).region, p.dot m < level) :
    ∃ edge ∈ BoxCorners.edges,
      q ∈ segment ℝ (BoxCorners.corner half edge.1) (BoxCorners.corner half edge.2) ∧
        ¬((BoxCorners.corner half edge.1).dot m < level ↔
          (BoxCorners.corner half edge.2).dot m < level) := by
  obtain ⟨k, hends, hside⟩ := exists_axis_below hq hbelow
  have hk := BoxCorners.half_get_pos hhalf k
  obtain ⟨hleft, hright⟩ := abs_le.mp (Primitive.mem_box_region_iff.mp hq.1.1 k)
  obtain ⟨edge, hedge, hfirst, hsecond⟩ := BoxCorners.exists_edge hk hends
  refine ⟨edge, hedge, ?_, ?_⟩
  · rw [hfirst, hsecond, segment_eq_image']
    refine ⟨(half.get k - q.get k) / (2 * half.get k), ⟨?_, ?_⟩, ?_⟩
    · exact div_nonneg (by linarith) (by linarith)
    · rw [div_le_one (by linarith)]
      linarith
    · have hcancel : (half.get k - q.get k) / (2 * half.get k) * (2 * half.get k) =
          half.get k - q.get k := div_mul_cancel₀ _ (by linarith)
      have hlength : q - (half.get k + q.get k) • Vec3.axis k -
          (q + (half.get k - q.get k) • Vec3.axis k) = -((2 * half.get k) • Vec3.axis k) := by
        module
      show q + _ + _ • (_ - _) = q
      rw [hlength, smul_neg, smul_smul, hcancel, add_neg_cancel_right]
  · have hlevel : q.dot m = level := hq.1.2
    have hstep (s : ℝ) : (s • Vec3.axis k : Vec3 ℝ).dot m = s * m.get k := by
      rw [Vec3.smul_dot, Vec3.dot_comm, Vec3.dot_axis]
    rw [hfirst, hsecond, Vec3.add_dot, Vec3.sub_dot, hstep, hstep, hlevel, add_lt_iff_neg_left,
      sub_lt_self_iff]
    have hone : ¬((half.get k - q.get k) * m.get k < 0 ∧ 0 < (half.get k + q.get k) * m.get k) := by
      rintro ⟨hneg, hpos⟩
      have hdown := neg_of_mul_neg_right hneg (by linarith)
      have hup := pos_of_mul_pos_right hpos (by linarith)
      exact lt_asymm hdown hup
    tauto

end Collision
