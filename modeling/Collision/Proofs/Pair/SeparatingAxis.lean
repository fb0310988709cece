import Collision.Pair.Tester
import Collision.Proofs.Shape.Interior
import Collision.Proofs.Space.Opposed

/-!
# Enough axes to separate

An axis separates two polytopes if one of them is behind the other along it
(`Polytope.separatedBy_iff`). The normals of the faces and the products of the edges are enough to
try: two bodies overlap, by that test, exactly if the origin is an interior point of their
difference (`Polytope.overlap_iff`). The order of the bodies does not matter, in any arithmetic in
which opposed operands give opposed results (`Polytope.overlap_comm`).

What is used of the bodies is `Polytope.Outlined`: the corners farthest along a vector lie on an
edge, or the vector is normal to a face. Where the difference has interior points but not the
origin, an extreme normal of it is known up to a factor by the corners that are farthest along it
and against it, so it is normal to a face of one body or to an edge of each
(`Polytope.exists_candidate`). A difference without interior points is flat, and then the normal of
any face will do, if the corners of a body do not lie on one line (`Polytope.Complete`,
`Polytope.exists_separating_face`).
-/

set_option autoImplicit false
set_option relaxedAutoImplicit false

open scoped Pointwise

namespace Collision

/-! ### One axis -/

namespace Polytope

variable {a b : Polytope ℝ}

/-- Along the vector no corner of the first body is past a corner of the second. -/
def Behind (a b : Polytope ℝ) (n : Vec3 ℝ) : Prop :=
  ∀ p ∈ a.corners, ∀ q ∈ b.corners, n.dot (p - q) ≤ 0

theorem Behind.smul {n : Vec3 ℝ} (h : a.Behind b n) {s : ℝ} (hs : 0 ≤ s) : a.Behind b (s • n) := by
  intro p hp q hq
  rw [Vec3.smul_dot]
  exact mul_nonpos_of_nonneg_of_nonpos hs (h p hp q hq)

theorem behind_smul_iff {n : Vec3 ℝ} {s : ℝ} (hs : 0 < s) :
    a.Behind b (s • n) ↔ a.Behind b n := by
  refine ⟨fun h ↦ ?_, fun h ↦ h.smul hs.le⟩
  have hback := h.smul (inv_nonneg.mpr hs.le)
  rwa [smul_smul, inv_mul_cancel₀ hs.ne', one_smul] at hback

theorem shortestAxis_pos : (0 : ℝ) < shortestAxis := by
  unfold shortestAxis
  rw [Scalar.decimal_real]
  positivity

/-- An axis separates two bodies if it is long enough and one body is behind the other along it. -/
theorem separatedBy_iff (ha : a.corners ≠ []) (hb : b.corners ≠ []) (axis : Vec3 ℝ) :
    separatedBy a b axis = true ↔
      shortestAxis < ‖axis‖ ∧ (a.Behind b axis ∨ a.Behind b (-axis)) := by
  unfold separatedBy
  rw [Vec3.unit?_eq]
  split_ifs with hshort
  · simp [not_lt.mpr hshort]
  have hlong := not_le.mp hshort
  have hscale : 0 < ‖axis‖⁻¹ := inv_pos.mpr (shortestAxis_pos.trans hlong)
  obtain ⟨i, hi, hfirst, ⟨p, hp, hplo⟩, p', hp', hphi⟩ :=
    Interval.ofPoints?_spec ha (‖axis‖⁻¹ • axis)
  obtain ⟨j, hj, hsecond, ⟨q, hq, hqlo⟩, q', hq', hqhi⟩ :=
    Interval.ofPoints?_spec hb (‖axis‖⁻¹ • axis)
  simp only [hi, hj, Bool.or_eq_true, decide_eq_true_eq, hlong, true_and]
  rw [← behind_smul_iff hscale, ← behind_smul_iff (n := -axis) hscale, smul_neg]
  refine or_congr ⟨fun hle c hc e he ↦ ?_, fun h ↦ ?_⟩ ⟨fun hle c hc e he ↦ ?_, fun h ↦ ?_⟩
  · rw [Vec3.dot_comm, Vec3.sub_dot]
    linarith [(hfirst c hc).2, (hsecond e he).1]
  · have hle := h p' hp' q hq
    rw [Vec3.dot_comm, Vec3.sub_dot] at hle
    linarith
  · rw [Vec3.neg_dot, Vec3.dot_comm, Vec3.sub_dot]
    linarith [(hfirst c hc).1, (hsecond e he).2]
  · have hle := h p hp q' hq'
    rw [Vec3.neg_dot, Vec3.dot_comm, Vec3.sub_dot] at hle
    linarith

/-! ### Faces and edges -/

/-- The corners as a set. -/
def cornerSet (a : Polytope ℝ) : Set (Vec3 ℝ) := {c | c ∈ a.corners}

/-- Along any vector the farthest corners lie on an edge, unless the vector is normal to a face. -/
def Outlined (a : Polytope ℝ) : Prop :=
  ∀ n : Vec3 ℝ, n ≠ 0 → (∃ f ∈ a.faces, ∃ s : ℝ, n = s • f) ∨
    ∃ e ∈ a.edges, ∀ p q, IsFarthest a.cornerSet n p → IsFarthest a.cornerSet n q →
      ∃ s : ℝ, p - q = s • e

/-- The faces and edges are all there: along any vector the farthest corners lie on an edge, unless
the vector is normal to a face; and the corners do not lie on one line. -/
structure Complete (a : Polytope ℝ) : Prop where
  face_or_edge : ∀ n : Vec3 ℝ, n ≠ 0 → (∃ f ∈ a.faces, ∃ s : ℝ, n = s • f) ∨
    ∃ e ∈ a.edges, ∀ p q, IsFarthest a.cornerSet n p → IsFarthest a.cornerSet n q →
      ∃ s : ℝ, p - q = s • e
  not_on_line : ∀ e : Vec3 ℝ, ∃ p ∈ a.corners, ∃ q ∈ a.corners, ∀ s : ℝ, p - q ≠ s • e

theorem Complete.outlined (ha : a.Complete) : a.Outlined := ha.face_or_edge

/-- A vector that measures all corners alike is normal to a face. -/
theorem Complete.exists_face (ha : a.Complete) {n : Vec3 ℝ} (hn : n ≠ 0)
    (hlevel : ∀ p ∈ a.corners, ∀ q ∈ a.corners, n.dot p = n.dot q) :
    ∃ f ∈ a.faces, ∃ s : ℝ, n = s • f := by
  refine (ha.face_or_edge n hn).resolve_right ?_
  rintro ⟨e, -, hedge⟩
  obtain ⟨p, hp, q, hq, hne⟩ := ha.not_on_line e
  have hfarthest {c : Vec3 ℝ} (hc : c ∈ a.corners) : IsFarthest a.cornerSet n c := by
    refine ⟨hc, fun x hx ↦ le_of_eq ?_⟩
    rw [Vec3.dot_comm, hlevel x hx c hc, Vec3.dot_comm]
  obtain ⟨s, hs⟩ := hedge p q (hfarthest hp) (hfarthest hq)
  exact hne s hs

theorem Complete.corners_ne_nil (ha : a.Complete) : a.corners ≠ [] := by
  obtain ⟨p, hp, -⟩ := ha.not_on_line 0
  exact List.ne_nil_of_mem hp

/-! ### The candidates are enough -/

/-- What is perpendicular to two vectors is a multiple of their product, if that is not zero. -/
theorem exists_multiple_of_perpendicular {v w n : Vec3 ℝ} (h : v.cross w ≠ 0) (hv : n.dot v = 0)
    (hw : n.dot w = 0) : ∃ s : ℝ, n = s • v.cross w := by
  refine Vec3.exists_multiple_of_cross h ?_
  have hcross : (v.cross w).cross n = n.dot v • w - n.dot w • v := by
    ext <;> simp [Vec3.cross, Vec3.dot_eq] <;> ring
  rw [hcross, hv, hw, zero_smul, zero_smul, sub_zero]

theorem exists_perpendicular (n : Vec3 ℝ) : ∃ v : Vec3 ℝ, v ≠ 0 ∧ v.dot n = 0 := by
  by_cases hx : n.x = 0 ∧ n.y = 0
  · refine ⟨Vec3.axis 0, (Vec3.axis_isDirection 0).ne_zero, ?_⟩
    rw [Vec3.dot_comm, Vec3.dot_axis]
    exact hx.1
  · refine ⟨⟨-n.y, n.x, 0⟩, fun hzero ↦ hx ⟨congrArg Vec3.y hzero, ?_⟩, ?_⟩
    · exact neg_eq_zero.mp (congrArg Vec3.x hzero)
    · rw [Vec3.dot_eq]
      ring

/-- The vectors perpendicular to a vector are not all multiples of one. -/
theorem not_all_multiples (e n : Vec3 ℝ) : ¬ ∀ v : Vec3 ℝ, v.dot e = 0 → ∃ s : ℝ, v = s • n := by
  intro h
  obtain ⟨v, hv, hve⟩ := exists_perpendicular e
  -- A second one, perpendicular to the first.
  obtain ⟨w, hw, hwe, hvw⟩ : ∃ w : Vec3 ℝ, w ≠ 0 ∧ w.dot e = 0 ∧ v.dot w = 0 := by
    by_cases he : e = 0
    · obtain ⟨w, hw, hwv⟩ := exists_perpendicular v
      exact ⟨w, hw, by rw [he, Vec3.dot_zero], by rw [Vec3.dot_comm, hwv]⟩
    · refine ⟨e.cross v, fun hzero ↦ ?_, Vec3.cross_dot_left e v, ?_⟩
      · have hself := Vec3.dot_eq_zero_of_cross_eq_zero hzero he (Vec3.dot_comm e v ▸ hve)
        exact hv (Vec3.eq_zero_of_dot_self hself)
      · rw [Vec3.dot_comm, Vec3.cross_dot_right]
  obtain ⟨s, rfl⟩ := h v hve
  obtain ⟨t, rfl⟩ := h w hwe
  rw [smul_ne_zero_iff] at hv hw
  rw [Vec3.smul_dot, Vec3.dot_smul] at hvw
  have hn := (mul_eq_zero.mp ((mul_eq_zero.mp hvw).resolve_left hv.1)).resolve_left hw.1
  exact hv.2 (Vec3.eq_zero_of_dot_self hn)

/-- A vector that is determined up to a factor by the corners farthest along it, on one body, and
against it, on the other, is a multiple of a candidate axis. -/
theorem exists_candidate (ha : a.Outlined) (hb : b.Outlined) {n : Vec3 ℝ} (hn : n ≠ 0)
    (hunique : ∀ v : Vec3 ℝ,
      (∀ p q, IsFarthest a.cornerSet n p → IsFarthest a.cornerSet n q → v.dot (p - q) = 0) →
      (∀ p q, IsFarthest b.cornerSet (-n) p → IsFarthest b.cornerSet (-n) q → v.dot (p - q) = 0) →
        ∃ s : ℝ, v = s • n) :
    ∃ axis ∈ candidateAxes a b, ∃ s : ℝ, n = s • axis := by
  simp only [candidateAxes, List.mem_append, List.mem_flatMap, List.mem_map]
  rcases ha n hn with ⟨f, hf, s, hs⟩ | ⟨ea, hea, hedgeA⟩
  · exact ⟨f, .inl (.inl hf), s, hs⟩
  rcases hb (-n) (neg_ne_zero.mpr hn) with ⟨f, hf, s, hs⟩ | ⟨eb, heb, hedgeB⟩
  · exact ⟨f, .inl (.inr hf), -s, by rw [neg_smul, ← hs, neg_neg]⟩
  -- What is perpendicular to both edges is a multiple of the vector.
  have hperp {v : Vec3 ℝ} (hva : v.dot ea = 0) (hvb : v.dot eb = 0) : ∃ s : ℝ, v = s • n := by
    refine hunique v (fun p q hp hq ↦ ?_) fun p q hp hq ↦ ?_
    · obtain ⟨s, hs⟩ := hedgeA p q hp hq
      rw [hs, Vec3.dot_smul, hva, mul_zero]
    · obtain ⟨s, hs⟩ := hedgeB p q hp hq
      rw [hs, Vec3.dot_smul, hvb, mul_zero]
  obtain ⟨s, hs⟩ := hperp (Vec3.cross_dot_left ea eb) (Vec3.cross_dot_right ea eb)
  refine ⟨ea.cross eb, .inr ⟨ea, hea, eb, heb, rfl⟩, s⁻¹, ?_⟩
  have hne : s ≠ 0 := by
    rintro rfl
    rw [zero_smul] at hs
    obtain ⟨e, i, j, rfl, rfl⟩ := Vec3.exists_common_line hs
    refine not_all_multiples e n fun v hv ↦ hperp ?_ ?_
    · rw [Vec3.dot_smul, hv, mul_zero]
    · rw [Vec3.dot_smul, hv, mul_zero]
  rw [hs, smul_smul, inv_mul_cancel₀ hne, one_smul]

/-- The differences of the points of two bodies. -/
def difference (a b : Polytope ℝ) : Set (Vec3 ℝ) := Vec3.hull a.corners - Vec3.hull b.corners

theorem difference_eq_convexHull (a b : Polytope ℝ) :
    difference a b = convexHull ℝ (a.cornerSet - b.cornerSet) := (convexHull_sub ..).symm

theorem difference_convex (a b : Polytope ℝ) : Convex ℝ (difference a b) := by
  rw [difference_eq_convexHull]
  exact convex_convexHull ℝ _

/-- A body is behind another along a vector if no difference of their points reaches past the origin
there. -/
theorem behind_iff {n : Vec3 ℝ} : a.Behind b n ↔ ∀ x ∈ difference a b, n.dot x ≤ 0 := by
  constructor
  · intro h
    rw [difference_eq_convexHull]
    refine convexHull_min ?_ (convex_halfSpace_le ⟨n.dot_add, fun s v ↦ Vec3.dot_smul s n v⟩ 0)
    rintro _ ⟨p, hp, q, hq, rfl⟩
    exact h p hp q hq
  · intro h p hp q hq
    exact h _ (Set.sub_mem_sub (subset_convexHull ℝ _ hp) (subset_convexHull ℝ _ hq))

theorem cornerSet_sub_finite (a b : Polytope ℝ) : (a.cornerSet - b.cornerSet).Finite :=
  (List.finite_toSet a.corners).sub (List.finite_toSet b.corners)

/-- Corners whose difference an extreme vector measures by one are farthest along it and against
it. -/
theorem isFarthest_of_tight {center n p q : Vec3 ℝ}
    (hn : n ∈ polar (a.cornerSet - b.cornerSet) center) (hp : p ∈ a.corners) (hq : q ∈ b.corners)
    (htight : n.dot (p - q - center) = 1) :
    IsFarthest a.cornerSet n p ∧ IsFarthest b.cornerSet (-n) q := by
  simp only [Vec3.dot_sub] at htight
  refine ⟨⟨hp, fun c hc ↦ ?_⟩, hq, fun c hc ↦ ?_⟩
  · have hle := hn _ (Set.sub_mem_sub hc hq)
    simp only [Vec3.dot_sub] at hle
    rw [Vec3.dot_comm c, Vec3.dot_comm p]
    linarith
  · have hle := hn _ (Set.sub_mem_sub hp hc)
    simp only [Vec3.dot_sub] at hle
    rw [Vec3.dot_neg, Vec3.dot_neg, Vec3.dot_comm c, Vec3.dot_comm q]
    linarith

/-- Bodies whose difference is measured all alike by a vector are behind one another along it, one
way or the other. -/
theorem behind_of_level {n : Vec3 ℝ}
    (hlevel : ∀ x ∈ difference a b, ∀ y ∈ difference a b, n.dot x = n.dot y) :
    a.Behind b n ∨ a.Behind b (-n) := by
  by_cases h : ∃ x ∈ difference a b, 0 < n.dot x
  · obtain ⟨x, hx, hpos⟩ := h
    refine .inr (behind_iff.mpr fun y hy ↦ ?_)
    rw [Vec3.neg_dot, hlevel y hy x hx]
    exact neg_nonpos.mpr hpos.le
  · push Not at h
    exact .inl (behind_iff.mpr h)

/-- If that vector is a multiple of a candidate axis, they are behind one another along such a
multiple. -/
theorem exists_separating_of_level {n axis : Vec3 ℝ} (hn : n ≠ 0)
    (hlevel : ∀ x ∈ difference a b, ∀ y ∈ difference a b, n.dot x = n.dot y)
    (haxis : axis ∈ candidateAxes a b) (hmultiple : ∃ s : ℝ, n = s • axis) :
    ∃ n : Vec3 ℝ, n ≠ 0 ∧ a.Behind b n ∧ ∃ axis ∈ candidateAxes a b, ∃ s : ℝ, n = s • axis := by
  obtain ⟨s, hs⟩ := hmultiple
  rcases behind_of_level hlevel with hbehind | hbehind
  · exact ⟨n, hn, hbehind, axis, haxis, s, hs⟩
  · exact ⟨-n, neg_ne_zero.mpr hn, hbehind, axis, haxis, -s, by rw [hs, neg_smul]⟩

/-- Bodies whose difference has no interior points are behind one another along the normal of a
face. -/
theorem exists_separating_face (ha : a.Complete) (hb : b.Complete)
    (hflat : interior (difference a b) = ∅) :
    ∃ n : Vec3 ℝ, n ≠ 0 ∧ a.Behind b n ∧ ∃ axis ∈ candidateAxes a b, ∃ s : ℝ, n = s • axis := by
  obtain ⟨n, hn, hlevel⟩ := exists_level_of_interior_eq_empty (difference_convex a b) hflat
  obtain ⟨q₀, hq₀⟩ := List.exists_mem_of_ne_nil _ hb.corners_ne_nil
  have hmem {p q : Vec3 ℝ} (hp : p ∈ a.corners) (hq : q ∈ b.corners) : p - q ∈ difference a b :=
    Set.sub_mem_sub (subset_convexHull ℝ _ hp) (subset_convexHull ℝ _ hq)
  obtain ⟨f, hf, hmultiple⟩ := ha.exists_face hn fun p hp p' hp' ↦ by
    have hsame := hlevel _ (hmem hp hq₀) _ (hmem hp' hq₀)
    rw [Vec3.dot_sub, Vec3.dot_sub] at hsame
    linarith
  have hcandidate : f ∈ candidateAxes a b := by
    simp only [candidateAxes, List.mem_append]
    exact .inl (.inl hf)
  exact exists_separating_of_level hn hlevel hcandidate hmultiple

/-- Bodies whose difference has interior points, the origin not one of them, are behind one another
along an extreme normal. -/
theorem exists_separating_extreme (ha : a.Outlined) (hb : b.Outlined) {center : Vec3 ℝ}
    (hcenter : center ∈ interior (difference a b))
    (h : (0 : Vec3 ℝ) ∉ interior (difference a b)) :
    ∃ n : Vec3 ℝ, n ≠ 0 ∧ a.Behind b n ∧ ∃ axis ∈ candidateAxes a b, ∃ s : ℝ, n = s • axis := by
  obtain ⟨n, hextreme, hnonpos⟩ := exists_extreme_normal (difference_convex a b) hcenter h
  rw [difference_eq_convexHull, polar_convexHull] at hextreme
  have hfinite := cornerSet_sub_finite a b
  have hn : n ≠ 0 := by
    rintro rfl
    refine (Vec3.axis_isDirection 0).ne_zero
      (eq_zero_of_extreme hfinite hextreme fun x _ htight ↦ ?_)
    rw [Vec3.zero_dot] at htight
    exact absurd htight zero_ne_one
  refine ⟨n, hn, behind_iff.mpr hnonpos, exists_candidate ha hb hn fun v hfirst hsecond ↦ ?_⟩
  refine exists_multiple_of_extreme hfinite hextreme ?_
  rintro _ ⟨p, hp, q, hq, rfl⟩ _ ⟨p', hp', q', hq', rfl⟩ htight htight'
  obtain ⟨hpfar, hqfar⟩ := isFarthest_of_tight hextreme.1 hp hq htight
  obtain ⟨hpfar', hqfar'⟩ := isFarthest_of_tight hextreme.1 hp' hq' htight'
  rw [sub_sub_sub_comm, Vec3.dot_sub, hfirst p p' hpfar hpfar', hsecond q q' hqfar hqfar', sub_zero]

/-- If bodies are behind one another along a candidate axis when their difference is flat, they are
whenever it does not have the origin as an interior point. -/
theorem exists_separating_candidate (ha : a.Outlined) (hb : b.Outlined)
    (hflat : interior (difference a b) = ∅ →
      ∃ n : Vec3 ℝ, n ≠ 0 ∧ a.Behind b n ∧ ∃ axis ∈ candidateAxes a b, ∃ s : ℝ, n = s • axis)
    (h : (0 : Vec3 ℝ) ∉ interior (difference a b)) :
    ∃ axis ∈ candidateAxes a b, axis ≠ 0 ∧ (a.Behind b axis ∨ a.Behind b (-axis)) := by
  obtain ⟨_, hn, hbehind, axis, haxis, s, rfl⟩ : ∃ n : Vec3 ℝ, n ≠ 0 ∧ a.Behind b n ∧
      ∃ axis ∈ candidateAxes a b, ∃ s : ℝ, n = s • axis := by
    obtain hempty | ⟨center, hcenter⟩ := (interior (difference a b)).eq_empty_or_nonempty
    · exact hflat hempty
    · exact exists_separating_extreme ha hb hcenter h
  rw [smul_ne_zero_iff] at hn
  refine ⟨axis, haxis, hn.2, ?_⟩
  rcases lt_or_gt_of_ne hn.1 with hneg | hpos
  · right
    rwa [← neg_smul_neg, behind_smul_iff (neg_pos.mpr hneg)] at hbehind
  · left
    rwa [behind_smul_iff hpos] at hbehind

/-! ### The verdict -/

/-- No axis that is tried is too short to be used, unless it is zero. -/
def UsableAxes (a b : Polytope ℝ) : Prop :=
  ∀ axis ∈ candidateAxes a b, axis = 0 ∨ shortestAxis < axis.norm

/-- The axis separates the bodies, but it is too short to be used. -/
def Overlooked (a b : Polytope ℝ) (axis : Vec3 ℝ) : Prop :=
  axis ≠ 0 ∧ ‖axis‖ ≤ shortestAxis ∧ (a.Behind b axis ∨ a.Behind b (-axis))

theorem UsableAxes.not_overlooked (h : UsableAxes a b) {axis : Vec3 ℝ}
    (haxis : axis ∈ candidateAxes a b) : ¬ Overlooked a b axis := by
  rintro ⟨hne, hshort, -⟩
  exact (h axis haxis).elim hne (not_lt.mpr hshort)

/-- The origin is an interior point of a difference exactly if the first body is behind the second
along no vector. -/
theorem origin_mem_interior_difference_iff : (0 : Vec3 ℝ) ∈ interior (difference a b) ↔
    ∀ n : Vec3 ℝ, n ≠ 0 → ¬ a.Behind b n := by
  rw [origin_mem_interior_iff (difference_convex a b)]
  refine forall₂_congr fun n _ ↦ ?_
  rw [behind_iff]
  push Not
  rfl

/-- No axis separates bodies whose difference has the origin as an interior point. -/
theorem overlap_of_mem_interior (ha : a.corners ≠ []) (hb : b.corners ≠ [])
    (h : (0 : Vec3 ℝ) ∈ interior (difference a b)) : overlap a b = true := by
  simp only [overlap, Bool.not_eq_true', List.any_eq_false, separatedBy_iff ha hb]
  rintro axis - ⟨hlong, hbehind⟩
  have hnone := origin_mem_interior_difference_iff.mp h
  have hne : axis ≠ 0 := norm_pos_iff.mp (shortestAxis_pos.trans hlong)
  exact hbehind.elim (hnone axis hne) (hnone (-axis) (neg_ne_zero.mpr hne))

/-- Where candidate axes are enough and none that separates is too short, the bodies overlap exactly
if the origin is an interior point of their difference. -/
theorem overlap_iff_of_candidates (ha : a.corners ≠ []) (hb : b.corners ≠ [])
    (hcandidate : (0 : Vec3 ℝ) ∉ interior (difference a b) →
      ∃ axis ∈ candidateAxes a b, axis ≠ 0 ∧ (a.Behind b axis ∨ a.Behind b (-axis)))
    (hseen : ∀ axis ∈ candidateAxes a b, ¬ Overlooked a b axis) :
    overlap a b = true ↔ (0 : Vec3 ℝ) ∈ interior (difference a b) := by
  refine ⟨fun h ↦ ?_, overlap_of_mem_interior ha hb⟩
  simp only [overlap, Bool.not_eq_true', List.any_eq_false, separatedBy_iff ha hb] at h
  by_contra hnot
  obtain ⟨axis, haxis, hne, hbehind⟩ := hcandidate hnot
  refine hseen axis haxis ⟨hne, ?_, hbehind⟩
  exact not_lt.mp fun hlong ↦ h axis haxis ⟨hlong, hbehind⟩

/-- Bodies overlap, by the test, if all axes are too short to be used. -/
theorem overlap_of_short_axes (ha : a.corners ≠ []) (hb : b.corners ≠ [])
    (hshort : ∀ axis ∈ candidateAxes a b, ‖axis‖ ≤ shortestAxis) : overlap a b = true := by
  simp only [overlap, Bool.not_eq_true', List.any_eq_false, separatedBy_iff ha hb]
  rintro axis haxis ⟨hlong, -⟩
  exact not_lt.mpr (hshort axis haxis) hlong

/-- Two complete bodies overlap exactly if the origin is an interior point of their difference. -/
theorem overlap_iff (ha : a.Complete) (hb : b.Complete) (haxes : UsableAxes a b) :
    overlap a b = true ↔ (0 : Vec3 ℝ) ∈ interior (difference a b) :=
  overlap_iff_of_candidates ha.corners_ne_nil hb.corners_ne_nil
    (exists_separating_candidate ha.outlined hb.outlined (exists_separating_face ha hb))
    fun _ haxis ↦ haxes.not_overlooked haxis

/-! ### Either order -/

section EitherOrder

variable {α : Type} [Scalar α]

/-- An axis separates two bodies in either order. -/
theorem separatedBy_comm (a b : Polytope α) (axis : Vec3 α) :
    separatedBy b a axis = separatedBy a b axis := by
  unfold separatedBy
  cases axis.unit? shortestAxis with
  | none => rfl
  | some unit =>
    dsimp only
    cases Interval.ofPoints? a.corners unit with
    | none => cases Interval.ofPoints? b.corners unit <;> rfl
    | some i =>
      cases Interval.ofPoints? b.corners unit with
      | none => rfl
      | some j => exact Bool.or_comm _ _

variable [MirroredScalar α]

/-- Opposed axes separate the same bodies. -/
theorem separatedBy_opposed (a b : Polytope α) {axis axis' : Vec3 α} (h : axis.Opposed axis') :
    separatedBy a b axis' = separatedBy a b axis := by
  have hunit := h.unit? shortestAxis
  unfold separatedBy
  generalize axis.unit? shortestAxis = unit at hunit ⊢
  generalize axis'.unit? shortestAxis = unit' at hunit ⊢
  cases hunit with
  | none => rfl
  | @some unit unit' hunit =>
    dsimp only
    have hcoverA := Interval.ofPoints?_opposed a.corners hunit
    have hcoverB := Interval.ofPoints?_opposed b.corners hunit
    generalize Interval.ofPoints? a.corners unit = i at hcoverA ⊢
    generalize Interval.ofPoints? a.corners unit' = i' at hcoverA ⊢
    generalize Interval.ofPoints? b.corners unit = j at hcoverB ⊢
    generalize Interval.ofPoints? b.corners unit' = j' at hcoverB ⊢
    cases hcoverA with
    | none => cases hcoverB <;> rfl
    | some hi =>
      cases hcoverB with
      | none => rfl
      | some hj =>
        -- The ends change places, so each of the two tests becomes the other.
        dsimp only
        rw [decide_eq_decide.mpr (MirroredScalar.le_opposed hi.hi_lo hj.lo_hi),
          decide_eq_decide.mpr (MirroredScalar.le_opposed hj.hi_lo hi.lo_hi), Bool.or_comm]

/-- The order of the bodies does not matter. -/
theorem overlap_comm (a b : Polytope α) : overlap b a = overlap a b := by
  have hseparated {a b : Polytope α} (h : (candidateAxes a b).any (separatedBy a b) = true) :
      (candidateAxes b a).any (separatedBy b a) = true := by
    simp only [candidateAxes, List.any_eq_true, List.mem_append, List.mem_flatMap,
      List.mem_map] at h ⊢
    obtain ⟨axis, haxis, h⟩ := h
    rw [← separatedBy_comm] at h
    rcases haxis with (hface | hface) | ⟨ea, hea, eb, heb, rfl⟩
    · exact ⟨axis, .inl (.inr hface), h⟩
    · exact ⟨axis, .inl (.inl hface), h⟩
    · rw [← separatedBy_opposed b a (Vec3.cross_opposed ea eb)] at h
      exact ⟨_, .inr ⟨eb, heb, ea, hea, rfl⟩, h⟩
  unfold overlap
  rw [Bool.eq_iff_iff.mpr ⟨hseparated, hseparated⟩]

end EitherOrder

end Polytope

end Collision
