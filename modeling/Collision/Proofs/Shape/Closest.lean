import Collision.Proofs.Shape.Convex
import Collision.Pair.Round
import Mathlib.Analysis.Convex.Join
import Mathlib.Analysis.InnerProductSpace.Projection.Minimal
import Mathlib.LinearAlgebra.AffineSpace.FiniteDimensional

/-!
# Closest points

`IsClosest points p q` says that `q` is the point of a convex set closest to `p`, in the form that
the contacts of round bodies need: no point of the set lies on the side of `q` to which `p` lies.

* Moving a coordinate of a point into the interval of a box finds the closest point of the box
  (`isClosest_clampTo`).
* Moving the parameter of the foot of a perpendicular into the unit interval finds the closest point
  of a segment (`Segment.isClosest_closestPoints`).
* `Triangle.closestPoint` finds the closest point of a triangle whose corners do not lie on one line
  (`Triangle.isClosest_closestPoint`). Every answer for a corner or an edge is checked against the
  corners. That the answer for the face is right when no corner and no edge was chosen is seen the
  other way round: the closest point exists, and were it on a corner or an edge, the test for that
  corner or edge would have succeeded.
-/

set_option autoImplicit false
set_option relaxedAutoImplicit false

namespace Collision

/-- The point `q` of a convex set is closest to `p`: it lies in the set, and all of the set lies
behind the plane through `q` that faces `p`. -/
def IsClosest (points : Set (Vec3 ℝ)) (p q : Vec3 ℝ) : Prop :=
  q ∈ points ∧ ∀ x ∈ points, (p - q).dot (x - q) ≤ 0

namespace IsClosest

variable {points : Set (Vec3 ℝ)} {p q : Vec3 ℝ}

theorem norm_le (h : IsClosest points p q) {x : Vec3 ℝ} (hx : x ∈ points) : ‖q - p‖ ≤ ‖x - p‖ := by
  refine Vec3.norm_le_of_dot_le ?_
  have hbehind := h.2 x hx
  have hsplit : (q - p).dot (x - p) = (q - p).dot (q - p) - (p - q).dot (x - q) := by
    simp only [Vec3.sub_dot, Vec3.dot_sub, Vec3.dot_comm p q]
    ring
  linarith

theorem infDist_eq (h : IsClosest points p q) : Metric.infDist p points = ‖q - p‖ := by
  have hdist (x : Vec3 ℝ) : dist p x = ‖x - p‖ := (dist_comm p x).trans (dist_eq_norm x p)
  refine le_antisymm ?_ ((Metric.le_infDist ⟨q, h.1⟩).mpr fun {x} hx ↦ ?_)
  · rw [← hdist]
    exact Metric.infDist_le_dist_of_mem h.1
  · rw [hdist]
    exact h.norm_le hx

/-- The closest point of a moved set is the closest point of the set, moved. -/
theorem image {pose : Pose ℝ} (hpose : pose.Rigid)
    (h : IsClosest points (pose.inverseTransformPoint p) q) :
    IsClosest (pose.transformPoint '' points) p (pose.transformPoint q) := by
  refine ⟨⟨q, h.1, rfl⟩, ?_⟩
  rintro _ ⟨x, hx, rfl⟩
  rw [← hpose.transformPoint_inverseTransformPoint p, Pose.transformPoint_sub,
    Pose.transformPoint_sub, Rotation.apply_dot_apply hpose]
  exact h.2 x hx

end IsClosest

/-- A compact convex set has a point closest to any point. -/
theorem exists_isClosest {points : Set (Vec3 ℝ)} (hconvex : Convex ℝ points)
    (hcompact : IsCompact points) (hne : points.Nonempty) (p : Vec3 ℝ) :
    ∃ q, IsClosest points p q := by
  obtain ⟨q, hq, hmin⟩ := exists_norm_eq_iInf_of_complete_convex hne hcompact.isComplete hconvex p
  exact ⟨q, hq, (norm_eq_iInf_iff_real_inner_le_zero hconvex hq).mp hmin⟩

/-! ### Boxes -/

/-- A coordinate moved into an interval leaves the interval behind. -/
theorem clampTo_spec {half : ℝ} (hhalf : 0 ≤ half) (c : ℝ) :
    |Round.clampTo half c| ≤ half ∧
      ∀ x : ℝ, |x| ≤ half → (c - Round.clampTo half c) * (x - Round.clampTo half c) ≤ 0 := by
  simp only [Round.clampTo, Scalar.clamp]
  split_ifs with hlow hhigh
  · refine ⟨by rw [abs_neg, abs_of_nonneg hhalf], fun x hx ↦ ?_⟩
    exact mul_nonpos_of_nonpos_of_nonneg (by linarith) (by linarith [(abs_le.mp hx).1])
  · refine ⟨(abs_of_nonneg hhalf).le, fun x hx ↦ ?_⟩
    exact mul_nonpos_of_nonneg_of_nonpos (by linarith) (by linarith [(abs_le.mp hx).2])
  · refine ⟨abs_le.mpr ⟨not_lt.mp hlow, not_lt.mp hhigh⟩, fun x _ ↦ ?_⟩
    rw [sub_self, zero_mul]

theorem isClosest_clampTo {half : Vec3 ℝ} (hhalf : (Primitive.box half).Valid) (p : Vec3 ℝ) :
    IsClosest (Primitive.box half).region p (Vec3.zipWith Round.clampTo half p) := by
  obtain ⟨hx, hbx⟩ := clampTo_spec hhalf.1.le p.x
  obtain ⟨hy, hby⟩ := clampTo_spec hhalf.2.1.le p.y
  obtain ⟨hz, hbz⟩ := clampTo_spec hhalf.2.2.le p.z
  refine ⟨⟨hx, hy, hz⟩, ?_⟩
  rintro q ⟨hqx, hqy, hqz⟩
  exact add_nonpos (add_nonpos (hbx q.x hqx) (hby q.y hqy)) (hbz q.z hqz)

/-! ### Segments -/

namespace Segment

/-- The points of the segment. -/
def points (s : Segment ℝ) : Set (Vec3 ℝ) := {p | ∃ t : ℝ, 0 ≤ t ∧ t ≤ 1 ∧ p = s.point t}

theorem negligible_eq : (negligible : ℝ) = 1e-18 := by
  rw [negligible, Scalar.decimal_real]
  norm_num

theorem negligible_nonneg : (0 : ℝ) ≤ negligible := by
  rw [negligible_eq]
  norm_num

theorem closestParameters_of_point (p : Vec3 ℝ) {s : Segment ℝ}
    (hlong : negligible < s.extent.normSq) :
    closestParameters ⟨p, p⟩ s =
      (0, Scalar.clamp (s.extent.dot (p - s.start) / s.extent.normSq) 0 1) := by
  have hpoint : (Segment.mk p p).extent.normSq = 0 := by
    show (p - p).dot (p - p) = 0
    rw [sub_self, Vec3.zero_dot]
  simp only [closestParameters, hpoint, negligible_nonneg, not_le.mpr hlong, and_false, if_true,
    if_false, Scalar.zero_real, Scalar.one_real]

/-- The point of a segment that is found closest to a point is closest. -/
theorem isClosest_closestPoints (p : Vec3 ℝ) {s : Segment ℝ}
    (hlong : negligible < s.extent.normSq) :
    IsClosest s.points p (closestPoints ⟨p, p⟩ s).2 := by
  have hpos : 0 < s.extent.dot s.extent := negligible_nonneg.trans_lt hlong
  have hbehind (t u : ℝ) : (p - s.point t).dot (s.point u - s.point t) =
      (u - t) * (s.extent.dot (p - s.start) - t * s.extent.dot s.extent) := by
    simp only [point, Vec3.mul_eq_smul, Vec3.dot_eq, Vec3.sub_x, Vec3.sub_y, Vec3.sub_z,
      Vec3.add_x, Vec3.add_y, Vec3.add_z, Vec3.smul_x, Vec3.smul_y, Vec3.smul_z]
    ring
  simp only [closestPoints, closestParameters_of_point p hlong]
  show IsClosest s.points p (s.point
    (Scalar.clamp (s.extent.dot (p - s.start) / s.extent.dot s.extent) 0 1))
  simp only [Scalar.clamp]
  split_ifs with hlow hhigh
  · refine ⟨⟨0, le_refl 0, zero_le_one, rfl⟩, ?_⟩
    rintro _ ⟨u, hu, -, rfl⟩
    rw [hbehind]
    have hfoot := (div_lt_iff₀ hpos).mp hlow
    exact mul_nonpos_of_nonneg_of_nonpos (by linarith) (by linarith)
  · refine ⟨⟨1, zero_le_one, le_refl 1, rfl⟩, ?_⟩
    rintro _ ⟨u, -, hu, rfl⟩
    rw [hbehind]
    have hfoot := (lt_div_iff₀ hpos).mp hhigh
    exact mul_nonpos_of_nonpos_of_nonneg (by linarith) (by linarith)
  · refine ⟨⟨_, not_lt.mp hlow, not_lt.mp hhigh, rfl⟩, ?_⟩
    rintro _ ⟨u, -, -, rfl⟩
    rw [hbehind, div_mul_cancel₀ _ hpos.ne', sub_self, mul_zero]

end Segment

/-! ### Triangles -/

namespace Triangle

/-- The point of the plane of the triangle with the given coordinates along two edges. -/
noncomputable def pointAt (t : Triangle ℝ) (y z : ℝ) : Vec3 ℝ :=
  t.a + y • (t.b - t.a) + z • (t.c - t.a)

theorem pointAt_eq (t : Triangle ℝ) (y z : ℝ) :
    t.pointAt y z = (1 - y - z) • t.a + y • t.b + z • t.c := by
  ext <;> simp [pointAt] <;> ring

/-- The corners lie on one line exactly if two edges have no vector product. -/
theorem collinear_corners_iff (t : Triangle ℝ) :
    Collinear ℝ {t.a, t.b, t.c} ↔ (t.b - t.a).cross (t.c - t.a) = 0 := by
  rw [collinear_iff_of_mem (Set.mem_insert t.a _)]
  constructor
  · rintro ⟨e, hline⟩
    obtain ⟨s, hb⟩ := hline t.b (by simp)
    obtain ⟨r, hc⟩ := hline t.c (by simp)
    rw [hb, hc, vadd_eq_add, vadd_eq_add, add_sub_cancel_right, add_sub_cancel_right]
    ext <;> simp [Vec3.cross] <;> ring
  · intro hcross
    obtain ⟨e, s, r, hb, hc⟩ := Vec3.exists_common_line hcross
    refine ⟨e, ?_⟩
    rintro p (rfl | rfl | rfl)
    · exact ⟨0, by simp⟩
    · exact ⟨s, by rw [← hb, vadd_eq_add, sub_add_cancel]⟩
    · exact ⟨r, by rw [← hc, vadd_eq_add, sub_add_cancel]⟩

/-- The points of a triangle by their coordinates along two edges. -/
theorem mem_hull_corners {t : Triangle ℝ} {q : Vec3 ℝ} : q ∈ Vec3.hull t.corners ↔
    ∃ y z : ℝ, 0 ≤ y ∧ 0 ≤ z ∧ y + z ≤ 1 ∧ q = t.pointAt y z := by
  have hset : {p | p ∈ t.corners} = {t.a, t.b, t.c} := by
    ext p
    simp [corners]
  have hcorner {p : Vec3 ℝ} (hp : p ∈ t.corners) : p ∈ Vec3.hull t.corners :=
    subset_convexHull ℝ _ hp
  constructor
  · intro hq
    rw [Vec3.hull, hset, convexHull_insert (Set.insert_nonempty _ _), convexHull_pair,
      mem_convexJoin] at hq
    obtain ⟨a, rfl, e, ⟨v, w, hv, hw, hvw, rfl⟩, ⟨r, s, hr, hs, hrs, rfl⟩⟩ := hq
    refine ⟨s * v, s * w, mul_nonneg hs hv, mul_nonneg hs hw, ?_, ?_⟩
    · rw [← mul_add, hvw, mul_one]
      linarith
    · have hrest : 1 - s * v - s * w = r := by linear_combination -hrs - s * hvw
      rw [pointAt_eq, hrest, smul_add, smul_smul, smul_smul, add_assoc]
  · rintro ⟨y, z, hy, hz, hyz, rfl⟩
    rw [pointAt_eq]
    have hsum := (convex_convexHull ℝ {p | p ∈ t.corners}).sum_mem (t := Finset.univ)
      (w := ![1 - y - z, y, z]) (z := ![t.a, t.b, t.c]) (fun i _ ↦ ?_) ?_ (fun i _ ↦ ?_)
    · rwa [Fin.sum_univ_three] at hsum
    · fin_cases i
      · show 0 ≤ 1 - y - z
        linarith
      · exact hy
      · exact hz
    · simp only [Fin.sum_univ_three, Matrix.cons_val]
      ring
    · fin_cases i
      · exact hcorner (by simp [corners])
      · exact hcorner (by simp [corners])
      · exact hcorner (by simp [corners])

/-- What decides where the closest point of a triangle to a point lies: the scalar products of two
edges `ab` and `ac` with each other and with the vector from their common corner to the point. -/
structure EdgeProducts where
  /-- `ab` with itself. -/
  bb : ℝ
  /-- `ab` with `ac`. -/
  bc : ℝ
  /-- `ac` with itself. -/
  cc : ℝ
  /-- `ab` with the vector to the point. -/
  pb : ℝ
  /-- `ac` with the vector to the point. -/
  pc : ℝ

/-- The edge products of a triangle and a point. -/
noncomputable def edgeProducts (t : Triangle ℝ) (p : Vec3 ℝ) : EdgeProducts where
  bb := (t.b - t.a).dot (t.b - t.a)
  bc := (t.b - t.a).dot (t.c - t.a)
  cc := (t.c - t.a).dot (t.c - t.a)
  pb := (t.b - t.a).dot (p - t.a)
  pc := (t.c - t.a).dot (p - t.a)

namespace EdgeProducts

/-- What is left of `pb` at a point of the plane. -/
noncomputable def restB (e : EdgeProducts) (y z : ℝ) : ℝ := e.pb - y * e.bb - z * e.bc

/-- What is left of `pc` at a point of the plane. -/
noncomputable def restC (e : EdgeProducts) (y z : ℝ) : ℝ := e.pc - y * e.bc - z * e.cc

/-- The rest along the way from the corner `a` to a point of the plane. -/
noncomputable def restA (e : EdgeProducts) (y z : ℝ) : ℝ := y * e.restB y z + z * e.restC y z

/-- The coordinates are those of the closest point of the triangle. -/
structure Optimal (e : EdgeProducts) (y z : ℝ) : Prop where
  nonneg_y : 0 ≤ y
  nonneg_z : 0 ≤ z
  sum_le_one : y + z ≤ 1
  cornerA : 0 ≤ e.restA y z
  cornerB : e.restB y z ≤ e.restA y z
  cornerC : e.restC y z ≤ e.restA y z

end EdgeProducts

variable {t : Triangle ℝ} {p : Vec3 ℝ}

theorem sub_pointAt_dot (y z : ℝ) :
    (p - t.pointAt y z).dot (t.a - t.pointAt y z) = -(t.edgeProducts p).restA y z ∧
    (p - t.pointAt y z).dot (t.b - t.pointAt y z) =
      (t.edgeProducts p).restB y z - (t.edgeProducts p).restA y z ∧
    (p - t.pointAt y z).dot (t.c - t.pointAt y z) =
      (t.edgeProducts p).restC y z - (t.edgeProducts p).restA y z := by
  simp only [pointAt, edgeProducts, EdgeProducts.restA, EdgeProducts.restB, EdgeProducts.restC,
    Vec3.dot_eq, Vec3.sub_x, Vec3.sub_y, Vec3.sub_z, Vec3.add_x, Vec3.add_y, Vec3.add_z,
    Vec3.smul_x, Vec3.smul_y, Vec3.smul_z]
  refine ⟨?_, ?_, ?_⟩ <;> ring

/-- A point of a triangle is closest exactly if no corner lies on the side of the point. -/
theorem isClosest_pointAt_iff {y z : ℝ} (hy : 0 ≤ y) (hz : 0 ≤ z) (hyz : y + z ≤ 1) :
    IsClosest (Vec3.hull t.corners) p (t.pointAt y z) ↔ (t.edgeProducts p).Optimal y z := by
  obtain ⟨ha, hb, hc⟩ := sub_pointAt_dot (t := t) (p := p) y z
  constructor
  · rintro ⟨-, hbehind⟩
    have hcorner {x : Vec3 ℝ} (hx : x ∈ t.corners) :=
      hbehind x (subset_convexHull ℝ {p | p ∈ t.corners} hx)
    have hA := hcorner (x := t.a) (by simp [corners])
    have hB := hcorner (x := t.b) (by simp [corners])
    have hC := hcorner (x := t.c) (by simp [corners])
    exact ⟨hy, hz, hyz, by linarith, by linarith, by linarith⟩
  · intro h
    refine ⟨mem_hull_corners.mpr ⟨y, z, hy, hz, hyz, rfl⟩, fun x hx ↦ ?_⟩
    have hle : x.dot (p - t.pointAt y z) ≤ (t.pointAt y z).dot (p - t.pointAt y z) := by
      refine dot_le_of_mem_hull (fun x hx ↦ ?_) hx
      have hside : (p - t.pointAt y z).dot (x - t.pointAt y z) ≤ 0 := by
        simp only [corners, List.mem_cons, List.not_mem_nil, or_false] at hx
        rcases hx with rfl | rfl | rfl
        · linarith [h.cornerA]
        · linarith [h.cornerB]
        · linarith [h.cornerC]
      rw [Vec3.dot_sub, Vec3.dot_comm _ x, Vec3.dot_comm _ (t.pointAt y z)] at hside
      linarith
    rw [Vec3.dot_sub, Vec3.dot_comm _ x, Vec3.dot_comm _ (t.pointAt y z)]
    linarith

theorem exists_optimal (t : Triangle ℝ) (p : Vec3 ℝ) :
    ∃ y z, (t.edgeProducts p).Optimal y z := by
  obtain ⟨q, hq⟩ := exists_isClosest (convex_convexHull ℝ _) (hull_isCompact t.corners)
    ⟨t.a, subset_convexHull ℝ _ (by simp [corners])⟩ p
  obtain ⟨y, z, hy, hz, hyz, rfl⟩ := mem_hull_corners.mp hq.1
  exact ⟨y, z, (isClosest_pointAt_iff hy hz hyz).mp hq⟩

namespace EdgeProducts

/-- The edges are those of a triangle whose corners do not lie on one line. -/
structure Proper (e : EdgeProducts) : Prop where
  bb_pos : 0 < e.bb
  cc_pos : 0 < e.cc
  /-- The third edge. -/
  third_pos : 0 < e.bb - e.bc + (e.cc - e.bc)
  /-- The square of twice the area. -/
  area_pos : 0 < e.bb * e.cc - e.bc * e.bc

/-- The coordinates that `closestPoint` chooses, by the region the point lies over. -/
noncomputable def chosen (e : EdgeProducts) : ℝ × ℝ :=
  if e.pb ≤ 0 ∧ e.pc ≤ 0 then (0, 0)
  else if 0 ≤ e.pb - e.bb ∧ e.pc - e.bc ≤ e.pb - e.bb then (1, 0)
  else if e.pb * (e.pc - e.bc) - (e.pb - e.bb) * e.pc ≤ 0 ∧ 0 ≤ e.pb ∧ e.pb - e.bb ≤ 0 then
    (e.pb / e.bb, 0)
  else if 0 ≤ e.pc - e.cc ∧ e.pb - e.bc ≤ e.pc - e.cc then (0, 1)
  else if (e.pb - e.bc) * e.pc - e.pb * (e.pc - e.cc) ≤ 0 ∧ 0 ≤ e.pc ∧ e.pc - e.cc ≤ 0 then
    (0, e.pc / e.cc)
  else if (e.pb - e.bb) * (e.pc - e.cc) - (e.pb - e.bc) * (e.pc - e.bc) ≤ 0 ∧
      0 ≤ (e.pc - e.bc) - (e.pb - e.bb) ∧ 0 ≤ (e.pb - e.bc) - (e.pc - e.cc) then
    let s := ((e.pc - e.bc) - (e.pb - e.bb)) / (e.bb - e.bc + (e.cc - e.bc))
    (1 - s, s)
  else
    let area := e.bb * e.cc - e.bc * e.bc
    ((e.pb * e.cc - e.pc * e.bc) / area, (e.pc * e.bb - e.pb * e.bc) / area)

/-- The square of the third edge, as the tests for it add it up. -/
theorem third_eq (e : EdgeProducts) :
    e.pc - e.bc - (e.pb - e.bb) + (e.pb - e.bc - (e.pc - e.cc)) = e.bb - e.bc + (e.cc - e.bc) := by
  ring

/-- The square of twice the area, as the tests for the edges add it up. -/
theorem area_eq (e : EdgeProducts) :
    (e.pb - e.bb) * (e.pc - e.cc) - (e.pb - e.bc) * (e.pc - e.bc) +
      ((e.pb - e.bc) * e.pc - e.pb * (e.pc - e.cc)) +
      (e.pb * (e.pc - e.bc) - (e.pb - e.bb) * e.pc) = e.bb * e.cc - e.bc * e.bc := by
  ring

end EdgeProducts

/-- The scalar products of the two edges with the ways from the corners to the point. -/
theorem dot_sub_corner (t : Triangle ℝ) (p : Vec3 ℝ) :
    let e := t.edgeProducts p
    ((t.b - t.a).dot (p - t.a) = e.pb ∧ (t.c - t.a).dot (p - t.a) = e.pc) ∧
      ((t.b - t.a).dot (p - t.b) = e.pb - e.bb ∧ (t.c - t.a).dot (p - t.b) = e.pc - e.bc) ∧
      (t.b - t.a).dot (p - t.c) = e.pb - e.bc ∧ (t.c - t.a).dot (p - t.c) = e.pc - e.cc := by
  refine ⟨⟨rfl, rfl⟩, ⟨?_, ?_⟩, ?_, ?_⟩
  · rw [← sub_sub_sub_cancel_right p t.b t.a, Vec3.dot_sub]
    rfl
  · rw [← sub_sub_sub_cancel_right p t.b t.a, Vec3.dot_sub, Vec3.dot_comm _ (t.b - t.a)]
    rfl
  · rw [← sub_sub_sub_cancel_right p t.c t.a, Vec3.dot_sub]
    rfl
  · rw [← sub_sub_sub_cancel_right p t.c t.a, Vec3.dot_sub]
    rfl

/-- The point that is found has the chosen coordinates. -/
theorem closestPoint_eq (t : Triangle ℝ) (p : Vec3 ℝ) :
    t.closestPoint p =
      t.pointAt (t.edgeProducts p).chosen.1 (t.edgeProducts p).chosen.2 := by
  obtain ⟨⟨h1, h2⟩, ⟨h3, h4⟩, h5, h6⟩ := t.dot_sub_corner p
  simp only [closestPoint, h1, h2, h3, h4, h5, h6, Scalar.zero_real, Scalar.one_real]
  generalize t.edgeProducts p = e
  unfold EdgeProducts.chosen
  split_ifs
  · ext <;> simp [pointAt]
  · ext <;> simp [pointAt]
  · rw [sub_sub_cancel]
    ext <;> simp [pointAt, Vec3.mul_eq_smul]
  · ext <;> simp [pointAt]
  · rw [sub_sub_cancel]
    ext <;> simp [pointAt, Vec3.mul_eq_smul]
  · rw [e.third_eq]
    ext <;> simp [pointAt, Vec3.mul_eq_smul] <;> ring
  · rw [e.area_eq]
    ext <;> simp [pointAt, Vec3.mul_eq_smul] <;> ring

/-! ### The chosen coordinates are those of the closest point -/

namespace EdgeProducts

variable {e : EdgeProducts}

/-- Where the rests at the closest point do not vanish, its coordinates are at a bound. -/
theorem Optimal.complementary {y z : ℝ} (h : e.Optimal y z) :
    (1 - y - z) * e.restA y z = 0 ∧ y * (e.restA y z - e.restB y z) = 0 ∧
      z * (e.restA y z - e.restC y z) = 0 := by
  have hA : 0 ≤ (1 - y - z) * e.restA y z :=
    mul_nonneg (by linarith [h.sum_le_one]) h.cornerA
  have hB : 0 ≤ y * (e.restA y z - e.restB y z) :=
    mul_nonneg h.nonneg_y (by linarith [h.cornerB])
  have hC : 0 ≤ z * (e.restA y z - e.restC y z) :=
    mul_nonneg h.nonneg_z (by linarith [h.cornerC])
  have hsum : (1 - y - z) * e.restA y z + y * (e.restA y z - e.restB y z) +
      z * (e.restA y z - e.restC y z) = 0 := by
    unfold restA
    ring
  refine ⟨?_, ?_, ?_⟩ <;> linarith

/-- If no test for a corner or an edge succeeds, the closest point is the foot of the perpendicular
on the plane of the triangle. -/
theorem Optimal.rest_eq_zero (he : e.Proper) {y z : ℝ} (h : e.Optimal y z)
    (hcornerA : ¬ (e.pb ≤ 0 ∧ e.pc ≤ 0))
    (hcornerB : ¬ (0 ≤ e.pb - e.bb ∧ e.pc - e.bc ≤ e.pb - e.bb))
    (hedgeAB : ¬ (e.pb * (e.pc - e.bc) - (e.pb - e.bb) * e.pc ≤ 0 ∧ 0 ≤ e.pb ∧ e.pb - e.bb ≤ 0))
    (hcornerC : ¬ (0 ≤ e.pc - e.cc ∧ e.pb - e.bc ≤ e.pc - e.cc))
    (hedgeAC : ¬ ((e.pb - e.bc) * e.pc - e.pb * (e.pc - e.cc) ≤ 0 ∧ 0 ≤ e.pc ∧ e.pc - e.cc ≤ 0))
    (hedgeBC : ¬ ((e.pb - e.bb) * (e.pc - e.cc) - (e.pb - e.bc) * (e.pc - e.bc) ≤ 0 ∧
      0 ≤ (e.pc - e.bc) - (e.pb - e.bb) ∧ 0 ≤ (e.pb - e.bc) - (e.pc - e.cc))) :
    e.restB y z = 0 ∧ e.restC y z = 0 := by
  obtain ⟨hA, hB, hC⟩ := h.complementary
  have hpb : e.pb = e.restB y z + y * e.bb + z * e.bc := by
    unfold restB
    ring
  have hpc : e.pc = e.restC y z + y * e.bc + z * e.cc := by
    unfold restC
    ring
  have hrest := h.cornerA
  have hrestB := h.cornerB
  have hrestC := h.cornerC
  generalize e.restA y z = a at *
  generalize e.restB y z = b at *
  generalize e.restC y z = c at *
  have hbb := he.bb_pos
  have hcc := he.cc_pos
  have hthird := he.third_pos
  rcases h.nonneg_y.eq_or_lt with rfl | hy
  · rcases h.nonneg_z.eq_or_lt with rfl | hz
    · -- The corner `a`.
      have ha : a = 0 := by linarith
      exact absurd ⟨by linarith, by linarith⟩ hcornerA
    · obtain rfl : a = c := by linarith [(mul_eq_zero.mp hC).resolve_left hz.ne']
      rcases h.sum_le_one.eq_or_lt with hone | hlt
      · -- The corner `c`.
        obtain rfl : z = 1 := by linarith
        exact absurd ⟨by linarith, by linarith⟩ hcornerC
      · -- The edge from `a` to `c`.
        obtain rfl : a = 0 := (mul_eq_zero.mp hA).resolve_left (by linarith)
        refine absurd ⟨?_, ?_, ?_⟩ hedgeAC
        · have hle : b * e.cc ≤ 0 := mul_nonpos_of_nonpos_of_nonneg hrestB hcc.le
          rw [hpb, hpc]
          linarith
        · rw [hpc]
          nlinarith
        · rw [hpc]
          nlinarith
  · obtain rfl : a = b := by linarith [(mul_eq_zero.mp hB).resolve_left hy.ne']
    rcases h.nonneg_z.eq_or_lt with rfl | hz
    · rcases h.sum_le_one.eq_or_lt with hone | hlt
      · -- The corner `b`.
        obtain rfl : y = 1 := by linarith
        exact absurd ⟨by linarith, by linarith⟩ hcornerB
      · -- The edge from `a` to `b`.
        obtain rfl : a = 0 := (mul_eq_zero.mp hA).resolve_left (by linarith)
        refine absurd ⟨?_, ?_, ?_⟩ hedgeAB
        · have hle : c * e.bb ≤ 0 := mul_nonpos_of_nonpos_of_nonneg hrestC hbb.le
          rw [hpb, hpc]
          linarith
        · rw [hpb]
          nlinarith
        · rw [hpb]
          nlinarith
    · obtain rfl : a = c := by linarith [(mul_eq_zero.mp hC).resolve_left hz.ne']
      rcases h.sum_le_one.eq_or_lt with hone | hlt
      · -- The edge from `b` to `c`.
        obtain rfl : y = 1 - z := by linarith
        have hfirst : 0 ≤ z * (e.bb - e.bc + (e.cc - e.bc)) := mul_nonneg hz.le hthird.le
        have hsecond : 0 ≤ (1 - z) * (e.bb - e.bc + (e.cc - e.bc)) := mul_nonneg hy.le hthird.le
        have hrest : 0 ≤ a * (e.bb - e.bc + (e.cc - e.bc)) := mul_nonneg hrest hthird.le
        refine absurd ⟨?_, ?_, ?_⟩ hedgeBC <;> rw [hpb, hpc] <;> linarith
      · -- The inside.
        obtain rfl : a = 0 := (mul_eq_zero.mp hA).resolve_left (by linarith)
        exact ⟨rfl, rfl⟩

/-- The triangle with its second and third corner exchanged. -/
noncomputable def swap (e : EdgeProducts) : EdgeProducts where
  bb := e.cc
  bc := e.bc
  cc := e.bb
  pb := e.pc
  pc := e.pb

theorem Optimal.of_swap {y z : ℝ} (h : e.swap.Optimal z y) : e.Optimal y z := by
  have hB : e.swap.restB z y = e.restC y z := by
    simp only [restB, restC, swap]
    ring
  have hC : e.swap.restC z y = e.restB y z := by
    simp only [restB, restC, swap]
    ring
  have hA : e.swap.restA z y = e.restA y z := by
    simp only [restA, hB, hC]
    ring
  refine ⟨h.nonneg_z, h.nonneg_y, by linarith [h.sum_le_one], ?_, ?_, ?_⟩
  · exact hA ▸ h.cornerA
  · rw [← hA, ← hC]
    exact h.cornerC
  · rw [← hA, ← hB]
    exact h.cornerB

theorem optimal_cornerA (hb : e.pb ≤ 0) (hc : e.pc ≤ 0) : e.Optimal 0 0 := by
  refine ⟨le_refl 0, le_refl 0, by linarith, ?_, ?_, ?_⟩ <;>
    simp only [restA, restB, restC] <;> linarith

theorem optimal_cornerB (ha : 0 ≤ e.pb - e.bb) (hc : e.pc - e.bc ≤ e.pb - e.bb) :
    e.Optimal 1 0 := by
  refine ⟨zero_le_one, le_refl 0, by linarith, ?_, ?_, ?_⟩ <;>
    simp only [restA, restB, restC] <;> linarith

theorem optimal_cornerC (ha : 0 ≤ e.pc - e.cc) (hb : e.pb - e.bc ≤ e.pc - e.cc) :
    e.Optimal 0 1 := by
  refine ⟨le_refl 0, zero_le_one, by linarith, ?_, ?_, ?_⟩ <;>
    simp only [restA, restB, restC] <;> linarith

/-- The edge from `a` to `b`. -/
theorem optimal_edgeAB (hbb : 0 < e.bb)
    (hside : e.pb * (e.pc - e.bc) - (e.pb - e.bb) * e.pc ≤ 0) (hlow : 0 ≤ e.pb)
    (hhigh : e.pb - e.bb ≤ 0) : e.Optimal (e.pb / e.bb) 0 := by
  have hle : e.pb / e.bb ≤ 1 := (div_le_one hbb).mpr (by linarith)
  have hmul : e.pb / e.bb * e.bb = e.pb := div_mul_cancel₀ _ hbb.ne'
  have hrest : e.pc - e.pb / e.bb * e.bc ≤ 0 := by
    refine nonpos_of_mul_nonpos_right ?_ hbb
    linear_combination hside + (e.pc - e.bc) * hmul - e.pc * hmul
  have hB : e.restB (e.pb / e.bb) 0 = 0 := by
    rw [restB, hmul]
    ring
  have hC : e.restC (e.pb / e.bb) 0 = e.pc - e.pb / e.bb * e.bc := by
    rw [restC]
    ring
  have hA : e.restA (e.pb / e.bb) 0 = 0 := by
    rw [restA, hB]
    ring
  exact ⟨div_nonneg hlow hbb.le, le_refl 0, by linarith, hA.ge, by rw [hA, hB], by rwa [hA, hC]⟩

/-- The edge from `a` to `c`. -/
theorem optimal_edgeAC (hcc : 0 < e.cc)
    (hside : (e.pb - e.bc) * e.pc - e.pb * (e.pc - e.cc) ≤ 0) (hlow : 0 ≤ e.pc)
    (hhigh : e.pc - e.cc ≤ 0) : e.Optimal 0 (e.pc / e.cc) := by
  refine .of_swap (optimal_edgeAB (e := e.swap) hcc ?_ hlow hhigh)
  simp only [swap]
  linarith

/-- The edge from `b` to `c`. -/
theorem optimal_edgeBC (hthird : 0 < e.bb - e.bc + (e.cc - e.bc))
    (hside : (e.pb - e.bb) * (e.pc - e.cc) - (e.pb - e.bc) * (e.pc - e.bc) ≤ 0)
    (hlow : 0 ≤ (e.pc - e.bc) - (e.pb - e.bb)) (hhigh : 0 ≤ (e.pb - e.bc) - (e.pc - e.cc)) :
    let s := ((e.pc - e.bc) - (e.pb - e.bb)) / (e.bb - e.bc + (e.cc - e.bc))
    e.Optimal (1 - s) s := by
  have hle : (e.pc - e.bc - (e.pb - e.bb)) / (e.bb - e.bc + (e.cc - e.bc)) ≤ 1 :=
    (div_le_one hthird).mpr (by linarith)
  have hnonneg : 0 ≤ (e.pc - e.bc - (e.pb - e.bb)) / (e.bb - e.bc + (e.cc - e.bc)) :=
    div_nonneg hlow hthird.le
  have hmul : (e.pc - e.bc - (e.pb - e.bb)) / (e.bb - e.bc + (e.cc - e.bc)) *
      (e.bb - e.bc + (e.cc - e.bc)) = e.pc - e.bc - (e.pb - e.bb) := div_mul_cancel₀ _ hthird.ne'
  simp only
  generalize (e.pc - e.bc - (e.pb - e.bb)) / (e.bb - e.bc + (e.cc - e.bc)) = s at *
  -- Both rests are the same, and they are not negative.
  have hsame : e.restC (1 - s) s = e.restB (1 - s) s := by
    simp only [restB, restC]
    linear_combination -hmul
  have hrest : 0 ≤ e.restB (1 - s) s := by
    refine nonneg_of_mul_nonneg_left (?_ : 0 ≤ _ * (e.bb - e.bc + (e.cc - e.bc))) hthird
    simp only [restB]
    linear_combination hside - (e.bb - e.bc) * hmul
  have hA : e.restA (1 - s) s = e.restB (1 - s) s := by
    simp only [restA, hsame]
    ring
  exact ⟨by linarith, hnonneg, by linarith, by rwa [hA], hA.ge, by rw [hA, hsame]⟩

/-- The foot of the perpendicular is where both rests vanish. -/
theorem Proper.eq_foot (he : e.Proper) {y z : ℝ} (hb : e.restB y z = 0) (hc : e.restC y z = 0) :
    (e.pb * e.cc - e.pc * e.bc) / (e.bb * e.cc - e.bc * e.bc) = y ∧
      (e.pc * e.bb - e.pb * e.bc) / (e.bb * e.cc - e.bc * e.bc) = z := by
  have harea := he.area_pos
  simp only [restB, restC] at hb hc
  constructor
  · rw [div_eq_iff harea.ne']
    linear_combination e.cc * hb - e.bc * hc
  · rw [div_eq_iff harea.ne']
    linear_combination e.bb * hc - e.bc * hb

/-- The coordinates that are chosen are those of the closest point. -/
theorem Proper.chosen_optimal (he : e.Proper) (hexists : ∃ y z, e.Optimal y z) :
    e.Optimal e.chosen.1 e.chosen.2 := by
  unfold chosen
  split_ifs with hcornerA hcornerB hedgeAB hcornerC hedgeAC hedgeBC
  · exact optimal_cornerA hcornerA.1 hcornerA.2
  · exact optimal_cornerB hcornerB.1 hcornerB.2
  · exact optimal_edgeAB he.bb_pos hedgeAB.1 hedgeAB.2.1 hedgeAB.2.2
  · exact optimal_cornerC hcornerC.1 hcornerC.2
  · exact optimal_edgeAC he.cc_pos hedgeAC.1 hedgeAC.2.1 hedgeAC.2.2
  · exact optimal_edgeBC he.third_pos hedgeBC.1 hedgeBC.2.1 hedgeBC.2.2
  · obtain ⟨y, z, h⟩ := hexists
    obtain ⟨hb, hc⟩ := h.rest_eq_zero he hcornerA hcornerB hedgeAB hcornerC hedgeAC hedgeBC
    obtain ⟨hy, hz⟩ := he.eq_foot hb hc
    simp only [hy, hz]
    exact h

end EdgeProducts

theorem edgeProducts_proper {t : Triangle ℝ} (h : (t.b - t.a).cross (t.c - t.a) ≠ 0)
    (p : Vec3 ℝ) : (t.edgeProducts p).Proper := by
  have hpos {v : Vec3 ℝ} (hv : v ≠ 0) : 0 < v.dot v :=
    (Vec3.dot_self_nonneg v).lt_of_ne fun hzero ↦ hv (Vec3.eq_zero_of_dot_self hzero.symm)
  refine ⟨hpos fun hzero ↦ h ?_, hpos fun hzero ↦ h ?_, ?_, ?_⟩
  · rw [hzero]
    ext <;> simp [Vec3.cross]
  · rw [hzero]
    ext <;> simp [Vec3.cross]
  · have hthird : t.c - t.b ≠ 0 := by
      intro hzero
      refine h ?_
      rw [sub_eq_zero.mp hzero]
      ext <;> simp [Vec3.cross, mul_comm]
    have hexpand : (t.edgeProducts p).bb - (t.edgeProducts p).bc +
        ((t.edgeProducts p).cc - (t.edgeProducts p).bc) = (t.c - t.b).dot (t.c - t.b) := by
      simp only [edgeProducts, Vec3.dot_eq, Vec3.sub_x, Vec3.sub_y, Vec3.sub_z]
      ring
    rw [hexpand]
    exact hpos hthird
  · show 0 < (t.b - t.a).dot (t.b - t.a) * (t.c - t.a).dot (t.c - t.a) -
      (t.b - t.a).dot (t.c - t.a) * (t.b - t.a).dot (t.c - t.a)
    rw [← Vec3.cross_dot_self]
    exact hpos h

/-- The point found on a triangle whose corners do not lie on one line is the closest one. -/
theorem isClosest_closestPoint {t : Triangle ℝ} (h : (t.b - t.a).cross (t.c - t.a) ≠ 0)
    (p : Vec3 ℝ) : IsClosest (Vec3.hull t.corners) p (t.closestPoint p) := by
  have hoptimal := (edgeProducts_proper h p).chosen_optimal (exists_optimal t p)
  rw [closestPoint_eq]
  exact (isClosest_pointAt_iff hoptimal.nonneg_y hoptimal.nonneg_z hoptimal.sum_le_one).mpr hoptimal

/-- A direction that measures the corners alike measures the plane of the triangle so. -/
theorem pointAt_dot {t : Triangle ℝ} {n : Vec3 ℝ} (hb : t.b.dot n = t.a.dot n)
    (hc : t.c.dot n = t.a.dot n) (y z : ℝ) : (t.pointAt y z).dot n = t.a.dot n := by
  simp only [pointAt, Vec3.add_dot, Vec3.smul_dot, Vec3.sub_dot, hb, hc, sub_self, mul_zero,
    add_zero]

/-- The point found on a triangle lies in its plane. -/
theorem closestPoint_dot {t : Triangle ℝ} {n : Vec3 ℝ} (hb : t.b.dot n = t.a.dot n)
    (hc : t.c.dot n = t.a.dot n) (p : Vec3 ℝ) : (t.closestPoint p).dot n = t.a.dot n := by
  rw [closestPoint_eq]
  exact pointAt_dot hb hc _ _

end Triangle

end Collision
