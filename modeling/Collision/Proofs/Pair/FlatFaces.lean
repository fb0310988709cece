import Collision.Proofs.Pair.SeparatingAxis
import Collision.Proofs.Shape.Closest
import Collision.Proofs.Shape.Corners

/-!
# Boxes and triangles overlap

Boxes and triangles are complete polytopes (`Polytope.box_complete`, `Polytope.triangle_complete`),
and their corners span them (`Primitive.polytope?_spec`), so the separating axis test says
exactly when the origin is an interior point of their difference
(`Primitive.overlap_of_flat_faces`).
-/

set_option autoImplicit false
set_option relaxedAutoImplicit false

open scoped Pointwise

namespace Collision

theorem Triangle.placed_identity (t : Triangle ℝ) : t.placed .identity = t := by
  simp [placed, map, Pose.identity_transformPoint]

namespace Polytope

/-! ### Boxes -/

/-- Corners with differences that are not parallel do not lie on one line. -/
theorem not_on_line_of_cross {a : Polytope ℝ} {p q r s : Vec3 ℝ} (hp : p ∈ a.corners)
    (hq : q ∈ a.corners) (hr : r ∈ a.corners) (hs : s ∈ a.corners)
    (h : (p - q).cross (r - s) ≠ 0) (e : Vec3 ℝ) :
    ∃ p ∈ a.corners, ∃ q ∈ a.corners, ∀ t : ℝ, p - q ≠ t • e := by
  by_contra hline
  push Not at hline
  obtain ⟨t, ht⟩ := hline p hp q hq
  obtain ⟨t', ht'⟩ := hline r hr s hs
  refine h ?_
  rw [ht, ht']
  ext <;> simp [Vec3.cross] <;> ring

/-- Corners of a placed box that are farthest along a vector differ only along the axes that are
perpendicular to it. -/
theorem box_farthest {half q q' n : Vec3 ℝ} {pose : Pose ℝ} (hq : q ∈ BoxCorners.all half)
    (hq' : q' ∈ BoxCorners.all half)
    (hfar : IsFarthest (box half pose).cornerSet n (pose.transformPoint q))
    (hfar' : IsFarthest (box half pose).cornerSet n (pose.transformPoint q')) :
    let m := pose.inverseTransformVector n
    (q.x - q'.x) * m.x = 0 ∧ (q.y - q'.y) * m.y = 0 ∧ (q.z - q'.z) * m.z = 0 := by
  intro m
  obtain ⟨hqx, hqy, hqz⟩ := BoxCorners.mem_all_iff.mp hq
  obtain ⟨hqx', hqy', hqz'⟩ := BoxCorners.mem_all_iff.mp hq'
  have hle {x y z : ℝ} (hx : x = half.x ∨ x = -half.x) (hy : y = half.y ∨ y = -half.y)
      (hz : z = half.z ∨ z = -half.z) :
      (⟨x, y, z⟩ : Vec3 ℝ).dot m ≤ q.dot m ∧ (⟨x, y, z⟩ : Vec3 ℝ).dot m ≤ q'.dot m := by
    have hmem : pose.transformPoint ⟨x, y, z⟩ ∈ (box half pose).cornerSet :=
      List.mem_map_of_mem (BoxCorners.mem_all_iff.mpr ⟨hx, hy, hz⟩)
    have h := hfar.2 _ hmem
    have h' := hfar'.2 _ hmem
    simp only [Pose.transformPoint_dot] at h h'
    exact ⟨le_of_add_le_add_left h, le_of_add_le_add_left h'⟩
  simp only [Vec3.dot_eq] at hle
  -- Exchanging one component of the two corners makes two corners that reach no farther.
  refine ⟨?_, ?_, ?_⟩
  · linarith [(hle hqx' hqy hqz).1, (hle hqx hqy' hqz').2]
  · linarith [(hle hqx hqy' hqz).1, (hle hqx' hqy hqz').2]
  · linarith [(hle hqx hqy hqz').1, (hle hqx' hqy' hqz).2]

/-- A rotated vector along a coordinate axis lies along the rotated axis. -/
theorem apply_eq_smul_axis {pose : Pose ℝ} {v : Vec3 ℝ} {s : ℝ} (i : Fin 3)
    (h : v = s • Vec3.axis i) : pose.rotation.apply v = s • pose.axis i := by
  rw [h, Rotation.apply_smul]
  rfl

theorem axis_mem_box (half : Vec3 ℝ) (pose : Pose ℝ) (i : Fin 3) :
    pose.axis i ∈ (box half pose).faces ∧ pose.axis i ∈ (box half pose).edges := by
  fin_cases i <;> simp [box]

/-- A vector along a local axis is normal to a face. -/
theorem box_face {half n : Vec3 ℝ} {pose : Pose ℝ} (hpose : pose.Rigid) (i : Fin 3)
    (h : pose.inverseTransformVector n = (pose.inverseTransformVector n).get i • Vec3.axis i) :
    ∃ f ∈ (box half pose).faces, ∃ s : ℝ, n = s • f := by
  have hn : pose.rotation.apply (pose.inverseTransformVector n) = n :=
    Rotation.apply_inverse_apply hpose n
  exact ⟨_, (axis_mem_box half pose i).1, _, hn.symm.trans (apply_eq_smul_axis i h)⟩

/-- If corners that are farthest along a vector differ only along one local axis, they lie on one
edge. -/
theorem box_edge {half n : Vec3 ℝ} {pose : Pose ℝ} (i : Fin 3)
    (h : let m := pose.inverseTransformVector n
      ∀ q q' : Vec3 ℝ, (q.x - q'.x) * m.x = 0 → (q.y - q'.y) * m.y = 0 →
        (q.z - q'.z) * m.z = 0 → q - q' = (q - q').get i • Vec3.axis i) :
    ∃ e ∈ (box half pose).edges, ∀ p p', IsFarthest (box half pose).cornerSet n p →
      IsFarthest (box half pose).cornerSet n p' → ∃ s : ℝ, p - p' = s • e := by
  refine ⟨_, (axis_mem_box half pose i).2, fun p p' hp hp' ↦ ?_⟩
  obtain ⟨q, hq, rfl⟩ := List.mem_map.mp hp.1
  obtain ⟨q', hq', rfl⟩ := List.mem_map.mp hp'.1
  obtain ⟨hx, hy, hz⟩ := box_farthest hq hq' hp hp'
  rw [Pose.transformPoint_sub]
  exact ⟨_, apply_eq_smul_axis i (h q q' hx hy hz)⟩

/-- Along a vector with two local components that vanish a face is farthest; with at most one, the
farthest corners lie on one edge. -/
theorem box_face_or_edge {half : Vec3 ℝ} {pose : Pose ℝ} (hpose : pose.Rigid) (n : Vec3 ℝ) :
    (∃ f ∈ (box half pose).faces, ∃ s : ℝ, n = s • f) ∨
      ∃ e ∈ (box half pose).edges, ∀ p p', IsFarthest (box half pose).cornerSet n p →
        IsFarthest (box half pose).cornerSet n p' → ∃ s : ℝ, p - p' = s • e := by
  by_cases hz : (pose.inverseTransformVector n).z = 0
  · by_cases hy : (pose.inverseTransformVector n).y = 0
    · refine .inl (box_face hpose 0 ?_)
      ext <;> simp [Vec3.axis, Vec3.ofFn, Vec3.get, hy, hz]
    by_cases hx : (pose.inverseTransformVector n).x = 0
    · refine .inl (box_face hpose 1 ?_)
      ext <;> simp [Vec3.axis, Vec3.ofFn, Vec3.get, hx, hz]
    · refine .inr (box_edge 2 fun q q' hqx hqy _ ↦ ?_)
      have hqx := (mul_eq_zero.mp hqx).resolve_right hx
      have hqy := (mul_eq_zero.mp hqy).resolve_right hy
      ext <;> simp [Vec3.axis, Vec3.ofFn, Vec3.get, hqx, hqy]
  by_cases hy : (pose.inverseTransformVector n).y = 0
  · by_cases hx : (pose.inverseTransformVector n).x = 0
    · refine .inl (box_face hpose 2 ?_)
      ext <;> simp [Vec3.axis, Vec3.ofFn, Vec3.get, hx, hy]
    · refine .inr (box_edge 1 fun q q' hqx _ hqz ↦ ?_)
      have hqx := (mul_eq_zero.mp hqx).resolve_right hx
      have hqz := (mul_eq_zero.mp hqz).resolve_right hz
      ext <;> simp [Vec3.axis, Vec3.ofFn, Vec3.get, hqx, hqz]
  · refine .inr (box_edge 0 fun q q' _ hqy hqz ↦ ?_)
    have hqy := (mul_eq_zero.mp hqy).resolve_right hy
    have hqz := (mul_eq_zero.mp hqz).resolve_right hz
    ext <;> simp [Vec3.axis, Vec3.ofFn, Vec3.get, hqy, hqz]

theorem box_complete {half : Vec3 ℝ} (hhalf : (Primitive.box half).Valid) {pose : Pose ℝ}
    (hpose : pose.Rigid) : (box half pose).Complete where
  face_or_edge n _ := box_face_or_edge hpose n
  not_on_line := by
    obtain ⟨hx, hy, hz⟩ := hhalf
    have hcorner {q : Vec3 ℝ} (hq : q ∈ BoxCorners.all half) :
        pose.transformPoint q ∈ (box half pose).corners := List.mem_map_of_mem hq
    refine not_on_line_of_cross (hcorner (q := half) (BoxCorners.mem_all_iff.mpr (by simp)))
      (hcorner (q := ⟨-half.x, half.y, half.z⟩) (BoxCorners.mem_all_iff.mpr (by simp)))
      (hcorner (q := half) (BoxCorners.mem_all_iff.mpr (by simp)))
      (hcorner (q := ⟨half.x, -half.y, half.z⟩) (BoxCorners.mem_all_iff.mpr (by simp))) ?_
    -- The edges are perpendicular and not zero, so their product is not zero.
    intro hzero
    have hlength := Vec3.cross_dot_self (pose.transformPoint half -
        pose.transformPoint ⟨-half.x, half.y, half.z⟩)
      (pose.transformPoint half - pose.transformPoint ⟨half.x, -half.y, half.z⟩)
    rw [hzero, Vec3.zero_dot, Pose.transformPoint_sub, Pose.transformPoint_sub,
      Rotation.apply_dot_apply hpose, Rotation.apply_dot_apply hpose,
      Rotation.apply_dot_apply hpose] at hlength
    simp only [Vec3.dot_eq, Vec3.sub_x, Vec3.sub_y, Vec3.sub_z] at hlength
    nlinarith [mul_pos (mul_pos hx hy) (mul_pos hx hy)]

/-! ### Triangles -/

/-- What is perpendicular to two edges of a triangle is normal to its face. -/
theorem exists_multiple_of_faceAxis {t : Triangle ℝ} (ht : t.faceAxis ≠ 0) {n : Vec3 ℝ}
    (hab : n.dot (t.b - t.a) = 0) (hbc : n.dot (t.c - t.b) = 0) : ∃ s : ℝ, n = s • t.faceAxis :=
  exists_multiple_of_perpendicular ht hab hbc

theorem triangle_complete {t : Triangle ℝ} (ht : t.faceAxis ≠ 0) : (triangle t).Complete := by
  constructor
  · intro n _
    have hcorner {p : Vec3 ℝ} (hp : IsFarthest (triangle t).cornerSet n p) :
        p = t.a ∨ p = t.b ∨ p = t.c := by
      simpa [cornerSet, triangle, Triangle.corners] using hp.1
    -- A corner that is not farthest leaves those of the opposite edge.
    have hedge {c d : Vec3 ℝ} (hcd : d - c ∈ (triangle t).edges)
        (honly : ∀ p, IsFarthest (triangle t).cornerSet n p → p = c ∨ p = d) :
        ∃ e ∈ (triangle t).edges, ∀ p q, IsFarthest (triangle t).cornerSet n p →
          IsFarthest (triangle t).cornerSet n q → ∃ s : ℝ, p - q = s • e := by
      refine ⟨d - c, hcd, fun p q hp hq ↦ ?_⟩
      rcases honly p hp with rfl | rfl <;> rcases honly q hq with rfl | rfl
      · exact ⟨0, by rw [sub_self, zero_smul]⟩
      · exact ⟨-1, by module⟩
      · exact ⟨1, by rw [one_smul]⟩
      · exact ⟨0, by rw [sub_self, zero_smul]⟩
    by_cases ha : IsFarthest (triangle t).cornerSet n t.a
    swap
    · refine .inr (hedge (c := t.b) (d := t.c) (by simp [triangle, Triangle.edges]) fun p hp ↦ ?_)
      exact (hcorner hp).resolve_left fun h ↦ ha (h ▸ hp)
    by_cases hb : IsFarthest (triangle t).cornerSet n t.b
    swap
    · refine .inr (hedge (c := t.c) (d := t.a) (by simp [triangle, Triangle.edges]) fun p hp ↦ ?_)
      rcases hcorner hp with h | h | h
      exacts [.inr h, absurd (h ▸ hp) hb, .inl h]
    by_cases hc : IsFarthest (triangle t).cornerSet n t.c
    swap
    · refine .inr (hedge (c := t.a) (d := t.b) (by simp [triangle, Triangle.edges]) fun p hp ↦ ?_)
      rcases hcorner hp with h | h | h
      exacts [.inl h, .inr h, absurd (h ▸ hp) hc]
    have hab := le_antisymm (hb.2 _ ha.1) (ha.2 _ hb.1)
    have hbc := le_antisymm (hc.2 _ hb.1) (hb.2 _ hc.1)
    refine .inl ⟨_, List.mem_singleton.mpr rfl, exists_multiple_of_faceAxis ht ?_ ?_⟩
    · rw [Vec3.dot_comm, Vec3.sub_dot, hab, sub_self]
    · rw [Vec3.dot_comm, Vec3.sub_dot, hbc, sub_self]
  · refine not_on_line_of_cross (p := t.b) (q := t.a) (r := t.c) (s := t.b) ?_ ?_ ?_ ?_ ht <;>
      simp [triangle, Triangle.corners]

/-- Corners that do not lie on one line make a triangle with a normal. -/
theorem faceAxis_ne_zero {t : Triangle ℝ} (ht : ¬ Collinear ℝ {t.a, t.b, t.c}) :
    t.faceAxis ≠ 0 := by
  have hcross : (t.b - t.a).cross (t.c - t.a) = t.faceAxis := by
    ext <;> simp [Triangle.faceAxis, Vec3.cross] <;> ring
  rwa [t.collinear_corners_iff, hcross] at ht

/-- A moved triangle has a normal of the same length. -/
theorem placed_faceAxis_ne_zero {t : Triangle ℝ} (ht : t.faceAxis ≠ 0) {pose : Pose ℝ}
    (hpose : pose.Rigid) : (t.placed pose).faceAxis ≠ 0 := by
  intro hzero
  refine ht (Vec3.eq_zero_of_dot_self ?_)
  have hlength : (t.placed pose).faceAxis.dot (t.placed pose).faceAxis =
      t.faceAxis.dot t.faceAxis := by
    simp only [Triangle.faceAxis, Triangle.placed, Triangle.map, Vec3.cross_dot_self,
      Pose.transformPoint_sub, Rotation.apply_dot_apply hpose]
  rw [← hlength, hzero, Vec3.zero_dot]

end Polytope

/-! ### Primitives with flat faces -/

namespace Primitive

/-- The polytope of a placed box or triangle. -/
noncomputable def polytope? (prim : Primitive ℝ) (pose : Pose ℝ) : Option (Polytope ℝ) :=
  match prim with
  | box half => some (.box half pose)
  | triangle t | meshTriangle t => some (.triangle (t.placed pose))
  | _ => none

/-- The half lengths of a box are positive, and the corners of a triangle not on one line. -/
def Nondegenerate : Primitive ℝ → Prop
  | box half => 0 < half.x ∧ 0 < half.y ∧ 0 < half.z
  | triangle t | meshTriangle t => ¬ Collinear ℝ {t.a, t.b, t.c}
  | _ => True

/-- Boxes and triangles have polytopes. -/
theorem polytope?_cases {prim : Primitive ℝ} {pose : Pose ℝ} {a : Polytope ℝ}
    (h : prim.polytope? pose = some a) :
    (∃ half, prim = box half ∧ a = .box half pose) ∨
      ∃ t, (prim = triangle t ∨ prim = meshTriangle t) ∧ a = .triangle (t.placed pose) := by
  cases prim with
  | box half => exact .inl ⟨half, rfl, (Option.some_inj.mp h).symm⟩
  | triangle t => exact .inr ⟨t, .inl rfl, (Option.some_inj.mp h).symm⟩
  | meshTriangle t => exact .inr ⟨t, .inr rfl, (Option.some_inj.mp h).symm⟩
  | _ => cases h

/-- The points of a placed triangle are spanned by the placed corners. -/
theorem regionAt_of_triangle? {prim : Primitive ℝ} {t : Triangle ℝ} (h : prim.triangle? = some t)
    (pose : Pose ℝ) : (Part.bare prim).regionAt pose = Vec3.hull (t.placed pose).corners := by
  rcases triangle?_cases h with rfl | rfl <;> exact (hull_map_transformPoint t.corners pose).symm

/-- The polytope of a placed primitive is complete and spans its points. -/
theorem polytope?_spec {prim : Primitive ℝ} {pose : Pose ℝ} {a : Polytope ℝ}
    (h : prim.polytope? pose = some a) (hprim : prim.Nondegenerate) (hpose : pose.Rigid) :
    a.Complete ∧ Vec3.hull a.corners = (Part.bare prim).regionAt pose := by
  rcases polytope?_cases h with ⟨half, rfl, rfl⟩ | ⟨t, hprim', rfl⟩
  · refine ⟨Polytope.box_complete hprim hpose, ?_⟩
    show Vec3.hull ((BoxCorners.all half).map pose.transformPoint) = _
    rw [hull_map_transformPoint, BoxCorners.hull_all hprim]
    rfl
  · have ht : ¬ Collinear ℝ {t.a, t.b, t.c} := by rcases hprim' with rfl | rfl <;> exact hprim
    have haxis := Polytope.placed_faceAxis_ne_zero (Polytope.faceAxis_ne_zero ht) hpose
    refine ⟨Polytope.triangle_complete haxis, ?_⟩
    rcases hprim' with rfl | rfl <;> exact (regionAt_of_triangle? rfl pose).symm

/-- A placed box has interior points. -/
theorem box_interior_nonempty {half : Vec3 ℝ} (hhalf : (box half).Valid) {pose : Pose ℝ}
    (hpose : pose.Rigid) : (interior ((Part.bare (box half)).regionAt pose)).Nonempty := by
  rw [Set.nonempty_iff_ne_empty]
  intro hempty
  obtain ⟨n, hn, hlevel⟩ := exists_level_of_interior_eq_empty (Part.regionAt_convex _ pose) hempty
  obtain ⟨hx, hy, hz⟩ := hhalf
  -- A vector that measures all points alike is perpendicular to all three axes.
  have hperp {x y z : ℝ} (hpx : |x| ≤ half.x) (hpy : |y| ≤ half.y) (hpz : |z| ≤ half.z) :
      (⟨x, y, z⟩ : Vec3 ℝ).dot (pose.inverseTransformVector n) = 0 := by
    have hzero : (0 : Vec3 ℝ) ∈ (box half).region := by
      refine ⟨?_, ?_, ?_⟩ <;> simpa using le_of_lt ‹_›
    have hsame := hlevel _ ⟨⟨x, y, z⟩, ⟨hpx, hpy, hpz⟩, rfl⟩ _ ⟨0, hzero, rfl⟩
    rw [Vec3.dot_comm, Vec3.dot_comm n, Pose.transformPoint_dot, Pose.transformPoint_dot,
      Vec3.zero_dot] at hsame
    exact add_left_cancel hsame
  have hflat {h : ℝ} (hpos : 0 < h) : |(0 : ℝ)| ≤ h := abs_zero.trans_le hpos.le
  have hpx := hperp (abs_of_pos hx).le (hflat hy) (hflat hz)
  have hpy := hperp (hflat hx) (abs_of_pos hy).le (hflat hz)
  have hpz := hperp (hflat hx) (hflat hy) (abs_of_pos hz).le
  simp only [Vec3.dot_eq, zero_mul, add_zero, zero_add, mul_eq_zero, hx.ne', hy.ne', hz.ne',
    false_or] at hpx hpy hpz
  have hlocal : pose.inverseTransformVector n = 0 := Vec3.ext hpx hpy hpz
  have hnorm := Pose.norm_inverseTransformVector hpose n
  rw [hlocal, norm_zero] at hnorm
  exact hn (norm_eq_zero.mp hnorm.symm)

/-- The verdict for two primitives with flat faces is that of the separating axis test. -/
theorem collideSolids_eq_overlap (c : PairConfig ℝ) {a b : Primitive ℝ} {poseA poseB : Pose ℝ}
    {polyA polyB : Polytope ℝ} (hA : a.polytope? poseA = some polyA)
    (hB : b.polytope? poseB = some polyB) :
    c.collideSolids a poseA b poseB = Polytope.overlap polyA polyB := by
  rcases polytope?_cases hA with ⟨half, rfl, rfl⟩ | ⟨t, ht, rfl⟩
  · rcases polytope?_cases hB with ⟨half', rfl, rfl⟩ | ⟨u, rfl | rfl, rfl⟩ <;> rfl
  · rcases polytope?_cases hB with ⟨half, rfl, rfl⟩ | ⟨u, hu, rfl⟩
    · -- A triangle and a box are tried in the other order.
      rcases ht with rfl | rfl <;> exact Polytope.overlap_comm _ _
    · rcases ht with rfl | rfl <;> rcases hu with rfl | rfl <;> rfl

/-- Two boxes or triangles that are not degenerate, and candidate axes that are long enough unless
they are zero. -/
theorem overlap_of_flat_faces (c : PairConfig ℝ) (a b : Primitive ℝ) (poseA poseB : Pose ℝ)
    (hposeA : poseA.Rigid) (hposeB : poseB.Rigid) (polyA polyB : Polytope ℝ)
    (hA : a.polytope? poseA = some polyA) (hB : b.polytope? poseB = some polyB)
    (ha : a.Nondegenerate) (hb : b.Nondegenerate) (haxes : Polytope.UsableAxes polyA polyB) :
    let regionA := (Part.bare a).regionAt poseA
    let regionB := (Part.bare b).regionAt
    (polyA.overlap polyB = true ↔ (0 : Vec3 ℝ) ∈ interior (regionA - regionB poseB)) ∧
      (∀ halfA halfB, a = .box halfA → b = .box halfB →
        (polyA.overlap polyB = true ↔
          (interior regionA ∩ interior (regionB poseB)).Nonempty)) ∧
      ((∀ distance : ℝ, 0 < distance →
          ∃ v : Vec3 ℝ, ‖v‖ < distance ∧ Disjoint regionA (regionB (poseB.translated v))) →
        polyA.overlap polyB = false) ∧
      ((∃ (n : Vec3 ℝ) (height : ℝ), n ≠ 0 ∧ ∀ p ∈ regionA ∪ regionB poseB, n.dot p = height) →
        polyA.overlap polyB = false) ∧
      polyB.overlap polyA = polyA.overlap polyB ∧
      c.collideSolids a poseA b poseB = polyA.overlap polyB ∧
      c.collideSolids b poseB a poseA = polyA.overlap polyB := by
  intro regionA regionB
  obtain ⟨hcompleteA, hregionA⟩ := polytope?_spec hA ha hposeA
  obtain ⟨hcompleteB, hregionB⟩ := polytope?_spec hB hb hposeB
  have hoverlap : polyA.overlap polyB = true ↔
      (0 : Vec3 ℝ) ∈ interior (regionA - regionB poseB) := by
    rw [Polytope.overlap_iff hcompleteA hcompleteB haxes, Polytope.difference, hregionA, hregionB]
  have hconvex : Convex ℝ (regionA - regionB poseB) :=
    (Part.regionAt_convex _ _).sub (Part.regionAt_convex _ _)
  have hcomm := Polytope.overlap_comm polyA polyB
  refine ⟨hoverlap, ?_, ?_, ?_, hcomm, ?_, ?_⟩
  · rintro halfA halfB rfl rfl
    rw [hoverlap, interiors_meet_iff (Part.regionAt_convex _ _) (Part.regionAt_convex _ _)
      (box_interior_nonempty ha hposeA) (box_interior_nonempty hb hposeB)]
  · intro happart
    refine Bool.eq_false_iff.mpr fun htrue ↦ ?_
    obtain ⟨radius, hradius, hball⟩ :=
      Metric.mem_nhds_iff.mp (mem_interior_iff_mem_nhds.mp (hoverlap.mp htrue))
    obtain ⟨v, hv, hdisjoint⟩ := happart radius hradius
    obtain ⟨p, hp, q, hq, rfl⟩ := hball (mem_ball_zero_iff.mpr hv)
    have hmoved : p ∈ regionB (poseB.translated (p - q)) := by
      rwa [Part.mem_regionAt_translated, sub_sub_cancel]
    exact Set.disjoint_left.mp hdisjoint hp hmoved
  · rintro ⟨n, height, hn, hlevel⟩
    refine Bool.eq_false_iff.mpr fun htrue ↦ ?_
    obtain ⟨_, ⟨p, hp, q, hq, rfl⟩, hpos⟩ := exists_pos_of_mem_interior (hoverlap.mp htrue) hn
    rw [Vec3.dot_sub, hlevel p (.inl hp), hlevel q (.inr hq), sub_self] at hpos
    exact lt_irrefl 0 hpos
  · exact collideSolids_eq_overlap c hA hB
  · rw [← hcomm]
    exact collideSolids_eq_overlap c hB hA

/-- Two boxes of half length one that are not turned, side by side: they touch in a face. -/
theorem overlap_of_touching_boxes :
    let half : Vec3 ℝ := ⟨1, 1, 1⟩
    let aside : Pose ℝ := .ofPosition ⟨2, 0, 0⟩
    let c : PairConfig ℝ := ⟨.standard, 1⟩
    let polyA : Polytope ℝ := .box half Pose.identity
    let polyB : Polytope ℝ := .box half aside
    (Pose.identity : Pose ℝ).Rigid ∧ aside.Rigid ∧
      (box half).polytope? Pose.identity = some polyA ∧ (box half).polytope? aside = some polyB ∧
      (box half).Nondegenerate ∧ Polytope.UsableAxes polyA polyB ∧
      polyA.overlap polyB = false ∧
      c.collideSolids (box half) Pose.identity (box half) aside = false := by
  intro half aside c polyA polyB
  have haside : aside.Rigid := Pose.identity_rigid
  have hhalf : (box half).Nondegenerate := ⟨one_pos, one_pos, one_pos⟩
  have hlong {v : Vec3 ℝ} (hv : v.IsDirection) : (Polytope.shortestAxis : ℝ) < v.norm := by
    have hnorm : v.norm = 1 := hv.norm_eq
    rw [hnorm, Polytope.shortestAxis, Scalar.decimal_real]
    norm_num
  have haxes : Polytope.UsableAxes polyA polyB := by
    have haxis {t e : Vec3 ℝ} (he : e ∈ (Polytope.box half (.ofPosition t)).edges) :
        ∃ i, e = Vec3.axis i := by
      simp only [Polytope.box, List.mem_cons, List.not_mem_nil, or_false] at he
      rcases he with rfl | rfl | rfl <;> exact ⟨_, Rotation.identity_apply _⟩
    have hface (i : Fin 3) : (Vec3.axis i : Vec3 ℝ) = 0 ∨
        (Polytope.shortestAxis : ℝ) < (Vec3.axis i).norm := .inr (hlong (Vec3.axis_isDirection i))
    have hedge (i j : Fin 3) : (Vec3.axis i : Vec3 ℝ).cross (Vec3.axis j) = 0 ∨
        (Polytope.shortestAxis : ℝ) < ((Vec3.axis i).cross (Vec3.axis j)).norm := by
      by_cases hij : i = j
      · subst hij
        left
        ext <;> simp [Vec3.cross] <;> ring
      · refine .inr (hlong ?_)
        rw [Vec3.IsDirection, Vec3.cross_dot_self, Vec3.axis_isDirection i, Vec3.axis_isDirection j]
        fin_cases i <;> fin_cases j <;> simp_all [Vec3.dot_eq, Vec3.axis, Vec3.ofFn]
    intro axis hmem
    simp only [Polytope.candidateAxes, List.mem_append, List.mem_flatMap, List.mem_map] at hmem
    rcases hmem with (hf | hf) | ⟨ea, hea, eb, heb, rfl⟩
    · obtain ⟨i, rfl⟩ := haxis (t := Vec3.zero) hf
      exact hface i
    · obtain ⟨i, rfl⟩ := haxis hf
      exact hface i
    · obtain ⟨i, rfl⟩ := haxis (t := Vec3.zero) hea
      obtain ⟨j, rfl⟩ := haxis heb
      exact hedge i j
  have happart (distance : ℝ) (hdistance : 0 < distance) : ∃ v : Vec3 ℝ, ‖v‖ < distance ∧
      Disjoint ((Part.bare (box half)).regionAt Pose.identity)
        ((Part.bare (box half)).regionAt (aside.translated v)) := by
    refine ⟨(distance / 2) • Vec3.axis 0, ?_, Set.disjoint_left.mpr fun p hp hp' ↦ ?_⟩
    · rw [norm_smul, (Vec3.axis_isDirection 0).norm_eq, mul_one,
        Real.norm_of_nonneg (by positivity)]
      exact half_lt_self hdistance
    · have hright := (abs_le.mp (Part.mem_regionAt_ofPosition.mp hp).1).2
      have hleft := (abs_le.mp
        (Part.mem_regionAt_ofPosition.mp (Part.mem_regionAt_translated.mp hp')).1).1
      simp [Vec3.zero_eq, Vec3.axis, Vec3.ofFn, half] at hleft hright
      linarith
  obtain ⟨-, -, htouching, -, -, hcollide, -⟩ := overlap_of_flat_faces c (box half) (box half)
    Pose.identity aside Pose.identity_rigid haside polyA polyB rfl rfl hhalf hhalf haxes
  exact ⟨Pose.identity_rigid, haside, rfl, rfl, hhalf, haxes, htouching happart,
    hcollide.trans (htouching happart)⟩

end Primitive

end Collision
