import Collision.Proofs.Pair.ClosedForms
import Collision.Proofs.Pair.FlatFaces

/-!
# Small and thin triangles

The corners of a triangle may lie on one line or coincide, and it may be as small as one likes. Its
polytope is outlined all the same (`Polytope.triangle_outlined`): corners on one line differ only
along an edge. If the difference of two triangles is flat, every candidate axis is normal to it,
since it is a product of edges. So the separating axis test is exact as soon as one candidate axis
is not zero and none that separates is too short to be used (`Polytope.overlap_triangles_iff`), and
then triangles that collide have a common point (`PairTester.common_point_of_triangles`).

Where all candidate axes are too short, none is tried, and the triangles collide wherever they
stand: two right triangles with legs of half a millionth, one length apart
(`PairTester.small_triangles_collide_apart`).
-/

set_option autoImplicit false
set_option relaxedAutoImplicit false

open scoped Pointwise

namespace Collision

/-! ### Edges -/

namespace Triangle

theorem edges_eq_sub {t : Triangle ℝ} {e : Vec3 ℝ} (h : e ∈ t.edges) :
    ∃ p ∈ t.corners, ∃ q ∈ t.corners, e = p - q := by
  simp only [edges, List.mem_cons, List.not_mem_nil, or_false] at h
  rcases h with rfl | rfl | rfl
  · exact ⟨t.b, by simp [corners], t.a, by simp [corners], rfl⟩
  · exact ⟨t.c, by simp [corners], t.b, by simp [corners], rfl⟩
  · exact ⟨t.a, by simp [corners], t.c, by simp [corners], rfl⟩

/-- The corners of a triangle without a normal differ only along one of its edges. -/
theorem exists_edge_along {t : Triangle ℝ} (ht : t.faceAxis = 0) :
    ∃ e ∈ t.edges, ∀ p ∈ t.corners, ∀ q ∈ t.corners, ∃ s : ℝ, p - q = s • e := by
  obtain ⟨e, he, ⟨i, hi⟩, j, hj⟩ : ∃ e ∈ t.edges,
      (∃ s : ℝ, t.b - t.a = s • e) ∧ ∃ s : ℝ, t.c - t.b = s • e := by
    by_cases hab : t.b - t.a = 0
    · refine ⟨t.c - t.b, by simp [edges], ⟨0, ?_⟩, 1, (one_smul ℝ _).symm⟩
      rw [hab, zero_smul]
    · exact ⟨t.b - t.a, by simp [edges], ⟨1, (one_smul ℝ _).symm⟩,
        Vec3.exists_multiple_of_cross hab ht⟩
  -- Every corner is reached from the middle one along that edge.
  have hreach : ∀ p ∈ t.corners, ∃ s : ℝ, p = t.b + s • e := by
    simp only [corners, List.forall_mem_cons]
    refine ⟨⟨-i, ?_⟩, ⟨0, ?_⟩, ⟨j, ?_⟩, List.forall_mem_nil _⟩
    · rw [neg_smul, ← hi, neg_sub, add_sub_cancel]
    · rw [zero_smul, add_zero]
    · rw [← hj, add_sub_cancel]
  refine ⟨e, he, fun p hp q hq ↦ ?_⟩
  obtain ⟨s, rfl⟩ := hreach p hp
  obtain ⟨s', rfl⟩ := hreach q hq
  exact ⟨s - s', by rw [add_sub_add_left_eq_sub, sub_smul]⟩

/-- The edges of a triangle do not depend on where it stands. -/
theorem edges_placed_translated (t : Triangle ℝ) (pose : Pose ℝ) (offset : Vec3 ℝ) :
    (t.placed (pose.translated offset)).edges = (t.placed pose).edges := by
  simp [edges, placed, map, Pose.translated_transformPoint]

end Triangle

namespace Polytope

variable {A B : Triangle ℝ}

theorem triangle_outlined (t : Triangle ℝ) : (triangle t).Outlined := by
  by_cases ht : t.faceAxis = 0
  · intro n _
    obtain ⟨e, he, hline⟩ := Triangle.exists_edge_along ht
    exact .inr ⟨e, he, fun p q hp hq ↦ hline p hp.1 q hq.1⟩
  · exact (triangle_complete ht).outlined

/-! ### Candidates -/

/-- The axes that are tried for two triangles are products of their edges. -/
theorem exists_edges_of_candidate {axis : Vec3 ℝ}
    (h : axis ∈ candidateAxes (triangle A) (triangle B)) :
    ∃ v ∈ A.edges ++ B.edges, ∃ w ∈ A.edges ++ B.edges, axis = v.cross w := by
  simp only [candidateAxes, triangle, List.mem_append, List.mem_flatMap, List.mem_map,
    List.mem_singleton] at h
  rcases h with (rfl | rfl) | ⟨v, hv, w, hw, rfl⟩
  · exact ⟨A.b - A.a, by simp [Triangle.edges], A.c - A.b, by simp [Triangle.edges], rfl⟩
  · exact ⟨B.b - B.a, by simp [Triangle.edges], B.c - B.b, by simp [Triangle.edges], rfl⟩
  · exact ⟨v, List.mem_append_left _ hv, w, List.mem_append_right _ hw, rfl⟩

/-- A vector that measures the difference of two triangles all alike is perpendicular to the
edges. -/
theorem dot_edge_of_level {n : Vec3 ℝ}
    (hlevel : ∀ x ∈ difference (triangle A) (triangle B),
      ∀ y ∈ difference (triangle A) (triangle B), n.dot x = n.dot y) :
    ∀ e ∈ A.edges ++ B.edges, n.dot e = 0 := by
  have hsame {p p' q q' : Vec3 ℝ} (hp : p ∈ A.corners) (hp' : p' ∈ A.corners)
      (hq : q ∈ B.corners) (hq' : q' ∈ B.corners) : n.dot (p - q) = n.dot (p' - q') :=
    hlevel _ (Set.sub_mem_sub (subset_convexHull ℝ _ hp) (subset_convexHull ℝ _ hq))
      _ (Set.sub_mem_sub (subset_convexHull ℝ _ hp') (subset_convexHull ℝ _ hq'))
  have hcorner (t : Triangle ℝ) : t.a ∈ t.corners := List.mem_cons_self
  intro e he
  rcases List.mem_append.mp he with he | he
  · obtain ⟨p, hp, p', hp', rfl⟩ := Triangle.edges_eq_sub he
    have hlevel := hsame hp hp' (hcorner B) (hcorner B)
    rw [Vec3.dot_sub, Vec3.dot_sub] at hlevel
    rw [Vec3.dot_sub]
    linarith
  · obtain ⟨q, hq, q', hq', rfl⟩ := Triangle.edges_eq_sub he
    have hlevel := hsame (hcorner A) (hcorner A) hq hq'
    rw [Vec3.dot_sub, Vec3.dot_sub] at hlevel
    rw [Vec3.dot_sub]
    linarith

/-- If the difference of two triangles is flat, any candidate axis that is not zero separates
them. -/
theorem exists_separating_edges {axis : Vec3 ℝ}
    (haxis : axis ∈ candidateAxes (triangle A) (triangle B)) (hne : axis ≠ 0)
    (hflat : interior (difference (triangle A) (triangle B)) = ∅) :
    ∃ n : Vec3 ℝ, n ≠ 0 ∧ (triangle A).Behind (triangle B) n ∧
      ∃ axis ∈ candidateAxes (triangle A) (triangle B), ∃ s : ℝ, n = s • axis := by
  obtain ⟨n, hn, hlevel⟩ := exists_level_of_interior_eq_empty (difference_convex _ _) hflat
  have hperp := dot_edge_of_level hlevel
  obtain ⟨v, hv, w, hw, rfl⟩ := exists_edges_of_candidate haxis
  exact exists_separating_of_level hn hlevel haxis
    (exists_multiple_of_perpendicular hne (hperp v hv) (hperp w hw))

/-- Triangles, thin ones too, overlap exactly if the origin is an interior point of their
difference: as soon as one candidate axis is not zero, and none that separates is too short. -/
theorem overlap_triangles_iff
    (hsome : ∃ axis ∈ candidateAxes (triangle A) (triangle B), axis ≠ 0)
    (hseen : ∀ axis ∈ candidateAxes (triangle A) (triangle B),
      ¬ Overlooked (triangle A) (triangle B) axis) :
    overlap (triangle A) (triangle B) = true ↔
      (0 : Vec3 ℝ) ∈ interior (difference (triangle A) (triangle B)) := by
  obtain ⟨axis, haxis, hne⟩ := hsome
  exact overlap_iff_of_candidates (List.cons_ne_nil _ _) (List.cons_ne_nil _ _)
    (exists_separating_candidate (triangle_outlined A) (triangle_outlined B)
      (exists_separating_edges haxis hne)) hseen

/-- Short edges have short products. -/
theorem norm_candidate_le {reach : ℝ} (h : ∀ e ∈ A.edges ++ B.edges, ‖e‖ ≤ reach) {axis : Vec3 ℝ}
    (haxis : axis ∈ candidateAxes (triangle A) (triangle B)) : ‖axis‖ ≤ reach * reach := by
  obtain ⟨v, hv, w, hw, rfl⟩ := exists_edges_of_candidate haxis
  calc ‖v.cross w‖ ≤ ‖v‖ * ‖w‖ := Vec3.norm_cross_le v w
    _ ≤ reach * reach :=
      mul_le_mul (h v hv) (h w hw) (norm_nonneg w) ((norm_nonneg v).trans (h v hv))

/-- Moving the second triangle changes no candidate axis. -/
theorem candidateAxes_translated (t : Triangle ℝ) (pose : Pose ℝ) (offset : Vec3 ℝ) :
    candidateAxes (triangle A) (triangle (t.placed (pose.translated offset))) =
      candidateAxes (triangle A) (triangle (t.placed pose)) := by
  have hface : (t.placed (pose.translated offset)).faceAxis = (t.placed pose).faceAxis := by
    simp [Triangle.faceAxis, Triangle.placed, Triangle.map, Pose.translated_transformPoint]
  simp only [candidateAxes, triangle, hface, t.edges_placed_translated]

end Polytope

/-! ### Verdicts -/

/-- The points of a placed part that is a triangle are spanned by the placed corners. -/
theorem Part.regionAt_of_triangle? {part : Part ℝ} (hpart : part.Rigid) {pose : Pose ℝ}
    (hpose : pose.Rigid) {t : Triangle ℝ} (h : part.primitive.triangle? = some t) :
    part.regionAt pose = Vec3.hull (t.placed (part.rebase pose)).corners := by
  rw [← Primitive.regionAt_of_triangle? h, regionAt, image_carry hpart hpose]
  rfl

namespace PairTester

/-- The verdict for two triangles is that of the separating axis test, where they stand. -/
theorem collide_triangles (tester : PairTester ℝ) (hcolliders : tester.colliders = .empty)
    {a b : Part ℝ} {t u : Triangle ℝ} (ht : a.primitive.triangle? = some t)
    (hu : b.primitive.triangle? = some u) (poseA poseB : Pose ℝ) :
    tester.collide ⟨.part a, poseA⟩ ⟨.part b, poseB⟩ =
      Polytope.overlap (.triangle (t.placed (a.rebase poseA)))
        (.triangle (u.placed (b.rebase poseB))) := by
  rw [tester.collide_parts hcolliders]
  rcases Primitive.triangle?_cases ht with ht | ht <;>
    rcases Primitive.triangle?_cases hu with hu | hu <;> rw [ht, hu] <;> rfl

/-- Two triangles of any size, alone or of a mesh, their corners on one line or not, at any poses
and with any offsets, and a tester without overrides. As soon as one candidate axis is not zero, and
none that separates the triangles is too short to be used, triangles that collide have a common
point. If all candidate axes are too short, the triangles collide wherever they stand. -/
theorem common_point_of_triangles (tester : PairTester ℝ) (hcolliders : tester.colliders = .empty)
    (a b : Part ℝ) (ha : a.Rigid) (hb : b.Rigid) (t u : Triangle ℝ)
    (ht : a.primitive.triangle? = some t) (hu : b.primitive.triangle? = some u)
    (poseA poseB : Pose ℝ) (hA : poseA.Rigid) (hB : poseB.Rigid) :
    let polyA := Polytope.triangle (t.placed (a.rebase poseA))
    let polyB := Polytope.triangle (u.placed (b.rebase poseB))
    ((∃ axis ∈ polyA.candidateAxes polyB, axis ≠ 0) →
      (∀ axis ∈ polyA.candidateAxes polyB, ¬ polyA.Overlooked polyB axis) →
        tester.collide ⟨.part a, poseA⟩ ⟨.part b, poseB⟩ = true →
          (a.regionAt poseA ∩ b.regionAt poseB).Nonempty) ∧
      ((∀ axis ∈ polyA.candidateAxes polyB, ‖axis‖ ≤ Polytope.shortestAxis) →
        ∀ offset, tester.collide ⟨.part a, poseA⟩ ⟨.part b, poseB.translated offset⟩ = true) := by
  intro polyA polyB
  refine ⟨fun hsome hseen hcollide ↦ ?_, fun hshort offset ↦ ?_⟩
  · rw [tester.collide_triangles hcolliders ht hu] at hcollide
    obtain ⟨p, hp, q, hq, hpq⟩ :=
      interior_subset ((Polytope.overlap_triangles_iff hsome hseen).mp hcollide)
    obtain rfl := sub_eq_zero.mp hpq
    rw [Part.regionAt_of_triangle? ha hA ht, Part.regionAt_of_triangle? hb hB hu]
    exact ⟨p, hp, hq⟩
  · rw [tester.collide_triangles hcolliders ht hu, b.rebase_translated]
    refine Polytope.overlap_of_short_axes (List.cons_ne_nil _ _) (List.cons_ne_nil _ _) ?_
    rwa [Polytope.candidateAxes_translated]

/-- A needle, that is, a triangle with its corners on one line, goes through a triangle that lies
flat; and a triangle whose corners coincide collides with itself wherever it stands. -/
theorem common_point_with_needle :
    let tester : PairTester ℝ := { config := ⟨.standard, 4⟩ }
    let flat : Triangle ℝ := ⟨⟨-1, -1, 0⟩, ⟨2, -1, 0⟩, ⟨-1, 2, 0⟩⟩
    let needle : Triangle ℝ := ⟨⟨0, 0, -1⟩, ⟨0, 0, 1⟩, ⟨0, 0, 0⟩⟩
    let point : Triangle ℝ := ⟨0, 0, 0⟩
    let body (prim : Primitive ℝ) (pose : Pose ℝ) : Placed ℝ := ⟨.part (.bare prim), pose⟩
    let axes (t u : Triangle ℝ) : List (Vec3 ℝ) :=
      Polytope.candidateAxes (.triangle t) (.triangle u)
    tester.colliders = .empty ∧ (Pose.identity : Pose ℝ).Rigid ∧ needle.faceAxis = 0 ∧
      (∃ axis ∈ axes flat needle, axis ≠ 0) ∧
      (∀ axis ∈ axes flat needle,
        ¬ Polytope.Overlooked (.triangle flat) (.triangle needle) axis) ∧
      tester.collide (body (.triangle flat) .identity) (body (.meshTriangle needle) .identity) =
        true ∧
      ((Part.bare (.triangle flat)).regionAt .identity ∩
        (Part.bare (.meshTriangle needle)).regionAt .identity).Nonempty ∧
      (∀ axis ∈ axes point point, ‖axis‖ ≤ Polytope.shortestAxis) ∧
      ∀ offset, tester.collide (body (.triangle point) .identity)
        (body (.triangle point) (Pose.identity.translated offset)) = true := by
  intro tester flat needle point body axes
  have horigin : (0 : Vec3 ℝ) ∈
      interior (Polytope.difference (.triangle flat) (.triangle needle)) := by
    rw [Polytope.origin_mem_interior_difference_iff]
    intro n hn hbehind
    simp only [Polytope.Behind, Polytope.triangle, Triangle.corners, List.forall_mem_cons,
      Vec3.dot_eq, flat, needle] at hbehind
    norm_num at hbehind
    have hx : n.x = 0 := by linarith
    have hy : n.y = 0 := by linarith
    have hz : n.z = 0 := by linarith
    exact hn (Vec3.ext hx hy hz)
  have hsome : ∃ axis ∈ axes flat needle, axis ≠ 0 := by
    refine ⟨flat.faceAxis, by simp [axes, Polytope.candidateAxes, Polytope.triangle], ?_⟩
    intro hzero
    have hz := congrArg Vec3.z hzero
    norm_num [Triangle.faceAxis, Vec3.cross, flat] at hz
  have hseen : ∀ axis ∈ axes flat needle,
      ¬ Polytope.Overlooked (.triangle flat) (.triangle needle) axis := by
    rintro axis - ⟨hne, -, hbehind⟩
    have hnone := Polytope.origin_mem_interior_difference_iff.mp horigin
    exact hbehind.elim (hnone axis hne) (hnone (-axis) (neg_ne_zero.mpr hne))
  have hcollide : tester.collide (body (.triangle flat) .identity)
      (body (.meshTriangle needle) .identity) = true := by
    rw [tester.collide_triangles rfl (a := .bare _) (b := .bare _) rfl rfl]
    show Polytope.overlap (.triangle (flat.placed .identity))
      (.triangle (needle.placed .identity)) = true
    rw [flat.placed_identity, needle.placed_identity]
    exact Polytope.overlap_of_mem_interior (List.cons_ne_nil _ _) (List.cons_ne_nil _ _) horigin
  have hshort : ∀ axis ∈ axes point point, ‖axis‖ ≤ Polytope.shortestAxis := by
    intro axis haxis
    have hzero : ∀ e ∈ point.edges ++ point.edges, ‖e‖ ≤ 0 := by simp [Triangle.edges, point]
    refine (Polytope.norm_candidate_le hzero haxis).trans ?_
    rw [mul_zero]
    exact Polytope.shortestAxis_pos.le
  obtain ⟨hcommon, -⟩ := tester.common_point_of_triangles rfl (.bare (.triangle flat))
    (.bare (.meshTriangle needle)) trivial trivial flat needle rfl rfl .identity .identity
    Pose.identity_rigid Pose.identity_rigid
  obtain ⟨-, hanywhere⟩ := tester.common_point_of_triangles rfl (.bare (.triangle point))
    (.bare (.triangle point)) trivial trivial point point rfl rfl .identity .identity
    Pose.identity_rigid Pose.identity_rigid
  refine ⟨rfl, Pose.identity_rigid, ?_, hsome, hseen, hcollide, ?_, hshort, ?_⟩
  · ext <;> simp [Triangle.faceAxis, Vec3.cross, needle]
  · refine hcommon ?_ ?_ hcollide <;>
      rw [Part.rebase, flat.placed_identity, Part.rebase, needle.placed_identity]
    exacts [hsome, hseen]
  · refine hanywhere ?_
    rw [Part.rebase, point.placed_identity]
    exact hshort

/-- Two right triangles with legs of half a millionth, one length apart: they have no common point,
and in either order they collide. -/
theorem small_triangles_collide_apart :
    let tester : PairTester ℝ := { config := ⟨.standard, 4⟩ }
    let leg : ℝ := 1 / 2 ^ 21
    let corners : Triangle ℝ := ⟨0, ⟨leg, 0, 0⟩, ⟨0, leg, 0⟩⟩
    let aside : Pose ℝ := .ofPosition ⟨1, 0, 0⟩
    let part : Part ℝ := .bare (.triangle corners)
    Primitive.triangleOf? corners = .ok (.triangle corners) ∧ aside.Rigid ∧
      tester.collide ⟨.part part, .identity⟩ ⟨.part part, aside⟩ = true ∧
      tester.collide ⟨.part part, aside⟩ ⟨.part part, .identity⟩ = true ∧
      part.regionAt .identity ∩ part.regionAt aside = ∅ := by
  intro tester leg corners aside part
  have hedges (place : Vec3 ℝ) :
      ∀ e ∈ (corners.placed (.ofPosition place)).edges, ‖e‖ ≤ (1 / 10 ^ 6 : ℝ) := by
    intro e he
    rw [Vec3.norm_eq_sqrt_dot]
    refine Real.sqrt_le_iff.mpr ⟨by norm_num, ?_⟩
    simp only [Triangle.edges, Triangle.placed, Triangle.map, Pose.ofPosition_transformPoint,
      add_sub_add_left_eq_sub, List.mem_cons, List.not_mem_nil, or_false, corners] at he
    rcases he with rfl | rfl | rfl <;> norm_num [Vec3.dot_eq, leg]
  have hreach : (1 / 10 ^ 6 : ℝ) * (1 / 10 ^ 6) ≤ Polytope.shortestAxis := by
    rw [Polytope.shortestAxis, Scalar.decimal_real]
    norm_num
  have hcollide (place place' : Vec3 ℝ) : tester.collide ⟨.part part, .ofPosition place⟩
      ⟨.part part, .ofPosition place'⟩ = true := by
    rw [tester.collide_triangles rfl (t := corners) (u := corners) rfl rfl]
    refine Polytope.overlap_of_short_axes (List.cons_ne_nil _ _) (List.cons_ne_nil _ _) ?_
    exact fun axis haxis ↦ (Polytope.norm_candidate_le
      (List.forall_mem_append.mpr ⟨hedges place, hedges place'⟩) haxis).trans hreach
  have hwithin {q : Vec3 ℝ} (hq : q ∈ (Primitive.triangle corners).region) :
      (⟨0, leg⟩ : Interval ℝ).Holds (q.dot (Vec3.axis 0)) := by
    refine Interval.holds_of_mem_hull (fun p hp ↦ ?_) hq
    simp only [Triangle.corners, List.mem_cons, List.not_mem_nil, or_false, corners] at hp
    rw [Vec3.dot_axis]
    rcases hp with rfl | rfl | rfl <;> norm_num [Interval.Holds, Vec3.get, leg]
  refine ⟨?_, Pose.identity_rigid, hcollide Vec3.zero _, hcollide _ Vec3.zero, ?_⟩
  · simp [Primitive.triangleOf?, Primitive.checkPoints]
    rfl
  · refine Set.eq_empty_iff_forall_notMem.mpr fun p hp ↦ ?_
    obtain ⟨-, hleft⟩ := hwithin (Part.mem_regionAt_ofPosition.mp hp.1)
    obtain ⟨hright, -⟩ := hwithin (Part.mem_regionAt_ofPosition.mp hp.2)
    rw [Vec3.dot_axis] at hleft hright
    norm_num [Vec3.get, Vec3.zero_eq, leg] at hleft hright
    linarith

end PairTester

end Collision
