import Collision.Proofs.Tree.Overlap
import Collision.Proofs.Tree.Row

/-!
# Built trees bound what is below their nodes

In exact arithmetic the box of every node of a built tree holds the points of every part below the
node, in the three ways in which a box is asked: the box itself without tolerance, the sphere around
its centre, and the aligned box around it wherever the tree is placed. The rest is in
`BoxTree.BuiltOver.sound`: a box is fitted to the parts below it and not to the boxes below it.

* `Primitive.boxedRegion` is what has to be held of a primitive.
* `BoxTree.bounds_of_built_tree` is the statement for trees as they are built.
-/

set_option autoImplicit false
set_option relaxedAutoImplicit false

namespace Collision

/-! ### What is held -/

namespace OrientedBox

/-- The test without tolerance answers whether the point lies in the box. -/
theorem contains_zero_iff {b : OrientedBox ℝ} {p : Vec3 ℝ} : b.contains p 0 = true ↔ b.Holds p := by
  have hget (i : Fin 3) : (b.axes.transposeMulVec (p - b.center)).abs.get i =
      |(b.axes.col i).dot (p - b.center)| := by
    rw [Vec3.abs_get, Mat3.transposeMulVec_get]
  have htest (i : Fin 3) : (decide ((b.axes.transposeMulVec (p - b.center)).abs.get i ≤
      b.half.get i + 0) = true) ↔ |(b.axes.col i).dot (p - b.center)| ≤ b.half.get i := by
    rw [decide_eq_true_eq, hget, add_zero]
  simp only [contains, List.all_cons, List.all_nil, Bool.and_true, Bool.and_eq_true, htest]
  exact ⟨fun ⟨h0, h1, h2⟩ i ↦ by fin_cases i <;> assumption, fun h ↦ ⟨h 0, h 1, h 2⟩⟩

end OrientedBox

/-- A shape has a part: a surface has a face. -/
theorem Shape.parts_ne_nil {α : Type} [Scalar α] (s : Shape α) : s.parts ≠ [] := by
  have hmesh (m : Mesh α) : partsOfMesh m ≠ [] := by
    refine List.ne_nil_of_length_pos ?_
    rw [length_partsOfMesh]
    exact List.length_pos_of_ne_nil m.faces_ne_nil
  cases s with
  | part p => exact List.cons_ne_nil _ _
  | mesh m => exact hmesh m
  | heightField f => exact hmesh f.mesh

namespace BoxTree

/-! ### Nodes of sound trees -/

theorem Sound.of_mem_subtrees {s t : BoxTree ℝ} (h : t.Sound) (hs : s ∈ t.subtrees) : s.Sound := by
  induction t with
  | leaf l =>
    obtain rfl := List.mem_singleton.mp hs
    exact h
  | node place box left right ihLeft ihRight =>
    rcases List.mem_cons.mp hs with rfl | hs
    · exact h
    · rcases List.mem_append.mp hs with hs | hs
      · exact ihLeft h.2.1 hs
      · exact ihRight h.2.2 hs

/-- A box bounds the points of a part that it covers. -/
theorem Covers.bounds {box : OrientedBox ℝ} {part : Part ℝ} (h : Covers box part) {p : Vec3 ℝ}
    (hp : p ∈ part.carry part.primitive.boxedRegion) :
    box.contains p 0 = true ∧ ‖p - box.center‖ ≤ box.radius ∧
      ∀ pose : Pose ℝ, pose.Rigid →
        (AlignedBox.ofOriented box pose).Holds (pose.transformPoint p) := by
  obtain ⟨hregular, hplaced⟩ := h
  rw [Primitive.boxedRegion_eq] at hp
  have hholds : box.Holds p :=
    (OrientedBox.placed_holds_iff Pose.identity_rigid).mp
      (hplaced Pose.identity Pose.identity_rigid _ ⟨p, hp, rfl⟩)
  refine ⟨OrientedBox.contains_zero_iff.mpr hholds, hregular.norm_le_radius hholds,
    fun pose hpose ↦ ?_⟩
  exact AlignedBox.ofOriented_holds hregular hpose (OrientedBox.placed_holds hpose hholds)

/-! ### Trees as they are built -/

/-- The trees over any shapes, but none, however they are built: there is a tree, and the box of
every node bounds all parts below the node. -/
theorem bounds_of_built_tree (config : BuildConfig) (shapes : List (Shape ℝ)) (hne : shapes ≠ [])
    (hrigid : ∀ s ∈ shapes, s.Rigid) :
    ∃ t, build? config (shapes.flatMap Shape.parts) = some t ∧
      ∀ node ∈ t.row, ∀ l ∈ node.leaves, ∀ p ∈ l.part.carry l.part.primitive.boxedRegion,
        node.box.contains p 0 = true ∧ ‖p - node.box.center‖ ≤ node.box.radius ∧
          ∀ pose : Pose ℝ, pose.Rigid →
            (AlignedBox.ofOriented node.box pose).Holds (pose.transformPoint p) := by
  rcases build?_spec config (shapes.flatMap Shape.parts) with ⟨hnil, -⟩ | ⟨t, ht, hbuilt⟩
  · obtain ⟨s, hs⟩ := List.exists_mem_of_ne_nil shapes hne
    exact absurd (List.flatMap_eq_nil_iff.mp hnil s hs) s.parts_ne_nil
  · refine ⟨t, ht, fun node hnode l hl p hp ↦ ?_⟩
    have hsound := hbuilt.sound (Shape.Rigid.parts hrigid)
    have hnodesound := hsound.of_mem_subtrees (t.row_perm.mem_iff.mp hnode)
    exact (hnodesound.covers l.part (List.mem_map_of_mem hl)).bounds hp

/-- A ball on a plane: the box of the root holds the top of the ball and a point deep under the
plane. -/
theorem bounds_of_ball_on_plane :
    let shapes : List (Shape ℝ) := [.primitive (.sphere 1), .primitive .plane]
    shapes ≠ [] ∧ (∀ s ∈ shapes, s.Rigid) ∧
      ∃ t, build? .precise (shapes.flatMap Shape.parts) = some t ∧
        t.box.contains ⟨0, 0, 1⟩ 0 = true ∧ t.box.contains ⟨0, 0, -5⟩ 0 = true := by
  intro shapes
  have hne : shapes ≠ [] := List.cons_ne_nil _ _
  have hrigid : ∀ s ∈ shapes, s.Rigid := by
    intro s hs
    rcases List.mem_cons.mp hs with rfl | hs
    · exact Shape.primitive_rigid _
    · obtain rfl := List.mem_singleton.mp hs
      exact Shape.primitive_rigid _
  obtain ⟨t, ht, hbounds⟩ := bounds_of_built_tree .precise shapes hne hrigid
  have hroot : t ∈ t.row := t.row_perm.mem_iff.mpr t.self_mem_subtrees
  have hparts := (leavesOf_build? .precise (shapes.flatMap Shape.parts)).1
  rw [ht] at hparts
  have hleaf : ∀ part ∈ shapes.flatMap Shape.parts, ∃ l ∈ t.leaves, l.part = part :=
    fun part hpart ↦ List.mem_map.mp (hparts.mem_iff.mpr hpart)
  obtain ⟨ball, hball, hballpart⟩ := hleaf (.bare (.sphere 1)) List.mem_cons_self
  obtain ⟨plane, hplane, hplanepart⟩ := hleaf (.bare .plane) (.tail _ List.mem_cons_self)
  refine ⟨hne, hrigid, t, ht, (hbounds t hroot ball hball _ ?_).1,
    (hbounds t hroot plane hplane _ ?_).1⟩
  · rw [hballpart]
    show ‖(⟨0, 0, 1⟩ : Vec3 ℝ)‖ ≤ 1
    simp [Vec3.norm_eq_sqrt_dot, Vec3.dot_eq]
  · rw [hplanepart]
    show Primitive.planeBox.Holds ⟨0, 0, -5⟩
    have hextent : (Primitive.planeExtent : ℝ) = 1000000 := by
      rw [Primitive.planeExtent, Scalar.decimal_real]
      norm_num
    refine OrientedBox.aligned_holds ?_ ?_ ?_ <;>
      simp only [Vec3.replicate, hextent, Scalar.zero_real] <;> norm_num

end BoxTree

end Collision
