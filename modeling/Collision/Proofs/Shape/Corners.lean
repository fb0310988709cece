import Collision.Box.Corners
import Collision.Proofs.Shape.Convex

/-!
# Corners and edges of a box

The corners of a box are the points whose components are the half lengths up to sign
(`BoxCorners.mem_all_iff`), and they span the box (`BoxCorners.hull_all`). Through every point with
two components of a corner the table of edges has an edge (`BoxCorners.exists_edge`).
-/

set_option autoImplicit false
set_option relaxedAutoImplicit false

open scoped Pointwise

namespace Collision

namespace BoxCorners

/-! ### Corners -/

variable {half : Vec3 ℝ}

theorem mem_all_iff {q : Vec3 ℝ} : q ∈ all half ↔
    (q.x = half.x ∨ q.x = -half.x) ∧ (q.y = half.y ∨ q.y = -half.y) ∧
      (q.z = half.z ∨ q.z = -half.z) := by
  have hall : all half = [⟨half.x, half.y, half.z⟩, ⟨-half.x, half.y, half.z⟩,
      ⟨half.x, -half.y, half.z⟩, ⟨-half.x, -half.y, half.z⟩, ⟨half.x, half.y, -half.z⟩,
      ⟨-half.x, half.y, -half.z⟩, ⟨half.x, -half.y, -half.z⟩, ⟨-half.x, -half.y, -half.z⟩] := by
    simp [all, corner, side, List.range, List.range.loop, Nat.testBit]
  rw [hall]
  simp only [List.mem_cons, List.not_mem_nil, or_false, Vec3.ext_iff]
  constructor
  · rintro (⟨hx, hy, hz⟩ | ⟨hx, hy, hz⟩ | ⟨hx, hy, hz⟩ | ⟨hx, hy, hz⟩ | ⟨hx, hy, hz⟩ |
      ⟨hx, hy, hz⟩ | ⟨hx, hy, hz⟩ | ⟨hx, hy, hz⟩) <;> simp [hx, hy, hz]
  · rintro ⟨hx | hx, hy | hy, hz | hz⟩ <;> simp [hx, hy, hz]

/-- A beam is spanned by its ends. -/
theorem beam_eq_convexHull (axis : Vec3 ℝ) {reach : ℝ} (h : 0 ≤ reach) :
    beam axis reach = convexHull ℝ {(-reach) • axis, reach • axis} := by
  have himage := (LinearMap.toSpanSingleton ℝ (Vec3 ℝ) axis).image_convexHull {-reach, reach}
  rw [convexHull_pair, segment_eq_Icc (neg_le_self h), Set.image_pair] at himage
  exact himage

/-- The corners of a box span it. -/
theorem hull_all (hhalf : (Primitive.box half).Valid) :
    Vec3.hull (all half) = (Primitive.box half).region := by
  obtain ⟨hx, hy, hz⟩ := hhalf
  refine Set.Subset.antisymm (convexHull_min (fun q hq ↦ ?_) (Primitive.region_convex _)) ?_
  · obtain ⟨hqx, hqy, hqz⟩ := mem_all_iff.mp hq
    exact ⟨((abs_eq hx.le).mpr hqx).le, ((abs_eq hy.le).mpr hqy).le, ((abs_eq hz.le).mpr hqz).le⟩
  · rw [Primitive.box_region_eq, beam_eq_convexHull _ hx.le, beam_eq_convexHull _ hy.le,
      beam_eq_convexHull _ hz.le, ← convexHull_add, ← convexHull_add]
    refine convexHull_mono ?_
    rintro _ ⟨x, hx, _, ⟨y, hy, z, hz, rfl⟩, rfl⟩
    rcases hx with rfl | rfl <;> rcases hy with rfl | rfl <;> rcases hz with rfl | rfl <;>
      exact mem_all_iff.mpr (by simp [Vec3.axis, Vec3.ofFn])

theorem corner_get (half : Vec3 ℝ) (n : ℕ) (i : Fin 3) :
    (corner half n).get i = side n i * half.get i := by
  fin_cases i <;> rfl

theorem abs_side (n bit : ℕ) : |(side n bit : ℝ)| = 1 := by
  unfold side
  split_ifs <;> simp

theorem half_get_pos (hhalf : (Primitive.box half).Valid) (i : Fin 3) : 0 < half.get i := by
  obtain ⟨hx, hy, hz⟩ := hhalf
  fin_cases i
  exacts [hx, hy, hz]

theorem corner_mem_region (hhalf : (Primitive.box half).Valid) (n : ℕ) :
    corner half n ∈ (Primitive.box half).region := by
  refine Primitive.mem_box_region_iff.mpr fun i ↦ ?_
  rw [corner_get, abs_mul, abs_side, one_mul, abs_of_pos (half_get_pos hhalf i)]

theorem mem_region_of_mem_all (hhalf : (Primitive.box half).Valid) {q : Vec3 ℝ}
    (hq : q ∈ all half) : q ∈ (Primitive.box half).region := by
  obtain ⟨n, -, rfl⟩ := List.mem_map.mp hq
  exact corner_mem_region hhalf n

theorem corner_mem_all {n : ℕ} (hn : n < 8) : corner half n ∈ all half :=
  List.mem_map_of_mem (List.mem_range.mpr hn)

theorem exists_corner {q : Vec3 ℝ} (h : ∀ i, q.get i = half.get i ∨ q.get i = -half.get i) :
    ∃ n < 8, corner half n = q := by
  have hmem := mem_all_iff.mpr ⟨h 0, h 1, h 2⟩
  simpa [all] using hmem

/-! ### Edges -/

theorem edges_lt : ∀ edge ∈ edges, edge.1 < 8 ∧ edge.2 < 8 := by decide

/-- The table holds each corner on the positive side with its neighbour, which is on the negative
side along the axis and on the same side along the others. -/
theorem edge_of_bit : ∀ n : Fin 8, ∀ k : Fin 3, n.val.testBit k = false →
    (n.val, n.val + 2 ^ k.val) ∈ edges ∧
      ∀ i : Fin 3, (n.val + 2 ^ k.val).testBit i = (decide (i = k) || n.val.testBit i) := by
  decide

/-- The table has the edge through a point whose components, one apart, are those of a corner. -/
theorem exists_edge {q : Vec3 ℝ} {k : Fin 3} (hk : 0 < half.get k)
    (hends : ∀ i ≠ k, q.get i = half.get i ∨ q.get i = -half.get i) :
    ∃ edge ∈ edges, corner half edge.1 = q + (half.get k - q.get k) • Vec3.axis k ∧
      corner half edge.2 = q - (half.get k + q.get k) • Vec3.axis k := by
  obtain ⟨n, hn, hcorner⟩ : ∃ n < 8, corner half n = q + (half.get k - q.get k) • Vec3.axis k := by
    refine exists_corner fun i ↦ ?_
    rw [Vec3.get_add, Vec3.get_smul, Vec3.get_axis]
    by_cases hik : k = i
    · subst hik
      left
      simp
    · simpa [hik] using hends i (Ne.symm hik)
  have hbit : n.testBit k = false := by
    have hside := congrArg (fun v ↦ v.get k) hcorner
    simp only [corner_get, Vec3.get_add, Vec3.get_smul, Vec3.get_axis, side] at hside
    by_contra hset
    rw [Bool.not_eq_false] at hset
    simp only [hset, if_true, Scalar.one_real] at hside
    linarith
  obtain ⟨hedge, hneighbour⟩ := edge_of_bit ⟨n, hn⟩ k hbit
  refine ⟨_, hedge, hcorner, Vec3.ext_get fun i ↦ ?_⟩
  have hcomponent := congrArg (fun v ↦ v.get i) hcorner
  simp only [corner_get, side, hneighbour, Vec3.get_add, Vec3.get_sub, Vec3.get_smul,
    Vec3.get_axis] at hcomponent ⊢
  by_cases hik : k = i
  · subst hik
    simp
  · simpa [hik, Ne.symm hik] using hcomponent

end BoxCorners

end Collision
