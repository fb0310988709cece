import Collision.Proofs.Box.Methods
import Collision.Proofs.Shape.Region
import Collision.Tree.Build

/-!
# What fitted boxes hold

Every fitting method takes the box of some orthonormal axes, or the smallest of several such boxes,
so the fitted box holds all the parts whatever the method is (`BoxTree.fitParts_holds`).
-/

set_option autoImplicit false
set_option relaxedAutoImplicit false

namespace Collision

namespace OrientedBox

/-! ### Given axes -/

theorem enclosing_regular {axes : Mat3 ℝ} (haxes : axes.Orthonormal) (shapes : List (Shape ℝ)) :
    (enclosing axes shapes).Regular := by
  unfold enclosing
  split_ifs
  · exact ofHalfLengths_regular haxes _ _
  · exact ofCorners_regular haxes _ _

theorem enclosing_holds {axes : Mat3 ℝ} (haxes : axes.Orthonormal) {parts : List (Part ℝ)}
    {part : Part ℝ} (hmem : part ∈ parts) (hpart : part.Rigid) {p : Vec3 ℝ}
    (hp : p ∈ part.nearRegionAt Pose.identity) :
    (enclosing axes (parts.map Shape.part)).Holds p := by
  have hspan (axis : Vec3 ℝ) : (spanOnAxis (parts.map Shape.part) axis).Holds (p.dot axis) := by
    have hmember : part.project axis Pose.identity ∈
        (parts.map Shape.part).map fun s ↦ s.project axis Pose.identity := by
      rw [List.map_map]
      exact List.mem_map.mpr ⟨part, hmem, rfl⟩
    exact Interval.span_holds hmember (Part.project_holds hpart Pose.identity_rigid hp axis)
  have hne : (parts.map Shape.part).isEmpty = false := by
    rw [List.isEmpty_map, List.isEmpty_eq_false_iff]
    exact List.ne_nil_of_mem hmem
  unfold enclosing
  rw [hne, if_neg Bool.false_ne_true]
  refine ofCorners_holds haxes fun i ↦ ?_
  match i with
  | 0 => exact hspan axes.col0
  | 1 => exact hspan axes.col1
  | 2 => exact hspan axes.col2

/-! ### Methods -/

/-- A fitted box is the tight box of some orthonormal axes. -/
theorem fitted_eq (method : FitMethod) (shapes : List (Shape ℝ)) :
    ∃ axes : Mat3 ℝ, axes.Orthonormal ∧ fitted method shapes = enclosing axes shapes := by
  obtain ⟨axes, haxes, heq⟩ := fittedBy_eq symmetricEigen method shapes
  rw [fittedBy_symmetricEigen] at heq
  exact ⟨axes, haxes.toOrthonormal, heq⟩

end OrientedBox

namespace BoxTree

theorem fitParts_regular (method : FitMethod) (parts : List (Part ℝ)) :
    (fitParts method parts).Regular := by
  obtain ⟨axes, haxes, h⟩ := OrientedBox.fitted_eq method (parts.map Shape.part)
  unfold fitParts
  rw [h]
  exact OrientedBox.enclosing_regular haxes _

/-- The box fitted to parts holds the points of each of them, wherever their owner stands. -/
theorem fitParts_holds (method : FitMethod) {parts : List (Part ℝ)} {part : Part ℝ}
    (hmem : part ∈ parts) (hpart : part.Rigid) {pose : Pose ℝ} (hpose : pose.Rigid) {p : Vec3 ℝ}
    (hp : p ∈ part.nearRegionAt pose) : ((fitParts method parts).placed pose).Holds p := by
  obtain ⟨axes, haxes, h⟩ := OrientedBox.fitted_eq method (parts.map Shape.part)
  obtain ⟨q, hq, rfl⟩ := hp
  refine OrientedBox.placed_holds hpose ?_
  unfold fitParts
  rw [h]
  refine OrientedBox.enclosing_holds haxes hmem hpart ⟨q, hq, ?_⟩
  exact Pose.identity_transformPoint q

end BoxTree

end Collision
