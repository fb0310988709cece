import Collision.Proofs.Box.Holds
import Collision.Shape.Basic

/-!
# The points of shapes

`Primitive.region` is the set of points of a primitive in its own frame and `Part.regionAt` that of
a placed part. Box trees see a plane only as far as its box reaches: `Primitive.nearRegion` and
`Part.nearRegionAt` are the points they see. The box lies under the plane, so that these are the
points of the box (`Primitive.boxedRegion`).

The interval that a placed part covers on an axis holds the places of its points there
(`Part.project_holds`), and the box around a part holds its points (`Part.localBox_holds`). Nothing
of this needs the sizes of a primitive to be positive; it does need the offset of a part to be
rigid.
-/

set_option autoImplicit false
set_option relaxedAutoImplicit false

namespace Collision

/-! ### Regions -/

namespace Primitive

/-- The points of the primitive. -/
def region : Primitive ℝ → Set (Vec3 ℝ)
  | sphere radius => {p | ‖p‖ ≤ radius}
  | box half => {p | |p.x| ≤ half.x ∧ |p.y| ≤ half.y ∧ |p.z| ≤ half.z}
  | cylinder radius halfHeight => {p | √(p.x * p.x + p.y * p.y) ≤ radius ∧ |p.z| ≤ halfHeight}
  | capsule radius halfHeight =>
    {p | ∃ height : ℝ, |height| ≤ halfHeight ∧ ‖p - ⟨0, 0, height⟩‖ ≤ radius}
  | plane => {p | p.z ≤ 0}
  | triangle corners | meshTriangle corners => Vec3.hull corners.corners
  | convexHull points => Vec3.hull points

theorem mem_box_region_iff {half p : Vec3 ℝ} :
    p ∈ (box half).region ↔ ∀ i, |p.get i| ≤ half.get i := by
  simp [region, Fin.forall_fin_succ, Vec3.get]

/-- The points of the primitive; of a plane those in the box that stands for it. -/
def nearRegion : Primitive ℝ → Set (Vec3 ℝ)
  | plane => {p | p.z ≤ 0 ∧ planeBox.Holds p}
  | p => p.region

/-- The points of the primitive; of a plane all points of the box that stands for it. -/
def boxedRegion : Primitive ℝ → Set (Vec3 ℝ)
  | plane => {p | planeBox.Holds p}
  | p => p.region

/-- The box that stands for a plane lies in the half-space under the plane. -/
theorem boxedRegion_eq (prim : Primitive ℝ) : prim.boxedRegion = prim.nearRegion := by
  cases prim with
  | plane =>
    refine Set.ext fun p ↦ ⟨fun hp ↦ ⟨?_, hp⟩, fun hp ↦ hp.2⟩
    have hz : |p.z - -planeExtent| ≤ planeExtent := by
      have h := hp 2
      simpa [planeBox, OrientedBox.aligned, OrientedBox.ofHalfLengths, Mat3.identity, Mat3.col,
        Vec3.axis, Vec3.ofFn, Vec3.dot_eq, Vec3.get, Vec3.replicate] using h
    have hle := (abs_le.mp hz).2
    show p.z ≤ 0
    linarith
  | _ => rfl

theorem triangle?_cases {α : Type} {prim : Primitive α} {t : Triangle α}
    (h : prim.triangle? = some t) : prim = triangle t ∨ prim = meshTriangle t := by
  cases prim with
  | triangle corners => exact .inl (congrArg triangle (Option.some_inj.mp h))
  | meshTriangle corners => exact .inr (congrArg meshTriangle (Option.some_inj.mp h))
  | _ => cases h

end Primitive

namespace Part

/-- The part is moved inside its owner by a rigid pose, if at all. -/
def Rigid : Part ℝ → Prop
  | bare _ => True
  | offset _ inner => inner.Rigid

/-- Points of the primitive of a part, in the frame of the owner. -/
def carry : Part ℝ → Set (Vec3 ℝ) → Set (Vec3 ℝ)
  | bare _, points => points
  | offset _ inner, points => inner.transformPoint '' points

/-- The points of the part when its owner stands at a pose. -/
def regionAt (part : Part ℝ) (pose : Pose ℝ) : Set (Vec3 ℝ) :=
  pose.transformPoint '' part.carry part.primitive.region

/-- The points of the part when its owner stands at a pose, as far as box trees see them. -/
def nearRegionAt (part : Part ℝ) (pose : Pose ℝ) : Set (Vec3 ℝ) :=
  pose.transformPoint '' part.carry part.primitive.nearRegion

theorem Rigid.rebase {part : Part ℝ} (hpart : part.Rigid) {pose : Pose ℝ} (hpose : pose.Rigid) :
    (part.rebase pose).Rigid := by
  cases part with
  | bare p => exact hpose
  | offset p inner => exact Pose.Rigid.compose hpose hpart

/-- Trading the offset of a part for a composed pose moves none of its points. -/
theorem image_carry {part : Part ℝ} (hpart : part.Rigid) {pose : Pose ℝ} (hpose : pose.Rigid)
    (points : Set (Vec3 ℝ)) :
    pose.transformPoint '' part.carry points = (part.rebase pose).transformPoint '' points := by
  cases part with
  | bare p => rfl
  | offset p inner =>
    show pose.transformPoint '' (inner.transformPoint '' points) = _
    rw [Set.image_image]
    exact Set.image_congr fun q _ ↦ (Pose.compose_transformPoint hpose hpart q).symm

/-- Moving the owner of a part moves its points. -/
theorem mem_regionAt_translated {part : Part ℝ} {pose : Pose ℝ} {offset p : Vec3 ℝ} :
    p ∈ part.regionAt (pose.translated offset) ↔ p - offset ∈ part.regionAt pose := by
  constructor
  · rintro ⟨q, hq, rfl⟩
    rw [Pose.translated_transformPoint, add_sub_cancel_right]
    exact ⟨q, hq, rfl⟩
  · rintro ⟨q, hq, hqp⟩
    refine ⟨q, hq, ?_⟩
    rw [Pose.translated_transformPoint, hqp, sub_add_cancel]

/-- The points of a primitive that is not turned. -/
theorem mem_regionAt_ofPosition {prim : Primitive ℝ} {position p : Vec3 ℝ} :
    p ∈ (bare prim).regionAt (.ofPosition position) ↔ p - position ∈ prim.region := by
  constructor
  · rintro ⟨q, hq, rfl⟩
    rw [Pose.ofPosition_transformPoint, add_sub_cancel_left]
    exact hq
  · intro h
    exact ⟨p - position, h, by rw [Pose.ofPosition_transformPoint, add_sub_cancel]⟩

/-- The points of a ball that is not turned. -/
theorem mem_regionAt_sphere {radius : ℝ} {center p : Vec3 ℝ} :
    p ∈ (bare (.sphere radius)).regionAt (.ofPosition center) ↔ ‖p - center‖ ≤ radius :=
  mem_regionAt_ofPosition

end Part

/-! ### Projections -/

namespace Primitive

theorem planeBox_regular : (planeBox : OrientedBox ℝ).Regular := OrientedBox.aligned_regular _ _

theorem projectPoints_holds {points : List (Vec3 ℝ)} {pose : Pose ℝ} {p : Vec3 ℝ}
    (hp : p ∈ Vec3.hull points) (axis : Vec3 ℝ) :
    (projectPoints points axis pose).Holds ((pose.transformPoint p).dot axis) := by
  have hne : points ≠ [] := by
    rintro rfl
    simp [Vec3.hull] at hp
  obtain ⟨i, hi, hholds, -, -⟩ := Interval.ofPoints?_spec hne (pose.inverseTransformVector axis)
  simp only [projectPoints, hi]
  rw [Pose.transformPoint_dot, add_comm]
  exact Interval.shift_holds (Interval.holds_of_mem_hull hholds hp) _

/-- An interval around the position holds a placed point if it reaches as far as the point does on
the axis in local coordinates. -/
theorem around_position_holds {pose : Pose ℝ} {p axis : Vec3 ℝ} {reach : ℝ}
    (h : |p.dot (pose.inverseTransformVector axis)| ≤ reach) :
    (Interval.around (pose.position.dot axis) reach).Holds ((pose.transformPoint p).dot axis) := by
  refine Interval.around_holds ?_
  rwa [Pose.transformPoint_dot, add_sub_cancel_left]

theorem abs_mul_le {a b c : ℝ} (h : |a| ≤ c) : |a * b| ≤ |b| * c := by
  rw [abs_mul, mul_comm]
  exact mul_le_mul_of_nonneg_left h (abs_nonneg b)

theorem abs_dot_le_of_box {half p : Vec3 ℝ} (hp : p ∈ (box half).region) (axis : Vec3 ℝ) :
    |p.dot axis| ≤ axis.abs.dot half := by
  obtain ⟨hx, hy, hz⟩ := hp
  refine (abs_add_le _ _).trans (add_le_add ((abs_add_le _ _).trans (add_le_add ?_ ?_)) ?_)
  · exact abs_mul_le hx
  · exact abs_mul_le hy
  · exact abs_mul_le hz

theorem abs_dot_le_of_cylinder {radius halfHeight : ℝ} {p : Vec3 ℝ}
    (hp : p ∈ (cylinder radius halfHeight).region) (axis : Vec3 ℝ) :
    |p.dot axis| ≤ halfHeight * |axis.z| + radius * √(axis.x * axis.x + axis.y * axis.y) := by
  obtain ⟨hradial, hz⟩ := hp
  have hsideways : |p.x * axis.x + p.y * axis.y| ≤
      √(p.x * p.x + p.y * p.y) * √(axis.x * axis.x + axis.y * axis.y) := by
    have h := Vec3.abs_dot_le_norm ⟨p.x, p.y, 0⟩ ⟨axis.x, axis.y, 0⟩
    simpa [Vec3.norm_eq_sqrt_dot, Vec3.dot_eq] using h
  have hle : |p.x * axis.x + p.y * axis.y| ≤ radius * √(axis.x * axis.x + axis.y * axis.y) :=
    hsideways.trans (mul_le_mul_of_nonneg_right hradial (Real.sqrt_nonneg _))
  have hup : |p.z * axis.z| ≤ halfHeight * |axis.z| := by
    rw [mul_comm halfHeight]
    exact abs_mul_le hz
  calc |p.dot axis| ≤ |p.x * axis.x + p.y * axis.y| + |p.z * axis.z| := abs_add_le _ _
    _ ≤ halfHeight * |axis.z| + radius * √(axis.x * axis.x + axis.y * axis.y) := by linarith

theorem abs_dot_le_of_capsule {radius halfHeight : ℝ} {p : Vec3 ℝ}
    (hp : p ∈ (capsule radius halfHeight).region) (axis : Vec3 ℝ) :
    |p.dot axis| ≤ halfHeight * |axis.z| + radius * ‖axis‖ := by
  obtain ⟨height, hheight, hnorm⟩ := hp
  have hball : |(p - ⟨0, 0, height⟩).dot axis| ≤ radius * ‖axis‖ :=
    (Vec3.abs_dot_le_norm _ _).trans (mul_le_mul_of_nonneg_right hnorm (norm_nonneg _))
  have hup : |height * axis.z| ≤ halfHeight * |axis.z| := by
    rw [mul_comm halfHeight]
    exact abs_mul_le hheight
  have hsplit : p.dot axis = height * axis.z + (p - ⟨0, 0, height⟩).dot axis := by
    rw [Vec3.sub_dot]
    simp [Vec3.dot_eq]
  calc |p.dot axis| ≤ |height * axis.z| + |(p - ⟨0, 0, height⟩).dot axis| := by
        rw [hsplit]
        exact abs_add_le _ _
    _ ≤ halfHeight * |axis.z| + radius * ‖axis‖ := add_le_add hup hball

theorem project_holds (prim : Primitive ℝ) {pose : Pose ℝ} (hpose : pose.Rigid) {p : Vec3 ℝ}
    (hp : p ∈ prim.nearRegion) (axis : Vec3 ℝ) :
    (prim.project axis pose).Holds ((pose.transformPoint p).dot axis) := by
  have hnorm : ‖pose.inverseTransformVector axis‖ = axis.norm :=
    Pose.norm_inverseTransformVector hpose axis
  cases prim with
  | sphere radius =>
    refine around_position_holds ?_
    rw [← hnorm]
    exact (Vec3.abs_dot_le_norm _ _).trans (mul_le_mul_of_nonneg_right hp (norm_nonneg _))
  | box half => exact around_position_holds (abs_dot_le_of_box hp _)
  | cylinder radius halfHeight => exact around_position_holds (abs_dot_le_of_cylinder hp _)
  | capsule radius halfHeight =>
    refine around_position_holds ?_
    rw [← hnorm]
    exact abs_dot_le_of_capsule hp _
  | plane =>
    exact (planeBox_regular.placed hpose).project_holds (OrientedBox.placed_holds hpose hp.2) axis
  | triangle corners => exact projectPoints_holds hp axis
  | meshTriangle corners => exact projectPoints_holds hp axis
  | convexHull points => exact projectPoints_holds hp axis

end Primitive

theorem Part.project_holds {part : Part ℝ} (hpart : part.Rigid) {pose : Pose ℝ}
    (hpose : pose.Rigid) {p : Vec3 ℝ} (hp : p ∈ part.nearRegionAt pose) (axis : Vec3 ℝ) :
    (part.project axis pose).Holds (p.dot axis) := by
  unfold Part.nearRegionAt at hp
  rw [Part.image_carry hpart hpose] at hp
  obtain ⟨q, hq, rfl⟩ := hp
  exact part.primitive.project_holds (hpart.rebase hpose) hq axis

/-! ### Boxes around parts -/

namespace Primitive

theorem localBox_regular (prim : Primitive ℝ) : prim.localBox.Regular := by
  cases prim with
  | sphere radius => exact OrientedBox.aligned_regular _ _
  | box half => exact OrientedBox.aligned_regular _ _
  | cylinder radius halfHeight => exact OrientedBox.aligned_regular _ _
  | capsule radius halfHeight => exact OrientedBox.aligned_regular _ _
  | plane => exact planeBox_regular
  | triangle corners =>
    have h := OrientedBox.triangleAxes_orthonormal corners
    exact OrientedBox.aroundPoints_regular h corners.corners
  | meshTriangle corners =>
    have h := OrientedBox.triangleAxes_orthonormal corners
    exact OrientedBox.aroundPoints_regular h corners.corners
  | convexHull points => exact OrientedBox.aroundPoints_regular (principalAxes_orthonormal _) _

theorem abs_components_le_norm (p : Vec3 ℝ) : |p.x| ≤ ‖p‖ ∧ |p.y| ≤ ‖p‖ ∧ |p.z| ≤ ‖p‖ := by
  have hx := mul_self_nonneg p.x
  have hy := mul_self_nonneg p.y
  have hz := mul_self_nonneg p.z
  rw [Vec3.norm_eq_sqrt_dot, Vec3.dot_eq]
  refine ⟨Real.abs_le_sqrt ?_, Real.abs_le_sqrt ?_, Real.abs_le_sqrt ?_⟩ <;> rw [sq] <;> linarith

theorem aligned_zero_holds {half p : Vec3 ℝ} (hx : |p.x| ≤ half.x) (hy : |p.y| ≤ half.y)
    (hz : |p.z| ≤ half.z) : (OrientedBox.aligned Vec3.zero half).Holds p := by
  rw [Vec3.zero_eq]
  refine OrientedBox.aligned_holds ?_ ?_ ?_ <;> simpa

theorem localBox_holds (prim : Primitive ℝ) {p : Vec3 ℝ} (hp : p ∈ prim.nearRegion) :
    prim.localBox.Holds p := by
  cases prim with
  | sphere radius =>
    obtain ⟨hx, hy, hz⟩ := abs_components_le_norm p
    exact aligned_zero_holds (hx.trans hp) (hy.trans hp) (hz.trans hp)
  | box half => exact aligned_zero_holds hp.1 hp.2.1 hp.2.2
  | cylinder radius halfHeight =>
    obtain ⟨hradial, hz⟩ := hp
    have hx : |p.x| ≤ √(p.x * p.x + p.y * p.y) := by
      refine Real.abs_le_sqrt ?_
      nlinarith [mul_self_nonneg p.y]
    have hy : |p.y| ≤ √(p.x * p.x + p.y * p.y) := by
      refine Real.abs_le_sqrt ?_
      nlinarith [mul_self_nonneg p.x]
    exact aligned_zero_holds (hx.trans hradial) (hy.trans hradial) hz
  | capsule radius halfHeight =>
    obtain ⟨height, hheight, hnorm⟩ := hp
    obtain ⟨hx, hy, hz⟩ := abs_components_le_norm (p - ⟨0, 0, height⟩)
    simp only [Vec3.sub_x, Vec3.sub_y, Vec3.sub_z, sub_zero] at hx hy hz
    refine aligned_zero_holds (hx.trans hnorm) (hy.trans hnorm) ?_
    have hsplit := abs_add_le height (p.z - height)
    rw [add_sub_cancel] at hsplit
    exact hsplit.trans (add_le_add hheight (hz.trans hnorm))
  | plane => exact hp.2
  | triangle corners =>
    exact OrientedBox.aroundPoints_holds (OrientedBox.triangleAxes_orthonormal corners) hp
  | meshTriangle corners =>
    exact OrientedBox.aroundPoints_holds (OrientedBox.triangleAxes_orthonormal corners) hp
  | convexHull points => exact OrientedBox.aroundPoints_holds (principalAxes_orthonormal _) hp

end Primitive

namespace Part

theorem localBox_regular {part : Part ℝ} (hpart : part.Rigid) : part.localBox.Regular := by
  cases part with
  | bare p => exact p.localBox_regular
  | offset p inner => exact p.localBox_regular.placed hpart

/-- The box around a part holds its points, wherever its owner stands. -/
theorem localBox_holds {part : Part ℝ} (hpart : part.Rigid) {pose : Pose ℝ} (hpose : pose.Rigid)
    {p : Vec3 ℝ} (hp : p ∈ part.nearRegionAt pose) : (part.localBox.placed pose).Holds p := by
  obtain ⟨q, hq, rfl⟩ := hp
  refine OrientedBox.placed_holds hpose ?_
  cases part with
  | bare prim => exact prim.localBox_holds hq
  | offset prim inner =>
    obtain ⟨r, hr, rfl⟩ := hq
    exact OrientedBox.placed_holds hpart (prim.localBox_holds hr)

end Part

end Collision
