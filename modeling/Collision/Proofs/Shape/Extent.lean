import Collision.Proofs.Shape.Support

/-!
# The extent of shapes

In exact arithmetic the interval that a placed shape covers on an axis is as narrow as it can be:
its ends are places of points. `Interval.IsExtent` says this of an interval and a set of points.

* The primitives around the origin reach equally far both ways (`Primitive.Reaches.isExtent`), the
  extent of a hull is that of its corners (`Interval.hull_isExtent`), and the interval of a box is
  the extent of the points it holds (`OrientedBox.Regular.project_isExtent`).
* A placed set has the extent of the set along the axis in local coordinates, moved by the position
  (`Interval.IsExtent.image`).
* `Shape.exact_extent` puts them together: the interval of a placed shape is its extent, and what
  the shape gives as its farthest point along a direction is one of its points at the upper end.
-/

set_option autoImplicit false
set_option relaxedAutoImplicit false

namespace Collision

/-! ### Extents -/

/-- The interval is what the points cover on the axis: its ends are the least and the greatest place
of a point. -/
structure Interval.IsExtent (i : Interval ℝ) (points : Set (Vec3 ℝ)) (axis : Vec3 ℝ) : Prop where
  least : IsLeast ((fun p ↦ p.dot axis) '' points) i.lo
  greatest : IsGreatest ((fun p ↦ p.dot axis) '' points) i.hi

/-- A farthest point is at the upper end of the extent. -/
theorem IsFarthest.dot_eq_hi {points : Set (Vec3 ℝ)} {u s : Vec3 ℝ} {i : Interval ℝ}
    (h : IsFarthest points u s) (hi : i.IsExtent points u) : s.dot u = i.hi := by
  have hgreatest : IsGreatest ((fun p ↦ p.dot u) '' points) (s.dot u) :=
    ⟨⟨s, h.1, rfl⟩, Set.forall_mem_image.mpr h.2⟩
  exact hgreatest.unique hi.greatest

namespace Interval

variable {i : Interval ℝ} {points : Set (Vec3 ℝ)} {axis inside : Vec3 ℝ}

theorem IsExtent.of_holds (hholds : ∀ p ∈ points, i.Holds (p.dot axis))
    (hlo : ∃ p ∈ points, p.dot axis = i.lo) (hhi : ∃ p ∈ points, p.dot axis = i.hi) :
    i.IsExtent points axis where
  least := ⟨hlo, Set.forall_mem_image.mpr fun _ hp ↦ (hholds _ hp).1⟩
  greatest := ⟨hhi, Set.forall_mem_image.mpr fun _ hp ↦ (hholds _ hp).2⟩

/-- Moving points moves their extent, if it moves all their places on the axis alike. -/
theorem IsExtent.image (h : i.IsExtent points inside) {f : Vec3 ℝ → Vec3 ℝ} {offset : ℝ}
    (hf : ∀ p, (f p).dot axis = p.dot inside + offset) :
    (i.shift offset).IsExtent (f '' points) axis := by
  obtain ⟨⟨⟨p, hp, hlo⟩, hlower⟩, ⟨q, hq, hhi⟩, hupper⟩ := h
  refine .of_holds (Set.forall_mem_image.mpr fun r hr ↦ ?_) ⟨f p, ⟨p, hp, rfl⟩, ?_⟩
    ⟨f q, ⟨q, hq, rfl⟩, ?_⟩
  · rw [hf]
    exact shift_holds ⟨hlower ⟨r, hr, rfl⟩, hupper ⟨r, hr, rfl⟩⟩ offset
  · exact (hf p).trans (congrArg (· + offset) hlo)
  · exact (hf q).trans (congrArg (· + offset) hhi)

/-- The extent of a placed set. -/
theorem IsExtent.placed {pose : Pose ℝ}
    (h : i.IsExtent points (pose.inverseTransformVector axis)) :
    (i.shift (pose.position.dot axis)).IsExtent (pose.transformPoint '' points) axis :=
  h.image fun p ↦ (pose.transformPoint_dot p axis).trans (add_comm _ _)

theorem around_eq_shift (center reach : ℝ) :
    around center reach = (around 0 reach).shift center := by
  simp only [around, shift, zero_sub, zero_add]
  congr 1 <;> ring

/-- The corners of a hull have its extent. -/
theorem hull_isExtent {corners : List (Vec3 ℝ)} (h : corners ≠ []) (axis : Vec3 ℝ) :
    ∃ i, ofPoints? corners axis = some i ∧ i.IsExtent (Vec3.hull corners) axis := by
  obtain ⟨i, hi, hholds, ⟨p, hp, hlo⟩, q, hq, hhi⟩ := ofPoints?_spec h axis
  refine ⟨i, hi, .of_holds (fun r hr ↦ holds_of_mem_hull hholds hr) ⟨p, ?_, hlo⟩ ⟨q, ?_, hhi⟩⟩
  · exact subset_convexHull ℝ _ hp
  · exact subset_convexHull ℝ _ hq

end Interval

/-! ### Primitives -/

namespace Primitive

/-- A set that reaches equally far both ways has the interval around the origin as its extent. -/
theorem Reaches.isExtent {points : Set (Vec3 ℝ)} {axis s t : Vec3 ℝ} {reach back : ℝ}
    (h : Reaches points axis reach s) (hback : Reaches points (-axis) back t)
    (heq : back = reach) : (Interval.around 0 reach).IsExtent points axis := by
  refine .of_holds (fun p hp ↦ Interval.around_holds ?_) ⟨t, hback.mem, ?_⟩ ⟨s, h.mem, ?_⟩
  · rw [sub_zero]
    exact h.abs_dot_le p hp
  · have hdot := hback.dot_eq
    rw [Vec3.dot_neg, heq] at hdot
    show t.dot axis = 0 - reach
    linarith
  · exact h.dot_eq.trans (zero_add reach).symm

theorem abs_neg_dot (axis half : Vec3 ℝ) : (-axis).abs.dot half = axis.abs.dot half := by
  simp [Vec3.abs, Vec3.map, Vec3.dot_eq]

end Primitive

/-! ### Boxes -/

namespace OrientedBox.Regular

variable {b : OrientedBox ℝ}

/-- A box is the image of the box around the origin under its frame. -/
theorem holds_eq_image (hb : b.Regular) :
    {p | b.Holds p} = (fun p ↦ b.axes.mulVec p + b.center) '' (Primitive.box b.half).region := by
  ext p
  constructor
  · intro hp
    refine ⟨b.axes.transposeMulVec (p - b.center), ⟨hp 0, hp 1, hp 2⟩, ?_⟩
    show b.axes.mulVec (b.axes.transposeMulVec (p - b.center)) + b.center = p
    rw [hb.orthonormal.mulVec_transposeMulVec, sub_add_cancel]
  · rintro ⟨q, ⟨hx, hy, hz⟩, rfl⟩
    have hread := hb.orthonormal.transposeMulVec_mulVec q
    intro i
    show |(b.axes.col i).dot (b.axes.mulVec q + b.center - b.center)| ≤ b.half.get i
    have hcol : (b.axes.col i).dot (b.axes.mulVec q) = q.get i := by
      rw [← Mat3.transposeMulVec_get, hread]
    rw [add_sub_cancel_right, hcol]
    fin_cases i
    · exact hx
    · exact hy
    · exact hz

/-- The interval that a box covers is the extent of the points that it holds. -/
theorem project_isExtent (hb : b.Regular) (hhalf : (Primitive.box b.half).Valid) (axis : Vec3 ℝ) :
    (b.project axis).IsExtent {p | b.Holds p} axis := by
  have hcentred := (Primitive.box_reaches hhalf (b.axes.transposeMulVec axis)).isExtent
    (Primitive.box_reaches hhalf _) (Primitive.abs_neg_dot _ _)
  rw [hb.holds_eq_image, project, Interval.around_eq_shift]
  refine hcentred.image fun p ↦ ?_
  rw [Vec3.add_dot, Mat3.mulVec_dot]

end OrientedBox.Regular

theorem OrientedBox.holds_placed {b : OrientedBox ℝ} {pose : Pose ℝ} (hpose : pose.Rigid) :
    {p | (b.placed pose).Holds p} = pose.transformPoint '' {p | b.Holds p} := by
  ext p
  constructor
  · intro hp
    have hback := hpose.transformPoint_inverseTransformPoint p
    exact ⟨pose.inverseTransformPoint p, (placed_holds_iff hpose).mp (hback.symm ▸ hp), hback⟩
  · rintro ⟨q, hq, rfl⟩
    exact placed_holds hpose hq

namespace Primitive

theorem planeBox_half_valid : (box (planeBox : OrientedBox ℝ).half).Valid := by
  have hpos : (0 : ℝ) < planeExtent := by
    rw [planeExtent, Scalar.decimal_real]
    positivity
  exact ⟨hpos, hpos, hpos⟩

theorem projectPoints_isExtent {points : List (Vec3 ℝ)} (h : points ≠ []) (axis : Vec3 ℝ)
    (pose : Pose ℝ) :
    (projectPoints points axis pose).IsExtent (pose.transformPoint '' Vec3.hull points) axis := by
  obtain ⟨i, hi, hextent⟩ := Interval.hull_isExtent h (pose.inverseTransformVector axis)
  simp only [projectPoints, hi]
  exact hextent.placed

/-- The interval of a placed primitive is its extent, that of a plane the extent of its box. -/
theorem project_isExtent {prim : Primitive ℝ} (hvalid : prim.Valid) {pose : Pose ℝ}
    (hpose : pose.Rigid) (axis : Vec3 ℝ) :
    (prim.project axis pose).IsExtent (pose.transformPoint '' prim.boxedRegion) axis := by
  have hnorm : axis.norm = ‖pose.inverseTransformVector axis‖ :=
    (Pose.norm_inverseTransformVector hpose axis).symm
  cases prim with
  | sphere radius =>
    rw [project, Interval.around_eq_shift, hnorm]
    refine ((sphere_reaches hvalid _).isExtent (sphere_reaches hvalid _) ?_).placed
    rw [norm_neg]
  | box half =>
    rw [project, Interval.around_eq_shift]
    exact ((box_reaches hvalid _).isExtent (box_reaches hvalid _) (abs_neg_dot _ _)).placed
  | cylinder radius halfHeight =>
    rw [project, Interval.around_eq_shift]
    refine ((cylinder_reaches hvalid _).isExtent (cylinder_reaches hvalid _) ?_).placed
    simp only [Vec3.neg_x, Vec3.neg_y, Vec3.neg_z, abs_neg, neg_mul_neg]
  | capsule radius halfHeight =>
    rw [project, Interval.around_eq_shift, hnorm]
    refine ((capsule_reaches hvalid _).isExtent (capsule_reaches hvalid _) ?_).placed
    rw [norm_neg, Vec3.neg_z, abs_neg]
  | plane =>
    show ((planeBox.placed pose).project axis).IsExtent
      (pose.transformPoint '' {p | planeBox.Holds p}) axis
    rw [← OrientedBox.holds_placed hpose]
    exact (planeBox_regular.placed hpose).project_isExtent planeBox_half_valid axis
  | triangle corners => exact projectPoints_isExtent (List.cons_ne_nil _ _) axis pose
  | meshTriangle corners => exact projectPoints_isExtent (List.cons_ne_nil _ _) axis pose
  | convexHull points => exact projectPoints_isExtent hvalid axis pose

end Primitive

/-! ### Shapes -/

namespace Shape

/-- A part is valid and moved by a rigid pose, if at all. A surface has faces, and nothing more is
asked of it. -/
def Valid : Shape ℝ → Prop
  | part p => p.Rigid ∧ p.primitive.Valid
  | mesh _ | heightField _ => True

/-- The points of the shape, a surface filled up to the hull of its vertices; of a plane the points
of the box that stands for it. -/
def body : Shape ℝ → Set (Vec3 ℝ)
  | part p => p.carry p.primitive.boxedRegion
  | mesh m => Vec3.hull m.vertices.toList
  | heightField f => Vec3.hull f.mesh.vertices.toList

theorem Valid.outline {s : Shape ℝ} (h : s.Valid) :
    s.outline.Rigid ∧ s.outline.primitive.Valid := by
  cases s with
  | part p => exact h
  | mesh m => exact ⟨trivial, (Part.mesh_mapped m).valid⟩
  | heightField f => exact ⟨trivial, (Part.heightField_mapped f).valid⟩

theorem body_eq (s : Shape ℝ) : s.body = s.outline.carry s.outline.primitive.boxedRegion := by
  cases s <;> rfl

/-- A valid shape that is moved inside its owner by a rigid pose is valid. -/
theorem Valid.offset? {s moved : Shape ℝ} (h : s.Valid) {pose : Pose ℝ} (hpose : pose.Rigid)
    (hmoved : s.offset? pose = .ok moved) : moved.Valid := by
  cases s with
  | part p =>
    obtain rfl := Except.ok.inj hmoved
    exact ⟨Part.Rigid.rebase h.1 hpose, h.2⟩
  | mesh m => cases hmoved
  | heightField f => cases hmoved

/-- The points of a placed shape are those of its primitive where it stands. -/
theorem image_body {s : Shape ℝ} (h : s.Valid) {pose : Pose ℝ} (hpose : pose.Rigid) :
    pose.transformPoint '' s.body =
      (s.outline.rebase pose).transformPoint '' s.outline.primitive.boxedRegion := by
  rw [body_eq, Part.image_carry h.outline.1 hpose]

theorem project_isExtent {s : Shape ℝ} (h : s.Valid) {pose : Pose ℝ} (hpose : pose.Rigid)
    (axis : Vec3 ℝ) : (s.project axis pose).IsExtent (pose.transformPoint '' s.body) axis := by
  rw [image_body h hpose]
  exact Primitive.project_isExtent h.outline.2 (h.outline.1.rebase hpose) axis

theorem supportAt?_spec {s : Shape ℝ} (h : s.Valid) {pose : Pose ℝ} (hpose : pose.Rigid)
    (hplane : s.outline.primitive.kind ≠ .plane) {direction : Vec3 ℝ}
    (hlong : s.outline.primitive.LongEnough
      ((s.outline.rebase pose).inverseTransformVector direction)) :
    ∃ p, s.supportAt? pose direction = some p ∧
      IsFarthest (pose.transformPoint '' s.body) direction p := by
  have hpart : s.supportAt? pose direction = (part s.outline).supportAt? pose direction := rfl
  have hregion : s.outline.primitive.boxedRegion = s.outline.primitive.region := by
    cases hprimitive : s.outline.primitive with
    | plane => exact absurd (congrArg Primitive.kind hprimitive) hplane
    | _ => rfl
  obtain ⟨q, hq, hfarthest⟩ := Primitive.support?_spec h.outline.2 hplane hlong
  refine ⟨(s.outline.rebase pose).transformPoint q, ?_, ?_⟩
  · rw [hpart, Part.supportAt?_eq h.outline.1 hpose, hq]
    rfl
  · rw [image_body h hpose, hregion]
    exact IsFarthest.image hfarthest

/-- The interval that a placed shape covers on an axis of any length is the extent of its points. A
shape that is no plane gives along every direction longer than `1e-10` one of its points at the
upper end of that interval; for a cylinder the part of the direction across its axis has to be zero
or as long. -/
theorem exact_extent (s : Shape ℝ) (hs : s.Valid) (pose : Pose ℝ) (hpose : pose.Rigid) :
    (∀ axis : Vec3 ℝ, (s.project axis pose).IsExtent (pose.transformPoint '' s.body) axis) ∧
      (s.outline.primitive.kind ≠ .plane → ∀ direction : Vec3 ℝ, 1 / 10 ^ 10 < ‖direction‖ →
        (s.outline.primitive.kind = .cylinder →
          let inside := (s.outline.rebase pose).inverseTransformVector direction
          Primitive.sideways inside = 0 ∨ 1 / 10 ^ 10 < ‖Primitive.sideways inside‖) →
        ∃ p, s.supportAt? pose direction = some p ∧ p ∈ pose.transformPoint '' s.body ∧
          p.dot direction = (s.project direction pose).hi) := by
  refine ⟨project_isExtent hs hpose, fun hplane direction hlong hacross ↦ ?_⟩
  rw [← Primitive.shortestSupportDirection_real] at hlong hacross
  have hnorm := Pose.norm_inverseTransformVector (hs.outline.1.rebase hpose) direction
  obtain ⟨p, hp, hfarthest⟩ := supportAt?_spec hs hpose hplane ⟨hnorm.symm ▸ hlong, hacross⟩
  exact ⟨p, hp, hfarthest.1, hfarthest.dot_eq_hi (project_isExtent hs hpose direction)⟩

/-- A cylinder above the origin of its owner, which is turned over. -/
theorem exact_extent_of_turned_cylinder :
    let upright : Shape ℝ := .part (.bare (.cylinder 1 2))
    let shape : Shape ℝ := .part (.offset (.cylinder 1 2) (.ofPosition ⟨0, 0, 1⟩))
    let pose : Pose ℝ := ⟨⟨1, 0, 0⟩, ⟨0, 1, 0, 0⟩⟩
    let direction : Vec3 ℝ := ⟨3, 0, 4⟩
    Primitive.cylinder? 1 4 = .ok (.cylinder (1 : ℝ) 2) ∧
      upright.offset? (.ofPosition ⟨0, 0, 1⟩) = .ok shape ∧ shape.Valid ∧ pose.Rigid ∧
      ∃ p, shape.supportAt? pose direction = some p ∧ p ∈ pose.transformPoint '' shape.body ∧
        p.dot direction = 10 := by
  intro upright shape pose direction
  have hoffset : (Pose.ofPosition ⟨0, 0, 1⟩ : Pose ℝ).Rigid := Rotation.identity_isUnit
  have hcylinder : Primitive.cylinder? 1 4 = .ok (.cylinder (1 : ℝ) 2) := by
    rw [Primitive.cylinder?_of_pos one_pos four_pos]
    norm_num
  have hupright : upright.Valid := ⟨trivial, Primitive.cylinder?_valid hcylinder⟩
  have hmoved : upright.offset? (.ofPosition ⟨0, 0, 1⟩) = .ok shape := rfl
  have hvalid : shape.Valid := hupright.offset? hoffset hmoved
  have hpose : pose.Rigid := by
    rw [Pose.Rigid, Rotation.isUnit_iff]
    norm_num [pose]
  have hturned : pose.inverseTransformVector direction = ⟨3, 0, -4⟩ := by
    ext <;> simp [pose, direction, Pose.inverseTransformVector, Rotation.apply, Rotation.inverse,
      Rotation.vector, Vec3.cross, Vec3.mul_eq_smul]
    norm_num
  have hinside : (shape.outline.rebase pose).inverseTransformVector direction = ⟨3, 0, -4⟩ := by
    show (pose.compose (.ofPosition ⟨0, 0, 1⟩)).inverseTransformVector direction = _
    rw [Pose.compose_inverseTransformVector hpose hoffset, hturned,
      Pose.ofPosition_inverseTransformVector]
  have hacross : √((3 : ℝ) * 3 + 0 * 0) = 3 := by
    rw [mul_zero, add_zero, Real.sqrt_mul_self (by norm_num)]
  have hlong : 3 ≤ ‖direction‖ := by
    rw [Vec3.norm_eq_sqrt_dot]
    refine Real.le_sqrt_of_sq_le ?_
    norm_num [direction, Vec3.dot_eq]
  have hround : shape.outline.primitive.kind ≠ .plane := by decide
  obtain ⟨-, hsupport⟩ := exact_extent shape hvalid pose hpose
  obtain ⟨p, hp, hmem, hdot⟩ := hsupport hround direction (lt_of_lt_of_le (by norm_num) hlong)
    fun _ ↦ by
      refine .inr ?_
      rw [hinside, Primitive.norm_sideways, hacross]
      norm_num
  refine ⟨hcylinder, hmoved, hvalid, hpose, p, hp, hmem, hdot.trans ?_⟩
  have hcenter : (shape.outline.rebase pose).position.dot direction = -1 := by
    show (pose.transformPoint ⟨0, 0, 1⟩).dot direction = -1
    rw [Pose.transformPoint_dot, hturned]
    norm_num [pose, direction, Vec3.dot_eq]
  show (shape.outline.rebase pose).position.dot direction + (2 * |_| + 1 * √_) = (10 : ℝ)
  rw [hcenter, hinside, hacross]
  norm_num

end Shape

end Collision
