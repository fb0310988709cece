import Collision.Geom
import Collision.Proofs.Engine.Cycle
import Collision.Proofs.Shape.Support
import Collision.Shape.Surface

/-!
# Re-basing

A part that is moved inside its owner stands, for every purpose, where the composed pose puts its
primitive. `Placed.SameBody` says that two placed shapes answer every question alike: the six
queries of a shape, and the pair tests with any settings, overrides and partners, on either side.

Everything that is asked of a part depends on its primitive and on the pose that `Part.rebase` gives
it alone. For most queries this is how they are defined; a support point is found in the local frame
and carried out through both poses, and a box is turned by both matrices, so there it rests on
composed poses acting one after the other (`Part.supportAt?_eq`, `Part.localBox_placed`).

* `Shape.offset_transparent` says that wrapping a shape in an offset, once or twice, or moving the
  vertices of a surface, is the same as composing its pose.
-/

set_option autoImplicit false
set_option relaxedAutoImplicit false

namespace Collision

/-- Two placed shapes answer every question alike. -/
structure Placed.SameBody (a b : Placed ℝ) : Prop where
  supportAt : ∀ direction,
    a.shape.supportAt? a.pose direction = b.shape.supportAt? b.pose direction
  center : a.shape.center a.pose = b.shape.center b.pose
  project : ∀ axis, a.shape.project axis a.pose = b.shape.project axis b.pose
  hullPoints : a.shape.hullPoints a.pose = b.shape.hullPoints b.pose
  surface : ∀ m : SurfaceMoments ℝ, m.addShape a.shape a.pose = m.addShape b.shape b.pose
  box : a.shape.localBox.placed a.pose = b.shape.localBox.placed b.pose
  collide : ∀ (t : PairTester ℝ) (other : Placed ℝ),
    t.collide a other = t.collide b other ∧ t.collide other a = t.collide other b
  separate : ∀ (t : PairTester ℝ) (other : Placed ℝ),
    t.separate a other = t.separate b other ∧ t.separate other a = t.separate other b

namespace Placed.SameBody

variable {a b c : Placed ℝ}

theorem trans (hab : a.SameBody b) (hbc : b.SameBody c) : a.SameBody c where
  supportAt direction := (hab.supportAt direction).trans (hbc.supportAt direction)
  center := hab.center.trans hbc.center
  project axis := (hab.project axis).trans (hbc.project axis)
  hullPoints := hab.hullPoints.trans hbc.hullPoints
  surface m := (hab.surface m).trans (hbc.surface m)
  box := hab.box.trans hbc.box
  collide t other := ⟨(hab.collide t other).1.trans (hbc.collide t other).1,
    (hab.collide t other).2.trans (hbc.collide t other).2⟩
  separate t other := ⟨(hab.separate t other).1.trans (hbc.separate t other).1,
    (hab.separate t other).2.trans (hbc.separate t other).2⟩

end Placed.SameBody

/-! ### Moved twice -/

/-- A box moved twice is a box moved by the composed pose. -/
theorem OrientedBox.placed_placed (b : OrientedBox ℝ) {outer inner : Pose ℝ} (houter : outer.Rigid)
    (hinner : inner.Rigid) : (b.placed inner).placed outer = b.placed (outer.compose inner) := by
  have hcenter := Pose.compose_transformPoint houter hinner b.center
  have haxes := Pose.compose_matrix_mul outer inner b.axes
  unfold placed
  rw [hcenter, haxes]

theorem Triangle.placed_placed (t : Triangle ℝ) {outer inner : Pose ℝ} (houter : outer.Rigid)
    (hinner : inner.Rigid) : (t.placed inner).placed outer = t.placed (outer.compose inner) := by
  have hpoint := Pose.compose_transformPoint houter hinner
  unfold placed map
  rw [hpoint, hpoint, hpoint]

/-! ### Parts -/

namespace Part

variable {part : Part ℝ} {pose : Pose ℝ}

/-- The box of a part, placed, is that of its primitive where it stands. -/
theorem localBox_placed (hpart : part.Rigid) (hpose : pose.Rigid) :
    part.localBox.placed pose = part.primitive.localBox.placed (part.rebase pose) := by
  cases part with
  | bare p => rfl
  | offset p inner => exact p.localBox.placed_placed hpose hpart

/-- Moving a part once more moves it by the pose that is nearer to the owner first. -/
theorem rebase_moved (hpart : part.Rigid) {off : Pose ℝ} (hoff : off.Rigid) (hpose : pose.Rigid) :
    (part.moved off).rebase pose = part.rebase (pose.compose off) := by
  cases part with
  | bare p => rfl
  | offset p inner => exact (Pose.compose_assoc hpose hoff inner).symm

theorem moved_rigid (hpart : part.Rigid) {off : Pose ℝ} (hoff : off.Rigid) :
    (part.moved off).Rigid :=
  hpart.rebase hoff

/-- Parts of one primitive that stands at one place are the same body. -/
theorem sameBody_of_rebase {other : Part ℝ} {otherPose : Pose ℝ} (hpart : part.Rigid)
    (hpose : pose.Rigid) (hother : other.Rigid) (hotherPose : otherPose.Rigid)
    (hprimitive : part.primitive = other.primitive)
    (hrebase : part.rebase pose = other.rebase otherPose) :
    Placed.SameBody ⟨.part part, pose⟩ ⟨.part other, otherPose⟩ := by
  have hbody : (⟨.part part, pose⟩ : Placed ℝ).rebase =
      (⟨.part other, otherPose⟩ : Placed ℝ).rebase :=
    congrArg₂ Placed.ofPrimitive hprimitive hrebase
  refine ⟨fun direction ↦ ?_, ?_, fun axis ↦ ?_, ?_, fun m ↦ ?_, ?_, fun t body ↦ ?_,
    fun t body ↦ ?_⟩
  · rw [supportAt?_eq hpart hpose, supportAt?_eq hother hotherPose, hprimitive, hrebase]
  · exact congrArg₂ Primitive.center hprimitive hrebase
  · exact congrArg₂ (fun p q ↦ Primitive.project p axis q) hprimitive hrebase
  · exact congrArg₂ Primitive.hullPoints hprimitive hrebase
  · exact congrArg₂ m.addPrimitive hprimitive hrebase
  · show part.localBox.placed pose = other.localBox.placed otherPose
    rw [localBox_placed hpart hpose, localBox_placed hother hotherPose, hprimitive, hrebase]
  · unfold PairTester.collide
    rw [hbody]
    exact ⟨rfl, rfl⟩
  · unfold PairTester.separate
    rw [hbody]
    exact ⟨rfl, rfl⟩

end Part

/-! ### Surfaces -/

namespace Mesh

/-- The mesh with its vertices moved. In exact arithmetic they are finite wherever they go. -/
noncomputable def moved (m : Mesh ℝ) (off : Pose ℝ) : Mesh ℝ where
  vertices := m.vertices.map off.transformPoint
  faces := m.faces
  faces_ne_nil := m.faces_ne_nil
  vertices_finite := fun _ _ ↦ rfl
  faces_inRange := fun f hf ↦ by
    rw [Array.size_map]
    exact m.faces_inRange f hf

theorem placed_eq (m : Mesh ℝ) (off : Pose ℝ) : m.placed off = .ok (m.moved off) :=
  ofFaces_ok (m.moved off)

theorem moved_triangleOf (m : Mesh ℝ) (off : Pose ℝ) (f : Face) (h : f.InRange m.vertices.size)
    (hmoved : f.InRange (m.moved off).vertices.size) :
    (m.moved off).triangleOf f hmoved = (m.triangleOf f h).placed off := by
  have hvertex {i : ℕ} (hi : i < m.vertices.size) (hmap : i < (m.moved off).vertices.size) :
      (m.moved off).vertices[i] = off.transformPoint m.vertices[i] := Array.getElem_map ..
  obtain ⟨hfirst, hsecond, hthird⟩ := h
  rw [triangleOf_eq _ f hmoved.1 hmoved.2.1 hmoved.2.2, hvertex hfirst, hvertex hsecond,
    hvertex hthird]
  rfl

/-- The triangles of a moved mesh are those of the mesh, each moved, in their order. -/
theorem moved_triangles (m : Mesh ℝ) (off : Pose ℝ) :
    (m.moved off).triangles = m.triangles.map (·.placed off) := by
  unfold triangles
  rw [List.map_map]
  exact List.map_congr_left fun f _ ↦ m.moved_triangleOf off f.1 (m.faces_inRange f.1 f.2) _

end Mesh

namespace Shape

/-- The parts of a mesh with moved vertices stand where those of the mesh stand at the composed
pose, in their order. -/
theorem map_placed_partsOfMesh (m : Mesh ℝ) {off pose : Pose ℝ} (hoff : off.Rigid)
    (hpose : pose.Rigid) :
    (partsOfMesh (m.moved off)).map (fun part ↦ part.triangle?.map (·.placed pose)) =
      (partsOfMesh m).map fun part ↦ part.triangle?.map (·.placed (pose.compose off)) := by
  unfold partsOfMesh
  rw [Mesh.moved_triangles, List.map_map, List.map_map, List.map_map]
  refine List.map_congr_left fun t _ ↦ ?_
  exact congrArg some (t.placed_placed hpose hoff)

/-! ### Offsets -/

/-- A shape that was wrapped in an offset is a part, moved once more. -/
theorem offset?_eq_ok {s t : Shape ℝ} {off : Pose ℝ} (h : s.offset? off = .ok t) :
    ∃ part, s = .part part ∧ t = .part (part.moved off) := by
  cases s with
  | part part => exact ⟨part, rfl, (Except.ok.inj h).symm⟩
  | mesh m => cases h
  | heightField f => cases h

theorem sameBody_offset {part : Part ℝ} (hpart : part.Rigid) {off pose : Pose ℝ} (hoff : off.Rigid)
    (hpose : pose.Rigid) :
    Placed.SameBody ⟨.part (part.moved off), pose⟩ ⟨.part part, pose.compose off⟩ :=
  Part.sameBody_of_rebase (Part.moved_rigid hpart hoff) hpose hpart (hpose.compose hoff) rfl
    (Part.rebase_moved hpart hoff hpose)

/-- A shape wrapped in an offset is the same body as the shape at the composed pose. Wrapping it
again is possible; what is stored then is one primitive under one offset, and it is the same body as
the shape at the pose composed of all three. Moving a surface is possible in exact arithmetic; its
triangles become parts of the geom, in their order, each where it stands at the composed pose. -/
theorem offset_transparent (s : Shape ℝ) (hs : s.Rigid) (off next pose : Pose ℝ) (hoff : off.Rigid)
    (hnext : next.Rigid) (hpose : pose.Rigid) :
    (∀ t, s.offset? off = .ok t →
      Placed.SameBody ⟨t, pose⟩ ⟨s, pose.compose off⟩ ∧
        ∃ u prim stored, t.offset? next = .ok u ∧ u = .part (.offset prim stored) ∧
          (Shape.primitive prim).isComposite = false ∧
          Placed.SameBody ⟨u, pose⟩ ⟨s, pose.compose (next.compose off)⟩) ∧
      ∀ (g : Geom ℝ), s.isComposite = true → ∃ moved leaves, g.addAt? s off = .ok moved ∧
        moved.parts = g.parts ++ leaves ∧
        leaves.map (fun part ↦ part.triangle?.map (·.placed pose)) =
          s.parts.map fun part ↦ part.triangle?.map (·.placed (pose.compose off)) := by
  refine ⟨fun t ht ↦ ?_, fun g hcomposite ↦ ?_⟩
  · obtain ⟨part, rfl, rfl⟩ := offset?_eq_ok ht
    have hpart : part.Rigid := hs part List.mem_cons_self
    have honce := sameBody_offset hpart hoff hpose
    have htwice := sameBody_offset (Part.moved_rigid hpart hoff) hnext hpose
    refine ⟨honce, _, part.primitive, (part.moved off).rebase next, rfl, rfl, rfl, ?_⟩
    rw [← Pose.compose_assoc hpose hnext]
    exact htwice.trans (sameBody_offset hpart hoff (hpose.compose hnext))
  · obtain ⟨m, hm⟩ := Option.isSome_iff_exists.mp hcomposite
    have hparts : s.parts = partsOfMesh m := by
      cases s with
      | part part => cases hm
      | mesh other => rw [← Option.some_inj.mp hm]; rfl
      | heightField f => rw [← Option.some_inj.mp hm]; rfl
    have hadded : g.addAt? s off = .ok (g.add (.mesh (m.moved off))) := by
      unfold Geom.addAt? placedAt?
      rw [hm]
      simp only [Mesh.placed_eq]
      rfl
    refine ⟨_, partsOfMesh (m.moved off), hadded, ?_, ?_⟩
    · unfold Geom.parts Geom.add
      rw [List.flatMap_append]
      simp [parts]
    · rw [hparts]
      exact map_placed_partsOfMesh m hoff hpose

/-- A box under two offsets that shift and turn it, and a mesh of one triangle that is moved. -/
theorem offset_transparent_box_and_blade :
    let off : Pose ℝ := .ofEuler ⟨1, 0, 0⟩ 0 0 1
    let next : Pose ℝ := .ofEuler ⟨0, 2, 0⟩ 1 0 0
    let box : Shape ℝ := .primitive (.box ⟨1, 2, 3⟩)
    ∃ blade : Shape ℝ, blade.isComposite = true ∧ blade.parts.length = 1 ∧
      (∃ t u, box.offset? off = .ok t ∧ t.offset? next = .ok u ∧
        Placed.SameBody ⟨u, off⟩ ⟨box, off.compose (next.compose off)⟩) ∧
      ∃ moved leaves, (Geom.atPose .identity).addAt? blade off = .ok moved ∧
        moved.parts = [] ++ leaves ∧ leaves.map (fun part ↦ part.triangle?.map (·.placed next)) =
          blade.parts.map fun part ↦ part.triangle?.map (·.placed (next.compose off)) := by
  intro off next box
  have hoff : off.Rigid := Rotation.ofEuler_isUnit 0 0 1
  have hnext : next.Rigid := Rotation.ofEuler_isUnit 1 0 0
  let mesh : Mesh ℝ :=
    { vertices := #[Vec3.zero, Vec3.axis 0, Vec3.axis 1]
      faces := [⟨0, 1, 2⟩]
      faces_ne_nil := List.cons_ne_nil _ _
      vertices_finite := fun _ _ ↦ rfl
      faces_inRange := fun f hf ↦ List.mem_singleton.mp hf ▸ (by decide) }
  have hblade : (Shape.mesh mesh).Rigid := by
    intro part hpart
    obtain ⟨corners, -, rfl⟩ := List.mem_map.mp hpart
    trivial
  obtain ⟨hwrapped, -⟩ :=
    offset_transparent box (primitive_rigid _) off next off hoff hnext hoff
  obtain ⟨-, hmoved⟩ := offset_transparent (.mesh mesh) hblade off next next hoff hnext hnext
  obtain ⟨-, u, -, -, hu, -, -, hsame⟩ := hwrapped _ rfl
  exact ⟨.mesh mesh, rfl, rfl, ⟨_, u, rfl, hu, hsame⟩, hmoved (.atPose .identity) rfl⟩

end Shape

end Collision
