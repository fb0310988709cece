import Collision.Proofs.Engine.Cycle
import Collision.Proofs.Shape.Support
import Mathlib.Logic.Relation

/-!
# Geoms and their trees through edits

An edit may leave the tree of a geom behind its shapes, and then marks it as stale:
`Geom.Consistent` says that a tree not marked was built over the shapes there are, by some settings,
and holds after every edit (`Geom.Edit.consistent`). Once a tree is up to date, the world box of the
geom holds the points of its parts (`Geom.Consistent.worldBox?_holds`), and two geoms with parts
that touch are found to overlap if the test of these parts says so (`Geom.collide_of_touching`).
-/

set_option autoImplicit false
set_option relaxedAutoImplicit false

namespace Collision

/-! ### Shapes moved inside a geom -/

namespace Shape

theorem partsOfMesh_rigid (m : Mesh ℝ) : ∀ part ∈ partsOfMesh m, part.Rigid := by
  intro part hpart
  obtain ⟨t, -, rfl⟩ := List.mem_map.mp hpart
  trivial

theorem Rigid.placedAt? {s moved : Shape ℝ} (hs : s.Rigid) {pose : Pose ℝ} (hpose : pose.Rigid)
    (h : s.placedAt? pose = .ok moved) : moved.Rigid := by
  cases s with
  | part p =>
    obtain rfl := Except.ok.inj h
    intro part hpart
    obtain rfl := List.mem_singleton.mp hpart
    exact (hs p List.mem_cons_self).rebase hpose
  | mesh m =>
    obtain ⟨placed, -, h⟩ := bind_ok h
    obtain rfl := Except.ok.inj h
    exact partsOfMesh_rigid placed
  | heightField f =>
    obtain ⟨placed, -, h⟩ := bind_ok h
    obtain rfl := Except.ok.inj h
    exact partsOfMesh_rigid placed

end Shape

namespace Geom

/-! ### Edits -/

/-- One edit of a geom: every way in which it can be changed by its owner. -/
inductive Edit : Geom ℝ → Geom ℝ → Prop
  | add {g : Geom ℝ} {s : Shape ℝ} (hs : s.Rigid) : Edit g (g.add s)
  | addAt {g next : Geom ℝ} {s : Shape ℝ} {pose : Pose ℝ} (hs : s.Rigid) (hpose : pose.Rigid)
      (h : g.addAt? s pose = .ok next) : Edit g next
  | setPose {g : Geom ℝ} {pose : Pose ℝ} (hpose : pose.Rigid) : Edit g (g.setPose pose)
  | setPosition (g : Geom ℝ) (position : Vec3 ℝ) : Edit g (g.setPosition position)
  | setRotation {g : Geom ℝ} {rotation : Rotation ℝ} (hrotation : rotation.IsUnit) :
      Edit g (g.setRotation rotation)
  | setEuler (g : Geom ℝ) (roll pitch yaw : ℝ) : Edit g (g.setEuler roll pitch yaw)
  | setRemembered (g : Geom ℝ) (count : ℕ) : Edit g (g.setRemembered count)
  | build (g : Geom ℝ) (config : BuildConfig) : Edit g (g.build config)

/-- The geom can be made from an empty one by edits. -/
def Made (g : Geom ℝ) : Prop :=
  ∃ pose : Pose ℝ, pose.Rigid ∧ Relation.ReflTransGen Edit (atPose pose) g

/-- The tree is built over the shapes there are, by some settings. -/
def UpToDate (g : Geom ℝ) : Prop := ∃ config, g.tree? = BoxTree.build? config g.parts

/-- The geom and its shapes stand at rigid poses, and the tree is up to date unless it is stale. -/
structure Consistent (g : Geom ℝ) : Prop where
  pose : g.pose.Rigid
  shapes : ∀ s ∈ g.shapes, s.Rigid
  upToDate : g.stale = false → g.UpToDate

theorem atPose_consistent {pose : Pose ℝ} (hpose : pose.Rigid) : (atPose pose).Consistent where
  pose := hpose
  shapes := fun _ hs ↦ absurd hs List.not_mem_nil
  upToDate := fun _ ↦ ⟨{}, (BoxTree.build?_nil {}).symm⟩

namespace Consistent

variable {g : Geom ℝ}

theorem add (hg : g.Consistent) {s : Shape ℝ} (hs : s.Rigid) : (g.add s).Consistent where
  pose := hg.pose
  shapes := by
    intro other hother
    rcases List.mem_append.mp hother with hother | hother
    · exact hg.shapes other hother
    · obtain rfl := List.mem_singleton.mp hother
      exact hs
  upToDate := nofun

theorem setPose (hg : g.Consistent) {pose : Pose ℝ} (hpose : pose.Rigid) :
    (g.setPose pose).Consistent :=
  ⟨hpose, hg.shapes, hg.upToDate⟩

theorem build (hg : g.Consistent) (config : BuildConfig) : (g.build config).Consistent :=
  ⟨hg.pose, hg.shapes, fun _ ↦ ⟨config, rfl⟩⟩

theorem rebuildIfStale (hg : g.Consistent) (config : BuildConfig) :
    (g.rebuildIfStale config).Consistent ∧ (g.rebuildIfStale config).UpToDate := by
  unfold Geom.rebuildIfStale
  split_ifs with hstale
  · exact ⟨hg.build config, config, rfl⟩
  · exact ⟨hg, hg.upToDate (Bool.not_eq_true _ ▸ hstale)⟩

theorem parts_rigid (hg : g.Consistent) : ∀ part ∈ g.parts, part.Rigid :=
  Shape.Rigid.parts hg.shapes

end Consistent

theorem Edit.consistent {g next : Geom ℝ} (h : Edit g next) (hg : g.Consistent) :
    next.Consistent := by
  cases h with
  | add hs => exact hg.add hs
  | addAt hs hpose h =>
    obtain ⟨moved, hmoved, h⟩ := bind_ok h
    obtain rfl := Except.ok.inj h
    exact hg.add (hs.placedAt? hpose hmoved)
  | setPose hpose => exact hg.setPose hpose
  | setPosition position => exact hg.setPose hg.pose
  | setRotation hrotation => exact hg.setPose hrotation
  | setEuler roll pitch yaw => exact hg.setPose (Rotation.ofEuler_isUnit roll pitch yaw)
  | setRemembered count => exact ⟨hg.pose, hg.shapes, hg.upToDate⟩
  | build config => exact hg.build config

theorem Made.consistent {g : Geom ℝ} (h : g.Made) : g.Consistent := by
  obtain ⟨pose, hpose, hedits⟩ := h
  induction hedits with
  | refl => exact atPose_consistent hpose
  | tail _ hedit ih => exact hedit.consistent ih

/-! ### Geoms with trees that are up to date -/

/-- Every part is that of a leaf. -/
theorem UpToDate.exists_leaf {g : Geom ℝ} (hg : g.UpToDate) {part : Part ℝ}
    (hpart : part ∈ g.parts) :
    ∃ l ∈ BoxTree.leavesOf g.tree?, l.part = part := by
  obtain ⟨config, htree⟩ := hg
  obtain ⟨hperm, -⟩ := BoxTree.leavesOf_build? config g.parts
  rw [htree]
  exact List.mem_map.mp (hperm.mem_iff.mpr hpart)

theorem Consistent.worldBox?_holds {g : Geom ℝ} (hg : g.Consistent) (hbuilt : g.UpToDate)
    {part : Part ℝ} (hpart : part ∈ g.parts) :
    ∃ box, g.worldBox? = some box ∧ ∀ p ∈ part.nearRegionAt g.pose, box.Holds p := by
  obtain ⟨config, htree⟩ := hbuilt
  rcases BoxTree.build?_spec config g.parts with ⟨hnil, -⟩ | ⟨t, ht, hover⟩
  · rw [hnil] at hpart
    exact absurd hpart List.not_mem_nil
  · have hsound := hover.sound hg.parts_rigid
    obtain ⟨hregular, hholds⟩ := hsound.covers part (hover.parts_perm.mem_iff.mpr hpart)
    refine ⟨AlignedBox.ofOriented t.box g.pose, by rw [worldBox?, htree, ht]; rfl, fun p hp ↦ ?_⟩
    exact AlignedBox.ofOriented_holds hregular hg.pose (hholds g.pose hg.pose p hp)

theorem collide_of_touching {a b : Geom ℝ} (ha : a.Consistent) (hb : b.Consistent)
    (hbuiltA : a.UpToDate) (hbuiltB : b.UpToDate) {x y : Part ℝ} (hx : x ∈ a.parts)
    (hy : y ∈ b.parts) {p : Vec3 ℝ} (hpx : p ∈ x.nearRegionAt a.pose)
    (hpy : p ∈ y.nearRegionAt b.pose) {tester : PairTester ℝ}
    (htest : tester.collide ⟨.part x, a.pose⟩ ⟨.part y, b.pose⟩ = true) :
    a.collide b tester = true := by
  obtain ⟨l, hl, rfl⟩ := hbuiltA.exists_leaf hx
  obtain ⟨m, hm, rfl⟩ := hbuiltB.exists_leaf hy
  obtain ⟨configA, htreeA⟩ := hbuiltA
  obtain ⟨configB, htreeB⟩ := hbuiltB
  refine (collide_iff a b tester).mpr ⟨(l, m), ?_, htest⟩
  rw [htreeA] at hl ⊢
  rw [htreeB] at hm ⊢
  exact BoxTree.mem_overlapsOf ha.parts_rigid hb.parts_rigid ha.pose hb.pose hl hm hpx hpy

end Geom

end Collision
