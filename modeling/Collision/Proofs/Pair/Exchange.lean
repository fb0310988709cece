import Collision.Proofs.Pair.SeparatingAxis

/-!
# Verdicts in either order

The verdict of a pair does not depend on which body is named first (`PairTester.collide_exchanged`),
for any shapes and any overrides that are one-sided (`OverrideTable.OneSided`), as far as every pair
of primitives the shapes break up into is decided by an override or without portal refinement. Two
capsules and two planes are left out: their closed forms read the two bodies in order.

The tester re-bases offsets, breaks up first one surface and then the other, and looks up overrides
at every level. Where surfaces are not overridden, all of this is one search over the pairs of
leaves (`PairTester.collide_eq_any`), which may be made in either order. Then two leaves remain: an
override that stands in one order serves the other with its arguments exchanged
(`PairTester.overriddenCollide?_comm`), and the closed forms for two primitives are exchanged one by
one (`PairConfig.collidePrimitives_comm`).
-/

set_option autoImplicit false
set_option relaxedAutoImplicit false

namespace Collision

/-! ### Which pairs -/

namespace ShapeKind

/-- The body has flat faces. -/
def isFlat : ShapeKind → Bool
  | box | triangle | meshTriangle => true
  | _ => false

/-- The verdict for two primitives of these kinds takes no portal refinement. -/
def isDecidedDirectly : ShapeKind → ShapeKind → Bool
  | plane, _ | _, plane => true
  | sphere, sphere | capsule, capsule | sphere, capsule | capsule, sphere => true
  | sphere, k | k, sphere => k.isFlat
  | k, l => k.isFlat && l.isFlat

end ShapeKind

namespace OverrideTable

variable {φ : Type}

/-- There is a function for the pair of kinds, in one order or the other. -/
def Covers (t : OverrideTable φ) (k l : ShapeKind) : Prop :=
  (t.get? k l).isSome = true ∨ (t.get? l k).isSome = true

/-- Functions for pairs of different kinds, none made of many triangles, in one order each. -/
structure OneSided (t : OverrideTable φ) : Prop where
  not_composite : ∀ k l, t.Covers k l → k.isComposite = false
  not_self : ∀ k, t.get? k k = none
  one_order : ∀ k l, k ≠ l → (t.get? k l).isSome = true → t.get? l k = none

theorem Covers.symm {t : OverrideTable φ} {k l : ShapeKind} (h : t.Covers k l) : t.Covers l k :=
  Or.symm h

theorem OneSided.get?_eq_none {t : OverrideTable φ} (ht : t.OneSided) {k l : ShapeKind} {f : φ}
    (h : t.get? k l = some f) : t.get? l k = none := by
  rcases eq_or_ne k l with rfl | hne
  · exact ht.not_self k
  · exact ht.one_order k l hne (by rw [h]; rfl)

theorem oneSided_empty : (empty : OverrideTable φ).OneSided where
  not_composite _ _ h := h.elim nofun nofun
  not_self _ := rfl
  one_order _ _ _ h := nomatch h

theorem get?_insert_empty_isSome {k l i j : ShapeKind} {f : φ} :
    ((empty.insert k l f).get? i j).isSome = true ↔ i = k ∧ j = l := by
  have hget : (empty.insert k l f).get? i j = if (i, j) == (k, l) then some f else none := by
    unfold get? insert erase empty
    rw [List.lookup_cons, List.filter_nil, List.lookup_nil]
    cases (i, j) == (k, l) <;> rfl
  rw [hget]
  simp

/-- A function for one pair of kinds. -/
theorem oneSided_insert_empty {k l : ShapeKind} (hk : k.isComposite = false)
    (hl : l.isComposite = false) (hne : k ≠ l) (f : φ) : (empty.insert k l f).OneSided where
  not_composite i j h := by
    rcases h with h | h
    · rwa [(get?_insert_empty_isSome.mp h).1]
    · rwa [(get?_insert_empty_isSome.mp h).2]
  not_self i := by
    rw [← Option.not_isSome_iff_eq_none, get?_insert_empty_isSome]
    rintro ⟨rfl, rfl⟩
    exact hne rfl
  one_order i j _ h := by
    obtain ⟨rfl, rfl⟩ := get?_insert_empty_isSome.mp h
    rw [← Option.not_isSome_iff_eq_none, get?_insert_empty_isSome]
    exact fun h' ↦ hne h'.2

end OverrideTable

variable {α : Type} [Scalar α]

namespace PairConfig

variable {a b : Primitive α}

/-- Every other pair of primitives is left to portal refinement. -/
theorem collidePrimitives_eq_general (c : PairConfig α)
    (h : ShapeKind.isDecidedDirectly a.kind b.kind = false) (poseA poseB : Pose α) :
    c.collidePrimitives a poseA b poseB =
      c.collideGeneral (.ofPrimitive a poseA) (.ofPrimitive b poseB) := by
  cases a <;> cases b <;> first
    | contradiction
    | rfl

/-! ### Two primitives -/

variable [MirroredScalar α]

theorem collideSolids_spheres_comm (c : PairConfig α) (r1 r2 : α) (poseA poseB : Pose α) :
    c.collideSolids (.sphere r2) poseB (.sphere r1) poseA =
      c.collideSolids (.sphere r1) poseA (.sphere r2) poseB := by
  show decide ((poseA.position - poseB.position).norm < r2 + r1) =
    decide ((poseB.position - poseA.position).norm < r1 + r2)
  rw [(Vec3.sub_opposed poseB.position poseA.position).norm_eq, MirroredScalar.add_comm r2 r1]

/-- The verdict for two primitives that needs no portal refinement, in either order. -/
theorem collidePrimitives_comm (c : PairConfig α)
    (h : ShapeKind.isDecidedDirectly a.kind b.kind = true)
    (hcapsules : ¬(a.kind = .capsule ∧ b.kind = .capsule))
    (hplanes : ¬(a.kind = .plane ∧ b.kind = .plane)) (poseA poseB : Pose α) :
    c.collidePrimitives b poseB a poseA = c.collidePrimitives a poseA b poseB := by
  have hflipped (contacts : Contacts α) : (!contacts.flipped.isEmpty) = !contacts.isEmpty :=
    congrArg not List.isEmpty_map
  cases a with
  | sphere r =>
    cases b with
    | sphere s => exact collideSolids_spheres_comm c r s poseA poseB
    | box half => exact hflipped (Round.sphereBox r poseA half poseB)
    | capsule s halfHeight => exact hflipped (Round.sphereCapsule r poseA s halfHeight poseB)
    | plane => rfl
    | triangle t | meshTriangle t => exact hflipped (Round.sphereTriangle r poseA (t.placed poseB))
    | cylinder | convexHull => cases h
  | box half =>
    cases b with
    | sphere s => exact (hflipped (Round.sphereBox s poseB half poseA)).symm
    | box half' => exact Polytope.overlap_comm _ _
    | plane | triangle | meshTriangle => rfl
    | cylinder | capsule | convexHull => cases h
  | capsule r halfHeight =>
    cases b with
    | sphere s => exact (hflipped (Round.sphereCapsule s poseB r halfHeight poseA)).symm
    | capsule => exact absurd ⟨rfl, rfl⟩ hcapsules
    | plane => rfl
    | box | cylinder | triangle | meshTriangle | convexHull => cases h
  | plane =>
    cases b with
    | plane => exact absurd ⟨rfl, rfl⟩ hplanes
    | _ => rfl
  | triangle t | meshTriangle t =>
    cases b with
    | sphere s => exact (hflipped (Round.sphereTriangle s poseB (t.placed poseA))).symm
    | triangle u | meshTriangle u => exact Polytope.overlap_comm _ _
    | box | plane => rfl
    | cylinder | capsule | convexHull => cases h
  | cylinder | convexHull =>
    cases b with
    | plane => rfl
    | _ => cases h

end PairConfig

/-! ### Leaves -/

namespace Placed

/-- The bodies without offset that a body breaks up into. -/
def leaves (body : Placed α) : List (Placed α) :=
  body.shape.parts.map fun part ↦ ofPrimitive part.primitive (part.rebase body.pose)

/-- A body is its only leaf, or a surface that breaks up into its leaves. -/
theorem leaves_cases (body : Placed α) :
    body.rebase.surfaceParts? = none ∧ body.leaves = [body.rebase] ∨
      body.rebase.surfaceParts? = some body.leaves ∧ body.rebase.kind.isComposite = true := by
  obtain ⟨part | mesh | field, pose⟩ := body
  · exact .inl ⟨rfl, rfl⟩
  · refine .inr ⟨?_, rfl⟩
    simp only [leaves, Shape.parts, Shape.partsOfMesh, List.map_map]
    rfl
  · refine .inr ⟨?_, rfl⟩
    simp only [leaves, Shape.parts, Shape.partsOfMesh, List.map_map]
    rfl

end Placed

namespace PairTester

variable {t : PairTester α}

theorem overriddenCollide?_eq_none (ht : t.colliders.OneSided) {a b : Placed α}
    (h : a.kind.isComposite = true ∨ b.kind.isComposite = true) :
    t.overriddenCollide? a b = none := by
  have hcovers : ¬t.colliders.Covers a.kind b.kind := by
    intro hcovers
    rcases h with h | h
    · exact Bool.false_ne_true ((ht.not_composite _ _ hcovers).symm.trans h)
    · exact Bool.false_ne_true ((ht.not_composite _ _ hcovers.symm).symm.trans h)
  obtain ⟨hab, hba⟩ := not_or.mp hcovers
  rw [Bool.not_eq_true, Option.isSome_eq_false_iff, Option.isNone_iff_eq_none] at hab hba
  rw [overriddenCollide?, hab, hba]
  rfl

theorem collideWithSurface_eq_any (ht : t.colliders.OneSided) (a b : Placed α) :
    t.collideWithSurface a b.rebase = b.leaves.any fun q ↦ t.collideBare a q := by
  unfold collideWithSurface
  rcases b.leaves_cases with ⟨hparts, hleaves⟩ | ⟨hparts, hcomposite⟩
  · rw [hparts, hleaves, List.any_cons, List.any_nil, Bool.or_false]
  · rw [hparts, overriddenCollide?_eq_none ht (.inr hcomposite)]

/-- Two shapes overlap if a leaf of one overlaps a leaf of the other. -/
theorem collide_eq_any (ht : t.colliders.OneSided) (a b : Placed α) :
    t.collide a b = a.leaves.any fun p ↦ b.leaves.any fun q ↦ t.collideBare p q := by
  unfold collide collideRebased
  simp only [collideWithSurface_eq_any ht]
  rcases a.leaves_cases with ⟨hparts, hleaves⟩ | ⟨hparts, hcomposite⟩
  · rw [hparts, hleaves, List.any_cons, List.any_nil, Bool.or_false]
  · rw [hparts, overriddenCollide?_eq_none ht (.inl hcomposite)]

/-- An override in one order serves the other with its arguments exchanged. -/
theorem overriddenCollide?_comm (ht : t.colliders.OneSided) (a b : Placed α) :
    t.overriddenCollide? b a = t.overriddenCollide? a b := by
  unfold overriddenCollide?
  cases hab : t.colliders.get? a.kind b.kind with
  | some f => rw [ht.get?_eq_none hab]; rfl
  | none =>
    cases t.colliders.get? b.kind a.kind <;> rfl

theorem overriddenCollide?_of_covers {a b : Placed α} (h : t.colliders.Covers a.kind b.kind) :
    ∃ verdict, t.overriddenCollide? a b = some verdict := by
  unfold overriddenCollide?
  cases hab : t.colliders.get? a.kind b.kind with
  | some f => exact ⟨_, rfl⟩
  | none =>
    rcases h with h | h
    · rw [hab] at h
      cases h
    · obtain ⟨f, hba⟩ := Option.isSome_iff_exists.mp h
      rw [hba]
      exact ⟨_, rfl⟩

theorem collideBare_ofPrimitive (a b : Primitive α) (poseA poseB : Pose α) :
    t.collideBare (.ofPrimitive a poseA) (.ofPrimitive b poseB) =
      (t.overriddenCollide? (.ofPrimitive a poseA) (.ofPrimitive b poseB)).getD
        (t.config.collidePrimitives a poseA b poseB) := by
  unfold collideBare
  cases t.overriddenCollide? (.ofPrimitive a poseA) (.ofPrimitive b poseB) <;> rfl

/-- The verdict for two kinds is that of an override or takes no portal refinement, and they are not
two capsules or two planes. -/
def DecidesDirectly (t : PairTester α) (k l : ShapeKind) : Prop :=
  t.colliders.Covers k l ∨ ShapeKind.isDecidedDirectly k l = true ∧
    ¬(k = .capsule ∧ l = .capsule) ∧ ¬(k = .plane ∧ l = .plane)

variable [MirroredScalar α]

theorem collideBare_comm (ht : t.colliders.OneSided) {a b : Primitive α}
    (h : t.DecidesDirectly a.kind b.kind) (poseA poseB : Pose α) :
    t.collideBare (.ofPrimitive b poseB) (.ofPrimitive a poseA) =
      t.collideBare (.ofPrimitive a poseA) (.ofPrimitive b poseB) := by
  rw [collideBare_ofPrimitive, collideBare_ofPrimitive, overriddenCollide?_comm ht]
  rcases h with hcovers | ⟨hdirect, hcapsules, hplanes⟩
  · obtain ⟨verdict, hverdict⟩ := overriddenCollide?_of_covers
      (a := .ofPrimitive a poseA) (b := .ofPrimitive b poseB) hcovers
    rw [hverdict, Option.getD_some, Option.getD_some]
  · rw [PairConfig.collidePrimitives_comm _ hdirect hcapsules hplanes]

/-- Shapes and poses of any kind, and overrides for different kinds of primitives, each in one order
only. If every pair of primitives is overridden or decided without portal refinement, and is neither
two capsules nor two planes, then the verdict is the same in either order. -/
theorem collide_exchanged (t : PairTester α) (ht : t.colliders.OneSided) (a b : Placed α)
    (hpairs : ∀ p ∈ a.shape.parts, ∀ q ∈ b.shape.parts,
      t.DecidesDirectly p.primitive.kind q.primitive.kind) :
    t.collide a b = t.collide b a := by
  rw [collide_eq_any ht, collide_eq_any ht]
  have hleaves : ∀ p ∈ a.leaves, ∀ q ∈ b.leaves, t.collideBare q p = t.collideBare p q := by
    simp only [Placed.leaves, List.forall_mem_map]
    intro p hp q hq
    exact collideBare_comm ht (hpairs p hp q hq) _ _
  rw [Bool.eq_iff_iff]
  simp only [List.any_eq_true]
  constructor
  · rintro ⟨p, hp, q, hq, h⟩
    exact ⟨q, hq, p, hp, by rwa [hleaves p hp q hq]⟩
  · rintro ⟨q, hq, p, hp, h⟩
    exact ⟨p, hp, q, hq, by rwa [← hleaves p hp q hq]⟩

/-- A mesh of one triangle, a cylinder and a sphere that are moved inside their owners, and an
override for cylinders and mesh triangles that reads where the two bodies stand. -/
theorem collide_exchanged_mesh :
    let t : PairTester Float :=
      { config := ⟨.standard, 4⟩
        colliders := OverrideTable.empty.insert .cylinder .meshTriangle fun _ a b ↦
          decide (a.pose.position.z < b.pose.position.z) }
    let surface : Mesh Float :=
      { vertices := #[⟨0, 0, 0⟩, ⟨1, 0, 0⟩, ⟨0, 1, 0⟩]
        faces := [⟨0, 1, 2⟩]
        faces_ne_nil := by decide
        vertices_finite := by decide
        faces_inRange := by decide }
    let a : Placed Float := ⟨.mesh surface, .identity⟩
    let cylinder : Placed Float :=
      ⟨.part (.offset (.cylinder 1 2) (.ofPosition ⟨0, 0, 1⟩)), .identity⟩
    let sphere : Placed Float := ⟨.part (.offset (.sphere 1) (.ofPosition ⟨0, 0, 1⟩)), .identity⟩
    t.colliders.OneSided ∧
      (∀ p ∈ a.shape.parts, ∀ q ∈ cylinder.shape.parts,
        t.DecidesDirectly p.primitive.kind q.primitive.kind) ∧
      t.collide a cylinder = t.collide cylinder a ∧
      (∀ p ∈ a.shape.parts, ∀ q ∈ sphere.shape.parts,
        t.DecidesDirectly p.primitive.kind q.primitive.kind) ∧
      t.collide a sphere = t.collide sphere a := by
  intro t surface a cylinder sphere
  have ht : t.colliders.OneSided := OverrideTable.oneSided_insert_empty rfl rfl (by decide) _
  have hcylinder : ∀ p ∈ a.shape.parts, ∀ q ∈ cylinder.shape.parts,
      t.DecidesDirectly p.primitive.kind q.primitive.kind := by
    intro p hp q hq
    obtain ⟨u, -, rfl⟩ := List.mem_map.mp hp
    obtain rfl := List.mem_singleton.mp hq
    exact .inl (.inr rfl)
  have hsphere : ∀ p ∈ a.shape.parts, ∀ q ∈ sphere.shape.parts,
      t.DecidesDirectly p.primitive.kind q.primitive.kind := by
    intro p hp q hq
    obtain ⟨u, -, rfl⟩ := List.mem_map.mp hp
    obtain rfl := List.mem_singleton.mp hq
    exact .inr ⟨rfl, nofun, nofun⟩
  exact ⟨ht, hcylinder, collide_exchanged t ht a cylinder hcylinder, hsphere,
    collide_exchanged t ht a sphere hsphere⟩

end PairTester

end Collision
