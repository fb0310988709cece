import Collision.Pair.Tester
import Collision.Proofs.Pair.HalfSpace

/-!
# Pairs with closed forms

`Primitive.HasClosedForm` are the pairs of a sphere or a plane with a body for which the contacts
are computed in closed form. `Part.Overlaps` says when such a pair overlaps: a plane and a body if
some point of the body is strictly below the plane, and two round bodies if their cores are closer
than their radii together.

The verdict and the contacts of a pair are found by two case distinctions of their own, with
arguments exchanged and contacts flipped in some of the cases. `PairConfig.Settles` says of an
ordered pair that both agree with the overlap, however the second body is moved; it holds of the
pairs with a closed form in either order (`PairConfig.settles`). Without overrides a tester passes
on what is said of the primitives, wherever their offsets put them.
-/

set_option autoImplicit false
set_option relaxedAutoImplicit false

namespace Collision

theorem Pose.translated_zero (pose : Pose ℝ) : pose.translated 0 = pose := by
  rw [translated, add_zero]

/-! ### Distances of sets -/

/-- The distance of two sets of points. -/
noncomputable def setDistance (s t : Set (Vec3 ℝ)) : ℝ := sInf (Set.image2 dist s t)

theorem setDistance_lt_iff {s t : Set (Vec3 ℝ)} (hs : s.Nonempty) (ht : t.Nonempty) {reach : ℝ} :
    setDistance s t < reach ↔ ∃ p ∈ s, ∃ q ∈ t, ‖q - p‖ < reach := by
  have hbelow : BddBelow (Set.image2 dist s t) := by
    refine ⟨0, ?_⟩
    rintro _ ⟨p, -, q, -, rfl⟩
    exact dist_nonneg
  rw [setDistance, csInf_lt_iff hbelow (hs.image2 ht)]
  constructor
  · rintro ⟨_, ⟨p, hp, q, hq, rfl⟩, hlt⟩
    exact ⟨p, hp, q, hq, by rwa [← dist_eq_norm, dist_comm]⟩
  · rintro ⟨p, hp, q, hq, hlt⟩
    exact ⟨_, ⟨p, hp, q, hq, rfl⟩, by rwa [dist_comm, dist_eq_norm]⟩

/-! ### Overlap of placed parts -/

namespace Part

/-- The points of the core of the part when its owner stands at a pose. -/
def coreAt (part : Part ℝ) (pose : Pose ℝ) : Set (Vec3 ℝ) :=
  pose.transformPoint '' part.carry part.primitive.core

/-- The points strictly below a plane when its owner stands at a pose. -/
def belowAt (part : Part ℝ) (pose : Pose ℝ) : Set (Vec3 ℝ) :=
  pose.transformPoint '' part.carry {p | p.z < 0}

/-- The overlap of two placed parts of which one is a sphere or a plane: some point of the other
part is strictly below the plane, or the cores are closer than the radii together. -/
def Overlaps (a : Part ℝ) (poseA : Pose ℝ) (b : Part ℝ) (poseB : Pose ℝ) : Prop :=
  if a.primitive.kind = .plane then (b.regionAt poseB ∩ a.belowAt poseA).Nonempty
  else if b.primitive.kind = .plane then (a.regionAt poseA ∩ b.belowAt poseB).Nonempty
  else setDistance (a.coreAt poseA) (b.coreAt poseB) <
    a.primitive.coreRadius + b.primitive.coreRadius

theorem rebase_translated (part : Part ℝ) (pose : Pose ℝ) (offset : Vec3 ℝ) :
    part.rebase (pose.translated offset) = (part.rebase pose).translated offset := by
  cases part with
  | bare prim => rfl
  | offset prim inner => exact Pose.translated_compose pose inner offset

/-- Trading offsets for poses does not change what overlaps. -/
theorem overlaps_rebase {a b : Part ℝ} (ha : a.Rigid) (hb : b.Rigid) {poseA poseB : Pose ℝ}
    (hposeA : poseA.Rigid) (hposeB : poseB.Rigid) : a.Overlaps poseA b poseB ↔
      (bare a.primitive).Overlaps (a.rebase poseA) (bare b.primitive) (b.rebase poseB) := by
  unfold Overlaps coreAt belowAt regionAt
  rw [image_carry ha hposeA, image_carry ha hposeA, image_carry ha hposeA, image_carry hb hposeB,
    image_carry hb hposeB, image_carry hb hposeB]
  rfl

end Part

/-! ### Ordered pairs -/

namespace Primitive

/-- The pairs of a sphere or a plane with a body for which there is a closed form. -/
def HasClosedForm (a b : Primitive ℝ) : Prop :=
  match a with
  | sphere _ => b.HasRoundForm
  | plane => b.kind ≠ .plane ∧ b.kind ≠ .cylinder
  | box _ | cylinder .. | capsule .. | triangle _ | meshTriangle _ | convexHull _ => False

theorem HasRoundForm.kind_ne_plane {b : Primitive ℝ} (h : b.HasRoundForm) : b.kind ≠ .plane := by
  rintro hkind
  cases b with
  | plane => exact h
  | _ => cases hkind

theorem core_nonempty {prim : Primitive ℝ} (hvalid : prim.Valid) : prim.core.Nonempty := by
  obtain ⟨p, hp, -⟩ := prim.center_mem hvalid .identity
  obtain ⟨q, hq, -⟩ := (prim.mem_region_iff p).mp hp
  exact ⟨q, hq⟩

end Primitive

namespace PairConfig

/-- The verdict and the contacts of two placed primitives agree with their overlap. -/
structure Settles (c : PairConfig ℝ) (a : Primitive ℝ) (poseA : Pose ℝ) (b : Primitive ℝ)
    (poseB : Pose ℝ) : Prop where
  collide : c.collidePrimitives a poseA b poseB = true ↔
    (Part.bare a).Overlaps poseA (.bare b) poseB
  separate : (c.separatePrimitives a poseA b poseB).Resolve fun offset ↦
    (Part.bare a).Overlaps poseA (.bare b) (poseB.translated offset)

theorem Settles.of_overlap {c : PairConfig ℝ} {a b : Primitive ℝ} {poseA poseB : Pose ℝ}
    {overlap : Vec3 ℝ → Prop}
    (hoverlap : ∀ offset, (Part.bare a).Overlaps poseA (.bare b) (poseB.translated offset) ↔
      overlap offset)
    (hcollide : c.collidePrimitives a poseA b poseB = true ↔ overlap 0)
    (hseparate : (c.separatePrimitives a poseA b poseB).Resolve overlap) :
    c.Settles a poseA b poseB where
  collide := by
    rw [hcollide, ← hoverlap 0, Pose.translated_zero]
  separate := by simpa only [hoverlap] using hseparate

/-! ### Spheres -/

theorem overlaps_iff_near_cores (a b : Primitive ℝ) (ha : a.kind ≠ .plane) (hb : b.kind ≠ .plane)
    (hvalidA : a.Valid) (hvalidB : b.Valid) (poseA poseB : Pose ℝ) :
    (Part.bare a).Overlaps poseA (.bare b) poseB ↔
      ∃ p ∈ poseA.transformPoint '' a.core, ∃ q ∈ poseB.transformPoint '' b.core,
        ‖q - p‖ < a.coreRadius + b.coreRadius := by
  have hdistance : (Part.bare a).Overlaps poseA (.bare b) poseB ↔
      setDistance (poseA.transformPoint '' a.core) (poseB.transformPoint '' b.core) <
        a.coreRadius + b.coreRadius := by
    rw [Part.Overlaps, if_neg (by exact ha), if_neg (by exact hb)]
    rfl
  rw [hdistance, setDistance_lt_iff ((Primitive.core_nonempty hvalidA).image _)
    ((Primitive.core_nonempty hvalidB).image _)]

section Spheres

variable {radius : ℝ} {b : Primitive ℝ} {poseA poseB : Pose ℝ} {contacts : Contacts ℝ}

theorem overlaps_sphere_iff (hradius : 0 < radius) (hform : b.HasRoundForm) (hvalid : b.Valid)
    (offset : Vec3 ℝ) :
    (Part.bare (.sphere radius)).Overlaps poseA (.bare b) (poseB.translated offset) ↔
      Round.Near (poseB.transformPoint '' b.core) poseA.position (radius + b.coreRadius)
        offset := by
  rw [overlaps_iff_near_cores (.sphere radius) b nofun hform.kind_ne_plane hradius hvalid,
    Primitive.core, Set.image_singleton, Pose.transformPoint_zero]
  simp only [Set.mem_singleton_iff, exists_eq_left, Set.exists_mem_image,
    Pose.translated_transformPoint, Round.Near]
  rfl

theorem overlaps_sphere_flipped_iff (hradius : 0 < radius) (hform : b.HasRoundForm)
    (hvalid : b.Valid) (offset : Vec3 ℝ) :
    (Part.bare b).Overlaps poseB (.bare (.sphere radius)) (poseA.translated offset) ↔
      Round.Near (poseB.transformPoint '' b.core) poseA.position (radius + b.coreRadius)
        (-offset) := by
  have hnorm (x : Vec3 ℝ) : ‖poseA.position + offset - x‖ = ‖x + -offset - poseA.position‖ := by
    rw [norm_sub_rev]
    congr 1
    abel
  have hcenter : (poseA.translated offset).transformPoint '' (Primitive.sphere radius).core =
      {poseA.position + offset} := by
    rw [Primitive.core, Set.image_singleton, Pose.transformPoint_zero]
    rfl
  rw [overlaps_iff_near_cores b (.sphere radius) hform.kind_ne_plane (by rintro ⟨⟩) hvalid hradius,
    hcenter]
  simp only [Set.mem_singleton_iff, exists_eq_left, hnorm, Round.Near, add_comm radius]
  rfl

theorem collidePrimitives_sphere (c : PairConfig ℝ)
    (h : Round.ordered? (.sphere radius) poseA b poseB = some contacts) :
    c.collidePrimitives (.sphere radius) poseA b poseB = !contacts.isEmpty := by
  cases b with
  | sphere r =>
    obtain rfl := Option.some_inj.mp h
    show decide ((poseB.position - poseA.position).norm < radius + r) = _
    simp only [Round.sphereSphere, Round.contact]
    by_cases happart : radius + r ≤ (poseB.position - poseA.position).norm
    · simpa [if_pos happart] using happart
    · simpa [if_neg happart] using happart
  | box half => simp only [collidePrimitives, collideSolids, Round.contacts?, h]
  | capsule r halfHeight => simp only [collidePrimitives, collideSolids, Round.contacts?, h]
  | triangle t => simp only [collidePrimitives, collideSolids, Round.contacts?, h]
  | meshTriangle t => simp only [collidePrimitives, collideSolids, Round.contacts?, h]
  | cylinder r halfHeight => cases h
  | plane => cases h
  | convexHull points => cases h

theorem separatePrimitives_of_contacts? (c : PairConfig ℝ) {a : Primitive ℝ}
    (ha : a.kind ≠ .plane) (hb : b.kind ≠ .plane)
    (h : Round.contacts? a poseA b poseB = some contacts) :
    c.separatePrimitives a poseA b poseB = contacts := by
  unfold separatePrimitives
  split
  · exact absurd rfl ha
  · exact absurd rfl hb
  · rw [h]

theorem settles_sphere (c : PairConfig ℝ) (hradius : 0 < radius) (hform : b.HasRoundForm)
    (hvalid : b.Valid) (poseA : Pose ℝ) (hposeB : poseB.Rigid) :
    c.Settles (.sphere radius) poseA b poseB := by
  obtain ⟨contacts, hordered, hresolve⟩ := Round.ordered?_resolve hradius hform hvalid poseA hposeB
  have hcontacts := c.separatePrimitives_of_contacts? (a := .sphere radius) nofun
    hform.kind_ne_plane (by rw [Round.contacts?, hordered])
  refine .of_overlap (overlaps_sphere_iff hradius hform hvalid) ?_ (hcontacts ▸ hresolve)
  rw [collidePrimitives_sphere c hordered, ← hresolve.ne_nil_iff]
  simp

/-- A partner that is no sphere goes first only in the call: the contacts are those of the sphere
with the partner, flipped. -/
theorem contacts?_flipped (hsphere : b.kind ≠ .sphere)
    (h : Round.ordered? (.sphere radius) poseA b poseB = some contacts) :
    Round.contacts? b poseB (.sphere radius) poseA = some contacts.flipped := by
  have hfirst : Round.ordered? b poseB (.sphere radius) poseA = none := by
    cases b with
    | sphere r => exact absurd rfl hsphere
    | _ => rfl
  simp only [Round.contacts?, hfirst, h, Option.map_some]

theorem collidePrimitives_flipped (c : PairConfig ℝ) (hsphere : b.kind ≠ .sphere)
    (hplane : b.kind ≠ .plane)
    (h : Round.ordered? (.sphere radius) poseA b poseB = some contacts) :
    c.collidePrimitives b poseB (.sphere radius) poseA = !contacts.flipped.isEmpty := by
  have hflipped := contacts?_flipped hsphere h
  cases b <;> first
    | exact absurd rfl hplane
    | exact absurd rfl hsphere
    | simp only [collidePrimitives, collideSolids, hflipped]

theorem settles_sphere_flipped (c : PairConfig ℝ) (hradius : 0 < radius) (hform : b.HasRoundForm)
    (hsphere : b.kind ≠ .sphere) (hvalid : b.Valid) (poseA : Pose ℝ) (hposeB : poseB.Rigid) :
    c.Settles b poseB (.sphere radius) poseA := by
  obtain ⟨contacts, hordered, hresolve⟩ := Round.ordered?_resolve hradius hform hvalid poseA hposeB
  have hplane := hform.kind_ne_plane
  have hcontacts := c.separatePrimitives_of_contacts? (b := .sphere radius) hplane nofun
    (contacts?_flipped hsphere hordered)
  refine .of_overlap (overlaps_sphere_flipped_iff hradius hform hvalid) ?_
    (hcontacts ▸ hresolve.flipped)
  rw [c.collidePrimitives_flipped hsphere hplane hordered, ← hresolve.flipped.ne_nil_iff]
  simp

end Spheres

/-! ### Planes -/

section Planes

variable {b : Primitive ℝ} {poseA poseB : Pose ℝ}

theorem overlaps_plane_iff (hposeA : poseA.Rigid) (offset : Vec3 ℝ) :
    (Part.bare .plane).Overlaps poseA (.bare b) (poseB.translated offset) ↔
      (HalfSpace.ofPose poseA).Below (poseB.transformPoint '' b.region) offset := by
  have hbelow (p : Vec3 ℝ) : p ∈ (Part.bare .plane).belowAt poseA ↔
      (HalfSpace.ofPose poseA).height p < 0 := (HalfSpace.ofPose_height_neg_iff hposeA p).symm
  rw [Part.Overlaps, if_pos (by rfl)]
  constructor
  · rintro ⟨_, ⟨q, hq, rfl⟩, hp⟩
    rw [hbelow, Pose.translated_transformPoint] at hp
    exact ⟨_, ⟨q, hq, rfl⟩, hp⟩
  · rintro ⟨_, ⟨q, hq, rfl⟩, hlt⟩
    rw [← Pose.translated_transformPoint, ← hbelow] at hlt
    exact ⟨_, ⟨q, hq, rfl⟩, hlt⟩

theorem overlaps_plane_flipped_iff (hb : b.kind ≠ .plane) (hposeA : poseA.Rigid)
    (offset : Vec3 ℝ) :
    (Part.bare b).Overlaps poseB (.bare .plane) (poseA.translated offset) ↔
      (HalfSpace.ofPose poseA).Below (poseB.transformPoint '' b.region) (-offset) := by
  have hbelow (p : Vec3 ℝ) : p ∈ (Part.bare .plane).belowAt (poseA.translated offset) ↔
      (HalfSpace.ofPose poseA).height (p + -offset) < 0 := by
    refine (HalfSpace.ofPose_height_neg_iff (hposeA.translated offset) p).symm.trans ?_
    show (poseA.axis 2).dot (p - (poseA.position + offset)) < 0 ↔
      (poseA.axis 2).dot (p + -offset - poseA.position) < 0
    rw [← sub_sub, sub_right_comm, sub_eq_add_neg p]
  rw [Part.Overlaps, if_neg (by exact hb), if_pos (by rfl)]
  exact exists_congr fun p ↦ and_congr_right fun _ ↦ hbelow p

theorem deepestPoint_ne_nil_iff (hvalid : b.Valid) (hkind : b.kind ≠ .plane)
    (hcylinder : b.kind ≠ .cylinder) (hposeA : poseA.Rigid) (hposeB : poseB.Rigid) :
    (!((HalfSpace.ofPose poseA).deepestPoint (.ofPrimitive b poseB)).isEmpty) = true ↔
      (HalfSpace.ofPose poseA).Below (poseB.transformPoint '' b.region) 0 := by
  have hnormal : (HalfSpace.ofPose poseA).normal.IsDirection := Round.axis_isDirection hposeA 2
  have hmeasures := HalfSpace.deepestPoint_measures hvalid hkind hcylinder hposeB hnormal
  rw [← (hmeasures.resolve hnormal).ne_nil_iff]
  simp

theorem settles_plane (c : PairConfig ℝ) (hvalid : b.Valid) (hkind : b.kind ≠ .plane)
    (hcylinder : b.kind ≠ .cylinder) (hposeA : poseA.Rigid) (hposeB : poseB.Rigid) :
    c.Settles .plane poseA b poseB := by
  have hcollide : c.collidePrimitives .plane poseA b poseB =
      !((HalfSpace.ofPose poseA).deepestPoint (.ofPrimitive b poseB)).isEmpty := by
    cases b <;> first
      | exact absurd rfl hkind
      | rfl
  refine .of_overlap (overlaps_plane_iff hposeA) ?_ ?_
  · rw [hcollide]
    exact deepestPoint_ne_nil_iff hvalid hkind hcylinder hposeA hposeB
  · exact (c.separatePlane_measures hposeA hvalid hkind hcylinder hposeB).resolve
      (Round.axis_isDirection hposeA 2)

theorem settles_plane_flipped (c : PairConfig ℝ) (hvalid : b.Valid) (hkind : b.kind ≠ .plane)
    (hcylinder : b.kind ≠ .cylinder) (hposeA : poseA.Rigid) (hposeB : poseB.Rigid) :
    c.Settles b poseB .plane poseA := by
  have hcollide : c.collidePrimitives b poseB .plane poseA =
      !((HalfSpace.ofPose poseA).deepestPoint (.ofPrimitive b poseB)).isEmpty := by
    cases b <;> first
      | exact absurd rfl hkind
      | rfl
  have hseparate : c.separatePrimitives b poseB .plane poseA =
      (c.separatePlane poseA b poseB).flipped := by
    cases b <;> first
      | exact absurd rfl hkind
      | rfl
  refine .of_overlap (overlaps_plane_flipped_iff hkind hposeA) ?_ ?_
  · rw [hcollide, neg_zero]
    exact deepestPoint_ne_nil_iff hvalid hkind hcylinder hposeA hposeB
  · rw [hseparate]
    exact ((c.separatePlane_measures hposeA hvalid hkind hcylinder hposeB).resolve
      (Round.axis_isDirection hposeA 2)).flipped

end Planes

/-! ### Either order -/

/-- The verdict and the contacts of a pair with a closed form agree with its overlap, in either
order of the pair. -/
theorem settles (c : PairConfig ℝ) {a b : Primitive ℝ}
    (hform : a.HasClosedForm b ∨ b.HasClosedForm a) (hvalidA : a.Valid) (hvalidB : b.Valid)
    {poseA poseB : Pose ℝ} (hposeA : poseA.Rigid) (hposeB : poseB.Rigid) :
    c.Settles a poseA b poseB := by
  have hfirst {a b : Primitive ℝ} (hform : a.HasClosedForm b) :
      (∃ radius, a = .sphere radius ∧ b.HasRoundForm) ∨
        (a = .plane ∧ b.kind ≠ .plane ∧ b.kind ≠ .cylinder) := by
    cases a with
    | sphere radius => exact .inl ⟨radius, rfl, hform⟩
    | plane => exact .inr ⟨rfl, hform⟩
    | _ => exact hform.elim
  rcases hform with hform | hform
  · obtain ⟨radius, rfl, hround⟩ | ⟨rfl, hkind, hcylinder⟩ := hfirst hform
    · exact c.settles_sphere hvalidA hround hvalidB poseA hposeB
    · exact c.settles_plane hvalidB hkind hcylinder hposeA hposeB
  · obtain ⟨radius, rfl, hround⟩ | ⟨rfl, hkind, hcylinder⟩ := hfirst hform
    · by_cases hsphere : a.kind = .sphere
      · -- Two spheres are in the first order already.
        cases a with
        | sphere r =>
          have hround : (Primitive.sphere radius).HasRoundForm := trivial
          exact c.settles_sphere hvalidA hround hvalidB poseA hposeB
        | _ => cases hsphere
      · exact c.settles_sphere_flipped hvalidB hround hsphere hvalidA poseB hposeA
    · exact c.settles_plane_flipped hvalidA hkind hcylinder hposeB hposeA

end PairConfig

/-! ### Testers without overrides -/

namespace PairTester

variable {α : Type} [Scalar α]

theorem collide_parts (t : PairTester α) (h : t.colliders = .empty) (a b : Part α)
    (poseA poseB : Pose α) : t.collide ⟨.part a, poseA⟩ ⟨.part b, poseB⟩ =
      t.config.collidePrimitives a.primitive (a.rebase poseA) b.primitive (b.rebase poseB) := by
  simp only [collide, collideRebased, collideWithSurface, collideBare, overriddenCollide?, h]
  rfl

theorem separate_parts (t : PairTester α) (h : t.separators = .empty) (a b : Part α)
    (poseA poseB : Pose α) : t.separate ⟨.part a, poseA⟩ ⟨.part b, poseB⟩ =
      Contacts.limit t.config.contacts (t.config.separatePrimitives a.primitive (a.rebase poseA)
        b.primitive (b.rebase poseB)) := by
  simp only [separate, separateRebased, separateWithSurface, separateBare, overriddenSeparate?, h]
  rfl

/-- A sphere with a sphere, a box, a capsule that is long enough or a triangle that is large enough,
or a plane with any body but a plane or a cylinder, in either order and with any offsets; a tester
without overrides that may report a contact. It finds the pair to collide exactly if the cores are
closer than the radii together, or some point of the body is strictly below the plane. There are
contacts exactly then, all with unit normals and positive depths, and moving the second body along
the normal of the deepest contact by its depth leaves the pair apart. -/
theorem contacts_resolve_closed_forms (t : PairTester ℝ) (hcolliders : t.colliders = .empty)
    (hseparators : t.separators = .empty) (hcontacts : 1 ≤ t.config.contacts) (a b : Part ℝ)
    (hform : a.primitive.HasClosedForm b.primitive ∨ b.primitive.HasClosedForm a.primitive)
    (ha : a.Rigid) (hb : b.Rigid) (hvalidA : a.primitive.Valid) (hvalidB : b.primitive.Valid)
    (poseA poseB : Pose ℝ) (hposeA : poseA.Rigid) (hposeB : poseB.Rigid) :
    let first : Placed ℝ := ⟨.part a, poseA⟩
    let second (pose : Pose ℝ) : Placed ℝ := ⟨.part b, pose⟩
    let contacts := t.separate first (second poseB)
    (t.collide first (second poseB) = true ↔ a.Overlaps poseA b poseB) ∧
      (contacts ≠ [] ↔ t.collide first (second poseB) = true) ∧
      (∀ c ∈ contacts, c.normal.IsDirection ∧ 0 < c.depth) ∧
      (t.collide first (second poseB) = true → ∃ c, contacts.deepest? = some c ∧
        t.collide first (second (poseB.translated (c.normal * c.depth))) = false) := by
  intro first second contacts
  have hcollide (offset : Vec3 ℝ) : t.collide first (second (poseB.translated offset)) = true ↔
      (Part.bare a.primitive).Overlaps (a.rebase poseA) (.bare b.primitive)
        ((b.rebase poseB).translated offset) := by
    rw [t.collide_parts hcolliders, Part.rebase_translated]
    exact (t.config.settles hform hvalidA hvalidB (ha.rebase hposeA)
      ((hb.rebase hposeB).translated offset)).collide
  have hresolve : contacts.Resolve fun offset ↦
      t.collide first (second (poseB.translated offset)) = true := by
    simp only [hcollide]
    show (t.separate first (second poseB)).Resolve _
    rw [t.separate_parts hseparators]
    exact (t.config.settles hform hvalidA hvalidB (ha.rebase hposeA)
      (hb.rebase hposeB)).separate.limit hcontacts
  have hverdict := hcollide 0
  have hnonempty := hresolve.ne_nil_iff
  simp only [Pose.translated_zero] at hverdict hnonempty
  refine ⟨hverdict.trans (Part.overlaps_rebase ha hb hposeA hposeB).symm, hnonempty,
    fun c hc ↦ ⟨hresolve.normal c hc, hresolve.depth_pos c hc⟩, fun htrue ↦ ?_⟩
  rw [← hnonempty] at htrue
  obtain ⟨c, hdeepest, hapart⟩ := hresolve.exists_way_out (hresolve.ne_nil_iff.mp htrue)
  exact ⟨c, hdeepest, Bool.eq_false_iff.mpr hapart⟩

/-- A plane one unit up inside its owner, and a cube of half length one at its origin. -/
theorem contacts_resolve_cube_below_plane :
    let t : PairTester ℝ := { config := ⟨.standard, 4⟩ }
    let plane : Part ℝ := .offset .plane (.ofPosition ⟨0, 0, 1⟩)
    let cube : Part ℝ := .bare (.box ⟨1, 1, 1⟩)
    let first : Placed ℝ := ⟨.part plane, .identity⟩
    let second (pose : Pose ℝ) : Placed ℝ := ⟨.part cube, pose⟩
    t.colliders = .empty ∧ t.separators = .empty ∧ 1 ≤ t.config.contacts ∧
      Primitive.boxOfHalf? ⟨1, 1, 1⟩ = .ok cube.primitive ∧
      plane.primitive.HasClosedForm cube.primitive ∧ plane.Rigid ∧ cube.Rigid ∧
      plane.primitive.Valid ∧ cube.primitive.Valid ∧ (Pose.identity : Pose ℝ).Rigid ∧
      t.collide first (second .identity) = true ∧
      ∃ c, (t.separate first (second .identity)).deepest? = some c ∧
        t.collide first (second (Pose.identity.translated (c.normal * c.depth))) = false := by
  intro t plane cube first second
  have hform : plane.primitive.HasClosedForm cube.primitive := ⟨nofun, nofun⟩
  have hbox : Primitive.boxOfHalf? ⟨1, 1, 1⟩ = .ok cube.primitive :=
    Primitive.boxOfHalf?_of_pos one_pos one_pos one_pos
  have hcube : cube.primitive.Valid := Primitive.boxOfHalf?_valid hbox
  have hidentity : (Pose.identity : Pose ℝ).Rigid := Pose.identity_rigid
  have hcontacts : 1 ≤ t.config.contacts := by decide
  have hoverlap : plane.Overlaps .identity cube .identity := by
    rw [Part.Overlaps, if_pos (by rfl)]
    refine ⟨0, ⟨0, ⟨?_, ?_, ?_⟩, Pose.identity_transformPoint 0⟩,
      ⟨0, ⟨⟨0, 0, -1⟩, ?_, ?_⟩, Pose.identity_transformPoint 0⟩⟩
    · simp
    · simp
    · simp
    · show (-1 : ℝ) < 0
      norm_num
    · rw [Pose.ofPosition_transformPoint]
      ext <;> simp
  obtain ⟨hverdict, -, -, hway⟩ := contacts_resolve_closed_forms t rfl rfl hcontacts plane cube
    (.inl hform) hidentity trivial trivial hcube .identity .identity hidentity hidentity
  have hcollide := hverdict.mpr hoverlap
  exact ⟨rfl, rfl, hcontacts, hbox, hform, hidentity, trivial, trivial, hcube, hidentity, hcollide,
    hway hcollide⟩

end PairTester

end Collision
