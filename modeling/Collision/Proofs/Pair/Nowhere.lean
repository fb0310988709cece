import Collision.Proofs.Pair.Exchange
import Collision.Proofs.Pair.Limit
import Collision.Proofs.Portal.Nowhere

/-!
# Primitives that are nowhere

What the verdict and the contacts of two primitives are when one of them stands at no place. None of
the distances that decide is a number then, and the answer is that of the branch taken when a
comparison fails.

* Separating axes find the bodies apart, unless all axes are too short to be tried, and portal
  refinement finds nothing.
* The contact of two round bodies is refused when the radii together are *at most* the distance, so
  it is given, with a depth that is no number (`Round.contact_nowhere`). Only the verdict of two
  spheres asks whether the distance is *below* the radii, and says no.
* A plane refuses a depth of *at most* zero, so it touches everything. But for its contacts with
  boxes and triangles it asks for corners *below* it, and there are none.

`Primitive.FoundNowhere` and `ShapeKind.touchNowhere` collect which pairs are found to overlap and
which have a contact, whichever of the two is nowhere.
-/

set_option autoImplicit false
set_option relaxedAutoImplicit false

namespace Collision

open Scalar (NoNumber)

variable {α : Type} [Scalar α]

/-! ### Which pairs -/

/-- The contacts of two primitives of these kinds are those of round bodies. -/
def ShapeKind.isRoundPair : ShapeKind → ShapeKind → Bool
  | sphere, sphere | sphere, capsule | capsule, sphere | capsule, capsule => true
  | sphere, k | k, sphere => k.isFlat
  | _, _ => false

/-- Two primitives of these kinds have a contact when one of them is nowhere. -/
def ShapeKind.touchNowhere : ShapeKind → ShapeKind → Bool
  | plane, k | k, plane => k != plane && !k.isFlat
  | k, l => isRoundPair k l

/-- There is no axis to try: all of them are too short. -/
def Polytope.Axisless (a b : Polytope α) : Prop :=
  ∀ axis ∈ candidateAxes a b, axis.norm ≤ shortestAxis

/-- The half-spaces count as facing away from each other. -/
def HalfSpace.Averse (a b : HalfSpace α) : Prop := (a.normal + b.normal).normSq < 1e-18

/-- The verdict on two primitives when one of them is nowhere. -/
def Primitive.FoundNowhere (a : Primitive α) (poseA : Pose α) (b : Primitive α) (poseB : Pose α) :
    Prop :=
  match a, b with
  | .plane, .plane => ¬ HalfSpace.Averse (.ofPose poseA) (.ofPose poseB)
  | .plane, _ | _, .plane => True
  | .sphere _, .sphere _ => False
  | .box ha, .box hb => Polytope.Axisless (.box ha poseA) (.box hb poseB)
  | .box half, .triangle t | .box half, .meshTriangle t =>
    Polytope.Axisless (.box half poseA) (.triangle (t.placed poseB))
  | .triangle t, .box half | .meshTriangle t, .box half =>
    Polytope.Axisless (.box half poseB) (.triangle (t.placed poseA))
  | a, b => ShapeKind.isRoundPair a.kind b.kind = true

/-- A number of contacts whose depths are no numbers. -/
structure Contacts.Depthless (count : Nat) (contacts : Contacts α) : Prop where
  length_eq : contacts.length = count
  depth : ∀ c ∈ contacts, NoNumber c.depth

namespace Contacts.Depthless

theorem nil : Depthless 0 ([] : Contacts α) := ⟨rfl, fun _ hc ↦ nomatch hc⟩

theorem singleton {c : Contact α} (h : NoNumber c.depth) : Depthless 1 [c] :=
  ⟨rfl, fun c' hc ↦ by rwa [List.mem_singleton.mp hc]⟩

theorem flipped {count : Nat} {contacts : Contacts α} (h : Depthless count contacts) :
    Depthless count contacts.flipped where
  length_eq := by rw [Contacts.flipped, List.length_map, h.length_eq]
  depth := by
    rw [Contacts.flipped, List.forall_mem_map]
    exact h.depth

theorem append {m n : Nat} {first second : Contacts α} (hfirst : Depthless m first)
    (hsecond : Depthless n second) : Depthless (m + n) (first ++ second) where
  length_eq := by rw [List.length_append, hfirst.length_eq, hsecond.length_eq]
  depth c hc := (List.mem_append.mp hc).elim (hfirst.depth c) (hsecond.depth c)

/-- Where each of some pairs gives one contact or none, there are as many as pairs that give one. -/
theorem flatMap {β : Type} {contactsOf : β → Contacts α} {touch : β → Bool} {members : List β}
    (h : ∀ b ∈ members, Depthless (touch b).toNat (contactsOf b)) :
    Depthless (members.countP touch) (members.flatMap contactsOf) := by
  induction members with
  | nil => exact nil
  | cons b rest ih =>
    obtain ⟨hb, hrest⟩ := List.forall_mem_cons.mp h
    rw [List.flatMap_cons, List.countP_cons, Nat.add_comm]
    cases htouch : touch b <;> rw [htouch] at hb <;> exact hb.append (ih hrest)

theorem limit {count : Nat} {contacts : Contacts α} (h : Depthless count contacts) (most : Nat) :
    Depthless (min most count) (contacts.limit most) := by
  have hdeepest := limit_deepest most contacts
  refine ⟨hdeepest.length_eq.trans (by rw [h.length_eq]), fun c hc ↦ h.depth c ?_⟩
  obtain ⟨dropped, hperm, -⟩ := hdeepest.exists_dropped
  exact hperm.subset (List.mem_append_left dropped hc)

theorem not_isEmpty {contacts : Contacts α} (h : Depthless 1 contacts) :
    (!contacts.isEmpty) = true := by
  match contacts, h.length_eq with
  | [c], _ => rfl

end Contacts.Depthless

variable [SpreadingScalar α] {poseA poseB : Pose α} {i : Fin 3}

/-! ### Points of bodies that are nowhere -/

theorem Triangle.placed_nowhere (h : poseA.position.NowhereAlong i) (t : Triangle α) :
    ∀ p ∈ (t.placed poseA).corners, p.NowhereAlong i := by
  rintro p hp
  obtain ⟨q, -, rfl⟩ : ∃ q ∈ t.corners, poseA.transformPoint q = p := List.mem_map.mp hp
  exact Pose.transformPoint_nowhere h q

theorem Triangle.closestPoint_nowhere {t : Triangle α} (h : ∀ p ∈ t.corners, p.NowhereAlong i)
    (p : Vec3 α) : (t.closestPoint p).NowhereAlong i := by
  have ha := h t.a (by simp [corners])
  have hb := h t.b (by simp [corners])
  have hc := h t.c (by simp [corners])
  simp only [closestPoint]
  split_ifs
  · exact ha
  · exact hb
  · exact ha.add_left _
  · exact hc
  · exact ha.add_left _
  · exact hb.add_left _
  · exact (ha.add_left _).add_left _

theorem Part.rebase_nowhere (h : poseA.position.NowhereAlong i) (part : Part α) :
    (part.rebase poseA).position.NowhereAlong i := by
  cases part with
  | bare p => exact h
  | offset p inner => exact Pose.compose_nowhere h inner

theorem Segment.point_nowhere {s : Segment α} (h : s.start.NowhereAlong i) (parameter : α) :
    (s.point parameter).NowhereAlong i := h.add_left _

namespace Placed

variable {body : Placed α} (h : body.pose.position.NowhereAlong i)

include h

theorem supportPoint_nowhere (direction : Vec3 α) :
    (body.supportPoint direction).NowhereAlong i := by
  unfold supportPoint Shape.supportAt?
  cases body.shape.support? (body.pose.inverseTransformVector direction) with
  | none => exact h
  | some p => exact Pose.transformPoint_nowhere h p

theorem center_nowhere : body.center.NowhereAlong i := by
  have hrebase := Part.rebase_nowhere h body.shape.outline
  unfold center Shape.center Part.center
  cases body.shape.outline.primitive with
  | triangle t | meshTriangle t => exact Pose.transformPoint_nowhere hrebase _
  | convexHull points => exact Pose.transformPoint_nowhere hrebase _
  | sphere | box | cylinder | capsule | plane => exact hrebase

end Placed

/-! ### Portal refinement -/

section Portal

variable {a b : Placed α} (h : a.pose.position.NowhereAlong i ∨ b.pose.position.NowhereAlong i)

include h

theorem DifferenceBody.ofPlaced_nowhere : (ofPlaced a b).NowhereAlong i where
  center := Vec3.sub_nowhere (h.imp Placed.center_nowhere Placed.center_nowhere)
  support direction := Vec3.sub_nowhere
    (h.imp (Placed.supportPoint_nowhere · direction) (Placed.supportPoint_nowhere · (-direction)))

theorem PairConfig.collideGeneral_nowhere (c : PairConfig α) : c.collideGeneral a b = false := by
  rw [collideGeneral, Placed.generallyOverlaps,
    DifferenceBody.holdsOrigin_nowhere (DifferenceBody.ofPlaced_nowhere h), Bool.and_false]

theorem PairConfig.separateGeneral_nowhere (c : PairConfig α) : c.separateGeneral a b = [] := by
  rw [separateGeneral, Placed.generalContact?,
    DifferenceBody.penetration?_nowhere (DifferenceBody.ofPlaced_nowhere h), Option.toList_none]

end Portal

/-! ### Separating axes -/

namespace Polytope

/-- Every axis that is tried separates the bodies. -/
theorem overlap_nowhere {a b : Polytope α}
    (h : (∀ p ∈ a.corners, p.NowhereAlong i) ∨ ∀ p ∈ b.corners, p.NowhereAlong i) :
    overlap a b = true ↔ Axisless a b := by
  have hseparated (axis : Vec3 α) : separatedBy a b axis = false ↔ axis.norm ≤ shortestAxis := by
    by_cases hshort : axis.norm ≤ shortestAxis
    · refine iff_of_true ?_ hshort
      rw [separatedBy, Vec3.unit?, if_pos hshort]
    · refine iff_of_false (Bool.not_eq_false _ ▸ ?_) hshort
      rw [separatedBy, Vec3.unit?, if_neg hshort]
      dsimp only
      rcases h with h | h
      · rw [Interval.ofPoints?_nowhere h]
      · rw [Interval.ofPoints?_nowhere h]
        cases Interval.ofPoints? a.corners _ <;> rfl
  rw [overlap, Bool.not_eq_true', List.any_eq_false]
  simp only [Bool.not_eq_true, hseparated]
  rfl

theorem box_nowhere (h : poseA.position.NowhereAlong i) (half : Vec3 α) :
    ∀ p ∈ (box half poseA).corners, p.NowhereAlong i := by
  rintro p hp
  obtain ⟨q, -, rfl⟩ : ∃ q ∈ BoxCorners.all half, poseA.transformPoint q = p := List.mem_map.mp hp
  exact Pose.transformPoint_nowhere h q

/-- The face of a triangle that is nowhere is tried, since its axis has no length that is too
short. -/
theorem not_overlap_triangles {t u : Triangle α}
    (h : (∀ p ∈ t.corners, p.NowhereAlong i) ∨ ∀ p ∈ u.corners, p.NowhereAlong i) :
    ¬ overlap (.triangle t) (.triangle u) = true := by
  rw [overlap_nowhere h]
  intro hshort
  rcases h with h | h
  · exact (t.faceAxis_nowhere h).norm.not_le _ (hshort _ (by simp [candidateAxes, triangle]))
  · exact (u.faceAxis_nowhere h).norm.not_le _ (hshort _ (by simp [candidateAxes, triangle]))

end Polytope

/-! ### Round bodies -/

namespace Round

/-- A distance that is no number is not too large, and leaves no depth. -/
theorem contact_nowhere {pa pb : Vec3 α} (h : pa.NowhereAlong i ∨ pb.NowhereAlong i) (ra rb : α)
    (fallback : Vec3 α) : Contacts.Depthless 1 (contact pa ra pb rb fallback) := by
  have hdistance : NoNumber (pb - pa).norm := (Vec3.sub_nowhere h.symm).norm
  rw [contact, if_neg (hdistance.not_ge _)]
  exact .singleton (hdistance.sub_right _)

variable (h : poseA.position.NowhereAlong i ∨ poseB.position.NowhereAlong i)

include h

theorem sphereBox_nowhere (radius : α) (half : Vec3 α) :
    Contacts.Depthless 1 (sphereBox radius poseA half poseB) := by
  have hcenter := Pose.inverseTransformPoint_nowhere (Vec3.sub_nowhere h) 0
  have hinside : insideBox half (poseB.inverseTransformPoint poseA.position) = false := by
    rw [insideBox, List.all_cons, decide_eq_false (NoNumber.not_ge hcenter _), Bool.false_and,
      Bool.false_and]
  simp only [sphereBox, hinside, Bool.false_eq_true, if_false]
  exact contact_nowhere (h.imp_right (Pose.transformPoint_nowhere · _)) _ _ _

/-- The closed form of two round bodies gives a contact. -/
theorem ordered?_nowhere {a b : Primitive α} {contacts : Contacts α}
    (hsome : ordered? a poseA b poseB = some contacts) : Contacts.Depthless 1 contacts := by
  unfold ordered? at hsome
  split at hsome <;> cases hsome
  · exact contact_nowhere h _ _ _
  · exact sphereBox_nowhere h _ _
  · exact contact_nowhere (h.imp_right fun hB ↦ Segment.point_nowhere (hB.sub_left _) _) _ _ _
  · exact contact_nowhere
      (h.imp_right fun hB ↦ Triangle.closestPoint_nowhere (Triangle.placed_nowhere hB _) _) _ _ _
  · exact contact_nowhere
      (h.imp_right fun hB ↦ Triangle.closestPoint_nowhere (Triangle.placed_nowhere hB _) _) _ _ _
  · exact contact_nowhere (h.imp (fun hA ↦ Segment.point_nowhere (hA.sub_left _) _)
      fun hB ↦ Segment.point_nowhere (hB.sub_left _) _) _ _ _

theorem contacts?_nowhere {a b : Primitive α} {contacts : Contacts α}
    (hsome : contacts? a poseA b poseB = some contacts) : Contacts.Depthless 1 contacts := by
  unfold contacts? at hsome
  split at hsome
  · obtain rfl := Option.some_inj.mp hsome
    exact ordered?_nowhere h ‹_›
  · obtain ⟨backward, hbackward, rfl⟩ := Option.map_eq_some_iff.mp hsome
    exact (ordered?_nowhere h.symm hbackward).flipped

omit h [SpreadingScalar α] in
/-- Which pairs have a closed form as round bodies depends on the kinds alone. -/
theorem contacts?_isSome (a b : Primitive α) :
    (contacts? a poseA b poseB).isSome = ShapeKind.isRoundPair a.kind b.kind := by
  cases a <;> cases b <;> rfl

end Round

/-! ### Planes -/

namespace HalfSpace

variable {s : HalfSpace α}

theorem height_nowhere {p : Vec3 α} (h : s.point.NowhereAlong i ∨ p.NowhereAlong i) :
    NoNumber (s.height p) := (Vec3.sub_nowhere h.symm).dot_right s.normal

theorem overlap_nowhere {a b : HalfSpace α}
    (h : a.point.NowhereAlong i ∨ b.point.NowhereAlong i) : overlap a b = true ↔ ¬ Averse a b := by
  have hheight := (Vec3.sub_nowhere h).dot_right a.normal
  rw [overlap, decide_eq_false (hheight.not_gt 0), Bool.or_false, Bool.not_eq_true',
    decide_eq_false_iff_not]
  rfl

/-- No depth is at most zero that is no number. -/
theorem deepestPoint_nowhere {body : Placed α}
    (h : s.point.NowhereAlong i ∨ body.pose.position.NowhereAlong i) :
    Contacts.Depthless 1 (s.deepestPoint body) := by
  have hdepth := (height_nowhere (h.imp_right (Placed.supportPoint_nowhere · (-s.normal)))).neg
  simp only [deepestPoint, if_neg (hdepth.not_le 0)]
  exact .singleton hdepth

variable (h : s.point.NowhereAlong i ∨ poseB.position.NowhereAlong i)

include h

theorem sphere_nowhere (radius : α) : Contacts.Depthless 1 (s.sphere radius poseB) := by
  have hheight := height_nowhere h
  simp only [sphere, if_neg (hheight.not_ge radius)]
  exact .singleton (hheight.sub_right radius)

theorem capsule_nowhere (radius halfHeight : α) (count : Nat) :
    Contacts.Depthless 1 (s.capsule radius halfHeight poseB count) := by
  have hdepth {p : Vec3 α} (hp : s.point.NowhereAlong i ∨ p.NowhereAlong i) :
      NoNumber (s.capsuleEnd radius p).depth := (height_nowhere hp).sub_right radius
  have hlow (v : Vec3 α) := hdepth (h.imp_right (·.add_left v))
  have hhigh (v : Vec3 α) := hdepth (h.imp_right (·.sub_left v))
  simp only [capsule, (hlow _).not_le 0, (hhigh _).not_gt 0, and_false, if_false]
  exact .singleton (hlow _)

theorem box_nowhere (half : Vec3 α) (count : Nat) : s.box half poseB count = [] := by
  have hcorners : ∀ height ∈ (BoxCorners.all half).map fun c ↦ s.height (poseB.transformPoint c),
      NoNumber height := by
    rw [List.forall_mem_map]
    exact fun c _ ↦ height_nowhere (h.imp_right (Pose.transformPoint_nowhere · c))
  rw [box, lowestCorner?, Scalar.minimum?_eq_none hcorners]

theorem triangle_nowhere (t : Triangle α) : s.triangle (t.placed poseB) = [] := by
  refine List.filterMap_eq_nil_iff.mpr fun p hp ↦ if_neg ?_
  have hheight := height_nowhere (h.imp_right fun hB ↦ Triangle.placed_nowhere hB t p hp)
  exact hheight.neg.not_gt 0

end HalfSpace

/-! ### Two primitives -/

namespace PairConfig

omit [SpreadingScalar α] in
/-- The verdict on two round bodies asks whether there are contacts, except for two spheres. -/
theorem collidePrimitives_eq_round (c : PairConfig α) {a b : Primitive α}
    (hround : ShapeKind.isRoundPair a.kind b.kind = true)
    (hspheres : ¬(a.kind = .sphere ∧ b.kind = .sphere)) (poseA poseB : Pose α) :
    ∃ contacts, Round.contacts? a poseA b poseB = some contacts ∧
      c.collidePrimitives a poseA b poseB = !contacts.isEmpty := by
  cases a <;> cases b <;> first
    | contradiction
    | exact absurd ⟨rfl, rfl⟩ hspheres
    | exact ⟨_, rfl, rfl⟩

variable (c : PairConfig α) (a b : Primitive α)
  (h : poseA.position.NowhereAlong i ∨ poseB.position.NowhereAlong i)

include h

theorem collidePrimitives_nowhere :
    c.collidePrimitives a poseA b poseB = true ↔ a.FoundNowhere poseA b poseB := by
  have hround (a b : Primitive α) (hkinds : ShapeKind.isRoundPair a.kind b.kind = true)
      (hspheres : ¬(a.kind = .sphere ∧ b.kind = .sphere)) :
      c.collidePrimitives a poseA b poseB = true := by
    obtain ⟨contacts, hcontacts, hverdict⟩ :=
      c.collidePrimitives_eq_round hkinds hspheres poseA poseB
    rw [hverdict, (Round.contacts?_nowhere h hcontacts).not_isEmpty]
  have hgeneral (a b : Primitive α) (hkinds : a.kind.isDecidedDirectly b.kind = false) :
      ¬ c.collidePrimitives a poseA b poseB = true := by
    rw [c.collidePrimitives_eq_general hkinds, collideGeneral_nowhere h]
    exact Bool.false_ne_true
  cases a with
  | plane =>
    cases b with
    | plane => exact HalfSpace.overlap_nowhere h
    | _ => exact iff_of_true (HalfSpace.deepestPoint_nowhere h).not_isEmpty trivial
  | sphere r =>
    cases b with
    | sphere s =>
      have hdistance := (Vec3.sub_nowhere h.symm).norm
      exact iff_of_false (fun hless ↦ hdistance.not_lt _ (of_decide_eq_true hless)) id
    | plane => exact iff_of_true (HalfSpace.deepestPoint_nowhere h.symm).not_isEmpty trivial
    | box | capsule | triangle | meshTriangle => exact iff_of_true (hround _ _ rfl nofun) rfl
    | cylinder | convexHull => exact iff_of_false (hgeneral _ _ rfl) Bool.false_ne_true
  | box half =>
    cases b with
    | sphere s => exact iff_of_true (hround _ _ rfl nofun) rfl
    | plane => exact iff_of_true (HalfSpace.deepestPoint_nowhere h.symm).not_isEmpty trivial
    | box half' =>
      exact Polytope.overlap_nowhere (h.imp (Polytope.box_nowhere · _) (Polytope.box_nowhere · _))
    | triangle t | meshTriangle t =>
      exact Polytope.overlap_nowhere
        (h.imp (Polytope.box_nowhere · _) (Triangle.placed_nowhere · _))
    | capsule | cylinder | convexHull => exact iff_of_false (hgeneral _ _ rfl) Bool.false_ne_true
  | capsule r halfHeight =>
    cases b with
    | sphere | capsule => exact iff_of_true (hround _ _ rfl nofun) rfl
    | plane => exact iff_of_true (HalfSpace.deepestPoint_nowhere h.symm).not_isEmpty trivial
    | box | triangle | meshTriangle | cylinder | convexHull =>
      exact iff_of_false (hgeneral _ _ rfl) Bool.false_ne_true
  | triangle t | meshTriangle t =>
    cases b with
    | sphere s => exact iff_of_true (hround _ _ rfl nofun) rfl
    | plane => exact iff_of_true (HalfSpace.deepestPoint_nowhere h.symm).not_isEmpty trivial
    | box half =>
      exact Polytope.overlap_nowhere
        (h.symm.imp (Polytope.box_nowhere · _) (Triangle.placed_nowhere · _))
    | triangle u | meshTriangle u =>
      exact iff_of_false (Polytope.not_overlap_triangles
        (h.imp (Triangle.placed_nowhere · _) (Triangle.placed_nowhere · _))) Bool.false_ne_true
    | capsule | cylinder | convexHull => exact iff_of_false (hgeneral _ _ rfl) Bool.false_ne_true
  | cylinder | convexHull =>
    cases b with
    | plane => exact iff_of_true (HalfSpace.deepestPoint_nowhere h.symm).not_isEmpty trivial
    | _ => exact iff_of_false (hgeneral _ _ rfl) Bool.false_ne_true

theorem separatePlane_nowhere :
    Contacts.Depthless (ShapeKind.touchNowhere .plane b.kind).toNat
      (c.separatePlane poseA b poseB) := by
  cases b with
  | plane => exact .nil
  | sphere radius => exact HalfSpace.sphere_nowhere h radius
  | capsule radius halfHeight => exact HalfSpace.capsule_nowhere h radius halfHeight c.contacts
  | cylinder | convexHull => exact HalfSpace.deepestPoint_nowhere h
  | box half =>
    rw [separatePlane, HalfSpace.box_nowhere h]
    exact .nil
  | triangle t | meshTriangle t =>
    rw [separatePlane, HalfSpace.triangle_nowhere h]
    exact .nil

theorem separatePrimitives_nowhere :
    Contacts.Depthless (ShapeKind.touchNowhere a.kind b.kind).toNat
      (c.separatePrimitives a poseA b poseB) := by
  unfold separatePrimitives
  split
  · exact c.separatePlane_nowhere b h
  · have hexchanged : a.kind.touchNowhere .plane = ShapeKind.touchNowhere .plane a.kind := by
      cases a <;> rfl
    exact hexchanged ▸ (c.separatePlane_nowhere a h.symm).flipped
  · have hround : a.kind.touchNowhere b.kind = a.kind.isRoundPair b.kind := by
      cases a <;> cases b <;> first
        | contradiction
        | rfl
    rw [hround, ← Round.contacts?_isSome]
    cases hcontacts : Round.contacts? a poseA b poseB with
    | some contacts => exact Round.contacts?_nowhere h hcontacts
    | none =>
      rw [separateGeneral_nowhere h]
      exact .nil

end PairConfig

/-! ### Two bodies -/

namespace Part

/-- Some part of one owner and some part of another are found to overlap when one of the owners is
nowhere. -/
def FoundAmong (parts : List (Part α)) (poseA : Pose α) (others : List (Part α))
    (poseB : Pose α) : Prop :=
  ∃ p ∈ parts, ∃ q ∈ others,
    p.primitive.FoundNowhere (p.rebase poseA) q.primitive (q.rebase poseB)

/-- The number of pairs of parts of two owners that have a contact when one owner is nowhere. -/
def touchCount (parts others : List (Part α)) : Nat :=
  (parts.product others).countP fun pair ↦
    pair.1.primitive.kind.touchNowhere pair.2.primitive.kind

omit [Scalar α] [SpreadingScalar α] in
theorem touchCount_singleton (p q : Part α) :
    touchCount [p] [q] = (p.primitive.kind.touchNowhere q.primitive.kind).toNat := by
  show [(p, q)].countP _ = _
  rw [List.countP_singleton]
  cases p.primitive.kind.touchNowhere q.primitive.kind <;> rfl

end Part

namespace PairTester

variable {t : PairTester α}

omit [SpreadingScalar α] in
/-- Without overrides the contacts of two bodies are those of their leaves. -/
theorem separateRebased_eq_flatMap (hseparators : t.separators = .empty) (a b : Placed α) :
    t.separateRebased a.rebase b.rebase =
      (a.shape.parts.product b.shape.parts).flatMap fun pair ↦
        t.config.separatePrimitives pair.1.primitive (pair.1.rebase a.pose) pair.2.primitive
          (pair.2.rebase b.pose) := by
  have hnone (a b : Placed α) : t.overriddenSeparate? a b = none := by
    rw [overriddenSeparate?, hseparators]
    rfl
  have hsecond (a b : Placed α) :
      t.separateWithSurface a b.rebase = b.leaves.flatMap fun q ↦ t.separateBare a q := by
    unfold separateWithSurface
    rcases b.leaves_cases with ⟨hparts, hleaves⟩ | ⟨hparts, -⟩
    · rw [hparts, hleaves, List.flatMap_singleton]
    · rw [hparts, hnone]
  have hfirst : t.separateRebased a.rebase b.rebase =
      a.leaves.flatMap fun p ↦ b.leaves.flatMap fun q ↦ t.separateBare p q := by
    unfold separateRebased
    simp only [hsecond]
    rcases a.leaves_cases with ⟨hparts, hleaves⟩ | ⟨hparts, -⟩
    · rw [hparts, hleaves, List.flatMap_singleton]
    · rw [hparts, hnone]
  rw [hfirst]
  simp only [Placed.leaves, List.product, List.flatMap_map, List.flatMap_assoc, separateBare, hnone]
  rfl

variable {a b : Placed α}
  (h : a.pose.position.NowhereAlong i ∨ b.pose.position.NowhereAlong i)

include h

/-- Two bodies of which one is nowhere are found to overlap if two of their parts are. -/
theorem collide_nowhere (hcolliders : t.colliders = .empty) :
    t.collide a b = true ↔ Part.FoundAmong a.shape.parts a.pose b.shape.parts b.pose := by
  have hnone (a b : Placed α) : t.overriddenCollide? a b = none := by
    rw [overriddenCollide?, hcolliders]
    rfl
  have hparts (p q : Part α) := t.config.collidePrimitives_nowhere p.primitive q.primitive
    (h.imp (Part.rebase_nowhere · p) (Part.rebase_nowhere · q))
  rw [collide_eq_any (hcolliders ▸ OverrideTable.oneSided_empty)]
  simp only [Placed.leaves, List.any_map, List.any_eq_true, Function.comp_apply,
    collideBare_ofPrimitive, hnone, Option.getD_none, hparts]
  rfl

/-- Two bodies of which one is nowhere have a contact for each two parts that touch. -/
theorem separateRebased_nowhere (hseparators : t.separators = .empty) :
    Contacts.Depthless (Part.touchCount a.shape.parts b.shape.parts)
      (t.separateRebased a.rebase b.rebase) := by
  rw [separateRebased_eq_flatMap hseparators]
  exact .flatMap fun pair _ ↦ t.config.separatePrimitives_nowhere pair.1.primitive
    pair.2.primitive (h.imp (Part.rebase_nowhere · pair.1) (Part.rebase_nowhere · pair.2))

end PairTester

end Collision
