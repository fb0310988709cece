import Collision.Proofs.Pair.ClosedForms
import Collision.Proofs.Pair.Exchange
import Collision.Proofs.Pair.FlatFaces
import Collision.Proofs.Portal.Enclosure
import Collision.Proofs.Portal.Rounds

/-!
# Contacts of pairs that collide

Where the contacts of a pair come from portal refinement, is there a contact only if the pair
collides? The verdict of most such pairs comes from portal refinement too, and then the answer is
yes in every arithmetic (`PairConfig.collide_of_contact_of_general`). The verdict for two triangles
is that of the separating axis test. A contact in a search that was sharp shows the origin to be an
interior point of the difference of the triangles, if they do not lie in one plane, and then no axis
separates them (`PairConfig.collide_of_contact_of_triangles`). `PairConfig.TrustsContacts` collects
the two kinds of pairs. Triangles in one plane never collide (`Polytope.overlap_of_inOnePlane`), but
a triangle has a contact with itself: the search starts from two equal centres
(`PairTester.contact_without_collision`).
-/

set_option autoImplicit false
set_option relaxedAutoImplicit false

open scoped Pointwise

namespace Collision

/-! ### Pairs decided by portal refinement -/

section AnyArithmetic

variable {α : Type} [Scalar α]

namespace PairConfig

variable {a b : Primitive α}

theorem separatePrimitives_eq_general (c : PairConfig α)
    (h : ShapeKind.isDecidedDirectly a.kind b.kind = false) (poseA poseB : Pose α) :
    c.separatePrimitives a poseA b poseB =
      c.separateGeneral (.ofPrimitive a poseA) (.ofPrimitive b poseB) := by
  cases a <;> cases b <;> first
    | contradiction
    | rfl

/-- Of two primitives that are left to portal refinement one is no triangle. -/
theorem separatedByFaces_ofPrimitive (h : ShapeKind.isDecidedDirectly a.kind b.kind = false)
    (poseA poseB : Pose α) :
    separatedByFaces (.ofPrimitive a poseA) (.ofPrimitive b poseB) = false := by
  cases a <;> cases b <;> first
    | contradiction
    | rfl

/-- Two primitives whose verdict is left to portal refinement collide if they have a contact. -/
theorem collide_of_contact_of_general (c : PairConfig α)
    (h : ShapeKind.isDecidedDirectly a.kind b.kind = false) (poseA poseB : Pose α)
    (hcontact : c.separatePrimitives a poseA b poseB ≠ []) :
    c.collidePrimitives a poseA b poseB = true := by
  rw [separatePrimitives_eq_general c h] at hcontact
  obtain ⟨contact, hmem⟩ := List.exists_mem_of_ne_nil _ hcontact
  rw [collidePrimitives_eq_general c h, collideGeneral, separatedByFaces_ofPrimitive h,
    Bool.not_false, Bool.true_and]
  exact DifferenceBody.holdsOrigin_of_penetration? (Option.mem_toList.mp hmem)

end PairConfig

end AnyArithmetic

/-! ### Triangles that do not lie in one plane -/

theorem Triangle.placed_centroid (t : Triangle ℝ) (pose : Pose ℝ) :
    (t.placed pose).centroid = pose.transformPoint t.centroid := by
  have hmove (p : Vec3 ℝ) : pose.transformPoint p = pose.position + pose.rotation.linear p := rfl
  simp only [centroid_eq_smul, placed, map, hmove, map_smul, map_add]
  module

/-- Corners none of which is higher than the centroid are all at its height. -/
theorem Triangle.dot_corner_eq {t : Triangle ℝ} {n : Vec3 ℝ}
    (h : ∀ p ∈ t.corners, n.dot p ≤ n.dot t.centroid) :
    ∀ p ∈ t.corners, n.dot p = n.dot t.centroid := by
  have hmean := t.dot_centroid n
  simp only [corners, List.forall_mem_cons] at h ⊢
  obtain ⟨ha, hb, hc, -⟩ := h
  exact ⟨by linarith, by linarith, by linarith, List.forall_mem_nil _⟩

/-- The corners of both triangles lie in one plane. -/
def Triangle.InOnePlane (t u : Triangle ℝ) : Prop :=
  ∃ n : Vec3 ℝ, n ≠ 0 ∧ ∃ height : ℝ, (∀ p ∈ t.corners, n.dot p = height) ∧
    ∀ q ∈ u.corners, n.dot q = height

namespace Polytope

/-- Where the difference of two triangles that do not lie in one plane holds the origin, it has the
difference of the centroids for an interior point. -/
theorem centroid_mem_interior {A B : Triangle ℝ} (h : ¬ A.InOnePlane B)
    (horigin : (0 : Vec3 ℝ) ∈ difference (.triangle A) (.triangle B)) :
    A.centroid - B.centroid ∈ interior (difference (.triangle A) (.triangle B)) := by
  rw [mem_interior_iff (difference_convex _ _)]
  intro n hn
  by_contra hnone
  push Not at hnone
  have hle {p q : Vec3 ℝ} (hp : p ∈ A.corners) (hq : q ∈ B.corners) :
      n.dot p - n.dot q ≤ n.dot A.centroid - n.dot B.centroid := by
    have hle := hnone (p - q) (Set.sub_mem_sub (subset_convexHull ℝ _ hp)
      (subset_convexHull ℝ _ hq))
    rwa [Vec3.dot_sub, Vec3.dot_sub] at hle
  -- No difference of corners exceeds the mean of the differences, so all are equal to it.
  have hcorners (t : Triangle ℝ) : t.a ∈ t.corners ∧ t.b ∈ t.corners ∧ t.c ∈ t.corners := by
    simp [Triangle.corners]
  obtain ⟨haA, hbA, hcA⟩ := hcorners A
  obtain ⟨haB, hbB, hcB⟩ := hcorners B
  have hfirst : ∀ p ∈ A.corners, n.dot p = n.dot A.centroid := by
    refine Triangle.dot_corner_eq fun p hp ↦ ?_
    linarith [hle hp haB, hle hp hbB, hle hp hcB, B.dot_centroid n]
  have hsecond : ∀ q ∈ B.corners, n.dot q = n.dot B.centroid := by
    have hneg := Triangle.dot_corner_eq (t := B) (n := -n) fun q hq ↦ by
      rw [Vec3.neg_dot, Vec3.neg_dot]
      linarith [hle haA hq, hle hbA hq, hle hcA hq, A.dot_centroid n]
    simpa only [Vec3.neg_dot, neg_inj] using hneg
  -- So the whole difference is at one height, and that is the height of the origin.
  have hlevel : difference (.triangle A) (.triangle B) ⊆
      {x | n.dot x = n.dot A.centroid - n.dot B.centroid} := by
    rw [difference_eq_convexHull]
    refine convexHull_min ?_ (convex_hyperplane ⟨n.dot_add, fun s v ↦ Vec3.dot_smul s n v⟩ _)
    rintro _ ⟨p, hp, q, hq, rfl⟩
    exact (Vec3.dot_sub n p q).trans (by rw [hfirst p hp, hsecond q hq])
  have hzero : 0 = n.dot A.centroid - n.dot B.centroid :=
    (Vec3.dot_zero n).symm.trans (hlevel horigin)
  have hsame : n.dot B.centroid = n.dot A.centroid := (sub_eq_zero.mp hzero.symm).symm
  exact h ⟨n, hn, n.dot A.centroid, hfirst, fun q hq ↦ (hsecond q hq).trans hsame⟩

end Polytope

namespace PairConfig

variable {a b : Primitive ℝ} {t u : Triangle ℝ} {poseA poseB : Pose ℝ}

/-- The search over the difference of two placed primitives. -/
noncomputable def searched (a : Primitive ℝ) (poseA : Pose ℝ) (b : Primitive ℝ) (poseB : Pose ℝ) :
    DifferenceBody ℝ :=
  .ofPlaced (.ofPrimitive a poseA) (.ofPrimitive b poseB)

/-- The search over two triangles stays within the difference of the triangles, and starts at the
difference of their centroids. -/
theorem searched_triangles (ha : a.triangle? = some t) (hb : b.triangle? = some u)
    (hA : poseA.Rigid) (hB : poseB.Rigid) :
    (searched a poseA b poseB).Within
        (Polytope.difference (.triangle (t.placed poseA)) (.triangle (u.placed poseB))) ∧
      (searched a poseA b poseB).center.v =
        (t.placed poseA).centroid - (u.placed poseB).centroid := by
  have hregion {prim : Primitive ℝ} {t : Triangle ℝ} (h : prim.triangle? = some t)
      (pose : Pose ℝ) : (Part.bare prim).Mapped ∧
        (Part.bare prim).regionAt pose = Vec3.hull (t.placed pose).corners ∧
        (Placed.ofPrimitive prim pose).center = (t.placed pose).centroid := by
    have hhull := Primitive.regionAt_of_triangle? h pose
    rw [t.placed_centroid]
    rcases Primitive.triangle?_cases h with rfl | rfl
    · exact ⟨⟨trivial, trivial, nofun⟩, hhull, rfl⟩
    · exact ⟨⟨trivial, trivial, nofun⟩, hhull, rfl⟩
  obtain ⟨hmappedA, hregionA, hcenterA⟩ := hregion ha poseA
  obtain ⟨hmappedB, hregionB, hcenterB⟩ := hregion hb poseB
  constructor
  · have hwithin : (searched a poseA b poseB).Within
        ((Part.bare a).regionAt poseA - (Part.bare b).regionAt poseB) :=
      Placed.ofPlaced_within (a := .part (.bare a)) (b := .part (.bare b)) hmappedA hmappedB hA hB
    rwa [hregionA, hregionB] at hwithin
  · show (Placed.ofPrimitive a poseA).center - (Placed.ofPrimitive b poseB).center = _
    rw [hcenterA, hcenterB]

/-- Two placed triangles that do not lie in one plane, and a sharp search. -/
structure SpatialTriangles (c : PairConfig ℝ) (a : Primitive ℝ) (poseA : Pose ℝ) (b : Primitive ℝ)
    (poseB : Pose ℝ) (t u : Triangle ℝ) : Prop where
  first : a.triangle? = some t
  second : b.triangle? = some u
  rigid_first : poseA.Rigid
  rigid_second : poseB.Rigid
  spatial : ¬ (t.placed poseA).InOnePlane (u.placed poseB)
  tolerance : 0 ≤ c.portal.tolerance
  sharp : (searched a poseA b poseB).SharpContact c.portal

/-- Two triangles that do not lie in one plane collide if a sharp search finds a contact. -/
theorem collide_of_contact_of_triangles (c : PairConfig ℝ)
    (h : c.SpatialTriangles a poseA b poseB t u)
    (hcontact : c.separatePrimitives a poseA b poseB ≠ []) :
    c.collidePrimitives a poseA b poseB = true := by
  obtain ⟨hwithin, hcenter⟩ := searched_triangles h.first h.second h.rigid_first h.rigid_second
  have hpair : c.collidePrimitives a poseA b poseB =
        Polytope.overlap (.triangle (t.placed poseA)) (.triangle (u.placed poseB)) ∧
      c.separatePrimitives a poseA b poseB =
        ((searched a poseA b poseB).penetration? c.portal).toList := by
    rcases Primitive.triangle?_cases h.first with rfl | rfl <;>
      rcases Primitive.triangle?_cases h.second with rfl | rfl <;> exact ⟨rfl, rfl⟩
  rw [hpair.2] at hcontact
  obtain ⟨contact, hmem⟩ := List.exists_mem_of_ne_nil _ hcontact
  rw [hpair.1]
  have hfound := Option.mem_toList.mp hmem
  have horigin := DifferenceBody.origin_mem_of_holdsOrigin hwithin h.sharp.toSharp
    (DifferenceBody.holdsOrigin_of_penetration? hfound)
  refine Polytope.overlap_of_mem_interior (List.cons_ne_nil _ _) (List.cons_ne_nil _ _) ?_
  refine DifferenceBody.origin_mem_interior_of_penetration? hwithin ?_ h.tolerance h.sharp hfound
  rw [hcenter]
  exact Polytope.centroid_mem_interior h.spatial horigin

/-! ### Contacts that can be trusted -/

/-- Placed primitives of which a contact can be trusted. -/
inductive TrustsContacts : {α : Type} → [Scalar α] → PairConfig α → Primitive α → Pose α →
    Primitive α → Pose α → Prop
  /-- In any arithmetic, where the verdict is left to portal refinement: a cylinder or a convex hull
  with any body but a plane, a capsule with a box or a triangle. -/
  | general {α : Type} [Scalar α] {c : PairConfig α} {a b : Primitive α} {poseA poseB : Pose α}
    (h : ShapeKind.isDecidedDirectly a.kind b.kind = false) : TrustsContacts c a poseA b poseB
  /-- In exact arithmetic two triangles, where they do not lie in one plane and the search is
  sharp. -/
  | spatial {c : PairConfig ℝ} {a b : Primitive ℝ} {poseA poseB : Pose ℝ} {t u : Triangle ℝ}
    (h : c.SpatialTriangles a poseA b poseB t u) : TrustsContacts c a poseA b poseB

theorem TrustsContacts.collidePrimitives {α : Type} [Scalar α] {c : PairConfig α}
    {a b : Primitive α} {poseA poseB : Pose α} (h : c.TrustsContacts a poseA b poseB)
    (hcontact : c.separatePrimitives a poseA b poseB ≠ []) :
    c.collidePrimitives a poseA b poseB = true := by
  cases h with
  | general hgeneral => exact collide_of_contact_of_general _ hgeneral _ _ hcontact
  | spatial htriangles => exact collide_of_contact_of_triangles _ htriangles hcontact

end PairConfig

/-! ### Triangles in one plane -/

/-- Triangles in one plane do not overlap. -/
theorem Polytope.overlap_of_inOnePlane {A B : Triangle ℝ} (hlong : shortestAxis < ‖A.faceAxis‖)
    (hplane : A.InOnePlane B) : overlap (.triangle A) (.triangle B) = false := by
  have hface : A.faceAxis ≠ 0 := norm_pos_iff.mp (shortestAxis_pos.trans hlong)
  obtain ⟨n, hn, height, hfirst, hsecond⟩ := hplane
  have hcorners : n.dot A.b = n.dot A.a ∧ n.dot A.c = n.dot A.b := by
    simp only [Triangle.corners, List.forall_mem_cons] at hfirst
    obtain ⟨ha, hb, hc, -⟩ := hfirst
    exact ⟨hb.trans ha.symm, hc.trans hb.symm⟩
  -- The plane is that of the first triangle, whose normal is tried.
  obtain ⟨s, hs⟩ := exists_multiple_of_faceAxis hface (n := n)
    (by rw [Vec3.dot_sub, hcorners.1, sub_self]) (by rw [Vec3.dot_sub, hcorners.2, sub_self])
  have hnonzero : s ≠ 0 := fun hzero ↦ hn (by rw [hs, hzero, zero_smul])
  have hbehind : (triangle A).Behind (.triangle B) A.faceAxis := by
    intro p hp q hq
    have hlevel : s * A.faceAxis.dot (p - q) = 0 := by
      rw [← Vec3.smul_dot, ← hs, Vec3.dot_sub, hfirst p hp, hsecond q hq, sub_self]
    exact ((mul_eq_zero.mp hlevel).resolve_left hnonzero).le
  have hseparated : separatedBy (.triangle A) (.triangle B) A.faceAxis = true :=
    (separatedBy_iff (List.cons_ne_nil _ _) (List.cons_ne_nil _ _) _).mpr ⟨hlong, .inl hbehind⟩
  rw [overlap, Bool.not_eq_false', List.any_eq_true]
  exact ⟨_, by simp [candidateAxes, triangle], hseparated⟩

/-! ### Contacts along a segment -/

/-- A search that looks from the interior point straight at a farthest point, at least one beyond
the origin, ends there and gives a contact. -/
theorem DifferenceBody.penetration?_of_segment {d : DifferenceBody ℝ} {u : Vec3 ℝ}
    (hu : u.IsDirection) (config : PortalConfig ℝ) {s : ℝ} (hs : 0 < s)
    (hinterior : (Portal.interiorPoint d).v = -(s • u)) (hbeyond : 1 ≤ (d.support u).v.dot u)
    (haside : Portal.isTiny ((-(s • u)).cross (d.support u).v).normSq = true) :
    Portal.discover d config.iterations = .segment (d.support u) ∧
      d.penetration? config ≠ none := by
  have hsmall : 4 * (Portal.zeroWidth : ℝ) < 1 := by
    rw [Portal.zeroWidth_real]
    norm_num
  have htowards : -(Portal.interiorPoint d).v.normalize = u := by
    rw [hinterior, Vec3.normalize_eq, norm_neg, norm_smul, hu.norm_eq, mul_one,
      Real.norm_of_nonneg hs.le, smul_neg, neg_neg, smul_smul, inv_mul_cancel₀ hs.ne', one_smul]
  have hlong : 1 ≤ ‖(d.support u).v‖ := (hbeyond.trans (le_abs_self _)).trans (hu.abs_dot_le _)
  have hfound : Portal.discover d config.iterations = .segment (d.support u) := by
    refine Portal.discover_eq_segment htowards ?_ (hinterior ▸ haside) ?_
    · rw [Portal.isAhead_iff]
      linarith [Portal.zeroWidth_pos]
    · refine Bool.eq_false_iff.mpr fun htiny ↦ ?_
      linarith [Portal.norm_lt_of_isTinyVector htiny]
  refine ⟨hfound, ?_⟩
  have hwide : ¬ ‖(d.support u).v‖ ≤ Portal.zeroWidth := by linarith [Portal.zeroWidth_pos]
  simp [penetration?, hfound, Vec3.unit?_eq, hwide]

namespace PairConfig

/-- Bodies that points span have the contacts of portal refinement. -/
theorem separatePrimitives_of_points (c : PairConfig ℝ) {a b : Primitive ℝ} {A B : List (Vec3 ℝ)}
    (ha : a.points? = some A) (hb : b.points? = some B) (poseA poseB : Pose ℝ) :
    c.separatePrimitives a poseA b poseB =
      ((searched a poseA b poseB).penetration? c.portal).toList := by
  cases a <;> cases ha <;> cases b <;> cases hb <;> rfl

/-- Two bodies that points span, not turned, each with one point farther than all others along the
way from the interior point through the origin: if that way all but leads through the difference of
the two points, at least one beyond the origin, the search ends there and gives a contact. -/
theorem separate_farthest_points (c : PairConfig ℝ) {a b : Primitive ℝ} {A B : List (Vec3 ℝ)}
    (ha : a.points? = some A) (hb : b.points? = some B) {u p q : Vec3 ℝ} (hu : u.IsDirection)
    (hp : p ∈ A) (hpfar : ∀ r ∈ A, r ≠ p → r.dot u < p.dot u)
    (hq : q ∈ B) (hqfar : ∀ r ∈ B, r ≠ q → r.dot (-u) < q.dot (-u)) {s : ℝ} (hs : 0 < s)
    (hinterior : (Portal.interiorPoint (searched a .identity b .identity)).v = -(s • u))
    (hbeyond : 1 ≤ (p - q).dot u)
    (haside : Portal.isTiny ((-(s • u)).cross (p - q)).normSq = true) :
    let d := searched a .identity b .identity
    (d.support u).v = p - q ∧
      Portal.discover d c.portal.iterations = .segment (d.support u) ∧
      c.separatePrimitives a .identity b .identity ≠ [] := by
  intro d
  have hsupport : (d.support u).v = p - q := by
    have hstart (v : Vec3 ℝ) : Vec3.zero + v = v := by rw [Vec3.zero_eq, zero_add]
    exact congrArg₂ (· - ·) ((Part.supportPoint_points ha Vec3.zero hp hpfar).trans (hstart p))
      ((Part.supportPoint_points hb Vec3.zero hq hqfar).trans (hstart q))
  rw [← hsupport] at hbeyond haside
  obtain ⟨hfound, hcontact⟩ :=
    DifferenceBody.penetration?_of_segment hu c.portal hs hinterior hbeyond haside
  refine ⟨hsupport, hfound, ?_⟩
  rw [c.separatePrimitives_of_points ha hb, Ne, Option.toList_eq_nil_iff]
  exact hcontact

end PairConfig

namespace PairTester

/-- Two parts at any poses and with any offsets, and a tester without overrides: if it has a contact
for them and contacts of the pair can be trusted, it finds them to collide. -/
theorem collide_of_contact {α : Type} [Scalar α] (t : PairTester α)
    (hcolliders : t.colliders = .empty) (hseparators : t.separators = .empty) (a b : Part α)
    (poseA poseB : Pose α)
    (hpair : t.config.TrustsContacts a.primitive (a.rebase poseA) b.primitive (b.rebase poseB))
    (hcontact : t.separate ⟨.part a, poseA⟩ ⟨.part b, poseB⟩ ≠ []) :
    t.collide ⟨.part a, poseA⟩ ⟨.part b, poseB⟩ = true := by
  have hprimitives : t.config.separatePrimitives a.primitive (a.rebase poseA) b.primitive
      (b.rebase poseB) ≠ [] := by
    intro hnone
    rw [t.separate_parts hseparators, hnone] at hcontact
    exact hcontact rfl
  rw [t.collide_parts hcolliders]
  exact hpair.collidePrimitives hprimitives

/-- A triangle that lies flat and a blade that cuts it: the search from their centres leads straight
along the cut. The same corners span a hull, which a contact finds to collide with the blade too. -/
theorem collide_of_contact_with_blade :
    let t : PairTester ℝ := { config := ⟨.standard, 4⟩ }
    let flat : Triangle ℝ := ⟨⟨-2, 0, 0⟩, ⟨1, 1, 0⟩, ⟨1, -1, 0⟩⟩
    let blade : Triangle ℝ := ⟨⟨1, 0, 0⟩, ⟨-2, 0, 1⟩, ⟨-2, 0, -1⟩⟩
    let body (prim : Primitive ℝ) : Placed ℝ := ⟨.part (.bare prim), .identity⟩
    t.colliders = .empty ∧ t.separators = .empty ∧
      ShapeKind.isDecidedDirectly .convexHull .triangle = false ∧
      t.separate (body (.convexHull flat.corners)) (body (.triangle blade)) ≠ [] ∧
      t.collide (body (.convexHull flat.corners)) (body (.triangle blade)) = true ∧
      t.config.SpatialTriangles (.triangle flat) .identity (.triangle blade) .identity flat
        blade ∧
      t.separate (body (.triangle flat)) (body (.triangle blade)) ≠ [] ∧
      t.collide (body (.triangle flat)) (body (.triangle blade)) = true := by
  intro t flat blade body
  let left : Vec3 ℝ := ⟨-1, 0, 0⟩
  have hleft : left.IsDirection := by simp [Vec3.IsDirection, Vec3.dot_eq, left]
  have hline : (-((1 : ℝ) • left)).cross (flat.a - blade.a) = 0 := by
    ext <;> simp [Vec3.cross, flat, blade, left]
  have hsearch {a : Primitive ℝ} (ha : a.points? = some flat.corners) :
      let d := PairConfig.searched a .identity (.triangle blade) .identity
      Portal.isTinyVector d.center.v = false ∧ (Portal.interiorPoint d).v = -((1 : ℝ) • left) ∧
        (d.support left).v = flat.a - blade.a ∧
        Portal.discover d t.config.portal.iterations = .segment (d.support left) ∧
        t.separate (body a) (body (.triangle blade)) ≠ [] := by
    intro d
    have hcenter : d.center.v = -((1 : ℝ) • left) := by
      show a.center .identity - (Primitive.triangle blade).center .identity = _
      rw [Primitive.center_of_points ha, Primitive.center_of_points rfl,
        Pose.identity_transformPoint, Pose.identity_transformPoint, ← Triangle.centroid_eq,
        ← Triangle.centroid_eq, Triangle.centroid_eq_smul, Triangle.centroid_eq_smul]
      ext <;> norm_num [flat, blade, left]
    have hlarge : Portal.isTinyVector d.center.v = false := by
      refine Portal.isTinyVector_eq_false 0 ?_
      rw [hcenter, Portal.zeroWidth_real]
      norm_num [Vec3.get, left]
    have hinterior : (Portal.interiorPoint d).v = -((1 : ℝ) • left) := by
      rw [Portal.interiorPoint_of_large hlarge, hcenter]
    obtain ⟨hsupport, hfound, hcontact⟩ := t.config.separate_farthest_points ha
      (b := .triangle blade) rfl (p := flat.a) (q := blade.a) hleft
      (by simp [Triangle.corners])
      (by norm_num [Triangle.corners, Vec3.dot_eq, flat, left])
      (by simp [Triangle.corners])
      (by norm_num [Triangle.corners, Vec3.dot_eq, blade, left]) one_pos hinterior
      (by norm_num [Vec3.dot_eq, flat, blade, left])
      (by rw [hline, Vec3.normSq, Vec3.zero_dot]; exact Portal.isTiny_zero)
    refine ⟨hlarge, hinterior, hsupport, hfound, ?_⟩
    rw [t.separate_parts rfl]
    exact (not_congr (Contacts.limit_eq_nil_iff (by decide))).mpr hcontact
  obtain ⟨-, -, -, -, hhull⟩ := hsearch (a := .convexHull flat.corners) rfl
  obtain ⟨hlarge, hinterior, hsupport, hfound, hflat⟩ := hsearch (a := .triangle flat) rfl
  have hspatial : t.config.SpatialTriangles (.triangle flat) .identity (.triangle blade)
      .identity flat blade := by
    refine ⟨rfl, rfl, Pose.identity_rigid, Pose.identity_rigid, ?_, ?_,
      ⟨⟨fun htiny ↦ ?_, fun v1 hv1 ↦ ?_, fun p hp ↦ ?_⟩, fun p q hp ↦ ?_⟩⟩
    · rintro ⟨n, hn, height, hlow, hcut⟩
      simp only [Triangle.corners, Triangle.placed, Triangle.map, Pose.identity_transformPoint,
        List.forall_mem_cons, Vec3.dot_eq, flat, blade] at hlow hcut
      have hx : n.x = 0 := by linarith
      have hy : n.y = 0 := by linarith
      have hz : n.z = 0 := by linarith
      exact hn (Vec3.ext hx hy hz)
    · show (0 : ℝ) ≤ PortalConfig.standard.tolerance
      simp [PortalConfig.standard]
    · cases hlarge.symm.trans htiny
    · obtain rfl := Discovery.segment.inj (hfound.symm.trans hv1)
      rw [hinterior, hsupport, hline]
    · cases hfound.symm.trans hp
    · cases hfound.symm.trans hp
  exact ⟨rfl, rfl, rfl, hhull,
    t.collide_of_contact rfl rfl (.bare (.convexHull flat.corners)) (.bare (.triangle blade))
      .identity .identity (.general rfl) hhull,
    hspatial, hflat,
    t.collide_of_contact rfl rfl (.bare (.triangle flat)) (.bare (.triangle blade)) .identity
      .identity (.spatial hspatial) hflat⟩

/-- A triangle has a contact with itself, which it does not collide with: the centres are equal, the
search starts a little off the origin, and the square of the area between the start and the farthest
corner counts as zero. -/
theorem contact_without_collision :
    let t : PairTester ℝ := { config := ⟨.standard, 20⟩ }
    let corners : Triangle ℝ := ⟨⟨1, 0, 0⟩, ⟨-1, 1, 0⟩, ⟨0, -1, 0⟩⟩
    let body : Placed ℝ := ⟨.part (.bare (.triangle corners)), .identity⟩
    Primitive.triangleOf? corners = .ok (.triangle corners) ∧
      (PortalConfig.standard : PortalConfig ℝ).validate = .ok () ∧
      t.separate body body ≠ [] ∧ t.collide body body = false := by
  intro t corners body
  let left : Vec3 ℝ := ⟨-1, 0, 0⟩
  let d := PairConfig.searched (.triangle corners) .identity (.triangle corners) .identity
  have hleft : left.IsDirection := by simp [Vec3.IsDirection, Vec3.dot_eq, left]
  have hcenter : d.center.v = 0 := sub_self _
  have htiny : Portal.isTinyVector (0 : Vec3 ℝ) = true := by
    simp [Portal.isTinyVector, Portal.isTiny_zero]
  have hinterior : (Portal.interiorPoint d).v = -((10 * Portal.zeroWidth : ℝ) • left) := by
    simp only [Portal.interiorPoint, hcenter, htiny, if_true]
    ext <;> simp [left]
  have haside : Portal.isTiny ((-((10 * Portal.zeroWidth : ℝ) • left)).cross
      (corners.b - corners.a)).normSq = true := by
    rw [Portal.isTiny_iff, Portal.zeroWidth_real]
    norm_num [Vec3.normSq, Vec3.dot_eq, Vec3.cross, corners, left]
  obtain ⟨-, -, hcontact⟩ := t.config.separate_farthest_points (a := .triangle corners)
    (b := .triangle corners) rfl rfl (p := corners.b) (q := corners.a) hleft
    (by simp [Triangle.corners])
    (by norm_num [Triangle.corners, Vec3.dot_eq, corners, left])
    (by simp [Triangle.corners])
    (by norm_num [Triangle.corners, Vec3.dot_eq, corners, left])
    (mul_pos (by norm_num) Portal.zeroWidth_pos) hinterior
    (by norm_num [Vec3.dot_eq, corners, left]) haside
  refine ⟨?_, ?_, ?_, ?_⟩
  · simp [Primitive.triangleOf?, Primitive.checkPoints]
    rfl
  · simp [PortalConfig.validate, PortalConfig.standard, wordLimit, isFiniteNonnegative]
  · rw [t.separate_parts rfl]
    exact (not_congr (Contacts.limit_eq_nil_iff (by decide))).mpr hcontact
  · rw [t.collide_parts rfl]
    show Polytope.overlap (.triangle (corners.placed .identity))
      (.triangle (corners.placed .identity)) = false
    rw [corners.placed_identity]
    refine Polytope.overlap_of_inOnePlane ?_ ?_
    · rw [Polytope.shortestAxis, Scalar.decimal_real, Vec3.norm_eq_sqrt_dot]
      refine Real.lt_sqrt_of_sq_lt ?_
      norm_num [Triangle.faceAxis, Vec3.dot_eq, Vec3.cross, corners]
    · have hup : (Vec3.axis 2 : Vec3 ℝ) ≠ 0 := (Vec3.axis_isDirection 2).ne_zero
      refine ⟨Vec3.axis 2, hup, 0, ?_, ?_⟩ <;>
        simp [Triangle.corners, Vec3.axis, Vec3.ofFn, Vec3.dot_eq, corners]

end PairTester

end Collision
