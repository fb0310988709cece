import Collision.Proofs.Pair.FlatFaces
import Collision.Proofs.Pair.Resolution
import Collision.Proofs.Shape.Closest

/-!
# Contacts of a sphere with a core

A round body is its core grown by a radius (`Primitive.mem_region_iff`): the core of a sphere is its
centre, that of a capsule a segment, and boxes and triangles are their own cores.

The contact of a sphere with a core is built on the point of the core closest to the centre, and
its normal has all of the core behind it, so it is a way out (`Round.contact_resolve`). Where the
closest point is the centre itself, the routines fall back on a normal that is perpendicular to the
core; a centre inside a box is pushed out through a face instead. `Round.ordered?_resolve` says of
all the partners of a sphere that the contacts of the pair answer for it.
-/

set_option autoImplicit false
set_option relaxedAutoImplicit false

namespace Collision

/-! ### Cores -/

namespace Primitive

/-- What is left of the primitive without its radius. -/
def core : Primitive ℝ → Set (Vec3 ℝ)
  | sphere _ => {0}
  | capsule _ halfHeight => beam (Vec3.axis 2) halfHeight
  | prim => prim.region

/-- The radius by which the core is grown. -/
noncomputable def coreRadius : Primitive ℝ → ℝ
  | sphere radius | capsule radius _ => radius
  | _ => 0

/-- A primitive is its core grown by its radius. -/
theorem mem_region_iff (prim : Primitive ℝ) (p : Vec3 ℝ) :
    p ∈ prim.region ↔ ∃ q ∈ prim.core, ‖p - q‖ ≤ prim.coreRadius := by
  have hflat (points : Set (Vec3 ℝ)) : p ∈ points ↔ ∃ q ∈ points, ‖p - q‖ ≤ 0 := by
    simp only [norm_le_zero_iff, sub_eq_zero, exists_eq_right']
  cases prim with
  | sphere radius =>
    show ‖p‖ ≤ radius ↔ ∃ q ∈ ({0} : Set (Vec3 ℝ)), ‖p - q‖ ≤ radius
    simp only [Set.mem_singleton_iff, exists_eq_left, sub_zero]
  | capsule radius halfHeight =>
    constructor
    · rintro ⟨height, hheight, hnorm⟩
      refine ⟨height • Vec3.axis 2, smul_mem_beam hheight, ?_⟩
      rwa [smul_axis_two]
    · rintro ⟨_, ⟨height, hheight, rfl⟩, hnorm⟩
      refine ⟨height, abs_le.mpr (Set.mem_Icc.mp hheight), ?_⟩
      rwa [← smul_axis_two]
  | box half => exact hflat _
  | cylinder radius halfHeight => exact hflat _
  | plane => exact hflat _
  | triangle corners => exact hflat _
  | meshTriangle corners => exact hflat _
  | convexHull points => exact hflat _

theorem mem_image_region_iff (prim : Primitive ℝ) {pose : Pose ℝ} (hpose : pose.Rigid)
    (p : Vec3 ℝ) : p ∈ pose.transformPoint '' prim.region ↔
      ∃ q ∈ pose.transformPoint '' prim.core, ‖p - q‖ ≤ prim.coreRadius := by
  constructor
  · rintro ⟨p, hp, rfl⟩
    obtain ⟨q, hq, hle⟩ := (prim.mem_region_iff p).mp hp
    exact ⟨_, ⟨q, hq, rfl⟩, (hpose.norm_transformPoint_sub p q).trans_le hle⟩
  · rintro ⟨_, ⟨q, hq, rfl⟩, hle⟩
    rw [← hpose.transformPoint_inverseTransformPoint p, hpose.norm_transformPoint_sub] at hle
    exact ⟨_, (prim.mem_region_iff _).mpr ⟨q, hq, hle⟩,
      hpose.transformPoint_inverseTransformPoint p⟩

end Primitive

namespace Round

/-! ### The contact at a closest point -/

/-- The centre is closer to the points than `reach` once they are moved by an offset. -/
def Near (points : Set (Vec3 ℝ)) (center : Vec3 ℝ) (reach : ℝ) (offset : Vec3 ℝ) : Prop :=
  ∃ x ∈ points, ‖x + offset - center‖ < reach

variable {points : Set (Vec3 ℝ)} {center closest fallback : Vec3 ℝ}

theorem near_zero_iff {reach : ℝ} (hclosest : IsClosest points center closest) :
    Near points center reach 0 ↔ ‖closest - center‖ < reach := by
  constructor
  · rintro ⟨x, hx, hlt⟩
    rw [add_zero] at hlt
    exact (hclosest.norm_le hx).trans_lt hlt
  · exact fun hlt ↦ ⟨closest, hclosest.1, by rwa [add_zero]⟩

/-- Two points are in contact if they are closer than the radii together, and there is one contact
then. -/
theorem contact_cases (pa : Vec3 ℝ) (ra : ℝ) (pb : Vec3 ℝ) (rb : ℝ) (fallback : Vec3 ℝ) :
    (ra + rb ≤ ‖pa - pb‖ ∧ contact pa ra pb rb fallback = []) ∨
      ‖pa - pb‖ < ra + rb ∧ ∃ c, contact pa ra pb rb fallback = [c] ∧ 0 < c.depth := by
  rw [norm_sub_rev, ← Vec3.norm_eq_norm]
  simp only [contact]
  rcases le_or_gt (ra + rb) (pb - pa).norm with happart | hnear
  · exact .inl ⟨happart, if_pos happart⟩
  · rw [if_neg (not_le.mpr hnear)]
    exact .inr ⟨hnear, _, rfl, sub_pos.mpr hnear⟩

theorem contact_ne_nil_iff (pa : Vec3 ℝ) (ra : ℝ) (pb : Vec3 ℝ) (rb : ℝ) (fallback : Vec3 ℝ) :
    contact pa ra pb rb fallback ≠ [] ↔ ‖pa - pb‖ < ra + rb := by
  rcases contact_cases pa ra pb rb fallback with ⟨happart, hnil⟩ | ⟨hnear, c, hc, -⟩
  · exact iff_of_false (not_not_intro hnil) (not_lt.mpr happart)
  · exact iff_of_true (hc ▸ List.cons_ne_nil c []) hnear

/-- Moving points along a normal that has all of them behind the plane through one of them leaves
them as far from the centre as that plane is. -/
theorem not_near_of_behind {normal : Vec3 ℝ} {depth reach : ℝ} (hnormal : normal.IsDirection)
    (level : ℝ) (hbehind : ∀ x ∈ points, level ≤ (x - center).dot normal)
    (hreach : reach ≤ level + depth) : ¬ Near points center reach (normal * depth) := by
  rintro ⟨x, hx, hlt⟩
  have hle := (le_abs_self _).trans (hnormal.abs_dot_le (x + normal * depth - center))
  have hsplit : (x + normal * depth - center).dot normal = (x - center).dot normal + depth := by
    rw [add_sub_right_comm, Vec3.add_dot, Vec3.mul_eq_smul, Vec3.smul_dot, hnormal, mul_one]
  linarith [hbehind x hx]

/-- The contact of a centre grown by a radius and the closest point of a core grown by another
answers for the pair, if the fallback is perpendicular to a core that has the centre in it. -/
theorem contact_resolve {ra rb : ℝ} (hclosest : IsClosest points center closest)
    (hfallback : closest = center →
      fallback.IsDirection ∧ ∀ x ∈ points, (x - center).dot fallback = 0) :
    (contact center ra closest rb fallback).Resolve (Near points center (ra + rb)) := by
  have hnorm : (closest - center).norm = ‖closest - center‖ := rfl
  simp only [contact, hnorm, Scalar.zero_real]
  split_ifs with happart hpos
  · refine Contacts.resolve_nil ?_
    rw [near_zero_iff hclosest]
    exact not_lt.mpr happart
  · have hdirection : ((closest - center) / ‖closest - center‖).IsDirection := by
      rw [Vec3.div_eq_smul]
      exact Vec3.smul_inv_norm_isDirection (norm_pos_iff.mp hpos)
    refine Contacts.resolve_singleton ((near_zero_iff hclosest).mpr (not_le.mp happart))
      hdirection (sub_pos.mpr (not_le.mp happart)) ?_
    refine not_near_of_behind hdirection ‖closest - center‖ (fun x hx ↦ ?_)
      (by linarith)
    have hsplit : (x - center).dot (closest - center) =
        ‖closest - center‖ * ‖closest - center‖ - (center - closest).dot (x - closest) := by
      rw [← Vec3.dot_self_eq]
      simp only [Vec3.sub_dot, Vec3.dot_sub, Vec3.dot_comm x, Vec3.dot_comm center closest]
      ring
    rw [Vec3.div_eq_smul, Vec3.dot_smul, ← div_eq_inv_mul, le_div_iff₀ hpos, hsplit]
    linarith [hclosest.2 x hx]
  · have hzero : ‖closest - center‖ = 0 := le_antisymm (not_lt.mp hpos) (norm_nonneg _)
    obtain ⟨hdirection, hperp⟩ := hfallback (sub_eq_zero.mp (norm_eq_zero.mp hzero))
    refine Contacts.resolve_singleton ((near_zero_iff hclosest).mpr (not_le.mp happart))
      hdirection (sub_pos.mpr (not_le.mp happart)) ?_
    exact not_near_of_behind hdirection 0 (fun x hx ↦ (hperp x hx).ge) (by linarith)

/-! ### Boxes -/

theorem insideBox_iff (half p : Vec3 ℝ) :
    insideBox half p = true ↔ p ∈ (Primitive.box half).region := by
  simp only [insideBox, List.all_cons, List.all_nil, Bool.and_true, Bool.and_eq_true,
    decide_eq_true_eq, ← abs_le]
  rfl

theorem axis_isDirection {pose : Pose ℝ} (hpose : pose.Rigid) (i : Fin 3) :
    (pose.axis i).IsDirection :=
  (Rotation.apply_dot_apply hpose _ _).trans (Vec3.axis_isDirection i)

/-- A placed axis measures the difference of placed points as the component of the difference. -/
theorem transformPoint_sub_dot_axis {pose : Pose ℝ} (hpose : pose.Rigid) (p q : Vec3 ℝ)
    (i : Fin 3) : (pose.transformPoint p - pose.transformPoint q).dot (pose.axis i) =
      (p - q).get i := by
  rw [Pose.transformPoint_sub, Pose.axis, Rotation.apply_dot_apply hpose, Vec3.dot_axis]

/-- A centre inside a box can be pushed out through any face. -/
theorem inside_resolve {radius : ℝ} (hradius : 0 < radius) {half inner : Vec3 ℝ} {box : Pose ℝ}
    (hbox : box.Rigid) (hinside : inner ∈ (Primitive.box half).region) {i : Fin 3} {side : ℝ}
    (hside : |side| = 1) (hinner : side * inner.get i = |inner.get i|) (position : Vec3 ℝ) :
    Contacts.Resolve
      [{ position, normal := -(box.axis i * side), depth := radius + (half.get i - |inner.get i|) }]
      (Near (box.transformPoint '' (Primitive.box half).region) (box.transformPoint inner)
        radius) := by
  have hgap := Primitive.mem_box_region_iff.mp hinside i
  have hdirection : (-(box.axis i * side)).IsDirection := by
    refine Vec3.IsDirection.neg ?_
    rw [Vec3.mul_eq_smul, Vec3.IsDirection, Vec3.smul_dot, Vec3.dot_smul, axis_isDirection hbox i,
      mul_one, ← abs_mul_abs_self, hside, one_mul]
  refine Contacts.resolve_singleton ⟨_, ⟨inner, hinside, rfl⟩, ?_⟩ hdirection ?_ ?_
  · rwa [add_zero, sub_self, norm_zero]
  · show 0 < radius + (half.get i - |inner.get i|)
    linarith
  · refine not_near_of_behind hdirection (|inner.get i| - half.get i) ?_ (by linarith)
    rintro _ ⟨q, hq, rfl⟩
    have hfar : side * q.get i ≤ half.get i := by
      have hle := (le_abs_self (side * q.get i)).trans_eq (abs_mul side (q.get i))
      rw [hside, one_mul] at hle
      exact hle.trans (Primitive.mem_box_region_iff.mp hq i)
    rw [Vec3.dot_neg, Vec3.mul_eq_smul, Vec3.dot_smul, transformPoint_sub_dot_axis hbox,
      Vec3.get_sub, mul_sub, hinner]
    linarith

/-- A box takes part with radius zero. -/
theorem sphereBox_resolve {radius : ℝ} (hradius : 0 < radius) {half : Vec3 ℝ}
    (hhalf : (Primitive.box half).Valid) (sphere : Pose ℝ) {box : Pose ℝ} (hbox : box.Rigid) :
    (sphereBox radius sphere half box).Resolve
      (Near (box.transformPoint '' (Primitive.box half).region) sphere.position
        (radius + 0)) := by
  have hcenter := hbox.transformPoint_inverseTransformPoint sphere.position
  have hlocal := isClosest_clampTo hhalf (box.inverseTransformPoint sphere.position)
  have hclosest := hlocal.image hbox
  simp only [sphereBox]
  generalize box.inverseTransformPoint sphere.position = center at hcenter hlocal hclosest ⊢
  by_cases hinside : insideBox half center = true
  · rw [if_pos hinside, ← hcenter, add_zero]
    refine inside_resolve hradius hbox ((insideBox_iff half center).mp hinside) ?_ ?_ _ <;>
      split_ifs with hsign
    · simp
    · simp
    · rw [Scalar.one_real, one_mul, abs_of_nonneg (by simpa using hsign)]
    · rw [Scalar.one_real, neg_one_mul, abs_of_neg (by simpa using hsign)]
  · rw [if_neg hinside, Scalar.zero_real]
    refine contact_resolve hclosest fun hsame ↦ ?_
    -- The closest point would be the centre, and the centre inside.
    rw [← hcenter, ← sub_eq_zero, ← norm_eq_zero, hbox.norm_transformPoint_sub, norm_eq_zero,
      sub_eq_zero] at hsame
    exact absurd ((insideBox_iff half center).mpr (hsame ▸ hlocal.1)) hinside

/-! ### Capsules -/

/-- The core of a placed capsule as a segment. -/
theorem capsuleCore_points {halfHeight : ℝ} (hheight : 0 < halfHeight) (pose : Pose ℝ) :
    (capsuleCore halfHeight pose).points =
      pose.transformPoint '' beam (Vec3.axis 2) halfHeight := by
  have hpoint (t : ℝ) : (capsuleCore halfHeight pose).point t =
      pose.transformPoint (((2 * t - 1) * halfHeight) • Vec3.axis 2) := by
    show pose.position - pose.axis 2 * halfHeight + (pose.position + pose.axis 2 * halfHeight -
      (pose.position - pose.axis 2 * halfHeight)) * t = pose.position + pose.rotation.apply _
    rw [Rotation.apply_smul]
    simp only [Vec3.mul_eq_smul, Pose.axis]
    module
  ext x
  constructor
  · rintro ⟨t, hlow, hhigh, rfl⟩
    refine ⟨_, smul_mem_beam (abs_le.mpr ⟨?_, ?_⟩), (hpoint t).symm⟩ <;> nlinarith
  · rintro ⟨_, ⟨s, ⟨hlow, hhigh⟩, rfl⟩, rfl⟩
    have hleast : -1 ≤ s / halfHeight := (le_div_iff₀ hheight).mpr (by linarith)
    have hmost : s / halfHeight ≤ 1 := (div_le_one hheight).mpr hhigh
    refine ⟨(s / halfHeight + 1) / 2, by linarith, by linarith, ?_⟩
    have hplace : (2 * ((s / halfHeight + 1) / 2) - 1) * halfHeight = s := by
      field_simp
      ring
    rw [hpoint, hplace]

theorem capsuleCore_extent (halfHeight : ℝ) (pose : Pose ℝ) :
    (capsuleCore halfHeight pose).extent = (2 * halfHeight) • pose.axis 2 := by
  show pose.position + pose.axis 2 * halfHeight - (pose.position - pose.axis 2 * halfHeight) = _
  rw [Vec3.mul_eq_smul]
  module

theorem capsuleCore_normSq (halfHeight : ℝ) {pose : Pose ℝ} (hpose : pose.Rigid) :
    (capsuleCore halfHeight pose).extent.normSq = (2 * halfHeight) * (2 * halfHeight) := by
  rw [capsuleCore_extent, Vec3.normSq, Vec3.smul_dot, Vec3.dot_smul, axis_isDirection hpose,
    mul_one]

/-- The point that is looked for on the core is the closest one, if the core is long enough. -/
theorem isClosest_capsuleCore {halfHeight : ℝ} (hlong : 1e-9 < 2 * halfHeight) (p : Vec3 ℝ)
    {capsule : Pose ℝ} (hcapsule : capsule.Rigid) :
    IsClosest (capsule.transformPoint '' beam (Vec3.axis 2) halfHeight) p
      (Segment.closestPoints ⟨p, p⟩ (capsuleCore halfHeight capsule)).2 := by
  have hheight : 0 < halfHeight := by linarith [show (0 : ℝ) < 1e-9 by norm_num]
  have hextent : (Segment.negligible : ℝ) < (capsuleCore halfHeight capsule).extent.normSq := by
    rw [capsuleCore_normSq halfHeight hcapsule, Segment.negligible_eq]
    nlinarith
  have hclosest := Segment.isClosest_closestPoints p hextent
  rwa [capsuleCore_points hheight] at hclosest

/-- The core of a capsule lies across its first axis. -/
theorem capsule_core_perp {capsule : Pose ℝ} (hcapsule : capsule.Rigid) {halfHeight : ℝ}
    {x y : Vec3 ℝ} (hx : x ∈ capsule.transformPoint '' beam (Vec3.axis 2) halfHeight)
    (hy : y ∈ capsule.transformPoint '' beam (Vec3.axis 2) halfHeight) :
    (x - y).dot (capsule.axis 0) = 0 := by
  obtain ⟨_, ⟨s, -, rfl⟩, rfl⟩ := hx
  obtain ⟨_, ⟨t, -, rfl⟩, rfl⟩ := hy
  rw [transformPoint_sub_dot_axis hcapsule, ← sub_smul, ← Vec3.dot_axis, Vec3.smul_dot,
    Vec3.dot_axis]
  simp [Vec3.axis, Vec3.ofFn, Vec3.get]

theorem sphereCapsule_resolve {capsuleRadius halfHeight : ℝ} (hlong : 1e-9 < 2 * halfHeight)
    (radius : ℝ) (sphere : Pose ℝ) {capsule : Pose ℝ} (hcapsule : capsule.Rigid) :
    (sphereCapsule radius sphere capsuleRadius halfHeight capsule).Resolve
      (Near (capsule.transformPoint '' beam (Vec3.axis 2) halfHeight) sphere.position
        (radius + capsuleRadius)) := by
  have hclosest := isClosest_capsuleCore hlong sphere.position hcapsule
  refine contact_resolve hclosest fun hsame ↦ ⟨axis_isDirection hcapsule 0, fun x hx ↦ ?_⟩
  exact capsule_core_perp hcapsule hx (hsame ▸ hclosest.1)

/-! ### Triangles -/

/-- Moving a triangle does not change the length of the vector product of its edges. -/
theorem norm_cross_placed (t : Triangle ℝ) {pose : Pose ℝ} (hpose : pose.Rigid) :
    ‖((t.placed pose).b - (t.placed pose).a).cross ((t.placed pose).c - (t.placed pose).a)‖ =
      ‖(t.b - t.a).cross (t.c - t.a)‖ := by
  simp only [Vec3.norm_eq_sqrt_dot, Triangle.placed, Triangle.map, Vec3.cross_dot_self,
    Pose.transformPoint_sub, Rotation.apply_dot_apply hpose]

/-- A triangle takes part with radius zero. -/
theorem sphereTriangle_resolve {t : Triangle ℝ} (ht : 1e-18 < ‖(t.b - t.a).cross (t.c - t.a)‖)
    (radius : ℝ) (sphere : Pose ℝ) {triangle : Pose ℝ} (htriangle : triangle.Rigid) :
    (sphereTriangle radius sphere (t.placed triangle)).Resolve
      (Near (triangle.transformPoint '' Vec3.hull t.corners) sphere.position (radius + 0)) := by
  have hhull : triangle.transformPoint '' Vec3.hull t.corners =
      Vec3.hull (t.placed triangle).corners := (hull_map_transformPoint t.corners triangle).symm
  rw [← norm_cross_placed t htriangle] at ht
  rw [hhull]
  generalize t.placed triangle = u at ht ⊢
  have hcross : (u.b - u.a).cross (u.c - u.a) ≠ 0 :=
    norm_pos_iff.mp ((by norm_num : (0 : ℝ) < 1e-18).trans ht)
  have hclosest := Triangle.isClosest_closestPoint hcross sphere.position
  have hb := Vec3.cross_dot_left (u.b - u.a) (u.c - u.a)
  have hc := Vec3.cross_dot_right (u.b - u.a) (u.c - u.a)
  simp only [sphereTriangle, Vec3.unit?_eq, Segment.negligible_eq, if_neg (not_le.mpr ht),
    Option.getD_some, Scalar.zero_real]
  generalize (u.b - u.a).cross (u.c - u.a) = n at hcross hb hc ⊢
  rw [Vec3.dot_comm, Vec3.sub_dot, sub_eq_zero] at hb hc
  refine contact_resolve hclosest fun hsame ↦
    ⟨Vec3.smul_inv_norm_isDirection hcross, fun x hx ↦ ?_⟩
  obtain ⟨y, z, -, -, -, rfl⟩ := Triangle.mem_hull_corners.mp hx
  have hplane := Triangle.closestPoint_dot hb hc sphere.position
  rw [hsame] at hplane
  rw [Vec3.dot_smul, Vec3.sub_dot, Triangle.pointAt_dot hb hc, hplane, sub_self, mul_zero]

/-! ### The partners of a sphere -/

theorem sphereSphere_resolve (r1 : ℝ) (pose1 : Pose ℝ) (r2 : ℝ) (pose2 : Pose ℝ) :
    (sphereSphere r1 pose1 r2 pose2).Resolve (Near {pose2.position} pose1.position (r1 + r2)) := by
  have hclosest : IsClosest {pose2.position} pose1.position pose2.position := by
    refine ⟨rfl, ?_⟩
    rintro x rfl
    rw [sub_self, Vec3.dot_zero]
  refine contact_resolve hclosest fun hsame ↦ ⟨Vec3.axis_isDirection 0, ?_⟩
  rintro x rfl
  rw [hsame, sub_self, Vec3.zero_dot]

end Round

namespace Primitive

/-- The primitives whose contacts with a sphere have a closed form: spheres, boxes, capsules with a
core that does not count as a point, and triangles that are given a normal. -/
def HasRoundForm : Primitive ℝ → Prop
  | sphere _ | box _ => True
  | capsule _ halfHeight => 1e-9 < 2 * halfHeight
  | triangle t | meshTriangle t => 1e-18 < ‖(t.b - t.a).cross (t.c - t.a)‖
  | cylinder .. | plane | convexHull _ => False

end Primitive

/-- The contacts of a sphere with a partner answer for the centre of the sphere and the core of the
partner. -/
theorem Round.ordered?_resolve {radius : ℝ} (hradius : 0 < radius) {b : Primitive ℝ}
    (hform : b.HasRoundForm) (hvalid : b.Valid) (poseA : Pose ℝ) {poseB : Pose ℝ}
    (hposeB : poseB.Rigid) :
    ∃ contacts, ordered? (.sphere radius) poseA b poseB = some contacts ∧
      contacts.Resolve (Near (poseB.transformPoint '' b.core) poseA.position
        (radius + b.coreRadius)) := by
  cases b with
  | sphere r =>
    refine ⟨_, rfl, ?_⟩
    rw [Primitive.core, Set.image_singleton, Pose.transformPoint_zero]
    exact sphereSphere_resolve radius poseA r poseB
  | box half => exact ⟨_, rfl, sphereBox_resolve hradius hvalid poseA hposeB⟩
  | capsule r halfHeight => exact ⟨_, rfl, sphereCapsule_resolve hform radius poseA hposeB⟩
  | triangle t => exact ⟨_, rfl, sphereTriangle_resolve hform radius poseA hposeB⟩
  | meshTriangle t => exact ⟨_, rfl, sphereTriangle_resolve hform radius poseA hposeB⟩
  | cylinder radius halfHeight => exact hform.elim
  | plane => exact hform.elim
  | convexHull points => exact hform.elim

end Collision
