import Collision.Proofs.Pair.ClosedForms
import Collision.Proofs.Pair.Thickness
import Collision.Proofs.Space.Motion

/-!
# Where the contact of a ball lies

The contact of a ball with a ball, a box or a capsule lies on the line of the normal, half of the
depth below the surface of either body (`Contact.Midway`). Of two balls neither of which holds the
other, this is the middle of the overlap. The depth is the length of a way out, though: that of a
small ball deep inside another body, or of a large one that sticks out of a thin body at both sides.
Half of it may lead past the far side of the smaller body.

`PairTester.contact_common_if_thick` says exactly when the position of the contact is a point of the
ball and when it is a point of the other body: half of the depth has to fit into the ball, and it has
to fit into the other body along the normal. `PairTester.contact_outside_inner_ball` is a ball of
radius one in a ball of radius ten, with a contact three lengths outside the smaller ball.
-/

set_option autoImplicit false
set_option relaxedAutoImplicit false

namespace Collision

/-! ### Contacts midway between two surfaces -/

/-- The contact lies half of its depth below the surface of a ball about `pa`, and half of its depth
below that of a ball about `pb` on the side of the normal. -/
structure Contact.Midway (c : Contact ℝ) (pa : Vec3 ℝ) (ra : ℝ) (pb : Vec3 ℝ) (rb : ℝ) :
    Prop where
  isDirection : c.normal.IsDirection
  depth_pos : 0 < c.depth
  below_first : c.position = pa + (ra - c.depth / 2) • c.normal
  below_second : c.position = pb + (c.depth / 2 - rb) • c.normal

namespace Contact.Midway

variable {c : Contact ℝ} {pa pb : Vec3 ℝ} {ra rb : ℝ}

theorem flipped (h : c.Midway pa ra pb rb) : c.flipped.Midway pb rb pa ra where
  isDirection := h.isDirection.neg
  depth_pos := h.depth_pos
  below_first := by
    show c.position = pb + (rb - c.depth / 2) • -c.normal
    rw [h.below_second]
    module
  below_second := by
    show c.position = pa + (c.depth / 2 - ra) • -c.normal
    rw [h.below_first]
    module

/-- A contact half of its depth below the surface of the first ball is midway if the way between the
centres is what the radii exceed by the depth. -/
theorem of_way (distance : ℝ) (hdirection : c.normal.IsDirection) (hpos : 0 < c.depth)
    (hdepth : c.depth = ra + rb - distance) (hway : pb = pa + distance • c.normal)
    (hposition : c.position = pa + (ra - c.depth / 2) • c.normal) : c.Midway pa ra pb rb where
  isDirection := hdirection
  depth_pos := hpos
  below_first := hposition
  below_second := by
    obtain rfl : distance = ra + rb - c.depth := by linarith
    rw [hposition, hway]
    module

theorem norm_sub_first_le_iff (h : c.Midway pa ra pb rb) :
    ‖c.position - pa‖ ≤ ra ↔ c.depth ≤ 4 * ra := by
  rw [h.below_first, add_sub_cancel_left, h.isDirection.norm_smul_eq, abs_sub_comm]
  exact abs_half_sub_le_iff h.depth_pos

theorem norm_sub_second_le_iff (h : c.Midway pa ra pb rb) :
    ‖c.position - pb‖ ≤ rb ↔ c.depth ≤ 4 * rb :=
  h.flipped.norm_sub_first_le_iff

end Contact.Midway

namespace Round

theorem below_first_ball (pa n : Vec3 ℝ) (radius depth : ℝ) :
    pa + n * (radius - depth * @OfScientific.ofScientific ℝ Scalar.instOfScientific 5 true 1) =
      pa + (radius - depth / 2) • n := by
  rw [Vec3.mul_eq_smul, Scalar.half_real, mul_one_div]

/-! ### The contact of two balls -/

/-- The contact of two balls lies midway between them, and its normal leads from the one centre to
the other, or is the fallback if there is no way between them. -/
theorem contact_midway (pa : Vec3 ℝ) (ra : ℝ) (pb : Vec3 ℝ) (rb : ℝ) {fallback : Vec3 ℝ}
    (hfallback : pb = pa → fallback.IsDirection) :
    contact pa ra pb rb fallback = [] ∨ ∃ c, contact pa ra pb rb fallback = [c] ∧
      c.Midway pa ra pb rb ∧
        (c.normal = ‖pb - pa‖⁻¹ • (pb - pa) ∨ pb = pa ∧ c.normal = fallback) := by
  simp only [contact, Vec3.norm_eq_norm, Scalar.zero_real]
  split_ifs with happart hpos
  · exact .inl rfl
  · have hdirection : ((pb - pa) / ‖pb - pa‖).IsDirection := by
      rw [Vec3.div_eq_smul]
      exact Vec3.smul_inv_norm_isDirection (norm_pos_iff.mp hpos)
    have hway : pb = pa + ‖pb - pa‖ • ((pb - pa) / ‖pb - pa‖) := by
      rw [Vec3.div_eq_smul, smul_smul, mul_inv_cancel₀ hpos.ne', one_smul, add_sub_cancel]
    exact .inr ⟨_, rfl, .of_way _ hdirection (sub_pos.mpr (not_le.mp happart)) rfl hway
      (below_first_ball _ _ _ _), .inl (Vec3.div_eq_smul _ _)⟩
  · have hzero : ‖pb - pa‖ = 0 := le_antisymm (not_lt.mp hpos) (norm_nonneg _)
    have hsame : pb = pa := sub_eq_zero.mp (norm_eq_zero.mp hzero)
    have hway : pb = pa + ‖pb - pa‖ • fallback := by rw [hzero, zero_smul, add_zero, hsame]
    exact .inr ⟨_, rfl, .of_way _ (hfallback hsame) (sub_pos.mpr (not_le.mp happart)) rfl hway
      (below_first_ball _ _ _ _), .inr ⟨hsame, rfl⟩⟩

/-- The contact of two spheres whose centres are some way apart along a direction. -/
theorem sphereSphere_along {n : Vec3 ℝ} (hn : n.IsDirection) {r1 r2 distance : ℝ}
    (hpos : 0 < distance) (hnear : distance < r1 + r2) (pose1 pose2 : Pose ℝ)
    (hway : pose2.position = pose1.position + distance • n) :
    sphereSphere r1 pose1 r2 pose2 =
      [{ position := pose1.position + (r1 - (r1 + r2 - distance) / 2) • n, normal := n,
         depth := r1 + r2 - distance }] := by
  have hnorm : ‖distance • n‖ = distance := by rw [hn.norm_smul_eq, abs_of_pos hpos]
  simp only [sphereSphere, contact, hway, Vec3.norm_eq_norm, Scalar.zero_real, add_sub_cancel_left,
    hnorm, if_neg (not_le.mpr hnear), if_pos hpos, below_first_ball, Vec3.div_eq_smul, smul_smul,
    inv_mul_cancel₀ hpos.ne', one_smul]

/-- The normal of a contact with the closest point of a core leads into the core. -/
theorem ahead_of_isClosest {points : Set (Vec3 ℝ)} {center closest fallback normal : Vec3 ℝ}
    (hclosest : IsClosest points center closest)
    (hfallback : closest = center → Ahead points closest fallback)
    (hnormal : normal = ‖closest - center‖⁻¹ • (closest - center) ∨
      closest = center ∧ normal = fallback) : Ahead points closest normal := by
  rcases hnormal with rfl | ⟨hsame, rfl⟩
  · intro x hx
    have hbehind := hclosest.2 x hx
    rw [← neg_sub, Vec3.neg_dot, Vec3.dot_comm] at hbehind
    rw [Vec3.dot_smul]
    exact mul_nonneg (inv_nonneg.mpr (norm_nonneg _)) (by linarith)
  · exact hfallback hsame

end Round

/-- What lies ahead of a placed point lies ahead of the point in local coordinates. -/
theorem ahead_image_iff {points : Set (Vec3 ℝ)} {pose : Pose ℝ} {q n : Vec3 ℝ} :
    Ahead (pose.transformPoint '' points) (pose.transformPoint q) n ↔
      Ahead points q (pose.inverseTransformVector n) := by
  have hdot (x : Vec3 ℝ) : (pose.transformPoint x - pose.transformPoint q).dot n =
      (x - q).dot (pose.inverseTransformVector n) := by
    rw [Pose.transformPoint_sub, Rotation.apply_dot]
    rfl
  simp only [Ahead, Set.forall_mem_image, hdot]

/-! ### The partners of a ball -/

/-- The contact of a ball with a primitive lies midway between the ball and the point `q` of the
core. The normal leads into the core there, unless the core is that of a capsule short enough to
count as a point. -/
structure Contact.At (c : Contact ℝ) (center : Vec3 ℝ) (radius : ℝ) (b : Primitive ℝ)
    (pose : Pose ℝ) (q : Vec3 ℝ) : Prop where
  mem_core : q ∈ b.core
  midway : c.Midway center radius (pose.transformPoint q) b.coreRadius
  ahead : b.HasRoundForm → Ahead b.core q (pose.inverseTransformVector c.normal)

namespace Round

/-- There is no contact, or a single one, at some point of the core of the primitive. -/
def NoneOrAt (contacts : Contacts ℝ) (center : Vec3 ℝ) (radius : ℝ) (b : Primitive ℝ)
    (pose : Pose ℝ) : Prop :=
  contacts = [] ∨ ∃ c q, contacts = [c] ∧ c.At center radius b pose q

variable {radius : ℝ}

theorem sphereSphere_at (r1 : ℝ) (pose1 : Pose ℝ) (r2 : ℝ) (pose2 : Pose ℝ) :
    NoneOrAt (sphereSphere r1 pose1 r2 pose2) pose1.position r1 (.sphere r2) pose2 := by
  rcases contact_midway pose1.position r1 pose2.position r2
    (fun _ ↦ Vec3.axis_isDirection 0) with hnil | ⟨c, hc, hmidway, -⟩
  · exact .inl hnil
  · refine .inr ⟨c, 0, hc, rfl, ?_, fun _ x hx ↦ ?_⟩
    · rw [Pose.transformPoint_zero]
      exact hmidway
    · obtain rfl := Set.mem_singleton_iff.mp hx
      rw [sub_zero, Vec3.zero_dot]

/-- The point that is looked for is a point of the segment, whatever the length of that. -/
theorem closestPoints_mem (p : Vec3 ℝ) (s : Segment ℝ) :
    (Segment.closestPoints ⟨p, p⟩ s).2 ∈ s.points := by
  rcases lt_or_ge Segment.negligible s.extent.normSq with hlong | hshort
  · exact (Segment.isClosest_closestPoints p hlong).1
  · have hpoint : (Segment.extent ⟨p, p⟩ : Vec3 ℝ).normSq ≤ Segment.negligible := by
      rw [Segment.extent, sub_self, Vec3.normSq, Vec3.zero_dot]
      exact Segment.negligible_nonneg
    simp only [Segment.closestPoints, Segment.closestParameters, if_pos (And.intro hpoint hshort)]
    exact ⟨0, le_rfl, zero_le_one, by rw [Scalar.zero_real]⟩

theorem sphereCapsule_at (sphere : Pose ℝ) {capsuleRadius halfHeight : ℝ}
    (hheight : 0 < halfHeight) {capsule : Pose ℝ} (hcapsule : capsule.Rigid) :
    NoneOrAt (sphereCapsule radius sphere capsuleRadius halfHeight capsule) sphere.position radius
      (.capsule capsuleRadius halfHeight) capsule := by
  have hmem := closestPoints_mem sphere.position (capsuleCore halfHeight capsule)
  rw [capsuleCore_points hheight] at hmem
  obtain ⟨q, hq, hplace⟩ := hmem
  rcases contact_midway sphere.position radius (capsule.transformPoint q) capsuleRadius
    (fun _ ↦ axis_isDirection hcapsule 0) with hnil | ⟨c, hc, hmidway, hnormal⟩
  · rw [hplace] at hnil
    exact .inl hnil
  · rw [hplace] at hc
    refine .inr ⟨c, q, hc, hq, hmidway, fun hlong ↦ ahead_image_iff.mp ?_⟩
    have hclosest := isClosest_capsuleCore hlong sphere.position hcapsule
    rw [← hplace] at hclosest
    exact ahead_of_isClosest hclosest
      (fun _ x hx ↦ (capsule_core_perp hcapsule hx hclosest.1).ge) hnormal

/-- A centre inside a box is pushed out through a face, and the contact is the one at that face. -/
theorem inside_at (hradius : 0 < radius) {half inner : Vec3 ℝ} {box : Pose ℝ}
    (hbox : box.Rigid) (hinside : inner ∈ (Primitive.box half).region) {i : Fin 3} {side : ℝ}
    (hside : |side| = 1) (hinner : side * inner.get i = |inner.get i|) {c : Contact ℝ}
    (hnormal : c.normal = -(side • box.axis i))
    (hdepth : c.depth = radius + (half.get i - |inner.get i|))
    (hposition : c.position = box.transformPoint inner + (radius - c.depth / 2) • c.normal) :
    c.At (box.transformPoint inner) radius (.box half) box
      (inner + ((half.get i - |inner.get i|) * side) • Vec3.axis i) := by
  have hgap := Primitive.mem_box_region_iff.mp hinside i
  have hsquare : side * side = 1 := by rw [← abs_mul_abs_self, hside, one_mul]
  have hface : (inner + ((half.get i - |inner.get i|) * side) • Vec3.axis i).get i =
      half.get i * side := by
    rw [Vec3.get_add, Vec3.get_smul, Vec3.get_axis, if_pos rfl, ← hinner]
    linear_combination (-inner.get i) * hsquare
  refine ⟨Primitive.mem_box_region_iff.mpr fun j ↦ ?_, ?_, fun _ ↦ ahead_image_iff.mp ?_⟩
  · by_cases h : i = j
    · rw [← h, hface, abs_mul, hside, mul_one, abs_of_nonneg ((abs_nonneg _).trans hgap)]
    · rw [Vec3.get_add, Vec3.get_smul, Vec3.get_axis, if_neg h, mul_zero, add_zero]
      exact Primitive.mem_box_region_iff.mp hinside j
  · refine .of_way (-(half.get i - |inner.get i|)) ?_ (by linarith) ?_ ?_ hposition
    · rw [hnormal]
      refine Vec3.IsDirection.neg ?_
      rw [Vec3.IsDirection, Vec3.smul_dot, Vec3.dot_smul, axis_isDirection hbox i, mul_one, hsquare]
    · show c.depth = radius + 0 - _
      linarith
    · rw [hnormal, Pose.transformPoint, Rotation.apply_add, Rotation.apply_smul, ← add_assoc]
      show _ = box.transformPoint inner + _ • -(side • box.rotation.apply (Vec3.axis i))
      rw [Pose.transformPoint]
      module
  · rintro _ ⟨x, hx, rfl⟩
    have hfar : side * x.get i ≤ half.get i := by
      have hle := (le_abs_self (side * x.get i)).trans_eq (abs_mul side (x.get i))
      rw [hside, one_mul] at hle
      exact hle.trans (Primitive.mem_box_region_iff.mp hx i)
    rw [hnormal, Vec3.dot_neg, Vec3.dot_smul, transformPoint_sub_dot_axis hbox, Vec3.get_sub, hface]
    linear_combination hfar - half.get i * hsquare

theorem sphereBox_at (hradius : 0 < radius) (sphere : Pose ℝ) {half : Vec3 ℝ}
    (hhalf : (Primitive.box half).Valid) {box : Pose ℝ} (hbox : box.Rigid) :
    NoneOrAt (sphereBox radius sphere half box) sphere.position radius (.box half) box := by
  have hcenter := hbox.transformPoint_inverseTransformPoint sphere.position
  have hlocal := isClosest_clampTo hhalf (box.inverseTransformPoint sphere.position)
  have hclosest := hlocal.image hbox
  simp only [sphereBox]
  generalize box.inverseTransformPoint sphere.position = center at hcenter hlocal hclosest ⊢
  by_cases hinside : insideBox half center = true
  · rw [if_pos hinside, ← hcenter]
    generalize hchoice : (if _ ≤ center.get (nearestFace half center) then _ else _) = side
    have hside : |side| = 1 := by
      rw [← hchoice]
      split_ifs <;> simp
    have hinner : side * center.get (nearestFace half center) =
        |center.get (nearestFace half center)| := by
      rw [← hchoice]
      split_ifs with hsign
      · rw [Scalar.one_real, one_mul, abs_of_nonneg (by simpa using hsign)]
      · rw [Scalar.one_real, neg_one_mul, abs_of_neg (by simpa using hsign)]
    refine .inr ⟨_, _, rfl, inside_at hradius hbox ((insideBox_iff half center).mp hinside) hside
      hinner rfl rfl ?_⟩
    simp only [Vec3.mul_eq_smul, Scalar.half_real, Scalar.abs_real]
    module
  · rw [if_neg hinside, Scalar.zero_real]
    -- The closest point would be the centre, and the centre inside.
    have hapart : box.transformPoint (Vec3.zipWith clampTo half center) ≠ sphere.position := by
      intro hsame
      rw [← hcenter, ← sub_eq_zero, ← norm_eq_zero, hbox.norm_transformPoint_sub, norm_eq_zero,
        sub_eq_zero] at hsame
      exact absurd ((insideBox_iff half center).mpr (hsame ▸ hlocal.1)) hinside
    have hfallback (hsame : box.transformPoint (Vec3.zipWith clampTo half center) =
        sphere.position) : (-box.axis 0).IsDirection := absurd hsame hapart
    rcases contact_midway sphere.position radius _ 0 hfallback with hnil | ⟨c, hc, hmidway, hnormal⟩
    · exact .inl hnil
    · refine .inr ⟨c, _, hc, hlocal.1, hmidway, fun _ ↦ ahead_image_iff.mp ?_⟩
      exact ahead_of_isClosest hclosest (fun hsame ↦ absurd hsame hapart) hnormal

/-- A sphere meets a sphere, a box or a capsule in a single contact at a point of the core, or in
none. -/
theorem ordered?_at (hradius : 0 < radius) {b : Primitive ℝ}
    (hkind : b.kind ∈ [ShapeKind.sphere, .box, .capsule]) (hvalid : b.Valid) (poseA : Pose ℝ)
    {poseB : Pose ℝ} (hposeB : poseB.Rigid) :
    ∃ contacts, ordered? (.sphere radius) poseA b poseB = some contacts ∧
      NoneOrAt contacts poseA.position radius b poseB := by
  cases b with
  | sphere r => exact ⟨_, rfl, sphereSphere_at radius poseA r poseB⟩
  | box half => exact ⟨_, rfl, sphereBox_at hradius poseA hvalid hposeB⟩
  | capsule r halfHeight => exact ⟨_, rfl, sphereCapsule_at poseA hvalid.2 hposeB⟩
  | _ => simp [Primitive.kind] at hkind

end Round

/-- Seen from the other ball, the contact is at the centre of the first. -/
theorem Contact.At.flipped {c : Contact ℝ} {poseA poseB : Pose ℝ} {ra rb : ℝ} {q : Vec3 ℝ}
    (h : c.At poseB.position rb (.sphere ra) poseA q) :
    c.flipped.At poseA.position ra (.sphere rb) poseB 0 := by
  obtain rfl : q = 0 := h.mem_core
  have hmidway := h.midway.flipped
  rw [Pose.transformPoint_zero] at hmidway
  refine ⟨rfl, ?_, fun _ x hx ↦ ?_⟩
  · rw [Pose.transformPoint_zero]
    exact hmidway
  · obtain rfl := Set.mem_singleton_iff.mp hx
    rw [sub_zero, Vec3.zero_dot]

namespace PairConfig

variable {radius : ℝ} {b : Primitive ℝ} {poseA poseB : Pose ℝ}

theorem ne_plane_of_mem {kind : ShapeKind} (h : kind ∈ [ShapeKind.sphere, .box, .capsule]) :
    kind ≠ .plane := by
  rintro rfl
  simp at h

theorem sphere_ne_plane (radius : ℝ) : (Primitive.sphere radius).kind ≠ .plane :=
  ne_plane_of_mem List.mem_cons_self

/-- A sphere that collides with a sphere, a box or a capsule has a single contact with it. -/
theorem separatePrimitives_at (config : PairConfig ℝ) (hradius : 0 < radius)
    (hkind : b.kind ∈ [ShapeKind.sphere, .box, .capsule]) (hvalid : b.Valid)
    (hposeB : poseB.Rigid)
    (h : config.collidePrimitives (.sphere radius) poseA b poseB = true) :
    ∃ c q, config.separatePrimitives (.sphere radius) poseA b poseB = [c] ∧
      c.At poseA.position radius b poseB q := by
  have hplane := ne_plane_of_mem hkind
  obtain ⟨contacts, hordered, hcontacts⟩ := Round.ordered?_at hradius hkind hvalid poseA hposeB
  rw [collidePrimitives_sphere config hordered] at h
  rw [config.separatePrimitives_of_contacts? (sphere_ne_plane radius) hplane
    (by rw [Round.contacts?, hordered])]
  rcases hcontacts with rfl | hcontacts
  · cases h
  · exact hcontacts

/-- In the other order the contact is the flipped one. -/
theorem separatePrimitives_flipped_at (config : PairConfig ℝ) (hradius : 0 < radius)
    (hkind : b.kind ∈ [ShapeKind.sphere, .box, .capsule]) (hvalid : b.Valid)
    (hposeA : poseA.Rigid) (hposeB : poseB.Rigid)
    (h : config.collidePrimitives b poseB (.sphere radius) poseA = true) :
    ∃ c q, config.separatePrimitives b poseB (.sphere radius) poseA = [c] ∧
      c.flipped.At poseA.position radius b poseB q := by
  by_cases hsphere : b.kind = .sphere
  · -- Two spheres are in the first order either way.
    cases b with
    | sphere r =>
      obtain ⟨c, q, hc, hat⟩ := config.separatePrimitives_at (b := .sphere radius) hvalid
        (by simp [Primitive.kind]) hradius hposeA h
      exact ⟨c, 0, hc, hat.flipped⟩
    | _ => cases hsphere
  · have hplane := ne_plane_of_mem hkind
    obtain ⟨contacts, hordered, hcontacts⟩ := Round.ordered?_at hradius hkind hvalid poseA hposeB
    rw [config.collidePrimitives_flipped hsphere hplane hordered] at h
    rw [config.separatePrimitives_of_contacts? hplane (sphere_ne_plane radius)
      (contacts?_flipped hsphere hordered)]
    rcases hcontacts with rfl | ⟨c, q, rfl, hat⟩
    · cases h
    · refine ⟨c.flipped, q, rfl, ?_⟩
      rwa [Contact.flipped_flipped]

end PairConfig

/-! ### Common points -/

theorem Primitive.exists_of_kind_sphere {prim : Primitive ℝ} (h : prim.kind = .sphere) :
    ∃ radius, prim = .sphere radius := by
  cases prim with
  | sphere radius => exact ⟨radius, rfl⟩
  | _ => cases h

/-- A point of a placed part is one within the radius of the placed core. -/
theorem Part.mem_regionAt_iff {part : Part ℝ} (hpart : part.Rigid) {pose : Pose ℝ}
    (hpose : pose.Rigid) (p : Vec3 ℝ) : p ∈ part.regionAt pose ↔
      ∃ q ∈ part.primitive.core,
        ‖p - (part.rebase pose).transformPoint q‖ ≤ part.primitive.coreRadius := by
  rw [regionAt, image_carry hpart hpose,
    Primitive.mem_image_region_iff _ (hpart.rebase hpose), Set.exists_mem_image]

/-- The position of a contact is a point of the ball `a` if half of the depth fits into the ball, and
a point of the other body `b` if half of the depth fits into that along the normal. For a capsule too
short to be more than a point in the computation, only that half of the depth fits into its cap is
known to be enough. -/
structure Contact.CommonIfThick (c : Contact ℝ) (a : Part ℝ) (poseA : Pose ℝ) (b : Part ℝ)
    (poseB : Pose ℝ) : Prop where
  ball : c.position ∈ a.regionAt poseA ↔ c.depth ≤ 4 * a.primitive.coreRadius
  other : b.primitive.HasRoundForm → (c.position ∈ b.regionAt poseB ↔
    b.primitive.Thick ((b.rebase poseB).inverseTransformVector c.normal) c.depth)
  shallow : c.depth ≤ 4 * b.primitive.coreRadius → c.position ∈ b.regionAt poseB

namespace Contact

variable {c : Contact ℝ} {a b : Part ℝ} {poseA poseB : Pose ℝ}

theorem CommonIfThick.of_flipped (h : c.flipped.CommonIfThick a poseA b poseB) :
    c.CommonIfThick a poseA b poseB where
  ball := h.ball
  other hform := by
    have hother := h.other hform
    have hneg : (b.rebase poseB).inverseTransformVector (-c.normal) =
        -(b.rebase poseB).inverseTransformVector c.normal := Rotation.apply_neg _ _
    rwa [show c.flipped.normal = -c.normal from rfl, hneg, Primitive.thick_neg] at hother
  shallow := h.shallow

/-- A contact at a point of the core lies in the bodies as far as they are thick enough. -/
theorem At.commonIfThick {q : Vec3 ℝ} (ha : a.Rigid) (hb : b.Rigid) (hposeA : poseA.Rigid)
    (hposeB : poseB.Rigid) (hball : a.primitive.kind = .sphere)
    (hkind : b.primitive.kind ∈ [ShapeKind.sphere, .box, .capsule]) (hvalid : b.primitive.Valid)
    (h : c.At (a.rebase poseA).position a.primitive.coreRadius b.primitive (b.rebase poseB) q) :
    c.CommonIfThick a poseA b poseB where
  ball := by
    have hcore : a.primitive.core = {0} := by
      obtain ⟨radius, hprim⟩ := Primitive.exists_of_kind_sphere hball
      rw [hprim]
      rfl
    rw [Part.mem_regionAt_iff ha hposeA, hcore]
    simp only [Set.mem_singleton_iff, exists_eq_left, Pose.transformPoint_zero]
    exact h.midway.norm_sub_first_le_iff
  other hform := by
    have hrebased := hb.rebase hposeB
    have hplace : c.position = (b.rebase poseB).transformPoint
        (q + (c.depth / 2 - b.primitive.coreRadius) •
          (b.rebase poseB).inverseTransformVector c.normal) := by
      rw [h.midway.below_second, Pose.transformPoint, Pose.transformPoint, Rotation.apply_add,
        Rotation.apply_smul, Pose.inverseTransformVector, Rotation.apply_inverse_apply hrebased,
        add_assoc]
    rw [Part.regionAt, Part.image_carry hb hposeB, hplace,
      hrebased.transformPoint_injective.mem_set_image]
    exact Primitive.mem_region_of_half_depth_iff hkind hvalid h.mem_core
      (Pose.inverseTransformVector_isDirection hrebased h.midway.isDirection) (h.ahead hform)
      h.midway.depth_pos
  shallow hdepth :=
    (Part.mem_regionAt_iff hb hposeB _).mpr
      ⟨q, h.mem_core, h.midway.norm_sub_second_le_iff.mpr hdepth⟩

end Contact

namespace PairTester

/-- A tester that may report a contact keeps one that is alone. -/
theorem separate_parts_of_singleton (t : PairTester ℝ) (hseparators : t.separators = .empty)
    (hcontacts : 1 ≤ t.config.contacts) {a b : Part ℝ} {poseA poseB : Pose ℝ} {c : Contact ℝ}
    (h : t.config.separatePrimitives a.primitive (a.rebase poseA) b.primitive (b.rebase poseB) =
      [c]) : t.separate ⟨.part a, poseA⟩ ⟨.part b, poseB⟩ = [c] := by
  rw [t.separate_parts hseparators, h]
  exact if_pos hcontacts

/-- Two balls that are not turned, the second some way along x. -/
theorem balls_along_x (t : PairTester ℝ) (hcolliders : t.colliders = .empty)
    (hseparators : t.separators = .empty) (hcontacts : 1 ≤ t.config.contacts) (r1 r2 distance : ℝ)
    (hpos : 0 < distance) (hnear : distance < r1 + r2) :
    let first : Placed ℝ := ⟨.part (.bare (.sphere r1)), .identity⟩
    let second : Placed ℝ := ⟨.part (.bare (.sphere r2)), .ofPosition ⟨distance, 0, 0⟩⟩
    t.collide first second = true ∧ t.separate first second =
      [{ position := ⟨r1 - (r1 + r2 - distance) / 2, 0, 0⟩, normal := ⟨1, 0, 0⟩,
         depth := r1 + r2 - distance }] := by
  intro first second
  have hline (s : ℝ) : first.pose.position + s • ⟨1, 0, 0⟩ = ⟨s, 0, 0⟩ := by
    show Vec3.zero + s • (⟨1, 0, 0⟩ : Vec3 ℝ) = ⟨s, 0, 0⟩
    rw [Vec3.zero_eq, zero_add]
    ext <;> simp
  have hspheres := Round.sphereSphere_along (n := ⟨1, 0, 0⟩)
    (by simp [Vec3.IsDirection, Vec3.dot_eq]) hpos hnear first.pose second.pose
    (hline distance).symm
  rw [hline] at hspheres
  refine ⟨?_, t.separate_parts_of_singleton hseparators hcontacts ?_⟩
  · rw [t.collide_parts hcolliders]
    exact t.config.collidePrimitives_sphere (b := .sphere r2) (congrArg some hspheres)
  · exact t.config.separatePrimitives_of_contacts? (PairConfig.sphere_ne_plane r1)
      (PairConfig.sphere_ne_plane r2) (congrArg some hspheres)

/-- A sphere and a sphere, a box or a capsule, at any poses and with any offsets; a tester without
overrides that may report a contact. If they collide, in either order, there is one contact. Its
position is a point of the sphere exactly if the depth is at most four radii, and a point of the
other body exactly if half of the depth fits into that along the normal. -/
theorem contact_common_if_thick (t : PairTester ℝ) (hcolliders : t.colliders = .empty)
    (hseparators : t.separators = .empty) (hcontacts : 1 ≤ t.config.contacts) {a b : Part ℝ}
    (hball : a.primitive.kind = .sphere)
    (hkind : b.primitive.kind ∈ [ShapeKind.sphere, .box, .capsule]) (ha : a.Rigid) (hb : b.Rigid)
    (hvalidA : a.primitive.Valid) (hvalidB : b.primitive.Valid) {poseA poseB : Pose ℝ}
    (hposeA : poseA.Rigid) (hposeB : poseB.Rigid) :
    let first : Placed ℝ := ⟨.part a, poseA⟩
    let second : Placed ℝ := ⟨.part b, poseB⟩
    (t.collide first second = true →
        ∃ c, t.separate first second = [c] ∧ c.CommonIfThick a poseA b poseB) ∧
      (t.collide second first = true →
        ∃ c, t.separate second first = [c] ∧ c.CommonIfThick a poseA b poseB) := by
  obtain ⟨radius, hprim⟩ := Primitive.exists_of_kind_sphere hball
  have hradius : 0 < radius := by
    rw [hprim] at hvalidA
    exact hvalidA
  have hcommon {c : Contact ℝ} {q : Vec3 ℝ}
      (h : c.At (a.rebase poseA).position radius b.primitive (b.rebase poseB) q) :
      c.CommonIfThick a poseA b poseB := by
    refine Contact.At.commonIfThick (q := q) ha hb hposeA hposeB hball hkind hvalidB ?_
    rw [hprim]
    exact h
  intro first second
  refine ⟨fun h ↦ ?_, fun h ↦ ?_⟩
  · rw [t.collide_parts hcolliders, hprim] at h
    obtain ⟨c, q, hc, hat⟩ := t.config.separatePrimitives_at hradius hkind hvalidB
      (hb.rebase hposeB) h
    refine ⟨c, t.separate_parts_of_singleton hseparators hcontacts ?_, hcommon hat⟩
    rw [hprim, hc]
  · rw [t.collide_parts hcolliders, hprim] at h
    obtain ⟨c, q, hc, hat⟩ := t.config.separatePrimitives_flipped_at hradius hkind hvalidB
      (ha.rebase hposeA) (hb.rebase hposeB) h
    refine ⟨c, t.separate_parts_of_singleton hseparators hcontacts ?_, (hcommon hat).of_flipped⟩
    rw [hprim, hc]

/-- Balls of radius one and two, two lengths apart: the contact is a point of both. -/
theorem contact_common_if_thick_of_two_balls :
    let t : PairTester ℝ := { config := ⟨.standard, 4⟩ }
    let ball : Part ℝ := .bare (.sphere 1)
    let large : Part ℝ := .bare (.sphere 2)
    let aside : Pose ℝ := .ofPosition ⟨2, 0, 0⟩
    t.colliders = .empty ∧ t.separators = .empty ∧ 1 ≤ t.config.contacts ∧
      Primitive.sphere? (1 : ℝ) = .ok ball.primitive ∧
      Primitive.sphere? (2 : ℝ) = .ok large.primitive ∧
      ball.primitive.Valid ∧ large.primitive.Valid ∧ aside.Rigid ∧
      t.collide ⟨.part ball, .identity⟩ ⟨.part large, aside⟩ = true ∧
      ∃ c, t.separate ⟨.part ball, .identity⟩ ⟨.part large, aside⟩ = [c] ∧
        c.position ∈ ball.regionAt .identity ∩ large.regionAt aside := by
  intro t ball large aside
  have hsmall : Primitive.sphere? (1 : ℝ) = .ok ball.primitive :=
    Primitive.sphere?_of_pos one_pos
  have hwide : Primitive.sphere? (2 : ℝ) = .ok large.primitive :=
    Primitive.sphere?_of_pos two_pos
  have hball : ball.primitive.Valid := Primitive.sphere?_valid hsmall
  have hlarge : large.primitive.Valid := Primitive.sphere?_valid hwide
  have haside : aside.Rigid := Rotation.identity_isUnit
  obtain ⟨hcollide, hseparate⟩ := t.balls_along_x rfl rfl (by decide) 1 2 2 (by norm_num)
    (by norm_num)
  obtain ⟨hfirst, -⟩ := t.contact_common_if_thick rfl rfl (by decide) (a := ball) (b := large) rfl
    List.mem_cons_self trivial trivial hball hlarge Pose.identity_rigid haside
  obtain ⟨c, hc, hcommon⟩ := hfirst hcollide
  have hdepth : c.depth = 1 := by
    rw [← List.singleton_inj.mp (hseparate.symm.trans hc)]
    norm_num
  refine ⟨rfl, rfl, by decide, hsmall, hwide, hball, hlarge, haside, hcollide, c, hc, ?_, ?_⟩
  · refine hcommon.ball.mpr ?_
    show c.depth ≤ 4 * 1
    linarith
  · refine hcommon.shallow ?_
    show c.depth ≤ 4 * 2
    linarith

/-- A ball of radius one all inside a ball of radius ten: the contact is three lengths outside the
smaller ball. -/
theorem contact_outside_inner_ball :
    let t : PairTester ℝ := { config := ⟨.standard, 4⟩ }
    let ball : Part ℝ := .bare (.sphere 1)
    let large : Part ℝ := .bare (.sphere 10)
    let aside : Pose ℝ := .ofPosition ⟨1, 0, 0⟩
    Primitive.sphere? (1 : ℝ) = .ok ball.primitive ∧
      Primitive.sphere? (10 : ℝ) = .ok large.primitive ∧ aside.Rigid ∧
      ball.regionAt .identity ⊆ large.regionAt aside ∧
      t.collide ⟨.part ball, .identity⟩ ⟨.part large, aside⟩ = true ∧
      ∃ c, t.separate ⟨.part ball, .identity⟩ ⟨.part large, aside⟩ = [c] ∧
        c.position = ⟨-4, 0, 0⟩ ∧ c.position ∉ ball.regionAt .identity := by
  intro t ball large aside
  obtain ⟨hcollide, hseparate⟩ := t.balls_along_x rfl rfl (by decide) 1 10 1 (by norm_num)
    (by norm_num)
  refine ⟨Primitive.sphere?_of_pos one_pos, Primitive.sphere?_of_pos (by norm_num),
    Rotation.identity_isUnit, ?_, hcollide, _, hseparate, ?_, ?_⟩
  · intro p hp
    have hnear : ‖p - Vec3.zero‖ ≤ 1 := Part.mem_regionAt_sphere.mp hp
    refine Part.mem_regionAt_sphere.mpr ?_
    have hcenter : ‖(⟨1, 0, 0⟩ : Vec3 ℝ)‖ = 1 := by simp [Vec3.norm_eq_sqrt_dot, Vec3.dot_eq]
    rw [Vec3.zero_eq, sub_zero] at hnear
    linarith [norm_sub_le p (⟨1, 0, 0⟩ : Vec3 ℝ)]
  · norm_num
  · intro h
    have hnear : ‖_ - Vec3.zero‖ ≤ (1 : ℝ) := Part.mem_regionAt_sphere.mp h
    rw [Vec3.zero_eq, sub_zero, Vec3.norm_eq_sqrt_dot, Real.sqrt_le_one] at hnear
    norm_num [Vec3.dot_eq] at hnear

end PairTester

end Collision
