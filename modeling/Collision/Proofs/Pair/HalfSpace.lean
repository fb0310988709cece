import Collision.Pair.HalfSpace
import Collision.Proofs.Pair.Round

/-!
# Contacts with a half-space, measured

`HalfSpace.Measures` says that contacts measure how far a body reaches below a surface: every
contact is as deep as some point of the body, along the normal of the surface, and no point of the
body is deeper than all contacts. Contacts that measure a body answer for it
(`HalfSpace.Measures.resolve`).

Each routine finds a lowest point of its body, which is a point farthest against the normal: the
lowest corner of a box or a triangle, the lower end of a core less the radius, or what
`Placed.supportPoint` gives. A routine that gives several contacts gives one of the largest depth
among them (`HalfSpace.measures_of_lowest`).
-/

set_option autoImplicit false
set_option relaxedAutoImplicit false

namespace Collision

/-! ### Lowest points -/

/-- Growing a body by a radius moves its farthest point by the radius. -/
theorem IsFarthest.grown {core body : Set (Vec3 ℝ)} {u s : Vec3 ℝ} {radius : ℝ}
    (h : IsFarthest core u s) (hu : u.IsDirection) (hradius : 0 ≤ radius)
    (hbody : ∀ p, p ∈ body ↔ ∃ q ∈ core, ‖p - q‖ ≤ radius) :
    IsFarthest body u (s + radius • u) := by
  refine ⟨(hbody _).mpr ⟨s, h.1, ?_⟩, fun p hp ↦ ?_⟩
  · rw [add_sub_cancel_left, norm_smul, hu.norm_eq, mul_one, Real.norm_of_nonneg hradius]
  · obtain ⟨q, hq, hle⟩ := (hbody p).mp hp
    have hball := ((le_abs_self _).trans (hu.abs_dot_le (p - q))).trans hle
    rw [Vec3.sub_dot] at hball
    rw [Vec3.add_dot, Vec3.smul_dot, hu, mul_one]
    linarith [h.2 q hq]

namespace HalfSpace

variable {h : HalfSpace ℝ} {contacts : Contacts ℝ} {body : Set (Vec3 ℝ)}

theorem height_add (h : HalfSpace ℝ) (p v : Vec3 ℝ) :
    h.height (p + v) = h.height p + h.normal.dot v := by
  rw [height, height, add_sub_right_comm, Vec3.dot_add]

/-- A point farthest against the normal is lowest. -/
theorem height_le_of_isFarthest {s p : Vec3 ℝ} (hs : IsFarthest body (-h.normal) s)
    (hp : p ∈ body) : h.height s ≤ h.height p := by
  have hle := hs.2 p hp
  rw [Vec3.dot_neg, Vec3.dot_neg, Vec3.dot_comm p, Vec3.dot_comm s] at hle
  rw [height, height, Vec3.dot_sub, Vec3.dot_sub]
  linarith

/-! ### Contacts that measure a body -/

/-- The contacts measure how far a body reaches below the surface. -/
structure Measures (h : HalfSpace ℝ) (contacts : Contacts ℝ) (body : Set (Vec3 ℝ)) : Prop where
  normal : ∀ c ∈ contacts, c.normal = h.normal
  depth_pos : ∀ c ∈ contacts, 0 < c.depth
  attained : ∀ c ∈ contacts, ∃ p ∈ body, h.height p = -c.depth
  reached : ∀ p ∈ body, h.height p < 0 → ∃ c ∈ contacts, -h.height p ≤ c.depth

/-- Some point of the body is strictly below the surface once the body is moved by an offset. -/
def Below (h : HalfSpace ℝ) (body : Set (Vec3 ℝ)) (offset : Vec3 ℝ) : Prop :=
  ∃ p ∈ body, h.height (p + offset) < 0

theorem Measures.resolve (hcontacts : h.Measures contacts body) (hnormal : h.normal.IsDirection) :
    contacts.Resolve (h.Below body) where
  ne_nil_iff := by
    constructor
    · intro hne
      obtain ⟨c, hc⟩ := List.exists_mem_of_ne_nil _ hne
      obtain ⟨p, hp, hheight⟩ := hcontacts.attained c hc
      refine ⟨p, hp, ?_⟩
      rw [add_zero, hheight]
      exact neg_neg_iff_pos.mpr (hcontacts.depth_pos c hc)
    · rintro ⟨p, hp, hlt⟩
      rw [add_zero] at hlt
      obtain ⟨c, hc, -⟩ := hcontacts.reached p hp hlt
      exact List.ne_nil_of_mem hc
  normal c hc := hcontacts.normal c hc ▸ hnormal
  depth_pos := hcontacts.depth_pos
  separated c hc hmax := by
    rintro ⟨p, hp, hlt⟩
    rw [height_add, hcontacts.normal c hc, Vec3.mul_eq_smul, Vec3.dot_smul, hnormal, mul_one] at hlt
    have hdepth := hcontacts.depth_pos c hc
    obtain ⟨d, hd, hle⟩ := hcontacts.reached p hp (by linarith)
    linarith [hmax d hd]

/-- Contacts measure a body if one of them is as deep as a lowest point that is below the surface,
and each is as deep as some point. -/
theorem measures_of_lowest {s : Vec3 ℝ} (hs : IsFarthest body (-h.normal) s)
    (hnormal : ∀ c ∈ contacts, c.normal = h.normal) (hpos : ∀ c ∈ contacts, 0 < c.depth)
    (hattained : ∀ c ∈ contacts, ∃ p ∈ body, h.height p = -c.depth)
    (hlowest : h.height s < 0 → ∃ c ∈ contacts, -h.height s ≤ c.depth) :
    h.Measures contacts body where
  normal := hnormal
  depth_pos := hpos
  attained := hattained
  reached p hp hlt := by
    have hle := height_le_of_isFarthest hs hp
    obtain ⟨c, hc, hdeep⟩ := hlowest (hle.trans_lt hlt)
    exact ⟨c, hc, by linarith⟩

theorem measures_nil {s : Vec3 ℝ} (hs : IsFarthest body (-h.normal) s) (habove : 0 ≤ h.height s) :
    h.Measures [] body :=
  measures_of_lowest hs nofun nofun nofun fun hlt ↦ absurd hlt (not_lt.mpr habove)

/-- Contacts that are all as deep as a lowest point measure the body. -/
theorem measures_of_level {s : Vec3 ℝ} (hs : IsFarthest body (-h.normal) s)
    (hbelow : h.height s < 0) (hne : contacts ≠ [])
    (hlevel : ∀ c ∈ contacts, c.normal = h.normal ∧ c.depth = -h.height s) :
    h.Measures contacts body := by
  refine measures_of_lowest hs (fun c hc ↦ (hlevel c hc).1) (fun c hc ↦ ?_) (fun c hc ↦ ?_)
    fun _ ↦ ?_
  · rw [(hlevel c hc).2]
    exact neg_pos.mpr hbelow
  · exact ⟨s, hs.1, by rw [(hlevel c hc).2, neg_neg]⟩
  · obtain ⟨c, hc⟩ := List.exists_mem_of_ne_nil _ hne
    exact ⟨c, hc, (hlevel c hc).2.ge⟩

/-! ### The routines -/

theorem deepestPoint_measures {prim : Primitive ℝ} (hvalid : prim.Valid)
    (hplane : prim.kind ≠ .plane) (hcylinder : prim.kind ≠ .cylinder) {pose : Pose ℝ}
    (hpose : pose.Rigid) (hnormal : h.normal.IsDirection) :
    h.Measures (h.deepestPoint (.ofPrimitive prim pose)) (pose.transformPoint '' prim.region) := by
  have hpart : (Part.bare prim).Supported := ⟨trivial, hvalid, hplane, hcylinder⟩
  have hs := Part.supportPoint_spec hpart hpose hnormal.neg
  show h.Measures (h.deepestPoint ⟨.part (.bare prim), pose⟩) ((Part.bare prim).regionAt pose)
  simp only [deepestPoint, Scalar.zero_real]
  split_ifs with habove
  · exact measures_nil hs (neg_nonpos.mp habove)
  · exact measures_of_level hs (by linarith) (List.cons_ne_nil _ _) (by simp)

theorem sphere_measures {radius : ℝ} (hradius : 0 < radius) {pose : Pose ℝ} (hpose : pose.Rigid)
    (hnormal : h.normal.IsDirection) :
    h.Measures (h.sphere radius pose)
      (pose.transformPoint '' (Primitive.sphere radius).region) := by
  have hcore : IsFarthest (pose.transformPoint '' (Primitive.sphere radius).core) (-h.normal)
      pose.position := by
    rw [Primitive.core, Set.image_singleton, Pose.transformPoint_zero]
    exact ⟨rfl, fun p hp ↦ hp ▸ le_refl _⟩
  have hs := hcore.grown hnormal.neg hradius.le
    ((Primitive.sphere radius).mem_image_region_iff hpose)
  have hheight : h.height (pose.position + radius • -h.normal) =
      h.height pose.position - radius := by
    rw [height_add, Vec3.dot_smul, Vec3.dot_neg, hnormal]
    ring
  simp only [sphere]
  split_ifs with habove
  · exact measures_nil hs (by linarith)
  · refine measures_of_level hs (by linarith) (List.cons_ne_nil _ _) ?_
    exact List.forall_mem_singleton.mpr ⟨rfl, by rw [hheight, neg_sub]⟩

section Box

variable {α : Type} [Scalar α]

/-- The crossings, or the corners below the surface if there are no crossings. -/
def boxCandidates (h : HalfSpace α) (half : Vec3 α) (pose : Pose α) : List (Vec3 α) :=
  if (h.edgeCrossings half pose).isEmpty then h.cornersBelow half pose
  else h.edgeCrossings half pose

/-- The points of the contacts with a box that reaches below the surface. -/
def boxPoints (h : HalfSpace α) (half : Vec3 α) (pose : Pose α) (count : ℕ) : List (Vec3 α) :=
  let all := h.cornersBelow half pose ++ h.edgeCrossings half pose
  if (h.boxCandidates half pose).length ≤ count then h.boxCandidates half pose
  else [Vec3.sum all / (Scalar.ofNat all.length : α)]

/-- All contacts with a box have one normal and one depth. -/
theorem box_eq (h : HalfSpace α) (half : Vec3 α) (pose : Pose α) (count : ℕ) :
    h.box half pose count = match h.lowestCorner? half pose with
      | none => []
      | some lowest => if 0 ≤ lowest then []
        else (h.boxPoints half pose count).map fun p ↦
          { position := p, normal := h.normal, depth := -lowest } := by
  unfold box boxPoints boxCandidates
  cases h.lowestCorner? half pose with
  | none => rfl
  | some lowest =>
    simp only
    split_ifs <;> rfl

end Box

theorem lowestCorner?_spec (h : HalfSpace ℝ) (half : Vec3 ℝ) (pose : Pose ℝ) :
    ∃ corner ∈ BoxCorners.all half,
      h.lowestCorner? half pose = some (h.height (pose.transformPoint corner)) ∧
        ∀ q ∈ BoxCorners.all half,
          h.height (pose.transformPoint corner) ≤ h.height (pose.transformPoint q) := by
  have hcorners : (BoxCorners.all half).map (fun c ↦ h.height (pose.transformPoint c)) ≠ [] := by
    simp [BoxCorners.all]
  obtain ⟨lowest, hlowest, hmin⟩ := Scalar.minimum?_real_le _ hcorners
  obtain ⟨corner, hcorner, rfl⟩ := List.mem_map.mp (Scalar.minimum?_real_mem hlowest)
  exact ⟨corner, hcorner, hlowest, fun q hq ↦ hmin _ (List.mem_map_of_mem hq)⟩

theorem mem_cornersBelow {half p : Vec3 ℝ} {pose : Pose ℝ} : p ∈ h.cornersBelow half pose ↔
    p ∈ (BoxCorners.all half).map pose.transformPoint ∧ h.height p < 0 := by
  simp [cornersBelow]

theorem boxCandidates_ne_nil {half : Vec3 ℝ} {pose : Pose ℝ}
    (hbelow : h.cornersBelow half pose ≠ []) : h.boxCandidates half pose ≠ [] := by
  unfold boxCandidates
  split_ifs with hempty
  · exact hbelow
  · simpa using hempty

/-- A box that reaches below the surface has points of contact, and no more than are asked for
unless that is none. -/
theorem length_boxPoints {half : Vec3 ℝ} {pose : Pose ℝ} (hbelow : h.cornersBelow half pose ≠ [])
    (count : ℕ) : 1 ≤ (h.boxPoints half pose count).length ∧
      (h.boxPoints half pose count).length ≤ max 1 count := by
  unfold boxPoints
  split_ifs with hfit
  · exact ⟨List.length_pos_of_ne_nil (boxCandidates_ne_nil hbelow),
      hfit.trans (le_max_right 1 count)⟩
  · exact ⟨le_refl 1, le_max_left 1 count⟩

theorem box_measures {half : Vec3 ℝ} (hhalf : (Primitive.box half).Valid) (pose : Pose ℝ)
    (count : ℕ) : h.Measures (h.box half pose count)
      (pose.transformPoint '' (Primitive.box half).region) := by
  obtain ⟨corner, hcorner, hlowest, hmin⟩ := h.lowestCorner?_spec half pose
  have hs : IsFarthest (pose.transformPoint '' (Primitive.box half).region) (-h.normal)
      (pose.transformPoint corner) := by
    rw [← BoxCorners.hull_all hhalf, ← hull_map_transformPoint]
    refine isFarthest_hull (List.mem_map_of_mem hcorner) (List.forall_mem_map.mpr fun q hq ↦ ?_)
    have hle := hmin q hq
    rw [height, height, Vec3.dot_sub, Vec3.dot_sub] at hle
    rw [Vec3.dot_neg, Vec3.dot_neg, Vec3.dot_comm _ h.normal, Vec3.dot_comm _ h.normal]
    linarith
  rw [box_eq, hlowest]
  simp only [Scalar.zero_real]
  split_ifs with habove
  · exact measures_nil hs habove
  · have hbelow : h.cornersBelow half pose ≠ [] := List.ne_nil_of_mem
      (mem_cornersBelow.mpr ⟨List.mem_map_of_mem hcorner, not_le.mp habove⟩)
    have hpoints : h.boxPoints half pose count ≠ [] :=
      List.ne_nil_of_length_pos (length_boxPoints hbelow count).1
    refine measures_of_level hs (not_le.mp habove) (by simpa using hpoints) ?_
    exact List.forall_mem_map.mpr fun p _ ↦ ⟨rfl, rfl⟩

/-- The end of a core, less the radius, is as high as the contact below it is deep. -/
theorem height_capsuleEnd (hnormal : h.normal.IsDirection) (radius : ℝ) (p : Vec3 ℝ) :
    h.height (p + radius • -h.normal) = -(h.capsuleEnd radius p).depth := by
  rw [height_add, Vec3.dot_smul, Vec3.dot_neg, hnormal]
  show _ = -(radius - h.height p)
  ring

theorem mem_capsule_core {radius halfHeight s : ℝ} (hs : |s| ≤ halfHeight) (pose : Pose ℝ) :
    pose.position + s • pose.axis 2 ∈
      pose.transformPoint '' (Primitive.capsule radius halfHeight).core := by
  refine ⟨_, smul_mem_beam hs, ?_⟩
  rw [Pose.transformPoint, Rotation.apply_smul]
  rfl

/-- The end of a core on the side to which a direction looks is farthest along the direction. -/
theorem capsule_core_isFarthest {radius halfHeight side : ℝ} (hheight : 0 ≤ halfHeight)
    (pose : Pose ℝ) {u : Vec3 ℝ} (hone : |side| = 1)
    (hside : side * (pose.axis 2).dot u = |(pose.axis 2).dot u|) :
    IsFarthest (pose.transformPoint '' (Primitive.capsule radius halfHeight).core) u
      (pose.position + (halfHeight * side) • pose.axis 2) := by
  refine ⟨mem_capsule_core ?_ pose, ?_⟩
  · rw [abs_mul, hone, mul_one, abs_of_nonneg hheight]
  · rintro _ ⟨_, ⟨s, hs, rfl⟩, rfl⟩
    have hle : s * (pose.axis 2).dot u ≤ halfHeight * |(pose.axis 2).dot u| := by
      refine (le_abs_self _).trans ?_
      rw [abs_mul]
      exact mul_le_mul_of_nonneg_right (abs_le.mpr hs) (abs_nonneg _)
    have haxis : pose.rotation.apply (s • Vec3.axis 2) = s • pose.axis 2 :=
      Rotation.apply_smul _ _ _
    rw [Pose.transformPoint, haxis, Vec3.add_dot, Vec3.add_dot, Vec3.smul_dot, Vec3.smul_dot,
      mul_assoc, hside]
    linarith

/-- The side of a core that is taken for the lower one looks against the normal. -/
theorem lowerSide_spec (normal axis : Vec3 ℝ) :
    |if 0 < normal.dot axis then (-1 : ℝ) else 1| = 1 ∧
      (if 0 < normal.dot axis then -1 else 1) * axis.dot (-normal) = |axis.dot (-normal)| := by
  rw [Vec3.dot_neg, abs_neg, Vec3.dot_comm]
  split_ifs with hup
  · rw [abs_of_pos hup, abs_neg, abs_one, neg_one_mul, neg_neg]
    exact ⟨rfl, rfl⟩
  · rw [abs_of_nonpos (not_lt.mp hup), abs_one, one_mul]
    exact ⟨rfl, rfl⟩

theorem capsule_measures {radius halfHeight : ℝ}
    (hvalid : (Primitive.capsule radius halfHeight).Valid) {pose : Pose ℝ} (hpose : pose.Rigid)
    (hnormal : h.normal.IsDirection) (count : ℕ) :
    h.Measures (h.capsule radius halfHeight pose count)
      (pose.transformPoint '' (Primitive.capsule radius halfHeight).region) := by
  obtain ⟨hradius, hheight⟩ := hvalid
  have hbody := (Primitive.capsule radius halfHeight).mem_image_region_iff hpose
  obtain ⟨hone, hlow⟩ := lowerSide_spec h.normal (pose.axis 2)
  generalize hside : (if 0 < h.normal.dot (pose.axis 2) then (-1 : ℝ) else 1) = side at hone hlow
  have hs := (capsule_core_isFarthest hheight.le pose hone hlow).grown hnormal.neg hradius.le hbody
  have hhigh : pose.position - (halfHeight * side) • pose.axis 2 ∈
      pose.transformPoint '' (Primitive.capsule radius halfHeight).core := by
    rw [sub_eq_add_neg, ← neg_smul]
    refine mem_capsule_core ?_ pose
    rw [abs_neg, abs_mul, hone, mul_one, abs_of_pos hheight]
  simp only [capsule, Scalar.zero_real, Scalar.one_real, hside, Vec3.mul_eq_smul]
  generalize pose.position + (halfHeight * side) • pose.axis 2 = low at hs ⊢
  generalize pose.position - (halfHeight * side) • pose.axis 2 = high at hhigh ⊢
  have hheightLow := height_capsuleEnd hnormal radius low
  split_ifs with habove hboth
  · exact measures_nil hs (by linarith)
  · have hheightHigh := height_capsuleEnd hnormal radius high
    have hmem : high + radius • -h.normal ∈
        pose.transformPoint '' (Primitive.capsule radius halfHeight).region := by
      refine (hbody _).mpr ⟨high, hhigh, ?_⟩
      rw [add_sub_cancel_left, norm_smul, hnormal.neg.norm_eq, mul_one,
        Real.norm_of_nonneg hradius.le, Primitive.coreRadius]
    have hpair {p : Contact ℝ → Prop} (hp : p (h.capsuleEnd radius low))
        (hq : p (h.capsuleEnd radius high)) :
        ∀ c ∈ [h.capsuleEnd radius low, h.capsuleEnd radius high], p c :=
      List.forall_mem_cons.mpr ⟨hp, List.forall_mem_singleton.mpr hq⟩
    refine measures_of_lowest hs (hpair rfl rfl) (hpair (not_le.mp habove) hboth.2)
      (hpair ⟨_, hs.1, hheightLow⟩ ⟨_, hmem, hheightHigh⟩) fun _ ↦ ?_
    exact ⟨_, List.mem_cons_self, by linarith⟩
  · refine measures_of_level hs (by linarith) (List.cons_ne_nil _ _) ?_
    exact List.forall_mem_singleton.mpr ⟨rfl, by rw [hheightLow, neg_neg]⟩

theorem triangle_measures (t : Triangle ℝ) (pose : Pose ℝ) :
    h.Measures (h.triangle (t.placed pose)) (pose.transformPoint '' Vec3.hull t.corners) := by
  rw [← hull_map_transformPoint]
  show h.Measures (h.triangle (t.placed pose)) (Vec3.hull (t.placed pose).corners)
  generalize t.placed pose = u
  obtain ⟨s, -, hs, hmax⟩ := Scalar.lastMaxBy?_real (fun q ↦ q.dot (-h.normal)) u.corners
    (List.cons_ne_nil _ _)
  have hmem {c : Contact ℝ} (hc : c ∈ h.triangle u) :
      ∃ p ∈ u.corners, 0 < -h.height p ∧ c = ⟨p, h.normal, -h.height p, none⟩ := by
    obtain ⟨p, hp, hsome⟩ := List.mem_filterMap.mp hc
    simp only at hsome
    split_ifs at hsome with hpos
    exact ⟨p, hp, by simpa using hpos, (Option.some_inj.mp hsome).symm⟩
  refine measures_of_lowest (isFarthest_hull hs hmax) (fun c hc ↦ ?_) (fun c hc ↦ ?_)
    (fun c hc ↦ ?_) fun hlt ↦ ?_
  · obtain ⟨p, -, -, rfl⟩ := hmem hc
    rfl
  · obtain ⟨p, -, hpos, rfl⟩ := hmem hc
    exact hpos
  · obtain ⟨p, hp, -, rfl⟩ := hmem hc
    exact ⟨p, subset_convexHull ℝ _ hp, (neg_neg _).symm⟩
  · refine ⟨⟨s, h.normal, -h.height s, none⟩, List.mem_filterMap.mpr ⟨s, hs, ?_⟩, le_refl _⟩
    simpa using hlt

end HalfSpace

/-! ### Placed planes -/

/-- A point is strictly below a placed plane exactly if its place in the frame of the plane is. -/
theorem HalfSpace.ofPose_height_neg_iff {pose : Pose ℝ} (hpose : pose.Rigid) (p : Vec3 ℝ) :
    (ofPose pose).height p < 0 ↔ p ∈ pose.transformPoint '' {q | q.z < 0} := by
  have hheight (q : Vec3 ℝ) : (ofPose pose).height (pose.transformPoint q) = q.z := by
    have hdot := Round.transformPoint_sub_dot_axis hpose q 0 2
    rwa [Pose.transformPoint_zero, sub_zero, Vec3.dot_comm] at hdot
  constructor
  · intro hlt
    rw [← hpose.transformPoint_inverseTransformPoint p, hheight] at hlt
    exact ⟨_, hlt, hpose.transformPoint_inverseTransformPoint p⟩
  · rintro ⟨q, hq, rfl⟩
    rw [hheight]
    exact hq

/-- The contacts of a plane with a body that is neither a plane nor a cylinder measure the body. -/
theorem PairConfig.separatePlane_measures (c : PairConfig ℝ) {plane : Pose ℝ} (hplane : plane.Rigid)
    {b : Primitive ℝ} (hvalid : b.Valid) (hkind : b.kind ≠ .plane) (hcylinder : b.kind ≠ .cylinder)
    {poseB : Pose ℝ} (hposeB : poseB.Rigid) :
    (HalfSpace.ofPose plane).Measures (c.separatePlane plane b poseB)
      (poseB.transformPoint '' b.region) := by
  have hnormal : (HalfSpace.ofPose plane).normal.IsDirection := Round.axis_isDirection hplane 2
  cases b with
  | sphere radius => exact HalfSpace.sphere_measures hvalid hposeB hnormal
  | box half => exact HalfSpace.box_measures hvalid poseB c.contacts
  | capsule radius halfHeight => exact HalfSpace.capsule_measures hvalid hposeB hnormal c.contacts
  | triangle t => exact HalfSpace.triangle_measures t poseB
  | meshTriangle t => exact HalfSpace.triangle_measures t poseB
  | convexHull points =>
    exact HalfSpace.deepestPoint_measures hvalid hkind hcylinder hposeB hnormal
  | cylinder radius halfHeight => exact absurd rfl hcylinder
  | plane => exact absurd rfl hkind

end Collision
