import Collision.Pair.Placed
import Collision.Proofs.Shape.Region

/-!
# Farthest points

`Primitive.Valid` is what the checked constructors of primitives promise. For a valid primitive that
is no plane, `Primitive.support?` along a direction that is long enough (`Primitive.LongEnough`) is
a point of the primitive, and no other point of it is farther along (`Primitive.support?_spec`); a
cylinder seen nearly along its axis is given a point of the axis instead. The primitives around the
origin reach equally far both ways (`Primitive.Reaches`), and their farthest points have a closed
form. The same holds of parts where they stand (`Part.supportPoint_spec`).
-/

set_option autoImplicit false
set_option relaxedAutoImplicit false

namespace Collision

/-! ### Farthest points -/

/-- The point lies in the set, and no point of the set is farther along the direction. -/
def IsFarthest (points : Set (Vec3 ℝ)) (u s : Vec3 ℝ) : Prop :=
  s ∈ points ∧ ∀ p ∈ points, p.dot u ≤ s.dot u

theorem Pose.inverseTransformVector_isDirection {pose : Pose ℝ} (hpose : pose.Rigid) {u : Vec3 ℝ}
    (hu : u.IsDirection) : (pose.inverseTransformVector u).IsDirection :=
  (Rotation.apply_dot_apply (Rotation.IsUnit.inverse hpose) u u).trans hu

/-- Moving a farthest point moves it to a farthest point of the moved set. -/
theorem IsFarthest.image {points : Set (Vec3 ℝ)} {pose : Pose ℝ} {u s : Vec3 ℝ}
    (h : IsFarthest points (pose.inverseTransformVector u) s) :
    IsFarthest (pose.transformPoint '' points) u (pose.transformPoint s) := by
  refine ⟨⟨s, h.1, rfl⟩, ?_⟩
  rintro _ ⟨p, hp, rfl⟩
  rw [Pose.transformPoint_dot, Pose.transformPoint_dot]
  have hle := h.2 p hp
  linarith

/-- A corner that no corner is beyond is farthest in the hull of the corners. -/
theorem isFarthest_hull {points : List (Vec3 ℝ)} {u s : Vec3 ℝ} (hs : s ∈ points)
    (hmax : ∀ q ∈ points, q.dot u ≤ s.dot u) : IsFarthest (Vec3.hull points) u s :=
  ⟨subset_convexHull ℝ _ hs, fun _ hp ↦ dot_le_of_mem_hull hmax hp⟩

/-! ### Checked meshes -/

namespace Mesh

/-- A mesh without fault is accepted as it is. -/
theorem ofFaces_ok (m : Mesh ℝ) : ofFaces m.vertices m.faces = .ok m := by
  unfold ofFaces
  rw [dif_neg m.faces_ne_nil]
  split
  · rename_i v hv
    have hfinite := m.vertices_finite v (Array.mem_of_find?_eq_some hv)
    simpa [hfinite] using Array.find?_some hv
  · split
    · rename_i f hf
      have hrange := m.faces_inRange f (List.mem_of_find?_eq_some hf)
      simpa [hrange] using List.find?_some hf
    · rfl

theorem triangleOf_eq (m : Mesh ℝ) (f : Face) (hfirst : f.first < m.vertices.size)
    (hsecond : f.second < m.vertices.size) (hthird : f.third < m.vertices.size) :
    m.triangleOf f ⟨hfirst, hsecond, hthird⟩ =
      ⟨m.vertices[f.first], m.vertices[f.second], m.vertices[f.third]⟩ :=
  rfl

end Mesh

/-! ### Checked primitives -/

theorem bind_ok {ε β γ : Type} {first : Except ε β} {next : β → Except ε γ} {result : γ}
    (h : (first >>= next) = .ok result) : ∃ b, first = .ok b ∧ next b = .ok result := by
  cases first with
  | error e => cases h
  | ok b => exact ⟨b, rfl, h⟩

namespace Primitive

/-- The sizes are positive, and a hull has points. -/
def Valid : Primitive ℝ → Prop
  | sphere radius => 0 < radius
  | box half => 0 < half.x ∧ 0 < half.y ∧ 0 < half.z
  | cylinder radius halfHeight | capsule radius halfHeight => 0 < radius ∧ 0 < halfHeight
  | plane | triangle _ | meshTriangle _ => True
  | convexHull points => points ≠ []

theorem checkPositive_ok {kind : ShapeKind} {parameter : ShapeParameter} {value checked : ℝ}
    (h : checkPositive kind parameter value = .ok checked) : 0 < checked := by
  unfold checkPositive at h
  split_ifs at h with hvalue
  obtain rfl := Except.ok.inj h
  simpa using hvalue.2

theorem checkPositive_of_pos {kind : ShapeKind} {parameter : ShapeParameter} {value : ℝ}
    (h : 0 < value) : checkPositive kind parameter value = .ok value := by
  simp [checkPositive, h]

theorem sphere?_of_pos {radius : ℝ} (h : 0 < radius) : sphere? radius = .ok (.sphere radius) := by
  rw [sphere?, checkPositive_of_pos h]
  rfl

theorem sphere?_valid {radius : ℝ} {prim : Primitive ℝ} (h : sphere? radius = .ok prim) :
    prim.Valid := by
  obtain ⟨r, hr, hprim⟩ := bind_ok h
  obtain rfl := Except.ok.inj hprim
  exact checkPositive_ok hr

theorem boxOfHalf?_of_pos {half : Vec3 ℝ} (hx : 0 < half.x) (hy : 0 < half.y) (hz : 0 < half.z) :
    boxOfHalf? half = .ok (.box half) := by
  rw [boxOfHalf?, checkPositive_of_pos hx, checkPositive_of_pos hy, checkPositive_of_pos hz]
  rfl

theorem boxOfHalf?_valid {half : Vec3 ℝ} {prim : Primitive ℝ} (h : boxOfHalf? half = .ok prim) :
    prim.Valid := by
  obtain ⟨x, hx, h⟩ := bind_ok h
  obtain ⟨y, hy, h⟩ := bind_ok h
  obtain ⟨z, hz, hprim⟩ := bind_ok h
  obtain rfl := Except.ok.inj hprim
  exact ⟨checkPositive_ok hx, checkPositive_ok hy, checkPositive_ok hz⟩

theorem cylinder?_of_pos {radius height : ℝ} (hradius : 0 < radius) (hheight : 0 < height) :
    cylinder? radius height = .ok (.cylinder radius (height / 2)) := by
  rw [cylinder?, checkPositive_of_pos hradius, checkPositive_of_pos hheight, div_eq_mul_one_div,
    ← Scalar.half_real]
  rfl

theorem cylinder?_valid {radius height : ℝ} {prim : Primitive ℝ}
    (h : cylinder? radius height = .ok prim) : prim.Valid := by
  obtain ⟨r, hr, h⟩ := bind_ok h
  obtain ⟨l, hl, hprim⟩ := bind_ok h
  obtain rfl := Except.ok.inj hprim
  refine ⟨checkPositive_ok hr, ?_⟩
  rw [Scalar.half_real, mul_one_div]
  exact half_pos (checkPositive_ok hl)

theorem capsule?_of_pos {radius height : ℝ} (hradius : 0 < radius) (hheight : 0 < height) :
    capsule? radius height = .ok (.capsule radius (height / 2)) := by
  rw [capsule?, checkPositive_of_pos hradius, checkPositive_of_pos hheight, div_eq_mul_one_div,
    ← Scalar.half_real]
  rfl

/-! ### Farthest points of primitives -/

theorem shortestSupportDirection_real : (shortestSupportDirection : ℝ) = 1 / 10 ^ 10 := by
  rw [shortestSupportDirection, Scalar.decimal_real]
  norm_num

/-- The part of a vector across the axis of a cylinder. -/
def sideways (p : Vec3 ℝ) : Vec3 ℝ := ⟨p.x, p.y, 0⟩

theorem norm_sideways (p : Vec3 ℝ) : ‖sideways p‖ = √(p.x * p.x + p.y * p.y) := by
  simp [Vec3.norm_eq_sqrt_dot, Vec3.dot_eq, sideways]

/-- The direction is long enough for the primitive: longer than what counts as none, and for a
cylinder its part across the axis is zero or as long. -/
structure LongEnough (prim : Primitive ℝ) (d : Vec3 ℝ) : Prop where
  long : shortestSupportDirection < ‖d‖
  across : prim.kind = .cylinder → sideways d = 0 ∨ shortestSupportDirection < ‖sideways d‖

theorem unit?_of_long {d : Vec3 ℝ} (h : shortestSupportDirection < ‖d‖) :
    d.unit? (shortestSupportDirection : ℝ) = some (‖d‖⁻¹ • d) := by
  rw [Vec3.unit?_eq, if_neg (not_le.mpr h)]

theorem long_of_isDirection {u : Vec3 ℝ} (hu : u.IsDirection) :
    (shortestSupportDirection : ℝ) < ‖u‖ := by
  rw [hu.norm_eq, shortestSupportDirection_real]
  norm_num

theorem mul_signum_mul {half d : ℝ} : half * Scalar.signum d * d = |d| * half := by
  rw [Scalar.signum_real, mul_assoc, Scalar.copySign_mul_real, abs_one, one_mul, mul_comm]

theorem abs_mul_signum {half d : ℝ} (h : 0 < half) : |half * Scalar.signum d| = half := by
  rw [Scalar.signum_real, abs_mul, Scalar.abs_copySign_real, abs_one, mul_one, abs_of_pos h]

theorem norm_smul_unit_le {radius : ℝ} (h : 0 < radius) (d : Vec3 ℝ) :
    ‖radius • ‖d‖⁻¹ • d‖ ≤ radius := by
  rw [norm_smul, norm_smul, norm_inv, norm_norm, Real.norm_of_nonneg h.le]
  exact mul_le_of_le_one_right h.le inv_mul_le_one

theorem smul_unit_dot (radius : ℝ) (d : Vec3 ℝ) :
    (radius • ‖d‖⁻¹ • d).dot d = radius * ‖d‖ := by
  rw [Vec3.smul_dot, Vec3.smul_dot, Vec3.dot_self_eq, ← mul_assoc ‖d‖⁻¹, inv_mul_mul_self]

theorem capCenter_dot {halfHeight : ℝ} (h : 0 < halfHeight) (d : Vec3 ℝ) :
    (capCenter halfHeight d).dot d = halfHeight * |d.z| := by
  have hsign := Scalar.copySign_mul_real halfHeight d.z
  rw [abs_of_pos h] at hsign
  simpa [capCenter, Vec3.dot_eq] using hsign

/-- A set that reaches equally far to both sides of the origin along a direction: a point of it is
as far along as `reach`, and no point is farther either way. -/
structure Reaches (points : Set (Vec3 ℝ)) (d : Vec3 ℝ) (reach : ℝ) (s : Vec3 ℝ) : Prop where
  mem : s ∈ points
  dot_eq : s.dot d = reach
  abs_dot_le : ∀ p ∈ points, |p.dot d| ≤ reach

theorem Reaches.isFarthest {points : Set (Vec3 ℝ)} {d s : Vec3 ℝ} {reach : ℝ}
    (h : Reaches points d reach s) : IsFarthest points d s :=
  ⟨h.mem, fun p hp ↦ (le_of_abs_le (h.abs_dot_le p hp)).trans_eq h.dot_eq.symm⟩

theorem sphere_reaches {radius : ℝ} (hradius : (sphere radius).Valid) (d : Vec3 ℝ) :
    Reaches (sphere radius).region d (radius * ‖d‖) (radius • ‖d‖⁻¹ • d) where
  mem := norm_smul_unit_le hradius d
  dot_eq := smul_unit_dot radius d
  abs_dot_le p hp :=
    (Vec3.abs_dot_le_norm p d).trans (mul_le_mul_of_nonneg_right hp (norm_nonneg d))

/-- The corner of a box that a vector looks to. -/
noncomputable def cornerTowards (half u : Vec3 ℝ) : Vec3 ℝ :=
  ⟨half.x * Scalar.signum u.x, half.y * Scalar.signum u.y, half.z * Scalar.signum u.z⟩

theorem cornerTowards_smul {s : ℝ} (hs : 0 < s) (half u : Vec3 ℝ) :
    cornerTowards half (s • u) = cornerTowards half u := by
  simp only [cornerTowards, Vec3.smul_x, Vec3.smul_y, Vec3.smul_z, Scalar.signum_mul_of_pos hs]

theorem box_reaches {half : Vec3 ℝ} (hhalf : (box half).Valid) (d : Vec3 ℝ) :
    Reaches (box half).region d (d.abs.dot half) (cornerTowards half d) where
  mem := ⟨(abs_mul_signum hhalf.1).le, (abs_mul_signum hhalf.2.1).le,
    (abs_mul_signum hhalf.2.2).le⟩
  dot_eq := by
    simp only [cornerTowards, Vec3.dot_eq, mul_signum_mul]
    rfl
  abs_dot_le _ hp := abs_dot_le_of_box hp d

theorem capsule_reaches {radius halfHeight : ℝ} (hvalid : (capsule radius halfHeight).Valid)
    (d : Vec3 ℝ) :
    Reaches (capsule radius halfHeight).region d (halfHeight * |d.z| + radius * ‖d‖)
      (radius • ‖d‖⁻¹ • d + capCenter halfHeight d) where
  mem := by
    refine ⟨Scalar.copySign halfHeight d.z, ?_, ?_⟩
    · rw [Scalar.abs_copySign_real, abs_of_pos hvalid.2]
    · have hcap : (⟨0, 0, Scalar.copySign halfHeight d.z⟩ : Vec3 ℝ) = capCenter halfHeight d := by
        simp [capCenter]
      rw [hcap, add_sub_cancel_right]
      exact norm_smul_unit_le hvalid.1 d
  dot_eq := by rw [Vec3.add_dot, smul_unit_dot, capCenter_dot hvalid.2, add_comm]
  abs_dot_le _ hp := abs_dot_le_of_capsule hp d

theorem capCenter_mem {radius halfHeight : ℝ} (hvalid : (cylinder radius halfHeight).Valid)
    (d : Vec3 ℝ) : capCenter halfHeight d ∈ (cylinder radius halfHeight).region := by
  constructor
  · simpa [capCenter] using hvalid.1.le
  · simp [capCenter, Scalar.abs_copySign_real, abs_of_pos hvalid.2]

theorem cylinder_reaches {radius halfHeight : ℝ} (hvalid : (cylinder radius halfHeight).Valid)
    (d : Vec3 ℝ) :
    Reaches (cylinder radius halfHeight).region d
      (halfHeight * |d.z| + radius * √(d.x * d.x + d.y * d.y))
      (radius • ‖sideways d‖⁻¹ • sideways d + capCenter halfHeight d) where
  mem := by
    constructor
    · have hacross : sideways (radius • ‖sideways d‖⁻¹ • sideways d + capCenter halfHeight d) =
          radius • ‖sideways d‖⁻¹ • sideways d := by
        ext <;> simp [sideways, capCenter]
      rw [← norm_sideways, hacross]
      exact norm_smul_unit_le hvalid.1 _
    · simp [sideways, capCenter, Scalar.abs_copySign_real, abs_of_pos hvalid.2]
  dot_eq := by
    have hacross : (radius • ‖sideways d‖⁻¹ • sideways d).dot d =
        (radius • ‖sideways d‖⁻¹ • sideways d).dot (sideways d) := by
      simp [Vec3.dot_eq, sideways]
    rw [Vec3.add_dot, hacross, smul_unit_dot, capCenter_dot hvalid.2, norm_sideways, add_comm]
  abs_dot_le _ hp := abs_dot_le_of_cylinder hp d

theorem farthest?_spec {points : List (Vec3 ℝ)} (h : points ≠ []) (u : Vec3 ℝ) :
    ∃ s, Vec3.farthest? points u = some s ∧ IsFarthest (Vec3.hull points) u s := by
  obtain ⟨s, hs, hmem, hmax⟩ := Scalar.lastMaxBy?_real (fun p ↦ p.dot u) points h
  exact ⟨s, hs, isFarthest_hull hmem hmax⟩

/-- A point of a list that is farther along than all others is the one that is found. -/
theorem farthest?_eq {points : List (Vec3 ℝ)} {u s : Vec3 ℝ} (hs : s ∈ points)
    (hfar : ∀ p ∈ points, p ≠ s → p.dot u < s.dot u) : Vec3.farthest? points u = some s := by
  obtain ⟨r, hr, hmem, hmax⟩ :=
    Scalar.lastMaxBy?_real (fun p ↦ p.dot u) points (List.ne_nil_of_mem hs)
  have hsame : r = s := by
    by_contra hne
    exact absurd (hmax s hs) (not_le.mpr (hfar r hmem hne))
  rwa [hsame] at hr

theorem support?_of_points {prim : Primitive ℝ} {points : List (Vec3 ℝ)}
    (h : prim.points? = some points) (u : Vec3 ℝ) :
    prim.support? u = Vec3.farthest? points u := by
  cases prim with
  | triangle corners | meshTriangle corners | convexHull corners =>
    obtain rfl := Option.some_inj.mp h
    rfl
  | _ => cases h

/-- A direction of which too little is across the axis is taken for one along it. -/
theorem cylinder_support? (radius halfHeight : ℝ) (d : Vec3 ℝ) :
    (cylinder radius halfHeight).support? d =
      if ‖sideways d‖ ≤ shortestSupportDirection then some (capCenter halfHeight d)
      else some (radius • ‖sideways d‖⁻¹ • sideways d + capCenter halfHeight d) := by
  have hunit := Vec3.unit?_eq (sideways d) shortestSupportDirection
  unfold sideways at hunit ⊢
  simp only [support?, Scalar.zero_real, hunit]
  split_ifs with hshort
  · simp only [capCenter, Scalar.zero_real, Vec3.zero_eq, Vec3.zero_x, Vec3.zero_y]
  · refine congrArg some ?_
    ext <;> simp [capCenter, Vec3.mul_eq_smul]

/-- What a primitive gives as its farthest point along a direction that is long enough is one. -/
theorem support?_spec {prim : Primitive ℝ} (hvalid : prim.Valid) (hplane : prim.kind ≠ .plane)
    {d : Vec3 ℝ} (hd : prim.LongEnough d) :
    ∃ s, prim.support? d = some s ∧ IsFarthest prim.region d s := by
  cases prim with
  | sphere radius =>
    refine ⟨_, ?_, (sphere_reaches hvalid d).isFarthest⟩
    simp only [support?, unit?_of_long hd.long, Option.getD_some, Vec3.mul_eq_smul]
  | box half => exact ⟨_, rfl, (box_reaches hvalid d).isFarthest⟩
  | cylinder radius halfHeight =>
    refine ⟨_, ?_, (cylinder_reaches hvalid d).isFarthest⟩
    rw [cylinder_support?]
    rcases hd.across rfl with hzero | hlong
    · simp [hzero]
    · rw [if_neg (not_le.mpr hlong)]
  | capsule radius halfHeight =>
    refine ⟨_, ?_, (capsule_reaches hvalid d).isFarthest⟩
    simp only [support?, unit?_of_long hd.long, Option.getD_some, Vec3.mul_eq_smul]
  | plane => exact absurd rfl hplane
  | triangle corners => exact farthest?_spec (List.cons_ne_nil _ _) d
  | meshTriangle corners => exact farthest?_spec (List.cons_ne_nil _ _) d
  | convexHull points => exact farthest?_spec hvalid d

/-- What a primitive gives as its farthest point is one of its points, also for a cylinder seen
nearly along its axis. -/
theorem support?_mem {prim : Primitive ℝ} (hvalid : prim.Valid) (hplane : prim.kind ≠ .plane)
    {u : Vec3 ℝ} (hu : u.IsDirection) : ∃ s, prim.support? u = some s ∧ s ∈ prim.region := by
  by_cases hlong : prim.LongEnough u
  · obtain ⟨s, hs, hmem, -⟩ := support?_spec hvalid hplane hlong
    exact ⟨s, hs, hmem⟩
  · cases prim with
    | cylinder radius halfHeight =>
      have hshort : ‖sideways u‖ ≤ shortestSupportDirection :=
        not_lt.mp fun h ↦ hlong ⟨long_of_isDirection hu, fun _ ↦ .inr h⟩
      exact ⟨_, by rw [cylinder_support?, if_pos hshort], capCenter_mem hvalid u⟩
    | _ => exact absurd ⟨long_of_isDirection hu, nofun⟩ hlong

end Primitive

/-! ### Farthest points of placed parts -/

namespace Part

/-- The support point of a placed part is that of its primitive where it stands. -/
theorem supportAt?_eq {part : Part ℝ} (hpart : part.Rigid) {pose : Pose ℝ} (hpose : pose.Rigid)
    (direction : Vec3 ℝ) :
    (Shape.part part).supportAt? pose direction =
      (part.primitive.support? ((part.rebase pose).inverseTransformVector direction)).map
        (part.rebase pose).transformPoint := by
  cases part with
  | bare p => rfl
  | offset p inner =>
    show ((p.support? (inner.inverseTransformVector (pose.inverseTransformVector direction))).map
      inner.transformPoint).map pose.transformPoint = _
    rw [← Pose.compose_inverseTransformVector hpose hpart, Option.map_map]
    refine Option.map_congr fun q _ ↦ ?_
    exact (Pose.compose_transformPoint hpose hpart q).symm

/-- What a placed part gives as its farthest point, if its primitive does. -/
theorem supportPoint_eq {part : Part ℝ} (hpart : part.Rigid) {pose : Pose ℝ} (hpose : pose.Rigid)
    {direction s : Vec3 ℝ}
    (hs : part.primitive.support? ((part.rebase pose).inverseTransformVector direction) = some s) :
    (Placed.mk (.part part) pose).supportPoint direction =
      (part.rebase pose).transformPoint s := by
  rw [Placed.supportPoint, supportAt?_eq hpart hpose, hs]
  rfl

/-- The part has a farthest point along every unit vector: its primitive is valid and neither a
plane nor a cylinder, and it is moved inside its owner by a rigid pose, if at all. -/
structure Supported (part : Part ℝ) : Prop where
  rigid : part.Rigid
  valid : part.primitive.Valid
  not_plane : part.primitive.kind ≠ .plane
  not_cylinder : part.primitive.kind ≠ .cylinder

/-- The farthest point of a placed part. -/
theorem supportPoint_spec {part : Part ℝ} (h : part.Supported) {pose : Pose ℝ} (hpose : pose.Rigid)
    {u : Vec3 ℝ} (hu : u.IsDirection) :
    IsFarthest (part.regionAt pose) u ((Placed.mk (.part part) pose).supportPoint u) := by
  have hlocal := Pose.inverseTransformVector_isDirection (h.rigid.rebase hpose) hu
  obtain ⟨s, hs, hfarthest⟩ := Primitive.support?_spec h.valid h.not_plane
    ⟨Primitive.long_of_isDirection hlocal, fun hcylinder ↦ absurd hcylinder h.not_cylinder⟩
  rw [supportPoint_eq h.rigid hpose hs, regionAt, image_carry h.rigid hpose]
  exact IsFarthest.image hfarthest

/-- The part gives farthest points: its primitive is valid and no plane, and it is moved inside its
owner by a rigid pose, if at all. For a cylinder they need not be farthest. -/
structure Mapped (part : Part ℝ) : Prop where
  rigid : part.Rigid
  valid : part.primitive.Valid
  not_plane : part.primitive.kind ≠ .plane

/-- A mesh gives the farthest points of the hull of its vertices. -/
theorem mesh_mapped (m : Mesh ℝ) : (Shape.mesh m).outline.Mapped := by
  refine ⟨trivial, fun hnil ↦ ?_, nofun⟩
  obtain ⟨f, hf⟩ := List.exists_mem_of_ne_nil _ m.faces_ne_nil
  obtain ⟨hlt, -, -⟩ := m.faces_inRange f hf
  rw [← Array.length_toList, hnil] at hlt
  exact absurd hlt (Nat.not_lt_zero _)

/-- A height field gives those of its surface. -/
theorem heightField_mapped (field : HeightField ℝ) : (Shape.heightField field).outline.Mapped :=
  mesh_mapped field.mesh

/-- What a placed shape gives as its farthest point is one of its points. -/
theorem supportPoint_mem {shape : Shape ℝ} (h : shape.outline.Mapped) {pose : Pose ℝ}
    (hpose : pose.Rigid) {u : Vec3 ℝ} (hu : u.IsDirection) :
    (Placed.mk shape pose).supportPoint u ∈ shape.outline.regionAt pose := by
  obtain ⟨s, hs, hmem⟩ := Primitive.support?_mem h.valid h.not_plane
    (Pose.inverseTransformVector_isDirection (h.rigid.rebase hpose) hu)
  have hpoint : (Placed.mk shape pose).supportPoint u =
      (shape.outline.rebase pose).transformPoint s := supportPoint_eq h.rigid hpose hs
  rw [hpoint, regionAt, image_carry h.rigid hpose]
  exact ⟨s, hmem, rfl⟩

/-- The farthest point of a placed box is the corner that the direction looks to in its frame. -/
theorem supportPoint_box (half : Vec3 ℝ) (pose : Pose ℝ) (u : Vec3 ℝ) :
    (Placed.mk (.part (.bare (.box half))) pose).supportPoint u =
      pose.transformPoint (Primitive.cornerTowards half (pose.inverseTransformVector u)) := rfl

/-- The farthest point of a body that points span and that is not turned, if no other point is as
far. -/
theorem supportPoint_points {prim : Primitive ℝ} {points : List (Vec3 ℝ)} {u s : Vec3 ℝ}
    (hprim : prim.points? = some points) (center : Vec3 ℝ) (hs : s ∈ points)
    (hfar : ∀ p ∈ points, p ≠ s → p.dot u < s.dot u) :
    (Placed.mk (.part (.bare prim)) (.ofPosition center)).supportPoint u = center + s := by
  simp only [Placed.supportPoint, Shape.supportAt?, Shape.support?, Shape.outline, Part.support?,
    Pose.ofPosition_inverseTransformVector, Primitive.support?_of_points hprim,
    Primitive.farthest?_eq hs hfar, Option.getD_some, Option.map_some,
    Pose.ofPosition_transformPoint]

end Part

end Collision
