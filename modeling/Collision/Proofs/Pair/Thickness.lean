import Collision.Proofs.Pair.Round

/-!
# How thick a body is along a normal

The contact of two round bodies lies half the depth below the surface of either, along the normal.
Whether that is still a point of a body depends on how thick the body is there: a ball has room for
half of a depth of up to four radii, a box if the depth along each of its axes is at most twice the
length of the box, and a capsule until the way leaves it at the side or past the far end.

`Primitive.Thick` states these bounds. They are exact (`Primitive.mem_region_of_half_depth_iff`) from
a point of the core on where the normal points into the core, which is so at the point closest to
the other body.
-/

set_option autoImplicit false
set_option relaxedAutoImplicit false

namespace Collision

/-- All of the set lies ahead of the point `q` along the vector `n`. -/
def Ahead (points : Set (Vec3 ℝ)) (q n : Vec3 ℝ) : Prop := ∀ x ∈ points, 0 ≤ (x - q).dot n

/-- Half a depth is at most twice the radius away from the surface of a ball. -/
theorem abs_half_sub_le_iff {depth radius : ℝ} (hdepth : 0 < depth) :
    |depth / 2 - radius| ≤ radius ↔ depth ≤ 4 * radius := by
  rw [abs_le]
  constructor
  · rintro ⟨-, h⟩
    linarith
  · intro h
    constructor <;> linarith

theorem Vec3.IsDirection.norm_smul_eq {n : Vec3 ℝ} (hn : n.IsDirection) (s : ℝ) :
    ‖s • n‖ = |s| := by
  rw [norm_smul, hn.norm_eq, mul_one, Real.norm_eq_abs]

/-! ### Intervals -/

section Interval

variable {half q n s : ℝ}

/-- A component that points into an interval leaves from the end behind it. -/
theorem eq_end_of_ahead (hq : |q| ≤ half) (hahead : ∀ y, |y| ≤ half → 0 ≤ (y - q) * n) :
    n = 0 ∨ (n < 0 ∧ q = half) ∨ (0 < n ∧ q = -half) := by
  have hhalf : 0 ≤ half := (abs_nonneg q).trans hq
  obtain ⟨hlow, hhigh⟩ := abs_le.mp hq
  rcases lt_trichotomy n 0 with hn | hn | hn
  · have h := hahead half (abs_of_nonneg hhalf).le
    exact .inr (.inl ⟨hn, le_antisymm hhigh (by nlinarith)⟩)
  · exact .inl hn
  · have h := hahead (-half) (by rw [abs_neg, abs_of_nonneg hhalf])
    exact .inr (.inr ⟨hn, le_antisymm (by nlinarith) hlow⟩)

theorem abs_add_mul_le_iff (hq : |q| ≤ half) (hahead : ∀ y, |y| ≤ half → 0 ≤ (y - q) * n)
    (hs : 0 ≤ s) : |q + s * n| ≤ half ↔ s * |n| ≤ 2 * half := by
  have hhalf : 0 ≤ half := (abs_nonneg q).trans hq
  rcases eq_end_of_ahead hq hahead with rfl | ⟨hn, rfl⟩ | ⟨hn, rfl⟩
  · rw [mul_zero, add_zero, abs_zero, mul_zero]
    exact iff_of_true hq (by linarith)
  · have hproduct := mul_nonpos_of_nonneg_of_nonpos hs hn.le
    rw [abs_of_neg hn, abs_le]
    constructor
    · rintro ⟨h, -⟩
      linarith
    · intro h
      constructor <;> linarith
  · have hproduct := mul_nonneg hs hn.le
    rw [abs_of_pos hn, abs_le]
    constructor
    · rintro ⟨-, h⟩
      linarith
    · intro h
      constructor <;> linarith

/-- How far the way ahead is past the interval. -/
theorem past_end_eq (hq : |q| ≤ half) (hahead : ∀ y, |y| ≤ half → 0 ≤ (y - q) * n) (hs : 0 ≤ s) :
    max (|q + s * n| - half) 0 = max (s * |n| - 2 * half) 0 := by
  by_cases hle : |q + s * n| ≤ half
  · have hwithin := (abs_add_mul_le_iff hq hahead hs).mp hle
    rw [max_eq_right (by linarith), max_eq_right (by linarith)]
  · have hhalf : 0 ≤ half := (abs_nonneg q).trans hq
    have hpast := mt (abs_add_mul_le_iff hq hahead hs).mpr hle
    rcases eq_end_of_ahead hq hahead with rfl | ⟨hn, rfl⟩ | ⟨hn, rfl⟩
    · rw [abs_zero, mul_zero] at hpast
      exact absurd (by linarith) hpast
    · rw [abs_of_neg hn] at hpast ⊢
      rw [abs_of_neg (by linarith)]
      ring_nf
    · rw [abs_of_pos hn] at hpast ⊢
      rw [abs_of_pos (by linarith)]
      ring_nf

end Interval

namespace Primitive

/-! ### Capsules -/

/-- A point is in a capsule if what it is away from the axis and past the ends of the core is at
most the radius. -/
theorem mem_capsule_region_iff {radius halfHeight : ℝ} (hradius : 0 ≤ radius)
    (hheight : 0 ≤ halfHeight) {p : Vec3 ℝ} : p ∈ (capsule radius halfHeight).region ↔
      max (|p.z| - halfHeight) 0 ^ 2 + (p.x ^ 2 + p.y ^ 2) ≤ radius ^ 2 := by
  have hnorm (height : ℝ) : ‖p - ⟨0, 0, height⟩‖ ≤ radius ↔
      (p.z - height) ^ 2 + (p.x ^ 2 + p.y ^ 2) ≤ radius ^ 2 := by
    rw [Vec3.norm_eq_sqrt_dot, Real.sqrt_le_left hradius, Vec3.dot_eq]
    simp only [Vec3.sub_x, Vec3.sub_y, Vec3.sub_z, sub_zero]
    constructor <;> intro h <;> linarith
  constructor
  · rintro ⟨height, hcore, hp⟩
    have hpast : max (|p.z| - halfHeight) 0 ≤ |p.z - height| := by
      refine max_le ?_ (abs_nonneg _)
      linarith [abs_sub_abs_le_abs_sub p.z height]
    have hsquare := pow_le_pow_left₀ (le_max_right _ _) hpast 2
    rw [sq_abs] at hsquare
    linarith [(hnorm height).mp hp]
  · intro h
    obtain ⟨height, hcore, hpast⟩ : ∃ height, |height| ≤ halfHeight ∧
        |p.z - height| = max (|p.z| - halfHeight) 0 := by
      rcases le_total |p.z| halfHeight with hwithin | hbeyond
      · exact ⟨p.z, hwithin, by rw [sub_self, abs_zero, max_eq_right (by linarith)]⟩
      · rw [max_eq_left (by linarith)]
        rcases abs_cases p.z with ⟨habs, -⟩ | ⟨habs, -⟩
        · refine ⟨halfHeight, (abs_of_nonneg hheight).le, ?_⟩
          rw [habs] at hbeyond ⊢
          exact abs_of_nonneg (by linarith)
        · refine ⟨-halfHeight, by rw [abs_neg, abs_of_nonneg hheight], ?_⟩
          rw [habs] at hbeyond ⊢
          rw [abs_of_nonpos (by linarith)]
          ring
    refine ⟨height, hcore, (hnorm height).mpr ?_⟩
    rwa [← sq_abs, hpast]

/-! ### Room for half a depth -/

/-- The body has room for half of the depth below a surface point at which `n` points inward, with
both sides of each bound doubled. The way into a capsule is measured from the centre of its cap on:
across the axis, and past the far end of the core. -/
def Thick (prim : Primitive ℝ) (n : Vec3 ℝ) (depth : ℝ) : Prop :=
  match prim with
  | sphere radius => depth ≤ 4 * radius
  | box half => ∀ i, depth * |n.get i| ≤ 4 * half.get i
  | capsule radius halfHeight =>
    let reach := depth - (radius + radius)
    max (reach * |n.z| - 4 * halfHeight) 0 ^ 2 + reach ^ 2 * (1 - n.z ^ 2) ≤ 4 * radius ^ 2
  | cylinder .. | plane | triangle _ | meshTriangle _ | convexHull _ => False

theorem thick_capsule_iff {radius halfHeight depth : ℝ} {n : Vec3 ℝ} :
    (capsule radius halfHeight).Thick n depth ↔
      max ((depth / 2 - radius) * |n.z| - 2 * halfHeight) 0 ^ 2 +
        (depth / 2 - radius) ^ 2 * (1 - n.z ^ 2) ≤ radius ^ 2 := by
  have hreach : depth - (radius + radius) = 2 * (depth / 2 - radius) := by ring
  rw [Thick, hreach]
  generalize depth / 2 - radius = s
  have hpast : max (2 * s * |n.z| - 4 * halfHeight) 0 = 2 * max (s * |n.z| - 2 * halfHeight) 0 := by
    rw [mul_max_of_nonneg _ _ zero_le_two, mul_zero]
    ring_nf
  rw [hpast]
  constructor <;> intro h <;> linarith

/-- Bounds for a normal are those for the opposite one. -/
theorem thick_neg (prim : Primitive ℝ) (n : Vec3 ℝ) (depth : ℝ) :
    prim.Thick (-n) depth ↔ prim.Thick n depth := by
  have hget (i : Fin 3) : |(-n).get i| = |n.get i| := by
    fin_cases i <;> exact abs_neg _
  cases prim with
  | box half => simp only [Thick, hget]
  | capsule radius halfHeight => simp only [Thick, Vec3.neg_z, abs_neg, neg_sq]
  | _ => exact Iff.rfl

section Inward

variable {q n : Vec3 ℝ} {depth : ℝ}

theorem box_ahead_component {half : Vec3 ℝ} (hq : q ∈ (box half).region)
    (hahead : Ahead (box half).region q n) (i : Fin 3) (y : ℝ) (hy : |y| ≤ half.get i) :
    0 ≤ (y - q.get i) * n.get i := by
  have hget (j : Fin 3) : (q + (y - q.get i) • Vec3.axis i).get j =
      if i = j then y else q.get j := by
    rw [Vec3.get_add, Vec3.get_smul, Vec3.get_axis]
    split_ifs with h
    · rw [h]
      ring
    · ring
  have hmem : q + (y - q.get i) • Vec3.axis i ∈ (box half).region := by
    refine mem_box_region_iff.mpr fun j ↦ ?_
    rw [hget]
    split_ifs with h
    · exact h ▸ hy
    · exact mem_box_region_iff.mp hq j
  have h := hahead _ hmem
  rwa [add_sub_cancel_left, Vec3.smul_dot, Vec3.dot_comm, Vec3.dot_axis] at h

/-- From a surface point of a box, the way inward stays in the box as long as it does so along each
axis. -/
theorem mem_box_region_of_half_depth_iff {half : Vec3 ℝ} (hq : q ∈ (box half).region)
    (hahead : Ahead (box half).region q n) (hdepth : 0 < depth) :
    q + (depth / 2) • n ∈ (box half).region ↔ (box half).Thick n depth := by
  rw [mem_box_region_iff, Thick]
  refine forall_congr' fun i ↦ ?_
  rw [Vec3.get_add, Vec3.get_smul, abs_add_mul_le_iff (mem_box_region_iff.mp hq i)
    (box_ahead_component hq hahead i) (by linarith)]
  constructor <;> intro h <;> linarith

/-- From the centre of a cap, or from any other point of the core if the way is across the axis. -/
theorem mem_capsule_region_of_half_depth_iff {radius halfHeight : ℝ} (hradius : 0 < radius)
    (hheight : 0 < halfHeight) (hq : q ∈ (capsule radius halfHeight).core) (hn : n.IsDirection)
    (hahead : Ahead (capsule radius halfHeight).core q n) (hdepth : 0 < depth) :
    q + (depth / 2 - radius) • n ∈ (capsule radius halfHeight).region ↔
      (capsule radius halfHeight).Thick n depth := by
  obtain ⟨z, hz, rfl⟩ := hq
  have hbound : |z| ≤ halfHeight := abs_le.mpr hz
  have hcomponent (y : ℝ) (hy : |y| ≤ halfHeight) : 0 ≤ (y - z) * n.z := by
    have h := hahead _ (smul_mem_beam hy)
    rwa [← sub_smul, Vec3.smul_dot, Vec3.dot_comm, Vec3.dot_axis] at h
  have hunit : n.x ^ 2 + n.y ^ 2 = 1 - n.z ^ 2 := by
    have h : n.x * n.x + n.y * n.y + n.z * n.z = 1 := hn
    linarith
  have hacross : n.z ^ 2 ≤ 1 := by nlinarith [sq_nonneg n.x, sq_nonneg n.y]
  show z • Vec3.axis 2 + (depth / 2 - radius) • n ∈ _ ↔ _
  rw [mem_capsule_region_iff hradius.le hheight.le, smul_axis_two]
  simp only [Vec3.add_x, Vec3.add_y, Vec3.add_z, Vec3.smul_x, Vec3.smul_y, Vec3.smul_z, zero_add,
    thick_capsule_iff, mul_pow, ← mul_add, hunit]
  rcases le_total 0 (depth / 2 - radius) with hs | hs
  · rw [past_end_eq hbound hcomponent hs]
  · -- The way ends before the centre of the cap, within the ball about it.
    generalize hreach : depth / 2 - radius = s at hs
    have hsquare : s ^ 2 ≤ radius ^ 2 := sq_le_sq' (by linarith) (by linarith)
    have hpast : max (|z + s * n.z| - halfHeight) 0 ^ 2 ≤ s ^ 2 * n.z ^ 2 := by
      rw [← mul_pow, ← sq_abs (s * n.z)]
      refine pow_le_pow_left₀ (le_max_right _ _) (max_le ?_ (abs_nonneg _)) 2
      linarith [abs_add_le z (s * n.z)]
    have hfar : max (s * |n.z| - 2 * halfHeight) 0 = 0 :=
      max_eq_right (by linarith [mul_nonpos_of_nonpos_of_nonneg hs (abs_nonneg n.z)])
    rw [hfar]
    refine iff_of_true (by linarith) ?_
    nlinarith [mul_nonneg (sq_nonneg s) (sq_nonneg n.z)]

/-- Spheres, boxes and capsules have room for half of a depth below a surface point exactly if they
are thick enough. -/
theorem mem_region_of_half_depth_iff {prim : Primitive ℝ}
    (hkind : prim.kind ∈ [ShapeKind.sphere, .box, .capsule]) (hvalid : prim.Valid)
    (hq : q ∈ prim.core) (hn : n.IsDirection) (hahead : Ahead prim.core q n) (hdepth : 0 < depth) :
    q + (depth / 2 - prim.coreRadius) • n ∈ prim.region ↔ prim.Thick n depth := by
  cases prim with
  | sphere radius =>
    obtain rfl := Set.mem_singleton_iff.mp hq
    rw [zero_add]
    show ‖(depth / 2 - radius) • n‖ ≤ radius ↔ depth ≤ 4 * radius
    rw [hn.norm_smul_eq, abs_half_sub_le_iff hdepth]
  | box half =>
    show q + (depth / 2 - 0) • n ∈ _ ↔ _
    rw [sub_zero]
    exact mem_box_region_of_half_depth_iff hq hahead hdepth
  | capsule radius halfHeight =>
    exact mem_capsule_region_of_half_depth_iff hvalid.1 hvalid.2 hq hn hahead hdepth
  | _ => simp [kind] at hkind

end Inward

end Primitive

end Collision
