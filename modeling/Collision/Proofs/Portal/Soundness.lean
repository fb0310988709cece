import Collision.Proofs.Portal.Boxes
import Mathlib.Analysis.Convex.Combination

/-!
# When portal refinement finds bodies overlapping

The searches keep the ray from the interior point towards the origin inside the portal triangle:
the weights by which the origin lies in the tetrahedron of the portal are not negative at the
corners (`Portal.AroundRay`). A portal that lies beyond the origin adds the weight of the interior
point, so the origin is a weighted mean of four points of the difference body
(`Portal.AroundRay.origin_mem`).

Products of lengths count as zero below one fixed width, whatever the size of the bodies, so and
a point exactly on the plane that decides a replacement is a draw. `DifferenceBody.Sharp` says that
what a search took for zero was zero and that it met no draw. Bodies that a sharp search finds
overlapping have a common point (`Placed.common_point_of_generallyOverlaps`). Without that they may
be apart: two boxes of a hundred thousandth in size are found overlapping across a gap
(`Placed.small_boxes_overlap_across_gap`).
-/

set_option autoImplicit false
set_option relaxedAutoImplicit false

open scoped Pointwise

namespace Collision

/-- The set is convex and holds what a search asks the difference body for. -/
structure DifferenceBody.Within (d : DifferenceBody ℝ) (points : Set (Vec3 ℝ)) : Prop where
  convex : Convex ℝ points
  center : d.center.v ∈ points
  support : ∀ u : Vec3 ℝ, u.IsDirection → (d.support u).v ∈ points

namespace Portal

/-! ### Portals around the ray -/

/-- The interior point and the corners of the portal belong to the set. -/
structure Inside (p : Portal ℝ) (points : Set (Vec3 ℝ)) : Prop where
  v0 : p.v0.v ∈ points
  v1 : p.v1.v ∈ points
  v2 : p.v2.v ∈ points
  v3 : p.v3.v ∈ points

/-- The ray from the interior point towards the origin passes through the portal triangle: no corner
has a negative weight, and some corner has a positive one. -/
structure AroundRay (p : Portal ℝ) : Prop where
  first : 0 ≤ p.tetrahedronWeights.w1
  second : 0 ≤ p.tetrahedronWeights.w2
  third : 0 ≤ p.tetrahedronWeights.w3
  positive : 0 < p.tetrahedronWeights.w1 + p.tetrahedronWeights.w2 + p.tetrahedronWeights.w3

/-- On which side of the plane through the ray and `v4` a corner lies. -/
noncomputable def side (p : Portal ℝ) (v4 corner : DifferencePoint ℝ) : ℝ :=
  corner.v.dot (v4.v.cross p.v0.v)

/-- The sides that decide which corner `v4` replaces are no draw. -/
def Decided (p : Portal ℝ) (v4 : DifferencePoint ℝ) : Prop :=
  p.side v4 p.v1 ≤ 0 → p.side v4 p.v3 ≤ 0 → p.side v4 p.v1 < 0 ∧ p.side v4 p.v3 < 0

/-- The weights balance the corners and the interior point at the origin. -/
theorem weights_balance (p : Portal ℝ) :
    p.tetrahedronWeights.w0 • p.v0.v + p.tetrahedronWeights.w1 • p.v1.v +
      p.tetrahedronWeights.w2 • p.v2.v + p.tetrahedronWeights.w3 • p.v3.v = 0 := by
  ext <;> simp [tetrahedronWeights, Vec3.dot_eq, Vec3.cross] <;> ring

/-- The weights balance the sides of any further point. -/
theorem sides_balance (p : Portal ℝ) (v4 : DifferencePoint ℝ) :
    p.tetrahedronWeights.w1 * p.side v4 p.v1 + p.tetrahedronWeights.w2 * p.side v4 p.v2 +
      p.tetrahedronWeights.w3 * p.side v4 p.v3 = 0 := by
  have h := congrArg (Vec3.dot · (v4.v.cross p.v0.v)) p.weights_balance
  have hinterior : p.v0.v.dot (v4.v.cross p.v0.v) = 0 := by
    rw [Vec3.dot_comm, Vec3.cross_dot_right]
  simpa [side, hinterior] using h

/-- The weights of the portal with one corner replaced: that corner keeps its weight, and the others
have sides of the new point for theirs. -/
theorem weights_replace (p : Portal ℝ) (v4 : DifferencePoint ℝ) :
    let first : Portal ℝ := { p with v1 := v4 }
    let second : Portal ℝ := { p with v2 := v4 }
    let third : Portal ℝ := { p with v3 := v4 }
    (first.tetrahedronWeights.w2 = -p.side v4 p.v3 ∧
        first.tetrahedronWeights.w3 = p.side v4 p.v2) ∧
      (second.tetrahedronWeights.w1 = p.side v4 p.v3 ∧
        second.tetrahedronWeights.w3 = -p.side v4 p.v1) ∧
      third.tetrahedronWeights.w1 = -p.side v4 p.v2 ∧
        third.tetrahedronWeights.w2 = p.side v4 p.v1 := by
  refine ⟨⟨?_, ?_⟩, ⟨?_, ?_⟩, ?_, ?_⟩ <;>
    · simp only [tetrahedronWeights, side, Vec3.dot_eq, Vec3.cross]
      ring

/-- The sides say which corner `v4` replaces. -/
theorem expand_cases (p : Portal ℝ) (v4 : DifferencePoint ℝ) :
    (0 < p.side v4 p.v1 ∧ 0 < p.side v4 p.v2 ∧ p.expand v4 = { p with v1 := v4 }) ∨
      (0 < p.side v4 p.v1 ∧ p.side v4 p.v2 ≤ 0 ∧ p.expand v4 = { p with v3 := v4 }) ∨
      (p.side v4 p.v1 ≤ 0 ∧ 0 < p.side v4 p.v3 ∧ p.expand v4 = { p with v2 := v4 }) ∨
      (p.side v4 p.v1 ≤ 0 ∧ p.side v4 p.v3 ≤ 0 ∧ p.expand v4 = { p with v1 := v4 }) := by
  simp only [Portal.expand, Scalar.zero_real, side]
  split_ifs with h1 h2 h3
  · exact .inl ⟨h1, h2, rfl⟩
  · exact .inr (.inl ⟨h1, not_lt.mp h2, rfl⟩)
  · exact .inr (.inr (.inl ⟨not_lt.mp h1, h3, rfl⟩))
  · exact .inr (.inr (.inr ⟨not_lt.mp h1, not_lt.mp h3, rfl⟩))

/-- Numbers of which weights make zero are not all positive. -/
theorem nonpos_of_balance {w1 w2 w3 s1 s2 s3 : ℝ} (hw1 : 0 ≤ w1) (hw2 : 0 ≤ w2) (hw3 : 0 ≤ w3)
    (hpositive : 0 < w1 + w2 + w3) (h : w1 * s1 + w2 * s2 + w3 * s3 = 0) (h1 : 0 < s1)
    (h2 : 0 < s2) : s3 ≤ 0 := by
  by_contra h3
  rw [not_le] at h3
  have hs1 := mul_nonneg hw1 h1.le
  have hs2 := mul_nonneg hw2 h2.le
  have hs3 := mul_nonneg hw3 h3.le
  have hzero1 := (mul_eq_zero.mp (by linarith : w1 * s1 = 0)).resolve_right h1.ne'
  have hzero2 := (mul_eq_zero.mp (by linarith : w2 * s2 = 0)).resolve_right h2.ne'
  have hzero3 := (mul_eq_zero.mp (by linarith : w3 * s3 = 0)).resolve_right h3.ne'
  linarith

theorem expand_v0 (p : Portal ℝ) (v4 : DifferencePoint ℝ) : (p.expand v4).v0 = p.v0 := by
  rcases p.expand_cases v4 with ⟨-, -, h⟩ | ⟨-, -, h⟩ | ⟨-, -, h⟩ | ⟨-, -, h⟩ <;> rw [h]

/-- After a replacement the corners are corners there were, and the new point. -/
theorem expand_corners {P : DifferencePoint ℝ → Prop} {p : Portal ℝ} {v4 : DifferencePoint ℝ}
    (h1 : P p.v1) (h2 : P p.v2) (h3 : P p.v3) (h4 : P v4) :
    P (p.expand v4).v1 ∧ P (p.expand v4).v2 ∧ P (p.expand v4).v3 := by
  rcases p.expand_cases v4 with ⟨-, -, h⟩ | ⟨-, -, h⟩ | ⟨-, -, h⟩ | ⟨-, -, h⟩ <;> rw [h]
  · exact ⟨h4, h2, h3⟩
  · exact ⟨h1, h2, h4⟩
  · exact ⟨h1, h4, h3⟩
  · exact ⟨h4, h2, h3⟩

theorem Inside.expand {p : Portal ℝ} {points : Set (Vec3 ℝ)} (hp : p.Inside points)
    {v4 : DifferencePoint ℝ} (hv4 : v4.v ∈ points) : (p.expand v4).Inside points := by
  obtain ⟨h0, h1, h2, h3⟩ := hp
  obtain ⟨hfirst, hsecond, hthird⟩ := expand_corners (P := fun v ↦ v.v ∈ points) h1 h2 h3 hv4
  exact ⟨p.expand_v0 v4 ▸ h0, hfirst, hsecond, hthird⟩

/-- The ray still passes through the portal triangle when a corner is replaced and this is no
draw. -/
theorem AroundRay.expand {p : Portal ℝ} (hp : p.AroundRay) {v4 : DifferencePoint ℝ}
    (hdecided : p.Decided v4) : (p.expand v4).AroundRay := by
  obtain ⟨hw1, hw2, hw3, hpositive⟩ := hp
  have hbalance := p.sides_balance v4
  obtain ⟨⟨hfirst2, hfirst3⟩, ⟨hsecond1, hsecond3⟩, hthird1, hthird2⟩ := p.weights_replace v4
  rcases p.expand_cases v4 with ⟨h1, h2, h⟩ | ⟨h1, h2, h⟩ | ⟨h1, h3, h⟩ | ⟨h1, h3, h⟩ <;> rw [h]
  · -- The ray leaves `v1` and `v2` on one side, so `v3` is on the other.
    have h3 := nonpos_of_balance hw1 hw2 hw3 hpositive hbalance h1 h2
    refine ⟨hw1, by linarith, by linarith, ?_⟩
    rw [hfirst2, hfirst3]
    exact add_pos_of_nonneg_of_pos (add_nonneg hw1 (neg_nonneg.mpr h3)) h2
  · refine ⟨by linarith, by linarith, hw3, ?_⟩
    rw [hthird1, hthird2]
    exact add_pos_of_pos_of_nonneg (by linarith) hw3
  · refine ⟨by linarith, hw2, by linarith, ?_⟩
    rw [hsecond1, hsecond3]
    exact add_pos_of_pos_of_nonneg (add_pos_of_pos_of_nonneg h3 hw2) (by linarith)
  · -- Without a draw `v1` and `v3` are on one side, so `v2` is on the other.
    obtain ⟨hneg1, hneg3⟩ := hdecided h1 h3
    have h2 : -p.side v4 p.v2 ≤ 0 := by
      refine nonpos_of_balance hw1 hw3 hw2 (by linarith) ?_ (neg_pos.mpr hneg1)
        (neg_pos.mpr hneg3)
      linear_combination -hbalance
    refine ⟨hw1, by linarith, by linarith, ?_⟩
    rw [hfirst2, hfirst3]
    exact add_pos_of_pos_of_nonneg (add_pos_of_nonneg_of_pos hw1 (neg_pos.mpr hneg3))
      (neg_nonpos.mp h2)

/-! ### Discovery -/

/-- A first portal whose sides are not on the wrong side of the ray at all has the ray inside. -/
theorem Completed.aroundRay {d : DifferenceBody ℝ} {p : Portal ℝ} {direction : Vec3 ℝ}
    (h : Completed d p direction) (hw1 : 0 ≤ p.tetrahedronWeights.w1)
    (hw2 : 0 ≤ p.tetrahedronWeights.w2) : p.AroundRay := by
  have hw3 : 0 < p.tetrahedronWeights.w3 := by
    have hneg := h.turned.triple_neg
    rw [Vec3.cross_comm, Vec3.neg_dot] at hneg
    exact neg_neg_iff_pos.mp hneg
  exact ⟨hw1, hw2, hw3.le, by linarith⟩

theorem Completed.inside {d : DifferenceBody ℝ} {p : Portal ℝ} {direction : Vec3 ℝ}
    {points : Set (Vec3 ℝ)} (h : Completed d p direction) (hd : d.Within points)
    (hv0 : p.v0.v ∈ points) : p.Inside points := by
  have hreached {v : DifferencePoint ℝ} (hv : IsReached d v) : v.v ∈ points := by
    obtain ⟨u, hu, rfl⟩ := hv
    exact hd.support u hu
  exact ⟨hv0, hreached h.reached1, hreached h.reached2,
    hreached ⟨direction, h.turned.isDirection, h.last⟩⟩

/-- Weights that balance two points of a convex set at the origin show it in the set. -/
theorem origin_mem_of_balance {points : Set (Vec3 ℝ)} (hconvex : Convex ℝ points) {x y : Vec3 ℝ}
    (hx : x ∈ points) (hy : y ∈ points) {s t : ℝ} (hs : 0 ≤ s) (ht : 0 ≤ t) (hpos : 0 < s + t)
    (h : s • x + t • y = 0) : (0 : Vec3 ℝ) ∈ points := by
  have hmem := convex_iff_div.mp hconvex hx hy hs ht hpos
  rwa [div_eq_inv_mul, div_eq_inv_mul, mul_smul, mul_smul, ← smul_add, h, smul_zero] at hmem

/-- A farthest point ahead on the line of the ray leaves the origin between it and the interior
point. -/
theorem segment_balance {v0 v1 : Vec3 ℝ} (hne : v0 ≠ 0) (hline : v0.cross v1 = 0)
    (hahead : 0 < v1.dot (-v0.normalize)) :
    0 < -v0.dot v1 ∧ 0 < v0.dot v0 ∧ (-v0.dot v1) • v0 + v0.dot v0 • v1 = 0 := by
  refine ⟨?_, ?_, ?_⟩
  · rw [Vec3.normalize_eq, Vec3.dot_neg, Vec3.dot_smul, ← mul_neg, Vec3.dot_comm] at hahead
    exact pos_of_mul_pos_right hahead (inv_nonneg.mpr (norm_nonneg v0))
  · rw [Vec3.dot_self_eq]
    exact mul_pos (norm_pos_iff.mpr hne) (norm_pos_iff.mpr hne)
  · have htwice : (-v0.dot v1) • v0 + v0.dot v0 • v1 = -v0.cross (v0.cross v1) := by
      ext <;> simp [Vec3.cross, Vec3.dot_eq] <;> ring
    rw [htwice, hline]
    ext <;> simp [Vec3.cross]

/-! ### Refinement -/

/-- Refinement meets no draw when it replaces corners, and a portal that it takes to lie beyond the
origin does so. -/
noncomputable def SharplyRefined (d : DifferenceBody ℝ) (tolerance : ℝ) : ℕ → Portal ℝ → Prop
  | 0, _ => True
  | rounds + 1, p =>
    let v4 := d.support p.direction
    if p.enclosesOrigin p.direction = true then 0 ≤ p.direction.dot p.v1.v
    else p.Decided v4 ∧ SharplyRefined d tolerance rounds (p.expand v4)

theorem sharplyRefined_of_enclosing {d : DifferenceBody ℝ} {tolerance : ℝ} (rounds : ℕ)
    {p : Portal ℝ} (h : 0 < p.v1.v.dot p.outward) : SharplyRefined d tolerance (rounds + 1) p := by
  have hpos := dot_normalize_pos h
  rw [← direction_eq, Vec3.dot_comm] at hpos
  simp only [SharplyRefined, enclosesOrigin_of_pos h, if_true]
  exact hpos.le

theorem sharplyRefined_of_decided {d : DifferenceBody ℝ} {tolerance : ℝ} {rounds : ℕ}
    {p : Portal ℝ} (hnear : p.enclosesOrigin p.direction = false)
    (hdecided : p.Decided (d.support p.direction))
    (hnext : SharplyRefined d tolerance rounds (p.expand (d.support p.direction))) :
    SharplyRefined d tolerance (rounds + 1) p := by
  simp only [SharplyRefined, hnear, Bool.false_eq_true, if_false]
  exact ⟨hdecided, hnext⟩

theorem refine_sound {d : DifferenceBody ℝ} {tolerance : ℝ} {points : Set (Vec3 ℝ)}
    (hd : d.Within points) (rounds : ℕ) {p q : Portal ℝ} (hinside : p.Inside points)
    (haround : p.AroundRay) (hsharp : SharplyRefined d tolerance rounds p)
    (h : p.refine d tolerance rounds = .encloses q) :
    q.Inside points ∧ q.AroundRay ∧ 0 ≤ q.direction.dot q.v1.v := by
  induction rounds generalizing p with
  | zero => cases h
  | succ rounds ih =>
    simp only [Portal.refine] at h
    simp only [SharplyRefined] at hsharp
    split_ifs at h hsharp with hencloses hstop
    · obtain rfl := Refinement.encloses.inj h
      exact ⟨hinside, haround, hsharp⟩
    · obtain ⟨hdirection, -⟩ := direction_of_not_enclosesOrigin hencloses
      exact ih (hinside.expand (hd.support _ hdirection)) (haround.expand hsharp.1) hsharp.2 h

/-- The weight of the interior point is not negative where the portal lies beyond the origin. -/
theorem w0_nonneg {p : Portal ℝ} (h : 0 ≤ p.direction.dot p.v1.v) :
    0 ≤ p.tetrahedronWeights.w0 := by
  have htriple : p.tetrahedronWeights.w0 =
      ((p.v2.v - p.v1.v).cross (p.v3.v - p.v1.v)).dot p.v1.v := by
    simp only [tetrahedronWeights, Vec3.dot_eq, Vec3.cross, Vec3.sub_x, Vec3.sub_y, Vec3.sub_z]
    ring
  by_cases hzero : p.tetrahedronWeights.w0 = 0
  · exact hzero.ge
  · have hcyclic : p.tetrahedronWeights.w0 = (p.v2.v.cross p.v3.v).dot p.v1.v := by
      simp only [tetrahedronWeights, Vec3.dot_eq, Vec3.cross]
      ring
    obtain ⟨scale, hscale, hdot⟩ := unitNormal_dot (hcyclic ▸ hzero)
    have hproduct : 0 ≤ scale * (p.v2.v.cross p.v3.v).dot p.v1.v := hdot ▸ h
    rw [hcyclic]
    exact nonneg_of_mul_nonneg_right hproduct hscale

/-- The point at which the ray passes through the portal triangle. -/
noncomputable def crossing (p : Portal ℝ) : Vec3 ℝ :=
  Finset.univ.centerMass
    ![p.tetrahedronWeights.w1, p.tetrahedronWeights.w2, p.tetrahedronWeights.w3]
    ![p.v1.v, p.v2.v, p.v3.v]

theorem AroundRay.crossing_mem {p : Portal ℝ} (haround : p.AroundRay) {points : Set (Vec3 ℝ)}
    (hconvex : Convex ℝ points) (h1 : p.v1.v ∈ points) (h2 : p.v2.v ∈ points)
    (h3 : p.v3.v ∈ points) : p.crossing ∈ points := by
  obtain ⟨hw1, hw2, hw3, hpositive⟩ := haround
  refine hconvex.centerMass_mem ?_ ?_ ?_
  · intro i _
    fin_cases i
    exacts [hw1, hw2, hw3]
  · rw [Fin.sum_univ_three]
    exact hpositive
  · intro i _
    fin_cases i
    exacts [h1, h2, h3]

/-- The weights balance the interior point and the crossing at the origin. -/
theorem AroundRay.crossing_balance {p : Portal ℝ} (haround : p.AroundRay) :
    p.tetrahedronWeights.w0 • p.v0.v +
      (p.tetrahedronWeights.w1 + p.tetrahedronWeights.w2 + p.tetrahedronWeights.w3) • p.crossing =
        0 := by
  have hcrossing : p.crossing = (p.tetrahedronWeights.w1 + p.tetrahedronWeights.w2 +
      p.tetrahedronWeights.w3)⁻¹ • (p.tetrahedronWeights.w1 • p.v1.v +
        p.tetrahedronWeights.w2 • p.v2.v + p.tetrahedronWeights.w3 • p.v3.v) := by
    rw [crossing, Finset.centerMass, Fin.sum_univ_three, Fin.sum_univ_three]
    rfl
  rw [hcrossing, smul_inv_smul₀ haround.positive.ne', ← add_assoc, ← add_assoc]
  exact p.weights_balance

/-- A portal around the ray that lies beyond the origin shows the origin in the body. -/
theorem AroundRay.origin_mem {p : Portal ℝ} (haround : p.AroundRay) {points : Set (Vec3 ℝ)}
    (hconvex : Convex ℝ points) (hinside : p.Inside points) (h : 0 ≤ p.direction.dot p.v1.v) :
    (0 : Vec3 ℝ) ∈ points :=
  origin_mem_of_balance hconvex hinside.v0
    (haround.crossing_mem hconvex hinside.v1 hinside.v2 hinside.v3) (w0_nonneg h)
    haround.positive.le (add_pos_of_nonneg_of_pos (w0_nonneg h) haround.positive)
    haround.crossing_balance

end Portal

/-! ### The verdict -/

namespace DifferenceBody

/-- What the search took for zero was zero: an interior point moved off the origin, the way from a
farthest point to the ray, and the sides of the first portal. Refinement met no draw, and took no
portal short of the origin to lie beyond it. -/
structure Sharp (d : DifferenceBody ℝ) (config : PortalConfig ℝ) : Prop where
  center : Portal.isTinyVector d.center.v = true → d.center.v = 0
  segment : ∀ v1, Portal.discover d config.iterations = .segment v1 →
    (Portal.interiorPoint d).v.cross v1.v = 0
  portal : ∀ p, Portal.discover d config.iterations = .portal p →
    0 ≤ p.tetrahedronWeights.w1 ∧ 0 ≤ p.tetrahedronWeights.w2 ∧
      p.SharplyRefined d config.tolerance config.iterations

/-- A difference body that a sharp search finds to hold the origin holds it. -/
theorem origin_mem_of_holdsOrigin {d : DifferenceBody ℝ} {config : PortalConfig ℝ}
    {points : Set (Vec3 ℝ)} (hd : d.Within points) (hsharp : d.Sharp config)
    (h : d.holdsOrigin config = true) : (0 : Vec3 ℝ) ∈ points := by
  by_cases htiny : Portal.isTinyVector d.center.v = true
  · rw [← hsharp.center htiny]
    exact hd.center
  have hv0 : (Portal.interiorPoint d).v ∈ points := by
    simp only [Portal.interiorPoint, htiny, Bool.false_eq_true, if_false]
    exact hd.center
  simp only [holdsOrigin] at h
  split at h
  · cases h
  · cases h
  · cases h
  · rename_i v1 hsegment
    obtain ⟨rfl, hahead, -⟩ := Portal.discover_segment hsegment
    have hpos := Portal.zeroWidth_pos.trans_le ((Portal.isAhead_iff _ _).mp hahead)
    obtain ⟨hs, ht, hbalance⟩ := Portal.segment_balance (Portal.interiorPoint_ne_zero d)
      (hsharp.segment _ hsegment) hpos
    exact Portal.origin_mem_of_balance hd.convex hv0
      (hd.support _ (Portal.towards_isDirection d)) hs.le ht.le (add_pos hs ht) hbalance
  · rename_i p hportal
    obtain ⟨hw1, hw2, hrefined⟩ := hsharp.portal p hportal
    obtain ⟨hp0, direction, hcompleted⟩ := Portal.discover_portal hportal
    split at h
    · cases h
    · cases h
    · rename_i q hencloses
      obtain ⟨hinside, haround, hbeyond⟩ := Portal.refine_sound hd _
        (hcompleted.inside hd (hp0 ▸ hv0)) (hcompleted.aroundRay hw1 hw2) hrefined hencloses
      exact haround.origin_mem hd.convex hinside hbeyond

/-- The search over the turned boxes takes nothing for zero and meets no draw. -/
theorem turnedBoxes_sharp {d : DifferenceBody ℝ} (hd : d = .ofPlaced
      ⟨.part (.bare (.box ⟨27, 27, 9⟩)), ⟨⟨9, -9, 27⟩, ⟨1 / 3, 2 / 3, 2 / 3, 0⟩⟩⟩
      ⟨.part (.bare (.box ⟨27, 9, 9⟩)), .identity⟩)
    {config : PortalConfig ℝ} (hrounds : 2 ≤ config.iterations) (hnonneg : 0 ≤ config.tolerance)
    (hsmall : config.tolerance ≤ 1) : d.Sharp config := by
  obtain ⟨rounds, hrounds⟩ := Nat.exists_eq_add_of_le' hrounds
  obtain ⟨p, hp, hdiscover⟩ := discover_turnedBoxes hd (rounds + 1)
  obtain ⟨hnear, hnext, hq, -⟩ := refine_turnedBoxes hd hnonneg hsmall rounds hp
  have hdecided : p.Decided (d.support p.direction) := by
    intro hfirst
    have hside : 0 < p.side (d.support p.direction) p.v1 := by
      rw [Portal.side, hp.v0, hp.v1, hnext]
      norm_num [Vec3.dot_eq, Vec3.cross]
    exact absurd hfirst (not_le.mpr hside)
  refine ⟨fun htiny ↦ ?_, fun v1 hv1 ↦ ?_, fun other hother ↦ ?_⟩
  · exact absurd htiny (Bool.eq_false_iff.mp (turnedBoxes_large hd))
  · rw [hrounds] at hv1
    cases hdiscover.symm.trans hv1
  · rw [hrounds] at hother
    obtain rfl := Discovery.portal.inj (hdiscover.symm.trans hother)
    refine ⟨?_, ?_, ?_⟩
    · rw [Portal.tetrahedronWeights, hp.v0, hp.v2, hp.v3]
      norm_num [Vec3.dot_eq, Vec3.cross]
    · rw [Portal.tetrahedronWeights, hp.v0, hp.v1, hp.v3]
      norm_num [Vec3.dot_eq, Vec3.cross]
    · rw [hrounds]
      refine Portal.sharplyRefined_of_decided hnear hdecided
        (Portal.sharplyRefined_of_enclosing rounds ?_)
      rw [hq.outward_eq, hq.v1]
      norm_num [Vec3.dot_eq, Vec3.cross]

end DifferenceBody

namespace Placed

/-- The differences of the points of two placed shapes are a difference body of theirs. -/
theorem ofPlaced_within {a b : Shape ℝ} (ha : a.outline.Mapped) (hb : b.outline.Mapped)
    {poseA poseB : Pose ℝ} (hA : poseA.Rigid) (hB : poseB.Rigid) :
    (DifferenceBody.ofPlaced ⟨a, poseA⟩ ⟨b, poseB⟩).Within
      (a.outline.regionAt poseA - b.outline.regionAt poseB) where
  convex := (a.outline.regionAt_convex poseA).sub (b.outline.regionAt_convex poseB)
  center := Set.sub_mem_sub (Part.center_mem ha.rigid ha.valid hA)
    (Part.center_mem hb.rigid hb.valid hB)
  support _ hu := Set.sub_mem_sub (Part.supportPoint_mem ha hA hu)
    (Part.supportPoint_mem hb hB hu.neg)

/-- Two placed shapes with farthest points, a surface reaching as far as the hull of its vertices,
and any settings: when portal refinement finds them overlapping in a search that was sharp, they
have a common point. -/
theorem common_point_of_generallyOverlaps (c : PortalConfig ℝ) (a b : Shape ℝ)
    (ha : a.outline.Mapped) (hb : b.outline.Mapped) (poseA poseB : Pose ℝ) (hA : poseA.Rigid)
    (hB : poseB.Rigid)
    (hsharp : (DifferenceBody.ofPlaced (⟨a, poseA⟩ : Placed ℝ) ⟨b, poseB⟩).Sharp c)
    (h : (⟨a, poseA⟩ : Placed ℝ).generallyOverlaps ⟨b, poseB⟩ c = true) :
    (a.outline.regionAt poseA ∩ b.outline.regionAt poseB).Nonempty := by
  have horigin := DifferenceBody.origin_mem_of_holdsOrigin (ofPlaced_within ha hb hA hB) hsharp h
  obtain ⟨p, hp, q, hq, hpq⟩ := Set.mem_sub.mp horigin
  obtain rfl := sub_eq_zero.mp hpq
  exact ⟨p, hp, hq⟩

/-- Two boxes, the first one turned. The search finds a portal, and replaces one of its corners
before it lies beyond the origin. -/
theorem common_point_of_turned_boxes :
    let c : PortalConfig ℝ := .standard
    let slab : Part ℝ := .bare (.box ⟨27, 27, 9⟩)
    let bar : Part ℝ := .bare (.box ⟨27, 9, 9⟩)
    let turned : Pose ℝ := ⟨⟨9, -9, 27⟩, ⟨1 / 3, 2 / 3, 2 / 3, 0⟩⟩
    let d : DifferenceBody ℝ := .ofPlaced ⟨.part slab, turned⟩ ⟨.part bar, .identity⟩
    Primitive.boxOfHalf? ⟨27, 27, 9⟩ = .ok slab.primitive ∧
      Primitive.boxOfHalf? ⟨27, 9, 9⟩ = .ok bar.primitive ∧ slab.Mapped ∧ bar.Mapped ∧
      turned.Rigid ∧ (Pose.identity : Pose ℝ).Rigid ∧ d.Sharp c ∧
      (∃ p, Portal.discover d c.iterations = .portal p ∧
        p.refine d c.tolerance c.iterations = .encloses (p.expand (d.support p.direction))) ∧
      (⟨.part slab, turned⟩ : Placed ℝ).generallyOverlaps ⟨.part bar, .identity⟩ c = true ∧
      (slab.regionAt turned ∩ bar.regionAt Pose.identity).Nonempty := by
  intro c slab bar turned d
  have hslab : Primitive.boxOfHalf? ⟨27, 27, 9⟩ = .ok slab.primitive := by
    apply Primitive.boxOfHalf?_of_pos <;> norm_num
  have hbar : Primitive.boxOfHalf? ⟨27, 9, 9⟩ = .ok bar.primitive := by
    apply Primitive.boxOfHalf?_of_pos <;> norm_num
  have hslabMapped : slab.Mapped := ⟨trivial, Primitive.boxOfHalf?_valid hslab, by decide⟩
  have hbarMapped : bar.Mapped := ⟨trivial, Primitive.boxOfHalf?_valid hbar, by decide⟩
  have hturned : turned.Rigid := by norm_num [Pose.Rigid, Rotation.isUnit_iff, turned]
  obtain ⟨hrounds, hnonneg, hsmall⟩ :
      2 ≤ c.iterations ∧ 0 ≤ c.tolerance ∧ c.tolerance ≤ 1 := PortalConfig.standard_bounds
  have hsharp : d.Sharp c := DifferenceBody.turnedBoxes_sharp rfl hrounds hnonneg hsmall
  obtain ⟨p, hdiscover, hrefine, -⟩ :=
    DifferenceBody.search_turnedBoxes (d := d) rfl hrounds hnonneg hsmall
  have hoverlaps : (⟨.part slab, turned⟩ : Placed ℝ).generallyOverlaps ⟨.part bar, .identity⟩ c =
      true := by
    show d.holdsOrigin c = true
    simp only [DifferenceBody.holdsOrigin, hdiscover, hrefine]
  exact ⟨hslab, hbar, hslabMapped, hbarMapped, hturned, Pose.identity_rigid, hsharp,
    ⟨p, hdiscover, hrefine⟩, hoverlaps, common_point_of_generallyOverlaps c (.part slab) (.part bar)
      hslabMapped hbarMapped turned .identity hturned Pose.identity_rigid hsharp hoverlaps⟩

/-- Two boxes of a hundred thousandth in size, three such units apart along two axes at their
centres: they are found overlapping across a gap of one unit, because the square of an area that
small counts as zero. -/
theorem small_boxes_overlap_across_gap :
    let s : ℝ := 1 / 2 ^ 16
    let half : Vec3 ℝ := ⟨s, 5 * s, s⟩
    let slab : Part ℝ := .bare (.box half)
    let aside : Pose ℝ := .ofPosition ⟨-(3 * s), -(3 * s), 0⟩
    Primitive.boxOfHalf? half = .ok (.box half) ∧
      (PortalConfig.standard : PortalConfig ℝ).validate = .ok () ∧ aside.Rigid ∧
      (Pose.identity : Pose ℝ).Rigid ∧
      (⟨.part slab, aside⟩ : Placed ℝ).generallyOverlaps ⟨.part slab, Pose.identity⟩ .standard =
        true ∧
      slab.regionAt aside ∩ slab.regionAt Pose.identity = ∅ := by
  intro s half slab aside
  let d : DifferenceBody ℝ := .ofPlaced ⟨.part slab, aside⟩ ⟨.part slab, Pose.identity⟩
  have hs : 0 < s := by positivity
  have hwidth : (Portal.zeroWidth : ℝ) ≤ s := by
    rw [Portal.zeroWidth_real]
    norm_num [s]
  refine ⟨?_, ?_, Pose.identity_rigid, Pose.identity_rigid, ?_, ?_⟩
  · apply Primitive.boxOfHalf?_of_pos <;> positivity
  · simp [PortalConfig.validate, PortalConfig.standard, wordLimit, isFiniteNonnegative]
  · have hv : d.center.v = ⟨-(3 * s), -(3 * s), 0⟩ := by
      show (⟨-(3 * s), -(3 * s), 0⟩ : Vec3 ℝ) - Vec3.zero = _
      rw [Vec3.zero_eq, sub_zero]
    have hlarge : Portal.isTinyVector d.center.v = false := by
      refine Portal.isTinyVector_eq_false 0 ?_
      show Portal.zeroWidth ≤ |d.center.v.x|
      rw [hv, abs_neg, abs_of_pos (by positivity)]
      linarith
    have hcenter : (Portal.interiorPoint d).v = ⟨-(3 * s), -(3 * s), 0⟩ := by
      rw [Portal.interiorPoint_of_large hlarge, hv]
    -- The search looks along the diagonal and reaches a point off it.
    let along : Vec3 ℝ := ⟨3 * s, 3 * s, 0⟩
    have htowards : -(Portal.interiorPoint d).v.normalize = along.normalize := by
      rw [hcenter, Vec3.neg_normalize]
      congr 1
      ext <;> simp [along]
    have hsupport : (d.support along.normalize).v = ⟨-s, 7 * s, 0⟩ := by
      have hpos : 0 < 3 * s := by positivity
      have hne : along ≠ 0 := fun hzero ↦ hpos.ne' (congrArg Vec3.x hzero)
      have hcorner : Primitive.cornerTowards half along = ⟨s, 5 * s, s⟩ := by
        simp [Primitive.cornerTowards, along, half, Scalar.signum_of_nonneg, hpos.le]
      have hopposite : Primitive.cornerTowards half (-along) = ⟨-s, -(5 * s), s⟩ := by
        simp [Primitive.cornerTowards, along, half, Scalar.signum_of_nonneg, Scalar.signum_of_neg,
          hpos]
      refine (support_boxes half half aside .identity hne).trans ?_
      rw [Pose.ofPosition_inverseTransformVector, Pose.ofPosition_transformPoint,
        Pose.identity_inverseTransformVector, Pose.identity_transformPoint, hcorner, hopposite]
      ext <;> simp <;> ring
    have hfound : Portal.discover d (PortalConfig.standard : PortalConfig ℝ).iterations =
        .segment (d.support along.normalize) := by
      refine Portal.discover_eq_segment htowards ?_ ?_ ?_
      · refine Portal.IsBeyond.isAhead ⟨?_, ?_⟩
        · rw [hsupport, Vec3.dot_eq]
          nlinarith
        · rw [hsupport, Vec3.dot_eq, Vec3.dot_eq, Portal.zeroWidth_real]
          norm_num [s, along]
      · have hcross : (Portal.interiorPoint d).v.cross (d.support along.normalize).v =
            ⟨0, 0, -(24 * s ^ 2)⟩ := by
          rw [hcenter, hsupport]
          ext <;> simp [Vec3.cross]
          ring
        rw [hcross, Portal.isTiny_iff, Vec3.normSq, Vec3.dot_eq, Portal.zeroWidth_real]
        norm_num [s]
      · refine Portal.isTinyVector_eq_false 1 ?_
        show Portal.zeroWidth ≤ |(d.support along.normalize).v.y|
        rw [hsupport, abs_of_pos (by positivity)]
        linarith
    show d.holdsOrigin .standard = true
    simp only [DifferenceBody.holdsOrigin, hfound]
  · refine Set.eq_empty_iff_forall_notMem.mpr ?_
    rintro p ⟨hfirst, hsecond⟩
    have hleft := (abs_le.mp (Part.mem_regionAt_ofPosition.mp hfirst).1).2
    have hright := (abs_le.mp (Part.mem_regionAt_ofPosition.mp hsecond).1).1
    simp only [Vec3.sub_x, Vec3.zero_eq, Vec3.zero_x, half] at hleft hright
    linarith

end Placed

end Collision
