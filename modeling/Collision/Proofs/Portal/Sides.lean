import Collision.Proofs.Portal.Soundness

/-!
# The sides of a portal about its ray

The ray from the interior point of a portal through the origin passes strictly inside the portal
triangle if it has all three edges on the same side (`Portal.Surrounds`): the determinants of the
interior point with two corners in turn (`Portal.sides`) are all negative. They are the weights of
the corners, with the other sign (`Portal.surrounds_iff_weights`).

A new point replaces one corner, which is found by comparing two sides of the new point at most. What
the third one is follows from the balance of the weights, so that whatever the new point is no
determinant becomes positive (`Portal.Surrounds.sides_expand_nonpos`). One becomes zero only if the
new point is in a plane through the ray and a corner; as long as refinement meets no such point the
ray stays strictly inside (`Portal.Surrounds.refine`).
-/

set_option autoImplicit false
set_option relaxedAutoImplicit false

namespace Collision

namespace Portal

variable {p : Portal ℝ} {v4 : DifferencePoint ℝ}

/-! ### Corners -/

/-- The corner of a number. -/
def corner (p : Portal ℝ) : Fin 3 → DifferencePoint ℝ
  | 0 => p.v1
  | 1 => p.v2
  | 2 => p.v3

/-- The portal with the corner of a number replaced. -/
def replaced (p : Portal ℝ) (v4 : DifferencePoint ℝ) : Fin 3 → Portal ℝ
  | 0 => { p with v1 := v4 }
  | 1 => { p with v2 := v4 }
  | 2 => { p with v3 := v4 }

theorem corner_replaced (p : Portal ℝ) (v4 : DifferencePoint ℝ) (slot i : Fin 3) :
    (p.replaced v4 slot).corner i = if i = slot then v4 else p.corner i := by
  fin_cases slot <;> fin_cases i <;> rfl

theorem exists_expand_eq_replaced (p : Portal ℝ) (v4 : DifferencePoint ℝ) :
    ∃ slot, p.expand v4 = p.replaced v4 slot := by
  rcases p.expand_cases v4 with ⟨-, -, h⟩ | ⟨-, -, h⟩ | ⟨-, -, h⟩ | ⟨-, -, h⟩
  · exact ⟨0, h⟩
  · exact ⟨2, h⟩
  · exact ⟨1, h⟩
  · exact ⟨0, h⟩

/-! ### Sides -/

/-- The determinants of the interior point with two corners in turn. -/
noncomputable def sides (p : Portal ℝ) : Fin 3 → ℝ
  | 0 => (p.v1.v.cross p.v2.v).dot p.v0.v
  | 1 => (p.v2.v.cross p.v3.v).dot p.v0.v
  | 2 => (p.v3.v.cross p.v1.v).dot p.v0.v

/-- The ray from the interior point through the origin passes strictly inside the portal triangle. -/
def Surrounds (p : Portal ℝ) : Prop := ∀ i, p.sides i < 0

/-- The determinants are the weights of the corners, with the other sign. -/
theorem sides_eq_neg_weights (p : Portal ℝ) :
    p.sides 0 = -p.tetrahedronWeights.w3 ∧ p.sides 1 = -p.tetrahedronWeights.w1 ∧
      p.sides 2 = -p.tetrahedronWeights.w2 := by
  refine ⟨?_, ?_, ?_⟩ <;>
    · simp only [sides, tetrahedronWeights, Vec3.dot_eq, Vec3.cross]
      ring

theorem surrounds_iff_weights : p.Surrounds ↔ 0 < p.tetrahedronWeights.w1 ∧
    0 < p.tetrahedronWeights.w2 ∧ 0 < p.tetrahedronWeights.w3 := by
  obtain ⟨h0, h1, h2⟩ := p.sides_eq_neg_weights
  rw [Surrounds, Fin.forall_fin_succ, Fin.forall_fin_two]
  show p.sides 0 < 0 ∧ p.sides 1 < 0 ∧ p.sides 2 < 0 ↔ _
  rw [h0, h1, h2, neg_lt_zero, neg_lt_zero, neg_lt_zero]
  tauto

theorem sides_nonpos_iff_weights : (∀ i, p.sides i ≤ 0) ↔ 0 ≤ p.tetrahedronWeights.w1 ∧
    0 ≤ p.tetrahedronWeights.w2 ∧ 0 ≤ p.tetrahedronWeights.w3 := by
  obtain ⟨h0, h1, h2⟩ := p.sides_eq_neg_weights
  rw [Fin.forall_fin_succ, Fin.forall_fin_two]
  show p.sides 0 ≤ 0 ∧ p.sides 1 ≤ 0 ∧ p.sides 2 ≤ 0 ↔ _
  rw [h0, h1, h2, neg_nonpos, neg_nonpos, neg_nonpos]
  tauto

/-- A replaced corner changes the two sides it belongs to. -/
theorem sides_replaced (p : Portal ℝ) (v4 : DifferencePoint ℝ) (slot i : Fin 3) :
    (p.replaced v4 slot).sides i = if slot = i then -p.side v4 (p.corner (i + 1))
      else if slot = i + 1 then p.side v4 (p.corner i) else p.sides i := by
  fin_cases slot <;> fin_cases i <;>
    simp [replaced, sides, side, corner, Vec3.dot_eq, Vec3.cross] <;> ring

/-- The corners of a portal with the ray strictly inside are different. -/
theorem Surrounds.corner_injective (hp : p.Surrounds) : Function.Injective p.corner := by
  have hself (v w : DifferencePoint ℝ) (h : v = w) : (v.v.cross w.v).dot p.v0.v = 0 := by
    subst h
    simp only [Vec3.dot_eq, Vec3.cross]
    ring
  have h01 : p.v1 ≠ p.v2 := fun h ↦ (hp 0).ne (hself _ _ h)
  have h12 : p.v2 ≠ p.v3 := fun h ↦ (hp 1).ne (hself _ _ h)
  have h20 : p.v3 ≠ p.v1 := fun h ↦ (hp 2).ne (hself _ _ h)
  intro i j hij
  fin_cases i <;> fin_cases j
  · rfl
  · exact absurd hij h01
  · exact absurd hij.symm h20
  · exact absurd hij.symm h01
  · rfl
  · exact absurd hij h12
  · exact absurd hij h20
  · exact absurd hij.symm h12
  · rfl

/-- Two corners cannot both be the one that was replaced. -/
theorem Surrounds.replaced_injective (hp : p.Surrounds) (v4 : DifferencePoint ℝ) :
    Function.Injective (p.replaced v4) := by
  intro i j hij
  by_contra hne
  have hi := congrArg (corner · i) hij
  have hj := congrArg (corner · j) hij
  simp only [corner_replaced, if_true, if_neg hne, if_neg (Ne.symm hne)] at hi hj
  exact hne (hp.corner_injective (hi.symm.trans hj.symm))

/-! ### Replacing a corner -/

/-- Between positive weights, numbers that balance cannot all be of one sign. -/
theorem nonneg_of_balance {w1 w2 w3 s1 s2 s3 : ℝ} (hw1 : 0 < w1) (hw2 : 0 < w2) (hw3 : 0 < w3)
    (h : w1 * s1 + w2 * s2 + w3 * s3 = 0) (h1 : s1 ≤ 0) (h2 : s2 ≤ 0) : 0 ≤ s3 := by
  have hs1 := mul_nonpos_of_nonneg_of_nonpos hw1.le h1
  have hs2 := mul_nonpos_of_nonneg_of_nonpos hw2.le h2
  exact nonneg_of_mul_nonneg_right (by linarith) hw3

/-- However the new point lies, no side is on the wrong side of the ray after it has replaced a
corner. -/
theorem Surrounds.sides_expand_nonpos (hp : p.Surrounds) (v4 : DifferencePoint ℝ) (i : Fin 3) :
    (p.expand v4).sides i ≤ 0 := by
  obtain ⟨hw1, hw2, hw3⟩ := surrounds_iff_weights.mp hp
  have hbalance := p.sides_balance v4
  obtain ⟨⟨hfirst2, hfirst3⟩, ⟨hsecond1, hsecond3⟩, hthird1, hthird2⟩ := p.weights_replace v4
  refine sides_nonpos_iff_weights.mpr ?_ i
  rcases p.expand_cases v4 with ⟨h1, h2, h⟩ | ⟨h1, h2, h⟩ | ⟨h1, h3, h⟩ | ⟨h1, h3, h⟩ <;> rw [h]
  · -- The new point has `v1` and `v2` on one side, so it has `v3` on the other.
    have h3 : 0 ≤ -p.side v4 p.v3 := by
      refine nonneg_of_balance hw1 hw2 hw3 ?_ (neg_nonpos.mpr h1.le) (neg_nonpos.mpr h2.le)
      linear_combination -hbalance
    exact ⟨hw1.le, hfirst2.ge.trans' h3, hfirst3.ge.trans' h2.le⟩
  · exact ⟨hthird1.ge.trans' (neg_nonneg.mpr h2), hthird2.ge.trans' h1.le, hw3.le⟩
  · exact ⟨hsecond1.ge.trans' h3.le, hw2.le, hsecond3.ge.trans' (neg_nonneg.mpr h1)⟩
  · -- The new point has `v1` and `v3` on one side, so it has `v2` on the other.
    have h2 : 0 ≤ p.side v4 p.v2 := by
      refine nonneg_of_balance hw1 hw3 hw2 ?_ h1 h3
      linear_combination hbalance
    exact ⟨hw1.le, hfirst2.ge.trans' (neg_nonneg.mpr h3), hfirst3.ge.trans' h2⟩

/-- The new point is in no plane through the ray and a corner. -/
def Clear (p : Portal ℝ) (v4 : DifferencePoint ℝ) : Prop := ∀ i, p.side v4 (p.corner i) ≠ 0

/-- A clear point leaves the ray strictly inside. -/
theorem Surrounds.expand (hp : p.Surrounds) (hclear : p.Clear v4) : (p.expand v4).Surrounds := by
  intro i
  refine lt_of_le_of_ne (hp.sides_expand_nonpos v4 i) ?_
  obtain ⟨slot, hslot⟩ := p.exists_expand_eq_replaced v4
  rw [hslot, sides_replaced]
  split_ifs
  · exact neg_ne_zero.mpr (hclear _)
  · exact hclear i
  · exact (hp i).ne

/-- The points that replace corners in a refinement are clear. -/
def ClearlyRefined (d : DifferenceBody ℝ) : ℕ → Portal ℝ → Prop
  | 0, _ => True
  | rounds + 1, p =>
    p.enclosesOrigin p.direction = true ∨
      p.Clear (d.support p.direction) ∧ ClearlyRefined d rounds (p.expand (d.support p.direction))

/-- Refinement by clear points ends with the ray strictly inside the portal triangle. -/
theorem Surrounds.refine {d : DifferenceBody ℝ} {tolerance : ℝ} (rounds : ℕ) {q : Portal ℝ}
    (hp : p.Surrounds) (hclear : ClearlyRefined d rounds p)
    (h : p.refine d tolerance rounds = .encloses q) : q.Surrounds := by
  induction rounds generalizing p with
  | zero => cases h
  | succ rounds ih =>
    simp only [Portal.refine] at h
    split_ifs at h with hencloses hstop
    · obtain rfl := Refinement.encloses.inj h
      exact hp
    · obtain ⟨hpoint, hrest⟩ := hclear.resolve_left hencloses
      exact ih (hp.expand hpoint) hrest h

/-- A portal whose three determinants of the interior point with two corners in turn are negative.
Whatever point is added, none of them becomes positive; the interior point stays, and exactly one
corner is replaced by the new point. -/
theorem expand_keeps_sides (p : Portal ℝ) (h12 : (p.v1.v.cross p.v2.v).dot p.v0.v < 0)
    (h23 : (p.v2.v.cross p.v3.v).dot p.v0.v < 0) (h31 : (p.v3.v.cross p.v1.v).dot p.v0.v < 0)
    (v4 : DifferencePoint ℝ) :
    let q := p.expand v4
    (q.v1.v.cross q.v2.v).dot q.v0.v ≤ 0 ∧ (q.v2.v.cross q.v3.v).dot q.v0.v ≤ 0 ∧
      (q.v3.v.cross q.v1.v).dot q.v0.v ≤ 0 ∧ q.v0 = p.v0 ∧ ∃! slot, q = p.replaced v4 slot := by
  intro q
  have hp : p.Surrounds := by
    intro i
    fin_cases i
    · exact h12
    · exact h23
    · exact h31
  obtain ⟨slot, hslot⟩ := p.exists_expand_eq_replaced v4
  refine ⟨hp.sides_expand_nonpos v4 0, hp.sides_expand_nonpos v4 1, hp.sides_expand_nonpos v4 2,
    p.expand_v0 v4, slot, hslot, fun other hother ↦ ?_⟩
  exact hp.replaced_injective v4 (hother.symm.trans hslot)

/-- A portal about the ray upwards, and a new point in the plane of the ray and the first corner: the
second corner is replaced, and the first determinant is zero then. -/
theorem expand_keeps_sides_of_draw :
    let point (v : Vec3 ℝ) : DifferencePoint ℝ := .ofPoints v 0
    let p : Portal ℝ := ⟨point ⟨0, 0, -1⟩, point ⟨1, 0, 1⟩, point ⟨-1, 1, 1⟩, point ⟨-1, -1, 1⟩⟩
    let v4 := point ⟨-1, 0, 2⟩
    let q := p.expand v4
    (p.v1.v.cross p.v2.v).dot p.v0.v < 0 ∧ (p.v2.v.cross p.v3.v).dot p.v0.v < 0 ∧
      (p.v3.v.cross p.v1.v).dot p.v0.v < 0 ∧ (q.v2.v.cross q.v3.v).dot q.v0.v ≤ 0 ∧
      (∃! slot, q = p.replaced v4 slot) ∧ q = p.replaced v4 1 ∧
      (q.v1.v.cross q.v2.v).dot q.v0.v = 0 := by
  intro point p v4 q
  have h12 : (p.v1.v.cross p.v2.v).dot p.v0.v < 0 := by
    norm_num [p, point, DifferencePoint.ofPoints, Vec3.cross, Vec3.dot_eq]
  have h23 : (p.v2.v.cross p.v3.v).dot p.v0.v < 0 := by
    norm_num [p, point, DifferencePoint.ofPoints, Vec3.cross, Vec3.dot_eq]
  have h31 : (p.v3.v.cross p.v1.v).dot p.v0.v < 0 := by
    norm_num [p, point, DifferencePoint.ofPoints, Vec3.cross, Vec3.dot_eq]
  obtain ⟨-, hside, -, -, hslot⟩ := expand_keeps_sides p h12 h23 h31 v4
  have hq : q = p.replaced v4 1 := by
    have h1 : ¬ 0 < p.side v4 p.v1 := by
      norm_num [side, v4, p, point, DifferencePoint.ofPoints, Vec3.cross, Vec3.dot_eq]
    have h3 : 0 < p.side v4 p.v3 := by
      norm_num [side, v4, p, point, DifferencePoint.ofPoints, Vec3.cross, Vec3.dot_eq]
    rcases p.expand_cases v4 with ⟨h, -⟩ | ⟨h, -⟩ | ⟨-, -, h⟩ | ⟨-, h, -⟩
    · exact absurd h h1
    · exact absurd h h1
    · exact h
    · exact absurd h3 (not_lt.mpr h)
  refine ⟨h12, h23, h31, hside, hslot, hq, ?_⟩
  rw [hq]
  norm_num [replaced, v4, p, point, DifferencePoint.ofPoints, Vec3.cross, Vec3.dot_eq]

end Portal

end Collision
