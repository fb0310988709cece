import Collision.Proofs.Scalar.Checked
import Collision.Proofs.Shape.Closest

/-!
# What the closest point of a triangle is divided by

Over a corner of a triangle `Triangle.closestPoint` answers without a division, over an edge and over
the face it divides once; `Triangle.EdgeProducts.divisor` is the divisor of the region a point lies
over. In checked arithmetic the point is found exactly if that divisor is not zero, and is then the
point found in the real numbers (`Triangle.closestPoint_checked`).

The corners lie on one line exactly if two edges have no vector product
(`Triangle.collinear_corners_iff`). If they do not, no divisor is zero and the point that is found is
the closest one (`Triangle.closestPoint_of_not_collinear`).
-/

set_option autoImplicit false
set_option relaxedAutoImplicit false

namespace Collision

open Checked (defined undefined)

namespace Vec3

/-- The vector in checked arithmetic when its components were divided by `divisor`: no component is
a number if that is zero. -/
noncomputable def checkedOver (divisor : ℝ) (v : Vec3 ℝ) : Vec3 Checked :=
  if divisor = 0 then replicate undefined else v.checked

theorem checkedOver_zero (v : Vec3 ℝ) : checkedOver 0 v = replicate undefined := if_pos rfl

theorem checkedOver_of_ne {divisor : ℝ} (h : divisor ≠ 0) (v : Vec3 ℝ) :
    checkedOver divisor v = v.checked := if_neg h

theorem checked_add_mul_div (v w : Vec3 ℝ) (x y : ℝ) :
    v.checked + w.checked * (defined x / defined y) = checkedOver y (v + w * (x / y)) := by
  rcases eq_or_ne y 0 with rfl | hy
  · rw [Checked.defined_div_zero, checkedOver_zero]
    rfl
  · rw [Checked.defined_div _ hy, checkedOver_of_ne hy, checked_mul, checked_add]

end Vec3

namespace Triangle

/-! ### The divisor -/

/-- What the coordinates that are chosen are divided by, one over a corner. -/
noncomputable def EdgeProducts.divisor (e : EdgeProducts) : ℝ :=
  if e.pb ≤ 0 ∧ e.pc ≤ 0 then 1
  else if 0 ≤ e.pb - e.bb ∧ e.pc - e.bc ≤ e.pb - e.bb then 1
  else if e.pb * (e.pc - e.bc) - (e.pb - e.bb) * e.pc ≤ 0 ∧ 0 ≤ e.pb ∧ e.pb - e.bb ≤ 0 then e.bb
  else if 0 ≤ e.pc - e.cc ∧ e.pb - e.bc ≤ e.pc - e.cc then 1
  else if (e.pb - e.bc) * e.pc - e.pb * (e.pc - e.cc) ≤ 0 ∧ 0 ≤ e.pc ∧ e.pc - e.cc ≤ 0 then e.cc
  else if (e.pb - e.bb) * (e.pc - e.cc) - (e.pb - e.bc) * (e.pc - e.bc) ≤ 0 ∧
      0 ≤ (e.pc - e.bc) - (e.pb - e.bb) ∧ 0 ≤ (e.pb - e.bc) - (e.pc - e.cc) then
    e.bb - e.bc + (e.cc - e.bc)
  else e.bb * e.cc - e.bc * e.bc

theorem EdgeProducts.Proper.divisor_ne_zero {e : EdgeProducts} (he : e.Proper) :
    e.divisor ≠ 0 := by
  unfold divisor
  split_ifs
  exacts [one_ne_zero, one_ne_zero, he.bb_pos.ne', one_ne_zero, he.cc_pos.ne', he.third_pos.ne',
    he.area_pos.ne']

/-- The point is found exactly if the divisor is not zero. -/
theorem closestPoint_checked (t : Triangle ℝ) (p : Vec3 ℝ) :
    t.checked.closestPoint p.checked =
      Vec3.checkedOver (t.edgeProducts p).divisor (t.closestPoint p) := by
  obtain ⟨⟨h1, h2⟩, ⟨h3, h4⟩, h5, h6⟩ := t.dot_sub_corner p
  simp only [closestPoint, Triangle.checked, Vec3.checked_sub, Vec3.checked_dot, h1, h2, h3, h4,
    h5, h6, Checked.zero_eq, Checked.one_eq, Checked.defined_mul, Checked.defined_sub,
    Checked.defined_add, Checked.defined_le, Scalar.zero_real, Scalar.one_real]
  generalize t.edgeProducts p = e
  unfold EdgeProducts.divisor
  split_ifs
  · rw [Vec3.checkedOver_of_ne one_ne_zero]
  · rw [Vec3.checkedOver_of_ne one_ne_zero]
  · rw [sub_sub_cancel, Vec3.checked_add_mul_div]
  · rw [Vec3.checkedOver_of_ne one_ne_zero]
  · rw [sub_sub_cancel, Vec3.checked_add_mul_div]
  · rw [e.third_eq, Vec3.checked_add_mul_div]
  · rw [e.area_eq]
    rcases eq_or_ne (e.bb * e.cc - e.bc * e.bc) 0 with harea | harea
    · rw [harea, Checked.defined_div_zero, Vec3.checkedOver_zero]
      rfl
    · simp only [Checked.defined_div _ harea, Vec3.checkedOver_of_ne harea, Checked.defined_mul,
        Vec3.checked_mul, Vec3.checked_add]

/-- If the corners do not lie on one line, the closest point of the triangle is found, and nothing
is divided by zero on the way to it. -/
theorem closestPoint_of_not_collinear (t : Triangle ℝ) (ht : ¬ Collinear ℝ {t.a, t.b, t.c})
    (p : Vec3 ℝ) : t.checked.closestPoint p.checked = (t.closestPoint p).checked ∧
      t.closestPoint p ∈ Vec3.hull t.corners ∧
      ∀ x ∈ Vec3.hull t.corners, ‖t.closestPoint p - p‖ ≤ ‖x - p‖ := by
  rw [collinear_corners_iff] at ht
  have hclosest := isClosest_closestPoint ht p
  refine ⟨?_, hclosest.1, fun x hx ↦ hclosest.norm_le hx⟩
  rw [closestPoint_checked, Vec3.checkedOver_of_ne (edgeProducts_proper ht p).divisor_ne_zero]

/-- A right triangle and a point one length above its inside. -/
theorem closestPoint_of_right_triangle :
    let t : Triangle ℝ := ⟨0, ⟨1, 0, 0⟩, ⟨0, 1, 0⟩⟩
    let p : Vec3 ℝ := ⟨1 / 4, 1 / 4, 1⟩
    ¬ Collinear ℝ {t.a, t.b, t.c} ∧ t.checked.closestPoint p.checked = (t.closestPoint p).checked ∧
      ‖t.closestPoint p - p‖ ≤ 1 := by
  intro t p
  have ht : ¬ Collinear ℝ {t.a, t.b, t.c} := by
    rw [collinear_corners_iff]
    intro hcross
    have hz := congrArg Vec3.z hcross
    norm_num [Vec3.cross, t] at hz
  obtain ⟨hdefined, -, hleast⟩ := closestPoint_of_not_collinear t ht p
  refine ⟨ht, hdefined, ?_⟩
  have hbelow : (⟨1 / 4, 1 / 4, 0⟩ : Vec3 ℝ) ∈ Vec3.hull t.corners := by
    refine mem_hull_corners.mpr ⟨1 / 4, 1 / 4, by norm_num, by norm_num, by norm_num, ?_⟩
    ext <;> norm_num [pointAt, t]
  refine (hleast _ hbelow).trans_eq (Vec3.IsDirection.norm_eq ?_)
  norm_num [Vec3.IsDirection, Vec3.dot_eq, p]

/-! ### Triangles without area -/

namespace EdgeProducts

/-- The second edge is a multiple of the first one, which is not zero. -/
structure Flat (e : EdgeProducts) (ratio : ℝ) : Prop where
  bb_pos : 0 < e.bb
  bc_eq : e.bc = ratio * e.bb
  cc_eq : e.cc = ratio * e.bc
  pc_eq : e.pc = ratio * e.pb

variable {e : EdgeProducts} {ratio : ℝ}

/-- The sides of the edges are not told apart. -/
theorem Flat.side_eq_zero (h : e.Flat ratio) :
    e.pb * (e.pc - e.bc) - (e.pb - e.bb) * e.pc = 0 ∧
      (e.pb - e.bc) * e.pc - e.pb * (e.pc - e.cc) = 0 := by
  rw [h.pc_eq, h.cc_eq, h.bc_eq]
  constructor <;> ring

/-- Behind the ends of the first edge the second one sticks out. -/
theorem Flat.outside (h : e.Flat ratio) (hcornerA : ¬ (e.pb ≤ 0 ∧ e.pc ≤ 0))
    (hcornerB : ¬ (0 ≤ e.pb - e.bb ∧ e.pc - e.bc ≤ e.pb - e.bb))
    (hedgeAB : ¬ (0 ≤ e.pb ∧ e.pb - e.bb ≤ 0)) :
    0 < e.pc ∧ (ratio < 0 ∨ 1 < ratio) := by
  rw [h.bc_eq, h.pc_eq, ← mul_sub] at hcornerB
  rw [h.pc_eq] at hcornerA ⊢
  rcases lt_or_ge e.pb 0 with hbefore | hnonneg
  · have hpos : 0 < ratio * e.pb := not_le.mp fun hle ↦ hcornerA ⟨hbefore.le, hle⟩
    exact ⟨hpos, .inl (neg_of_mul_pos_left hpos hbefore.le)⟩
  · have hafter : 0 < e.pb - e.bb := not_le.mp fun hle ↦ hedgeAB ⟨hnonneg, hle⟩
    have hfar : e.pb - e.bb < ratio * (e.pb - e.bb) := not_le.mp fun hle ↦
      hcornerB ⟨hafter.le, hle⟩
    have hratio : 1 < ratio := (lt_mul_iff_one_lt_left hafter).mp hfar
    exact ⟨mul_pos (by linarith) (by linarith [h.bb_pos]), .inr hratio⟩

theorem Flat.cc_pos (h : e.Flat ratio) (hratio : ratio < 0 ∨ 1 < ratio) : 0 < e.cc := by
  have hne : ratio ≠ 0 := by rcases hratio with h | h <;> linarith
  rw [h.cc_eq, h.bc_eq, ← mul_assoc]
  exact mul_pos (mul_self_pos.mpr hne) h.bb_pos

/-- The regions of the corners and of two edges leave nothing of the line out. -/
theorem Flat.not_outside_all (h : e.Flat ratio) (hpos : 0 < e.pc) (hratio : ratio < 0 ∨ 1 < ratio)
    (hcornerC : ¬ (0 ≤ e.pc - e.cc ∧ e.pb - e.bc ≤ e.pc - e.cc))
    (hedgeAC : ¬ (0 ≤ e.pc ∧ e.pc - e.cc ≤ 0)) : False := by
  have hbeyond : 0 < e.pc - e.cc := not_le.mp fun hle ↦ hedgeAC ⟨hpos.le, hle⟩
  refine hcornerC ⟨hbeyond.le, ?_⟩
  have hrest : e.pc - e.cc = ratio * (e.pb - e.bc) := by
    rw [h.pc_eq, h.cc_eq, mul_sub]
  rw [hrest] at hbeyond ⊢
  rcases hratio with hratio | hratio
  · linarith [neg_of_mul_pos_right hbeyond hratio.le]
  · have hpos : 0 < e.pb - e.bc :=
      (mul_pos_iff_of_pos_left (by linarith)).mp hbeyond
    exact le_mul_of_one_le_left hpos.le hratio.le

/-- On a triangle without area whose first two corners are apart, the coordinates that are chosen
are those of the closest point, and nothing is divided by zero. -/
theorem Flat.chosen_optimal (h : e.Flat ratio) :
    e.Optimal e.chosen.1 e.chosen.2 ∧ e.divisor ≠ 0 := by
  obtain ⟨hsideAB, hsideAC⟩ := h.side_eq_zero
  unfold chosen divisor
  rw [hsideAB, hsideAC]
  simp only [le_refl, true_and]
  split_ifs with hcornerA hcornerB hedgeAB hcornerC hedgeAC hedgeBC
  · exact ⟨optimal_cornerA hcornerA.1 hcornerA.2, one_ne_zero⟩
  · exact ⟨optimal_cornerB hcornerB.1 hcornerB.2, one_ne_zero⟩
  · exact ⟨optimal_edgeAB h.bb_pos hsideAB.le hedgeAB.1 hedgeAB.2, h.bb_pos.ne'⟩
  · exact ⟨optimal_cornerC hcornerC.1 hcornerC.2, one_ne_zero⟩
  · have hcc := h.cc_pos (h.outside hcornerA hcornerB hedgeAB).2
    exact ⟨optimal_edgeAC hcc hsideAC.le hedgeAC.1 hedgeAC.2, hcc.ne'⟩
  all_goals
    obtain ⟨hpos, hratio⟩ := h.outside hcornerA hcornerB hedgeAB
    exact (h.not_outside_all hpos hratio hcornerC hedgeAC).elim

end EdgeProducts

/-- Where the first two corners coincide, the first edge measures nothing. -/
theorem edgeProducts_of_same {t : Triangle ℝ} (hab : t.a = t.b) (p : Vec3 ℝ) :
    (t.edgeProducts p).bb = 0 ∧ (t.edgeProducts p).bc = 0 ∧ (t.edgeProducts p).pb = 0 := by
  simp only [edgeProducts, hab, sub_self, Vec3.zero_dot, and_self]

theorem edgeProducts_flat {t : Triangle ℝ} (ht : Collinear ℝ {t.a, t.b, t.c}) (hab : t.a ≠ t.b)
    (p : Vec3 ℝ) : ∃ ratio, (t.edgeProducts p).Flat ratio := by
  have hedge : t.b - t.a ≠ 0 := sub_ne_zero.mpr hab.symm
  obtain ⟨ratio, hratio⟩ := Vec3.exists_multiple_of_cross hedge (t.collinear_corners_iff.mp ht)
  refine ⟨ratio, ?_, ?_, ?_, ?_⟩
  · exact (Vec3.dot_self_nonneg _).lt_of_ne fun h ↦ hedge (Vec3.eq_zero_of_dot_self h.symm)
  · simp only [edgeProducts, hratio, Vec3.dot_smul]
  · simp only [edgeProducts, hratio, Vec3.smul_dot]
  · simp only [edgeProducts, hratio, Vec3.smul_dot]

/-- The corners lie on one line. If the first two of them are apart, or the third one does not lead
from them towards the point, the closest point is found, and nothing is divided by zero on the way
to it. Otherwise no point is found. -/
theorem closestPoint_of_collinear {t : Triangle ℝ} (ht : Collinear ℝ {t.a, t.b, t.c})
    (p : Vec3 ℝ) :
    (t.a ≠ t.b ∨ (t.c - t.a).dot (p - t.a) ≤ 0 →
      IsClosest (Vec3.hull t.corners) p (t.closestPoint p) ∧
        t.checked.closestPoint p.checked = (t.closestPoint p).checked) ∧
      (t.a = t.b → 0 < (t.c - t.a).dot (p - t.a) →
        t.checked.closestPoint p.checked = Vec3.replicate undefined) := by
  rw [closestPoint_checked]
  constructor
  · intro hside
    suffices hfound : (t.edgeProducts p).Optimal (t.edgeProducts p).chosen.1
        (t.edgeProducts p).chosen.2 ∧ (t.edgeProducts p).divisor ≠ 0 by
      obtain ⟨hoptimal, hdivisor⟩ := hfound
      rw [closestPoint_eq, Vec3.checkedOver_of_ne hdivisor]
      exact ⟨(isClosest_pointAt_iff hoptimal.nonneg_y hoptimal.nonneg_z hoptimal.sum_le_one).mpr
        hoptimal, rfl⟩
    by_cases hab : t.a = t.b
    · have hcornerA : (t.edgeProducts p).pb ≤ 0 ∧ (t.edgeProducts p).pc ≤ 0 :=
        ⟨(edgeProducts_of_same hab p).2.2.le, hside.resolve_left (not_not_intro hab)⟩
      unfold EdgeProducts.chosen EdgeProducts.divisor
      rw [if_pos hcornerA, if_pos hcornerA]
      exact ⟨EdgeProducts.optimal_cornerA hcornerA.1 hcornerA.2, one_ne_zero⟩
    · obtain ⟨ratio, hflat⟩ := edgeProducts_flat ht hab p
      exact hflat.chosen_optimal
  · intro hab hside
    obtain ⟨hbb, hbc, hpb⟩ := edgeProducts_of_same hab p
    have hpc : 0 < (t.edgeProducts p).pc := hside
    have hdivisor : (t.edgeProducts p).divisor = 0 := by
      unfold EdgeProducts.divisor
      rw [if_neg (by simp [hpc]), if_neg (by simp [hbb, hbc, hpb, hpc]),
        if_pos (by simp [hbb, hpb]), hbb]
    rw [hdivisor, Vec3.checkedOver_zero]

end Triangle

end Collision
