import Collision.Proofs.Portal.Separation

/-!
# Portal triangles

The corners of a portal triangle never come to lie on one line (`Portal.Proper`), so a portal always
has a normal of length one.

* The search for a first portal turns a triangle with the interior point about the ray
  (`Portal.Turned`), and the corner that completes the portal lies beyond the plane of that triangle
  (`Portal.discover_portal`, `Portal.Completed.proper`).
* Refinement and the push to the boundary replace a corner by a point beyond the plane of the portal
  triangle (`Portal.Proper.expand`), as long as the tolerance is not negative
  (`Portal.Proper.expand_of_not_reachesTolerance`). What each replacement keeps is kept by both
  searches (`Portal.refine_induction`, `Portal.pushOut_induction`).
-/

set_option autoImplicit false
set_option relaxedAutoImplicit false

namespace Collision

namespace Portal

/-! ### Triangles with a normal -/

/-- Two corners at one height with a third corner above do not lie on one line. -/
theorem cross_ne_zero_of_beyond {a b c n : Vec3 ℝ} (hab : a ≠ b) (hlevel : b.dot n = a.dot n)
    (hbeyond : a.dot n < c.dot n) : (b - a).cross (c - a) ≠ 0 := by
  intro hzero
  have hflat : (b - a).dot n = 0 := by rw [Vec3.sub_dot, hlevel, sub_self]
  have hthird := Vec3.dot_eq_zero_of_cross_eq_zero hzero (sub_ne_zero.mpr hab.symm) hflat
  rw [Vec3.sub_dot] at hthird
  linarith

/-- The area vector of a triangle does not see which corner comes first. -/
theorem cross_cyclic (a b c : Vec3 ℝ) : (b - a).cross (c - a) = (c - b).cross (a - b) := by
  ext <;> simp [Vec3.cross] <;> ring

/-- The corners of the portal triangle do not lie on one line. -/
def Proper (p : Portal ℝ) : Prop := (p.v2.v - p.v1.v).cross (p.v3.v - p.v1.v) ≠ 0

namespace Proper

variable {p : Portal ℝ}

theorem direction_isDirection (hp : p.Proper) : p.direction.IsDirection := unitNormal_isDirection hp

theorem ne12 (hp : p.Proper) : p.v1.v ≠ p.v2.v := by
  intro heq
  refine hp ?_
  ext <;> simp [heq, Vec3.cross]

theorem ne23 (hp : p.Proper) : p.v2.v ≠ p.v3.v := by
  intro heq
  refine hp ?_
  rw [cross_cyclic]
  ext <;> simp [heq, Vec3.cross]

theorem ne31 (hp : p.Proper) : p.v3.v ≠ p.v1.v := by
  intro heq
  refine hp ?_
  ext <;> simp [heq, Vec3.cross]

/-- A portal triangle with a corner replaced by a point beyond its plane has a normal again. -/
theorem expand (hp : p.Proper) {v4 : DifferencePoint ℝ}
    (hbeyond : p.v1.v.dot p.direction < v4.v.dot p.direction) : (p.expand v4).Proper := by
  obtain ⟨hsecond, hthird⟩ := p.corners_level
  -- The two corners that stay are level; only the one that is replaced differs.
  have hfirst : ({ p with v1 := v4 } : Portal ℝ).Proper := by
    unfold Proper
    rw [cross_cyclic]
    exact cross_ne_zero_of_beyond hp.ne23 (hthird.trans hsecond.symm) (hsecond ▸ hbeyond)
  simp only [Portal.expand]
  split_ifs
  · exact hfirst
  · exact cross_ne_zero_of_beyond hp.ne12 hsecond hbeyond
  · unfold Proper
    rw [cross_cyclic, cross_cyclic]
    exact cross_ne_zero_of_beyond hp.ne31 hthird.symm (hthird ▸ hbeyond)
  · exact hfirst

end Proper

/-! ### Discovery -/

/-- The triangle `v0 v1 v2` that is turned about the ray: the ray leaves `v1` and `v2` on the sides
it should, and the direction of the search is the unit normal that looks away from the interior
point. -/
structure Turned (v0 v1 v2 direction : Vec3 ℝ) : Prop where
  triple_neg : (v1.cross v2).dot v0 < 0
  isDirection : direction.IsDirection
  level1 : v1.dot direction = v0.dot direction
  level2 : v2.dot direction = v0.dot direction
  behind : v0.dot direction < 0

/-- The normal of a triangle measures a corner by the triple product. -/
theorem unitNormal_dot {a b c : Vec3 ℝ} (h : (b.cross c).dot a ≠ 0) :
    ∃ scale : ℝ, 0 < scale ∧ (unitNormal a b c).dot a = scale * (b.cross c).dot a := by
  have htriple : (b.cross c).dot a = ((b - a).cross (c - a)).dot a := by
    simp only [Vec3.dot_eq, Vec3.cross, Vec3.sub_x, Vec3.sub_y, Vec3.sub_z]
    ring
  have hne : (b - a).cross (c - a) ≠ 0 := fun hzero ↦ h (by rw [htriple, hzero, Vec3.zero_dot])
  refine ⟨‖(b - a).cross (c - a)‖⁻¹, inv_pos.mpr (norm_pos_iff.mpr hne), ?_⟩
  rw [htriple, unitNormal_eq, Vec3.smul_dot]

theorem turned_of_triple_neg {v0 v1 v2 : Vec3 ℝ} (h : (v1.cross v2).dot v0 < 0) :
    Turned v0 v1 v2 (unitNormal v0 v1 v2) := by
  obtain ⟨-, hsecond, hthird⟩ := unitNormal_spec v0 v1 v2
  obtain ⟨scale, hscale, hdot⟩ := unitNormal_dot h.ne
  refine ⟨h, unitNormal_isDirection_of_triple h.ne, hsecond, hthird, ?_⟩
  rw [Vec3.dot_comm, hdot]
  exact mul_neg_of_pos_of_neg hscale h

/-- Exchanging the corners turns the normal around. -/
theorem turned_of_triple_pos {v0 v1 v2 : Vec3 ℝ} (h : 0 < (v1.cross v2).dot v0) :
    Turned v0 v2 v1 (-unitNormal v0 v1 v2) := by
  obtain ⟨-, hsecond, hthird⟩ := unitNormal_spec v0 v1 v2
  obtain ⟨scale, hscale, hdot⟩ := unitNormal_dot h.ne'
  have hswap : (v2.cross v1).dot v0 = -(v1.cross v2).dot v0 := by
    rw [Vec3.cross_comm, Vec3.neg_dot]
  refine ⟨by linarith, (unitNormal_isDirection_of_triple h.ne').neg, ?_, ?_, ?_⟩
  · rw [Vec3.dot_neg, Vec3.dot_neg, hthird]
  · rw [Vec3.dot_neg, Vec3.dot_neg, hsecond]
  · rw [Vec3.dot_neg, Vec3.dot_comm, hdot]
    exact neg_neg_of_pos (mul_pos hscale h)

/-- The point is farthest along some unit vector. -/
def IsReached (d : DifferenceBody ℝ) (v : DifferencePoint ℝ) : Prop :=
  ∃ u : Vec3 ℝ, u.IsDirection ∧ v = d.support u

/-- What is known of a first portal: its corners are farthest points, the last one along the
direction in which the triangle of the others was turned, ahead of the origin, and the sides at that
corner were not seen to be on the wrong side of the ray. -/
structure Completed (d : DifferenceBody ℝ) (p : Portal ℝ) (direction : Vec3 ℝ) : Prop where
  reached1 : IsReached d p.v1
  reached2 : IsReached d p.v2
  turned : Turned p.v0.v p.v1.v p.v2.v direction
  last : p.v3 = d.support direction
  ahead : isAhead p.v3 direction = true
  side13 : isClearlyNegative ((p.v1.v.cross p.v3.v).dot p.v0.v) = false
  side32 : isClearlyNegative ((p.v3.v.cross p.v2.v).dot p.v0.v) = false

theorem isClearlyNegative_neg {value : ℝ} (h : isClearlyNegative value = true) : value < 0 := by
  simp only [isClearlyNegative, Scalar.zero_real, Bool.and_eq_true, decide_eq_true_eq] at h
  exact h.1

theorem turnToRay_portal {d : DifferenceBody ℝ} {v0 : DifferencePoint ℝ} {p : Portal ℝ} (rounds : ℕ)
    (v1 v2 : DifferencePoint ℝ) (direction : Vec3 ℝ) (hv1 : IsReached d v1) (hv2 : IsReached d v2)
    (hturned : Turned v0.v v1.v v2.v direction)
    (h : turnToRay d v0 rounds v1 v2 direction = .portal p) :
    p.v0 = v0 ∧ ∃ direction, Completed d p direction := by
  induction rounds generalizing v1 v2 direction with
  | zero => cases h
  | succ rounds ih =>
    simp only [turnToRay] at h
    have hv3 : IsReached d (d.support direction) := ⟨direction, hturned.isDirection, rfl⟩
    split_ifs at h with hahead hfirst hsecond
    · exact ih _ _ _ hv1 hv3 (turned_of_triple_neg (isClearlyNegative_neg hfirst)) h
    · exact ih _ _ _ hv3 hv2 (turned_of_triple_neg (isClearlyNegative_neg hsecond)) h
    · obtain rfl := Discovery.portal.inj h
      exact ⟨rfl, direction, hv1, hv2, hturned, rfl, by simpa using hahead, by simpa using hfirst,
        by simpa using hsecond⟩

theorem startTurning_portal {d : DifferenceBody ℝ} {rounds : ℕ} {v0 v1 v2 : DifferencePoint ℝ}
    {p : Portal ℝ} (hv1 : IsReached d v1) (hv2 : IsReached d v2)
    (htriple : (v1.v.cross v2.v).dot v0.v ≠ 0)
    (h : startTurning d rounds v0 v1 v2 = .portal p) :
    p.v0 = v0 ∧ ∃ direction, Completed d p direction := by
  obtain ⟨scale, hscale, hdot⟩ := unitNormal_dot htriple
  simp only [startTurning, Scalar.zero_real] at h
  split_ifs at h with hpositive
  · refine turnToRay_portal _ _ _ _ hv2 hv1 (turned_of_triple_pos ?_) h
    rw [hdot] at hpositive
    exact pos_of_mul_pos_right hpositive hscale.le
  · refine turnToRay_portal _ _ _ _ hv1 hv2 (turned_of_triple_neg ?_) h
    refine lt_of_le_of_ne ?_ htriple
    rw [hdot] at hpositive
    exact nonpos_of_mul_nonpos_right (not_lt.mp hpositive) hscale

/-- What the search for a first portal has seen when it finds one. -/
theorem discover_portal {d : DifferenceBody ℝ} {rounds : ℕ} {p : Portal ℝ}
    (h : discover d rounds = .portal p) :
    p.v0 = interiorPoint d ∧ ∃ direction, Completed d p direction := by
  simp only [discover] at h
  split_ifs at h with hfirst haside hsmall hsecond
  have haside := Vec3.normalize_isDirection (aside_ne_zero haside)
  exact startTurning_portal ⟨_, towards_isDirection d, rfl⟩ ⟨_, haside, rfl⟩
    (triple_ne_zero (by simpa using hsecond)) h

theorem Turned.ne {v0 v1 v2 direction : Vec3 ℝ} (h : Turned v0 v1 v2 direction) : v1 ≠ v2 := by
  intro heq
  have hneg := h.triple_neg
  have hself : (v2.cross v2).dot v0 = 0 := by
    simp only [Vec3.dot_eq, Vec3.cross]
    ring
  rw [heq, hself] at hneg
  exact lt_irrefl 0 hneg

/-- The corner that completes a portal lies beyond the plane of the others. -/
theorem Completed.proper {d : DifferenceBody ℝ} {p : Portal ℝ} {direction : Vec3 ℝ}
    (h : Completed d p direction) : p.Proper := by
  have hahead := (isAhead_iff _ _).mp h.ahead
  refine cross_ne_zero_of_beyond h.turned.ne (h.turned.level2.trans h.turned.level1.symm) ?_
  linarith [zeroWidth_pos, h.turned.level1, h.turned.behind]

/-! ### Refinement and the push to the boundary -/

/-- A point that gains more than a tolerance on the portal lies beyond it. -/
theorem Proper.expand_of_not_reachesTolerance {p : Portal ℝ} (hp : p.Proper)
    {v4 : DifferencePoint ℝ} {tolerance : ℝ} (htolerance : 0 ≤ tolerance)
    (h : ¬ p.reachesTolerance v4 p.direction tolerance = true) : (p.expand v4).Proper := by
  refine hp.expand ?_
  rw [reachesTolerance_iff, not_le] at h
  linarith

/-- A property of portals that replacing a corner keeps, when the point that replaces it gains more
than the tolerance, is kept by refinement. -/
theorem refine_induction {d : DifferenceBody ℝ} {tolerance : ℝ} {P : Portal ℝ → Prop}
    (hstep : ∀ p : Portal ℝ, P p →
      ¬ p.reachesTolerance (d.support p.direction) p.direction tolerance = true →
        P (p.expand (d.support p.direction)))
    (rounds : ℕ) {p q : Portal ℝ} (hp : P p)
    (h : p.refine d tolerance rounds = .encloses q) :
    P q ∧ q.enclosesOrigin q.direction = true := by
  induction rounds generalizing p with
  | zero => cases h
  | succ rounds ih =>
    simp only [Portal.refine] at h
    split_ifs at h with hencloses hstop
    · obtain rfl := Refinement.encloses.inj h
      exact ⟨hp, hencloses⟩
    · rw [Bool.or_eq_true, not_or] at hstop
      exact ih (hstep p hp hstop.2) h

/-- The push to the boundary keeps what replacing a corner keeps, and says whether it got there. -/
theorem pushOut_induction {d : DifferenceBody ℝ} {tolerance : ℝ} {P : Portal ℝ → Prop}
    (hstep : ∀ p : Portal ℝ, P p →
      ¬ p.reachesTolerance (d.support p.direction) p.direction tolerance = true →
        P (p.expand (d.support p.direction)))
    (rounds : ℕ) {p : Portal ℝ} (hp : P p) :
    P (p.pushOut d tolerance rounds).1 ∧
      ((p.pushOut d tolerance rounds).2 = true →
        (p.pushOut d tolerance rounds).1.reachesTolerance
          (d.support (p.pushOut d tolerance rounds).1.direction)
          (p.pushOut d tolerance rounds).1.direction tolerance = true) := by
  induction rounds generalizing p with
  | zero => exact ⟨hp, id⟩
  | succ rounds ih =>
    simp only [pushOut]
    split_ifs with hreach
    · exact ⟨hp, fun _ ↦ hreach⟩
    · exact ih (hstep p hp hreach)

end Portal

end Collision
