import Collision.Proofs.Portal.Rounds
import Collision.Proofs.Space.Nowhere

/-!
# Portal refinement of bodies that are nowhere

If the points of a difference body are nowhere along one axis (`DifferenceBody.NowhereAlong`), no
distance that the search asks for is a number. The tests are written so that it goes on at first and
gives up in the end. Every farthest point passes for being ahead of the origin, since only one at a
distance below zero, or of about zero, is refused; then the first three points pass for a portal
(`Portal.turnToRay_nowhere`). That portal does not enclose the origin, since only one at a distance
above zero, or of about zero, does so, and it cannot reach the origin either, for the same reason
(`Portal.refine_nowhere`). So no overlap is found, and no contact.
-/

set_option autoImplicit false
set_option relaxedAutoImplicit false

namespace Collision

open Scalar (NoNumber)

variable {α : Type} [Scalar α]

/-- All points of a difference body that a search gets to see are nowhere along an axis. -/
structure DifferenceBody.NowhereAlong (d : DifferenceBody α) (i : Fin 3) : Prop where
  center : d.center.v.NowhereAlong i
  support : ∀ direction, (d.support direction).v.NowhereAlong i

variable [SpreadingScalar α] {d : DifferenceBody α} {i : Fin 3}

namespace Portal

/-! ### The tests -/

theorem isTiny_nowhere {a : α} (h : NoNumber a) : isTiny a = false :=
  decide_eq_false (h.abs.not_lt zeroWidth)

theorem isTinyVector_nowhere {v : Vec3 α} (h : v.NowhereAlong i) : isTinyVector v = false := by
  unfold isTinyVector
  match i with
  | 0 => simp [isTiny_nowhere (a := v.x) h]
  | 1 => simp [isTiny_nowhere (a := v.y) h]
  | 2 => simp [isTiny_nowhere (a := v.z) h]

theorem isClearlyNegative_nowhere {a : α} (h : NoNumber a) : isClearlyNegative a = false := by
  rw [isClearlyNegative, decide_eq_false (h.not_lt 0), Bool.false_and]

theorem isAhead_nowhere {p : DifferencePoint α} (h : p.v.NowhereAlong i) (direction : Vec3 α) :
    isAhead p direction = true := by
  have hdistance := h.dot_left direction
  simp only [isAhead, isTiny_nowhere hdistance, decide_eq_false (hdistance.not_lt 0),
    Bool.or_self, Bool.not_false]

/-! ### Discovery -/

/-- The first turn gives a portal, if a round is left for it. -/
theorem turnToRay_nowhere (hd : d.NowhereAlong i) {v0 v1 : DifferencePoint α}
    (hv0 : v0.v.NowhereAlong i) (hv1 : v1.v.NowhereAlong i) (v2 : DifferencePoint α)
    (rounds : Nat) (direction : Vec3 α) :
    turnToRay d v0 rounds v1 v2 direction = .exhausted ∨
      ∃ p : Portal α, turnToRay d v0 rounds v1 v2 direction = .portal p ∧
        p.v1.v.NowhereAlong i := by
  cases rounds with
  | zero => exact .inl rfl
  | succ rounds =>
    have hahead := isAhead_nowhere (hd.support direction) direction
    have hside (v : Vec3 α) := isClearlyNegative_nowhere (hv0.dot_right v)
    rw [turnToRay]
    simp only [hahead, hside, Bool.not_true, Bool.false_eq_true, if_false]
    exact .inr ⟨_, rfl, hv1⟩

/-- The search for a first portal uses up its rounds or comes back with a portal. -/
theorem discover_nowhere (hd : d.NowhereAlong i) (rounds : Nat) :
    discover d rounds = .exhausted ∨
      ∃ p : Portal α, discover d rounds = .portal p ∧ p.v1.v.NowhereAlong i := by
  have hinterior : interiorPoint d = d.center := by
    simp only [interiorPoint, isTinyVector_nowhere hd.center, Bool.false_eq_true, if_false]
  have hahead (direction : Vec3 α) := isAhead_nowhere (hd.support direction) direction
  have haside (v : Vec3 α) (direction : Vec3 α) :
      isTiny (v.cross (d.support direction).v).normSq = false := by
    have hnext : ∀ i : Fin 3, i + 1 ≠ i := by decide
    exact isTiny_nowhere ((hd.support direction).cross_right v (hnext i)).normSq
  simp only [discover, hinterior, hahead, haside, Bool.not_true, Bool.false_eq_true, if_false,
    startTurning]
  split_ifs
  · exact turnToRay_nowhere hd hd.center (hd.support _) _ rounds _
  · exact turnToRay_nowhere hd hd.center (hd.support _) _ rounds _

/-! ### Refinement -/

/-- A portal that is nowhere does not enclose the origin and is given up at once. -/
theorem refine_nowhere (hd : d.NowhereAlong i) {p : Portal α} (hp : p.v1.v.NowhereAlong i)
    (tolerance : α) (rounds : Nat) :
    p.refine d tolerance rounds = .exhausted ∨ p.refine d tolerance rounds = .separated := by
  cases rounds with
  | zero => exact .inl rfl
  | succ rounds =>
    have hdistance := hp.dot_right p.direction
    have hreach := (hd.support p.direction).dot_left p.direction
    have hencloses : p.enclosesOrigin p.direction = false := by
      simp only [enclosesOrigin, isTiny_nowhere hdistance, decide_eq_false (hdistance.not_gt 0),
        Bool.or_self]
    refine .inr ?_
    rw [refine]
    simp only [hencloses, isTiny_nowhere hreach, decide_eq_false (hreach.not_gt 0), Bool.or_self,
      Bool.not_false, Bool.true_or, Bool.false_eq_true, if_false, if_true]

end Portal

/-! ### Verdict and contact -/

namespace DifferenceBody

/-- The origin is not found, whatever the settings are. -/
theorem holdsOrigin_nowhere (hd : d.NowhereAlong i) (config : PortalConfig α) :
    d.holdsOrigin config = false := by
  unfold holdsOrigin
  rcases Portal.discover_nowhere hd config.iterations with hfound | ⟨p, hfound, hp⟩
  · rw [hfound]
  · rw [hfound]
    dsimp only
    rcases Portal.refine_nowhere hd hp config.tolerance config.iterations with href | href <;>
      rw [href]

theorem penetration?_nowhere (hd : d.NowhereAlong i) (config : PortalConfig α) :
    d.penetration? config = none := by
  by_contra hsome
  obtain ⟨contact, hcontact⟩ := Option.ne_none_iff_exists'.mp hsome
  have hfound := holdsOrigin_of_penetration? hcontact
  rw [holdsOrigin_nowhere hd config] at hfound
  exact Bool.false_ne_true hfound

end DifferenceBody

end Collision
