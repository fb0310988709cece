import Collision.Portal.Search
import Mathlib.Tactic.SplitIfs

/-!
# The number of rounds a search may use

A search of portal refinement that is allowed more rounds goes through the same portals, and ends
where it ended before unless it had used up its rounds (`Portal.discover_of_le`,
`Portal.refine_of_le`). A search that has used up its rounds finds no overlap, so a larger number of
rounds can only turn a miss into a hit. Nothing is asked of the arithmetic or of the farthest points
that the difference body gives.
-/

set_option autoImplicit false
set_option relaxedAutoImplicit false

namespace Collision

variable {α : Type} [Scalar α]

namespace Portal

variable {d : DifferenceBody α} {n m : Nat}

/-! ### Discovery -/

theorem turnToRay_succ {v0 : DifferencePoint α} (v1 v2 : DifferencePoint α) (direction : Vec3 α)
    (h : turnToRay d v0 n v1 v2 direction ≠ .exhausted) :
    turnToRay d v0 (n + 1) v1 v2 direction = turnToRay d v0 n v1 v2 direction := by
  induction n generalizing v1 v2 direction with
  | zero => exact absurd rfl h
  | succ n ih =>
    -- Both runs make the same first turn; one has `n` rounds left for the rest, the other `n + 1`.
    rw [turnToRay] at h ⊢
    rw [turnToRay.eq_2 d v0 v1 v2 direction n]
    split_ifs at h ⊢ with hahead hleft hright
    · rfl
    · exact ih _ _ _ h
    · exact ih _ _ _ h
    · rfl

theorem startTurning_of_le {v0 v1 v2 : DifferencePoint α} (hle : n ≤ m)
    (h : startTurning d n v0 v1 v2 ≠ .exhausted) :
    startTurning d m v0 v1 v2 = startTurning d n v0 v1 v2 := by
  induction hle with
  | refl => rfl
  | step _ ih =>
    rw [← ih] at h ⊢
    simp only [startTurning] at h ⊢
    split_ifs at h ⊢
    · exact turnToRay_succ _ _ _ h
    · exact turnToRay_succ _ _ _ h

/-- A search for a first portal that did not use up its rounds ends alike with more of them. -/
theorem discover_of_le (hle : n ≤ m) (h : discover d n ≠ .exhausted) :
    discover d m = discover d n := by
  simp only [discover] at h ⊢
  split_ifs at h ⊢
  · rfl
  · rfl
  · rfl
  · rfl
  · exact startTurning_of_le hle h

/-! ### Refinement -/

theorem refine_succ {tolerance : α} (p : Portal α) (h : p.refine d tolerance n ≠ .exhausted) :
    p.refine d tolerance (n + 1) = p.refine d tolerance n := by
  induction n generalizing p with
  | zero => exact absurd rfl h
  | succ n ih =>
    rw [refine] at h ⊢
    rw [refine.eq_2 d tolerance p n]
    dsimp only at h ⊢
    split_ifs at h ⊢ with hencloses hstop
    · rfl
    · rfl
    · exact ih _ h

/-- A refinement that did not use up its rounds ends alike with more of them. -/
theorem refine_of_le {tolerance : α} {p : Portal α} (hle : n ≤ m)
    (h : p.refine d tolerance n ≠ .exhausted) :
    p.refine d tolerance m = p.refine d tolerance n := by
  induction hle with
  | refl => rfl
  | step _ ih =>
    rw [← ih] at h ⊢
    exact refine_succ p h

end Portal

/-! ### The verdict -/

namespace DifferenceBody

variable {d : DifferenceBody α} {config : PortalConfig α}

/-- A verdict that was reached before the rounds were used up stays with more rounds. -/
theorem holdsOrigin_eq_of_le {tolerance : α} {n m : Nat} (hle : n ≤ m)
    (hdiscover : Portal.discover d n ≠ .exhausted)
    (hrefine : ∀ p, Portal.discover d n = .portal p → p.refine d tolerance n ≠ .exhausted) :
    d.holdsOrigin ⟨m, tolerance⟩ = d.holdsOrigin ⟨n, tolerance⟩ := by
  unfold holdsOrigin
  simp only [Portal.discover_of_le hle hdiscover]
  cases hfound : Portal.discover d n with
  | separated => rfl
  | exhausted => rfl
  | touching => rfl
  | segment v1 => rfl
  | portal p => simp only [Portal.refine_of_le hle (hrefine p hfound)]

/-- An origin that is found is found before the rounds are used up. -/
theorem holdsOrigin_of_le {tolerance : α} {n m : Nat} (hle : n ≤ m)
    (h : d.holdsOrigin ⟨n, tolerance⟩ = true) : d.holdsOrigin ⟨m, tolerance⟩ = true := by
  rw [holdsOrigin_eq_of_le hle ?_ ?_]
  · exact h
  · intro hexhausted
    simp [holdsOrigin, hexhausted] at h
  · intro p hfound hexhausted
    simp [holdsOrigin, hfound, hexhausted] at h

/-- The search that gives a contact gives the verdict that there is one. -/
theorem holdsOrigin_of_penetration? {contact : Contact α}
    (h : d.penetration? config = some contact) : d.holdsOrigin config = true := by
  unfold penetration? at h
  unfold holdsOrigin
  split at h
  · cases h
  · cases h
  · cases h
  · rfl
  · rename_i p hp
    split at h
    · cases h
    · cases h
    · rfl

end DifferenceBody

namespace Placed

/-- More rounds never lose an overlap of two placed bodies, and gain one only if a search had used
up its rounds. A contact is found only where an overlap is found with the same settings. -/
theorem rounds_only_gain_overlaps (a b : Placed α) :
    (∀ (tolerance : α) (n m : Nat), n ≤ m →
      (a.generallyOverlaps b ⟨n, tolerance⟩ = true → a.generallyOverlaps b ⟨m, tolerance⟩ = true) ∧
      let d := DifferenceBody.ofPlaced a b
      (Portal.discover d n ≠ .exhausted →
        (∀ p, Portal.discover d n = .portal p → p.refine d tolerance n ≠ .exhausted) →
        a.generallyOverlaps b ⟨m, tolerance⟩ = a.generallyOverlaps b ⟨n, tolerance⟩)) ∧
      ∀ (config : PortalConfig α) (contact : Contact α),
        a.generalContact? b config = some contact → a.generallyOverlaps b config = true := by
  refine ⟨fun tolerance n m hle ↦ ⟨fun h ↦ ?_, fun hdiscover hrefine ↦ ?_⟩,
    fun config contact h ↦ ?_⟩
  · exact DifferenceBody.holdsOrigin_of_le hle h
  · exact DifferenceBody.holdsOrigin_eq_of_le hle hdiscover hrefine
  · exact DifferenceBody.holdsOrigin_of_penetration? h

/-- The verdict on two cubes in double precision takes two rounds. -/
theorem rounds_only_gain_overlaps_of_two_cubes :
    let cube : Shape Float := .part (.bare (.box ⟨1, 1, 1⟩))
    let a : Placed Float := ⟨cube, .identity⟩
    let b : Placed Float := ⟨cube, .ofPosition ⟨1, 0.5, 0.25⟩⟩
    a.generallyOverlaps b ⟨1, 1e-4⟩ = false ∧ ∀ m ≥ 2, a.generallyOverlaps b ⟨m, 1e-4⟩ = true := by
  intro cube a b
  obtain ⟨hmore, hcontact⟩ := rounds_only_gain_overlaps a b
  have hsome : (a.generalContact? b ⟨2, 1e-4⟩).isSome = true := by decide +kernel
  obtain ⟨contact, hfound⟩ := Option.isSome_iff_exists.mp hsome
  refine ⟨by decide +kernel, fun m hle ↦ ?_⟩
  exact (hmore 1e-4 2 m hle).1 (hcontact ⟨2, 1e-4⟩ contact hfound)

end Placed

end Collision
