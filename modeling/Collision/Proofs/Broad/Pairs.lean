import Collision.Broad.Pairs
import Collision.Proofs.Scalar.Order
import Mathlib.Data.List.Nodup
import Mathlib.Data.List.Pairwise

/-!
# Candidate pairs, listed

`sortedPairs` lists the pairs it is given in strictly rising order (`sortedPairs_pairwise`) and
loses none (`mem_sortedPairs`), so its result depends only on which pairs there are
(`sortedPairs_congr`). Comparing all pairs of entries finds exactly the pairs of entries at
different places whose boxes meet (`mem_overlappingList`).
-/

set_option autoImplicit false
set_option relaxedAutoImplicit false

namespace Collision

/-! ### Sorted lists of pairs -/

/-- Strict lexicographic order of pairs of handles. -/
def PairLt (p q : GeomId × GeomId) : Prop :=
  (p.1 : Nat) < q.1 ∨ (p.1 : Nat) = q.1 ∧ (p.2 : Nat) < q.2

theorem pairLe_iff (p q : GeomId × GeomId) : pairLe p q = true ↔ PairLt p q ∨ p = q := by
  obtain ⟨a, b⟩ := p
  obtain ⟨c, d⟩ := q
  simp only [pairLe, PairLt, Bool.or_eq_true, decide_eq_true_eq, Bool.and_eq_true, beq_iff_eq,
    Prod.mk.injEq, GeomId]
  omega

theorem PairLt.trans {p q r : GeomId × GeomId} (hpq : PairLt p q) (hqr : PairLt q r) :
    PairLt p r := by
  simp only [PairLt, GeomId] at hpq hqr ⊢
  omega

theorem PairLt.irrefl (p : GeomId × GeomId) : ¬ PairLt p p := by
  simp [PairLt]

theorem mem_dropRepeats (p : GeomId × GeomId) (pairs : List (GeomId × GeomId)) :
    p ∈ dropRepeats pairs ↔ p ∈ pairs := by
  fun_induction dropRepeats pairs with
  | case1 q rest ih => simp [ih]
  | case2 q r rest hne ih => simp [ih]
  | case3 pairs h => rfl

theorem dropRepeats_pairwise (pairs : List (GeomId × GeomId))
    (h : pairs.Pairwise fun p q ↦ PairLt p q ∨ p = q) : (dropRepeats pairs).Pairwise PairLt := by
  fun_induction dropRepeats pairs with
  | case1 q rest ih => exact ih (List.pairwise_cons.mp h).2
  | case2 q r rest hne ih =>
    obtain ⟨hq, hrest⟩ := List.pairwise_cons.mp h
    refine List.pairwise_cons.mpr ⟨?_, ih hrest⟩
    intro p hp
    have hqr : PairLt q r := (hq r List.mem_cons_self).resolve_right hne
    rcases List.mem_cons.mp ((mem_dropRepeats p (r :: rest)).mp hp) with rfl | hp
    · exact hqr
    · rcases (List.pairwise_cons.mp hrest).1 p hp with hrp | rfl
      · exact hqr.trans hrp
      · exact hqr
  | case3 pairs hshort =>
    match pairs, hshort with
    | [], _ => exact List.Pairwise.nil
    | [p], _ => exact List.pairwise_singleton _ p
    | p :: q :: rest, hshort => exact absurd rfl (hshort p q rest)

theorem mem_sortedPairs (p : GeomId × GeomId) (pairs : List (GeomId × GeomId)) :
    p ∈ sortedPairs pairs ↔ p ∈ pairs := by
  rw [sortedPairs, mem_dropRepeats, List.mem_mergeSort]

theorem sortedPairs_pairwise (pairs : List (GeomId × GeomId)) :
    (sortedPairs pairs).Pairwise PairLt := by
  refine dropRepeats_pairwise _ ((List.pairwise_mergeSort ?_ ?_ pairs).imp ?_)
  · intro p q r hpq hqr
    rw [pairLe_iff] at *
    rcases hpq with hpq | rfl
    · rcases hqr with hqr | rfl
      · exact .inl (hpq.trans hqr)
      · exact .inl hpq
    · exact hqr
  · intro p q
    rw [Bool.or_eq_true, pairLe_iff, pairLe_iff]
    obtain ⟨a, b⟩ := p
    obtain ⟨c, d⟩ := q
    simp only [PairLt, Prod.mk.injEq, GeomId]
    omega
  · intro p q h
    exact (pairLe_iff p q).mp h

/-- A strictly rising list of pairs is known by its members. -/
theorem eq_of_pairLt_pairwise {first second : List (GeomId × GeomId)}
    (hfirst : first.Pairwise PairLt) (hsecond : second.Pairwise PairLt)
    (h : ∀ p, p ∈ first ↔ p ∈ second) : first = second := by
  have hnodup : ∀ pairs : List (GeomId × GeomId), pairs.Pairwise PairLt → pairs.Nodup :=
    fun pairs hpairs ↦ hpairs.imp fun {p q} (hlt : PairLt p q) (heq : p = q) ↦
      PairLt.irrefl q (heq ▸ hlt)
  have hperm := (List.perm_ext_iff_of_nodup (hnodup first hfirst) (hnodup second hsecond)).mpr h
  refine hperm.eq_of_pairwise ?_ hfirst hsecond
  intro p q _ _ hpq hqp
  exact absurd (hpq.trans hqp) (PairLt.irrefl p)

theorem sortedPairs_congr {first second : List (GeomId × GeomId)}
    (h : ∀ p, p ∈ first ↔ p ∈ second) : sortedPairs first = sortedPairs second := by
  refine eq_of_pairLt_pairwise (sortedPairs_pairwise _) (sortedPairs_pairwise _) fun p ↦ ?_
  rw [mem_sortedPairs, mem_sortedPairs, h]

theorem fst_le_snd_orderedPair (a b : GeomId) :
    ((orderedPair a b).1 : ℕ) ≤ (orderedPair a b).2 := by
  unfold orderedPair
  split_ifs with hle
  · exact hle
  · exact Nat.le_of_not_le hle

theorem orderedPair_comm (a b : GeomId) : orderedPair a b = orderedPair b a := by
  unfold orderedPair
  split_ifs with hab hba hba
  · rw [Nat.le_antisymm hab hba]
  · rfl
  · rfl
  · exact absurd (Nat.le_total a b) (not_or.mpr ⟨hab, hba⟩)

/-! ### Boxes that meet -/

variable {α : Type} [Scalar α]

/-- The boxes overlap or touch on every axis. -/
def AlignedBox.Meets (a b : AlignedBox α) : Prop :=
  ∀ i : Fin 3, a.lo.get i ≤ b.hi.get i ∧ b.lo.get i ≤ a.hi.get i

instance (a b : AlignedBox α) : Decidable (a.Meets b) :=
  inferInstanceAs (Decidable (∀ i : Fin 3, a.lo.get i ≤ b.hi.get i ∧ b.lo.get i ≤ a.hi.get i))

theorem AlignedBox.overlaps_iff (a b : AlignedBox α) : a.overlaps b = true ↔ a.Meets b := by
  simp [AlignedBox.overlaps, AlignedBox.overlapsOn, AlignedBox.Meets, Fin.forall_fin_succ]

theorem AlignedBox.Meets.symm {a b : AlignedBox α} (h : a.Meets b) : b.Meets a :=
  fun i ↦ ⟨(h i).2, (h i).1⟩

theorem AlignedBox.expanded_lo_get (b : AlignedBox α) (margin : α) (i : Fin 3) :
    (b.expanded margin).lo.get i = b.lo.get i - margin := by
  match i with
  | 0 => rfl
  | 1 => rfl
  | 2 => rfl

theorem AlignedBox.expanded_hi_get (b : AlignedBox α) (margin : α) (i : Fin 3) :
    (b.expanded margin).hi.get i = b.hi.get i + margin := by
  match i with
  | 0 => rfl
  | 1 => rfl
  | 2 => rfl

/-- Two entries at different places, in either order, whose boxes, each changed by `grow`, meet, the
entry of the lower handle named first. -/
def MeetingPair (grow : AlignedBox α → AlignedBox α) (entries : List (BoxEntry α))
    (p : GeomId × GeomId) : Prop :=
  ∃ (i j : Nat) (a b : BoxEntry α), i ≠ j ∧ entries[i]? = some a ∧ entries[j]? = some b ∧
    a.id ≤ b.id ∧ p = (a.id, b.id) ∧ (grow a.box).Meets (grow b.box)

/-- Two entries of different handles are met as the pair that names the lower one first. -/
theorem MeetingPair.lt {grow : AlignedBox α → AlignedBox α}
    {entries : List (BoxEntry α)} (hrising : entries.Pairwise fun a b ↦ (a.id : ℕ) < b.id)
    {p : GeomId × GeomId} (h : MeetingPair grow entries p) :
    (p.1 : ℕ) < p.2 ∧ ∃ a ∈ entries, ∃ b ∈ entries, p = (a.id, b.id) := by
  obtain ⟨i, j, a, b, hne, ha, hb, hle, rfl, -⟩ := h
  refine ⟨Nat.lt_of_le_of_ne hle fun hid ↦ ?_,
    a, List.mem_of_getElem? ha, b, List.mem_of_getElem? hb, rfl⟩
  obtain ⟨hi, rfl⟩ := List.getElem?_eq_some_iff.mp ha
  obtain ⟨hj, rfl⟩ := List.getElem?_eq_some_iff.mp hb
  have hordered := List.pairwise_iff_getElem.mp hrising
  rcases Nat.lt_or_gt_of_ne hne with hlt | hgt
  · exact absurd hid (Nat.ne_of_lt (hordered i j hi hj hlt))
  · exact absurd hid.symm (Nat.ne_of_lt (hordered j i hj hi hgt))

/-- The pair that two entries are reported as, if their boxes meet. -/
def reported (grow : AlignedBox α → AlignedBox α) (p : GeomId × GeomId) (a b : BoxEntry α) : Prop :=
  (grow a.box).Meets (grow b.box) ∧ orderedPair a.id b.id = p

theorem reported.symm {grow : AlignedBox α → AlignedBox α} {p : GeomId × GeomId} {a b : BoxEntry α}
    (h : reported grow p a b) : reported grow p b a :=
  ⟨h.1.symm, (orderedPair_comm b.id a.id).trans h.2⟩

theorem meetingPair_iff (grow : AlignedBox α → AlignedBox α) (entries : List (BoxEntry α))
    (p : GeomId × GeomId) :
    MeetingPair grow entries p ↔ ∃ (i j : Nat) (a b : BoxEntry α),
      i ≠ j ∧ entries[i]? = some a ∧ entries[j]? = some b ∧ reported grow p a b := by
  constructor
  · rintro ⟨i, j, a, b, hne, ha, hb, hle, rfl, hmeets⟩
    exact ⟨i, j, a, b, hne, ha, hb, hmeets, if_pos hle⟩
  · rintro ⟨i, j, a, b, hne, ha, hb, hmeets, hpair⟩
    rcases Nat.le_total a.id b.id with hle | hle
    · exact ⟨i, j, a, b, hne, ha, hb, hle, hpair.symm.trans (if_pos hle), hmeets⟩
    · rw [orderedPair_comm] at hpair
      exact ⟨j, i, b, a, hne.symm, hb, ha, hle, hpair.symm.trans (if_pos hle), hmeets.symm⟩

/-- The pair is met iff some entry is reported as it with one of those behind it. -/
theorem meetingPair_iff_not_pairwise (grow : AlignedBox α → AlignedBox α)
    (entries : List (BoxEntry α)) (p : GeomId × GeomId) :
    MeetingPair grow entries p ↔ ¬ entries.Pairwise fun a b ↦ ¬ reported grow p a b := by
  rw [meetingPair_iff, List.pairwise_iff_getElem]
  push Not
  constructor
  · rintro ⟨i, j, a, b, hne, ha, hb, h⟩
    obtain ⟨hi, rfl⟩ := List.getElem?_eq_some_iff.mp ha
    obtain ⟨hj, rfl⟩ := List.getElem?_eq_some_iff.mp hb
    rcases Nat.lt_or_gt_of_ne hne with hlt | hgt
    · exact ⟨i, j, hi, hj, hlt, h⟩
    · exact ⟨j, i, hj, hi, hgt, h.symm⟩
  · rintro ⟨i, j, hi, hj, hlt, h⟩
    exact ⟨i, j, entries[i], entries[j], Nat.ne_of_lt hlt, List.getElem?_eq_getElem hi,
      List.getElem?_eq_getElem hj, h⟩

/-- Which pairs are met does not depend on the order of the entries. -/
theorem meetingPair_congr_perm {grow : AlignedBox α → AlignedBox α}
    {first second : List (BoxEntry α)} (h : first.Perm second) (p : GeomId × GeomId) :
    MeetingPair grow first p ↔ MeetingPair grow second p := by
  rw [meetingPair_iff_not_pairwise, meetingPair_iff_not_pairwise]
  exact not_congr (h.pairwise_iff fun hab hba ↦ hab hba.symm)

theorem mem_overlappingList (margin : α) (entries : List (BoxEntry α)) (p : GeomId × GeomId) :
    p ∈ overlappingList margin entries ↔ MeetingPair (·.expanded margin) entries p := by
  rw [meetingPair_iff_not_pairwise]
  induction entries with
  | nil => simp [overlappingList]
  | cons entry rest ih =>
    rw [overlappingList, List.mem_append, ih, List.pairwise_cons, not_and_or]
    refine or_congr_left ?_
    simp [overlappingFrom, reported, AlignedBox.overlaps_iff, and_assoc]

end Collision
