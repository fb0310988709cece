import Collision.Memory
import Collision.Proofs.Scalar.Selection
import Mathlib.Data.List.Nodup
import Mathlib.Tactic.Common

/-!
# Taking in one new contact

What one new contact does to the slots of an update, in any arithmetic. `IsNearest` is a candidate
that no other one is nearer than; `Absorbing.Free` are the contacts that no new contact has yet, and
`Absorbing.PushesOut` is a new contact that finds the memory of its pair full and no free contact
near enough.

* `Absorbing.placement_eq_takesOver_iff`, `Absorbing.placement_eq_replaces_iff` and
  `Absorbing.placement_eq_atEnd_iff` say when a new contact goes where.
* `Absorbing.Free.takeOver_iff` and `Absorbing.free_append_iff` say which contacts are free
  afterwards.
* `Absorbing.Distinct` says that identities do not repeat and were given out; every new contact
  keeps it (`Absorbing.Distinct.absorb`).
-/

set_option autoImplicit false
set_option relaxedAutoImplicit false

namespace Collision

variable {α : Type} [Scalar α]

/-! ### Nearest candidates -/

/-- A candidate that no other one is nearer to a point than; the first one of several. -/
structure IsNearest (candidate : ℕ → Remembered α → Prop) (p : Vec3 α) (place : ℕ)
    (r : Remembered α) : Prop where
  is_candidate : candidate place r
  nearest : ∀ other q, candidate other q →
    Scalar.totalLe (r.distanceTo p) (q.distanceTo p) = true
  first : ∀ other q, candidate other q → other < place →
    Scalar.totalLe (q.distanceTo p) (r.distanceTo p) = false

theorem IsNearest.place_eq {candidate : ℕ → Remembered α → Prop} {p : Vec3 α} {i j : ℕ}
    {r q : Remembered α} (hr : IsNearest candidate p i r) (hq : IsNearest candidate p j q) :
    i = j := by
  rcases Nat.lt_trichotomy i j with hlt | heq | hgt
  · exact absurd ((hq.first i r hr.is_candidate hlt).symm.trans (hr.nearest j q hq.is_candidate))
      Bool.false_ne_true
  · exact heq
  · exact absurd ((hr.first j q hq.is_candidate hgt).symm.trans (hq.nearest i r hr.is_candidate))
      Bool.false_ne_true

namespace Absorbing

variable {s : Absorbing α} {c : Contact α} {place : ℕ}

theorem mem_distances {p : Vec3 α} {eligible : ℕ → Remembered α × Bool → Bool} {distance : α} :
    (place, distance) ∈ s.distances p eligible ↔ ∃ slot, s.slots[place]? = some slot ∧
      eligible place slot = true ∧ distance = slot.1.distanceTo p := by
  unfold distances
  rw [List.mem_filterMap]
  constructor
  · rintro ⟨⟨slot, i⟩, hslot, hsome⟩
    split_ifs at hsome with heligible
    obtain ⟨rfl, rfl⟩ := Prod.mk.inj (Option.some_inj.mp hsome)
    exact ⟨slot, List.mem_zipIdx_iff_getElem?.mp hslot, heligible, rfl⟩
  · rintro ⟨slot, hslot, heligible, rfl⟩
    exact ⟨(slot, place), List.mem_zipIdx_iff_getElem?.mpr hslot, if_pos heligible⟩

theorem distances_pairwise (s : Absorbing α) (p : Vec3 α)
    (eligible : ℕ → Remembered α × Bool → Bool) :
    (s.distances p eligible).Pairwise fun a b ↦ a.1 < b.1 := by
  have hplaces : s.slots.zipIdx.Pairwise fun a b ↦ a.2 < b.2 := by
    rw [← List.pairwise_map, List.zipIdx_map_snd]
    exact List.pairwise_lt_range'
  refine List.pairwise_filterMap.mpr (hplaces.imp ?_)
  intro a b hlt entryA hA entryB hB
  split_ifs at hA hB
  obtain rfl := Option.some_inj.mp hA
  obtain rfl := Option.some_inj.mp hB
  exact hlt

/-- The search finds the nearest eligible slot. -/
theorem isNearest_of_nearest? {p : Vec3 α} {eligible : ℕ → Remembered α × Bool → Bool}
    {distance : α} (h : s.nearest? p eligible = some (place, distance)) :
    ∃ r, IsNearest (fun i r ↦ ∃ taken, s.slots[i]? = some (r, taken) ∧
      eligible i (r, taken) = true) p place r ∧ distance = r.distanceTo p := by
  obtain ⟨before, after, hsplit, hbefore, hafter⟩ := Scalar.firstMinBy?_eq_some h
  have hrising := s.distances_pairwise p eligible
  rw [hsplit] at hrising
  obtain ⟨-, hrest, -⟩ := List.pairwise_append.mp hrising
  have hbehind := (List.pairwise_cons.mp hrest).1
  obtain ⟨⟨r, taken⟩, hslot, heligible, rfl⟩ := mem_distances.mp
    (hsplit ▸ List.mem_append_right before List.mem_cons_self)
  -- Every candidate is listed before the found one, is the found one, or is listed behind it.
  have hlisted (other : ℕ) (q : Remembered α) (hq : ∃ taken, s.slots[other]? = some (q, taken) ∧
      eligible other (q, taken) = true) : (other, q.distanceTo p) ∈ before ∨
        (other, q.distanceTo p) = (place, r.distanceTo p) ∨ (other, q.distanceTo p) ∈ after := by
    obtain ⟨taken, hslot, heligible⟩ := hq
    have hmem : (other, q.distanceTo p) ∈ s.distances p eligible :=
      mem_distances.mpr ⟨(q, taken), hslot, heligible, rfl⟩
    rwa [hsplit, List.mem_append, List.mem_cons] at hmem
  refine ⟨r, ⟨⟨taken, hslot, heligible⟩, fun other q hq ↦ ?_, fun other q hq hlt ↦ ?_⟩, rfl⟩
  · rcases hlisted other q hq with hmem | heq | hmem
    · exact Scalar.totalLe_of_not (hbefore _ hmem)
    · rw [(Prod.mk.inj heq).2]
      exact (Scalar.totalLe_total _ _).elim id id
    · exact hafter _ hmem
  · rcases hlisted other q hq with hmem | heq | hmem
    · exact hbefore _ hmem
    · exact absurd (Prod.mk.inj heq).1 (Nat.ne_of_lt hlt)
    · exact absurd (hbehind _ hmem) (Nat.lt_asymm hlt)

theorem nearest?_eq_some_iff {p : Vec3 α} {eligible : ℕ → Remembered α × Bool → Bool}
    {distance : α} : s.nearest? p eligible = some (place, distance) ↔
      ∃ r, IsNearest (fun i r ↦ ∃ taken, s.slots[i]? = some (r, taken) ∧
        eligible i (r, taken) = true) p place r ∧ distance = r.distanceTo p := by
  refine ⟨isNearest_of_nearest?, ?_⟩
  rintro ⟨r, hr, rfl⟩
  obtain ⟨taken, hslot, heligible⟩ := hr.is_candidate
  rcases hfound : s.nearest? p eligible with _ | ⟨other, distance⟩
  · have hmem : (place, r.distanceTo p) ∈ s.distances p eligible :=
      mem_distances.mpr ⟨_, hslot, heligible, rfl⟩
    rw [Scalar.firstMinBy?_eq_none hfound] at hmem
    exact absurd hmem List.not_mem_nil
  · obtain ⟨q, hq, rfl⟩ := isNearest_of_nearest? hfound
    obtain rfl := hr.place_eq hq
    obtain ⟨taken', hslot', -⟩ := hq.is_candidate
    rw [(Prod.mk.inj (Option.some_inj.mp (hslot.symm.trans hslot'))).1]

/-! ### Where a new contact goes -/

/-- A remembered contact that no new contact has. -/
def Free (s : Absorbing α) (place : ℕ) (r : Remembered α) : Prop :=
  s.slots[place]? = some (r, false)

/-- A contact that may have to make room: any but the one that was deepest at the start, or the only
one. -/
def Expendable (s : Absorbing α) (deepest : Option ℕ) (place : ℕ) (r : Remembered α) : Prop :=
  (∃ taken, s.slots[place]? = some (r, taken)) ∧ (some place ≠ deepest ∨ s.slots.length = 1)

/-- A new contact takes over the identity of a remembered one: the nearest free one, and nearer than
the drift. -/
structure TakesOver (s : Absorbing α) (drift : α) (c : Contact α) (place : ℕ)
    (r : Remembered α) : Prop where
  isNearest : IsNearest s.Free c.position place r
  near : r.distanceTo c.position < drift

/-- A new contact pushes out a contact: it takes over none, there is no room, and the contact is the
nearest that may have to make room. -/
structure PushesOut (s : Absorbing α) (drift : α) (capacity : ℕ) (deepest : Option ℕ)
    (c : Contact α) (place : ℕ) : Prop where
  takes_none : ∀ other r, ¬s.TakesOver drift c other r
  full : capacity ≤ s.slots.length
  isNearest : ∃ r, IsNearest (s.Expendable deepest) c.position place r

theorem nearest?_free_eq_some_iff {distance : α} :
    (s.nearest? c.position fun _ slot ↦ !slot.2) = some (place, distance) ↔
      ∃ r, IsNearest s.Free c.position place r ∧ distance = r.distanceTo c.position := by
  have hfree : (fun i r ↦ ∃ taken, s.slots[i]? = some (r, taken) ∧ (!(r, taken).2) = true) =
      s.Free := by
    funext i r
    simp [Free]
  rw [nearest?_eq_some_iff, hfree]

theorem victim?_eq_some_iff {deepest : Option ℕ} : s.victim? deepest c.position = some place ↔
    ∃ r, IsNearest (s.Expendable deepest) c.position place r := by
  have hexpendable : (fun i r ↦ ∃ taken, s.slots[i]? = some (r, taken) ∧
      (some i != deepest || s.slots.length == 1) = true) = s.Expendable deepest := by
    funext i r
    simp [Expendable]
  unfold victim?
  rw [Option.map_eq_some_iff]
  constructor
  · rintro ⟨⟨i, distance⟩, hfound, rfl⟩
    obtain ⟨r, hr, -⟩ := nearest?_eq_some_iff.mp hfound
    exact ⟨r, hexpendable ▸ hr⟩
  · rintro ⟨r, hr⟩
    exact ⟨(place, _), nearest?_eq_some_iff.mpr ⟨r, hexpendable ▸ hr, rfl⟩, rfl⟩

variable {drift : α} {capacity : ℕ} {deepest : Option ℕ}

theorem newPlacement_ne_takesOver : s.newPlacement capacity deepest c ≠ .takesOver place := by
  unfold newPlacement
  split_ifs
  · exact Placement.noConfusion
  · split <;> exact Placement.noConfusion

/-- A new contact takes over the nearest free contact that is near enough, or is placed as one that
is near no remembered contact. -/
theorem placement_cases (s : Absorbing α) (drift : α) (capacity : ℕ) (deepest : Option ℕ)
    (c : Contact α) :
    (∃ place r, s.TakesOver drift c place r ∧
      s.placement drift capacity deepest c = .takesOver place) ∨
    ((∀ place r, ¬s.TakesOver drift c place r) ∧
      s.placement drift capacity deepest c = s.newPlacement capacity deepest c) := by
  unfold placement
  rcases hfound : s.nearest? c.position fun _ slot ↦ !slot.2 with _ | ⟨place, distance⟩
  · refine .inr ⟨fun place r hr ↦ ?_, rfl⟩
    have hsome := nearest?_free_eq_some_iff.mpr ⟨r, hr.isNearest, rfl⟩
    cases hfound.symm.trans hsome
  · obtain ⟨r, hr, rfl⟩ := nearest?_free_eq_some_iff.mp hfound
    by_cases hnear : r.distanceTo c.position < drift
    · exact .inl ⟨place, r, ⟨hr, hnear⟩, if_pos hnear⟩
    · refine .inr ⟨fun other q hq ↦ hnear ?_, if_neg hnear⟩
      have hsome := nearest?_free_eq_some_iff.mpr ⟨q, hq.isNearest, rfl⟩
      rw [(Prod.mk.inj (Option.some_inj.mp (hfound.symm.trans hsome))).2]
      exact hq.near

theorem placement_eq_takesOver_iff : s.placement drift capacity deepest c = .takesOver place ↔
    ∃ r, s.TakesOver drift c place r := by
  rcases placement_cases s drift capacity deepest c with
    ⟨i, q, hq, hplacement⟩ | ⟨hnone, hplacement⟩
  · rw [hplacement]
    constructor
    · intro h
      exact ⟨q, Placement.takesOver.inj h ▸ hq⟩
    · rintro ⟨r, hr⟩
      rw [hq.isNearest.place_eq hr.isNearest]
  · rw [hplacement]
    exact iff_of_false newPlacement_ne_takesOver fun ⟨r, hr⟩ ↦ hnone place r hr

theorem placement_eq_atEnd_iff : s.placement drift capacity deepest c = .atEnd ↔
    (∀ place r, ¬s.TakesOver drift c place r) ∧ s.slots.length < capacity := by
  rcases placement_cases s drift capacity deepest c with
    ⟨i, q, hq, hplacement⟩ | ⟨hnone, hplacement⟩
  · rw [hplacement]
    exact iff_of_false Placement.noConfusion fun h ↦ h.1 i q hq
  · rw [hplacement, newPlacement]
    split_ifs with hroom
    · exact iff_of_true rfl ⟨hnone, hroom⟩
    · refine iff_of_false ?_ fun h ↦ hroom h.2
      split <;> exact Placement.noConfusion

theorem placement_eq_replaces_iff : s.placement drift capacity deepest c = .replaces place ↔
    s.PushesOut drift capacity deepest c place := by
  rcases placement_cases s drift capacity deepest c with
    ⟨i, q, hq, hplacement⟩ | ⟨hnone, hplacement⟩
  · rw [hplacement]
    exact iff_of_false Placement.noConfusion fun h ↦ h.takes_none i q hq
  · rw [hplacement, newPlacement]
    split_ifs with hroom
    · exact iff_of_false not_false fun h ↦ Nat.not_lt.mpr h.full hroom
    · have hvictim : s.victim? deepest c.position = some place ↔
          ∃ r, IsNearest (s.Expendable deepest) c.position place r := victim?_eq_some_iff
      constructor
      · intro h
        refine ⟨hnone, Nat.not_lt.mp hroom, hvictim.mp ?_⟩
        split at h
        · rwa [← Placement.replaces.inj h]
        · cases h
      · intro h
        rw [hvictim.mpr h.isNearest]

/-! ### Who is free afterwards -/

variable {poses : PosePair α} {r q : Remembered α} {i : ℕ}

/-- A contact that is taken over is replaced by the new one, under its identity. -/
theorem Free.slots_takeOver (h : s.Free place r) (poses : PosePair α) (c : Contact α) :
    (s.takeOver poses place c).slots = s.slots.set place (.ofContact poses r.id c, true) := by
  unfold Free at h
  refine List.ext_getElem? fun i ↦ ?_
  simp only [takeOver, List.getElem?_modify, List.getElem?_set]
  by_cases hplace : place = i
  · subst hplace
    rw [h, if_pos rfl, if_pos (List.getElem?_eq_some_iff.mp h).1]
    simp
  · simp [hplace]

theorem Free.takeOver_iff (h : s.Free place r) :
    (s.takeOver poses place c).Free i q ↔ s.Free i q ∧ i ≠ place := by
  unfold Free
  rw [h.slots_takeOver, List.getElem?_set]
  by_cases hplace : place = i
  · subst hplace
    simp
  · simp [hplace, Ne.symm hplace]

theorem free_append_iff : (s.append poses c).Free i q ↔ s.Free i q := by
  unfold Free
  simp only [append, List.getElem?_append, List.getElem?_singleton]
  split_ifs with hlt hlast
  · rfl
  · simp [List.getElem?_eq_none (Nat.not_lt.mp hlt)]
  · simp [List.getElem?_eq_none (Nat.not_lt.mp hlt)]

/-! ### Identities -/

/-- The identities of the slots. -/
def ids (s : Absorbing α) : List ContactId := s.slots.map fun slot ↦ slot.1.id

theorem ids_takeOver (s : Absorbing α) (poses : PosePair α) (place : ℕ) (c : Contact α) :
    (s.takeOver poses place c).ids = s.ids := by
  refine List.ext_getElem? fun i ↦ ?_
  simp only [ids, takeOver, List.getElem?_map, List.getElem?_modify]
  rcases s.slots[i]? with _ | slot
  · rfl
  · by_cases hi : place = i <;> simp [hi, Remembered.ofContact]

theorem ids_append (s : Absorbing α) (poses : PosePair α) (c : Contact α) :
    (s.append poses c).ids = s.ids ++ [s.nextId] := by
  simp [ids, append, Remembered.ofContact]

theorem ids_overwrite (s : Absorbing α) (poses : PosePair α) (place : ℕ) (c : Contact α) :
    (s.overwrite poses place c).ids = s.ids.set place s.nextId := by
  simp [ids, overwrite, Remembered.ofContact, List.map_set]

/-- The identities of the slots differ, and all of them were given out. -/
structure Distinct (s : Absorbing α) : Prop where
  nodup : s.ids.Nodup
  lt_nextId : ∀ id ∈ s.ids, id < s.nextId

theorem nextId_le_absorb (s : Absorbing α) (poses : PosePair α) (drift : α) (capacity : ℕ)
    (deepest : Option ℕ) (c : Contact α) :
    s.nextId ≤ (absorb poses drift capacity deepest s c).nextId := by
  unfold absorb
  cases s.placement drift capacity deepest c with
  | takesOver place => exact Nat.le_refl _
  | atEnd => exact Nat.le_succ _
  | replaces place => exact Nat.le_succ _
  | dropped => exact Nat.le_refl _

theorem Distinct.absorb (hs : s.Distinct) (c : Contact α) :
    (absorb poses drift capacity deepest s c).Distinct := by
  have hfresh : s.nextId ∉ s.ids := fun h ↦ Nat.lt_irrefl _ (hs.lt_nextId _ h)
  unfold Absorbing.absorb
  cases s.placement drift capacity deepest c with
  | takesOver place =>
    refine ⟨?_, ?_⟩ <;> simp only [put, ids_takeOver]
    · exact hs.nodup
    · exact hs.lt_nextId
  | atEnd =>
    refine ⟨?_, ?_⟩ <;> simp only [put, ids_append]
    · exact List.nodup_append.mpr ⟨hs.nodup, List.nodup_singleton _, fun id hid other hother heq ↦
        hfresh (List.mem_singleton.mp hother ▸ heq ▸ hid)⟩
    · intro id hid
      rcases List.mem_append.mp hid with hid | hid
      · exact Nat.lt_succ_of_lt (hs.lt_nextId id hid)
      · exact List.mem_singleton.mp hid ▸ Nat.lt_succ_self _
  | replaces place =>
    refine ⟨?_, ?_⟩ <;> simp only [put, ids_overwrite]
    · exact hs.nodup.set hfresh
    · intro id hid
      rcases List.mem_or_eq_of_mem_set hid with hid | rfl
      · exact Nat.lt_succ_of_lt (hs.lt_nextId id hid)
      · exact Nat.lt_succ_self _
  | dropped => exact hs

end Absorbing

end Collision
