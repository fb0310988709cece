import Collision.Proofs.Memory.Capacity
import Collision.Proofs.Memory.Continuity

/-!
# The deepest contact of a full memory

To make room in a full pair an update forgets the nearest contact, but spares the place of the
deepest contact that stayed. That place is chosen once, before the first new contact.

* `Absorbing.HoldsSpared` says what stands at the spared place along an update: the contact that
  stayed there, or a new one under its identity; every new contact keeps it
  (`Absorbing.HoldsSpared.absorb`).
* `Absorbing.Outlasted` is a contact that is pushed out while one that is at least as deep stays.
* `ContactMemory.deepest_survivor_spared` says that every contact that is pushed out is outlasted,
  unless it is new in the same update or a new contact that is less deep has taken over the spared
  place; and that the identity of the deepest contact that stayed is reported by the update.
* `ContactMemory.deepest_pushed_out` is a pair that was not remembered before: no place is spared,
  and the deepest contact makes room for one that is less deep.
-/

set_option autoImplicit false
set_option relaxedAutoImplicit false

namespace Collision

variable {α : Type} [Scalar α]

namespace PairMemory

/-! ### The deepest of some contacts -/

theorem deepestPlace?_eq_some {contacts : List (Remembered α)} {place : ℕ}
    (h : deepestPlace? contacts = some place) :
    ∃ r, contacts[place]? = some r ∧ ∀ q ∈ contacts, Scalar.totalLe q.depth r.depth = true := by
  obtain ⟨⟨r, i⟩, hbest, rfl⟩ := Option.map_eq_some_iff.mp h
  obtain ⟨hmem, hmax⟩ := Scalar.lastMaxBy?_eq_some hbest
  refine ⟨r, List.mem_zipIdx_iff_getElem?.mp hmem, fun q hq ↦ ?_⟩
  obtain ⟨j, hj⟩ := List.mem_iff_getElem?.mp hq
  exact hmax (q, j) (List.mem_zipIdx_iff_getElem?.mpr hj)

theorem deepestPlace?_eq_none {contacts : List (Remembered α)}
    (h : deepestPlace? contacts = none) : contacts = [] :=
  List.zipIdx_eq_nil_iff.mp (Scalar.lastMaxBy?_eq_none (Option.map_eq_none_iff.mp h))

end PairMemory

/-- The contact is one of some new ones, under its identity. -/
def Remembered.IsNew (r : Remembered α) (poses : PosePair α) (news : Contacts α) : Prop :=
  ∃ d ∈ news, r = .ofContact poses r.id d

namespace Absorbing

variable {s : Absorbing α} {poses : PosePair α} {drift : α} {capacity : ℕ} {deepest : Option ℕ}
  {c : Contact α} {place : ℕ} {r : Remembered α} {seen : Contacts α}

/-! ### The spared place -/

/-- Only a pair with room for a single contact has its spared contact pushed out. -/
theorem PushesOut.ne_spared (h : s.PushesOut drift capacity deepest c place)
    (hroom : 2 ≤ capacity) : deepest ≠ some place := by
  rintro rfl
  obtain ⟨r, hr⟩ := h.isNearest
  rcases hr.is_candidate.2 with hne | hone
  · exact hne rfl
  · have hfull := h.full
    omega

/-- What stands at the spared place after some new contacts: the contact that stayed there, or one
of the new contacts under its identity. -/
def HoldsSpared (s : Absorbing α) (poses : PosePair α) (place : ℕ) (r : Remembered α)
    (seen : Contacts α) : Prop :=
  s.Free place r ∨ ∃ d ∈ seen, s.slots[place]? = some (.ofContact poses r.id d, true)

theorem HoldsSpared.absorb (h : s.HoldsSpared poses place r seen) (hroom : 2 ≤ capacity)
    (c : Contact α) :
    (absorb poses drift capacity (some place) s c).HoldsSpared poses place r (seen ++ [c]) := by
  have hkept : ¬s.PushesOut drift capacity (some place) c place :=
    fun hpushed ↦ hpushed.ne_spared hroom rfl
  by_cases htaken : ∃ q, s.TakesOver drift c place q
  · obtain ⟨q, hq⟩ := htaken
    have hfree : s.Free place q := hq.isNearest.is_candidate
    rcases h with hr | ⟨d, -, hslot⟩
    · obtain rfl : q = r := (Prod.mk.inj (Option.some_inj.mp (hfree.symm.trans hr))).1
      exact .inr ⟨c, List.mem_append_right seen List.mem_cons_self, hq.slot_absorb⟩
    · cases hfree.symm.trans hslot
  · have hleft := not_exists.mp htaken
    rcases h with hr | ⟨d, hd, hslot⟩
    · exact .inl (slot_absorb hr hleft hkept)
    · exact .inr ⟨d, List.mem_append_left [c] hd, slot_absorb hslot hleft hkept⟩

theorem HoldsSpared.foldl (h : s.Free place r) (hroom : 2 ≤ capacity) (contacts : Contacts α) :
    (contacts.foldl (Absorbing.absorb poses drift capacity (some place)) s).HoldsSpared poses place
      r contacts := by
  induction contacts using List.reverseRecOn with
  | nil => exact .inl h
  | append_singleton rest c ih =>
    rw [List.foldl_concat]
    exact ih.absorb hroom c

/-! ### Contacts that are pushed out -/

theorem PushesOut.slots_absorb (h : s.PushesOut drift capacity deepest c place) :
    (absorb poses drift capacity deepest s c).slots =
      s.slots.set place (.ofContact poses s.nextId c, true) := by
  rw [absorb, placement_eq_replaces_iff.mpr h]
  rfl

/-- A contact is gone from its place, and one that is at least as deep stands at another place
before and after. -/
def Outlasted (s next : Absorbing α) (place : ℕ) (r : Remembered α) : Prop :=
  ∃ other slot, other ≠ place ∧ s.slots[other]? = some slot ∧ next.slots[other]? = some slot ∧
    Scalar.totalLe r.depth slot.1.depth = true

theorem PushesOut.outlasted (h : s.PushesOut drift capacity deepest c place) {other : ℕ}
    {slot : Remembered α × Bool} (hother : other ≠ place) (hslot : s.slots[other]? = some slot)
    (hdeep : Scalar.totalLe r.depth slot.1.depth = true) :
    s.Outlasted (absorb poses drift capacity deepest s c) place r := by
  refine ⟨other, slot, hother, hslot, ?_, hdeep⟩
  rw [h.slots_absorb, List.getElem?_set_ne hother.symm]
  exact hslot

end Absorbing

namespace ContactMemory

variable {m : ContactMemory α} {a b : Participant α} {contacts : Contacts α} {n place : ℕ}
  {c : Contact α} {r kept : Remembered α}

/-- The place of the deepest contact that stayed is spared. -/
theorem spared?_eq_some (h : m.spared? a b = some place) :
    ∃ r, ((m.pairOf a b).surviving (Participant.orderedPoses a b) m.config.drift)[place]? =
        some r ∧
      ∀ q ∈ (m.pairOf a b).surviving (Participant.orderedPoses a b) m.config.drift,
        Scalar.totalLe q.depth r.depth = true :=
  PairMemory.deepestPlace?_eq_some h

theorem holdsSpared_absorbing (hroom : 2 ≤ (m.pairOf a b).capacity)
    (hspared : m.spared? a b = some place)
    (hkept : ((m.pairOf a b).surviving (Participant.orderedPoses a b) m.config.drift)[place]? =
      some kept) (contacts : Contacts α) :
    (m.absorbing a b contacts).HoldsSpared (Participant.orderedPoses a b) place kept
      (Participant.turned a b contacts) := by
  unfold spared? at hspared
  unfold absorbing PairMemory.absorbing
  rw [hspared]
  refine Absorbing.HoldsSpared.foldl ?_ hroom _
  rw [PairMemory.start_free]
  exact hkept

/-- A contact that an update pushes out is outlasted by the one at the spared place, unless nothing
stayed, or it is deeper than that one and one of the two is new. -/
theorem outlasted_cases (hroom : 2 ≤ (m.pairOf a b).capacity)
    (hc : (Participant.turned a b contacts)[n]? = some c)
    (hpushed : (m.absorbing a b (contacts.take n)).PushesOut m.config.drift (m.pairOf a b).capacity
      (m.spared? a b) c place) :
    let poses := Participant.orderedPoses a b
    let news := (Participant.turned a b contacts).take n
    let s := m.absorbing a b (contacts.take n)
    ∃ r taken, s.slots[place]? = some (r, taken) ∧
      (s.Outlasted (m.absorbing a b (contacts.take (n + 1))) place r ∨
        ((m.pairOf a b).surviving poses m.config.drift = [] ∧ r.IsNew poses news) ∨
        ∃ i slot, m.spared? a b = some i ∧ s.slots[i]? = some slot ∧
          Scalar.totalLe r.depth slot.1.depth = false ∧
          (r.IsNew poses news ∨ slot.1.IsNew poses news)) := by
  intro poses news s
  obtain ⟨r, hr⟩ := hpushed.isNearest
  obtain ⟨taken, hslot⟩ := hr.is_candidate.1
  have hnews : Participant.turned a b (contacts.take n) = news := by
    rw [Participant.turned_eq_map, List.map_take, ← Participant.turned_eq_map]
  have hmem : r ∈ (m.pairOf a b).surviving poses m.config.drift ∨ r.IsNew poses news :=
    hnews ▸ mem_slots_absorbing (List.mem_of_getElem? hslot)
  refine ⟨r, taken, hslot, ?_⟩
  rw [absorbing_take_succ hc]
  cases hspared : m.spared? a b with
  | none =>
    have hnone := PairMemory.deepestPlace?_eq_none hspared
    refine .inr (.inl ⟨hnone, hmem.resolve_left fun hstayed ↦ ?_⟩)
    rw [hnone] at hstayed
    cases hstayed
  | some i =>
    rw [hspared] at hpushed
    obtain ⟨kept, hkept, hmax⟩ := spared?_eq_some hspared
    have hne : i ≠ place := by
      rintro rfl
      exact hpushed.ne_spared hroom rfl
    obtain ⟨slot, hi, hslotnew⟩ : ∃ slot, s.slots[i]? = some slot ∧
        (slot.1 = kept ∨ slot.1.IsNew poses news) := by
      rcases holdsSpared_absorbing hroom hspared hkept (contacts.take n) with
        hfree | ⟨d, hd, htaken⟩
      · exact ⟨_, hfree, .inl rfl⟩
      · exact ⟨_, htaken, .inr ⟨d, hnews ▸ hd, rfl⟩⟩
    by_cases hdeep : Scalar.totalLe r.depth slot.1.depth = true
    · exact .inl (hpushed.outlasted hne hi hdeep)
    · refine .inr (.inr ⟨i, slot, rfl, hi, Bool.eq_false_iff.mpr hdeep, ?_⟩)
      rcases hmem with hstayed | hnew
      · -- Nothing that stayed is deeper than the contact that stayed at the spared place.
        refine .inr (hslotnew.resolve_left ?_)
        rintro rfl
        exact hdeep (hmax r hstayed)
      · exact .inl hnew

/-- The identity of the deepest contact that stayed is reported, with that contact or with a new
one. -/
theorem exists_reported_spared (hignores : m.ignores a b = false)
    (hroom : 2 ≤ (m.pairOf a b).capacity) (hspared : m.spared? a b = some place)
    (hkept : ((m.pairOf a b).surviving (Participant.orderedPoses a b) m.config.drift)[place]? =
      some kept) (contacts : Contacts α) :
    ∃ out ∈ (m.update a b contacts).1, out.id? = some kept.id ∧
      (out.position = kept.position ∧ out.depth = kept.depth ∨
        ∃ c ∈ contacts, out.position = c.position ∧ out.depth = c.depth) := by
  have hreport (slot : Remembered α × Bool) (hslot : slot ∈ (m.absorbing a b contacts).slots) :
      ∃ out ∈ (m.update a b contacts).1, out.id? = some slot.1.id ∧
        out.position = slot.1.position ∧ out.depth = slot.1.depth := by
    rw [update_fst hignores, Participant.turned_eq_map]
    refine ⟨_, List.mem_map_of_mem (List.mem_map_of_mem (List.mem_map_of_mem hslot)), ?_⟩
    split_ifs <;> exact ⟨rfl, rfl, rfl⟩
  rcases holdsSpared_absorbing hroom hspared hkept contacts with hfree | ⟨d, hd, htaken⟩
  · obtain ⟨out, hout, hid, hposition, hdepth⟩ := hreport _ (List.mem_of_getElem? hfree)
    exact ⟨out, hout, hid, .inl ⟨hposition, hdepth⟩⟩
  · obtain ⟨out, hout, hid, hposition, hdepth⟩ := hreport _ (List.mem_of_getElem? htaken)
    rw [Participant.turned_eq_map] at hd
    obtain ⟨c, hc, rfl⟩ := List.mem_map.mp hd
    refine ⟨out, hout, hid, .inr ⟨c, hc, ?_⟩⟩
    rw [hposition, hdepth]
    split_ifs <;> exact ⟨rfl, rfl⟩

/-- An update of two geoms in a memory that remembers contacts, after any calls, of a pair that has
room for two contacts at least.

A contact that a new one pushes out is outlasted: one that is at least as deep stays at another
place. There are two exceptions. Where no contact stayed before the first new one, the contact that
is pushed out is new; otherwise it may be deeper than the one at the spared place, and then one of
the two is new.

The place of the deepest contact that stayed is spared, and its identity is reported, with that
contact or with a new one. -/
theorem deepest_survivor_spared (config : MemoryConfig α) (henabled : config.enabled = true)
    (calls : List (Call α)) (a b : Participant α) (contacts : Contacts α)
    (hwanted : ¬(a.capacity = 0 ∧ b.capacity = 0))
    (hroom : 2 ≤ ((run config calls).pairOf a b).capacity) :
    let m := run config calls
    let poses := Participant.orderedPoses a b
    let stayed := (m.pairOf a b).surviving poses config.drift
    let news (n : ℕ) := (Participant.turned a b contacts).take n
    let after (n : ℕ) := m.absorbing a b (contacts.take n)
    (∀ n c place, (Participant.turned a b contacts)[n]? = some c →
      (after n).PushesOut config.drift (m.pairOf a b).capacity (m.spared? a b) c place →
      ∃ r taken, (after n).slots[place]? = some (r, taken) ∧
        ((after n).Outlasted (after (n + 1)) place r ∨
          (stayed = [] ∧ r.IsNew poses (news n)) ∨
          ∃ i slot, m.spared? a b = some i ∧ (after n).slots[i]? = some slot ∧
            Scalar.totalLe r.depth slot.1.depth = false ∧
            (r.IsNew poses (news n) ∨ slot.1.IsNew poses (news n)))) ∧
      (stayed ≠ [] → ∃ i kept, m.spared? a b = some i ∧ stayed[i]? = some kept ∧
        (∀ q ∈ stayed, Scalar.totalLe q.depth kept.depth = true) ∧
        ∃ out ∈ (m.update a b contacts).1, out.id? = some kept.id ∧
          (out.position = kept.position ∧ out.depth = kept.depth ∨
            ∃ c ∈ contacts, out.position = c.position ∧ out.depth = c.depth)) := by
  intro m poses stayed news after
  have hconfig : m.config = config := run_config config calls
  have hignores : m.ignores a b = false :=
    (ignores_eq_false_iff (hconfig.symm ▸ henabled)).mpr hwanted
  constructor
  · intro n c place hc hpushed
    have hcases := outlasted_cases hroom hc (by rw [hconfig]; exact hpushed)
    rw [hconfig] at hcases
    exact hcases
  · intro hstayed
    cases hspared : m.spared? a b with
    | none =>
      have hnone := PairMemory.deepestPlace?_eq_none hspared
      rw [hconfig] at hnone
      exact absurd hnone hstayed
    | some i =>
      obtain ⟨kept, hkept, hmax⟩ := spared?_eq_some hspared
      have hreported := exists_reported_spared hignores hroom hspared hkept contacts
      rw [hconfig] at hkept hmax
      exact ⟨i, kept, rfl, hkept, hmax, hreported⟩

/-- A deep contact and a shallow one fill a pair. A new contact near the deep one pushes out the
shallow one, and the identity of the deep one is reported. -/
theorem deepest_survivor_spared_of_two_contacts :
    let first : Participant Float := ⟨0, .identity, 2⟩
    let second : Participant Float := ⟨1, .identity, 2⟩
    let contact (x depth : Float) : Contact Float := ⟨⟨x, 0, 0⟩, ⟨0, 0, 1⟩, depth, none⟩
    let m := run .standard [.update first second [contact 0 1, contact 1 0.1]]
    let contacts := [contact 0.25 0.5]
    2 ≤ (m.pairOf first second).capacity ∧ ¬(first.capacity = 0 ∧ second.capacity = 0) ∧
      (m.absorbing first second []).PushesOut MemoryConfig.standard.drift
        (m.pairOf first second).capacity (m.spared? first second) (contact 0.25 0.5) 1 ∧
      (∃ r, (m.absorbing first second []).Outlasted (m.absorbing first second contacts) 1 r) ∧
      ∃ out ∈ (m.update first second contacts).1, out.id? = some 0 := by
  intro first second contact m contacts
  have hroom : 2 ≤ (m.pairOf first second).capacity := by decide +kernel
  have hwanted : ¬(first.capacity = 0 ∧ second.capacity = 0) := by decide
  have hpushed : (m.absorbing first second []).PushesOut MemoryConfig.standard.drift
      (m.pairOf first second).capacity (m.spared? first second) (contact 0.25 0.5) 1 :=
    Absorbing.placement_eq_replaces_iff.mp (by decide +kernel)
  obtain ⟨hcases, hreported⟩ := deepest_survivor_spared .standard rfl
    [.update first second [contact 0 1, contact 1 0.1]] first second contacts hwanted hroom
  refine ⟨hroom, hwanted, hpushed, ?_, ?_⟩
  · obtain ⟨r, taken, -, houtlasted | hnew | ⟨i, slot, -, -, -, hnew⟩⟩ := hcases 0 _ 1 rfl hpushed
    · exact ⟨r, houtlasted⟩
    · obtain ⟨d, hd, -⟩ := hnew.2
      cases hd
    · rcases hnew with ⟨d, hd, -⟩ | ⟨d, hd, -⟩ <;> cases hd
  · obtain ⟨i, kept, hspared, hkept, -, out, hout, hid, -⟩ := hreported (by
      intro hnone
      exact absurd (congrArg List.length hnone) (by decide +kernel))
    refine ⟨out, hout, hid.trans ?_⟩
    have hplace : m.spared? first second = some 0 := by decide +kernel
    obtain rfl := Option.some_inj.mp (hspared.symm.trans hplace)
    exact (congrArg (Option.map Remembered.id) hkept).symm.trans (by decide +kernel)

/-- Nothing is remembered of a pair with room for two. The first new contact is the deepest, and the
third one, which is nearer to it than to the second, pushes it out: nothing as deep is reported. -/
theorem deepest_pushed_out :
    let first : Participant Float := ⟨0, .identity, 2⟩
    let second : Participant Float := ⟨1, .identity, 2⟩
    let contact (x depth : Float) : Contact Float := ⟨⟨x, 0, 0⟩, ⟨0, 0, 1⟩, depth, none⟩
    let m := run .standard []
    let s := m.absorbing first second [contact 0 1, contact 1 0.1]
    s.slots.length = 2 ∧
      s.PushesOut MemoryConfig.standard.drift (m.pairOf first second).capacity
        (m.spared? first second) (contact 0.25 0.5) 0 ∧
      (∃ r taken, s.slots[0]? = some (r, taken) ∧
        ∀ slot ∈ s.slots.tail, Scalar.totalLe r.depth slot.1.depth = false) ∧
      ∀ out ∈ (m.update first second [contact 0 1, contact 1 0.1, contact 0.25 0.5]).1,
        Scalar.totalLe 1 out.depth = false := by
  intro first second contact m s
  have hothers : ∀ slot ∈ s.slots.tail, Scalar.totalLe 1 slot.1.depth = false := by
    decide +kernel
  exact ⟨by decide +kernel, Absorbing.placement_eq_replaces_iff.mp (by decide +kernel),
    ⟨_, _, rfl, hothers⟩, by decide +kernel⟩

end ContactMemory

end Collision
