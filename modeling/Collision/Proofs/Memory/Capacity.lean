import Collision.Proofs.Memory.Identity

/-!
# The capacity of remembered pairs

A pair is founded by an update before which nothing was remembered of it, and for how many contacts
there is room was agreed on then: `ContactMemory.Founded` says so of the calls alone, and
`ContactMemory.founded_iff` that the memory keeps that number for as long as it remembers the pair.
No update makes a pair larger than that (`Absorbing.length_foldl_absorb_le`), so after any calls
every pair has room for its contacts (`ContactMemory.roomy_run`).

* `ContactMemory.contacts_within_founding_capacity` bounds what an update reports and remembers by
  what the founding update agreed on. What the geoms want later does not count: a pair that was
  founded for two contacts reports two to geoms that have come to want one
  (`ContactMemory.contacts_beyond_later_wish`).
-/

set_option autoImplicit false
set_option relaxedAutoImplicit false

namespace Collision

variable {α : Type} [Scalar α]

/-! ### Room in one pair -/

namespace Absorbing

variable {s : Absorbing α} {poses : PosePair α} {drift : α} {capacity : ℕ} {deepest : Option ℕ}

/-- A new contact gets a slot of its own only while there is room. -/
theorem length_absorb_le (h : s.slots.length ≤ capacity) (c : Contact α) :
    (absorb poses drift capacity deepest s c).slots.length ≤ capacity := by
  unfold absorb
  cases hplacement : s.placement drift capacity deepest c with
  | takesOver place => exact Nat.le_trans (Nat.le_of_eq (List.length_modify ..)) h
  | atEnd =>
    show (s.slots ++ [_]).length ≤ capacity
    rw [List.length_append, List.length_singleton]
    exact (placement_eq_atEnd_iff.mp hplacement).2
  | replaces place => exact Nat.le_trans (Nat.le_of_eq List.length_set) h
  | dropped => exact h

theorem length_foldl_absorb_le (h : s.slots.length ≤ capacity) (contacts : Contacts α) :
    (contacts.foldl (absorb poses drift capacity deepest) s).slots.length ≤ capacity := by
  induction contacts generalizing s with
  | nil => exact h
  | cons c rest ih => exact ih (length_absorb_le h c)

end Absorbing

namespace ContactMemory

variable {m : ContactMemory α} {a b : Participant α} {key : GeomId × GeomId}

/-! ### Room in all pairs -/

/-- Every pair has room for the contacts that are remembered of it. -/
def Roomy (m : ContactMemory α) : Prop :=
  ∀ key pair, m.get? key = some pair → pair.contacts.length ≤ pair.capacity

omit [Scalar α] in
theorem Roomy.pairOf (hm : m.Roomy) (a b : Participant α) :
    (m.pairOf a b).contacts.length ≤ (m.pairOf a b).capacity := by
  unfold ContactMemory.pairOf
  cases hget : m.get? (orderedPair a.id b.id) with
  | none => exact Nat.zero_le _
  | some pair => exact hm _ pair hget

/-- An update stays within the capacity of the pair. -/
theorem Roomy.length_absorbing_le (hm : m.Roomy) (a b : Participant α) (contacts : Contacts α) :
    (m.absorbing a b contacts).slots.length ≤ (m.pairOf a b).capacity := by
  refine Absorbing.length_foldl_absorb_le ?_ _
  show (List.map _ ((m.pairOf a b).surviving _ _)).length ≤ _
  rw [List.length_map]
  exact Nat.le_trans (List.length_filter_le _ _) (hm.pairOf a b)

theorem Roomy.step (hm : m.Roomy) (hkeyed : m.Keyed) (call : Call α) : (m.step call).Roomy := by
  intro key next h
  rcases get?_step_cases hkeyed h with
    ⟨pair, hpair, hcontacts, hcapacity⟩ | ⟨a, b, contacts, -, -, -, hcontacts, hcapacity⟩
  · rw [hcontacts, hcapacity]
    exact hm key pair hpair
  · rw [hcontacts, hcapacity, List.length_map]
    exact hm.length_absorbing_le a b contacts

theorem roomy_run (config : MemoryConfig α) (calls : List (Call α)) : (run config calls).Roomy :=
  run_induction (motive := fun _ m ↦ m.Roomy) nofun
    (fun calls call ih ↦ ih.step (keyed_run config calls) call) calls

/-! ### Founding updates -/

/-- The geoms of a pair agreed on a capacity in the update that founded what the calls leave
remembered of it. -/
inductive Founded (config : MemoryConfig α) (key : GeomId × GeomId) :
    List (Call α) → ℕ → Prop where
  /-- Nothing was remembered of the pair before the update. -/
  | new {calls : List (Call α)} {a b : Participant α} {contacts : Contacts α}
      (hkey : orderedPair a.id b.id = key)
      (hbefore : (run config calls).get? key = none)
      (hafter : ((run config (calls ++ [.update a b contacts])).get? key).isSome = true) :
      Founded config key (calls ++ [.update a b contacts]) (agreedCapacity a.capacity b.capacity)
  /-- The pair is still remembered after one more call. -/
  | kept {calls : List (Call α)} {call : Call α} {capacity : ℕ}
      (hfounded : Founded config key calls capacity)
      (hafter : ((run config (calls ++ [call])).get? key).isSome = true) :
      Founded config key (calls ++ [call]) capacity

variable {config : MemoryConfig α} {calls : List (Call α)} {capacity : ℕ}

omit [Scalar α] in
theorem pairOf_capacity_of_none (h : m.get? (orderedPair a.id b.id) = none) :
    (m.pairOf a b).capacity = agreedCapacity a.capacity b.capacity := by
  rw [pairOf, h]
  rfl

omit [Scalar α] in
theorem pairOf_of_get? {pair : PairMemory α} (h : m.get? (orderedPair a.id b.id) = some pair) :
    m.pairOf a b = pair := by
  rw [pairOf, h]
  rfl

/-- A pair that outlives a call keeps its capacity. -/
theorem capacity_step (hkeyed : m.Keyed) {call : Call α} {pair next : PairMemory α}
    (hpair : m.get? key = some pair) (hnext : (m.step call).get? key = some next) :
    next.capacity = pair.capacity := by
  rcases get?_step_cases hkeyed hnext with
    ⟨other, hother, -, hcapacity⟩ | ⟨a, b, contacts, -, -, rfl, -, hcapacity⟩
  · obtain rfl := Option.some_inj.mp (hpair.symm.trans hother)
    exact hcapacity
  · rwa [pairOf_of_get? hpair] at hcapacity

/-- A pair that a call makes known was founded by an update, with the capacity agreed on there. -/
theorem capacity_step_of_none (hkeyed : m.Keyed) {call : Call α} {next : PairMemory α}
    (hnone : m.get? key = none) (hnext : (m.step call).get? key = some next) :
    ∃ a b contacts, call = .update a b contacts ∧ orderedPair a.id b.id = key ∧
      next.capacity = agreedCapacity a.capacity b.capacity := by
  rcases get?_step_cases hkeyed hnext with
    ⟨other, hother, -⟩ | ⟨a, b, contacts, hcall, -, rfl, -, hcapacity⟩
  · cases hnone.symm.trans hother
  · exact ⟨a, b, contacts, hcall, rfl, hcapacity.trans (pairOf_capacity_of_none hnone)⟩

theorem Founded.capacity_eq (h : Founded config key calls capacity) :
    ∃ pair, (run config calls).get? key = some pair ∧ pair.capacity = capacity := by
  induction h with
  | new hkey hbefore hafter =>
    obtain ⟨next, hnext⟩ := Option.isSome_iff_exists.mp hafter
    refine ⟨next, hnext, ?_⟩
    rw [run_concat] at hnext
    obtain ⟨c, d, contacts, hcall, -, hcapacity⟩ :=
      capacity_step_of_none (keyed_run config _) hbefore hnext
    obtain ⟨rfl, rfl, rfl⟩ := Call.update.inj hcall
    exact hcapacity
  | kept hfounded hafter ih =>
    obtain ⟨pair, hpair, rfl⟩ := ih
    obtain ⟨next, hnext⟩ := Option.isSome_iff_exists.mp hafter
    refine ⟨next, hnext, ?_⟩
    rw [run_concat] at hnext
    exact capacity_step (keyed_run config _) hpair hnext

/-- The memory keeps the capacity that was agreed on when a pair was founded. -/
theorem founded_iff : Founded config key calls capacity ↔
    ∃ pair, (run config calls).get? key = some pair ∧ pair.capacity = capacity := by
  refine ⟨Founded.capacity_eq, ?_⟩
  rintro ⟨pair, hpair, rfl⟩
  induction calls using List.reverseRecOn generalizing pair with
  | nil => cases hpair
  | append_singleton calls call ih =>
    have hafter := Option.isSome_iff_exists.mpr ⟨pair, hpair⟩
    rw [run_concat] at hpair
    rcases hbefore : (run config calls).get? key with _ | earlier
    · obtain ⟨a, b, contacts, rfl, hkey, hcapacity⟩ :=
        capacity_step_of_none (keyed_run config calls) hbefore hpair
      rw [hcapacity]
      exact .new hkey hbefore hafter
    · rw [capacity_step (keyed_run config calls) hbefore hpair]
      exact .kept (ih earlier hbefore) hafter

/-! ### Updates -/

/-- A memory that remembers contacts, after any calls, and an update of two geoms of which one at
least wants contacts remembered. Some update founded the pair, this one if nothing was remembered of
it; and what this update reports and what it leaves remembered are at most as many contacts as the
geoms agreed on in the founding update. -/
theorem contacts_within_founding_capacity (config : MemoryConfig α)
    (henabled : config.enabled = true) (calls : List (Call α)) (a b : Participant α)
    (contacts : Contacts α) (hwanted : ¬(a.capacity = 0 ∧ b.capacity = 0)) :
    let m := run config calls
    let key := orderedPair a.id b.id
    let founded := Founded config key (calls ++ [.update a b contacts])
    (∃ capacity, founded capacity) ∧
      (m.get? key = none → founded (agreedCapacity a.capacity b.capacity)) ∧
      ∀ capacity, founded capacity → (m.update a b contacts).1.length ≤ capacity ∧
        ∃ pair, (m.update a b contacts).2.get? key = some pair ∧
          pair.contacts.length ≤ capacity := by
  intro m key founded
  have hconfig : m.config = config := run_config config calls
  have hignores : m.ignores a b = false :=
    (ignores_eq_false_iff (hconfig.symm ▸ henabled)).mpr hwanted
  have hget := get?_update hignores contacts key
  rw [if_pos rfl] at hget
  have hrun : run config (calls ++ [.update a b contacts]) = (m.update a b contacts).2 :=
    run_concat config calls _
  have hfounded (capacity : ℕ) : founded capacity ↔ (m.pairOf a b).capacity = capacity := by
    have hiff : founded capacity ↔ _ := founded_iff
    rw [hiff, hrun, hget]
    simp [PairMemory.update]
  have hreported : (m.update a b contacts).1.length = (m.absorbing a b contacts).slots.length := by
    rw [update_fst hignores, Participant.turned_eq_map, List.length_map, List.length_map,
      List.length_map]
  have hroom := (roomy_run config calls).length_absorbing_le a b contacts
  refine ⟨⟨_, (hfounded _).mpr rfl⟩, fun hnone ↦ ?_, fun capacity hcapacity ↦ ?_⟩
  · exact (hfounded _).mpr (pairOf_capacity_of_none hnone)
  · rw [← (hfounded capacity).mp hcapacity]
    refine ⟨hreported ▸ hroom, _, hget, ?_⟩
    show (List.map _ _).length ≤ _
    rw [List.length_map]
    exact hroom

/-- Two geoms that agree on two contacts and want five later get two. -/
theorem contacts_within_founding_capacity_of_two :
    let config : MemoryConfig Float := .standard
    let geom (id capacity : ℕ) : Participant Float := ⟨id, .identity, capacity⟩
    let contact (x : Float) : Contact Float := ⟨⟨x, 0, 0⟩, ⟨0, 0, 1⟩, 1, none⟩
    let calls : List (Call Float) := [.update (geom 0 3) (geom 1 2) [contact 0], .maintain]
    let contacts := [contact 0, contact 1, contact 2]
    config.enabled = true ∧ ¬((geom 1 5).capacity = 0 ∧ (geom 0 5).capacity = 0) ∧
      Founded config (0, 1) (calls ++ [.update (geom 1 5) (geom 0 5) contacts]) 2 ∧
      ((run config calls).update (geom 1 5) (geom 0 5) contacts).1.length ≤ 2 := by
  intro config geom contact calls contacts
  have hnew : Founded config (0, 1) ([] ++ [.update (geom 0 3) (geom 1 2) [contact 0]]) 2 :=
    .new rfl rfl (by decide +kernel)
  have hidle : Founded config (0, 1) calls 2 := hnew.kept (by decide +kernel)
  have hfounded : Founded config (0, 1) (calls ++ [.update (geom 1 5) (geom 0 5) contacts]) 2 :=
    hidle.kept (by decide +kernel)
  obtain ⟨-, -, hbound⟩ := contacts_within_founding_capacity config rfl calls (geom 1 5)
    (geom 0 5) contacts (by decide)
  exact ⟨rfl, by decide, hfounded, (hbound 2 hfounded).1⟩

/-- Two geoms agree on two contacts and come to want one: the update in which they say so reports
two. -/
theorem contacts_beyond_later_wish :
    let geom (id capacity : ℕ) : Participant Float := ⟨id, .identity, capacity⟩
    let contact (x : Float) : Contact Float := ⟨⟨x, 0, 0⟩, ⟨0, 0, 1⟩, 0.1, none⟩
    let m := run .standard [.update (geom 0 2) (geom 1 2) [contact 0]]
    let updated := m.update (geom 0 1) (geom 1 1) [contact 0, contact 1]
    agreedCapacity (geom 0 1).capacity (geom 1 1).capacity = 1 ∧ updated.1.length = 2 ∧
      (updated.2.get? (0, 1)).map (fun pair ↦ pair.contacts.length) = some 2 := by
  decide +kernel

end ContactMemory

end Collision
