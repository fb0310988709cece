import Collision.Proofs.Memory.Absorb
import Collision.Proofs.Memory.Table

/-!
# Identities along a run

`ContactMemory.get?_step_cases` says what a call can do to the contacts of a pair: it leaves them
alone, forgets them, or is the update that absorbs new ones. Along the calls of a run the identities
that a pair remembers stay distinct, and the next identity is larger than all of them
(`ContactMemory.sound_run`); it is larger than every identity that a contact had at any moment of
any update, whether or not that contact outlived the update (`ContactMemory.Issued.lt_nextId`).

`ContactMemory.Recorded` is a remembered contact with an update that it may come from;
`ContactMemory.exists_recorded` says that every remembered contact comes from one.
-/

set_option autoImplicit false
set_option relaxedAutoImplicit false

namespace Collision

variable {α : Type} [Scalar α]

namespace Absorbing

variable {s : Absorbing α} {poses : PosePair α} {drift : α} {capacity : ℕ} {deepest : Option ℕ}

/-! ### All new contacts of an update -/

theorem Distinct.foldl (hs : s.Distinct) (contacts : Contacts α) :
    (contacts.foldl (Absorbing.absorb poses drift capacity deepest) s).Distinct := by
  induction contacts generalizing s with
  | nil => exact hs
  | cons c rest ih => exact ih (hs.absorb c)

theorem nextId_le_foldl (s : Absorbing α) (contacts : Contacts α) :
    s.nextId ≤ (contacts.foldl (absorb poses drift capacity deepest) s).nextId := by
  induction contacts generalizing s with
  | nil => exact Nat.le_refl _
  | cons c rest ih => exact Nat.le_trans (nextId_le_absorb s poses drift capacity deepest c) (ih _)

/-- A slot after a new contact is a slot from before, or has the new contact. -/
theorem mem_absorb {c : Contact α} {slot : Remembered α × Bool}
    (h : slot ∈ (absorb poses drift capacity deepest s c).slots) :
    slot ∈ s.slots ∨ ∃ id, slot.1 = .ofContact poses id c := by
  unfold absorb at h
  cases hplacement : s.placement drift capacity deepest c with
  | takesOver place =>
    rw [hplacement] at h
    obtain ⟨i, hi⟩ := List.mem_iff_getElem?.mp h
    simp only [put, takeOver, List.getElem?_modify] at hi
    obtain ⟨old, hold, rfl⟩ := Option.map_eq_some_iff.mp hi
    by_cases hplace : place = i
    · exact .inr ⟨old.1.id, by rw [if_pos hplace]⟩
    · rw [if_neg hplace]
      exact .inl (List.mem_of_getElem? hold)
  | atEnd =>
    rw [hplacement] at h
    rcases List.mem_append.mp h with h | h
    · exact .inl h
    · exact .inr ⟨s.nextId, by rw [List.mem_singleton.mp h]⟩
  | replaces place =>
    rw [hplacement] at h
    rcases List.mem_or_eq_of_mem_set h with h | rfl
    · exact .inl h
    · exact .inr ⟨s.nextId, rfl⟩
  | dropped =>
    rw [hplacement] at h
    exact .inl h

theorem mem_foldl_absorb {contacts : Contacts α} {slot : Remembered α × Bool}
    (h : slot ∈ (contacts.foldl (absorb poses drift capacity deepest) s).slots) :
    slot ∈ s.slots ∨ ∃ c ∈ contacts, ∃ id, slot.1 = .ofContact poses id c := by
  induction contacts generalizing s with
  | nil => exact .inl h
  | cons c rest ih =>
    rcases ih h with h | ⟨d, hd, hslot⟩
    · rcases mem_absorb h with h | hslot
      · exact .inl h
      · exact .inr ⟨c, List.mem_cons_self, hslot⟩
    · exact .inr ⟨d, List.mem_cons_of_mem c hd, hslot⟩

end Absorbing

namespace Participant

/-- Contacts are turned one by one. -/
theorem turned_eq_map (a b : Participant α) (contacts : Contacts α) :
    turned a b contacts = contacts.map fun c ↦ if swapped a b then c.flipped else c := by
  unfold turned Contacts.flipped
  split_ifs
  · rfl
  · exact (List.map_id contacts).symm

theorem turned_append (a b : Participant α) (contacts rest : Contacts α) :
    turned a b (contacts ++ rest) = turned a b contacts ++ turned a b rest := by
  rw [turned_eq_map, turned_eq_map, turned_eq_map, List.map_append]

end Participant

/-- The contacts that stay are the remembered ones that neither geom has carried out of reach. -/
@[simp] theorem PairMemory.mem_surviving {m : PairMemory α} {poses : PosePair α} {drift : α}
    {r : Remembered α} :
    r ∈ m.surviving poses drift ↔ r ∈ m.contacts ∧
      (poses.first.transformPoint r.inFirst - r.position).norm ≤ drift ∧
      (poses.second.transformPoint r.inSecond - r.position).norm ≤ drift := by
  simp [surviving, Remembered.stays]

theorem PairMemory.start_ids (m : PairMemory α) (poses : PosePair α) (drift : α)
    (nextId : ContactId) :
    (m.start poses drift nextId).ids = (m.surviving poses drift).map Remembered.id := by
  simp [start, Absorbing.ids]

theorem PairMemory.start_free (m : PairMemory α) (poses : PosePair α) (drift : α)
    (nextId : ContactId) :
    (m.start poses drift nextId).Free = fun i r ↦ (m.surviving poses drift)[i]? = some r := by
  funext i r
  simp [start, Absorbing.Free, List.getElem?_map]

namespace ContactMemory

/-! ### One call -/

/-- An update after some of its new contacts. -/
def absorbing (m : ContactMemory α) (a b : Participant α) (contacts : Contacts α) : Absorbing α :=
  (m.pairOf a b).absorbing (Participant.orderedPoses a b) m.config.drift m.nextId
    (Participant.turned a b contacts)

/-- The place that an update spares when the pair is full: that of the deepest contact that
stayed. -/
def spared? (m : ContactMemory α) (a b : Participant α) : Option ℕ :=
  PairMemory.deepestPlace?
    ((m.pairOf a b).surviving (Participant.orderedPoses a b) m.config.drift)

variable {m : ContactMemory α} {a b : Participant α} {key : GeomId × GeomId}

/-- An update reports what it made of its contacts. -/
theorem update_fst (h : m.ignores a b = false) (contacts : Contacts α) :
    (m.update a b contacts).1 = Participant.turned a b
      (((m.absorbing a b contacts).slots.map Prod.fst).map Remembered.contact) := by
  unfold update
  rw [h]
  rfl

theorem update_nextId (h : m.ignores a b = false) (contacts : Contacts α) :
    (m.update a b contacts).2.nextId = (m.absorbing a b contacts).nextId := by
  unfold update
  rw [h]
  rfl

omit [Scalar α] in
theorem pairOf_contacts {r : Remembered α} (hr : r ∈ (m.pairOf a b).contacts) :
    m.get? (orderedPair a.id b.id) = some (m.pairOf a b) := by
  unfold pairOf at hr ⊢
  rcases hget : m.get? (orderedPair a.id b.id) with _ | pair
  · rw [hget] at hr
    exact absurd hr List.not_mem_nil
  · rfl

/-- What is remembered of a pair after a call are the contacts from before, or the call is an update
of the pair and they are what it made of its new contacts. The capacity stays as it was. -/
theorem get?_step_cases (hkeyed : m.Keyed) {call : Call α} {next : PairMemory α}
    (h : (m.step call).get? key = some next) :
    (∃ pair, m.get? key = some pair ∧ next.contacts = pair.contacts ∧
        next.capacity = pair.capacity) ∨
      ∃ a b contacts, call = .update a b contacts ∧ m.ignores a b = false ∧
        key = orderedPair a.id b.id ∧
        next.contacts = (m.absorbing a b contacts).slots.map Prod.fst ∧
        next.capacity = (m.pairOf a b).capacity := by
  cases call with
  | update a b contacts =>
    replace h : (m.update a b contacts).2.get? key = some next := h
    rcases hignores : m.ignores a b with _ | _
    · rw [get?_update hignores] at h
      split_ifs at h with hkey
      · obtain rfl := Option.some_inj.mp h
        exact .inr ⟨a, b, contacts, rfl, hignores, hkey, rfl, rfl⟩
      · exact .inl ⟨next, h, rfl, rfl⟩
    · rw [update_ignored hignores] at h
      exact .inl ⟨next, h, rfl, rfl⟩
  | maintain =>
    replace h : m.maintain.2.get? key = some next := h
    rw [get?_maintain hkeyed] at h
    obtain ⟨pair, hpair, hnext⟩ := Option.bind_eq_some_iff.mp h
    exact .inl ⟨pair, hpair, PairMemory.maintained?_contacts hnext⟩
  | removeGeom id =>
    replace h : (m.removeGeom id).get? key = some next := h
    rw [get?_removeGeom] at h
    split_ifs at h
    exact .inl ⟨next, h, rfl, rfl⟩
  | clear => cases (get?_clear m key).symm.trans h

theorem nextId_le_step (m : ContactMemory α) (call : Call α) : m.nextId ≤ (m.step call).nextId := by
  cases call with
  | update a b contacts =>
    show m.nextId ≤ (m.update a b contacts).2.nextId
    rcases hignores : m.ignores a b with _ | _
    · rw [update_nextId hignores]
      exact Absorbing.nextId_le_foldl ((m.pairOf a b).start _ m.config.drift m.nextId) _
    · exact Nat.le_of_eq (by rw [update_ignored hignores])
  | maintain => exact Nat.le_refl _
  | removeGeom id => exact Nat.le_refl _
  | clear => exact Nat.le_refl _

/-! ### Sound memories -/

/-- The identities that a pair remembers differ, and were given out. -/
structure Sound (m : ContactMemory α) : Prop where
  nodup : ∀ key pair, m.get? key = some pair → (pair.contacts.map Remembered.id).Nodup
  lt_nextId : ∀ key pair, m.get? key = some pair → ∀ r ∈ pair.contacts, r.id < m.nextId

theorem Sound.start_distinct (hm : m.Sound) (a b : Participant α) (poses : PosePair α) (drift : α) :
    ((m.pairOf a b).start poses drift m.nextId).Distinct := by
  have hnodup : ((m.pairOf a b).contacts.map Remembered.id).Nodup := by
    unfold pairOf
    rcases hget : m.get? (orderedPair a.id b.id) with _ | pair
    · exact List.nodup_nil
    · exact hm.nodup _ pair hget
  constructor
  · rw [PairMemory.start_ids]
    exact hnodup.sublist (List.filter_sublist.map Remembered.id)
  · intro id hid
    rw [PairMemory.start_ids] at hid
    obtain ⟨r, hr, rfl⟩ := List.mem_map.mp hid
    have hr : r ∈ (m.pairOf a b).contacts := (List.mem_filter.mp hr).1
    exact hm.lt_nextId _ _ (pairOf_contacts hr) r hr

theorem Sound.absorbing_distinct (hm : m.Sound) (a b : Participant α) (contacts : Contacts α) :
    (m.absorbing a b contacts).Distinct :=
  (hm.start_distinct a b _ _).foldl _

theorem Sound.step (hm : m.Sound) (hkeyed : m.Keyed) (call : Call α) : (m.step call).Sound := by
  constructor
  · intro key next h
    rcases get?_step_cases hkeyed h with ⟨pair, hpair, hsame, -⟩ | ⟨a, b, contacts, -, -, -, hnew, -⟩
    · rw [hsame]
      exact hm.nodup key pair hpair
    · rw [hnew, List.map_map]
      exact (hm.absorbing_distinct a b contacts).nodup
  · intro key next h r hr
    rcases get?_step_cases hkeyed h with
      ⟨pair, hpair, hsame, -⟩ | ⟨a, b, contacts, rfl, hignores, -, hnew, -⟩
    · rw [hsame] at hr
      exact Nat.lt_of_lt_of_le (hm.lt_nextId key pair hpair r hr) (nextId_le_step m call)
    · rw [hnew] at hr
      obtain ⟨slot, hslot, rfl⟩ := List.mem_map.mp hr
      have hlt := (hm.absorbing_distinct a b contacts).lt_nextId _
        (List.mem_map_of_mem (f := fun slot ↦ slot.1.id) hslot)
      rwa [← update_nextId hignores] at hlt

theorem sound_run (config : MemoryConfig α) (calls : List (Call α)) : (run config calls).Sound :=
  run_induction (motive := fun _ m ↦ m.Sound) ⟨nofun, nofun⟩
    (fun calls call ih ↦ ih.step (keyed_run config calls) call) calls

/-! ### Identities given out -/

theorem nextId_le_foldl_step (m : ContactMemory α) (calls : List (Call α)) :
    m.nextId ≤ (calls.foldl step m).nextId := by
  induction calls generalizing m with
  | nil => exact Nat.le_refl _
  | cons call rest ih => exact Nat.le_trans (nextId_le_step m call) (ih _)

/-- A contact had the identity at some moment of an update, after some of its new contacts. -/
def Issued (config : MemoryConfig α) (calls : List (Call α)) (id : ContactId) : Prop :=
  ∃ before a b contacts since n, calls = before ++ .update a b contacts :: since ∧
    (run config before).ignores a b = false ∧
    id ∈ ((run config before).absorbing a b (contacts.take n)).ids

/-- An update goes on with the contacts that are left after some of them. -/
theorem absorbing_append (m : ContactMemory α) (a b : Participant α) (contacts rest : Contacts α) :
    m.absorbing a b (contacts ++ rest) = (Participant.turned a b rest).foldl
      (Absorbing.absorb (Participant.orderedPoses a b) m.config.drift (m.pairOf a b).capacity
        (m.spared? a b)) (m.absorbing a b contacts) := by
  unfold absorbing PairMemory.absorbing
  rw [Participant.turned_append, List.foldl_append]
  rfl

/-- An identity that was given out is not given out again. -/
theorem Issued.lt_nextId {config : MemoryConfig α} {calls : List (Call α)} {id : ContactId}
    (h : Issued config calls id) : id < (run config calls).nextId := by
  obtain ⟨before, a, b, contacts, since, n, rfl, hignores, hid⟩ := h
  have hrun : run config (before ++ .update a b contacts :: since) =
      since.foldl step ((run config before).update a b contacts).2 := by
    unfold run
    rw [List.foldl_append, List.foldl_cons]
    rfl
  have hmoment :=
    ((sound_run config before).absorbing_distinct a b (contacts.take n)).lt_nextId id hid
  have hupdate : ((run config before).absorbing a b (contacts.take n)).nextId ≤
      ((run config before).absorbing a b contacts).nextId := by
    conv_rhs => rw [← List.take_append_drop n contacts, absorbing_append]
    exact Absorbing.nextId_le_foldl _ _
  rw [hrun]
  refine Nat.lt_of_lt_of_le hmoment (Nat.le_trans hupdate ?_)
  rw [← update_nextId hignores]
  exact nextId_le_foldl_step _ since

/-! ### Where remembered contacts come from -/

/-- A remembered contact is one of the new contacts of an update of its pair, found at the given
poses. -/
def Recorded (config : MemoryConfig α) (calls : List (Call α)) (key : GeomId × GeomId)
    (r : Remembered α) (poses : PosePair α) : Prop :=
  ∃ before a b contacts since, calls = before ++ .update a b contacts :: since ∧
    (run config before).ignores a b = false ∧
    orderedPair a.id b.id = key ∧ Participant.orderedPoses a b = poses ∧
    ∃ c ∈ Participant.turned a b contacts, r = .ofContact poses r.id c

theorem Recorded.concat {config : MemoryConfig α} {calls : List (Call α)} {r : Remembered α}
    {poses : PosePair α} (h : Recorded config calls key r poses) (call : Call α) :
    Recorded config (calls ++ [call]) key r poses := by
  obtain ⟨before, a, b, contacts, since, rfl, hrecorded⟩ := h
  exact ⟨before, a, b, contacts, since ++ [call], by simp, hrecorded⟩

/-- The contacts in an update are those that stayed or new ones. -/
theorem mem_slots_absorbing {contacts : Contacts α} {slot : Remembered α × Bool}
    (h : slot ∈ (m.absorbing a b contacts).slots) :
    slot.1 ∈ (m.pairOf a b).surviving (Participant.orderedPoses a b) m.config.drift ∨
      ∃ c ∈ Participant.turned a b contacts,
        slot.1 = .ofContact (Participant.orderedPoses a b) slot.1.id c := by
  rcases Absorbing.mem_foldl_absorb h with hstart | ⟨c, hc, id, hnew⟩
  · obtain ⟨r, hr, rfl⟩ := List.mem_map.mp hstart
    exact .inl hr
  · exact .inr ⟨c, hc, by rw [hnew]; rfl⟩

/-- The contacts of a pair after an update of it are remembered ones or new ones. -/
theorem mem_absorbing {contacts : Contacts α} {r : Remembered α}
    (h : r ∈ (m.absorbing a b contacts).slots.map Prod.fst) :
    r ∈ (m.pairOf a b).contacts ∨ ∃ c ∈ Participant.turned a b contacts,
      r = .ofContact (Participant.orderedPoses a b) r.id c := by
  obtain ⟨slot, hslot, rfl⟩ := List.mem_map.mp h
  exact (mem_slots_absorbing hslot).imp_left fun hstayed ↦ (List.mem_filter.mp hstayed).1

/-- Every remembered contact was recorded by an update of its pair. -/
theorem exists_recorded (config : MemoryConfig α) (calls : List (Call α)) :
    ∀ key pair, (run config calls).get? key = some pair → ∀ r ∈ pair.contacts,
      ∃ poses, Recorded config calls key r poses := by
  refine run_induction (motive := fun calls m ↦ ∀ key pair, m.get? key = some pair →
    ∀ r ∈ pair.contacts, ∃ poses, Recorded config calls key r poses) nofun ?_ calls
  intro calls call ih key next hget r hr
  rcases get?_step_cases (keyed_run config calls) hget with
    ⟨pair, hpair, hsame, -⟩ | ⟨a, b, contacts, rfl, hignores, rfl, hnew, -⟩
  · obtain ⟨poses, hposes⟩ := ih key pair hpair r (hsame ▸ hr)
    exact ⟨poses, hposes.concat call⟩
  · rcases mem_absorbing (hnew ▸ hr) with hold | hc
    · obtain ⟨poses, hposes⟩ := ih _ _ (pairOf_contacts hold) r hold
      exact ⟨poses, hposes.concat _⟩
    · exact ⟨_, calls, a, b, contacts, [], rfl, hignores, rfl, rfl, hc⟩

end ContactMemory

end Collision
