import Collision.Proofs.Memory.Identity
import Mathlib.Data.List.Intervals

/-!
# Which pair an identity belongs to

Identities are counted through all pairs. `ContactMemory.issuedFrom` lists those that calls give
out, contact by contact; they are consecutive numbers (`ContactMemory.issuedFrom_eq`), so none is
given out twice. After a call a pair owns identities that it owned before and, if the call updates
it, identities that the call gives out (`ContactMemory.Owns.of_step`); along a run no identity moves
from one pair to another, and none comes back once it is forgotten (`ContactMemory.Owns.of_foldl`).

* `ContactMemory.identities_of_run` says so of all calls, however many identities they give out.
-/

set_option autoImplicit false
set_option relaxedAutoImplicit false

namespace Collision

variable {α : Type} [Scalar α]

/-! ### Identities that are given out -/

namespace Absorbing

variable {poses : PosePair α} {drift : α} {capacity : ℕ} {deepest : Option ℕ}

/-- The identity that a new contact is given, if it is remembered and takes over no other one. -/
def issuedTo (s : Absorbing α) (drift : α) (capacity : ℕ) (deepest : Option ℕ) (c : Contact α) :
    List ContactId :=
  match s.placement drift capacity deepest c with
  | .takesOver _ => []
  | .atEnd => [s.nextId]
  | .replaces _ => [s.nextId]
  | .dropped => []

/-- The identities that new contacts are given, in order. -/
def issued (poses : PosePair α) (drift : α) (capacity : ℕ) (deepest : Option ℕ) :
    Absorbing α → Contacts α → List ContactId
  | _, [] => []
  | s, c :: rest => s.issuedTo drift capacity deepest c ++
      issued poses drift capacity deepest (absorb poses drift capacity deepest s c) rest

theorem issuedTo_eq (s : Absorbing α) (poses : PosePair α) (c : Contact α) :
    s.issuedTo drift capacity deepest c =
      List.Ico s.nextId (absorb poses drift capacity deepest s c).nextId := by
  unfold issuedTo absorb
  cases s.placement drift capacity deepest c with
  | takesOver place => exact List.Ico.self_empty.symm
  | atEnd => exact List.Ico.succ_singleton.symm
  | replaces place => exact List.Ico.succ_singleton.symm
  | dropped => exact List.Ico.self_empty.symm

/-- The counter passes over exactly what is given out. -/
theorem issued_eq (s : Absorbing α) (contacts : Contacts α) :
    issued poses drift capacity deepest s contacts = List.Ico s.nextId
      (contacts.foldl (absorb poses drift capacity deepest) s).nextId := by
  induction contacts generalizing s with
  | nil => exact List.Ico.self_empty.symm
  | cons c rest ih =>
    rw [issued, ih, issuedTo_eq s poses c, List.foldl_cons]
    exact List.Ico.append_consecutive (nextId_le_absorb s poses drift capacity deepest c)
      (nextId_le_foldl _ rest)

theorem mem_ids_absorb {s : Absorbing α} {c : Contact α} {id : ContactId}
    (h : id ∈ (absorb poses drift capacity deepest s c).ids) :
    id ∈ s.ids ∨ id ∈ s.issuedTo drift capacity deepest c := by
  unfold absorb at h
  unfold issuedTo
  cases hplacement : s.placement drift capacity deepest c with
  | takesOver place =>
    rw [hplacement] at h
    exact .inl ((ids_takeOver s poses place c) ▸ h)
  | atEnd =>
    rw [hplacement] at h
    exact List.mem_append.mp ((ids_append s poses c) ▸ h)
  | replaces place =>
    rw [hplacement] at h
    refine (List.mem_or_eq_of_mem_set ((ids_overwrite s poses place c) ▸ h)).imp_right ?_
    exact List.mem_singleton.mpr
  | dropped =>
    rw [hplacement] at h
    exact .inl h

/-- An identity after new contacts is one from before, or was given to one of them. -/
theorem mem_ids_foldl {s : Absorbing α} {contacts : Contacts α} {id : ContactId}
    (h : id ∈ (contacts.foldl (absorb poses drift capacity deepest) s).ids) :
    id ∈ s.ids ∨ id ∈ issued poses drift capacity deepest s contacts := by
  induction contacts generalizing s with
  | nil => exact .inl h
  | cons c rest ih =>
    rw [issued, List.mem_append]
    rcases ih h with hids | hissued
    · exact (mem_ids_absorb hids).imp_right .inl
    · exact .inr (.inr hissued)

end Absorbing

/-- A reported contact has the identity of a remembered one. -/
theorem PairMemory.exists_of_mem_output (m : PairMemory α) {swap : Bool} {c : Contact α}
    (h : c ∈ m.output swap) : ∃ r ∈ m.contacts, c.id? = some r.id := by
  unfold output Contacts.flipped at h
  split_ifs at h
  · rw [List.map_map] at h
    obtain ⟨r, hr, rfl⟩ := List.mem_map.mp h
    exact ⟨r, hr, rfl⟩
  · obtain ⟨r, hr, rfl⟩ := List.mem_map.mp h
    exact ⟨r, hr, rfl⟩

namespace ContactMemory

variable {m : ContactMemory α} {call : Call α} {key : GeomId × GeomId} {id : ContactId}

/-- The identities that a call gives out, in order. -/
def issuedBy (m : ContactMemory α) : Call α → List ContactId
  | .update a b contacts =>
    if m.ignores a b then []
    else
      Absorbing.issued (Participant.orderedPoses a b) m.config.drift (m.pairOf a b).capacity
        (m.spared? a b) ((m.pairOf a b).start (Participant.orderedPoses a b) m.config.drift m.nextId)
        (Participant.turned a b contacts)
  | .maintain => []
  | .removeGeom _ => []
  | .clear => []

/-- The identities that calls give out, in order. -/
def issuedFrom : ContactMemory α → List (Call α) → List ContactId
  | _, [] => []
  | m, call :: rest => m.issuedBy call ++ issuedFrom (m.step call) rest

/-- The new contacts of an update are taken in one after the other. -/
theorem absorbing_eq_foldl (m : ContactMemory α) (a b : Participant α) (contacts : Contacts α) :
    m.absorbing a b contacts = (Participant.turned a b contacts).foldl
      (Absorbing.absorb (Participant.orderedPoses a b) m.config.drift (m.pairOf a b).capacity
        (m.spared? a b))
      ((m.pairOf a b).start (Participant.orderedPoses a b) m.config.drift m.nextId) :=
  rfl

theorem issuedBy_update {a b : Participant α} (h : m.ignores a b = false) (contacts : Contacts α) :
    m.issuedBy (.update a b contacts) =
      Absorbing.issued (Participant.orderedPoses a b) m.config.drift (m.pairOf a b).capacity
        (m.spared? a b) ((m.pairOf a b).start (Participant.orderedPoses a b) m.config.drift m.nextId)
        (Participant.turned a b contacts) := by
  unfold issuedBy
  simp only [h, Bool.false_eq_true, if_false]

theorem issuedBy_eq (m : ContactMemory α) (call : Call α) :
    m.issuedBy call = List.Ico m.nextId (m.step call).nextId := by
  cases call with
  | update a b contacts =>
    show _ = List.Ico m.nextId (m.update a b contacts).2.nextId
    rcases hignores : m.ignores a b with _ | _
    · rw [issuedBy_update hignores, update_nextId hignores, absorbing_eq_foldl]
      exact Absorbing.issued_eq _ _
    · rw [update_ignored hignores, List.Ico.self_empty]
      simp [issuedBy, hignores]
  | maintain => exact List.Ico.self_empty.symm
  | removeGeom id => exact List.Ico.self_empty.symm
  | clear => exact List.Ico.self_empty.symm

theorem issuedFrom_eq (m : ContactMemory α) (calls : List (Call α)) :
    m.issuedFrom calls = List.Ico m.nextId (calls.foldl step m).nextId := by
  induction calls generalizing m with
  | nil => exact List.Ico.self_empty.symm
  | cons call rest ih =>
    rw [issuedFrom, ih, issuedBy_eq, List.foldl_cons]
    exact List.Ico.append_consecutive (nextId_le_step m call) (nextId_le_foldl_step _ rest)

/-! ### Identities that are owned -/

/-- The identities of all remembered contacts, pair by pair. -/
def ids (m : ContactMemory α) : List ContactId :=
  m.entries.flatMap fun e ↦ e.2.contacts.map Remembered.id

/-- A contact of the pair is remembered under the identity. -/
def Owns (m : ContactMemory α) (key : GeomId × GeomId) (id : ContactId) : Prop :=
  ∃ pair, m.get? key = some pair ∧ id ∈ pair.contacts.map Remembered.id

omit [Scalar α] in
theorem mem_ids_iff (hkeyed : m.Keyed) : id ∈ m.ids ↔ ∃ key, m.Owns key id := by
  unfold ids Owns
  rw [List.mem_flatMap]
  constructor
  · rintro ⟨e, he, hid⟩
    exact ⟨e.1, e.2, (lookup_eq_some_iff_mem hkeyed e.1 e.2).mpr he, hid⟩
  · rintro ⟨key, pair, hget, hid⟩
    exact ⟨(key, pair), (lookup_eq_some_iff_mem hkeyed key pair).mp hget, hid⟩

omit [Scalar α] in
theorem Sound.owns_lt (hm : m.Sound) (h : m.Owns key id) : id < m.nextId := by
  obtain ⟨pair, hget, hid⟩ := h
  obtain ⟨r, hr, rfl⟩ := List.mem_map.mp hid
  exact hm.lt_nextId key pair hget r hr

/-- What a pair owns after a call it owned before, or the call updates the pair and gives it out. -/
theorem Owns.of_step (hkeyed : m.Keyed) (h : (m.step call).Owns key id) :
    m.Owns key id ∨ id ∈ m.issuedBy call ∧
      ∃ a b contacts, call = .update a b contacts ∧ key = orderedPair a.id b.id := by
  obtain ⟨next, hget, hid⟩ := h
  rcases get?_step_cases hkeyed hget with
    ⟨pair, hpair, hsame, -⟩ | ⟨a, b, contacts, rfl, hignores, hkey, hnew, -⟩
  · exact .inl ⟨pair, hpair, hsame ▸ hid⟩
  · rw [hnew, List.map_map, absorbing_eq_foldl] at hid
    rcases Absorbing.mem_ids_foldl hid with hold | hissued
    · rw [PairMemory.start_ids] at hold
      obtain ⟨r, hr, rfl⟩ := List.mem_map.mp hold
      have hr : r ∈ (m.pairOf a b).contacts := (List.mem_filter.mp hr).1
      exact .inl ⟨_, hkey ▸ pairOf_contacts hr, List.mem_map_of_mem hr⟩
    · exact .inr ⟨issuedBy_update hignores contacts ▸ hissued, a, b, contacts, rfl, hkey⟩

/-- What a pair owns after calls, and what was given out before them, it owned before them. -/
theorem Owns.of_foldl {calls : List (Call α)} (hkeyed : m.Keyed) (hid : id < m.nextId)
    (h : (calls.foldl step m).Owns key id) : m.Owns key id := by
  induction calls generalizing m with
  | nil => exact h
  | cons call rest ih =>
    have hstep := ih (hkeyed.step call) (Nat.lt_of_lt_of_le hid (nextId_le_step m call)) h
    rcases hstep.of_step hkeyed with hold | ⟨hissued, -⟩
    · exact hold
    · rw [issuedBy_eq, List.Ico.mem] at hissued
      exact absurd hid (Nat.not_lt.mpr hissued.1)

/-- An identity belongs to one pair. -/
def Apart (m : ContactMemory α) : Prop :=
  ∀ key other id, m.Owns key id → m.Owns other id → key = other

theorem Apart.step (hm : m.Apart) (hsound : m.Sound) (hkeyed : m.Keyed) (call : Call α) :
    (m.step call).Apart := by
  -- An identity that the call gives out is larger than all that were owned before it.
  have hnew {key : GeomId × GeomId} {id : ContactId} (hissued : id ∈ m.issuedBy call) :
      ¬m.Owns key id := fun howns ↦ by
    rw [issuedBy_eq, List.Ico.mem] at hissued
    exact absurd (hsound.owns_lt howns) (Nat.not_lt.mpr hissued.1)
  intro key other id hkey hother
  rcases hkey.of_step hkeyed with hkey | ⟨hissued, a, b, contacts, hcall, hkey⟩
  · rcases hother.of_step hkeyed with hother | ⟨hissued, -⟩
    · exact hm key other id hkey hother
    · exact absurd hkey (hnew hissued)
  · rcases hother.of_step hkeyed with hother | ⟨-, a', b', contacts', hcall', hother⟩
    · exact absurd hother (hnew hissued)
    · cases hcall.symm.trans hcall'
      rw [hkey, hother]

theorem apart_run (config : MemoryConfig α) (calls : List (Call α)) : (run config calls).Apart :=
  run_induction (motive := fun _ m ↦ m.Apart)
    (fun _ _ _ h ↦ by obtain ⟨pair, hget, -⟩ := h; cases hget)
    (fun calls call ih ↦ ih.step (sound_run config calls) (keyed_run config calls) call) calls

omit [Scalar α] in
/-- No identity is listed twice: not by one pair, and not by two pairs. -/
theorem Apart.ids_nodup (hm : m.Apart) (hsound : m.Sound) (hkeyed : m.Keyed) : m.ids.Nodup := by
  have hget {e : (GeomId × GeomId) × PairMemory α} (he : e ∈ m.entries) :
      m.get? e.1 = some e.2 := (lookup_eq_some_iff_mem hkeyed e.1 e.2).mpr he
  refine List.nodup_flatMap.mpr ⟨fun e he ↦ hsound.nodup e.1 e.2 (hget he), ?_⟩
  refine (List.pairwise_map.mp hkeyed).imp_of_mem fun {e e'} he he' hne id hid hid' ↦ hne ?_
  exact hm e.1 e'.1 id ⟨e.2, hget he, hid⟩ ⟨e'.2, hget he', hid'⟩

/-- The identities after any calls, and after more calls.

Every remembered contact of a pair has an identity that the pair owns. No two remembered contacts,
of whatever pairs, have the same identity, and all identities are smaller than the next one. The
identities given out so far are the numbers below the next one in order, each once; no later call
gives one of them out again, and one that is no longer remembered is never remembered again. An
identity belongs to the same pair whenever it is remembered. -/
theorem identities_of_run (config : MemoryConfig α) (calls more : List (Call α)) :
    let m := run config calls
    let later := run config (calls ++ more)
    (∀ a b contacts, m.contacts? a b = some contacts → ∀ c ∈ contacts,
        ∃ id, c.id? = some id ∧ m.Owns (orderedPair a b) id) ∧
      m.ids.Nodup ∧ (∀ id, id ∈ m.ids ↔ ∃ key, m.Owns key id) ∧ (∀ id ∈ m.ids, id < m.nextId) ∧
      issuedFrom (.empty config) calls = List.range m.nextId ∧
      (∀ id ∈ issuedFrom (.empty config) calls,
        id ∉ m.issuedFrom more ∧ (id ∉ m.ids → id ∉ later.ids)) ∧
      ∀ key other id, m.Owns key id → later.Owns other id → key = other := by
  intro m later
  have hkeyed : m.Keyed := keyed_run config calls
  have hsound : m.Sound := sound_run config calls
  have hapart : m.Apart := apart_run config calls
  have hissued : issuedFrom (.empty config) calls = List.range m.nextId :=
    (issuedFrom_eq _ calls).trans (List.Ico.zero_bot _)
  have hback {key : GeomId × GeomId} {id : ContactId} (hid : id < m.nextId)
      (howns : later.Owns key id) : m.Owns key id := by
    have hlater : later = more.foldl step m := List.foldl_append
    rw [hlater] at howns
    exact howns.of_foldl hkeyed hid
  refine ⟨fun a b contacts hcontacts c hc ↦ ?_, hapart.ids_nodup hsound hkeyed,
    fun id ↦ mem_ids_iff hkeyed, fun id hid ↦ ?_, hissued, fun id hid ↦ ?_,
    fun key other id hkey hother ↦ hapart key other id hkey (hback (hsound.owns_lt hkey) hother)⟩
  · obtain ⟨pair, hget, rfl⟩ := Option.map_eq_some_iff.mp hcontacts
    obtain ⟨r, hr, hid⟩ := pair.exists_of_mem_output hc
    exact ⟨r.id, hid, pair, hget, List.mem_map_of_mem hr⟩
  · obtain ⟨key, howns⟩ := (mem_ids_iff hkeyed).mp hid
    exact hsound.owns_lt howns
  · have hlt : id < m.nextId := List.mem_range.mp (hissued ▸ hid)
    refine ⟨fun hagain ↦ ?_, fun hforgotten hmem ↦ hforgotten ?_⟩
    · rw [issuedFrom_eq, List.Ico.mem] at hagain
      exact absurd hlt (Nat.not_lt.mpr hagain.1)
    · obtain ⟨key, howns⟩ := (mem_ids_iff (keyed_run config _)).mp hmem
      exact (mem_ids_iff hkeyed).mpr ⟨key, hback hlt howns⟩

end ContactMemory

end Collision
