import Collision.Proofs.Engine.Cycle
import Collision.Proofs.Memory.Interleaving

/-!
# Cycles that a visitor ends

A visitor may end a cycle at any pair it is shown, and decides so from everything it was shown. What
a cycle shows to a visitor that never has enough does not depend on the visitor: it is
`Engine.overlappingCandidates` for verdicts, and for contacts `Engine.shownOf`, the pairs of
`Engine.touching` with their contacts as contact memory reports them one after another. Any other
visitor is shown this sequence up to the first member it has enough of.

Contact memory is updated before a pair is shown, so a cycle of contacts that ends early leaves it
as the updates up to there do (`Engine.separate_eq`).

* `Engine.cycles_end_at_first_break` is the statement for both cycles, with what is remembered
  after a cycle of contacts of the pairs that were shown and of all others.
-/

set_option autoImplicit false
set_option relaxedAutoImplicit false

namespace Collision

variable {α : Type} [Scalar α]

/-- The handles of an update, in the order in which it names them. -/
def PairUpdate.pair (u : PairUpdate α) : GeomId × GeomId := (u.first.id, u.second.id)

namespace Engine

variable {e : Engine α} {pair : GeomId × GeomId} {u : PairUpdate α} {σ : Type}

/-! ### Pairs that touch -/

/-- The update of contact memory that a pair brings about, if its geoms have contacts. -/
def touch? (e : Engine α) (pair : GeomId × GeomId) : Option (PairUpdate α) :=
  (e.geomsOf? pair).bind fun geoms ↦
    let contacts := geoms.1.separate geoms.2 e.tester
    if contacts.isEmpty then none
    else some ⟨⟨pair.1, geoms.1.pose, geoms.1.remembered⟩,
      ⟨pair.2, geoms.2.pose, geoms.2.remembered⟩, contacts⟩

/-- The updates of the candidate pairs, once the stale trees are built. -/
def touching (e : Engine α) : List (PairUpdate α) :=
  e.candidatePairs.1.filterMap e.candidatePairs.2.touch?

theorem touch?_eq_some (h : e.touch? pair = some u) :
    ∃ a b, e.geomsOf? pair = some (a, b) ∧
      u = ⟨⟨pair.1, a.pose, a.remembered⟩, ⟨pair.2, b.pose, b.remembered⟩,
        a.separate b e.tester⟩ := by
  obtain ⟨⟨a, b⟩, hgeoms, h⟩ := Option.bind_eq_some_iff.mp h
  simp only at h
  split_ifs at h
  exact ⟨a, b, hgeoms, (Option.some_inj.mp h).symm⟩

/-! ### What a cycle of contacts shows -/

/-- What contact memory reports of a pair, the contacts as they are if there is no memory. -/
def reportOf (memory? : Option (ContactMemory α)) (u : PairUpdate α) : Contacts α :=
  memory?.elim u.contacts fun m ↦ m.report u

/-- Pairs with the contacts that contact memory reports of them, one after another. -/
def shownOf (memory? : Option (ContactMemory α)) (updates : List (PairUpdate α)) :
    List ((GeomId × GeomId) × Contacts α) :=
  memory?.elim (updates.map fun u ↦ (u.pair, u.contacts)) fun m ↦
    (m.reports updates).map fun entry ↦ (entry.1.pair, entry.2)

theorem shownOf_cons (memory? : Option (ContactMemory α)) (u : PairUpdate α)
    (rest : List (PairUpdate α)) :
    shownOf memory? (u :: rest) =
      (u.pair, reportOf memory? u) ::
        shownOf (memory?.map fun m ↦ m.step u.call) rest := by
  cases memory? <;> rfl

theorem shownOf_eq_nil_iff (memory? : Option (ContactMemory α)) (updates : List (PairUpdate α)) :
    shownOf memory? updates = [] ↔ updates = [] := by
  cases updates with
  | nil => exact iff_of_true (by cases memory? <;> rfl) rfl
  | cons u rest =>
    rw [shownOf_cons]
    exact iff_of_false (List.cons_ne_nil _ _) (List.cons_ne_nil _ _)

theorem take_shownOf (memory? : Option (ContactMemory α)) (updates : List (PairUpdate α)) (n : ℕ) :
    (shownOf memory? updates).take n = shownOf memory? (updates.take n) := by
  cases memory? with
  | none => exact (List.map_take ..).symm
  | some m => exact (List.map_take ..).symm.trans (congrArg _ (m.take_reports updates n))

theorem showContacts_of_touch? (h : e.touch? pair = some u)
    (visit : σ → (GeomId × GeomId) × Contacts α → σ × Bool) (s : Showing α σ) :
    e.showContacts visit s pair =
      let answer := visit s.state (u.pair, reportOf s.memory? u)
      (⟨true, s.memory?.map fun m ↦ m.step u.call, answer.1⟩, answer.2) := by
  obtain ⟨⟨a, b⟩, hgeoms, h⟩ := Option.bind_eq_some_iff.mp h
  simp only at h
  split_ifs at h with hempty
  obtain rfl := Option.some_inj.mp h
  unfold showContacts
  rw [hgeoms]
  simp only [hempty]
  cases s.memory? <;> rfl

theorem showContacts_of_touch?_eq_none (h : e.touch? pair = none)
    (visit : σ → (GeomId × GeomId) × Contacts α → σ × Bool) (s : Showing α σ) :
    e.showContacts visit s pair = (s, false) := by
  unfold showContacts
  rcases hgeoms : e.geomsOf? pair with _ | ⟨a, b⟩
  · rfl
  · unfold touch? at h
    rw [hgeoms, Option.bind_some] at h
    simp only at h ⊢
    split_ifs at h with hempty
    rw [if_pos hempty]

/-- Pairs without contacts are passed over without the visitor noticing, and contact memory takes in
the others up to the first one that the visitor has enough of. -/
theorem visitList_showContacts (e : Engine α)
    (visit : σ → (GeomId × GeomId) × Contacts α → σ × Bool) (s : Showing α σ)
    (pairs : List (GeomId × GeomId)) :
    visitList (e.showContacts visit) s pairs =
      let updates := pairs.filterMap e.touch?
      let shown := shownOf s.memory? updates
      let count := (answers visit s.state shown).idxOf true + 1
      (⟨s.hit || !updates.isEmpty, s.memory?.map fun m ↦ m.afterAll (updates.take count),
        (visitList visit s.state shown).1⟩, (visitList visit s.state shown).2) := by
  induction pairs generalizing s with
  | nil =>
    rcases s with ⟨hit, memory?, state⟩
    cases memory? <;> simp [visitList, shownOf, ContactMemory.reports, ContactMemory.afterAll]
  | cons pair rest ih =>
    rw [visitList]
    rcases htouch : e.touch? pair with _ | u
    · rw [showContacts_of_touch?_eq_none htouch, List.filterMap_cons_none htouch]
      exact ih s
    · rw [showContacts_of_touch? htouch, List.filterMap_cons_some htouch]
      simp only [shownOf_cons, visitList, answers]
      rcases visit s.state (u.pair, reportOf s.memory? u) with ⟨next, stop⟩
      cases stop with
      | true => simp [ContactMemory.afterAll]
      | false =>
        simp only [ih]
        simp [ContactMemory.afterAll, Function.comp_def]

/-- A cycle of contacts shows the pairs that touch, with what contact memory reports of them, and
leaves the memory as the updates up to the end of the cycle do. -/
theorem separate_eq (e : Engine α) (visit : σ → (GeomId × GeomId) × Contacts α → σ × Bool)
    (state : σ) :
    e.separate visit state =
      let shown := shownOf e.memory? e.touching
      let count := (answers visit state shown).idxOf true + 1
      ⟨!e.touching.isEmpty, (visitList visit state shown).1,
        { e.candidatePairs.2 with
          memory? := e.memory?.map fun m ↦ m.afterAll (e.touching.take count) }⟩ := by
  unfold separate
  simp only [visitList_showContacts]
  rfl

/-! ### What is remembered after a cycle of contacts -/

/-- There is a contact memory, and a geom of the pair wants contacts remembered. -/
def Remembers (e : Engine α) (pair : GeomId × GeomId) : Prop :=
  ∃ m a b, e.memory? = some m ∧ m.config.enabled = true ∧ e.geomsOf? pair = some (a, b) ∧
    ¬(a.remembered = 0 ∧ b.remembered = 0)

/-- What is remembered of a pair is what an update with its contacts makes of what was remembered
before, and its contacts are the given ones. -/
def Refreshed (e : Engine α) (before after : ContactMemory α) (pair : GeomId × GeomId)
    (contacts : Contacts α) : Prop :=
  ∃ a b raw nextId, e.geomsOf? pair = some (a, b) ∧
    e.separatePair? pair.1 pair.2 = .ok raw ∧
    let entry := ((before.pairOf ⟨pair.1, a.pose, a.remembered⟩
      ⟨pair.2, b.pose, b.remembered⟩).update ⟨a.pose, b.pose⟩ before.config.drift nextId raw).1
    after.get? pair = some entry ∧ entry.active = true ∧ entry.idle = 0 ∧
      contacts = entry.output false

theorem separatePair?_of_geomsOf? {a b : Geom α} (h : e.geomsOf? pair = some (a, b)) :
    e.separatePair? pair.1 pair.2 = .ok (a.separate b e.tester) := by
  unfold geomsOf? at h
  unfold separatePair? geom?
  rcases hfirst : e.lookup? pair.1 with _ | first
  · rw [hfirst] at h
    cases h
  · rcases hsecond : e.lookup? pair.2 with _ | second
    · rw [hfirst, hsecond] at h
      cases h
    · rw [hfirst, hsecond] at h
      obtain ⟨rfl, rfl⟩ := Prod.mk.inj (Option.some_inj.mp h)
      rfl

/-- The pairs of a cycle name the lower handle first, so they are their own keys. -/
theorem key_of_touch? (hpair : pair ∈ e.candidatePairs.1)
    (h : e.candidatePairs.2.touch? pair = some u) : u.key = pair := by
  obtain ⟨a, b, -, rfl⟩ := touch?_eq_some h
  exact if_pos (fst_le_snd_of_mem_candidatePairs hpair)

/-- No pair is updated twice in a cycle. -/
theorem touching_keys_nodup (e : Engine α) : (e.touching.map PairUpdate.key).Nodup := by
  refine List.pairwise_map.mpr (List.pairwise_filterMap.mpr ?_)
  refine (candidatePairs_pairwise e).imp_of_mem ?_
  intro p q hp hq hlt u hu v hv heq
  rw [key_of_touch? hp hu, key_of_touch? hq hv] at heq
  exact PairLt.irrefl q (heq ▸ hlt)

/-- The update of a pair has its geoms, where they stand, and their contacts. -/
theorem mem_touching (h : u ∈ e.touching) :
    u.key = u.pair ∧ (u.pair.1 : ℕ) ≤ u.pair.2 ∧ ∃ a b,
      e.candidatePairs.2.geomsOf? u.pair = some (a, b) ∧
        u.first = ⟨u.pair.1, a.pose, a.remembered⟩ ∧
        u.second = ⟨u.pair.2, b.pose, b.remembered⟩ ∧
        u.contacts = a.separate b e.candidatePairs.2.tester := by
  obtain ⟨pair, hpair, htouch⟩ := List.mem_filterMap.mp h
  have hkey := key_of_touch? hpair htouch
  have hle := fst_le_snd_of_mem_candidatePairs hpair
  obtain ⟨a, b, hgeoms, rfl⟩ := touch?_eq_some htouch
  exact ⟨hkey, hle, a, b, hgeoms, rfl, rfl, rfl⟩

/-- Contacts of a pair that is updated are remembered iff they are not to be ignored. -/
theorem remembers_iff {m : ContactMemory α} (hmemory : e.memory? = some m) {a b : Geom α}
    (hgeoms : e.geomsOf? pair = some (a, b)) :
    e.Remembers pair ↔ m.config.enabled = true ∧ ¬(a.remembered = 0 ∧ b.remembered = 0) := by
  constructor
  · rintro ⟨m', a', b', hmemory', henabled, hgeoms', hwanted⟩
    obtain rfl := Option.some_inj.mp (hmemory.symm.trans hmemory')
    obtain ⟨rfl, rfl⟩ := Prod.mk.inj (Option.some_inj.mp (hgeoms.symm.trans hgeoms'))
    exact ⟨henabled, hwanted⟩
  · rintro ⟨henabled, hwanted⟩
    exact ⟨m, a, b, hmemory, henabled, hgeoms, hwanted⟩

/-- The engine of a cycle when contact memory has taken in some updates. -/
def afterUpdates (e : Engine α) (updates : List (PairUpdate α)) : Engine α :=
  { e.candidatePairs.2 with memory? := e.memory?.map fun m ↦ m.afterAll updates }

section AfterUpdates

variable {updates : List (PairUpdate α)} {m : ContactMemory α} {contacts : Contacts α}

/-- Contacts of an updated pair are remembered unless its update is ignored. -/
theorem remembers_afterUpdates_iff (hmemory : e.memory? = some m) (hu : u ∈ e.touching) :
    (e.afterUpdates updates).Remembers u.pair ↔ u.isIgnored m.config = false := by
  obtain ⟨-, -, a, b, hgeoms, hfirst, hsecond, -⟩ := mem_touching hu
  have hafter : (e.afterUpdates updates).memory? = some (m.afterAll updates) :=
    congrArg (Option.map fun m : ContactMemory α ↦ m.afterAll updates) hmemory
  rw [remembers_iff hafter hgeoms, m.afterAll_config, PairUpdate.isIgnored_eq_false_iff, hfirst,
    hsecond]

theorem mem_shownOf_some :
    (pair, contacts) ∈ shownOf (some m) updates ↔
      ∃ u, u.pair = pair ∧ (u, contacts) ∈ m.reports updates := by
  constructor
  · intro h
    obtain ⟨⟨u, reported⟩, hreported, heq⟩ := List.mem_map.mp h
    obtain ⟨rfl, rfl⟩ := Prod.mk.inj heq
    exact ⟨u, rfl, hreported⟩
  · rintro ⟨u, rfl, hreported⟩
    exact List.mem_map.mpr ⟨(u, contacts), hreported, rfl⟩

theorem mem_of_mem_reports (h : (u, contacts) ∈ m.reports updates) : u ∈ updates := by
  rw [← m.map_fst_reports updates]
  exact List.mem_map_of_mem h

variable (hupdates : updates.Sublist e.touching)

include hupdates

/-- A shown pair whose contacts are remembered is refreshed. -/
theorem refreshed_of_mem_shownOf (hmemory : e.memory? = some m)
    (hshown : (pair, contacts) ∈ shownOf e.memory? updates)
    (hremembers : (e.afterUpdates updates).Remembers pair) :
    (e.afterUpdates updates).Refreshed m (m.afterAll updates) pair contacts := by
  rw [hmemory] at hshown
  obtain ⟨u, rfl, hreported⟩ := mem_shownOf_some.mp hshown
  have hu : u ∈ e.touching := hupdates.subset (mem_of_mem_reports hreported)
  obtain ⟨hkey, hle, a, b, hgeoms, hfirst, hsecond, hcontacts⟩ := mem_touching hu
  have hkeys : (updates.map PairUpdate.key).Nodup :=
    (touching_keys_nodup e).sublist (hupdates.map PairUpdate.key)
  obtain ⟨nextId, hget, houtput⟩ := ContactMemory.exists_update_of_reports hkeys hreported
    ((remembers_afterUpdates_iff hmemory hu).mp hremembers)
  have hswapped : Participant.swapped u.first u.second = false :=
    decide_eq_false (Nat.not_lt.mpr hle)
  simp only [Participant.orderedPoses, Participant.turned, hswapped, hkey] at hget houtput
  rw [hfirst, hsecond, hcontacts] at hget houtput
  exact ⟨a, b, _, nextId, hgeoms, separatePair?_of_geomsOf? hgeoms, hget, rfl, rfl, houtput⟩

/-- A shown pair whose contacts are not remembered is shown with its contacts as they are. -/
theorem separatePair?_of_mem_shownOf (hshown : (pair, contacts) ∈ shownOf e.memory? updates)
    (hignored : ¬(e.afterUpdates updates).Remembers pair) :
    (e.afterUpdates updates).separatePair? pair.1 pair.2 = .ok contacts := by
  obtain ⟨u, hu, rfl, rfl⟩ : ∃ u ∈ updates, u.pair = pair ∧ contacts = u.contacts := by
    rcases hmemory : e.memory? with _ | m
    · rw [hmemory] at hshown
      obtain ⟨u, hu, heq⟩ := List.mem_map.mp hshown
      obtain ⟨rfl, rfl⟩ := Prod.mk.inj heq
      exact ⟨u, hu, rfl, rfl⟩
    · rw [hmemory] at hshown
      obtain ⟨u, rfl, hreported⟩ := mem_shownOf_some.mp hshown
      have hu := mem_of_mem_reports hreported
      rw [remembers_afterUpdates_iff hmemory (hupdates.subset hu), Bool.not_eq_false] at hignored
      exact ⟨u, hu, rfl, ContactMemory.eq_contacts_of_reports hreported hignored⟩
  obtain ⟨-, -, a, b, hgeoms, -, -, hcontacts⟩ := mem_touching (hupdates.subset hu)
  rw [hcontacts]
  exact separatePair?_of_geomsOf? hgeoms

/-- What is remembered of a pair stays as it was, unless it is shown and its contacts are
remembered. -/
theorem get?_afterUpdates_of_not_shown (hmemory : e.memory? = some m)
    (hothers : ∀ contacts, (pair, contacts) ∈ shownOf e.memory? updates →
      ¬(e.afterUpdates updates).Remembers pair) :
    (m.afterAll updates).get? pair = m.get? pair := by
  refine ContactMemory.get?_afterAll_of_not_key fun u hu hignored heq ↦ ?_
  have htouching := hupdates.subset hu
  have hpair : u.pair = pair := (mem_touching htouching).1.symm.trans heq
  rw [← m.map_fst_reports updates] at hu
  obtain ⟨⟨v, reported⟩, hreported, rfl⟩ := List.mem_map.mp hu
  have hshown := mem_shownOf_some.mpr ⟨v, hpair, hreported⟩
  refine hothers reported (hmemory ▸ hshown) ?_
  rw [← hpair]
  exact (remembers_afterUpdates_iff hmemory htouching).mpr hignored

end AfterUpdates

/-! ### Both cycles -/

/-- The calls of a cycle, whatever the visitor decides from those before and the present one.

In a cycle of verdicts as in one of contacts a visitor is called as one that never has enough would
be, up to and including the first call that it has enough of; and the cycle reports a hit iff that
full sequence has a member, so that the test whether any geoms overlap agrees with it.

In a cycle of contacts the pairs it is called with are refreshed in contact memory if a geom of the
pair wants contacts remembered, and everything else that is remembered stays as it was; the other
pairs it is called with come with their contacts as testing the pair alone gives them. -/
theorem cycles_end_at_first_break (e : Engine α) {σ τ : Type}
    (visitVerdict : σ → GeomId × GeomId → σ × Bool) (verdictState : σ)
    (visitContacts : τ → (GeomId × GeomId) × Contacts α → τ × Bool) (contactsState : τ) :
    (let all := (e.collide (recording fun (_ : Unit) _ ↦ ((), false)) ((), [])).state.2
      let cycle := e.collide (recording visitVerdict) (verdictState, [])
      cycle.state.2 = all.take ((answers visitVerdict verdictState all).idxOf true + 1) ∧
        (cycle.hit = true ↔ all ≠ []) ∧ e.anyOverlap.hit = cycle.hit) ∧
      let all := (e.separate (recording fun (_ : Unit) _ ↦ ((), false)) ((), [])).state.2
      let cycle := e.separate (recording visitContacts) (contactsState, [])
      cycle.state.2 = all.take ((answers visitContacts contactsState all).idxOf true + 1) ∧
        (cycle.hit = true ↔ all ≠ []) ∧
        (∀ pair contacts, (pair, contacts) ∈ cycle.state.2 → ¬cycle.engine.Remembers pair →
          cycle.engine.separatePair? pair.1 pair.2 = .ok contacts) ∧
        (e.memory? = none → cycle.engine.memory? = none) ∧
        ∀ before, e.memory? = some before → ∃ after, cycle.engine.memory? = some after ∧
          (∀ pair contacts, (pair, contacts) ∈ cycle.state.2 → cycle.engine.Remembers pair →
            cycle.engine.Refreshed before after pair contacts) ∧
          ∀ pair, (∀ contacts, (pair, contacts) ∈ cycle.state.2 → ¬cycle.engine.Remembers pair) →
            after.get? pair = before.get? pair := by
  constructor
  · intro all cycle
    have hall : all = e.overlappingCandidates := by
      have hfull := collide_eq e (recording fun (_ : Unit) _ ↦ ((), false)) ((), [])
      rw [visitList_recording_of_continuing fun _ _ ↦ rfl] at hfull
      exact congrArg (fun c ↦ c.state.2) hfull
    have hcycle : cycle = _ := collide_eq e _ _
    rw [visitList_recording] at hcycle
    rw [hall, hcycle]
    refine ⟨rfl, by simp, ?_⟩
    exact congrArg Cycle.hit (collide_eq e (fun _ _ ↦ ((), true)) ())
  · intro all cycle
    have hall : all = shownOf e.memory? e.touching := by
      have hfull := separate_eq e (recording fun (_ : Unit) _ ↦ ((), false)) ((), [])
      refine (congrArg (fun c ↦ c.state.2) hfull).trans ?_
      simp only
      rw [visitList_recording_of_continuing fun _ _ ↦ rfl]
      rfl
    have hcycle : cycle = _ := separate_eq e _ _
    simp only [visitList_recording, answers_recording] at hcycle
    rw [hall]
    generalize hcount : (answers visitContacts contactsState
      (shownOf e.memory? e.touching)).idxOf true + 1 = count at hcycle ⊢
    have hsublist : (e.touching.take count).Sublist e.touching := List.take_sublist count _
    have hcalled : cycle.state.2 = shownOf e.memory? (e.touching.take count) := by
      rw [hcycle, ← take_shownOf]
      rfl
    have hengine : cycle.engine = e.afterUpdates (e.touching.take count) := by
      rw [hcycle]
      rfl
    rw [hcalled, hengine]
    refine ⟨(take_shownOf ..).symm, ?_, fun pair contacts hshown hignored ↦
      separatePair?_of_mem_shownOf hsublist hshown hignored, fun hnone ↦ ?_,
      fun before hmemory ↦ ?_⟩
    · rw [hcycle, ne_eq, shownOf_eq_nil_iff, Bool.not_eq_true', List.isEmpty_eq_false_iff]
    · exact congrArg (Option.map fun m : ContactMemory α ↦ m.afterAll _) hnone
    · refine ⟨_, congrArg (Option.map fun m : ContactMemory α ↦ m.afterAll _) hmemory, ?_, ?_⟩
      · exact fun pair contacts ↦ refreshed_of_mem_shownOf hsublist hmemory
      · exact fun pair ↦ get?_afterUpdates_of_not_shown hsublist hmemory

end Engine

end Collision
