import Collision.Proofs.Memory.Identity

/-!
# Identities in a full memory

A new contact that takes over the identity of a remembered one is reported under it unless the
memory of the pair is full and a later contact of the same update pushes it out. The nearest contact
makes room, whether or not it is new itself; only the contact that was deepest at the start is
spared.

* `Absorbing.Lost` is an identity that was given out and that no slot has; it does not come back.
* `ContactMemory.identity_kept_unless_pushed_out` says that being pushed out is the only way in
  which an identity that was just taken over is lost, and that it is always lost so.
* `ContactMemory.identity_lost_at_capacity` is a pair for which that happens, although the new
  contact that pushes the other one out came after it in the same update.
-/

set_option autoImplicit false
set_option relaxedAutoImplicit false

namespace Collision

variable {α : Type} [Scalar α]

namespace Absorbing

variable {s : Absorbing α} {poses : PosePair α} {drift : α} {capacity : ℕ} {deepest : Option ℕ}
  {c : Contact α} {place : ℕ} {q : Remembered α} {id : ContactId}

/-! ### Contacts that keep their place -/

/-- A new contact that takes over the identity of a remembered one stands in its place. -/
theorem TakesOver.slot_absorb {r : Remembered α} (h : s.TakesOver drift c place r) :
    (absorb poses drift capacity deepest s c).slots[place]? =
      some (.ofContact poses r.id c, true) := by
  have hfree : s.Free place r := h.isNearest.is_candidate
  rw [absorb, placement_eq_takesOver_iff.mpr ⟨r, h⟩]
  show (s.takeOver poses place c).slots[place]? = _
  rw [hfree.slots_takeOver, List.getElem?_set_self (List.getElem?_eq_some_iff.mp hfree).1]

/-- A contact loses its place only to a new one that takes its identity over or pushes it out. -/
theorem slot_absorb {slot : Remembered α × Bool} (hslot : s.slots[place]? = some slot)
    (hleft : ∀ r, ¬s.TakesOver drift c place r)
    (hkept : ¬s.PushesOut drift capacity deepest c place) :
    (absorb poses drift capacity deepest s c).slots[place]? = some slot := by
  unfold absorb
  cases hplacement : s.placement drift capacity deepest c with
  | takesOver other =>
    obtain ⟨r, hr⟩ := placement_eq_takesOver_iff.mp hplacement
    have hfree : s.Free other r := hr.isNearest.is_candidate
    have hne : other ≠ place := by
      rintro rfl
      exact hleft r hr
    show (s.takeOver poses other c).slots[place]? = _
    rw [hfree.slots_takeOver, List.getElem?_set_ne hne]
    exact hslot
  | atEnd =>
    show (s.slots ++ _)[place]? = _
    rw [List.getElem?_append_left (List.getElem?_eq_some_iff.mp hslot).1]
    exact hslot
  | replaces other =>
    have hne : other ≠ place := by
      rintro rfl
      exact hkept (placement_eq_replaces_iff.mp hplacement)
    show (s.slots.set other _)[place]? = _
    rw [List.getElem?_set_ne hne]
    exact hslot
  | dropped => exact hslot

/-- Only a contact that is pushed out loses its place to a later one. -/
theorem absorb_keeps (hslot : s.slots[place]? = some (q, true))
    (hkept : ¬s.PushesOut drift capacity deepest c place) :
    (absorb poses drift capacity deepest s c).slots[place]? = some (q, true) := by
  refine slot_absorb hslot (fun r hr ↦ ?_) hkept
  have hfree : s.Free place r := hr.isNearest.is_candidate
  cases hfree.symm.trans hslot

theorem foldl_absorb_keeps {contacts : Contacts α} (hslot : s.slots[place]? = some (q, true))
    (hkept : ∀ k d, contacts[k]? = some d →
      ¬((contacts.take k).foldl (absorb poses drift capacity deepest) s).PushesOut drift capacity
        deepest d place) :
    (contacts.foldl (absorb poses drift capacity deepest) s).slots[place]? = some (q, true) := by
  induction contacts generalizing s with
  | nil => exact hslot
  | cons c rest ih =>
    exact ih (absorb_keeps hslot (hkept 0 c rfl)) fun k d hd ↦ hkept (k + 1) d hd

/-! ### Lost identities -/

/-- An identity that was given out and that no slot has. -/
structure Lost (s : Absorbing α) (id : ContactId) : Prop where
  lt_nextId : id < s.nextId
  not_mem_ids : id ∉ s.ids

theorem Lost.absorb (h : s.Lost id) (c : Contact α) :
    (absorb poses drift capacity deepest s c).Lost id := by
  refine ⟨Nat.lt_of_lt_of_le h.lt_nextId (nextId_le_absorb s poses drift capacity deepest c), ?_⟩
  unfold Absorbing.absorb
  cases s.placement drift capacity deepest c with
  | takesOver place =>
    show id ∉ (s.takeOver poses place c).ids
    rw [ids_takeOver]
    exact h.not_mem_ids
  | atEnd =>
    show id ∉ (s.append poses c).ids
    rw [ids_append, List.mem_append, List.mem_singleton]
    exact not_or.mpr ⟨h.not_mem_ids, Nat.ne_of_lt h.lt_nextId⟩
  | replaces place =>
    show id ∉ (s.overwrite poses place c).ids
    rw [ids_overwrite]
    intro hmem
    rcases List.mem_or_eq_of_mem_set hmem with hmem | heq
    · exact h.not_mem_ids hmem
    · exact Nat.ne_of_lt h.lt_nextId heq
  | dropped => exact h.not_mem_ids

theorem Lost.foldl (h : s.Lost id) (contacts : Contacts α) :
    (contacts.foldl (Absorbing.absorb poses drift capacity deepest) s).Lost id := by
  induction contacts generalizing s with
  | nil => exact h
  | cons c rest ih => exact ih (h.absorb c)

/-- The identity of a contact that is pushed out is lost. -/
theorem PushesOut.lost (h : s.PushesOut drift capacity deepest c place) (hs : s.Distinct)
    {taken : Bool} (hslot : s.slots[place]? = some (q, taken)) :
    (absorb poses drift capacity deepest s c).Lost q.id := by
  have hid : s.ids[place]? = some q.id := by
    rw [ids, List.getElem?_map, hslot]
    rfl
  have hissued : q.id < s.nextId := hs.lt_nextId _ (List.mem_of_getElem? hid)
  unfold absorb
  rw [placement_eq_replaces_iff.mpr h]
  refine ⟨Nat.lt_succ_of_lt hissued, ?_⟩
  show q.id ∉ (s.overwrite poses place c).ids
  rw [ids_overwrite]
  intro hmem
  -- The identity stood at one place only, and something else stands there now.
  obtain ⟨i, hi⟩ := List.mem_iff_getElem?.mp hmem
  rw [List.getElem?_set] at hi
  split_ifs at hi with hplace
  · exact Nat.ne_of_gt hissued (Option.some_inj.mp hi)
  · exact hplace ((List.getElem?_inj (List.getElem?_eq_some_iff.mp hid).1 hs.nodup).mp
      (hid.trans hi.symm))

theorem foldl_absorb_loses {contacts : Contacts α} (hs : s.Distinct)
    (hslot : s.slots[place]? = some (q, true)) {k : ℕ} {d : Contact α}
    (hd : contacts[k]? = some d)
    (hpushed : ((contacts.take k).foldl (absorb poses drift capacity deepest) s).PushesOut drift
      capacity deepest d place) :
    (contacts.foldl (absorb poses drift capacity deepest) s).Lost q.id := by
  induction contacts generalizing s k with
  | nil => cases hd
  | cons c rest ih =>
    by_cases hfirst : s.PushesOut drift capacity deepest c place
    · exact (hfirst.lost hs hslot).foldl rest
    · cases k with
      | zero =>
        obtain rfl := Option.some_inj.mp hd
        exact absurd hpushed hfirst
      | succ k => exact ih (hs.absorb c) (absorb_keeps hslot hfirst) hd hpushed

end Absorbing

namespace ContactMemory

variable {m : ContactMemory α} {a b : Participant α}

/-! ### Along an update -/

/-- The contacts that an update reports have the identities and positions that it gave them. -/
theorem update_identities (h : m.ignores a b = false) (contacts : Contacts α) :
    (m.update a b contacts).1.map (fun out ↦ (out.id?, out.position)) =
      (m.absorbing a b contacts).slots.map fun slot ↦ (some slot.1.id, slot.1.position) := by
  rw [update_fst h, Participant.turned_eq_map, List.map_map, List.map_map, List.map_map]
  refine List.map_congr_left fun slot _ ↦ ?_
  simp only [Function.comp_apply]
  split_ifs <;> rfl

/-- The state after the first new contacts and some of those behind them. -/
theorem absorbing_take_add (m : ContactMemory α) (a b : Participant α) (contacts : Contacts α)
    (n k : ℕ) : m.absorbing a b (contacts.take (n + k)) =
      (((Participant.turned a b contacts).drop n).take k).foldl
        (Absorbing.absorb (Participant.orderedPoses a b) m.config.drift (m.pairOf a b).capacity
          (m.spared? a b)) (m.absorbing a b (contacts.take n)) := by
  rw [List.take_add, absorbing_append, Participant.turned_eq_map, Participant.turned_eq_map,
    List.map_take, List.map_drop]

/-- The state after the first new contacts and all of those behind them. -/
theorem absorbing_eq_foldl_drop (m : ContactMemory α) (a b : Participant α) (contacts : Contacts α)
    (n : ℕ) : m.absorbing a b contacts =
      ((Participant.turned a b contacts).drop n).foldl
        (Absorbing.absorb (Participant.orderedPoses a b) m.config.drift (m.pairOf a b).capacity
          (m.spared? a b)) (m.absorbing a b (contacts.take n)) := by
  conv_lhs => rw [← List.take_append_drop n contacts, absorbing_append]
  rw [Participant.turned_eq_map, Participant.turned_eq_map, List.map_drop]

/-- The next new contact of an update is taken in after those before it. -/
theorem absorbing_take_succ {contacts : Contacts α} {n : ℕ} {c : Contact α}
    (hc : (Participant.turned a b contacts)[n]? = some c) :
    m.absorbing a b (contacts.take (n + 1)) =
      Absorbing.absorb (Participant.orderedPoses a b) m.config.drift (m.pairOf a b).capacity
        (m.spared? a b) (m.absorbing a b (contacts.take n)) c := by
  have hone : ((Participant.turned a b contacts).drop n).take 1 = [c] := by
    rw [List.take_one, List.head?_drop, hc]
    rfl
  rw [absorbing_take_add, hone, List.foldl_cons, List.foldl_nil]

/-- A new contact that takes over the identity of a remembered one stands in its place at once. -/
theorem slot_of_takesOver {contacts : Contacts α} {n place : ℕ} {c : Contact α} {r : Remembered α}
    (hc : (Participant.turned a b contacts)[n]? = some c)
    (htakes : (m.absorbing a b (contacts.take n)).TakesOver m.config.drift c place r) :
    (m.absorbing a b (contacts.take (n + 1))).slots[place]? =
      some (.ofContact (Participant.orderedPoses a b) r.id c, true) := by
  rw [absorbing_take_succ hc]
  exact htakes.slot_absorb

variable {contacts : Contacts α} {n place : ℕ} {q : Remembered α}

/-- A contact of an update keeps its place if no later one pushes it out. -/
theorem absorbing_keeps
    (hslot : (m.absorbing a b (contacts.take (n + 1))).slots[place]? = some (q, true))
    (hkept : ∀ k d, n < k → (Participant.turned a b contacts)[k]? = some d →
      ¬(m.absorbing a b (contacts.take k)).PushesOut m.config.drift (m.pairOf a b).capacity
        (m.spared? a b) d place) :
    (m.absorbing a b contacts).slots[place]? = some (q, true) := by
  rw [absorbing_eq_foldl_drop m a b contacts (n + 1)]
  refine Absorbing.foldl_absorb_keeps hslot fun k d hd ↦ ?_
  rw [List.getElem?_drop] at hd
  rw [← absorbing_take_add]
  exact hkept (n + 1 + k) d (by omega) hd

/-- The identity of a contact of an update that a later one pushes out is lost. -/
theorem absorbing_loses (hm : m.Sound)
    (hslot : (m.absorbing a b (contacts.take (n + 1))).slots[place]? = some (q, true)) {k : ℕ}
    {d : Contact α} (hk : n < k) (hd : (Participant.turned a b contacts)[k]? = some d)
    (hpushed : (m.absorbing a b (contacts.take k)).PushesOut m.config.drift
      (m.pairOf a b).capacity (m.spared? a b) d place) :
    (m.absorbing a b contacts).Lost q.id := by
  obtain ⟨later, rfl⟩ := Nat.exists_eq_add_of_le hk
  rw [absorbing_take_add] at hpushed
  rw [absorbing_eq_foldl_drop m a b contacts (n + 1)]
  refine Absorbing.foldl_absorb_loses (hm.absorbing_distinct a b _) hslot ?_ hpushed
  rw [List.getElem?_drop]
  exact hd

/-- A new contact of an update that takes over the identity of a remembered contact, after any
calls. If no later contact of the update pushes it out, it is reported under the identity where it
was found; if one does, the identity is lost. -/
theorem identity_kept_unless_pushed_out (config : MemoryConfig α) (calls : List (Call α))
    (a b : Participant α) (contacts : Contacts α) (henabled : config.enabled = true)
    (hwanted : ¬(a.capacity = 0 ∧ b.capacity = 0)) {n place : ℕ} {c : Contact α} {r : Remembered α}
    (hc : (Participant.turned a b contacts)[n]? = some c)
    (htakes : ((run config calls).absorbing a b (contacts.take n)).TakesOver config.drift c place
      r) :
    let m := run config calls
    let pushedOut := ∃ k d, n < k ∧ (Participant.turned a b contacts)[k]? = some d ∧
      (m.absorbing a b (contacts.take k)).PushesOut config.drift (m.pairOf a b).capacity
        (m.spared? a b) d place
    (¬pushedOut → ∃ out ∈ (m.update a b contacts).1,
        out.id? = some r.id ∧ out.position = c.position) ∧
      (pushedOut → ∀ out ∈ (m.update a b contacts).1, out.id? ≠ some r.id) := by
  intro m pushedOut
  have hconfig : m.config = config := run_config config calls
  have hignores : m.ignores a b = false :=
    (ignores_eq_false_iff (hconfig.symm ▸ henabled)).mpr hwanted
  have hreported := update_identities hignores contacts
  have hslot : (m.absorbing a b (contacts.take (n + 1))).slots[place]? =
      some (.ofContact (Participant.orderedPoses a b) r.id c, true) :=
    slot_of_takesOver hc (by rw [hconfig]; exact htakes)
  constructor
  · intro hkept
    have hfinal := absorbing_keeps hslot fun k d hk hd hpushed ↦
      hkept ⟨k, d, hk, hd, hconfig ▸ hpushed⟩
    have hout := List.mem_map_of_mem
      (f := fun slot : Remembered α × Bool ↦ (some slot.1.id, slot.1.position))
      (List.mem_of_getElem? hfinal)
    rw [← hreported] at hout
    obtain ⟨out, hmem, heq⟩ := List.mem_map.mp hout
    exact ⟨out, hmem, congrArg Prod.fst heq, congrArg Prod.snd heq⟩
  · rintro ⟨k, d, hk, hd, hpushed⟩ out hout hid
    have hlost := absorbing_loses (sound_run config calls) hslot hk hd (by
      rw [run_config]
      exact hpushed)
    have hslots := List.mem_map_of_mem
      (f := fun out : Contact α ↦ (out.id?, out.position)) hout
    rw [hreported] at hslots
    obtain ⟨slot, hmem, heq⟩ := List.mem_map.mp hslots
    refine hlost.not_mem_ids (List.mem_map.mpr ⟨slot, hmem, ?_⟩)
    exact Option.some_inj.mp ((congrArg Prod.fst heq).trans hid)

/-- In a full pair a single new contact keeps the identity that it takes over. -/
theorem identity_kept_by_single_contact :
    let first : Participant Float := ⟨0, .identity, 2⟩
    let second : Participant Float := ⟨1, .identity, 2⟩
    let contact (x : Float) : Contact Float := ⟨⟨x, 0, 0⟩, ⟨0, 0, 1⟩, 1, none⟩
    let m := run .standard [.update first second [contact 0, contact 1]]
    ∃ r, (m.absorbing first second []).TakesOver MemoryConfig.standard.drift (contact 0.0078125) 0
        r ∧
      ∃ out ∈ (m.update first second [contact 0.0078125]).1,
        out.id? = some r.id ∧ out.position = (contact 0.0078125).position := by
  intro first second contact m
  have hplacement : (m.absorbing first second []).placement MemoryConfig.standard.drift 2
      (m.spared? first second) (contact 0.0078125) = .takesOver 0 := by decide +kernel
  obtain ⟨r, hr⟩ := Absorbing.placement_eq_takesOver_iff.mp hplacement
  have hkept := identity_kept_unless_pushed_out .standard
    [.update first second [contact 0, contact 1]] first second [contact 0.0078125] rfl (by decide)
    (n := 0) rfl hr
  refine ⟨r, hr, hkept.1 ?_⟩
  rintro ⟨k, d, hk, hd, -⟩
  have hlength := (List.getElem?_eq_some_iff.mp hd).1
  exact Nat.not_lt.mpr (Nat.le_of_lt_succ hlength) hk

/-- Three contacts fill a pair, and the deepest is far from the others. Of two new contacts the
first takes over the identity of the nearest one, and the second, which is near to none, pushes it
out: the identity is not reported. -/
theorem identity_lost_at_capacity :
    let first : Participant Float := ⟨0, .identity, 3⟩
    let second : Participant Float := ⟨1, .identity, 3⟩
    let contact (x depth : Float) : Contact Float := ⟨⟨x, 0, 0⟩, ⟨0, 0, 1⟩, depth, none⟩
    let calls : List (Call Float) :=
      [.update first second [contact 0 0.1, contact 1 0.1, contact 5 1], .maintain]
    let m := run .standard calls
    let contacts := [contact 0.0078125 0.1, contact 0.125 0.1]
    ∃ r ∈ (m.pairOf first second).surviving (Participant.orderedPoses first second)
        MemoryConfig.standard.drift,
      (m.absorbing first second []).TakesOver MemoryConfig.standard.drift
        (contact 0.0078125 0.1) 0 r ∧
      ∀ out ∈ (m.update first second contacts).1, out.id? ≠ some r.id := by
  intro first second contact calls m contacts
  have hplacement : (m.absorbing first second []).placement MemoryConfig.standard.drift 3
      (m.spared? first second) (contact 0.0078125 0.1) = .takesOver 0 := by decide +kernel
  obtain ⟨r, hr⟩ := Absorbing.placement_eq_takesOver_iff.mp hplacement
  have hstart : r ∈ (m.pairOf first second).surviving (Participant.orderedPoses first second)
      MemoryConfig.standard.drift := by
    have hslot := List.mem_of_getElem? hr.isNearest.is_candidate
    obtain ⟨q, hq, heq⟩ := List.mem_map.mp hslot
    rwa [← (Prod.mk.inj heq).1]
  have hid : some r.id = some 0 := by
    have hslot := congrArg (Option.map fun slot ↦ slot.1.id) hr.isNearest.is_candidate
    exact hslot.symm.trans (by decide +kernel)
  refine ⟨r, hstart, hr, fun out hout ↦ ?_⟩
  have hids : (m.update first second contacts).1.map Contact.id? = [some 3, some 1, some 2] := by
    decide +kernel
  rw [hid]
  intro hzero
  have hmem := List.mem_map_of_mem (f := Contact.id?) hout
  rw [hids, hzero] at hmem
  exact absurd hmem (by decide)

end ContactMemory

end Collision
