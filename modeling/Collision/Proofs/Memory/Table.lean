import Collision.Memory
import Mathlib.Data.List.Basic
import Mathlib.Data.List.Induction
import Mathlib.Data.List.Nodup

/-!
# The table of contact memory

What a call does to the entries of a contact memory, pair by pair. `ContactMemory.Call` are the
calls that change it and `ContactMemory.run` is the memory after some of them; every memory that
calls lead to has one entry for each pair (`ContactMemory.keyed_run`).

* `ContactMemory.get?_update`, `ContactMemory.get?_maintain`, `ContactMemory.get?_removeGeom` and
  `ContactMemory.get?_clear` say what is remembered under a key after a call.
* `PairMemory.maintained?` is what a maintenance leaves of one pair; `ContactMemory.maintain_fst`
  says that its report counts the active pairs and the pairs of which nothing is left.
-/

set_option autoImplicit false
set_option relaxedAutoImplicit false

namespace Collision

variable {α : Type}

/-! ### Entries under keys -/

section Entries

variable {κ : Type} [BEq κ] [LawfulBEq κ] [DecidableEq κ] {β : Type}

theorem lookup_cons_eq (key other : κ) (value : β) (rest : List (κ × β)) :
    ((key, value) :: rest).lookup other =
      if other = key then some value else rest.lookup other := by
  rw [List.lookup_cons]
  by_cases h : other = key
  · rw [if_pos h, h, beq_self_eq_true]
  · rw [if_neg h, beq_eq_false_iff_ne.mpr h]

/-- Entries whose keys are kept are found as before. -/
theorem lookup_filter_key (keep : κ → Bool) (entries : List (κ × β)) (key : κ) :
    (entries.filter fun e ↦ keep e.1).lookup key =
      if keep key then entries.lookup key else none := by
  induction entries with
  | nil => simp
  | cons e rest ih =>
    rw [lookup_cons_eq]
    by_cases hkeep : keep e.1 = true
    · rw [List.filter_cons_of_pos (p := fun e : κ × β ↦ keep e.1) hkeep, lookup_cons_eq, ih]
      split_ifs with hkey hother
      · rfl
      · exact absurd (hkey ▸ hkeep) hother
      · rfl
      · rfl
    · rw [List.filter_cons_of_neg (p := fun e : κ × β ↦ keep e.1) hkeep, ih]
      split_ifs with hother hkey
      · exact absurd (hkey ▸ hother) hkeep
      · rfl
      · rfl

omit [DecidableEq κ] in
theorem lookup_eq_none_of_key {entries : List (κ × β)} {key : κ}
    (h : key ∉ entries.map Prod.fst) : entries.lookup key = none := by
  rw [List.lookup_eq_none_iff]
  intro e he
  exact bne_iff_ne.mpr fun heq ↦ h (List.mem_map.mpr ⟨e, he, heq.symm⟩)

/-- Under keys that do not repeat, an entry is what is found under its key. -/
theorem lookup_eq_some_iff_mem {entries : List (κ × β)} (hkeys : (entries.map Prod.fst).Nodup)
    (key : κ) (value : β) : entries.lookup key = some value ↔ (key, value) ∈ entries := by
  induction entries with
  | nil => simp
  | cons e rest ih =>
    obtain ⟨hnew, hrest⟩ := List.nodup_cons.mp hkeys
    rw [lookup_cons_eq, List.mem_cons]
    split_ifs with hkey
    · refine ⟨fun h ↦ .inl (by rw [hkey, ← Option.some_inj.mp h]), ?_⟩
      rintro (h | h)
      · rw [← h]
      · exact absurd (List.mem_map.mpr ⟨_, h, hkey⟩) hnew
    · rw [ih hrest]
      exact ⟨.inr, fun h ↦ h.resolve_left fun heq ↦ hkey (congrArg Prod.fst heq)⟩

/-- Under keys that do not repeat, what is made of an entry is found under its key. -/
theorem lookup_filterMap_value (f : β → Option β) {entries : List (κ × β)}
    (hkeys : (entries.map Prod.fst).Nodup) (key : κ) :
    (entries.filterMap fun e ↦ (f e.2).map (Prod.mk e.1)).lookup key =
      (entries.lookup key).bind f := by
  induction entries with
  | nil => rfl
  | cons e rest ih =>
    obtain ⟨hnew, hrest⟩ := List.nodup_cons.mp hkeys
    have hbehind : key = e.1 → rest.lookup key = none :=
      fun h ↦ lookup_eq_none_of_key (h ▸ hnew)
    rw [lookup_cons_eq, List.filterMap_cons]
    rcases hf : f e.2 with _ | value
    · rw [Option.map_none, ih hrest]
      split_ifs with hkey
      · rw [hbehind hkey, Option.bind_some, hf]
        rfl
      · rfl
    · rw [Option.map_some]
      show ((e.1, value) :: _).lookup key = _
      rw [lookup_cons_eq, ih hrest]
      split_ifs with hkey
      · exact hf.symm
      · rfl

omit [BEq κ] [LawfulBEq κ] [DecidableEq κ] in
theorem keys_filterMap_sublist (f : β → Option β) (entries : List (κ × β)) :
    ((entries.filterMap fun e ↦ (f e.2).map (Prod.mk e.1)).map Prod.fst).Sublist
      (entries.map Prod.fst) := by
  induction entries with
  | nil => exact List.Sublist.refl _
  | cons e rest ih =>
    rw [List.filterMap_cons, List.map_cons]
    rcases f e.2 with _ | value
    · exact ih.cons e.1
    · exact ih.cons_cons e.1

end Entries

/-! ### One maintenance of a pair -/

/-- What a maintenance leaves of a pair: nothing if it was idle and is too old now. -/
def PairMemory.maintained? (maxAge : ℕ) (m : PairMemory α) : Option (PairMemory α) :=
  if m.active || decide (m.age.idle.toNat ≤ maxAge) then some m.age else none

/-- The contacts that are left are those there were. -/
theorem PairMemory.maintained?_contacts {maxAge : ℕ} {m next : PairMemory α}
    (h : m.maintained? maxAge = some next) :
    next.contacts = m.contacts ∧ next.capacity = m.capacity := by
  unfold maintained? age at h
  split_ifs at h <;> obtain rfl := Option.some_inj.mp h <;> exact ⟨rfl, rfl⟩

namespace ContactMemory

/-! ### Entries after a call -/

@[simp]
theorem lookup_store (key other : GeomId × GeomId) (pair : PairMemory α)
    (entries : List ((GeomId × GeomId) × PairMemory α)) :
    (store key pair entries).lookup other =
      if other = key then some pair else entries.lookup other := by
  induction entries with
  | nil => exact lookup_cons_eq key other pair []
  | cons e rest ih =>
    rw [store]
    by_cases hhead : e.1 = key
    · rw [if_pos hhead, lookup_cons_eq, lookup_cons_eq, hhead]
      split_ifs <;> rfl
    · rw [if_neg hhead, lookup_cons_eq, lookup_cons_eq, ih]
      split_ifs with hfirst hother
      · exact absurd (hfirst.symm.trans hother) hhead
      · rfl
      · rfl
      · rfl

theorem store_keys (key : GeomId × GeomId) (pair : PairMemory α)
    (entries : List ((GeomId × GeomId) × PairMemory α)) :
    (store key pair entries).map Prod.fst =
      if key ∈ entries.map Prod.fst then entries.map Prod.fst
      else entries.map Prod.fst ++ [key] := by
  induction entries with
  | nil => rfl
  | cons e rest ih =>
    rw [store]
    by_cases hhead : e.1 = key
    · rw [if_pos hhead, if_pos (hhead ▸ List.mem_cons_self), List.map_cons, List.map_cons, hhead]
    · have hmem : key ∈ (e :: rest).map Prod.fst ↔ key ∈ rest.map Prod.fst := by
        rw [List.map_cons, List.mem_cons]
        exact or_iff_right fun h ↦ hhead h.symm
      rw [if_neg hhead, List.map_cons, ih]
      simp only [hmem]
      split_ifs <;> rfl

/-- There is one entry for each pair. -/
def Keyed (m : ContactMemory α) : Prop := (m.entries.map Prod.fst).Nodup

theorem get?_removeGeom (m : ContactMemory α) (id : GeomId) (key : GeomId × GeomId) :
    (m.removeGeom id).get? key = if involves id key then none else m.get? key := by
  refine (lookup_filter_key (fun key ↦ !involves id key) m.entries key).trans ?_
  cases involves id key <;> rfl

theorem get?_clear (m : ContactMemory α) (key : GeomId × GeomId) : m.clear.get? key = none := rfl

/-! ### Maintenance -/

/-- The loop of a maintenance: entries are kept or dropped one by one, and each is counted. -/
theorem foldr_maintainEntry (maxAge : ℕ) (entries : List ((GeomId × GeomId) × PairMemory α)) :
    entries.foldr (maintainEntry maxAge) (⟨0, 0⟩, []) =
      (⟨entries.countP fun e ↦ e.2.active,
        entries.countP fun e ↦ (e.2.maintained? maxAge).isNone⟩,
        entries.filterMap fun e ↦ (e.2.maintained? maxAge).map (Prod.mk e.1)) := by
  induction entries with
  | nil => rfl
  | cons e rest ih =>
    rw [List.foldr_cons, ih, maintainEntry, List.countP_cons, List.countP_cons,
      List.filterMap_cons]
    unfold PairMemory.maintained?
    by_cases hactive : e.2.active = true
    · simp [hactive]
    · rw [Bool.not_eq_true] at hactive
      by_cases hyoung : e.2.age.idle.toNat ≤ maxAge
      · simp [hactive, hyoung]
      · simp [hactive, hyoung]

/-- A maintenance reports how many pairs were active and of how many nothing is left. -/
theorem maintain_fst (m : ContactMemory α) :
    m.maintain.1 = ⟨m.activeCount,
      m.entries.countP fun e ↦ (e.2.maintained? m.config.maxAge).isNone⟩ :=
  congrArg Prod.fst (foldr_maintainEntry m.config.maxAge m.entries)

theorem maintain_entries (m : ContactMemory α) :
    m.maintain.2.entries =
      m.entries.filterMap fun e ↦ (e.2.maintained? m.config.maxAge).map (Prod.mk e.1) :=
  congrArg Prod.snd (foldr_maintainEntry m.config.maxAge m.entries)

theorem get?_maintain {m : ContactMemory α} (hkeyed : m.Keyed) (key : GeomId × GeomId) :
    m.maintain.2.get? key = (m.get? key).bind (PairMemory.maintained? m.config.maxAge) := by
  unfold get?
  rw [maintain_entries]
  exact lookup_filterMap_value (PairMemory.maintained? m.config.maxAge) hkeyed key

/-! ### Updates -/

theorem ignores_eq_false_iff {m : ContactMemory α} {a b : Participant α}
    (henabled : m.config.enabled = true) :
    m.ignores a b = false ↔ ¬(a.capacity = 0 ∧ b.capacity = 0) := by
  simp [ignores, henabled]

variable [Scalar α]

theorem get?_update {m : ContactMemory α} {a b : Participant α} (h : m.ignores a b = false)
    (contacts : Contacts α) (key : GeomId × GeomId) :
    (m.update a b contacts).2.get? key =
      if key = orderedPair a.id b.id then
        some ((m.pairOf a b).update (Participant.orderedPoses a b) m.config.drift m.nextId
          (Participant.turned a b contacts)).1
      else m.get? key := by
  unfold update
  rw [h]
  exact lookup_store _ _ _ _

theorem update_ignored {m : ContactMemory α} {a b : Participant α} (h : m.ignores a b = true)
    (contacts : Contacts α) : m.update a b contacts = (contacts, m) := by
  unfold update
  rw [h]
  rfl

/-! ### Calls -/

/-- A call that changes contact memory. -/
inductive Call (α : Type) where
  | update (a b : Participant α) (contacts : Contacts α)
  | maintain
  | removeGeom (id : GeomId)
  | clear

/-- The memory after a call. -/
def step (m : ContactMemory α) : Call α → ContactMemory α
  | .update a b contacts => (m.update a b contacts).2
  | .maintain => m.maintain.2
  | .removeGeom id => m.removeGeom id
  | .clear => m.clear

/-- The memory after calls, from nothing remembered. -/
def run (config : MemoryConfig α) (calls : List (Call α)) : ContactMemory α :=
  calls.foldl step (.empty config)

@[simp]
theorem run_concat (config : MemoryConfig α) (calls : List (Call α)) (call : Call α) :
    run config (calls ++ [call]) = (run config calls).step call :=
  List.foldl_concat ..

/-- What holds of an empty memory and survives a call holds after any calls. -/
theorem run_induction {config : MemoryConfig α} {motive : List (Call α) → ContactMemory α → Prop}
    (empty : motive [] (.empty config))
    (step : ∀ calls call, motive calls (run config calls) →
      motive (calls ++ [call]) ((run config calls).step call)) (calls : List (Call α)) :
    motive calls (run config calls) := by
  induction calls using List.reverseRecOn with
  | nil => exact empty
  | append_singleton calls call ih =>
    rw [run_concat]
    exact step calls call ih

theorem step_config (m : ContactMemory α) (call : Call α) : (m.step call).config = m.config := by
  cases call with
  | update a b contacts =>
    show (m.update a b contacts).2.config = m.config
    unfold update
    split_ifs <;> rfl
  | maintain => rfl
  | removeGeom id => rfl
  | clear => rfl

theorem run_config (config : MemoryConfig α) (calls : List (Call α)) :
    (run config calls).config = config :=
  run_induction (motive := fun _ m ↦ m.config = config) rfl
    (fun _ call ih ↦ (step_config _ call).trans ih) calls

theorem Keyed.step {m : ContactMemory α} (hm : m.Keyed) (call : Call α) : (m.step call).Keyed := by
  cases call with
  | update a b contacts =>
    show (m.update a b contacts).2.Keyed
    unfold update
    split_ifs
    · exact hm
    · show ((store _ _ m.entries).map Prod.fst).Nodup
      rw [store_keys]
      split_ifs with hold
      · exact hm
      · exact List.nodup_append.mpr ⟨hm, List.nodup_singleton _, fun key hkey other hother heq ↦
          hold (List.mem_singleton.mp hother ▸ heq ▸ hkey)⟩
  | maintain =>
    show (m.maintain.2.entries.map Prod.fst).Nodup
    rw [maintain_entries]
    exact hm.sublist (keys_filterMap_sublist _ _)
  | removeGeom id => exact hm.sublist (List.filter_sublist.map Prod.fst)
  | clear => exact List.nodup_nil

theorem keyed_run (config : MemoryConfig α) (calls : List (Call α)) : (run config calls).Keyed :=
  run_induction (motive := fun _ m ↦ m.Keyed) List.nodup_nil (fun _ call ih ↦ ih.step call) calls

end ContactMemory

end Collision
