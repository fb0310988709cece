import Collision.Proofs.Memory.Table
import Mathlib.Algebra.Group.Nat.Defs
import Mathlib.Tactic.Common

/-!
# Ages of remembered pairs

The age of a pair is the number of maintenances since its latest update, and a pair that was
forgotten since has none: `ContactMemory.Refreshed` says so of the calls alone. A memory stores an
age as a flag and a counter, `PairMemory.HasAge` reads it off, and `ContactMemory.Tracks` is the
invariant that what is stored has the age that the calls give it.

* `ContactMemory.remembered_by_age` says which pairs any calls leave remembered and which of them
  are active, what a maintenance reports and keeps, and that its counter stays within 32 bits.
-/

set_option autoImplicit false
set_option relaxedAutoImplicit false

namespace Collision

variable {α : Type}

/-- The flag and the counter of a pair say its age. -/
structure PairMemory.HasAge (m : PairMemory α) (age : ℕ) : Prop where
  active_iff : m.active = true ↔ age = 0
  idle_eq : m.idle.toNat = age - 1

namespace PairMemory.HasAge

variable {m : PairMemory α} {age : ℕ}

/-- A counter that stands for an age within 32 bits does not overflow. -/
theorem toNat_idle_add_one (hm : m.HasAge age) (hage : age < 2 ^ 32) :
    (m.idle + 1).toNat = m.idle.toNat + 1 := by
  have hbound : m.idle.toNat + 1 < 2 ^ 32 := by
    rcases age.eq_zero_or_pos with rfl | hpos
    · rw [hm.idle_eq]
      decide
    · rw [hm.idle_eq]
      omega
  rw [UInt32.toNat_add]
  exact Nat.mod_eq_of_lt hbound

/-- A maintenance leaves a pair that is a maintenance older, or nothing of a pair that was as old as
a pair may get. -/
theorem maintained? (hm : m.HasAge age) {maxAge : ℕ} (hmaxAge : maxAge < 2 ^ 32 - 1)
    (hage : age ≤ maxAge + 1) :
    (∃ next, m.maintained? maxAge = some next ∧ next.HasAge (age + 1) ∧ age + 1 ≤ maxAge + 1) ∨
      (m.maintained? maxAge = none ∧ maxAge + 1 < age + 1) := by
  unfold PairMemory.maintained? PairMemory.age
  by_cases hactive : m.active = true
  · refine .inl ⟨_, by rw [hactive]; rfl, ⟨by simp, ?_⟩, ?_⟩
    · simp [hm.active_iff.mp hactive]
    · rw [hm.active_iff.mp hactive]
      omega
  · have hpos : age ≠ 0 := fun h ↦ hactive (hm.active_iff.mpr h)
    have hidle : (m.idle + 1).toNat = age := by
      rw [hm.toNat_idle_add_one (by omega), hm.idle_eq]
      omega
    rw [Bool.not_eq_true] at hactive
    simp only [hactive, Bool.false_eq_true, if_false, Bool.false_or, hidle, decide_eq_true_eq]
    by_cases hyoung : age ≤ maxAge
    · exact .inl ⟨_, if_pos hyoung, ⟨by simp, hidle⟩, Nat.succ_le_succ hyoung⟩
    · exact .inr ⟨if_neg hyoung, by omega⟩

end PairMemory.HasAge

namespace ContactMemory

/-! ### Ages by the calls -/

namespace Call

/-- The call updates the pair of a key, and its contacts are to be remembered. -/
def Refreshes (key : GeomId × GeomId) : Call α → Prop
  | .update a b _ => orderedPair a.id b.id = key ∧ ¬(a.capacity = 0 ∧ b.capacity = 0)
  | _ => False

/-- The call forgets the pair of a key. -/
def Forgets (key : GeomId × GeomId) : Call α → Prop
  | .removeGeom id => key.1 = id ∨ key.2 = id
  | .clear => True
  | _ => False

/-- The call is a maintenance. -/
def isMaintenance : Call α → Bool
  | .maintain => true
  | _ => false

end Call

/-- The latest call that refreshed a pair is so many maintenances ago, and no call since has
forgotten the pair. -/
def Refreshed (calls : List (Call α)) (key : GeomId × GeomId) (age : ℕ) : Prop :=
  ∃ before call since, calls = before ++ call :: since ∧ call.Refreshes key ∧
    (∀ later ∈ since, ¬later.Refreshes key ∧ ¬later.Forgets key) ∧
    since.countP Call.isMaintenance = age

variable {calls : List (Call α)} {call : Call α} {key : GeomId × GeomId} {age : ℕ}

theorem not_refreshed_nil : ¬Refreshed ([] : List (Call α)) key age := by
  rintro ⟨before, call, since, hcalls, -⟩
  exact absurd hcalls.symm (List.append_ne_nil_of_right_ne_nil _ (List.cons_ne_nil _ _))

/-- A call makes a pair new, forgets it, or leaves it as old as it was, a maintenance apart. -/
theorem refreshed_concat : Refreshed (calls ++ [call]) key age ↔
    (call.Refreshes key ∧ age = 0) ∨
      (¬call.Refreshes key ∧ ¬call.Forgets key ∧
        ∃ earlier, Refreshed calls key earlier ∧
          age = earlier + if call.isMaintenance then 1 else 0) := by
  constructor
  · rintro ⟨before, latest, since, hcalls, hrefreshes, hsince, hage⟩
    rcases since.eq_nil_or_concat' with rfl | ⟨rest, last, rfl⟩
    · obtain ⟨-, hlatest⟩ := List.append_inj' hcalls rfl
      obtain rfl := List.singleton_inj.mp hlatest
      exact .inl ⟨hrefreshes, hage.symm⟩
    · rw [← List.cons_append, ← List.append_assoc] at hcalls
      obtain ⟨hbefore, hlast⟩ := List.append_inj' hcalls rfl
      obtain rfl := List.singleton_inj.mp hlast
      obtain ⟨hfresh, hkept⟩ := hsince call (List.mem_append_right _ (List.mem_singleton_self _))
      refine .inr ⟨hfresh, hkept, _, ⟨before, latest, rest, hbefore, hrefreshes, ?_, rfl⟩, ?_⟩
      · exact fun later hlater ↦ hsince later (List.mem_append_left _ hlater)
      · rw [← hage, List.countP_append, List.countP_singleton]
  · rintro (⟨hrefreshes, rfl⟩ | ⟨hfresh, hkept, earlier, hearlier, rfl⟩)
    · exact ⟨calls, call, [], rfl, hrefreshes, nofun, rfl⟩
    · obtain ⟨before, latest, since, rfl, hrefreshes, hsince, rfl⟩ := hearlier
      refine ⟨before, latest, since ++ [call], ?_, hrefreshes, ?_, ?_⟩
      · rw [List.append_assoc, List.cons_append]
      · intro later hlater
        rcases List.mem_append.mp hlater with hlater | hlater
        · exact hsince later hlater
        · rw [List.mem_singleton.mp hlater]
          exact ⟨hfresh, hkept⟩
      · rw [List.countP_append, List.countP_singleton]

/-- A pair has one age. -/
theorem Refreshed.unique {other : ℕ} (h : Refreshed calls key age)
    (hother : Refreshed calls key other) : age = other := by
  induction calls using List.reverseRecOn generalizing age other with
  | nil => exact absurd h not_refreshed_nil
  | append_singleton calls call ih =>
    rcases refreshed_concat.mp h with ⟨hrefreshes, rfl⟩ | ⟨hfresh, -, earlier, hearlier, rfl⟩
    · rcases refreshed_concat.mp hother with ⟨-, rfl⟩ | ⟨hfresh, -⟩
      · rfl
      · exact absurd hrefreshes hfresh
    · rcases refreshed_concat.mp hother with ⟨hrefreshes, -⟩ | ⟨-, -, earlier', hearlier', rfl⟩
      · exact absurd hrefreshes hfresh
      · rw [ih hearlier hearlier']

/-! ### Ages by the memory -/

/-- What is remembered of a pair has the age that the calls give it, and nothing is remembered of a
pair that is too old by the calls. -/
def Tracks (calls : List (Call α)) (m : ContactMemory α) (key : GeomId × GeomId) : Prop :=
  (∃ age pair, Refreshed calls key age ∧ age ≤ m.config.maxAge + 1 ∧
      m.get? key = some pair ∧ pair.HasAge age) ∨
    (m.get? key = none ∧ ∀ age, Refreshed calls key age → m.config.maxAge + 1 < age)

variable {m next : ContactMemory α}

/-- A call that does nothing to a pair, and is no maintenance. -/
theorem Tracks.of_untouched (hm : m.Tracks calls key) (hconfig : next.config = m.config)
    (hget : next.get? key = m.get? key) (hfresh : ¬call.Refreshes key) (hkept : ¬call.Forgets key)
    (hcall : call.isMaintenance = false) : next.Tracks (calls ++ [call]) key := by
  have hage (age : ℕ) : Refreshed (calls ++ [call]) key age ↔ Refreshed calls key age := by
    simp [refreshed_concat, hfresh, hkept, hcall]
  unfold Tracks
  simp only [hconfig, hget, hage]
  exact hm

/-- A call that forgets a pair. -/
theorem Tracks.of_forgotten (hget : next.get? key = none) (hfresh : ¬call.Refreshes key)
    (hforgets : call.Forgets key) : next.Tracks (calls ++ [call]) key := by
  refine .inr ⟨hget, fun age hage ↦ ?_⟩
  rcases refreshed_concat.mp hage with ⟨hrefreshes, -⟩ | ⟨-, hkept, -⟩
  · exact absurd hrefreshes hfresh
  · exact absurd hforgets hkept

theorem Tracks.maintain (hm : m.Tracks calls key) (hkeyed : m.Keyed)
    (hmaxAge : m.config.maxAge < 2 ^ 32 - 1) :
    m.maintain.2.Tracks (calls ++ [.maintain]) key := by
  have hage (age : ℕ) : Refreshed (calls ++ [Call.maintain]) key age ↔
      ∃ earlier, Refreshed calls key earlier ∧ age = earlier + 1 := by
    simp [refreshed_concat, Call.Refreshes, Call.Forgets, Call.isMaintenance]
  unfold Tracks
  rw [get?_maintain hkeyed]
  rcases hm with ⟨age, pair, hrefreshed, hyoung, hget, hpair⟩ | ⟨hget, hold⟩
  · rw [hget, Option.bind_some]
    rcases hpair.maintained? hmaxAge hyoung with ⟨next, hnext, haged, hyoung⟩ | ⟨hnone, hold⟩
    · exact .inl ⟨_, next, (hage _).mpr ⟨age, hrefreshed, rfl⟩, hyoung, hnext, haged⟩
    · refine .inr ⟨hnone, fun other hother ↦ ?_⟩
      obtain ⟨earlier, hearlier, rfl⟩ := (hage other).mp hother
      rw [hearlier.unique hrefreshed]
      exact hold
  · refine .inr ⟨by rw [hget]; rfl, fun other hother ↦ ?_⟩
    obtain ⟨earlier, hearlier, rfl⟩ := (hage other).mp hother
    exact Nat.lt_succ_of_lt (hold earlier hearlier)

theorem Tracks.isSome_iff (hm : m.Tracks calls key) : (m.get? key).isSome = true ↔
    ∃ age ≤ m.config.maxAge + 1, Refreshed calls key age := by
  rcases hm with ⟨age, pair, hrefreshed, hyoung, hget, -⟩ | ⟨hget, hold⟩
  · rw [hget]
    exact iff_of_true rfl ⟨age, hyoung, hrefreshed⟩
  · rw [hget]
    refine iff_of_false Bool.false_ne_true ?_
    rintro ⟨age, hyoung, hrefreshed⟩
    exact absurd (hold age hrefreshed) (Nat.not_lt.mpr hyoung)

theorem Tracks.active_iff (hm : m.Tracks calls key) :
    (∃ pair, m.get? key = some pair ∧ pair.active = true) ↔ Refreshed calls key 0 := by
  rcases hm with ⟨age, pair, hrefreshed, -, hget, hpair⟩ | ⟨hget, hold⟩
  · constructor
    · rintro ⟨other, hother, hactive⟩
      obtain rfl := Option.some_inj.mp (hget.symm.trans hother)
      exact hpair.active_iff.mp hactive ▸ hrefreshed
    · intro hnew
      exact ⟨pair, hget, hpair.active_iff.mpr (hrefreshed.unique hnew)⟩
  · refine iff_of_false ?_ fun hnew ↦ absurd (hold 0 hnew) (Nat.not_lt_zero _)
    rintro ⟨other, hother, -⟩
    cases hget.symm.trans hother

/-- The counter of a pair that is remembered has room for one maintenance more. -/
theorem Tracks.toNat_idle_add_one (hm : m.Tracks calls key)
    (hmaxAge : m.config.maxAge < 2 ^ 32 - 1) {pair : PairMemory α} (hget : m.get? key = some pair) :
    (pair.idle + 1).toNat = pair.idle.toNat + 1 := by
  rcases hm with ⟨age, tracked, -, hyoung, htracked, hage⟩ | ⟨hnone, -⟩
  · obtain rfl := Option.some_inj.mp (htracked.symm.trans hget)
    exact hage.toNat_idle_add_one (by omega)
  · cases hnone.symm.trans hget

/-- A maintenance forgets the pairs of which it leaves nothing. -/
theorem maintain_removed (m : ContactMemory α) (hkeyed : m.Keyed) :
    m.maintain.1.removed = m.entries.countP fun e ↦ (m.maintain.2.get? e.1).isNone := by
  rw [maintain_fst]
  refine List.countP_congr fun e he ↦ ?_
  have hget : m.get? e.1 = some e.2 := (lookup_eq_some_iff_mem hkeyed e.1 e.2).mpr he
  rw [get?_maintain hkeyed, hget, Option.bind_some]

variable [Scalar α]

theorem Tracks.update (hm : m.Tracks calls key) (henabled : m.config.enabled = true)
    (a b : Participant α) (contacts : Contacts α) :
    (m.update a b contacts).2.Tracks (calls ++ [.update a b contacts]) key := by
  have hconfig := step_config m (.update a b contacts)
  rcases hignores : m.ignores a b with _ | _
  · have hget := get?_update hignores contacts key
    by_cases hkey : key = orderedPair a.id b.id
    · rw [if_pos hkey] at hget
      refine .inl ⟨0, _, refreshed_concat.mpr (.inl ⟨⟨hkey.symm, ?_⟩, rfl⟩), Nat.zero_le _, hget,
        ⟨by simp [PairMemory.update], rfl⟩⟩
      exact (ignores_eq_false_iff henabled).mp hignores
    · rw [if_neg hkey] at hget
      exact hm.of_untouched hconfig hget (fun h ↦ hkey h.1.symm) id rfl
  · have hidle : a.capacity = 0 ∧ b.capacity = 0 := by
      by_contra hwanted
      rw [(ignores_eq_false_iff henabled).mpr hwanted] at hignores
      cases hignores
    refine hm.of_untouched hconfig ?_ (fun h ↦ h.2 hidle) id rfl
    rw [update_ignored hignores]

theorem Tracks.step (hm : ∀ key, m.Tracks calls key) (hkeyed : m.Keyed)
    (henabled : m.config.enabled = true) (hmaxAge : m.config.maxAge < 2 ^ 32 - 1) (call : Call α)
    (key : GeomId × GeomId) : (m.step call).Tracks (calls ++ [call]) key := by
  cases call with
  | update a b contacts => exact (hm key).update henabled a b contacts
  | maintain => exact (hm key).maintain hkeyed hmaxAge
  | removeGeom id =>
    have hget := get?_removeGeom m id key
    by_cases hkey : involves id key = true
    · rw [if_pos hkey] at hget
      exact .of_forgotten hget not_false (by simpa [involves, Call.Forgets] using hkey)
    · rw [if_neg hkey] at hget
      exact (hm key).of_untouched rfl hget not_false (by
        simpa [involves, Call.Forgets] using hkey) rfl
  | clear => exact .of_forgotten (get?_clear m key) not_false trivial

theorem tracks_run {config : MemoryConfig α} (henabled : config.enabled = true)
    (hmaxAge : config.maxAge < 2 ^ 32 - 1) (calls : List (Call α)) :
    ∀ key, (run config calls).Tracks calls key := by
  refine run_induction (motive := fun calls m ↦ ∀ key, m.Tracks calls key) ?_ ?_ calls
  · exact fun key ↦ .inr ⟨rfl, fun age h ↦ absurd h not_refreshed_nil⟩
  · intro calls call ih
    refine Tracks.step ih (keyed_run config calls) ?_ ?_ call <;> rw [run_config] <;> assumption

/-- A memory that remembers contacts, after any calls.

A pair is remembered iff a call refreshed it after the last one that forgot it, and at most
`maxAge + 1` maintenances came since the latest such call; it is active iff none came. There is one
entry for a pair. A maintenance would report the number of pairs that are active and the number of
those it would forget, and would leave the contacts of the others as they are, and the counter of a
pair that is idle would not overflow. -/
theorem remembered_by_age (config : MemoryConfig α) (henabled : config.enabled = true)
    (hmaxAge : config.maxAge < 2 ^ 32 - 1) (calls : List (Call α)) :
    let m := run config calls
    (∀ a b, (m.contacts? a b).isSome = true ↔
        ∃ age ≤ config.maxAge + 1, Refreshed calls (orderedPair a b) age) ∧
      (∀ a b, (∃ pair, m.get? (orderedPair a b) = some pair ∧ pair.active = true) ↔
        Refreshed calls (orderedPair a b) 0) ∧
      m.Keyed ∧ m.maintain.1.demoted = m.activeCount ∧
      (m.maintain.1.removed = m.entries.countP fun e ↦ (m.maintain.2.get? e.1).isNone) ∧
      (∀ key next, m.maintain.2.get? key = some next →
        ∃ pair, m.get? key = some pair ∧ next.contacts = pair.contacts) ∧
      ∀ key pair, m.get? key = some pair → pair.active = false →
        (pair.idle + 1).toNat = pair.idle.toNat + 1 := by
  intro m
  have hconfig : m.config = config := run_config config calls
  have hkeyed : m.Keyed := keyed_run config calls
  have htracks := tracks_run henabled hmaxAge calls
  refine ⟨fun a b ↦ ?_, fun a b ↦ (htracks _).active_iff, hkeyed, ?_, maintain_removed m hkeyed,
    fun key next h ↦ ?_, fun key pair hget _ ↦ ?_⟩
  · rw [contacts?, Option.isSome_map, (htracks _).isSome_iff, hconfig]
  · rw [maintain_fst]
  · rw [get?_maintain hkeyed] at h
    obtain ⟨pair, hpair, hnext⟩ := Option.bind_eq_some_iff.mp h
    exact ⟨pair, hpair, (PairMemory.maintained?_contacts hnext).1⟩
  · exact (htracks key).toNat_idle_add_one (hconfig.symm ▸ hmaxAge) hget

/-- With the standard settings a pair outlives the first maintenance after its update and not the
second one. -/
theorem remembered_by_age_of_one_update :
    let first : Participant Float := ⟨3, .identity, 4⟩
    let second : Participant Float := ⟨1, .identity, 0⟩
    let calls : List (Call Float) := [.update first second [], .maintain]
    (MemoryConfig.standard : MemoryConfig Float).enabled = true ∧
      (MemoryConfig.standard : MemoryConfig Float).maxAge < 2 ^ 32 - 1 ∧
      ((run .standard calls).contacts? 3 1).isSome = true ∧
      ((run .standard (calls ++ [.maintain])).contacts? 3 1).isSome = false := by
  intro first second calls
  have henabled : (MemoryConfig.standard : MemoryConfig Float).enabled = true := rfl
  have hmaxAge : (MemoryConfig.standard : MemoryConfig Float).maxAge < 2 ^ 32 - 1 := by decide
  have hrefreshes : (Call.update first second []).Refreshes (orderedPair 3 1) := by
    exact ⟨rfl, by decide⟩
  have hyoung : Refreshed calls (orderedPair 3 1) 1 :=
    ⟨[], _, [.maintain], rfl, hrefreshes, by simp [Call.Refreshes, Call.Forgets], rfl⟩
  have hold : Refreshed (calls ++ [.maintain]) (orderedPair 3 1) 2 :=
    ⟨[], _, [.maintain, .maintain], rfl, hrefreshes, by simp [Call.Refreshes, Call.Forgets], rfl⟩
  refine ⟨henabled, hmaxAge, ?_, ?_⟩
  · exact ((remembered_by_age .standard henabled hmaxAge calls).1 3 1).mpr ⟨1, by decide, hyoung⟩
  · rw [← Bool.not_eq_true, (remembered_by_age .standard henabled hmaxAge _).1 3 1]
    rintro ⟨age, hage, hrefreshed⟩
    rw [hrefreshed.unique hold] at hage
    exact absurd hage (by decide)

end ContactMemory

end Collision
