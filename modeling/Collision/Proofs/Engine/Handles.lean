import Collision.Proofs.Engine.Calls
import Mathlib.Data.Set.Card

/-!
# Handles through a run of an engine

`Engine.run` keeps the calls of a run with their answers. A handle is *registered* in what happened
so far if it was given out and not taken back since (`Engine.Registered`); this speaks of calls and
answers only.

`Engine.Accounts` ties it to the engine: the registered handles are those of the occupied slots, and
the count and the keys of contact memory agree with them. Every effect carries the accounts over
(`Engine.Effect.accounts`), so they hold after every run (`Engine.accounts_run`).

* `Engine.handles_of_run` reads the handles given out, which calls are refused and with which error,
  the count, and the keys of contact memory off the calls and answers.
-/

set_option autoImplicit false
set_option relaxedAutoImplicit false

namespace Collision

/-! ### Lists -/

/-- A list with a member that fails has a first one. -/
theorem exists_first_not {β : Type} {holds : β → Prop} {members : List β}
    (h : ∃ b ∈ members, ¬ holds b) :
    ∃ before b after, members = before ++ b :: after ∧ (∀ c ∈ before, holds c) ∧ ¬ holds b := by
  induction members with
  | nil => simp at h
  | cons c rest ih =>
    by_cases hc : holds c
    · have hrest : ∃ b ∈ rest, ¬ holds b := by simpa [hc] using h
      obtain ⟨before, b, after, rfl, hbefore, hb⟩ := ih hrest
      exact ⟨c :: before, b, after, rfl, List.forall_mem_cons.mpr ⟨hc, hbefore⟩, hb⟩
    · exact ⟨[], c, rest, rfl, fun _ h ↦ absurd h List.not_mem_nil, hc⟩

/-- As many places hold `true` as it is counted. -/
theorem encard_getElem?_eq_true (slots : List Bool) :
    {i : ℕ | slots[i]? = some true}.encard = slots.count true := by
  induction slots using List.reverseRecOn with
  | nil => simp
  | append_singleton slots slot ih =>
    have hsplit : {i : ℕ | (slots ++ [slot])[i]? = some true} =
        {i : ℕ | slots[i]? = some true} ∪ {i : ℕ | i = slots.length ∧ slot = true} := by
      ext i
      rcases Nat.lt_trichotomy i slots.length with hlt | rfl | hgt
      · simp [List.getElem?_append_left hlt, Nat.ne_of_lt hlt]
      · simp
      · simp [List.getElem?_eq_none_iff.mpr (Nat.le_of_lt hgt), Nat.ne_of_gt hgt,
          List.getElem?_append_right (Nat.le_of_lt hgt), Nat.sub_ne_zero_of_lt hgt]
    have hdisjoint : Disjoint {i : ℕ | slots[i]? = some true}
        {i : ℕ | i = slots.length ∧ slot = true} := by
      refine Set.disjoint_left.mpr ?_
      rintro i hi ⟨rfl, -⟩
      simp at hi
    rw [hsplit, Set.encard_union_eq hdisjoint, ih, List.count_append]
    cases slot <;> simp

variable {α : Type} [Scalar α]

namespace Engine

/-! ### Runs -/

/-- The handle was given out and not taken back since. -/
def Registered (events : List (Event α)) (id : GeomId) : Prop :=
  ∃ before event after, events = before ++ event :: after ∧ event.given? = some id ∧
    ∀ later ∈ after, later.takenBack? ≠ some id

/-- What happened in a run, and the engine after it. -/
structure Run (α : Type) [Scalar α] : Type 1 where
  events : List (Event α)
  engine : Engine α

/-- The run with one more call. -/
def Run.next (r : Run α) (call : Call α) : Run α :=
  ⟨r.events ++ [⟨call, (r.engine.perform call).1⟩], (r.engine.perform call).2⟩

/-- The run of calls, one after another. -/
def run (e : Engine α) (calls : List (Call α)) : Run α := calls.foldl Run.next ⟨[], e⟩

theorem run_concat (e : Engine α) (calls : List (Call α)) (call : Call α) :
    e.run (calls ++ [call]) = (e.run calls).next call :=
  List.foldl_concat ..

theorem not_registered_nil (id : GeomId) : ¬ Registered ([] : List (Event α)) id := by
  rintro ⟨before, event, after, h, -⟩
  exact List.append_ne_nil_of_right_ne_nil before (List.cons_ne_nil event after) h.symm

theorem registered_concat (events : List (Event α)) (event : Event α) (id : GeomId) :
    Registered (events ++ [event]) id ↔
      event.given? = some id ∨ Registered events id ∧ event.takenBack? ≠ some id := by
  constructor
  · rintro ⟨before, given, after, h, hgiven, hkept⟩
    rcases List.eq_nil_or_concat after with rfl | ⟨earlier, last, rfl⟩
    · obtain ⟨-, hevent⟩ := List.append_inj' h rfl
      exact .inl ((List.cons.inj hevent).1 ▸ hgiven)
    · rw [List.concat_eq_append, ← List.cons_append, ← List.append_assoc] at h
      obtain ⟨rfl, hevent⟩ := List.append_inj' h rfl
      obtain rfl := (List.cons.inj hevent).1
      refine .inr ⟨⟨before, given, earlier, rfl, hgiven, fun later hlater ↦ ?_⟩, ?_⟩
      · exact hkept later (by simp [hlater])
      · exact hkept event (by simp)
  · rintro (hgiven | ⟨⟨before, given, after, rfl, hgiven, hkept⟩, hlast⟩)
    · exact ⟨events, event, [], rfl, hgiven, fun _ h ↦ absurd h List.not_mem_nil⟩
    · refine ⟨before, given, after ++ [event], by simp, hgiven, fun later hlater ↦ ?_⟩
      rcases List.mem_append.mp hlater with hlater | hlater
      · exact hkept later hlater
      · exact List.mem_singleton.mp hlater ▸ hlast

theorem calls_run (e : Engine α) (calls : List (Call α)) :
    (e.run calls).events.map Event.call = calls := by
  induction calls using List.reverseRecOn with
  | nil => rfl
  | append_singleton calls call ih =>
    rw [run_concat, Run.next, List.map_append, ih]
    rfl

/-! ### Accounts -/

/-- What happened agrees with the slots, the count and the contact memory. -/
structure Accounts (events : List (Event α)) (e : Engine α) : Prop where
  given : events.filterMap Event.given? = List.range e.occupied.length
  adds : (events.countP fun event ↦ event.call.isAdd) = e.occupied.length
  registered : ∀ id, Registered events id ↔ e.occupied[id]? = some true
  size : e.size = e.occupied.count true
  keys : ∀ key ∈ e.keys, e.LiveKey key
  numbered : SweepAndPrune.Numbered e.broadPhase.sweep.intervals

theorem Accounts.start {config : Config α} {e : Engine α} (h : ofConfig? config = .ok e) :
    Accounts [] e := by
  obtain ⟨-, -, h⟩ := bind_ok h
  obtain rfl := Except.ok.inj h
  refine ⟨rfl, rfl, fun id ↦ ?_, rfl, fun key hkey ↦ ?_, SweepAndPrune.start_numbered _⟩
  · exact iff_of_false (not_registered_nil id) (by simp [occupied])
  · refine absurd hkey ?_
    show key ∉ keysOf (if config.memory.enabled then some (.empty config.memory) else none)
    split_ifs <;> exact List.not_mem_nil

/-- A key of registered geoms stays one as long as both slots stay as they are. -/
theorem LiveKey.of_occupied {e next : Engine α} {key : GeomId × GeomId} (h : e.LiveKey key)
    (hslots : ∀ id, id = key.1 ∨ id = key.2 → e.occupied[id]? = some true →
      next.occupied[id]? = some true) : next.LiveKey key :=
  ⟨h.lt, hslots _ (.inl rfl) h.first, hslots _ (.inr rfl) h.second⟩

/-- An effect carries the accounts over to the engine after it. -/
theorem Effect.accounts {events : List (Event α)} {e next : Engine α} {event : Event α}
    (h : Effect e event next) (he : Accounts events e)
    (hnumbered : SweepAndPrune.Numbered next.broadPhase.sweep.intervals) :
    Accounts (events ++ [event]) next := by
  cases h with
  | adds hcall hgiven htaken hslots hsize hkeys =>
    have hnext (id : ℕ) : next.occupied[id]? = some true ↔
        id = e.occupied.length ∨ e.occupied[id]? = some true := by
      rw [hslots, List.getElem?_append]
      split_ifs with hlt
      · simp [Nat.ne_of_lt hlt]
      · rw [List.getElem?_eq_none_iff.mpr (Nat.not_lt.mp hlt), List.getElem?_singleton]
        simp only [reduceCtorEq, or_false, ite_eq_left_iff, imp_false, not_not]
        omega
    refine ⟨?_, ?_, fun id ↦ ?_, ?_, fun key hkey ↦ ?_, hnumbered⟩
    · rw [List.filterMap_append, he.given, hslots, List.length_append, List.length_singleton,
        List.range_succ]
      simp [hgiven]
    · rw [List.countP_append, he.adds, hslots]
      simp [hcall]
    · rw [registered_concat, he.registered, hnext, hgiven, htaken, Option.some_inj]
      simp only [ne_eq, reduceCtorEq, not_false_iff, and_true]
      exact or_congr_left eq_comm
    · rw [hsize, he.size, hslots, List.count_append]
      rfl
    · exact (he.keys key (hkeys ▸ hkey)).of_occupied fun id _ hid ↦ (hnext id).mpr (.inr hid)
  | @removes removed hcall hgiven htaken hid hslots hsize hkeys =>
    obtain ⟨hlt, hget⟩ := List.getElem?_eq_some_iff.mp hid
    have hnext (id : ℕ) : next.occupied[id]? = some true ↔
        e.occupied[id]? = some true ∧ removed ≠ id := by
      rw [hslots, List.getElem?_set]
      split_ifs with heq <;> simp [heq]
    refine ⟨?_, ?_, fun id ↦ ?_, ?_, fun key hkey ↦ ?_, hnumbered⟩
    · rw [List.filterMap_append, he.given, hslots, List.length_set]
      simp [hgiven]
    · rw [List.countP_append, he.adds, hslots, List.length_set]
      simp [hcall]
    · rw [registered_concat, he.registered, hnext, hgiven, htaken]
      simp
    · rw [hsize, he.size, hslots, List.count_set hlt, hget]
      simp
    · rw [hkeys, List.mem_filter] at hkey
      refine (he.keys key hkey.1).of_occupied fun id hnamed hlive ↦ (hnext id).mpr ⟨hlive, ?_⟩
      rintro rfl
      have hinvolves : ContactMemory.involves removed key = true := by
        rcases hnamed with rfl | rfl <;> simp [ContactMemory.involves]
      rw [hinvolves] at hkey
      exact Bool.false_ne_true hkey.2
  | keeps hcall hgiven htaken hslots hsize hkeys =>
    refine ⟨?_, ?_, fun id ↦ ?_, ?_, fun key hkey ↦ ?_, hnumbered⟩
    · rw [List.filterMap_append, he.given, hslots]
      simp [hgiven]
    · rw [List.countP_append, he.adds, hslots]
      simp [hcall]
    · rw [registered_concat, he.registered, hslots, hgiven, htaken]
      simp
    · rw [hsize, he.size, hslots]
    · exact ((hkeys key hkey).elim (he.keys key) id).of_occupied fun id _ hid ↦ hslots ▸ hid

theorem accounts_run {config : Config α} {e : Engine α} (h : ofConfig? config = .ok e)
    (calls : List (Call α)) : Accounts (e.run calls).events (e.run calls).engine := by
  induction calls using List.reverseRecOn with
  | nil => exact .start h
  | append_singleton calls call ih =>
    rw [run_concat]
    exact (perform_effect ih.numbered call).accounts ih (perform_numbered ih.numbered call)

/-! ### Every run -/

/-- An engine of any settings, over any scalars, after any calls. The handles given out are the
numbers from zero on, in order. A call is refused iff it names a handle that was not given out or
was taken back since; it is refused for the first such handle, and the engine stays as it is. The
live geoms are those registered, the count is their number, and every key of contact memory names
two of them, the lower handle first. -/
theorem handles_of_run (config : Config α) (start : Engine α)
    (hstart : ofConfig? config = .ok start) (calls : List (Call α)) :
    let events := (start.run calls).events
    let e := (start.run calls).engine
    events.filterMap Event.given? = List.range (calls.countP Call.isAdd) ∧
      (∀ call : Call α, (∃ error, (e.perform call).1 = .refused error) ↔
        ∃ id ∈ call.named, ¬ Registered events id) ∧
      (∀ (call : Call α) (before after : List GeomId) (id : GeomId),
        call.named = before ++ id :: after → (∀ earlier ∈ before, Registered events earlier) →
          ¬ Registered events id → e.perform call = (.refused (.unknownGeom id), e)) ∧
      (∀ id, (∃ g, (id, g) ∈ e.live) ↔ Registered events id) ∧
      (e.size : ℕ∞) = {id | Registered events id}.encard ∧
      ∀ m, e.memory? = some m → ∀ key ∈ m.entries.map Prod.fst,
        (key.1 : ℕ) < key.2 ∧ Registered events key.1 ∧ Registered events key.2 := by
  intro events e
  have haccounts : Accounts events e := accounts_run hstart calls
  have hadds : e.occupied.length = calls.countP Call.isAdd := by
    rw [← haccounts.adds]
    conv_rhs => rw [← calls_run start calls, List.countP_map]
    rfl
  have hfirst (call : Call α) (before after : List GeomId) (id : GeomId)
      (hnamed : call.named = before ++ id :: after)
      (hbefore : ∀ earlier ∈ before, Registered events earlier)
      (hid : ¬ Registered events id) : e.perform call = (.refused (.unknownGeom id), e) :=
    perform_of_unknown hnamed (fun earlier h ↦ (haccounts.registered _).mp (hbefore earlier h))
      fun h ↦ hid ((haccounts.registered id).mpr h)
  refine ⟨hadds ▸ haccounts.given, fun call ↦ ⟨?_, ?_⟩, hfirst, fun id ↦ ?_, ?_, ?_⟩
  · rintro ⟨error, hrefused⟩
    by_contra hall
    push Not at hall
    exact perform_of_known (fun id hid ↦ (haccounts.registered id).mp (hall id hid)) error hrefused
  · intro hunknown
    obtain ⟨before, id, after, hnamed, hbefore, hid⟩ := exists_first_not hunknown
    exact ⟨_, congrArg Prod.fst (hfirst call before after id hnamed hbefore hid)⟩
  · simp only [mem_live, haccounts.registered, occupied_eq_some_true_iff]
  · simp only [haccounts.registered, encard_getElem?_eq_true, haccounts.size]
  · intro m hm key hkey
    have hlive : e.LiveKey key := haccounts.keys key (by rw [Engine.keys, hm]; exact hkey)
    exact ⟨hlive.lt, (haccounts.registered _).mpr hlive.first,
      (haccounts.registered _).mpr hlive.second⟩

/-- Two geoms are added, the first is taken back and a third is added: it gets a handle of its own,
and the first handle is refused from then on. -/
theorem handles_of_three_geoms :
    let g : Geom ℝ := .atPose .identity
    ∃ start : Engine ℝ, ofConfig? .standard = .ok start ∧
      let r := start.run [.add g, .add g, .remove 0, .add g]
      r.events.filterMap Event.given? = [0, 1, 2] ∧ r.engine.size = 2 ∧
        (∃ error, (r.engine.perform (.collidePair 2 0)).1 = .refused error) ∧
        ∀ error, (r.engine.perform (.collidePair 1 2)).1 ≠ .refused error := by
  intro g
  obtain ⟨start, hstart⟩ : ∃ start : Engine ℝ, ofConfig? .standard = .ok start :=
    ⟨_, by rw [ofConfig?, Config.standard_validate]; rfl⟩
  obtain ⟨hgiven, hrefused, -, hlive, -, -⟩ :=
    handles_of_run .standard start hstart [.add g, .add g, .remove 0, .add g]
  refine ⟨start, hstart, hgiven, ?_, (hrefused _).mpr ⟨0, by decide, ?_⟩, fun error h ↦ ?_⟩
  · obtain ⟨-, -, hstart⟩ := bind_ok hstart
    obtain rfl := Except.ok.inj hstart
    rfl
  · refine fun hzero ↦ ?_
    obtain ⟨g', hg'⟩ := (hlive 0).mpr hzero
    obtain ⟨-, -, hstart⟩ := bind_ok hstart
    obtain rfl := Except.ok.inj hstart
    cases (mem_live _ _ _).mp hg'
  · obtain ⟨id, hid, hunknown⟩ := (hrefused _).mp ⟨error, h⟩
    obtain ⟨-, -, hstart⟩ := bind_ok hstart
    obtain rfl := Except.ok.inj hstart
    refine hunknown ((hlive id).mp ⟨g.build {}, (mem_live _ _ _).mpr ?_⟩)
    simp only [Call.named, List.mem_cons, List.not_mem_nil, or_false] at hid
    rcases hid with rfl | rfl <;> rfl

end Engine

end Collision
