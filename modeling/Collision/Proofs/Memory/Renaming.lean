import Collision.Proofs.Memory.Identity
import Mathlib.Data.List.Basic

/-!
# Renaming identities

An update looks at where contacts are and how deep they are, never at their identities: it only
hands them on and counts new ones. So if the contacts of a pair are renamed and the next identity is
renamed with them, an update does what it did before, renamed.

* `Absorbing.Renames` relates two states of an update in this way, and every new contact keeps it
  (`Absorbing.Renames.absorb`).
* `ContactMemory.RenamesAt` relates two memories at one pair, and every update of the pair keeps it
  and reports renamed contacts (`ContactMemory.RenamesAt.step`, `ContactMemory.RenamesAt.report`).
  `ContactMemory.Renames` relates them at all pairs.
-/

set_option autoImplicit false
set_option relaxedAutoImplicit false

namespace Collision

variable {α : Type}

/-! ### Renamed contacts -/

/-- The contact under another identity. -/
def Remembered.renamed (σ : ContactId → ContactId) (r : Remembered α) : Remembered α :=
  { r with id := σ r.id }

/-- The contact with its identity, if it has one, renamed. -/
def Contact.renamed (σ : ContactId → ContactId) (c : Contact α) : Contact α :=
  { c with id? := c.id?.map σ }

/-- What is remembered of a pair under other identities. -/
def PairMemory.renamed (σ : ContactId → ContactId) (m : PairMemory α) : PairMemory α :=
  { m with contacts := m.contacts.map (Remembered.renamed σ) }

theorem PairMemory.renamed_congr {σ τ : ContactId → ContactId} {m : PairMemory α}
    (h : ∀ r ∈ m.contacts, σ r.id = τ r.id) : m.renamed σ = m.renamed τ := by
  have hcontacts : m.contacts.map (Remembered.renamed σ) = m.contacts.map (Remembered.renamed τ) :=
    List.map_congr_left fun r hr ↦ congrArg (fun id ↦ { r with id := id }) (h r hr)
  unfold renamed
  rw [hcontacts]

theorem PairMemory.renamed_renamed (σ τ : ContactId → ContactId) (m : PairMemory α) :
    (m.renamed σ).renamed τ = m.renamed (τ ∘ σ) := by
  unfold renamed
  rw [List.map_map]
  rfl

@[simp]
theorem PairMemory.renamed_id (m : PairMemory α) : m.renamed id = m := by
  have hcontacts : m.contacts.map (Remembered.renamed id) = m.contacts :=
    List.map_id'' (fun _ ↦ rfl) m.contacts
  unfold renamed
  rw [hcontacts]

theorem PairMemory.map_renamed_renamed (σ τ : ContactId → ContactId)
    (pair : Option (PairMemory α)) :
    (pair.map (renamed σ)).map (renamed τ) = pair.map (renamed (τ ∘ σ)) := by
  rw [Option.map_map]
  exact congrArg (Option.map · pair) (funext fun m ↦ m.renamed_renamed σ τ)

variable [Scalar α] {σ τ : ContactId → ContactId}

/-! ### One new contact -/

namespace Absorbing

/-- The second state is the first one with identities renamed, the next identities in step. -/
structure Renames (σ : ContactId → ContactId) (s t : Absorbing α) : Prop where
  slots_eq : t.slots = s.slots.map (Prod.map (Remembered.renamed σ) id)
  counter : ∀ i, σ (s.nextId + i) = t.nextId + i

namespace Renames

variable {s t : Absorbing α}

omit [Scalar α] in
theorem length_eq (h : s.Renames σ t) : t.slots.length = s.slots.length := by
  rw [h.slots_eq, List.length_map]

/-- Distances are the same where identities do not decide who is eligible. -/
theorem nearest?_eq (h : s.Renames σ t) (p : Vec3 α) {eligible : ℕ → Remembered α × Bool → Bool}
    (heligible : ∀ i r taken, eligible i (r.renamed σ, taken) = eligible i (r, taken)) :
    t.nearest? p eligible = s.nearest? p eligible := by
  unfold nearest? distances
  rw [h.slots_eq, List.zipIdx_map, List.filterMap_map]
  refine congrArg _ (List.filterMap_congr fun ⟨⟨r, taken⟩, i⟩ _ ↦ ?_)
  simp only [Function.comp_apply, Prod.map_apply, id_eq, heligible]
  rfl

theorem placement_eq (h : s.Renames σ t) (drift : α) (capacity : ℕ) (deepest : Option ℕ)
    (c : Contact α) :
    t.placement drift capacity deepest c = s.placement drift capacity deepest c := by
  have hvictim : t.victim? deepest c.position = s.victim? deepest c.position := by
    unfold victim?
    rw [h.length_eq, h.nearest?_eq c.position fun _ _ _ ↦ rfl]
  unfold placement newPlacement
  rw [h.length_eq, hvictim, h.nearest?_eq c.position fun _ _ _ ↦ rfl]

theorem takeOver (h : s.Renames σ t) (poses : PosePair α) (place : ℕ) (c : Contact α) :
    (s.takeOver poses place c).Renames σ (t.takeOver poses place c) := by
  refine ⟨List.ext_getElem? fun i ↦ ?_, h.counter⟩
  simp only [Absorbing.takeOver, h.slots_eq, List.getElem?_modify, List.getElem?_map]
  by_cases hplace : place = i
  · simp only [hplace, if_true]
    cases s.slots[i]? <;> rfl
  · simp only [hplace, if_false]
    cases s.slots[i]? <;> rfl

omit [Scalar α] in
/-- The next identity after the one that is given out is in step again. -/
theorem counter_succ (h : s.Renames σ t) (i : ℕ) : σ (s.nextId + 1 + i) = t.nextId + 1 + i := by
  rw [Nat.add_assoc, Nat.add_assoc, h.counter]

theorem append (h : s.Renames σ t) (poses : PosePair α) (c : Contact α) :
    (s.append poses c).Renames σ (t.append poses c) := by
  have hnext : σ s.nextId = t.nextId := h.counter 0
  refine ⟨?_, h.counter_succ⟩
  simp [Absorbing.append, h.slots_eq, Remembered.renamed, Remembered.ofContact, hnext]

theorem overwrite (h : s.Renames σ t) (poses : PosePair α) (place : ℕ) (c : Contact α) :
    (s.overwrite poses place c).Renames σ (t.overwrite poses place c) := by
  have hnext : σ s.nextId = t.nextId := h.counter 0
  refine ⟨?_, h.counter_succ⟩
  simp [Absorbing.overwrite, h.slots_eq, List.map_set, Remembered.renamed, Remembered.ofContact,
    hnext]

/-- A new contact goes to the same place, whatever the identities are. -/
theorem absorb (h : s.Renames σ t) (poses : PosePair α) (drift : α) (capacity : ℕ)
    (deepest : Option ℕ) (c : Contact α) :
    (Absorbing.absorb poses drift capacity deepest s c).Renames σ
      (Absorbing.absorb poses drift capacity deepest t c) := by
  unfold Absorbing.absorb
  rw [h.placement_eq]
  cases s.placement drift capacity deepest c with
  | takesOver place => exact h.takeOver poses place c
  | atEnd => exact h.append poses c
  | replaces place => exact h.overwrite poses place c
  | dropped => exact h

theorem foldl (h : s.Renames σ t) (poses : PosePair α) (drift : α) (capacity : ℕ)
    (deepest : Option ℕ) (contacts : Contacts α) :
    (contacts.foldl (Absorbing.absorb poses drift capacity deepest) s).Renames σ
      (contacts.foldl (Absorbing.absorb poses drift capacity deepest) t) := by
  induction contacts generalizing s t with
  | nil => exact h
  | cons c rest ih => exact ih (h.absorb poses drift capacity deepest c)

end Renames

end Absorbing

/-! ### One pair -/

/-- The selected member of a list of images is the image of the selected member. -/
theorem Scalar.lastMaxBy?_map {β γ : Type} (key : γ → α) (f : β → γ) (members : List β) :
    lastMaxBy? key (members.map f) = (lastMaxBy? (key ∘ f) members).map f := by
  cases members with
  | nil => rfl
  | cons b rest =>
    show some _ = some (f _)
    rw [List.foldl_map]
    exact congrArg some (List.foldl_hom f fun best c ↦ (apply_ite f _ c best).symm)

namespace PairMemory

theorem deepestPlace?_renamed (σ : ContactId → ContactId) (contacts : List (Remembered α)) :
    deepestPlace? (contacts.map (Remembered.renamed σ)) = deepestPlace? contacts := by
  unfold deepestPlace?
  rw [List.zipIdx_map, Scalar.lastMaxBy?_map, Option.map_map]
  rfl

theorem surviving_renamed (m : PairMemory α) (poses : PosePair α) (drift : α) :
    (m.renamed σ).surviving poses drift =
      (m.surviving poses drift).map (Remembered.renamed σ) :=
  List.filter_map

theorem output_renamed (m : PairMemory α) (swap : Bool) :
    (m.renamed σ).output swap = (m.output swap).map (Contact.renamed σ) := by
  unfold output renamed Contacts.flipped
  cases swap
  · simp only [List.map_map, Bool.false_eq_true, if_false]
    rfl
  · simp only [List.map_map, if_true]
    rfl

/-- New contacts are taken in the same way under other identities. -/
theorem absorbing_renames (m : PairMemory α) (poses : PosePair α) (drift : α) {n n' : ContactId}
    (hcounter : ∀ i, σ (n + i) = n' + i) (contacts : Contacts α) :
    (m.absorbing poses drift n contacts).Renames σ
      ((m.renamed σ).absorbing poses drift n' contacts) := by
  have hstart : (m.start poses drift n).Renames σ ((m.renamed σ).start poses drift n') := by
    refine ⟨?_, hcounter⟩
    simp [start, surviving_renamed, Function.comp_def]
  unfold absorbing
  rw [surviving_renamed, deepestPlace?_renamed]
  exact hstart.foldl poses drift m.capacity _ contacts

theorem update_renamed (m : PairMemory α) (poses : PosePair α) (drift : α) {n n' : ContactId}
    (hcounter : ∀ i, σ (n + i) = n' + i) (contacts : Contacts α) :
    ((m.renamed σ).update poses drift n' contacts).1 =
      (m.update poses drift n contacts).1.renamed σ := by
  have hslots := (m.absorbing_renames poses drift hcounter contacts).slots_eq
  have hcontacts : ((m.renamed σ).absorbing poses drift n' contacts).slots.map Prod.fst =
      ((m.absorbing poses drift n contacts).slots.map Prod.fst).map (Remembered.renamed σ) := by
    rw [hslots, List.map_map, List.map_map]
    rfl
  show { m.renamed σ with
    contacts := ((m.renamed σ).absorbing poses drift n' contacts).slots.map Prod.fst
    active := true
    idle := 0 } = _
  rw [hcontacts]
  rfl

end PairMemory

/-! ### One update -/

/-- An update of two geoms. -/
structure PairUpdate (α : Type) where
  first : Participant α
  second : Participant α
  contacts : Contacts α

namespace PairUpdate

/-- The key of the pair. -/
def key (u : PairUpdate α) : GeomId × GeomId := orderedPair u.first.id u.second.id

/-- The update as a call. -/
def call (u : PairUpdate α) : ContactMemory.Call α := .update u.first u.second u.contacts

/-- The contacts are not to be remembered; they are reported as they came. -/
def isIgnored (config : MemoryConfig α) (u : PairUpdate α) : Bool :=
  (ContactMemory.empty config).ignores u.first u.second

omit [Scalar α] in
theorem isIgnored_eq_false_iff {config : MemoryConfig α} {u : PairUpdate α} :
    u.isIgnored config = false ↔
      config.enabled = true ∧ ¬(u.first.capacity = 0 ∧ u.second.capacity = 0) := by
  simp [isIgnored, ContactMemory.ignores, ContactMemory.empty]

/-- What an update reports under other identities. Where nothing is remembered nothing is
renamed. -/
def renamedReport (σ : ContactId → ContactId) (config : MemoryConfig α)
    (entry : PairUpdate α × Contacts α) : PairUpdate α × Contacts α :=
  (entry.1, if entry.1.isIgnored config then entry.2 else entry.2.map (Contact.renamed σ))

end PairUpdate

namespace ContactMemory

variable {m other : ContactMemory α} {u : PairUpdate α} {key : GeomId × GeomId}

/-- What an update reports. -/
def report (m : ContactMemory α) (u : PairUpdate α) : Contacts α :=
  (m.update u.first u.second u.contacts).1

/-- What an update leaves remembered of its pair. -/
def updatedPair (m : ContactMemory α) (u : PairUpdate α) : PairMemory α :=
  ((m.pairOf u.first u.second).update (Participant.orderedPoses u.first u.second) m.config.drift
    m.nextId (Participant.turned u.first u.second u.contacts)).1

theorem step_ignored (h : u.isIgnored m.config = true) : m.step u.call = m :=
  congrArg Prod.snd (update_ignored (m := m) h u.contacts)

theorem report_ignored (h : u.isIgnored m.config = true) : m.report u = u.contacts :=
  congrArg Prod.fst (update_ignored (m := m) h u.contacts)

theorem get?_step_key (h : u.isIgnored m.config = false) :
    (m.step u.call).get? u.key = some (m.updatedPair u) :=
  (get?_update (m := m) h u.contacts u.key).trans (if_pos rfl)

theorem report_eq_output (h : u.isIgnored m.config = false) :
    m.report u = (m.updatedPair u).output (Participant.swapped u.first u.second) := by
  have hignores : m.ignores u.first u.second = false := h
  unfold report update
  rw [hignores]
  rfl

theorem step_nextId (h : u.isIgnored m.config = false) :
    (m.step u.call).nextId = (m.absorbing u.first u.second u.contacts).nextId :=
  update_nextId (m := m) h u.contacts

theorem get?_step_of_ne (h : key ≠ u.key) : (m.step u.call).get? key = m.get? key := by
  rcases hignored : u.isIgnored m.config with _ | _
  · exact (get?_update (m := m) hignored u.contacts key).trans (if_neg h)
  · rw [step_ignored hignored]

/-- At a pair the second memory is the first one with identities renamed, the next identities in
step. -/
structure RenamesAt (σ : ContactId → ContactId) (key : GeomId × GeomId)
    (m other : ContactMemory α) : Prop where
  config_eq : other.config = m.config
  get?_eq : other.get? key = (m.get? key).map (PairMemory.renamed σ)
  counter : ∀ i, σ (m.nextId + i) = other.nextId + i

namespace RenamesAt

omit [Scalar α] in
theorem pairOf_eq {a b : Participant α} (h : RenamesAt σ (orderedPair a.id b.id) m other) :
    other.pairOf a b = (m.pairOf a b).renamed σ := by
  unfold pairOf
  rw [h.get?_eq]
  cases m.get? (orderedPair a.id b.id) <;> rfl

omit [Scalar α] in
theorem isIgnored_eq (h : RenamesAt σ key m other) :
    u.isIgnored other.config = u.isIgnored m.config := by
  rw [h.config_eq]

omit [Scalar α] in
theorem trans {last : ContactMemory α} (h : RenamesAt σ key m other)
    (hlast : RenamesAt τ key other last) : RenamesAt (τ ∘ σ) key m last where
  config_eq := hlast.config_eq.trans h.config_eq
  get?_eq := by
    rw [hlast.get?_eq, h.get?_eq, PairMemory.map_renamed_renamed]
  counter i := by
    rw [Function.comp_apply, h.counter, hlast.counter]

/-- An update of the pair takes in its contacts in the same way. -/
theorem absorbing (h : RenamesAt σ u.key m other) :
    (m.absorbing u.first u.second u.contacts).Renames σ
      (other.absorbing u.first u.second u.contacts) := by
  unfold ContactMemory.absorbing
  rw [h.pairOf_eq, h.config_eq]
  exact PairMemory.absorbing_renames _ _ _ h.counter _

theorem updatedPair_eq (h : RenamesAt σ u.key m other) :
    other.updatedPair u = (m.updatedPair u).renamed σ := by
  unfold updatedPair
  rw [h.pairOf_eq, h.config_eq, PairMemory.update_renamed _ _ _ h.counter]

/-- An update of the pair leaves renamed contacts. -/
theorem step (h : RenamesAt σ u.key m other) :
    RenamesAt σ u.key (m.step u.call) (other.step u.call) := by
  rcases hignored : u.isIgnored m.config with _ | _
  · have hother := h.isIgnored_eq.trans hignored
    refine ⟨?_, ?_, fun i ↦ ?_⟩
    · rw [step_config, step_config, h.config_eq]
    · rw [get?_step_key hignored, get?_step_key hother, h.updatedPair_eq]
      rfl
    · rw [step_nextId hignored, step_nextId hother]
      exact h.absorbing.counter i
  · rwa [step_ignored hignored, step_ignored (h.isIgnored_eq.trans hignored)]

/-- An update of the pair reports renamed contacts. -/
theorem report (h : RenamesAt σ u.key m other) :
    (u, other.report u) = PairUpdate.renamedReport σ m.config (u, m.report u) := by
  unfold PairUpdate.renamedReport
  rcases hignored : u.isIgnored m.config with _ | _
  · rw [report_eq_output hignored, report_eq_output (h.isIgnored_eq.trans hignored),
      h.updatedPair_eq, PairMemory.output_renamed]
    rfl
  · rw [report_ignored hignored, report_ignored (h.isIgnored_eq.trans hignored)]
    rfl

end RenamesAt

/-- The second memory is the first one with identities renamed, and both go on with the same
identities. -/
structure Renames (σ : ContactId → ContactId) (m other : ContactMemory α) : Prop where
  renamesAt : ∀ key, RenamesAt σ key m other
  nextId_eq : other.nextId = m.nextId

namespace Renames

omit [Scalar α] in
theorem refl (m : ContactMemory α) : Renames id m m := by
  refine ⟨fun key ↦ ⟨rfl, ?_, fun _ ↦ rfl⟩, rfl⟩
  cases m.get? key with
  | none => rfl
  | some pair => exact congrArg some pair.renamed_id.symm

omit [Scalar α] in
theorem trans {last : ContactMemory α} (h : Renames σ m other) (hlast : Renames τ other last) :
    Renames (τ ∘ σ) m last :=
  ⟨fun key ↦ (h.renamesAt key).trans (hlast.renamesAt key), hlast.nextId_eq.trans h.nextId_eq⟩

omit [Scalar α] in
/-- The identities that are given out from now on keep their names. -/
theorem fixes (h : Renames σ m other) {id : ContactId} (hid : m.nextId ≤ id) : σ id = id := by
  obtain ⟨i, rfl⟩ := Nat.exists_eq_add_of_le hid
  rw [(h.renamesAt (0, 0)).counter, h.nextId_eq]

theorem step (h : Renames σ m other) (u : PairUpdate α) :
    Renames σ (m.step u.call) (other.step u.call) := by
  have hstep := (h.renamesAt u.key).step
  refine ⟨fun key ↦ ?_, ?_⟩
  · by_cases hkey : key = u.key
    · rwa [hkey]
    · refine ⟨hstep.config_eq, ?_, hstep.counter⟩
      rw [get?_step_of_ne hkey, get?_step_of_ne hkey, (h.renamesAt key).get?_eq]
  · have hnext : σ (m.step u.call).nextId = (other.step u.call).nextId := hstep.counter 0
    rw [← hnext, h.fixes (nextId_le_step m u.call)]

end Renames

end ContactMemory

end Collision
