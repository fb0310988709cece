import Collision.Proofs.Memory.Renaming
import Mathlib.Logic.Equiv.Defs
import Mathlib.Tactic.SplitIfs

/-!
# Updates of different pairs in any order

Pairs share nothing but the counter of identities. Updates of different pairs therefore leave the
same contacts and report the same contacts in whatever order they come, up to the identities that
they give out.

`ContactMemory.afterAll` is the memory after updates and `ContactMemory.reports` what they report.
Among updates of different pairs each one finds its pair as it was before all of them and leaves it
as it is after all of them (`ContactMemory.exists_update_of_reports`).
`ContactMemory.SameUpTo` compares two lists of updates under a renaming; it holds of two neighbours
that change places, under the renaming that exchanges the identities they give out
(`ContactMemory.sameUpTo_swap`), and is kept by an update in front and by chaining.

* `ContactMemory.updates_in_any_order` says so of all updates in any two orders, after any calls.
-/

set_option autoImplicit false
set_option relaxedAutoImplicit false

namespace Collision

/-! ### Renamings of new identities -/

/-- The identities from `n` on, counted from `n'` on instead. -/
def movedId (n n' id : ℕ) : ℕ := if id < n then id else id - n + n'

/-- The `k` identities from `n` on change places with the `l` identities that follow them. -/
def exchangedIds (n k l : ℕ) : Equiv.Perm ℕ where
  toFun id :=
    if id < n then id else if id < n + k then id + l else if id < n + k + l then id - k else id
  invFun id :=
    if id < n then id else if id < n + l then id + k else if id < n + k + l then id - l else id
  left_inv id := by
    simp only
    split_ifs <;> omega
  right_inv id := by
    simp only
    split_ifs <;> omega

theorem movedId_of_lt {n n' id : ℕ} (h : id < n) : movedId n n' id = id := if_pos h

theorem movedId_add (n n' i : ℕ) : movedId n n' (n + i) = n' + i := by
  unfold movedId
  rw [if_neg (Nat.not_lt.mpr (Nat.le_add_right n i))]
  omega

theorem exchangedIds_apply (n k l id : ℕ) : exchangedIds n k l id =
    if id < n then id else if id < n + k then id + l else if id < n + k + l then id - k else id :=
  rfl

theorem exchangedIds_of_lt {n k l id : ℕ} (h : id < n) : exchangedIds n k l id = id := if_pos h

theorem exchangedIds_add (n k l i : ℕ) : exchangedIds n k l (n + k + l + i) = n + k + l + i := by
  rw [exchangedIds_apply]
  split_ifs <;> omega

/-- The first identities are moved behind the others. -/
theorem exchangedIds_eq_movedId {n k l id : ℕ} (h : id < n + k) :
    exchangedIds n k l id = movedId n (n + l) id := by
  rw [exchangedIds_apply, movedId]
  split_ifs <;> omega

/-- The others, which stand behind the first ones, are moved to the front. -/
theorem exchangedIds_movedId {n k l id : ℕ} (h : id < n + l) :
    exchangedIds n k l (movedId n (n + k) id) = id := by
  rw [exchangedIds_apply, movedId]
  split_ifs <;> omega

variable {α : Type} [Scalar α] {σ τ : ContactId → ContactId}

/-! ### Identities in range -/

namespace PairUpdate

variable {config : MemoryConfig α}

omit [Scalar α] in
theorem renamedReport_id (entry : PairUpdate α × Contacts α) :
    renamedReport id config entry = entry := by
  have hcontacts : entry.2.map (Contact.renamed id) = entry.2 :=
    List.map_id'' (fun c ↦ by unfold Contact.renamed; rw [Option.map_id, id_eq]) entry.2
  unfold renamedReport
  rw [hcontacts, ite_self]

omit [Scalar α] in
theorem renamedReport_renamedReport (entry : PairUpdate α × Contacts α) :
    renamedReport τ config (renamedReport σ config entry) = renamedReport (τ ∘ σ) config entry := by
  have hcontacts : (entry.2.map (Contact.renamed σ)).map (Contact.renamed τ) =
      entry.2.map (Contact.renamed (τ ∘ σ)) := by
    rw [List.map_map]
    refine List.map_congr_left fun c _ ↦ ?_
    simp [Contact.renamed, Option.map_map]
  unfold renamedReport
  split_ifs
  · rfl
  · rw [hcontacts]

end PairUpdate

namespace ContactMemory

variable {m other : ContactMemory α} {u v : PairUpdate α} {key : GeomId × GeomId}

omit [Scalar α] in
/-- Only the identities that were given out matter for what is remembered. -/
theorem Sound.map_renamed_congr (hm : m.Sound) (h : ∀ id < m.nextId, σ id = τ id) :
    (m.get? key).map (PairMemory.renamed σ) = (m.get? key).map (PairMemory.renamed τ) :=
  Option.map_congr fun pair hpair ↦ PairMemory.renamed_congr fun r hr ↦
    h r.id (hm.lt_nextId key pair hpair r hr)

omit [Scalar α] in
theorem Sound.map_renamed_eq_self (hm : m.Sound) (h : ∀ id < m.nextId, σ id = id) :
    (m.get? key).map (PairMemory.renamed σ) = m.get? key := by
  rw [hm.map_renamed_congr (τ := id) h, show PairMemory.renamed (α := α) id = id from
    funext PairMemory.renamed_id, Option.map_id, id_eq]

/-- Only the identities that were given out matter for what is reported. -/
theorem Sound.renamedReport_congr (hnext : (m.step u.call).Sound)
    (h : ∀ id < (m.step u.call).nextId, σ id = τ id) :
    PairUpdate.renamedReport σ m.config (u, m.report u) =
      PairUpdate.renamedReport τ m.config (u, m.report u) := by
  unfold PairUpdate.renamedReport
  rcases hignored : u.isIgnored m.config with _ | _
  · rw [report_eq_output hignored, ← PairMemory.output_renamed, ← PairMemory.output_renamed,
      PairMemory.renamed_congr fun r hr ↦
        h r.id (hnext.lt_nextId u.key _ (get?_step_key hignored) r hr)]
  · rfl

omit [Scalar α] in
/-- A pair that is remembered in two memories alike is renamed by moving what is given out from now
on. -/
theorem Sound.renamesAt_movedId (hm : m.Sound) (hconfig : other.config = m.config)
    (hget : other.get? key = m.get? key) :
    RenamesAt (movedId m.nextId other.nextId) key m other where
  config_eq := hconfig
  get?_eq := by
    rw [hget, hm.map_renamed_eq_self fun id hid ↦ movedId_of_lt hid]
  counter := movedId_add m.nextId other.nextId

/-! ### Lists of updates -/

/-- The memory after updates. -/
def afterAll (m : ContactMemory α) (updates : List (PairUpdate α)) : ContactMemory α :=
  updates.foldl (fun m u ↦ m.step u.call) m

/-- What updates report, each next to its update. -/
def reports : ContactMemory α → List (PairUpdate α) → List (PairUpdate α × Contacts α)
  | _, [] => []
  | m, u :: rest => (u, m.report u) :: (m.step u.call).reports rest

theorem map_fst_reports (m : ContactMemory α) (updates : List (PairUpdate α)) :
    (m.reports updates).map Prod.fst = updates := by
  induction updates generalizing m with
  | nil => rfl
  | cons u rest ih => rw [reports, List.map_cons, ih]

theorem take_reports (m : ContactMemory α) (updates : List (PairUpdate α)) (n : ℕ) :
    (m.reports updates).take n = m.reports (updates.take n) := by
  induction updates generalizing m n with
  | nil => simp [reports]
  | cons u rest ih =>
    cases n with
    | zero => rfl
    | succ n => rw [reports, List.take_succ_cons, List.take_succ_cons, reports, ih]

theorem afterAll_config (m : ContactMemory α) (updates : List (PairUpdate α)) :
    (m.afterAll updates).config = m.config := by
  induction updates generalizing m with
  | nil => rfl
  | cons u rest ih => exact (ih (m.step u.call)).trans (step_config m u.call)

/-- Pairs of which no update has contacts to remember stay as they were. -/
theorem get?_afterAll_of_not_key {updates : List (PairUpdate α)} {key : GeomId × GeomId}
    (h : ∀ u ∈ updates, u.isIgnored m.config = false → u.key ≠ key) :
    (m.afterAll updates).get? key = m.get? key := by
  induction updates generalizing m with
  | nil => rfl
  | cons u rest ih =>
    have hrest : ((m.step u.call).afterAll rest).get? key = (m.step u.call).get? key :=
      ih fun v hv hignored ↦ h v (.tail u hv) (step_config m u.call ▸ hignored)
    refine hrest.trans ?_
    rcases hignored : u.isIgnored m.config with _ | _
    · exact get?_step_of_ne (h u List.mem_cons_self hignored).symm
    · rw [step_ignored hignored]

/-- An update whose contacts are not to be remembered reports them as they are. -/
theorem eq_contacts_of_reports {updates : List (PairUpdate α)} {reported : Contacts α}
    (hreported : (u, reported) ∈ m.reports updates) (hignored : u.isIgnored m.config = true) :
    reported = u.contacts := by
  induction updates generalizing m with
  | nil => cases hreported
  | cons v rest ih =>
    rcases List.mem_cons.mp hreported with heq | hbehind
    · obtain ⟨rfl, rfl⟩ := Prod.mk.inj heq
      exact report_ignored hignored
    · exact ih hbehind (by rwa [step_config])

/-- Among updates of different pairs, what one of them reports and what is remembered of its pair
after all of them is made of the pair as it was before the first one. -/
theorem exists_update_of_reports {updates : List (PairUpdate α)}
    (hkeys : (updates.map PairUpdate.key).Nodup) {reported : Contacts α}
    (hreported : (u, reported) ∈ m.reports updates) (hignored : u.isIgnored m.config = false) :
    ∃ nextId, let pair := ((m.pairOf u.first u.second).update
        (Participant.orderedPoses u.first u.second) m.config.drift nextId
        (Participant.turned u.first u.second u.contacts)).1
      (m.afterAll updates).get? u.key = some pair ∧
        reported = pair.output (Participant.swapped u.first u.second) := by
  induction updates generalizing m with
  | nil => cases hreported
  | cons v rest ih =>
    obtain ⟨hnew, hrest⟩ := List.nodup_cons.mp hkeys
    rcases List.mem_cons.mp hreported with heq | hbehind
    · obtain ⟨rfl, rfl⟩ := Prod.mk.inj heq
      refine ⟨m.nextId, Eq.trans ?_ (get?_step_key hignored), report_eq_output hignored⟩
      exact get?_afterAll_of_not_key (m := m.step u.call) fun w hw _ hkey ↦
        hnew (hkey ▸ List.mem_map_of_mem hw)
    · have hmem : u ∈ rest := by
        rw [← map_fst_reports (m.step v.call) rest]
        exact List.mem_map_of_mem hbehind
      have hne : u.key ≠ v.key := fun heq ↦ hnew (heq ▸ List.mem_map_of_mem hmem)
      have hget : (m.step v.call).get? u.key = m.get? u.key := get?_step_of_ne hne
      have hpair : (m.step v.call).pairOf u.first u.second = m.pairOf u.first u.second :=
        congrArg (fun pair? : Option (PairMemory α) ↦ pair?.getD _) hget
      have hih := ih hrest hbehind (by rwa [step_config])
      rw [hpair, step_config] at hih
      exact hih

theorem Renames.afterAll (h : Renames σ m other) (updates : List (PairUpdate α)) :
    Renames σ (m.afterAll updates) (other.afterAll updates) := by
  induction updates generalizing m other with
  | nil => exact h
  | cons u rest ih => exact ih (h.step u)

theorem Renames.reports (h : Renames σ m other) (updates : List (PairUpdate α)) :
    other.reports updates =
      (m.reports updates).map (PairUpdate.renamedReport σ m.config) := by
  induction updates generalizing m other with
  | nil => rfl
  | cons u rest ih =>
    rw [ContactMemory.reports, ContactMemory.reports, List.map_cons, ih (h.step u), step_config,
      (h.renamesAt u.key).report]

/-- Two lists of updates do the same to a memory up to a renaming of the identities that they give
out, and each update reports the same in both. -/
structure SameUpTo (σ : ContactId → ContactId) (m : ContactMemory α)
    (first second : List (PairUpdate α)) : Prop where
  fixes : ∀ id < m.nextId, σ id = id
  renames : Renames σ (m.afterAll first) (m.afterAll second)
  reports_perm : (m.reports second).Perm
    ((m.reports first).map (PairUpdate.renamedReport σ m.config))

namespace SameUpTo

variable {first second third : List (PairUpdate α)}

theorem nil (m : ContactMemory α) : SameUpTo id m [] [] where
  fixes _ _ := rfl
  renames := .refl m
  reports_perm := .refl _

theorem trans (hfirst : SameUpTo σ m first second) (hsecond : SameUpTo τ m second third) :
    SameUpTo (τ ∘ σ) m first third where
  fixes id hid := by
    rw [Function.comp_apply, hfirst.fixes id hid, hsecond.fixes id hid]
  renames := hfirst.renames.trans hsecond.renames
  reports_perm := by
    refine hsecond.reports_perm.trans ((hfirst.reports_perm.map _).trans ?_)
    rw [List.map_map]
    exact List.Perm.of_eq (List.map_congr_left fun entry _ ↦
      PairUpdate.renamedReport_renamedReport entry)

/-- An update in front reports and leaves identities that the others do not rename. -/
theorem cons (hnext : (m.step u.call).Sound) (h : SameUpTo σ (m.step u.call) first second) :
    SameUpTo σ m (u :: first) (u :: second) where
  fixes id hid := h.fixes id (Nat.lt_of_lt_of_le hid (nextId_le_step m u.call))
  renames := h.renames
  reports_perm := by
    have hreport : PairUpdate.renamedReport σ m.config (u, m.report u) = (u, m.report u) :=
      (hnext.renamedReport_congr h.fixes).trans (PairUpdate.renamedReport_id _)
    have hrest := h.reports_perm
    rw [step_config] at hrest
    rw [ContactMemory.reports, ContactMemory.reports, List.map_cons, hreport]
    exact hrest.cons _

end SameUpTo

/-! ### Neighbours that change places -/

/-- Behind an update of another pair an update finds its pair as if it came first, and only its
identities are moved. -/
theorem renamesAt_behind (hm : m.Sound) (hne : u.key ≠ v.key) {k : ℕ}
    (hk : (m.step v.call).nextId = m.nextId + k) :
    RenamesAt (movedId m.nextId (m.nextId + k)) u.key m (m.step v.call) :=
  hk ▸ hm.renamesAt_movedId (step_config m v.call) (get?_step_of_ne hne)

/-- After two updates of different pairs, in either order, the same is remembered: the identities of
the first one are moved behind those of the second one, and those of the second one to the front. -/
theorem renames_swap (hm : m.Sound) (hkeyed : m.Keyed) (hne : u.key ≠ v.key) {k l : ℕ}
    (hk : (m.step u.call).nextId = m.nextId + k) (hl : (m.step v.call).nextId = m.nextId + l) :
    Renames (exchangedIds m.nextId k l) ((m.step u.call).step v.call)
      ((m.step v.call).step u.call) := by
  have hu := (renamesAt_behind hm hne hl).step
  have hv := (renamesAt_behind hm hne.symm hk).step
  have hnext : ((m.step u.call).step v.call).nextId = m.nextId + k + l := by
    rw [← movedId_add m.nextId (m.nextId + k) l, ← hl]
    exact (hv.counter 0).symm
  have hnext' : ((m.step v.call).step u.call).nextId = m.nextId + k + l := by
    rw [Nat.add_right_comm, ← movedId_add m.nextId (m.nextId + l) k, ← hk]
    exact (hu.counter 0).symm
  refine ⟨fun key ↦ ⟨?_, ?_, fun i ↦ ?_⟩, hnext'.trans hnext.symm⟩
  · rw [step_config, step_config, step_config, step_config]
  · by_cases hkeyu : key = u.key
    · rw [hkeyu, hu.get?_eq, get?_step_of_ne hne]
      exact ((hm.step hkeyed u.call).map_renamed_congr fun id hid ↦
        exchangedIds_eq_movedId (hk ▸ hid)).symm
    · by_cases hkeyv : key = v.key
      · rw [hkeyv, hv.get?_eq, get?_step_of_ne hne.symm, PairMemory.map_renamed_renamed]
        exact ((hm.step hkeyed v.call).map_renamed_eq_self fun id hid ↦
          exchangedIds_movedId (hl ▸ hid)).symm
      · rw [get?_step_of_ne hkeyu, get?_step_of_ne hkeyv, get?_step_of_ne hkeyv,
          get?_step_of_ne hkeyu]
        exact (hm.map_renamed_eq_self fun id hid ↦ exchangedIds_of_lt hid).symm
  · rw [hnext, hnext', exchangedIds_add]

/-- Two neighbours on different pairs may change places. -/
theorem sameUpTo_swap (hm : m.Sound) (hkeyed : m.Keyed) (hne : u.key ≠ v.key)
    (rest : List (PairUpdate α)) :
    ∃ σ : Equiv.Perm ContactId, SameUpTo σ m (u :: v :: rest) (v :: u :: rest) := by
  obtain ⟨k, hk⟩ := Nat.exists_eq_add_of_le (nextId_le_step m u.call)
  obtain ⟨l, hl⟩ := Nat.exists_eq_add_of_le (nextId_le_step m v.call)
  have hrenames := renames_swap hm hkeyed hne hk hl
  have hreportu : (u, (m.step v.call).report u) =
      PairUpdate.renamedReport (exchangedIds m.nextId k l) m.config (u, m.report u) :=
    (renamesAt_behind hm hne hl).report.trans ((hm.step hkeyed u.call).renamedReport_congr
      fun id hid ↦ (exchangedIds_eq_movedId (hk ▸ hid)).symm)
  have hreportv : (v, m.report v) = PairUpdate.renamedReport (exchangedIds m.nextId k l) m.config
      (v, (m.step u.call).report v) := by
    rw [(renamesAt_behind hm hne.symm hk).report, PairUpdate.renamedReport_renamedReport]
    exact ((hm.step hkeyed v.call).renamedReport_congr (τ := id) fun id hid ↦
      exchangedIds_movedId (hl ▸ hid)).trans (PairUpdate.renamedReport_id _) |>.symm
  refine ⟨exchangedIds m.nextId k l, fun id hid ↦ exchangedIds_of_lt hid,
    hrenames.afterAll rest, ?_⟩
  simp only [reports, List.map_cons, hrenames.reports rest, step_config]
  rw [← hreportu, ← hreportv]
  exact .swap _ _ _

/-! ### Any two orders -/

theorem exists_sameUpTo {first second : List (PairUpdate α)} (hperm : first.Perm second)
    (hm : m.Sound) (hkeyed : m.Keyed) (hkeys : (first.map PairUpdate.key).Nodup) :
    ∃ σ : Equiv.Perm ContactId, SameUpTo σ m first second := by
  induction hperm generalizing m with
  | nil => exact ⟨Equiv.refl _, .nil m⟩
  | cons u _ ih =>
    have hnext := hm.step hkeyed u.call
    obtain ⟨σ, hσ⟩ := ih hnext (hkeyed.step u.call) (List.nodup_cons.mp hkeys).2
    exact ⟨σ, hσ.cons hnext⟩
  | swap v u rest =>
    have hne : u.key ≠ v.key := fun heq ↦
      (List.nodup_cons.mp hkeys).1 (List.mem_cons.mpr (.inl heq))
    exact sameUpTo_swap hm hkeyed hne rest
  | trans hfirst _ ih ih' =>
    obtain ⟨σ, hσ⟩ := ih hm hkeyed hkeys
    obtain ⟨τ, hτ⟩ := ih' hm hkeyed ((hfirst.map _).nodup_iff.mp hkeys)
    exact ⟨σ.trans τ, hσ.trans hτ⟩

/-- Updates of different pairs in any two orders, after any calls.

There is one renaming of identities that changes only those given out by the updates, so that in the
second order every pair remembers the contacts of the first order renamed, with its capacity,
activity and age, and every update reports the contacts of the first order renamed. Where nothing is
to be remembered the reports are the same. The next identity is the same. -/
theorem updates_in_any_order (config : MemoryConfig α) (calls : List (Call α))
    (first second : List (PairUpdate α)) (hperm : first.Perm second)
    (hkeys : (first.map PairUpdate.key).Nodup) :
    let m := run config calls
    ∃ σ : Equiv.Perm ContactId,
      (∀ id, id < m.nextId ∨ (m.afterAll first).nextId ≤ id → σ id = id) ∧
        (m.afterAll second).nextId = (m.afterAll first).nextId ∧
        (∀ key, (m.afterAll second).get? key =
          ((m.afterAll first).get? key).map (PairMemory.renamed σ)) ∧
        (m.reports second).Perm ((m.reports first).map (PairUpdate.renamedReport σ config)) := by
  intro m
  obtain ⟨σ, hσ⟩ := exists_sameUpTo hperm (sound_run config calls) (keyed_run config calls) hkeys
  refine ⟨σ, fun id hid ↦ ?_, hσ.renames.nextId_eq, fun key ↦ (hσ.renames.renamesAt key).get?_eq,
    ?_⟩
  · exact hid.elim (hσ.fixes id) hσ.renames.fixes
  · have hreports := hσ.reports_perm
    rwa [run_config] at hreports

/-- Two pairs with one new contact each, in either order: the first of them is given the first
identity. -/
theorem updates_in_any_order_of_two_pairs :
    let found : Contact Float := ⟨⟨0, 0, 0⟩, ⟨0, 0, 1⟩, 1, none⟩
    let update (a b : GeomId) : PairUpdate Float :=
      ⟨⟨a, .identity, 4⟩, ⟨b, .identity, 4⟩, [found]⟩
    let first := [update 0 1, update 2 1]
    let second := [update 2 1, update 0 1]
    let m : ContactMemory Float := run .standard []
    first.Perm second ∧ (first.map PairUpdate.key).Nodup ∧
      ∃ σ : Equiv.Perm ContactId, (m.afterAll second).get? (0, 1) =
          ((m.afterAll first).get? (0, 1)).map (PairMemory.renamed σ) ∧
        (m.reports second).Perm ((m.reports first).map (PairUpdate.renamedReport σ .standard)) := by
  intro found update first second m
  have hperm : first.Perm second := .swap _ _ _
  have hkeys : (first.map PairUpdate.key).Nodup := by
    show [((0 : ℕ), (1 : ℕ)), (1, 2)].Nodup
    decide
  obtain ⟨σ, -, -, hget, hreports⟩ := updates_in_any_order .standard [] first second hperm hkeys
  exact ⟨hperm, hkeys, σ, hget (0, 1), hreports⟩

end ContactMemory

end Collision
