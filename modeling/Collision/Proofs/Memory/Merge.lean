import Collision.Proofs.Memory.Identity
import Collision.Proofs.Scalar.Negation
import Collision.Proofs.Space.Frame

/-!
# Merging with room to spare

An update whose new contacts find room next to the contacts that stayed forgets none of them.
`Shares` says which of the contacts that stayed are taken over: each new contact in its turn takes
the nearest one that is left, if that is near enough. `Names` says which identities the new contacts
have, an inherited one or one that was never used.

* `Absorbing.Merged` says both of an update, and that no contact is missing but those that were
  taken over; a new contact in front keeps it (`Absorbing.Merged.cons_takes`,
  `Absorbing.Merged.cons_atEnd`), so it holds of every update with room (`Absorbing.exists_merged`).
* `ContactMemory.update_merges` says which contacts stay, what an update with room reports, and that
  contacts whose geoms did not move are among those that stayed.
-/

set_option autoImplicit false
set_option relaxedAutoImplicit false

namespace Collision

/-! ### Members that are not taken -/

section Untaken

variable {β : Type}

/-- The members of a list at the places that nobody took, in order. -/
def untaken (taken : List (Option ℕ)) (members : List β) : List β :=
  (members.zipIdx.filter fun member ↦ some member.2 ∉ taken).map Prod.fst

theorem untaken_nil (members : List β) : untaken [] members = members := by
  simp [untaken]

theorem untaken_none_cons (taken : List (Option ℕ)) (members : List β) :
    untaken (none :: taken) members = untaken taken members := by
  simp [untaken]

theorem untaken_concat {taken : List (Option ℕ)} {members : List β}
    (hlast : some members.length ∉ taken) (b : β) :
    untaken taken (members ++ [b]) = untaken taken members ++ [b] := by
  simp [untaken, List.zipIdx_append, hlast]

/-- To put a member in a place that nobody else takes is to take the place and add the member. -/
theorem untaken_set_perm {taken : List (Option ℕ)} {members : List β} {place : ℕ}
    (hplace : place < members.length) (hfree : some place ∉ taken) (b : β) :
    (untaken taken (members.set place b)).Perm (b :: untaken (some place :: taken) members) := by
  obtain ⟨before, old, after, rfl, rfl⟩ : ∃ before old after,
      members = before ++ old :: after ∧ before.length = place :=
    ⟨members.take place, members[place], members.drop (place + 1),
      by rw [List.getElem_cons_drop, List.take_append_drop], List.length_take_of_le hplace.le⟩
  -- On both sides of the place nothing changes.
  have hside (side : List (β × ℕ)) (hne : ∀ member ∈ side, member.2 ≠ before.length) :
      (side.filter fun member ↦ some member.2 ∉ some before.length :: taken) =
        side.filter fun member ↦ some member.2 ∉ taken := by
    refine List.filter_congr fun member hmember ↦ ?_
    simp [hne member hmember]
  have hbefore := hside before.zipIdx fun member hmember ↦
    (List.snd_lt_of_mem_zipIdx hmember).ne
  have hafter := hside (after.zipIdx (before.length + 1)) fun member hmember ↦
    Nat.ne_of_gt (List.le_snd_of_mem_zipIdx hmember)
  unfold untaken
  rw [List.set_append_right _ _ le_rfl, Nat.sub_self, List.set_cons_zero, List.zipIdx_append,
    List.zipIdx_append, List.zipIdx_cons, List.zipIdx_cons, List.filter_append, List.filter_append,
    List.map_append, List.map_append, Nat.zero_add, hbefore,
    List.filter_cons_of_pos (by simpa using hfree), List.filter_cons_of_neg (by simp), hafter]
  exact List.perm_middle

end Untaken

variable {α : Type} [Scalar α]

/-! ### Who takes what -/

/-- New contacts, found at the given points, share the free contacts: in order, each takes over the
nearest one that is left if that is nearer than the drift. -/
structure Shares (free : ℕ → Remembered α → Prop) (drift : α) (points : List (Vec3 α))
    (choices : List (Option ℕ)) : Prop where
  length_eq : choices.length = points.length
  takes_iff : ∀ n p, points[n]? = some p → ∀ place, choices[n]? = some (some place) ↔
    ∃ r, IsNearest (fun i q ↦ free i q ∧ some i ∉ choices.take n) p place r ∧
      r.distanceTo p < drift

namespace Shares

variable {free : ℕ → Remembered α → Prop} {drift : α} {points : List (Vec3 α)}
  {choices : List (Option ℕ)} {p : Vec3 α}

theorem nil : Shares free drift [] [] := ⟨rfl, nofun⟩

/-- The first new contact takes over a contact, and the others share the rest. -/
theorem cons_some {place : ℕ} {r : Remembered α} (hnearest : IsNearest free p place r)
    (hnear : r.distanceTo p < drift)
    (hrest : Shares (fun i q ↦ free i q ∧ i ≠ place) drift points choices) :
    Shares free drift (p :: points) (some place :: choices) := by
  refine ⟨congrArg Nat.succ hrest.length_eq, fun n q hq other ↦ ?_⟩
  cases n with
  | zero =>
    obtain rfl := Option.some_inj.mp hq
    simp only [List.getElem?_cons_zero, Option.some_inj, List.take_zero, List.not_mem_nil,
      not_false_eq_true, and_true]
    constructor
    · rintro rfl
      exact ⟨r, hnearest, hnear⟩
    · rintro ⟨r', hr', -⟩
      exact hnearest.place_eq hr'
  | succ n =>
    have hleft : (fun i q ↦ free i q ∧ some i ∉ (some place :: choices).take (n + 1)) =
        fun i q ↦ (free i q ∧ i ≠ place) ∧ some i ∉ choices.take n := by
      funext i q
      simp [and_assoc]
    rw [hleft]
    exact hrest.takes_iff n q hq other

/-- The first new contact takes over none, and the others share them all. -/
theorem cons_none (hnone : ∀ place r, IsNearest free p place r → ¬r.distanceTo p < drift)
    (hrest : Shares free drift points choices) :
    Shares free drift (p :: points) (none :: choices) := by
  refine ⟨congrArg Nat.succ hrest.length_eq, fun n q hq other ↦ ?_⟩
  cases n with
  | zero =>
    obtain rfl := Option.some_inj.mp hq
    simp only [List.getElem?_cons_zero, List.take_zero, List.not_mem_nil, not_false_eq_true,
      and_true]
    refine iff_of_false (fun h ↦ ?_) fun ⟨r, hr, hnear⟩ ↦ hnone other r hr hnear
    cases Option.some_inj.mp h
  | succ n =>
    have hleft : (fun i q ↦ free i q ∧ some i ∉ (none :: choices).take (n + 1)) =
        fun i q ↦ free i q ∧ some i ∉ choices.take n := by
      funext i q
      simp
    rw [hleft]
    exact hrest.takes_iff n q hq other

/-- Only free contacts are taken over. -/
theorem free_of_mem (h : Shares free drift points choices) {place : ℕ}
    (hplace : some place ∈ choices) : ∃ r, free place r := by
  obtain ⟨n, hn⟩ := List.mem_iff_getElem?.mp hplace
  have hlt : n < points.length := h.length_eq ▸ (List.getElem?_eq_some_iff.mp hn).1
  obtain ⟨r, hr, -⟩ := (h.takes_iff n _ (List.getElem?_eq_getElem hlt) place).mp hn
  exact ⟨r, hr.is_candidate.1⟩

end Shares

/-- The identities of new contacts: one that takes over a contact has its identity, and another one
has an identity that is larger than those issued before and those of the new contacts before it. -/
structure Names (old : ℕ → Remembered α → Prop) (issued : ContactId → Prop)
    (choices : List (Option ℕ)) (ids : List ContactId) : Prop where
  length_eq : ids.length = choices.length
  inherited : ∀ (n place : ℕ) (r : Remembered α), choices[n]? = some (some place) → old place r →
    ids[n]? = some r.id
  fresh : ∀ (n : ℕ) (id : ContactId), choices[n]? = some none → ids[n]? = some id →
    (∀ other, issued other → other < id) ∧ ∀ other ∈ ids.take n, other < id

namespace Names

variable {old later : ℕ → Remembered α → Prop} {issued : ContactId → Prop} {nextId : ContactId}
  {choices : List (Option ℕ)} {ids : List ContactId}

omit [Scalar α] in
theorem nil : Names old issued [] [] := ⟨rfl, nofun, nofun⟩

omit [Scalar α] in
theorem of_issued {fewer : ContactId → Prop} (hfewer : ∀ id, fewer id → issued id)
    (h : Names old issued choices ids) : Names old fewer choices ids :=
  ⟨h.length_eq, h.inherited, fun n id hn hid ↦
    ⟨fun other hother ↦ (h.fresh n id hn hid).1 other (hfewer other hother),
      (h.fresh n id hn hid).2⟩⟩

omit [Scalar α] in
theorem cons_some {place : ℕ} {r : Remembered α} (hold : ∀ q, old place q ↔ q = r)
    (hissued : r.id < nextId) (hlater : ∀ i q, some i ∈ choices → old i q → later i q)
    (hrest : Names later (· < nextId) choices ids) :
    Names old (· < nextId) (some place :: choices) (r.id :: ids) := by
  refine ⟨congrArg Nat.succ hrest.length_eq, fun n other q hn hq ↦ ?_, fun n id hn hid ↦ ?_⟩
  · cases n with
    | zero =>
      obtain rfl := Option.some_inj.mp (Option.some_inj.mp hn)
      rw [(hold q).mp hq]
      rfl
    | succ n =>
      exact hrest.inherited n other q hn (hlater other q (List.mem_of_getElem? hn) hq)
  · cases n with
    | zero => cases Option.some_inj.mp hn
    | succ n =>
      obtain ⟨hbefore, hids⟩ := hrest.fresh n id hn hid
      exact ⟨hbefore, List.forall_mem_cons.mpr ⟨hbefore r.id hissued, hids⟩⟩

omit [Scalar α] in
theorem cons_none (hlater : ∀ i q, some i ∈ choices → old i q → later i q)
    (hrest : Names later (· < nextId + 1) choices ids) :
    Names old (· < nextId) (none :: choices) (nextId :: ids) := by
  refine ⟨congrArg Nat.succ hrest.length_eq, fun n other q hn hq ↦ ?_, fun n id hn hid ↦ ?_⟩
  · cases n with
    | zero => cases Option.some_inj.mp hn
    | succ n =>
      exact hrest.inherited n other q hn (hlater other q (List.mem_of_getElem? hn) hq)
  · cases n with
    | zero =>
      obtain rfl := Option.some_inj.mp hid
      exact ⟨fun other hother ↦ hother, nofun⟩
    | succ n =>
      obtain ⟨hbefore, hids⟩ := hrest.fresh n id hn hid
      exact ⟨fun other hother ↦ hbefore other (Nat.lt_succ_of_lt hother),
        List.forall_mem_cons.mpr ⟨hbefore nextId (Nat.lt_succ_self nextId), hids⟩⟩

end Names

/-! ### New contacts that find room -/

namespace Absorbing

/-- What new contacts that find room make of an update: they share the free contacts, and next to
them no contact is missing but those that they took over. -/
structure Merged (poses : PosePair α) (drift : α) (s result : Absorbing α) (contacts : Contacts α)
    (choices : List (Option ℕ)) (ids : List ContactId) : Prop where
  shares : Shares s.Free drift (contacts.map Contact.position) choices
  names : Names s.Free (· < s.nextId) choices ids
  perm : (result.slots.map Prod.fst).Perm
    (List.zipWith (Remembered.ofContact poses) ids contacts ++
      untaken choices (s.slots.map Prod.fst))

variable {poses : PosePair α} {drift : α} {s result : Absorbing α} {c : Contact α}
  {rest : Contacts α} {choices : List (Option ℕ)} {ids : List ContactId}

theorem Merged.nil (s : Absorbing α) : Merged poses drift s s [] [] [] :=
  ⟨.nil, .nil, by rw [untaken_nil]; exact List.Perm.refl _⟩

/-- The first new contact takes over a contact, which the others then find taken. -/
theorem Merged.cons_takes (hs : s.Distinct) {place : ℕ} {r : Remembered α}
    (htakes : s.TakesOver drift c place r)
    (h : Merged poses drift (s.takeOver poses place c) result rest choices ids) :
    Merged poses drift s result (c :: rest) (some place :: choices) (r.id :: ids) := by
  have hfree : s.Free place r := htakes.isNearest.is_candidate
  have hlater : (s.takeOver poses place c).Free = fun i q ↦ s.Free i q ∧ i ≠ place :=
    funext₂ fun i q ↦ propext hfree.takeOver_iff
  have hshares := h.shares
  have hnames := h.names
  rw [hlater] at hshares hnames
  have hplace : some place ∉ choices := fun hmem ↦ by
    obtain ⟨q, -, hne⟩ := hshares.free_of_mem hmem
    exact hne rfl
  have hsame (q : Remembered α) : s.Free place q ↔ q = r := by
    unfold Free at hfree ⊢
    rw [hfree]
    simp [eq_comm]
  have hissued : r.id < s.nextId :=
    hs.lt_nextId _ (List.mem_map.mpr ⟨_, List.mem_of_getElem? hfree, rfl⟩)
  refine ⟨hshares.cons_some htakes.isNearest htakes.near, hnames.cons_some hsame hissued
    fun i q hi hq ↦ ⟨hq, fun heq ↦ hplace (heq ▸ hi)⟩, h.perm.trans ?_⟩
  have hlt : place < (s.slots.map Prod.fst).length := by
    rw [List.length_map]
    exact (List.getElem?_eq_some_iff.mp hfree).1
  rw [hfree.slots_takeOver, List.map_set, List.zipWith_cons_cons]
  exact ((untaken_set_perm hlt hplace _).append_left _).trans List.perm_middle

/-- The first new contact goes to the end, where no other takes it over. -/
theorem Merged.cons_atEnd (hnone : ∀ place r, ¬s.TakesOver drift c place r)
    (h : Merged poses drift (s.append poses c) result rest choices ids) :
    Merged poses drift s result (c :: rest) (none :: choices) (s.nextId :: ids) := by
  have hlater : (s.append poses c).Free = s.Free := funext₂ fun i q ↦ propext free_append_iff
  have hshares := h.shares
  have hnames := h.names
  rw [hlater] at hshares hnames
  have hlast : some (s.slots.map Prod.fst).length ∉ choices := fun hmem ↦ by
    obtain ⟨q, hq⟩ := hshares.free_of_mem hmem
    rw [List.length_map] at hq
    exact absurd (List.getElem?_eq_some_iff.mp hq).1 (Nat.lt_irrefl _)
  refine ⟨hshares.cons_none fun place r hr hnear ↦ hnone place r ⟨hr, hnear⟩,
    hnames.cons_none fun i q _ hq ↦ hq, h.perm.trans ?_⟩
  have hslots : (s.append poses c).slots.map Prod.fst =
      s.slots.map Prod.fst ++ [.ofContact poses s.nextId c] := List.map_append
  rw [hslots, untaken_concat hlast, untaken_none_cons, List.zipWith_cons_cons, ← List.append_assoc]
  exact List.perm_append_singleton _ _

variable {capacity : ℕ} {deepest : Option ℕ}

/-- While there is room, no contact is forgotten but those that are taken over. -/
theorem exists_merged (hs : s.Distinct) (contacts : Contacts α)
    (hroom : s.slots.length + contacts.length ≤ capacity) :
    ∃ choices ids, Merged poses drift s
      (contacts.foldl (absorb poses drift capacity deepest) s) contacts choices ids := by
  induction contacts generalizing s with
  | nil => exact ⟨[], [], .nil s⟩
  | cons c rest ih =>
    rw [List.length_cons] at hroom
    have hnext : (absorb poses drift capacity deepest s c).Distinct := hs.absorb c
    rw [List.foldl_cons]
    by_cases htakes : ∃ place r, s.TakesOver drift c place r
    · obtain ⟨place, r, htakes⟩ := htakes
      have habsorb : absorb poses drift capacity deepest s c = s.takeOver poses place c := by
        rw [absorb, placement_eq_takesOver_iff.mpr ⟨r, htakes⟩]
        rfl
      have hlength : (s.takeOver poses place c).slots.length = s.slots.length :=
        List.length_modify ..
      rw [habsorb] at hnext ⊢
      obtain ⟨choices, ids, hmerged⟩ := ih hnext (by omega)
      exact ⟨_, _, hmerged.cons_takes hs htakes⟩
    · have hnone : ∀ place r, ¬s.TakesOver drift c place r := fun place r h ↦
        htakes ⟨place, r, h⟩
      have habsorb : absorb poses drift capacity deepest s c = s.append poses c := by
        rw [absorb, placement_eq_atEnd_iff.mpr ⟨hnone, by omega⟩]
        rfl
      have hlength : (s.append poses c).slots.length = s.slots.length + 1 :=
        List.length_append
      rw [habsorb] at hnext ⊢
      obtain ⟨choices, ids, hmerged⟩ := ih hnext (by omega)
      exact ⟨_, _, hmerged.cons_atEnd hnone⟩

end Absorbing

/-! ### Reported contacts -/

/-- The contact under an identity. -/
def Contact.identified (id : ContactId) (c : Contact α) : Contact α := { c with id? := some id }

namespace Participant

variable {a b : Participant α}

theorem map_position_turned (a b : Participant α) (contacts : Contacts α) :
    (turned a b contacts).map Contact.position = contacts.map Contact.position := by
  rw [turned_eq_map, List.map_map]
  split_ifs <;> rfl

theorem turned_perm {contacts others : Contacts α} (h : contacts.Perm others) :
    (turned a b contacts).Perm (turned a b others) := by
  rw [turned_eq_map, turned_eq_map]
  exact h.map _

/-- A new contact is reported with its own position, normal and depth. -/
theorem turned_zipWith_ofContact [InvolutiveScalar α] (a b : Participant α) (poses : PosePair α)
    (ids : List ContactId) (contacts : Contacts α) :
    turned a b ((List.zipWith (Remembered.ofContact poses) ids (turned a b contacts)).map
      Remembered.contact) = List.zipWith Contact.identified ids contacts := by
  unfold turned
  split_ifs
  · unfold Contacts.flipped
    rw [List.map_map, List.map_zipWith, List.zipWith_map_right]
    refine congrArg (fun f ↦ List.zipWith f ids contacts) (funext₂ fun id c ↦ ?_)
    show { c.flipped.flipped with id? := some id } = c.identified id
    rw [Contact.flipped_flipped]
    rfl
  · rw [List.map_zipWith]
    rfl

end Participant

/-- A contact of rigid geoms that are where they were when it was found stays. -/
theorem PairMemory.mem_surviving_of_found {m : PairMemory ℝ} {poses : PosePair ℝ}
    (hfirst : poses.first.Rigid) (hsecond : poses.second.Rigid) {drift : ℝ} (hdrift : 0 ≤ drift)
    {r : Remembered ℝ} (hr : r ∈ m.contacts) {id : ContactId} {c : Contact ℝ}
    (hfound : r = .ofContact poses id c) : r ∈ m.surviving poses drift := by
  refine mem_surviving.mpr ⟨hr, ?_⟩
  rw [hfound]
  unfold Remembered.ofContact
  rw [hfirst.transformPoint_inverseTransformPoint, hsecond.transformPoint_inverseTransformPoint,
    sub_self, Vec3.norm_eq_norm, norm_zero]
  exact ⟨hdrift, hdrift⟩

namespace ContactMemory

variable {m : ContactMemory α} {a b : Participant α}

/-- An update whose new contacts find room reports each of them once, under an inherited or a new
identity, and the contacts that stayed and were not taken over. -/
theorem update_of_room [InvolutiveScalar α] (hm : m.Sound) (hignores : m.ignores a b = false)
    (contacts : Contacts α)
    (hroom : ((m.pairOf a b).surviving (Participant.orderedPoses a b) m.config.drift).length +
      contacts.length ≤ (m.pairOf a b).capacity) :
    let stayed := (m.pairOf a b).surviving (Participant.orderedPoses a b) m.config.drift
    ∃ choices ids,
      Shares (fun i r ↦ stayed[i]? = some r) m.config.drift (contacts.map Contact.position)
        choices ∧
      Names (fun i r ↦ stayed[i]? = some r) (· < m.nextId) choices ids ∧
      (m.update a b contacts).1.Perm (List.zipWith Contact.identified ids contacts ++
        Participant.turned a b ((untaken choices stayed).map Remembered.contact)) := by
  intro stayed
  have hstart : ((m.pairOf a b).start (Participant.orderedPoses a b) m.config.drift
      m.nextId).slots.map Prod.fst = stayed := by
    show (stayed.map fun r ↦ (r, false)).map Prod.fst = stayed
    rw [List.map_map]
    exact List.map_id'' (fun _ ↦ rfl) stayed
  have hslots : ((m.pairOf a b).start (Participant.orderedPoses a b) m.config.drift
      m.nextId).slots.length + (Participant.turned a b contacts).length ≤
        (m.pairOf a b).capacity := by
    rw [← List.length_map (f := Prod.fst), hstart, ← List.length_map (f := Contact.position),
      Participant.map_position_turned, List.length_map]
    exact hroom
  obtain ⟨choices, ids, hshares, hnames, hperm⟩ :=
    Absorbing.exists_merged (hm.start_distinct a b _ _) (Participant.turned a b contacts) hslots
  rw [PairMemory.start_free] at hshares hnames
  rw [Participant.map_position_turned] at hshares
  rw [hstart] at hperm
  refine ⟨choices, ids, hshares, hnames, ?_⟩
  rw [update_fst hignores contacts]
  refine (Participant.turned_perm (hperm.map Remembered.contact)).trans ?_
  rw [List.map_append, Participant.turned_append, Participant.turned_zipWith_ofContact]

/-- An update of two geoms in a memory that remembers contacts, after any calls.

The contacts that stay are the remembered ones that both geoms carry to within the drift of where
they were found. If the contacts that stayed and the new ones together fit the capacity of the pair, each new contact
is reported once, with its own position, normal and depth, next to the contacts that stayed and were
not taken over, as they were. In order, a new contact takes over the identity of the nearest one
that stayed and is left, if that is nearer than the drift, and otherwise it has an identity that is
larger than all that were ever given out. Other pairs are left as they are. In exact arithmetic
every remembered contact was recorded by an update, and stays if both geoms are where they were at
that update. -/
theorem update_merges :
    (∀ (α : Type) [Scalar α] [InvolutiveScalar α] (config : MemoryConfig α)
      (calls : List (Call α)) (a b : Participant α) (contacts : Contacts α),
      config.enabled = true → ¬(a.capacity = 0 ∧ b.capacity = 0) →
      let m := run config calls
      let stayed := (m.pairOf a b).surviving (Participant.orderedPoses a b) config.drift
      let poses := Participant.orderedPoses a b
      let updated := m.update a b contacts
      (∀ r, r ∈ stayed ↔ r ∈ (m.pairOf a b).contacts ∧
        (poses.first.transformPoint r.inFirst - r.position).norm ≤ config.drift ∧
        (poses.second.transformPoint r.inSecond - r.position).norm ≤ config.drift) ∧
      (stayed.length + contacts.length ≤ (m.pairOf a b).capacity →
        ∃ choices ids,
          Shares (fun i r ↦ stayed[i]? = some r) config.drift (contacts.map Contact.position)
            choices ∧
          Names (fun i r ↦ stayed[i]? = some r) (Issued config calls) choices ids ∧
          updated.1.Perm (List.zipWith Contact.identified ids contacts ++
            Participant.turned a b ((untaken choices stayed).map Remembered.contact))) ∧
      ∀ key, key ≠ orderedPair a.id b.id → updated.2.get? key = m.get? key) ∧
    ∀ (config : MemoryConfig ℝ) (calls : List (Call ℝ)) (a b : Participant ℝ) (r : Remembered ℝ),
      0 ≤ config.drift → a.pose.Rigid → b.pose.Rigid →
      r ∈ ((run config calls).pairOf a b).contacts →
      (∃ poses, Recorded config calls (orderedPair a.id b.id) r poses) ∧
        (Recorded config calls (orderedPair a.id b.id) r (Participant.orderedPoses a b) →
          r ∈ ((run config calls).pairOf a b).surviving (Participant.orderedPoses a b)
            config.drift) := by
  refine ⟨fun α _ _ config calls a b contacts henabled hwanted ↦ ?_,
    fun config calls a b r hdrift ha hb hr ↦ ⟨?_, fun hrecorded ↦ ?_⟩⟩
  · intro m stayed poses updated
    have hconfig : m.config = config := run_config config calls
    have hignores : m.ignores a b = false :=
      (ignores_eq_false_iff (hconfig.symm ▸ henabled)).mpr hwanted
    refine ⟨fun r ↦ PairMemory.mem_surviving, fun hroom ↦ ?_, fun key hkey ↦ ?_⟩
    · have hmerged := update_of_room (sound_run config calls) hignores contacts
      rw [run_config] at hmerged
      obtain ⟨choices, ids, hshares, hnames, hperm⟩ := hmerged hroom
      exact ⟨choices, ids, hshares, hnames.of_issued fun id hid ↦ hid.lt_nextId, hperm⟩
    · rw [get?_update hignores, if_neg hkey]
  · exact exists_recorded config calls _ _ (pairOf_contacts hr) r hr
  · obtain ⟨before, a', b', contacts, since, -, -, -, -, c, -, hc⟩ := hrecorded
    have hrigid : (Participant.orderedPoses a b).first.Rigid ∧
        (Participant.orderedPoses a b).second.Rigid := by
      unfold Participant.orderedPoses
      split_ifs
      · exact ⟨hb, ha⟩
      · exact ⟨ha, hb⟩
    exact PairMemory.mem_surviving_of_found hrigid.1 hrigid.2 hdrift hr hc

/-- Of two new contacts, one near one of two remembered contacts, none is lost; and a contact of
geoms that did not move stays. -/
theorem update_merges_near_and_far :
    let first : Participant Float := ⟨3, .identity, 4⟩
    let second : Participant Float := ⟨1, .identity, 0⟩
    let contact (x : Float) : Contact Float := ⟨⟨x, 0, 0⟩, ⟨0, 0, 1⟩, 1, none⟩
    let m := run .standard [.update first second [contact 0, contact 1]]
    let stayed := (m.pairOf first second).surviving (Participant.orderedPoses first second)
      MemoryConfig.standard.drift
    let still : Participant ℝ := ⟨1, .identity, 4⟩
    let other : Participant ℝ := ⟨3, .identity, 0⟩
    let found : Contact ℝ := ⟨⟨0, 0, 0⟩, ⟨0, 0, 1⟩, 1, none⟩
    let r := Remembered.ofContact (Participant.orderedPoses still other) 0 found
    stayed.length + [contact 0.0078125, contact 5].length ≤ (m.pairOf first second).capacity ∧
      (∃ choices ids, Names (fun i r ↦ stayed[i]? = some r)
          (Issued .standard [.update first second [contact 0, contact 1]]) choices ids ∧
        (m.update first second [contact 0.0078125, contact 5]).1.Perm
          (List.zipWith Contact.identified ids [contact 0.0078125, contact 5] ++
            Participant.turned first second ((untaken choices stayed).map Remembered.contact))) ∧
      r ∈ ((run ⟨true, 0, 1, 0⟩ [.update still other [found]]).pairOf still other).surviving
        (Participant.orderedPoses still other) 1 := by
  intro first second contact m stayed still other found r
  have hroom : stayed.length + [contact 0.0078125, contact 5].length ≤
      (m.pairOf first second).capacity := by decide +kernel
  have hmerged := (update_merges.1 Float .standard [.update first second [contact 0, contact 1]]
    first second [contact 0.0078125, contact 5] rfl (by decide)).2.1 hroom
  obtain ⟨choices, ids, -, hnames, hperm⟩ := hmerged
  have hstored : r ∈ ((run ⟨true, 0, 1, 0⟩ [.update still other [found]]).pairOf still
      other).contacts := List.mem_singleton.mpr rfl
  have hrecorded : Recorded ⟨true, 0, 1, 0⟩ [.update still other [found]]
      (orderedPair still.id other.id) r (Participant.orderedPoses still other) :=
    ⟨[], still, other, [found], [], rfl, rfl, rfl, rfl, found, List.mem_singleton.mpr rfl, rfl⟩
  exact ⟨hroom, ⟨choices, ids, hnames, hperm⟩,
    (update_merges.2 ⟨true, 0, 1, 0⟩ [.update still other [found]] still other r zero_le_one
      Pose.identity_rigid Pose.identity_rigid hstored).2 hrecorded⟩

end ContactMemory

end Collision
