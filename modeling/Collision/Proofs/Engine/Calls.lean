import Collision.Proofs.Engine.Cycle
import Collision.Proofs.Engine.Run
import Collision.Proofs.Memory.Table

/-!
# Calls of an engine

`Engine.Call` are the calls of an engine, and `Engine.perform` answers one of them. Which slots hold
a geom is `Engine.occupied`; what a call can do to them, to the count and to the keys of contact
memory is said once, by the constructors of `Engine.Effect` (`Engine.perform_effect`). A call is
refused for the first handle it names whose slot holds no geom (`Engine.perform_of_unknown`), and
only for such a handle (`Engine.perform_of_known`).

All of this holds over any scalars: it does not depend on how boxes compare, only on the intervals
of the broad phase naming the places of its boxes (`Engine.perform_numbered`).
-/

set_option autoImplicit false
set_option relaxedAutoImplicit false

namespace Collision

variable {α : Type} [Scalar α]

/-- A frame finds pairs of entries at different places, whatever their coordinates. -/
theorem BroadPhase.meetingPair_of_mem_findPairs {b : BroadPhase α}
    (hnumbered : SweepAndPrune.Numbered b.sweep.intervals) {entries : List (BoxEntry α)}
    {p : GeomId × GeomId} (h : p ∈ (b.findPairs entries).1) :
    ∃ grow, MeetingPair grow entries p := by
  unfold BroadPhase.findPairs at h
  rcases hchoice : b.choice with _ | _
  · rw [hchoice] at h
    exact ⟨_, SweepAndPrune.meetingPair_of_mem_sweep
      (SweepAndPrune.update_numbered b.sweep entries hnumbered) ((mem_sortedPairs _ _).mp h)⟩
  · rw [hchoice] at h
    exact ⟨_, (mem_overlappingList _ _ _).mp ((mem_sortedPairs _ _).mp h)⟩

namespace Engine

/-! ### Calls and answers -/

/-- A call of an engine. -/
inductive Call (α : Type) [Scalar α] : Type 1 where
  | add (g : Geom α)
  | remove (id : GeomId)
  | geom (id : GeomId)
  /-- Any change of the geom under a handle. -/
  | edit (id : GeomId) (change : Geom α → Geom α)
  | setPose (id : GeomId) (pose : Pose α)
  | rebuild (id : GeomId)
  | collidePair (a b : GeomId)
  | separatePair (a b : GeomId)
  | collide {σ : Type} (visit : σ → GeomId × GeomId → σ × Bool) (state : σ)
  | separate {σ : Type} (visit : σ → (GeomId × GeomId) × Contacts α → σ × Bool) (state : σ)
  /-- A cycle of contacts by several threads, with the pairs in the order in which they come to
  contact memory. -/
  | separateShared (order : List (GeomId × GeomId))
  | maintain
  | override (tester : PairTester α)

/-- The handles that a call names, in order. -/
def Call.named : Call α → List GeomId
  | .remove id | .geom id | .edit id _ | .setPose id _ | .rebuild id => [id]
  | .collidePair a b | .separatePair a b => [a, b]
  | .add _ | .collide _ _ | .separate _ _ | .separateShared _ | .maintain | .override _ => []

/-- The call registers a geom. -/
def Call.isAdd : Call α → Bool
  | .add _ => true
  | _ => false

/-- What a call answers. -/
inductive Answer (α : Type) [Scalar α] where
  | handle (id : GeomId)
  | geom (g : Geom α)
  | done
  | verdict (hit : Bool)
  | contacts (found : Contacts α)
  | maintained (done : Maintenance)
  | refused (error : Error α)

/-- A cycle of contacts by several threads: the candidate pairs come to contact memory in the given
order, and those that it leaves out never do because the visitor has seen enough. -/
def separateShared (e : Engine α) (order : List (GeomId × GeomId)) : Cycle α Unit :=
  let (pairs, e) := e.candidatePairs
  let result := (visitList (e.showContacts fun _ _ ↦ ((), false)) ⟨false, e.memory?, ()⟩
    (order.filter pairs.contains)).1
  ⟨result.hit, (), { e with memory? := result.memory? }⟩

/-- The answer to a call that may be refused and the engine after it; a refused call leaves the
engine as it is. -/
def settle {β : Type} (e : Engine α) (result : Except (Error α) β)
    (accept : β → Answer α × Engine α) : Answer α × Engine α :=
  match result with
  | .ok value => accept value
  | .error error => (.refused error, e)

/-- The answer to a call and the engine after it. -/
def perform (e : Engine α) : Call α → Answer α × Engine α
  | .add g => (.handle (e.add g).1, (e.add g).2)
  | .remove id => e.settle (e.remove? id) fun removed ↦ (.geom removed.1, removed.2)
  | .geom id => e.settle (e.geom? id) fun g ↦ (.geom g, e)
  | .edit id change => e.settle (e.modify? id change) fun next ↦ (.done, next)
  | .setPose id pose => e.settle (e.setPose? id pose) fun next ↦ (.done, next)
  | .rebuild id => e.settle (e.rebuild? id) fun next ↦ (.done, next)
  | .collidePair a b => e.settle (e.collidePair? a b) fun hit ↦ (.verdict hit, e)
  | .separatePair a b => e.settle (e.separatePair? a b) fun found ↦ (.contacts found, e)
  | .collide visit state =>
    let cycle := e.collide visit state
    (.verdict cycle.hit, cycle.engine)
  | .separate visit state =>
    let cycle := e.separate visit state
    (.verdict cycle.hit, cycle.engine)
  | .separateShared order =>
    let cycle := e.separateShared order
    (.verdict cycle.hit, cycle.engine)
  | .maintain => (.maintained e.maintain.1, e.maintain.2)
  | .override tester => (.done, { e with tester := tester })

/-! ### What an event says -/

/-- A call with its answer. -/
structure Event (α : Type) [Scalar α] : Type 1 where
  call : Call α
  answer : Answer α

/-- The handle that an event gives out. -/
def Event.given? : Event α → Option GeomId
  | ⟨.add _, .handle id⟩ => some id
  | _ => none

/-- The handle that an event takes back. -/
def Event.takenBack? : Event α → Option GeomId
  | ⟨.remove id, .geom _⟩ => some id
  | _ => none

/-! ### What a call does -/

/-- Which slots hold a geom. -/
def occupied (e : Engine α) : List Bool := e.geoms.map Option.isSome

/-- The keys of contact memory, if it is enabled. -/
def keysOf (memory? : Option (ContactMemory α)) : List (GeomId × GeomId) :=
  memory?.elim [] fun m ↦ m.entries.map Prod.fst

/-- The keys of the contact memory of an engine. -/
def keys (e : Engine α) : List (GeomId × GeomId) := keysOf e.memory?

/-- The key names two geoms in their slots, the lower handle first. -/
structure LiveKey (e : Engine α) (key : GeomId × GeomId) : Prop where
  lt : (key.1 : ℕ) < key.2
  first : e.occupied[key.1]? = some true
  second : e.occupied[key.2]? = some true

/-- Everything that a call can do to the slots, the count and the keys of contact memory. -/
inductive Effect (e : Engine α) : Event α → Engine α → Prop
  /-- The next slot is taken. -/
  | adds {event : Event α} {next : Engine α} (hcall : event.call.isAdd = true)
      (hgiven : event.given? = some e.occupied.length) (htaken : event.takenBack? = none)
      (hslots : next.occupied = e.occupied ++ [true]) (hsize : next.size = e.size + 1)
      (hkeys : next.keys = e.keys) : Effect e event next
  /-- A slot is cleared, and the keys that name it are forgotten. -/
  | removes {event : Event α} {next : Engine α} {id : GeomId} (hcall : event.call.isAdd = false)
      (hgiven : event.given? = none) (htaken : event.takenBack? = some id)
      (hid : e.occupied[id]? = some true) (hslots : next.occupied = e.occupied.set id false)
      (hsize : next.size = e.size - 1)
      (hkeys : next.keys = e.keys.filter fun key ↦ !ContactMemory.involves id key) :
      Effect e event next
  /-- The slots stay as they are, and new keys are those of candidate pairs. -/
  | keeps {event : Event α} {next : Engine α} (hcall : event.call.isAdd = false)
      (hgiven : event.given? = none) (htaken : event.takenBack? = none)
      (hslots : next.occupied = e.occupied) (hsize : next.size = e.size)
      (hkeys : ∀ key ∈ next.keys, key ∈ e.keys ∨ e.LiveKey key) : Effect e event next

theorem occupied_eq_some_true_iff (e : Engine α) (id : GeomId) :
    e.occupied[id]? = some true ↔ ∃ g, e.lookup? id = some g := by
  unfold occupied lookup?
  rw [List.getElem?_map]
  rcases e.geoms[id]? with _ | slot
  · simp
  · cases slot <;> simp

theorem geom?_of_occupied {e : Engine α} {id : GeomId} (h : e.occupied[id]? = some true) :
    ∃ g, e.geom? id = .ok g := by
  obtain ⟨g, hg⟩ := (occupied_eq_some_true_iff e id).mp h
  exact ⟨g, by rw [geom?, hg]⟩

theorem geom?_of_not_occupied {e : Engine α} {id : GeomId} (h : ¬ e.occupied[id]? = some true) :
    e.geom? id = .error (.unknownGeom id) := by
  unfold geom?
  rcases hlookup : e.lookup? id with _ | g
  · rfl
  · exact absurd ((occupied_eq_some_true_iff e id).mpr ⟨g, hlookup⟩) h

theorem occupied_of_geom? {e : Engine α} {id : GeomId} {g : Geom α} (h : e.geom? id = .ok g) :
    e.occupied[id]? = some true :=
  (occupied_eq_some_true_iff e id).mpr ⟨g, geom?_ok h⟩

theorem occupied_modify? {e next : Engine α} {id : GeomId} {change : Geom α → Geom α}
    (h : e.modify? id change = .ok next) : next.occupied = e.occupied := by
  obtain ⟨g, hg, h⟩ := bind_ok h
  obtain rfl := Except.ok.inj h
  have hid : (e.geoms.map Option.isSome)[id]? = some true := occupied_of_geom? hg
  obtain ⟨hlt, hget⟩ := List.getElem?_eq_some_iff.mp hid
  show (e.geoms.set id (some (change g))).map Option.isSome = e.geoms.map Option.isSome
  rw [List.map_set]
  exact (congrArg (List.set _ id) hget.symm).trans (List.set_getElem_self hlt)

theorem occupied_candidatePairs (e : Engine α) : e.candidatePairs.2.occupied = e.occupied := by
  show (e.geoms.map (Option.map fun g ↦ g.rebuildIfStale e.config.build)).map Option.isSome =
    e.geoms.map Option.isSome
  rw [List.map_map]
  refine List.map_congr_left fun slot _ ↦ ?_
  cases slot <;> rfl

/-- Candidate pairs name two geoms in their slots, the lower handle first. -/
theorem liveKey_of_mem_candidatePairs {e : Engine α}
    (hnumbered : SweepAndPrune.Numbered e.broadPhase.sweep.intervals) {pair : GeomId × GeomId}
    (h : pair ∈ e.candidatePairs.1) : e.LiveKey pair := by
  obtain ⟨grow, hmeeting⟩ := BroadPhase.meetingPair_of_mem_findPairs hnumbered h
  obtain ⟨hlt, a, ha, b, hb, rfl⟩ := hmeeting.lt (entries_pairwise e.rebuildStale)
  have hlive {entry : BoxEntry α} (hentry : entry ∈ e.rebuildStale.entries) :
      e.occupied[entry.id]? = some true := by
    obtain ⟨built, hbuilt, -⟩ := mem_entries.mp hentry
    rw [lookup?_rebuildStale] at hbuilt
    obtain ⟨g, hg, -⟩ := Option.map_eq_some_iff.mp hbuilt
    exact (occupied_eq_some_true_iff e entry.id).mpr ⟨g, hg⟩
  exact ⟨hlt, hlive ha, hlive hb⟩

/-- The contacts of a pair bring no key to contact memory but the pair itself. -/
theorem mem_keysOf_remember {memory? : Option (ContactMemory α)} {pair key : GeomId × GeomId}
    (hle : (pair.1 : ℕ) ≤ pair.2) {a b : Geom α} {contacts : Contacts α}
    (hkey : key ∈ keysOf (remember memory? pair a b contacts).2) :
    key ∈ keysOf memory? ∨ key = pair := by
  rcases memory? with _ | m
  · exact .inl hkey
  · have hordered : orderedPair pair.1 pair.2 = pair := if_pos hle
    replace hkey : key ∈ (m.update ⟨pair.1, a.pose, a.remembered⟩ ⟨pair.2, b.pose, b.remembered⟩
      contacts).2.entries.map Prod.fst := hkey
    unfold ContactMemory.update at hkey
    split_ifs at hkey
    · exact .inl hkey
    · rw [ContactMemory.store_keys] at hkey
      split_ifs at hkey
      · exact .inl hkey
      · exact (List.mem_append.mp hkey).imp_right fun h ↦ (List.mem_singleton.mp h).trans hordered

theorem showContacts_memory? {σ : Type} (e : Engine α)
    (visit : σ → (GeomId × GeomId) × Contacts α → σ × Bool) (s : Showing α σ)
    (pair : GeomId × GeomId) :
    (e.showContacts visit s pair).1.memory? = s.memory? ∨
      ∃ a b contacts, (e.showContacts visit s pair).1.memory? =
        (remember s.memory? pair a b contacts).2 := by
  unfold showContacts
  split
  · exact .inl rfl
  · simp only
    split_ifs
    · exact .inl rfl
    · exact .inr ⟨_, _, _, rfl⟩

/-- A cycle of contacts brings no keys to contact memory but those of the pairs it shows. -/
theorem mem_keysOf_showContacts {σ : Type} {e : Engine α}
    {visit : σ → (GeomId × GeomId) × Contacts α → σ × Bool} {s : Showing α σ}
    {pairs : List (GeomId × GeomId)} (hpairs : ∀ pair ∈ pairs, (pair.1 : ℕ) ≤ pair.2)
    {key : GeomId × GeomId}
    (hkey : key ∈ keysOf (visitList (e.showContacts visit) s pairs).1.memory?) :
    key ∈ keysOf s.memory? ∨ key ∈ pairs := by
  refine visitList_preserves
    (motive := fun state : Showing α σ ↦
      key ∈ keysOf state.memory? → key ∈ keysOf s.memory? ∨ key ∈ pairs)
    (fun state pair hpair ih hnext ↦ ?_) Or.inl hkey
  rcases showContacts_memory? e visit state pair with hsame | ⟨a, b, contacts, hremembered⟩
  · exact ih (hsame ▸ hnext)
  · rcases mem_keysOf_remember (hpairs pair hpair) (hremembered ▸ hnext) with hold | rfl
    · exact ih hold
    · exact .inr hpair

omit [Scalar α] in
theorem keysOf_removeGeom (memory? : Option (ContactMemory α)) (id : GeomId) :
    keysOf (memory?.map fun m ↦ m.removeGeom id) =
      (keysOf memory?).filter fun key ↦ !ContactMemory.involves id key := by
  rcases memory? with _ | m
  · rfl
  · show ((m.removeGeom id).entries).map Prod.fst = _
    rw [ContactMemory.removeGeom, keysOf, Option.elim_some, List.filter_map]
    rfl

/-- A maintenance leaves everything but the memory alone. -/
theorem maintain_spec (e : Engine α) :
    e.maintain.2.geoms = e.geoms ∧ e.maintain.2.size = e.size ∧
      e.maintain.2.broadPhase = e.broadPhase := by
  unfold maintain
  rcases e.memory? with _ | m <;> exact ⟨rfl, rfl, rfl⟩

/-- A maintenance only forgets. -/
theorem mem_keys_maintain {e : Engine α} {key : GeomId × GeomId} (h : key ∈ e.maintain.2.keys) :
    key ∈ e.keys := by
  unfold maintain at h
  rcases hmemory : e.memory? with _ | m
  · rw [hmemory] at h
    exact h
  · rw [hmemory] at h
    replace h : key ∈ m.maintain.2.entries.map Prod.fst := h
    rw [ContactMemory.maintain_entries] at h
    rw [keys, hmemory]
    exact (keys_filterMap_sublist _ _).subset h

theorem collide_engine {σ : Type} (e : Engine α) (visit : σ → GeomId × GeomId → σ × Bool)
    (state : σ) : (e.collide visit state).engine = e.candidatePairs.2 :=
  rfl

/-- The engine after a cycle of contacts is that after its candidates, up to the memory. -/
theorem separate_engine {σ : Type} (e : Engine α)
    (visit : σ → (GeomId × GeomId) × Contacts α → σ × Bool) (state : σ) :
    (e.separate visit state).engine = { e.candidatePairs.2 with
      memory? := (visitList (e.candidatePairs.2.showContacts visit)
        ⟨false, e.memory?, state⟩ e.candidatePairs.1).1.memory? } :=
  rfl

theorem separateShared_engine (e : Engine α) (order : List (GeomId × GeomId)) :
    (e.separateShared order).engine = { e.candidatePairs.2 with
      memory? := (visitList (e.candidatePairs.2.showContacts fun _ _ ↦ ((), false))
        ⟨false, e.memory?, ()⟩ (order.filter e.candidatePairs.1.contains)).1.memory? } :=
  rfl

/-- A call that leaves the engine as it is. -/
theorem Effect.same {e : Engine α} {event : Event α} (hcall : event.call.isAdd = false)
    (hgiven : event.given? = none) (htaken : event.takenBack? = none) : Effect e event e :=
  .keeps hcall hgiven htaken rfl rfl fun _ ↦ .inl

/-- A refused call leaves the engine as it is, so only what an accepted one does matters. -/
theorem effect_of_settle {β : Type} {e : Engine α} {call : Call α} {result : Except (Error α) β}
    {accept : β → Answer α × Engine α} (hcall : call.isAdd = false)
    (haccept : ∀ value, result = .ok value →
      Effect e ⟨call, (accept value).1⟩ (accept value).2) :
    Effect e ⟨call, (e.settle result accept).1⟩ (e.settle result accept).2 := by
  rcases result with error | value
  · refine .same hcall ?_ ?_ <;> cases call <;> rfl
  · exact haccept value rfl

theorem perform_effect {e : Engine α}
    (hnumbered : SweepAndPrune.Numbered e.broadPhase.sweep.intervals) (call : Call α) :
    Effect e ⟨call, (e.perform call).1⟩ (e.perform call).2 := by
  have hcandidate {pair : GeomId × GeomId} : pair ∈ e.candidatePairs.1 → e.LiveKey pair :=
    liveKey_of_mem_candidatePairs hnumbered
  have hslots : e.candidatePairs.2.occupied = e.occupied := occupied_candidatePairs e
  have hmodified {id : GeomId} {change : Geom α → Geom α} {next : Engine α}
      (h : e.modify? id change = .ok next) {event : Event α} (hcall : event.call.isAdd = false)
      (hgiven : event.given? = none) (htaken : event.takenBack? = none) : Effect e event next := by
    have hkept := occupied_modify? h
    obtain ⟨g, -, h⟩ := bind_ok h
    obtain rfl := Except.ok.inj h
    exact .keeps hcall hgiven htaken hkept rfl fun _ ↦ .inl
  cases call with
  | add g =>
    refine .adds rfl ?_ rfl ?_ rfl rfl
    · exact congrArg some (List.length_map _).symm
    · exact List.map_append
  | remove id =>
    refine effect_of_settle rfl fun removed h ↦ ?_
    obtain ⟨g, hg, h⟩ := bind_ok h
    obtain rfl := Except.ok.inj h
    refine .removes rfl rfl rfl (occupied_of_geom? hg) List.map_set rfl ?_
    exact keysOf_removeGeom e.memory? id
  | geom id => exact effect_of_settle rfl fun _ _ ↦ .same rfl rfl rfl
  | edit id change => exact effect_of_settle rfl fun _ h ↦ hmodified h rfl rfl rfl
  | setPose id pose => exact effect_of_settle rfl fun _ h ↦ hmodified h rfl rfl rfl
  | rebuild id => exact effect_of_settle rfl fun _ h ↦ hmodified h rfl rfl rfl
  | collidePair a b => exact effect_of_settle rfl fun _ _ ↦ .same rfl rfl rfl
  | separatePair a b => exact effect_of_settle rfl fun _ _ ↦ .same rfl rfl rfl
  | collide visit state =>
    show Effect e _ (e.collide visit state).engine
    rw [collide_engine]
    exact .keeps rfl rfl rfl hslots rfl fun _ ↦ .inl
  | separate visit state =>
    show Effect e _ (e.separate visit state).engine
    rw [separate_engine]
    refine .keeps rfl rfl rfl hslots rfl fun key hkey ↦ ?_
    exact (mem_keysOf_showContacts (fun _ hpair ↦ (hcandidate hpair).lt.le) hkey).imp_right
      hcandidate
  | separateShared order =>
    show Effect e _ (e.separateShared order).engine
    rw [separateShared_engine]
    refine .keeps rfl rfl rfl hslots rfl fun key hkey ↦ ?_
    have hmem {pair : GeomId × GeomId} (h : pair ∈ order.filter e.candidatePairs.1.contains) :
        pair ∈ e.candidatePairs.1 := by simpa using (List.mem_filter.mp h).2
    exact (mem_keysOf_showContacts (fun _ hpair ↦ (hcandidate (hmem hpair)).lt.le) hkey).imp_right
      fun h ↦ hcandidate (hmem h)
  | maintain =>
    obtain ⟨hgeoms, hsize, -⟩ := maintain_spec e
    exact .keeps rfl rfl rfl (congrArg (List.map Option.isSome) hgeoms) hsize
      fun _ hkey ↦ .inl (mem_keys_maintain hkey)
  | override tester => exact .keeps rfl rfl rfl rfl rfl fun _ ↦ .inl

/-- The broad phase keeps naming the places of its boxes. -/
theorem perform_numbered {e : Engine α}
    (hnumbered : SweepAndPrune.Numbered e.broadPhase.sweep.intervals) (call : Call α) :
    SweepAndPrune.Numbered (e.perform call).2.broadPhase.sweep.intervals := by
  have hframe : SweepAndPrune.Numbered e.candidatePairs.2.broadPhase.sweep.intervals :=
    (BroadPhase.findPairs_state e.broadPhase e.rebuildStale.entries hnumbered).1
  have hsettle {β : Type} {result : Except (Error α) β} {accept : β → Answer α × Engine α}
      (haccept : ∀ value, result = .ok value → (accept value).2.broadPhase = e.broadPhase) :
      SweepAndPrune.Numbered (e.settle result accept).2.broadPhase.sweep.intervals := by
    rcases result with error | value
    · exact hnumbered
    · rw [settle, haccept value rfl]
      exact hnumbered
  have hmodify {id : GeomId} {change : Geom α → Geom α} {next : Engine α}
      (h : e.modify? id change = .ok next) : next.broadPhase = e.broadPhase := by
    obtain ⟨g, -, h⟩ := bind_ok h
    exact (Except.ok.inj h) ▸ rfl
  cases call with
  | remove id =>
    refine hsettle fun removed h ↦ ?_
    obtain ⟨g, -, h⟩ := bind_ok h
    exact (Except.ok.inj h) ▸ rfl
  | geom id => exact hsettle fun _ _ ↦ rfl
  | edit id change => exact hsettle fun _ h ↦ hmodify h
  | setPose id pose => exact hsettle fun _ h ↦ hmodify h
  | rebuild id => exact hsettle fun _ h ↦ hmodify h
  | collidePair a b => exact hsettle fun _ _ ↦ rfl
  | separatePair a b => exact hsettle fun _ _ ↦ rfl
  | add g => exact hnumbered
  | collide visit state =>
    show SweepAndPrune.Numbered (e.collide visit state).engine.broadPhase.sweep.intervals
    rw [collide_engine]
    exact hframe
  | separate visit state =>
    show SweepAndPrune.Numbered (e.separate visit state).engine.broadPhase.sweep.intervals
    rw [separate_engine]
    exact hframe
  | separateShared order =>
    show SweepAndPrune.Numbered (e.separateShared order).engine.broadPhase.sweep.intervals
    rw [separateShared_engine]
    exact hframe
  | maintain =>
    rw [perform, (maintain_spec e).2.2]
    exact hnumbered
  | override tester => exact hnumbered

/-! ### Handles that are refused -/

section LookingUp

variable {e : Engine α} {id : GeomId} {β : Type}

/-- A call that looks up a handle without a geom is refused for it. -/
theorem settle_unknown (hid : ¬ e.occupied[id]? = some true) (act : Geom α → Except (Error α) β)
    (accept : β → Answer α × Engine α) :
    e.settle (e.geom? id >>= act) accept = (.refused (.unknownGeom id), e) := by
  rw [geom?_of_not_occupied hid]
  rfl

/-- A call that looks up a handle with a geom goes on with the geom. -/
theorem settle_known (hid : e.occupied[id]? = some true) (act : Geom α → Except (Error α) β)
    (accept : β → Answer α × Engine α) :
    ∃ g, e.settle (e.geom? id >>= act) accept = e.settle (act g) accept := by
  obtain ⟨g, hg⟩ := geom?_of_occupied hid
  refine ⟨g, ?_⟩
  rw [hg]
  rfl

end LookingUp

/-- The first handle of a call that names no geom is what the call is refused for. -/
theorem perform_of_unknown {e : Engine α} {call : Call α} {before after : List GeomId} {id : GeomId}
    (hnamed : call.named = before ++ id :: after)
    (hbefore : ∀ earlier ∈ before, e.occupied[earlier]? = some true)
    (hid : ¬ e.occupied[id]? = some true) :
    e.perform call = (.refused (.unknownGeom id), e) := by
  have honly {x : GeomId} {ids : List GeomId} (h : [x] = ids ++ id :: after) : x = id := by
    rcases ids with _ | ⟨first, rest⟩
    · exact (List.cons.inj h).1
    · exact absurd (List.cons.inj h).2 (by simp)
  have hone {β : Type} {x : GeomId} {act : Geom α → Except (Error α) β}
      {accept : β → Answer α × Engine α} (h : [x] = before ++ id :: after) :
      e.settle (e.geom? x >>= act) accept = (.refused (.unknownGeom id), e) := by
    rw [honly h]
    exact settle_unknown hid act accept
  have htwo {β : Type} {x y : GeomId} {act : Geom α → Geom α → Except (Error α) β}
      {accept : β → Answer α × Engine α} (h : [x, y] = before ++ id :: after) :
      e.settle (e.geom? x >>= fun first ↦ e.geom? y >>= act first) accept =
        (.refused (.unknownGeom id), e) := by
    rcases before with _ | ⟨first, rest⟩
    · rw [(List.cons.inj h).1]
      exact settle_unknown hid _ accept
    · rw [(List.cons.inj h).1, honly (List.cons.inj h).2]
      obtain ⟨g, hg⟩ := settle_known (hbefore first List.mem_cons_self)
        (fun first ↦ e.geom? id >>= act first) accept
      rw [hg]
      exact settle_unknown hid (act g) accept
  cases call with
  | remove x => exact hone hnamed
  | geom x =>
    show e.settle (e.geom? x) _ = _
    rw [honly hnamed, geom?_of_not_occupied hid]
    rfl
  | edit x change => exact hone hnamed
  | setPose x pose => exact hone hnamed
  | rebuild x => exact hone hnamed
  | collidePair x y => exact htwo hnamed
  | separatePair x y => exact htwo hnamed
  | add g => exact absurd hnamed (by simp [Call.named])
  | collide visit state => exact absurd hnamed (by simp [Call.named])
  | separate visit state => exact absurd hnamed (by simp [Call.named])
  | separateShared order => exact absurd hnamed (by simp [Call.named])
  | maintain => exact absurd hnamed (by simp [Call.named])
  | override tester => exact absurd hnamed (by simp [Call.named])

/-- A call whose handles all name geoms is not refused. -/
theorem perform_of_known {e : Engine α} {call : Call α}
    (hnamed : ∀ id ∈ call.named, e.occupied[id]? = some true) (error : Error α) :
    (e.perform call).1 ≠ .refused error := by
  have hone {β : Type} {x : GeomId} {act : Geom α → Except (Error α) β}
      {accept : β → Answer α × Engine α} (hx : e.occupied[x]? = some true)
      (hact : ∀ g, ∃ value, act g = .ok value)
      (haccept : ∀ value, (accept value).1 ≠ .refused error) :
      (e.settle (e.geom? x >>= act) accept).1 ≠ .refused error := by
    obtain ⟨g, hg⟩ := settle_known hx act accept
    obtain ⟨value, hvalue⟩ := hact g
    rw [hg, hvalue]
    exact haccept value
  have htwo {β : Type} {x y : GeomId} {act : Geom α → Geom α → Except (Error α) β}
      {accept : β → Answer α × Engine α} (hx : e.occupied[x]? = some true)
      (hy : e.occupied[y]? = some true) (hact : ∀ first g, ∃ value, act first g = .ok value)
      (haccept : ∀ value, (accept value).1 ≠ .refused error) :
      (e.settle (e.geom? x >>= fun first ↦ e.geom? y >>= act first) accept).1 ≠
        .refused error := by
    obtain ⟨g, hg⟩ := settle_known hx (fun first ↦ e.geom? y >>= act first) accept
    rw [hg]
    exact hone hy (hact g) haccept
  cases call with
  | remove x => exact hone (hnamed _ List.mem_cons_self) (fun _ ↦ ⟨_, rfl⟩) fun _ h ↦ nomatch h
  | geom x =>
    obtain ⟨g, hg⟩ := geom?_of_occupied (hnamed _ List.mem_cons_self)
    show (e.settle (e.geom? x) _).1 ≠ _
    rw [hg]
    exact nofun
  | edit x change =>
    exact hone (hnamed _ List.mem_cons_self) (fun _ ↦ ⟨_, rfl⟩) fun _ h ↦ nomatch h
  | setPose x pose =>
    exact hone (hnamed _ List.mem_cons_self) (fun _ ↦ ⟨_, rfl⟩) fun _ h ↦ nomatch h
  | rebuild x => exact hone (hnamed _ List.mem_cons_self) (fun _ ↦ ⟨_, rfl⟩) fun _ h ↦ nomatch h
  | collidePair x y =>
    exact htwo (hnamed _ List.mem_cons_self) (hnamed _ (.tail x List.mem_cons_self))
      (fun _ _ ↦ ⟨_, rfl⟩) fun _ h ↦ nomatch h
  | separatePair x y =>
    exact htwo (hnamed _ List.mem_cons_self) (hnamed _ (.tail x List.mem_cons_self))
      (fun _ _ ↦ ⟨_, rfl⟩) fun _ h ↦ nomatch h
  | add g => exact nofun
  | collide visit state => exact nofun
  | separate visit state => exact nofun
  | separateShared order => exact nofun
  | maintain => exact nofun
  | override tester => exact nofun

end Engine

end Collision
