import Collision.Proofs.Engine.Edits

/-!
# Runs of an engine

`Engine.Reachable` are the engines that come about from a configuration by any steps in any order:
geoms added, removed, moved, edited and built, cycles of any kind, maintenance and replaced pair
tests. `Engine.Consistent` is what all of them keep: every geom is consistent, and the intervals
that the broad phase carries from cycle to cycle name the places of its boxes.

* `Engine.collide_of_reachable` says which pairs a cycle of verdicts shows, whatever the settings
  and whatever came before.
-/

set_option autoImplicit false
set_option relaxedAutoImplicit false

namespace Collision

/-! ### Candidates in exact arithmetic -/

theorem AlignedBox.isNumeric_real (b : AlignedBox ℝ) : b.IsNumeric :=
  fun _ ↦ ⟨Scalar.isNumber_real _, Scalar.isNumber_real _⟩

namespace BroadPhase

/-- Either algorithm finds the pairs of entries whose boxes meet. -/
theorem mem_findPairs {b : BroadPhase ℝ} (hnumbered : SweepAndPrune.Numbered b.sweep.intervals)
    (hmargin : b.sweep.margin = 0) (entries : List (BoxEntry ℝ)) (p : GeomId × GeomId) :
    p ∈ (b.findPairs entries).1 ↔ MeetingPair id entries p := by
  have hnumeric : ∀ e ∈ entries, e.box.IsNumeric := fun e _ ↦ e.box.isNumeric_real
  have hgrown : SweepAndPrune.grown (0 : ℝ) = id := by
    funext box
    simp [SweepAndPrune.grown]
  unfold findPairs
  rcases b.choice
  · rw [← hgrown, ← hmargin]
    exact SweepAndPrune.mem_findPairs b.sweep entries hnumbered rfl hnumeric p
  · have hzero : (0 : ℝ) ≤ 0 := le_refl 0
    rw [← hgrown, SweepAndPrune.meetingPair_grown_iff (Scalar.zero_real ▸ hzero) hnumeric]
    simp only [overlappingPairs, mem_sortedPairs, mem_overlappingList, Scalar.zero_real]

/-- A frame keeps the margin, and the intervals keep naming places. -/
theorem findPairs_state {α : Type} [Scalar α] (b : BroadPhase α) (entries : List (BoxEntry α))
    (hnumbered : SweepAndPrune.Numbered b.sweep.intervals) :
    SweepAndPrune.Numbered (b.findPairs entries).2.sweep.intervals ∧
      (b.findPairs entries).2.sweep.margin = b.sweep.margin := by
  unfold findPairs
  rcases b.choice
  · exact ⟨SweepAndPrune.update_numbered b.sweep entries hnumbered, rfl⟩
  · exact ⟨hnumbered, rfl⟩

end BroadPhase

/-- The standard settings are without fault. -/
theorem Config.standard_validate : (Config.standard : Config ℝ).validate = .ok () := by
  have hportal : (PortalConfig.standard : PortalConfig ℝ).validate = .ok () := by
    simp [PortalConfig.standard, PortalConfig.validate, wordLimit, isFiniteNonnegative]
  have hmemory : (MemoryConfig.standard : MemoryConfig ℝ).validate = .ok () := by
    simp [MemoryConfig.standard, MemoryConfig.validate, isFiniteNonnegative]
  show (PortalConfig.standard.validate >>= fun _ ↦ MemoryConfig.standard.validate) = _
  rw [hportal, hmemory]
  rfl

namespace Engine

/-! ### Steps -/

/-- One step of a program that uses an engine. Calls that are refused change nothing. -/
inductive Step : Engine ℝ → Engine ℝ → Prop
  | add (e : Engine ℝ) {g : Geom ℝ} (hg : g.Made) : Step e (e.add g).2
  | remove {e next : Engine ℝ} {id : GeomId} {g : Geom ℝ} (h : e.remove? id = .ok (g, next)) :
      Step e next
  | setPose {e next : Engine ℝ} {id : GeomId} {pose : Pose ℝ} (hpose : pose.Rigid)
      (h : e.setPose? id pose = .ok next) : Step e next
  | edit {e next : Engine ℝ} {id : GeomId} {change : Geom ℝ → Geom ℝ}
      (hchange : ∀ g, e.lookup? id = some g → Geom.Edit g (change g))
      (h : e.modify? id change = .ok next) : Step e next
  | rebuild {e next : Engine ℝ} {id : GeomId} (h : e.rebuild? id = .ok next) : Step e next
  | collide (e : Engine ℝ) {σ : Type} (visit : σ → GeomId × GeomId → σ × Bool) (state : σ) :
      Step e (e.collide visit state).engine
  | separate (e : Engine ℝ) {σ : Type}
      (visit : σ → (GeomId × GeomId) × Contacts ℝ → σ × Bool) (state : σ) :
      Step e (e.separate visit state).engine
  | maintain (e : Engine ℝ) : Step e e.maintain.2
  | override (e : Engine ℝ) (tester : PairTester ℝ) : Step e { e with tester := tester }

/-- The engines that steps lead to from a configuration that tests pairs one after another. -/
inductive Reachable (config : Config ℝ) : Engine ℝ → Prop
  | start {e : Engine ℝ} (hthreads : config.threads = 1) (h : ofConfig? config = .ok e) :
      Reachable config e
  | step {e next : Engine ℝ} (he : Reachable config e) (h : Step e next) : Reachable config next

/-- The geoms are consistent, and the broad phase carries intervals that name the places of its
boxes and does not grow them. -/
structure Consistent (e : Engine ℝ) : Prop where
  geoms : ∀ g, some g ∈ e.geoms → g.Consistent
  numbered : SweepAndPrune.Numbered e.broadPhase.sweep.intervals
  margin : e.broadPhase.sweep.margin = 0

theorem geom?_ok {α : Type} [Scalar α] {e : Engine α} {id : GeomId} {g : Geom α}
    (h : e.geom? id = .ok g) : e.lookup? id = some g := by
  unfold geom? at h
  rcases hlookup : e.lookup? id with _ | found
  · rw [hlookup] at h
    cases h
  · rw [hlookup] at h
    rw [Except.ok.inj h]

namespace Consistent

variable {e next : Engine ℝ}

theorem ofConfig? {config : Config ℝ} (h : Engine.ofConfig? config = .ok e) : e.Consistent := by
  obtain ⟨-, -, h⟩ := bind_ok h
  obtain rfl := Except.ok.inj h
  exact ⟨fun g hg ↦ absurd hg List.not_mem_nil, SweepAndPrune.start_numbered _, Scalar.zero_real⟩

theorem lookup? (he : e.Consistent) {id : GeomId} {g : Geom ℝ} (h : e.lookup? id = some g) :
    g.Consistent :=
  he.geoms g (lookup?_mem h)

/-- Putting a consistent geom, or none, in the place of another one keeps an engine consistent. -/
theorem set (he : e.Consistent) (id : GeomId) {slot : Option (Geom ℝ)}
    (hslot : ∀ g, slot = some g → g.Consistent) (g : Geom ℝ) (hg : some g ∈ e.geoms.set id slot) :
    g.Consistent := by
  rcases List.mem_or_eq_of_mem_set hg with hold | hnew
  · exact he.geoms g hold
  · exact hslot g hnew.symm

theorem modify? (he : e.Consistent) {id : GeomId} {change : Geom ℝ → Geom ℝ}
    (hchange : ∀ g, e.lookup? id = some g → (change g).Consistent)
    (h : e.modify? id change = .ok next) : next.Consistent := by
  obtain ⟨g, hg, h⟩ := bind_ok h
  obtain rfl := Except.ok.inj h
  refine ⟨he.set id fun changed hchanged ↦ ?_, he.numbered, he.margin⟩
  obtain rfl := Option.some_inj.mp hchanged
  exact hchange g (geom?_ok hg)

theorem candidatePairs (he : e.Consistent) : e.candidatePairs.2.Consistent := by
  obtain ⟨hnumbered, hmargin⟩ :=
    BroadPhase.findPairs_state e.broadPhase e.rebuildStale.entries he.numbered
  refine ⟨fun g hg ↦ ?_, hnumbered, hmargin.trans he.margin⟩
  obtain ⟨slot, hslot, hbuilt⟩ := List.mem_map.mp hg
  obtain ⟨old, rfl, rfl⟩ := Option.map_eq_some_iff.mp hbuilt
  exact ((he.geoms old hslot).rebuildIfStale e.config.build).1

end Consistent

theorem Step.consistent {e next : Engine ℝ} (h : Step e next) (he : e.Consistent) :
    next.Consistent := by
  cases h with
  | add hg =>
    refine ⟨fun g' hg' ↦ ?_, he.numbered, he.margin⟩
    rcases List.mem_append.mp hg' with hold | hnew
    · exact he.geoms g' hold
    · obtain rfl := Option.some_inj.mp (List.mem_singleton.mp hnew)
      exact hg.consistent.build e.config.build
  | remove h =>
    obtain ⟨g, -, h⟩ := bind_ok h
    obtain ⟨-, rfl⟩ := Prod.mk.inj (Except.ok.inj h)
    exact ⟨he.set _ nofun, he.numbered, he.margin⟩
  | setPose hpose h => exact he.modify? (fun g hg ↦ (he.lookup? hg).setPose hpose) h
  | edit hchange h => exact he.modify? (fun g hg ↦ (hchange g hg).consistent (he.lookup? hg)) h
  | rebuild h => exact he.modify? (fun g hg ↦ (he.lookup? hg).build _) h
  | collide visit state => exact he.candidatePairs
  | separate visit state =>
    exact ⟨he.candidatePairs.geoms, he.candidatePairs.numbered, he.candidatePairs.margin⟩
  | maintain =>
    unfold Engine.maintain
    rcases e.memory? with _ | m
    · exact he
    · exact ⟨he.geoms, he.numbered, he.margin⟩
  | override tester => exact ⟨he.geoms, he.numbered, he.margin⟩

theorem Reachable.consistent {config : Config ℝ} {e : Engine ℝ} (h : Reachable config e) :
    e.Consistent := by
  induction h with
  | start _ h => exact .ofConfig? h
  | step _ hstep ih => exact hstep.consistent ih

/-! ### Cycles of consistent engines -/

/-- Candidates are pairs of entries, the lower handle first. -/
theorem Consistent.mem_candidatePairs {e : Engine ℝ} (he : e.Consistent) (p : GeomId × GeomId) :
    p ∈ e.candidatePairs.1 ↔ ∃ a ∈ e.rebuildStale.entries, ∃ b ∈ e.rebuildStale.entries,
      (a.id : ℕ) < b.id ∧ p = (a.id, b.id) ∧ a.box.Meets b.box := by
  refine (BroadPhase.mem_findPairs he.numbered he.margin _ p).trans ?_
  have hrising := entries_pairwise e.rebuildStale
  constructor
  · intro hmeeting
    obtain ⟨hlt, -⟩ := hmeeting.lt hrising
    obtain ⟨i, j, a, b, -, ha, hb, -, rfl, hmeets⟩ := hmeeting
    exact ⟨a, List.mem_of_getElem? ha, b, List.mem_of_getElem? hb, hlt, rfl, hmeets⟩
  · rintro ⟨a, ha, b, hb, hlt, hp, hmeets⟩
    obtain ⟨i, hi⟩ := List.getElem?_of_mem ha
    obtain ⟨j, hj⟩ := List.getElem?_of_mem hb
    refine ⟨i, j, a, b, ?_, hi, hj, hlt.le, hp, hmeets⟩
    rintro rfl
    rw [Option.some_inj.mp (hi.symm.trans hj)] at hlt
    exact absurd hlt (Nat.lt_irrefl _)

/-- A geom after a build that was due, if it was: it stands where it stood, has the parts it had,
and its tree is up to date. -/
theorem Consistent.rebuilt {e : Engine ℝ} (he : e.Consistent) {id : GeomId} {g : Geom ℝ}
    (hg : e.lookup? id = some g) : ∃ built : Geom ℝ, e.candidatePairs.2.lookup? id = some built ∧
      built.Consistent ∧ built.UpToDate ∧ built.pose = g.pose ∧ built.parts = g.parts := by
  obtain ⟨hpose, hshapes⟩ := g.rebuildIfStale_spec e.config.build
  obtain ⟨hconsistent, hbuilt⟩ := (he.lookup? hg).rebuildIfStale e.config.build
  refine ⟨_, ?_, hconsistent, hbuilt, hpose, congrArg (List.flatMap Shape.parts) hshapes⟩
  rw [lookup?_candidatePairs, hg]
  rfl

/-- Geoms with parts that touch overlap in a cycle, if the test of these parts says so. -/
theorem Consistent.mem_overlappingCandidates {e : Engine ℝ} (he : e.Consistent) {lo hi : GeomId}
    (hlt : (lo : ℕ) < hi) {a b : Geom ℝ} (ha : e.lookup? lo = some a) (hb : e.lookup? hi = some b)
    {x y : Part ℝ} (hx : x ∈ a.parts) (hy : y ∈ b.parts) {p : Vec3 ℝ}
    (hpx : p ∈ x.nearRegionAt a.pose) (hpy : p ∈ y.nearRegionAt b.pose)
    (htest : e.tester.collide ⟨.part x, a.pose⟩ ⟨.part y, b.pose⟩ = true) :
    (lo, hi) ∈ e.overlappingCandidates := by
  obtain ⟨builtA, hlookupA, hconsistentA, hupToDateA, hposeA, hpartsA⟩ := he.rebuilt ha
  obtain ⟨builtB, hlookupB, hconsistentB, hupToDateB, hposeB, hpartsB⟩ := he.rebuilt hb
  rw [← hpartsA] at hx
  rw [← hpartsB] at hy
  rw [← hposeA] at hpx htest
  rw [← hposeB] at hpy htest
  obtain ⟨boxA, hboxA, hholdsA⟩ := hconsistentA.worldBox?_holds hupToDateA hx
  obtain ⟨boxB, hboxB, hholdsB⟩ := hconsistentB.worldBox?_holds hupToDateB hy
  have hcandidate : (lo, hi) ∈ e.candidatePairs.1 :=
    (he.mem_candidatePairs _).mpr ⟨⟨lo, boxA⟩, mem_entries.mpr ⟨builtA, hlookupA, hboxA⟩,
      ⟨hi, boxB⟩, mem_entries.mpr ⟨builtB, hlookupB, hboxB⟩, hlt, rfl,
      (hholdsA p hpx).meets (hholdsB p hpy)⟩
  refine List.mem_filter.mpr ⟨hcandidate, ?_⟩
  unfold overlapping geomsOf?
  simp only [hlookupA, hlookupB]
  exact Geom.collide_of_touching hconsistentA hconsistentB hupToDateA hupToDateB hx hy hpx hpy htest

/-- An engine as any run leaves it, and a visitor that never has enough. A cycle of verdicts shows
it pairs of live handles in strictly rising order, the lower handle of a pair first; each of them
tests as overlapping by the trees that the cycle leaves behind. Every pair of live geoms is shown of
which a part of the lower and a part of the higher have a common point, of a plane a point in the
box that stands for it, and test as overlapping. The cycle reports a hit iff it showed a pair. -/
theorem collide_of_reachable (config : Config ℝ) (e : Engine ℝ) (he : Reachable config e)
    {σ : Type} (visit : σ → GeomId × GeomId → σ × Bool)
    (hcontinue : ∀ s pair, (visit s pair).2 = false) (state : σ) :
    let cycle := e.collide (recording visit) (state, [])
    let shown := cycle.state.2
    cycle.state.1 = shown.foldl (fun s pair ↦ (visit s pair).1) state ∧
      shown.Pairwise PairLt ∧
      (∀ lo hi, (lo, hi) ∈ shown → (lo : ℕ) < hi ∧
        (∃ a b, e.lookup? lo = some a ∧ e.lookup? hi = some b) ∧
        cycle.engine.collidePair? lo hi = .ok true) ∧
      (∀ (lo hi : GeomId) (a b : Geom ℝ), (lo : ℕ) < hi → e.lookup? lo = some a →
        e.lookup? hi = some b → ∀ x ∈ a.parts, ∀ y ∈ b.parts,
          (x.nearRegionAt a.pose ∩ y.nearRegionAt b.pose).Nonempty →
          e.tester.collide ⟨.part x, a.pose⟩ ⟨.part y, b.pose⟩ = true → (lo, hi) ∈ shown) ∧
      (cycle.hit = true ↔ shown ≠ []) := by
  intro cycle shown
  have hconsistent := he.consistent
  have hcycle : cycle = ⟨!e.overlappingCandidates.isEmpty,
      (e.overlappingCandidates.foldl (fun s pair ↦ (visit s pair).1) state,
        e.overlappingCandidates), e.candidatePairs.2⟩ := by
    refine (collide_eq e _ _).trans ?_
    rw [visitList_recording_of_continuing hcontinue]
    rfl
  have hshown : shown = e.overlappingCandidates := congrArg (fun c ↦ c.state.2) hcycle
  rw [hshown, hcycle]
  refine ⟨rfl, overlappingCandidates_pairwise e, fun lo hi hmem ↦ ?_, ?_, ?_⟩
  · obtain ⟨hcandidate, hoverlap⟩ := List.mem_filter.mp hmem
    obtain ⟨entryA, hentryA, entryB, hentryB, hlt, hpair, -⟩ :=
      (hconsistent.mem_candidatePairs _).mp hcandidate
    obtain ⟨rfl, rfl⟩ := Prod.mk.inj hpair
    refine ⟨hlt, ?_, (overlapping_iff _ _).mp hoverlap⟩
    obtain ⟨builtA, hlookupA, -⟩ := mem_entries.mp hentryA
    obtain ⟨builtB, hlookupB, -⟩ := mem_entries.mp hentryB
    rw [lookup?_rebuildStale] at hlookupA hlookupB
    obtain ⟨a, ha, -⟩ := Option.map_eq_some_iff.mp hlookupA
    obtain ⟨b, hb, -⟩ := Option.map_eq_some_iff.mp hlookupB
    exact ⟨a, b, ha, hb⟩
  · rintro lo hi a b hlt ha hb x hx y hy ⟨p, hpx, hpy⟩ htest
    exact hconsistent.mem_overlappingCandidates hlt ha hb hx hy hpx hpy htest
  · simp

/-- A standard engine with two unit balls whose centres are a unit apart. -/
theorem collide_of_two_balls :
    let ball : Shape ℝ := .primitive (.sphere 1)
    let first : Geom ℝ := (Geom.atPose .identity).add ball
    let second : Geom ℝ := (Geom.atPose (.ofPosition ⟨1, 0, 0⟩)).add ball
    let visit : Unit → GeomId × GeomId → Unit × Bool := fun _ _ ↦ ((), false)
    ∃ start : Engine ℝ, ofConfig? .standard = .ok start ∧
      let e := ((start.add first).2.add second).2
      Reachable .standard e ∧ (∀ s pair, (visit s pair).2 = false) ∧
        (0, 1) ∈ (e.collide (recording visit) ((), [])).state.2 := by
  intro ball first second visit
  have hmade (pose : Pose ℝ) (hpose : pose.Rigid) : ((Geom.atPose pose).add ball).Made :=
    ⟨pose, hpose, .single (.add (Shape.primitive_rigid _))⟩
  obtain ⟨start, hstart⟩ : ∃ start : Engine ℝ, ofConfig? .standard = .ok start :=
    ⟨_, by rw [ofConfig?, Config.standard_validate]; rfl⟩
  have hreachable : Reachable .standard ((start.add first).2.add second).2 := by
    refine .step (.step (.start rfl hstart) (.add _ ?_)) (.add _ ?_)
    · exact hmade _ Pose.identity_rigid
    · exact hmade _ Pose.identity_rigid
  obtain ⟨-, -, -, hshown, -⟩ :=
    collide_of_reachable .standard _ hreachable visit (fun _ _ ↦ rfl) ()
  refine ⟨start, hstart, hreachable, fun _ _ ↦ rfl, ?_⟩
  obtain ⟨-, -, hstart⟩ := bind_ok hstart
  obtain rfl := Except.ok.inj hstart
  have hmember : Part.bare (.sphere 1) ∈ [ball].flatMap Shape.parts := List.mem_cons_self
  refine hshown 0 1 _ _ one_pos rfl rfl _ hmember _ hmember ⟨⟨1, 0, 0⟩, ?_, ?_⟩ ?_
  · refine Part.mem_regionAt_sphere.mpr ?_
    simp [Vec3.norm_eq_sqrt_dot, Vec3.dot_eq, Vec3.zero_eq]
  · refine Part.mem_regionAt_sphere.mpr ?_
    simp
  · have hnear : ‖(⟨1, 0, 0⟩ : Vec3 ℝ) - Vec3.zero‖ < 1 + 1 := by
      rw [Vec3.zero_eq, sub_zero, Vec3.norm_eq_sqrt_dot, Real.sqrt_lt' (by norm_num)]
      simp only [Vec3.dot_eq]
      norm_num
    exact decide_eq_true hnear

end Engine

end Collision
