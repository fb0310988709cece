import Collision.Engine
import Collision.Proofs.Broad.Frames
import Collision.Proofs.Tree.Overlap

/-!
# Query cycles

A cycle of verdicts shows a visitor the candidate pairs whose geoms overlap, in the order of the
candidates, which rise strictly (`Engine.collide_eq`, `Engine.overlappingCandidates_pairwise`). Two
geoms overlap iff a pair of leaves does that the walk over their trees leaves over
(`Geom.collide_iff`).
-/

set_option autoImplicit false
set_option relaxedAutoImplicit false

namespace Collision

variable {α : Type} [Scalar α]

/-! ### Two geoms -/

namespace Geom

/-- The parts that the shapes of the geom break up into. -/
def parts (g : Geom α) : List (Part α) := g.shapes.flatMap Shape.parts

/-- Two geoms overlap iff a pair of leaves that remains does. -/
theorem collide_iff (g other : Geom α) (tester : PairTester α) :
    g.collide other tester = true ↔
      ∃ pair ∈ BoxTree.overlapsOf g.tree? g.pose other.tree? other.pose,
        tester.collide (g.placedLeaf pair.1) (other.placedLeaf pair.2) = true := by
  have hanswers (members : List (TreeLeaf α × TreeLeaf α)) (test : TreeLeaf α × TreeLeaf α → Bool) :
      (answers (fun (_ : Unit) pair ↦ ((), test pair)) () members).contains true =
        members.any test := by
    induction members with
    | nil => rfl
    | cons pair rest ih =>
      rw [answers, List.contains_cons, ih, List.any_cons]
      cases test pair <;> rfl
  have hcollide : g.collide other tester =
      (BoxTree.visitOverlapsOf (fun _ pair ↦
        ((), tester.collide (g.placedLeaf pair.1) (other.placedLeaf pair.2)))
        () g.tree? g.pose other.tree? other.pose).2 := by
    unfold collide BoxTree.visitOverlapsOf
    rcases g.tree? with _ | t
    · rfl
    · rcases other.tree? with _ | u <;> rfl
  rw [hcollide, BoxTree.visitOverlapsOf_eq, visitList_stops, hanswers, List.any_eq_true]

/-- A build that is due leaves the pose and the shapes alone. -/
theorem rebuildIfStale_spec (g : Geom α) (config : BuildConfig) :
    (g.rebuildIfStale config).pose = g.pose ∧ (g.rebuildIfStale config).shapes = g.shapes := by
  unfold rebuildIfStale
  split_ifs <;> exact ⟨rfl, rfl⟩

end Geom

namespace Engine

/-! ### Live geoms -/

theorem mem_live (e : Engine α) (id : GeomId) (g : Geom α) :
    (id, g) ∈ e.live ↔ e.lookup? id = some g := by
  unfold live lookup?
  rw [List.mem_filterMap]
  constructor
  · rintro ⟨⟨slot, place⟩, hslot, hgeom⟩
    obtain ⟨g', rfl, hpair⟩ := Option.map_eq_some_iff.mp hgeom
    obtain ⟨rfl, rfl⟩ := Prod.mk.inj hpair
    rw [List.mem_zipIdx_iff_getElem?.mp hslot]
    rfl
  · intro h
    exact ⟨(some g, id), List.mem_zipIdx_iff_getElem?.mpr (Option.join_eq_some_iff.mp h), rfl⟩

theorem lookup?_mem {e : Engine α} {id : GeomId} {g : Geom α} (h : e.lookup? id = some g) :
    some g ∈ e.geoms :=
  List.mem_of_getElem? (Option.join_eq_some_iff.mp h)

theorem live_pairwise (e : Engine α) : e.live.Pairwise fun a b ↦ (a.1 : ℕ) < b.1 := by
  have hplaces : e.geoms.zipIdx.Pairwise fun a b ↦ a.2 < b.2 := by
    rw [← List.pairwise_map, List.zipIdx_map_snd]
    exact List.pairwise_lt_range'
  refine List.pairwise_filterMap.mpr (hplaces.imp ?_)
  rintro ⟨slotA, a⟩ ⟨slotB, b⟩ hlt entryA hA entryB hB
  obtain ⟨-, -, rfl⟩ := Option.map_eq_some_iff.mp hA
  obtain ⟨-, -, rfl⟩ := Option.map_eq_some_iff.mp hB
  exact hlt

theorem mem_entries {e : Engine α} {entry : BoxEntry α} :
    entry ∈ e.entries ↔ ∃ g, e.lookup? entry.id = some g ∧ g.worldBox? = some entry.box := by
  unfold entries
  rw [List.mem_filterMap]
  constructor
  · rintro ⟨⟨id, g⟩, hlive, hbox⟩
    obtain ⟨box, hsome, rfl⟩ := Option.map_eq_some_iff.mp hbox
    exact ⟨g, (mem_live e id g).mp hlive, hsome⟩
  · rintro ⟨g, hlookup, hbox⟩
    exact ⟨(entry.id, g), (mem_live e entry.id g).mpr hlookup, by rw [hbox]; rfl⟩

/-- The entries stand in the order of their handles. -/
theorem entries_pairwise (e : Engine α) : e.entries.Pairwise fun a b ↦ (a.id : ℕ) < b.id := by
  refine List.pairwise_filterMap.mpr ((live_pairwise e).imp ?_)
  rintro ⟨idA, a⟩ ⟨idB, b⟩ hlt entryA hA entryB hB
  obtain ⟨-, -, rfl⟩ := Option.map_eq_some_iff.mp hA
  obtain ⟨-, -, rfl⟩ := Option.map_eq_some_iff.mp hB
  exact hlt

theorem lookup?_rebuildStale (e : Engine α) (id : GeomId) :
    e.rebuildStale.lookup? id =
      (e.lookup? id).map fun g ↦ g.rebuildIfStale e.config.build := by
  unfold rebuildStale lookup?
  rw [List.getElem?_map]
  rcases e.geoms[id]? with _ | slot
  · rfl
  · cases slot <;> rfl

/-- Two live geoms overlap in a cycle iff testing the pair alone says so. -/
theorem overlapping_iff (e : Engine α) (pair : GeomId × GeomId) :
    e.overlapping pair = true ↔ e.collidePair? pair.1 pair.2 = .ok true := by
  unfold overlapping geomsOf? collidePair? geom?
  rcases e.lookup? pair.1 with _ | a
  · exact iff_of_false Bool.false_ne_true nofun
  · rcases e.lookup? pair.2 with _ | b
    · exact iff_of_false Bool.false_ne_true nofun
    · exact ⟨fun h ↦ congrArg Except.ok h, fun h ↦ Except.ok.inj h⟩

/-! ### Candidates -/

theorem findPairs_pairwise (b : BroadPhase α) (entries : List (BoxEntry α)) :
    (b.findPairs entries).1.Pairwise PairLt := by
  unfold BroadPhase.findPairs
  split <;> exact sortedPairs_pairwise _

theorem candidatePairs_pairwise (e : Engine α) : e.candidatePairs.1.Pairwise PairLt :=
  findPairs_pairwise _ _

/-- A frame reports entries whose boxes meet when grown, whatever state the broad phase is in. -/
theorem reported_of_mem_findPairs {b : BroadPhase α} {entries : List (BoxEntry α)}
    {pair : GeomId × GeomId} (h : pair ∈ (b.findPairs entries).1) :
    ∃ first ∈ entries, ∃ second ∈ entries,
      reported (SweepAndPrune.grown b.sweep.margin) pair first second ∨
        reported (·.expanded 0) pair first second := by
  unfold BroadPhase.findPairs at h
  split at h
  · have hswept := SweepAndPrune.not_pairwise_of_mem_sweep ((mem_sortedPairs _ _).mp h)
    by_contra hnone
    refine hswept (List.pairwise_of_forall fun i j hconfirmed ↦ hnone ?_)
    obtain ⟨first, second, hfirst, hsecond, hreported⟩ :=
      (SweepAndPrune.confirm?_eq_some _ _ i j pair).mp hconfirmed
    exact ⟨first, List.mem_of_getElem? hfirst, second, List.mem_of_getElem? hsecond,
      .inl hreported⟩
  · obtain ⟨_, _, first, second, -, hfirst, hsecond, hle, rfl, hmeets⟩ :=
      (mem_overlappingList _ _ _).mp ((mem_sortedPairs _ _).mp h)
    exact ⟨first, List.mem_of_getElem? hfirst, second, List.mem_of_getElem? hsecond,
      .inr ⟨hmeets, if_pos hle⟩⟩

/-- The lower handle of a candidate pair comes first, whatever state the broad phase is in. -/
theorem fst_le_snd_of_mem_candidatePairs {e : Engine α} {pair : GeomId × GeomId}
    (h : pair ∈ e.candidatePairs.1) : (pair.1 : ℕ) ≤ pair.2 := by
  obtain ⟨first, -, second, -, ⟨-, rfl⟩ | ⟨-, rfl⟩⟩ := reported_of_mem_findPairs h
  · exact fst_le_snd_orderedPair first.id second.id
  · exact fst_le_snd_orderedPair first.id second.id

theorem lookup?_candidatePairs (e : Engine α) (id : GeomId) :
    e.candidatePairs.2.lookup? id =
      (e.lookup? id).map fun g ↦ g.rebuildIfStale e.config.build :=
  lookup?_rebuildStale e id

/-! ### What a cycle shows -/

variable {σ : Type}

/-- The candidate pairs whose geoms overlap once the stale trees are built. -/
def overlappingCandidates (e : Engine α) : List (GeomId × GeomId) :=
  e.candidatePairs.1.filter e.candidatePairs.2.overlapping

theorem overlappingCandidates_pairwise (e : Engine α) : e.overlappingCandidates.Pairwise PairLt :=
  (candidatePairs_pairwise e).filter _

/-- Pairs that do not overlap are passed over without the visitor noticing. -/
theorem visitList_showOverlap (e : Engine α) (visit : σ → GeomId × GeomId → σ × Bool)
    (seen : Bool × σ) (pairs : List (GeomId × GeomId)) :
    visitList (e.showOverlap visit) seen pairs =
      ((seen.1 || !(pairs.filter e.overlapping).isEmpty,
        (visitList visit seen.2 (pairs.filter e.overlapping)).1),
        (visitList visit seen.2 (pairs.filter e.overlapping)).2) := by
  induction pairs generalizing seen with
  | nil => simp [visitList]
  | cons pair rest ih =>
    rw [visitList, showOverlap]
    by_cases hoverlap : e.overlapping pair = true
    · rw [List.filter_cons_of_pos hoverlap, visitList]
      simp only [hoverlap, if_true]
      rcases visit seen.2 pair with ⟨next, stop⟩
      cases stop with
      | true => simp
      | false =>
        simp only [ih]
        simp
    · rw [List.filter_cons_of_neg hoverlap]
      simp only [hoverlap, Bool.false_eq_true, if_false]
      exact ih seen

theorem collide_eq (e : Engine α) (visit : σ → GeomId × GeomId → σ × Bool) (state : σ) :
    e.collide visit state =
      ⟨!e.overlappingCandidates.isEmpty, (visitList visit state e.overlappingCandidates).1,
        e.candidatePairs.2⟩ := by
  unfold collide
  simp only [visitList_showOverlap]
  rfl

end Engine

end Collision
