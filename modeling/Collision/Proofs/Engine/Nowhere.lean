import Collision.Proofs.Broad.Isolation
import Collision.Proofs.Engine.Cycle
import Collision.Proofs.Pair.Nowhere

/-!
# Geoms that are nowhere

Two geoms one of which stands at no place are tested leaf by leaf if they are asked about, for no
two of their boxes are found disjoint (`OrientedBox.disjoint_nowhere`). So they are found to overlap
if a plane is among their parts, or a round body and one it has a closed form with
(`Geom.collide_nowhere`). A cycle comes to the opposite result: the world box of such a geom meets
no box, and the pair is no candidate (`Engine.not_nowhere_of_mem_candidatePairs`).
`Engine.answers_nowhere` says this of two shapes and of two geoms.
-/

set_option autoImplicit false
set_option relaxedAutoImplicit false

namespace Collision

open Scalar (NoNumber)

variable {α : Type} [Scalar α] [SpreadingScalar α] {poseA poseB : Pose α} {i : Fin 3}

/-! ### Boxes -/

/-- No axis separates boxes whose distance is no number. -/
theorem OrientedBox.disjoint_nowhere
    (h : poseA.position.NowhereAlong i ∨ poseB.position.NowhereAlong i) (a b : OrientedBox α) :
    a.disjoint poseA b poseB = false := by
  have hoffset : (poseB.transformPoint b.center - poseA.transformPoint a.center).NowhereAlong i :=
    Vec3.sub_nowhere (h.symm.imp (Pose.transformPoint_nowhere · _)
      (Pose.transformPoint_nowhere · _))
  have hread (axes : Mat3 α) (j : Fin 3) :
      (axes.transposeMulVec
        (poseB.transformPoint b.center - poseA.transformPoint a.center)).NowhereAlong j := by
    match j with
    | 0 => exact hoffset.dot_right axes.col0
    | 1 => exact hoffset.dot_right axes.col1
    | 2 => exact hoffset.dot_right axes.col2
  rw [disjoint]
  simp only [if_neg (hoffset.normSq.not_gt _), RelativeBoxes.separated, Bool.or_eq_false_iff,
    List.any_eq_false, Bool.not_eq_true]
  refine ⟨⟨fun j _ ↦ ?_, fun j _ ↦ ?_⟩, fun j _ k _ ↦ ?_⟩
  · exact decide_eq_false ((NoNumber.abs (hread _ j)).not_gt _)
  · exact decide_eq_false (((hread _ 0).dot_left _).abs.not_gt _)
  · exact decide_eq_false (((NoNumber.mul_left (hread _ (j + 2)) _).sub_left _).abs.not_gt _)

/-- The box around what is nowhere has no place along the same axis. -/
theorem AlignedBox.not_isNumeric_ofOriented (h : poseA.position.NowhereAlong i)
    (b : OrientedBox α) : ¬ (AlignedBox.ofOriented b poseA).IsNumeric :=
  fun hnumeric ↦ (Pose.transformPoint_nowhere h b.center).sub_left _ (hnumeric i).1

/-! ### Two geoms -/

namespace Geom

/-- The parts at the leaves of the tree of the geom. -/
def leafParts (g : Geom α) : List (Part α) := (BoxTree.leavesOf g.tree?).map TreeLeaf.part

omit [SpreadingScalar α] in
/-- A geom that is built has the parts of its shapes at its leaves. -/
theorem leafParts_build (g : Geom α) (config : BuildConfig) :
    (g.build config).leafParts.Perm g.parts := (BoxTree.leavesOf_build? config g.parts).1

variable {g other : Geom α}
  (h : g.pose.position.NowhereAlong i ∨ other.pose.position.NowhereAlong i)

include h

theorem overlapsOf_nowhere :
    (BoxTree.overlapsOf g.tree? g.pose other.tree? other.pose).Perm
      ((BoxTree.leavesOf g.tree?).product (BoxTree.leavesOf other.tree?)) := by
  unfold BoxTree.overlapsOf BoxTree.leavesOf
  rcases g.tree? with _ | t
  · exact .refl _
  · rcases other.tree? with _ | u
    · simp [List.product]
    · exact BoxTree.overlaps_perm (fun pair ↦ OrientedBox.disjoint_nowhere h _ _) t u

variable {t : PairTester α}

theorem collide_nowhere (hcolliders : t.colliders = .empty) :
    g.collide other t = true ↔
      Part.FoundAmong g.leafParts g.pose other.leafParts other.pose := by
  have hleaves (l m : TreeLeaf α) := PairTester.collide_nowhere (a := g.placedLeaf l)
    (b := other.placedLeaf m) h hcolliders
  rw [collide_iff]
  constructor
  · rintro ⟨⟨l, m⟩, hpair, hfound⟩
    obtain ⟨hl, hm⟩ := List.pair_mem_product.mp ((overlapsOf_nowhere h).mem_iff.mp hpair)
    obtain ⟨p, hp, q, hq, hfound⟩ := (hleaves l m).mp hfound
    obtain rfl := List.mem_singleton.mp hp
    obtain rfl := List.mem_singleton.mp hq
    exact ⟨_, List.mem_map_of_mem hl, _, List.mem_map_of_mem hm, hfound⟩
  · rintro ⟨p, hp, q, hq, hfound⟩
    obtain ⟨l, hl, rfl⟩ := List.mem_map.mp hp
    obtain ⟨m, hm, rfl⟩ := List.mem_map.mp hq
    exact ⟨(l, m), (overlapsOf_nowhere h).mem_iff.mpr (List.pair_mem_product.mpr ⟨hl, hm⟩),
      (hleaves l m).mpr ⟨_, List.mem_singleton_self _, _, List.mem_singleton_self _, hfound⟩⟩

theorem separate_nowhere (hseparators : t.separators = .empty) :
    Contacts.Depthless (min t.config.contacts (Part.touchCount g.leafParts other.leafParts))
      (g.separate other t) := by
  let contactsOf := fun pair : TreeLeaf α × TreeLeaf α ↦
    t.separateRebased (g.placedLeaf pair.1).rebase (other.placedLeaf pair.2).rebase
  let touch := fun pair : TreeLeaf α × TreeLeaf α ↦
    pair.1.part.primitive.kind.touchNowhere pair.2.part.primitive.kind
  have hpairs (pair : TreeLeaf α × TreeLeaf α) :
      Contacts.Depthless (touch pair).toNat (contactsOf pair) := by
    rw [← Part.touchCount_singleton]
    exact PairTester.separateRebased_nowhere (a := g.placedLeaf pair.1)
      (b := other.placedLeaf pair.2) h hseparators
  have hcount : (g.overlaps other).countP touch = Part.touchCount g.leafParts other.leafParts := by
    have hproduct : g.leafParts.product other.leafParts =
        ((BoxTree.leavesOf g.tree?).product (BoxTree.leavesOf other.tree?)).map
          fun pair ↦ (pair.1.part, pair.2.part) := by
      simp only [leafParts, List.product, List.map_flatMap, List.flatMap_map, List.map_map]
      rfl
    rw [Part.touchCount, hproduct, List.countP_map]
    exact (overlapsOf_nowhere h).countP_eq touch
  have hstages : g.separate other t =
      Contacts.limit t.config.contacts ((g.overlaps other).flatMap contactsOf) := by
    have h := Contacts.limit_flatMap_limit t.config.contacts ((g.overlaps other).map contactsOf)
    rwa [List.flatMap_map, ← List.flatMap_def] at h
  rw [← hcount, hstages]
  exact (Contacts.Depthless.flatMap fun pair _ ↦ hpairs pair).limit t.config.contacts

end Geom

/-! ### Engines -/

namespace Engine

variable [OutlyingScalar α]

/-- No candidate pair of a cycle names a geom that is nowhere, whatever state the broad phase is
in. -/
theorem not_nowhere_of_mem_candidatePairs {e : Engine α} {pair : GeomId × GeomId}
    (hpair : pair ∈ e.candidatePairs.1) {id : GeomId} (hid : id = pair.1 ∨ id = pair.2) {g : Geom α}
    (hg : e.lookup? id = some g) : ¬ g.pose.Nowhere := by
  have hentry {entry : BoxEntry α} (hentry : entry ∈ e.rebuildStale.entries)
      (hnumeric : entry.box.IsNumeric) (hid : id = entry.id) : ¬ g.pose.Nowhere := by
    rintro ⟨i, hnowhere⟩
    obtain ⟨built, hbuilt, hbox⟩ := mem_entries.mp hentry
    rw [lookup?_rebuildStale, ← hid, hg] at hbuilt
    obtain rfl := Option.some_inj.mp hbuilt
    obtain ⟨tree, -, hworld⟩ := Option.map_eq_some_iff.mp hbox
    rw [← hworld] at hnumeric
    refine AlignedBox.not_isNumeric_ofOriented (i := i) ?_ tree.box hnumeric
    rwa [(g.rebuildIfStale_spec e.config.build).1]
  have hnamed {a b : GeomId} (hordered : orderedPair a b = pair) : id = a ∨ id = b := by
    subst hordered
    unfold orderedPair at hid
    split at hid
    · exact hid
    · exact hid.symm
  obtain ⟨first, hfirst, second, hsecond, hreported⟩ := reported_of_mem_findPairs hpair
  have hnumeric : first.box.IsNumeric ∧ second.box.IsNumeric := by
    rcases hreported with ⟨hmeets, -⟩ | ⟨hmeets, -⟩
    · exact ⟨SweepAndPrune.isNumeric_of_grown (AlignedBox.isNumeric_of_meets hmeets),
        SweepAndPrune.isNumeric_of_grown (AlignedBox.isNumeric_of_meets hmeets.symm)⟩
    · exact ⟨AlignedBox.isNumeric_of_expanded (AlignedBox.isNumeric_of_meets hmeets),
        AlignedBox.isNumeric_of_expanded (AlignedBox.isNumeric_of_meets hmeets.symm)⟩
  rcases hnamed (hreported.elim And.right And.right) with hid | hid
  · exact hentry hfirst hnumeric.1 hid
  · exact hentry hsecond hnumeric.2 hid

omit [Scalar α] [SpreadingScalar α] [OutlyingScalar α]

/-- Any two shapes, of which at least one stands at a pose with a coordinate that is no number, and
an engine without overrides. They are found to overlap exactly if two of their parts are found to:
a plane and any other part, or two planes that do not face away from each other; two capsules, or a
sphere with a capsule, a box or a triangle; two parts with flat faces if all axes of both are too
short to be tried. Every pair of parts that have a contact when one is nowhere gives one contact, as
far as the settings allow, and no depth is a number. Two geoms are tested in the same way by the
parts at their leaves if they are asked about; but they are no candidates of a cycle. -/
theorem answers_nowhere (e : Engine Float) (hcolliders : e.tester.colliders = .empty)
    (hseparators : e.tester.separators = .empty) :
    (∀ a b : Placed Float, a.pose.Nowhere ∨ b.pose.Nowhere →
      (e.tester.collide a b = true ↔
        Part.FoundAmong a.shape.parts a.pose b.shape.parts b.pose) ∧
      Contacts.Depthless
        (min e.tester.config.contacts (Part.touchCount a.shape.parts b.shape.parts))
        (e.tester.separate a b)) ∧
    ∀ (first second : GeomId) (g h : Geom Float), e.geom? first = .ok g → e.geom? second = .ok h →
      g.pose.Nowhere ∨ h.pose.Nowhere →
      (e.collidePair? first second = .ok true ↔
        Part.FoundAmong g.leafParts g.pose h.leafParts h.pose) ∧
      (∃ contacts, e.separatePair? first second = .ok contacts ∧
        Contacts.Depthless (min e.tester.config.contacts (Part.touchCount g.leafParts h.leafParts))
          contacts) ∧
      (first, second) ∉ e.candidatePairs.1 ∧ (second, first) ∉ e.candidatePairs.1 := by
  have halong {p q : Pose Float} (h : p.Nowhere ∨ q.Nowhere) :
      ∃ i, p.position.NowhereAlong i ∨ q.position.NowhereAlong i := by
    rcases h with ⟨i, hi⟩ | ⟨i, hi⟩
    · exact ⟨i, .inl hi⟩
    · exact ⟨i, .inr hi⟩
  constructor
  · intro a b hnowhere
    obtain ⟨i, hi⟩ := halong hnowhere
    exact ⟨PairTester.collide_nowhere hi hcolliders,
      (PairTester.separateRebased_nowhere hi hseparators).limit _⟩
  · intro first second g h hg hh hnowhere
    obtain ⟨i, hi⟩ := halong hnowhere
    have hcollide : e.collidePair? first second = .ok (g.collide h e.tester) := by
      rw [collidePair?, hg, hh]
      rfl
    have hseparate : e.separatePair? first second = .ok (g.separate h e.tester) := by
      rw [separatePair?, hg, hh]
      rfl
    have hlookup {id : GeomId} {k : Geom Float} (hk : e.geom? id = .ok k) :
        e.lookup? id = some k := by
      unfold geom? at hk
      split at hk
      · obtain rfl := Except.ok.inj hk
        assumption
      · cases hk
    have hcandidate {pair : GeomId × GeomId} (hfirst : first = pair.1 ∨ first = pair.2)
        (hsecond : second = pair.1 ∨ second = pair.2) : pair ∉ e.candidatePairs.1 := fun hpair ↦
      hnowhere.elim (not_nowhere_of_mem_candidatePairs hpair hfirst (hlookup hg))
        (not_nowhere_of_mem_candidatePairs hpair hsecond (hlookup hh))
    refine ⟨?_, ⟨_, hseparate, Geom.separate_nowhere hi hseparators⟩,
      hcandidate (.inl rfl) (.inr rfl), hcandidate (.inr rfl) (.inl rfl)⟩
    rw [hcollide, ← Geom.collide_nowhere hi hcolliders]
    exact ⟨Except.ok.inj, congrArg Except.ok⟩

/-- A sphere that is nowhere is found to overlap a box when the two geoms are asked about, and their
pair is no candidate. -/
theorem answers_nowhere_of_sphere_and_box :
    let sphere : Shape Float := .primitive (.sphere 1)
    let box : Shape Float := .primitive (.box ⟨0.5, 0.5, 0.5⟩)
    let lost : Pose Float := .ofPosition ⟨0.0 / 0.0, 0, 0⟩
    let g : Geom Float := ((Geom.atPose lost).add sphere).build {}
    let h : Geom Float := ((Geom.atPose .identity).add box).build {}
    let e : Engine Float :=
      { config := .standard
        tester := { config := ⟨.standard, 4⟩ }
        geoms := [some g, some h]
        size := 2
        broadPhase := .ofConfig .standard
        memory? := none }
    e.tester.colliders = .empty ∧ e.tester.separators = .empty ∧ lost.Nowhere ∧
      e.tester.collide ⟨sphere, lost⟩ ⟨box, .identity⟩ = true ∧
      e.geom? 0 = .ok g ∧ e.geom? 1 = .ok h ∧ e.collidePair? 0 1 = .ok true ∧
      (0, 1) ∉ e.candidatePairs.1 := by
  intro sphere box lost g h e
  have hlost : lost.Nowhere := ⟨0, by decide⟩
  obtain ⟨hshapes, hgeoms⟩ := answers_nowhere e rfl rfl
  obtain ⟨hcollide, -, hcandidate, -⟩ := hgeoms 0 1 g h rfl rfl (.inl hlost)
  have hg : (.bare (.sphere 1) : Part Float) ∈ g.leafParts :=
    (Geom.leafParts_build _ _).mem_iff.mpr (List.mem_singleton_self _)
  have hh : (.bare (.box ⟨0.5, 0.5, 0.5⟩) : Part Float) ∈ h.leafParts :=
    (Geom.leafParts_build _ _).mem_iff.mpr (List.mem_singleton_self _)
  have hfound (p q : Pose Float) :
      (Primitive.sphere (1 : Float)).FoundNowhere p (.box ⟨0.5, 0.5, 0.5⟩) q := rfl
  have hparts : Part.FoundAmong sphere.parts lost box.parts .identity :=
    ⟨_, List.mem_singleton_self _, _, List.mem_singleton_self _, hfound _ _⟩
  have hleaves : Part.FoundAmong g.leafParts g.pose h.leafParts h.pose :=
    ⟨_, hg, _, hh, hfound _ _⟩
  exact ⟨rfl, rfl, hlost, (hshapes ⟨sphere, lost⟩ ⟨box, .identity⟩ (.inl hlost)).1.mpr hparts, rfl,
    rfl, hcollide.mpr hleaves, hcandidate⟩

/-- A sphere that is nowhere and a box are found to overlap in either order, with one contact. -/
theorem sphere_nowhere_meets_box :
    let t : PairTester Float := { config := ⟨.standard, 4⟩ }
    let lengths : Vec3 Float := ⟨1, 1, 1⟩
    let half := lengths * (0.5 : Float)
    let sphere : Placed Float := ⟨.primitive (.sphere 1), .ofPosition ⟨0.0 / 0.0, 0, 0⟩⟩
    let box : Placed Float := ⟨.primitive (.box half), .identity⟩
    Primitive.sphere? (1 : Float) = .ok (.sphere 1) ∧ Primitive.box? lengths = .ok (.box half) ∧
      sphere.pose.Nowhere ∧ t.collide sphere box = true ∧ t.collide box sphere = true ∧
      (t.separate sphere box).length = 1 ∧ (t.separate box sphere).length = 1 := by
  intro t lengths half sphere box
  have hchecked {kind : ShapeKind} {parameter : ShapeParameter} {a : Float}
      (h : Scalar.isFinite a = true ∧ 0 < a) :
      Primitive.checkPositive kind parameter a = .ok a := if_pos h
  have hradius : Scalar.isFinite (1 : Float) = true ∧ (0 : Float) < 1 := by decide +kernel
  have hhalf : Scalar.isFinite ((1 : Float) * 0.5) = true ∧ (0 : Float) < 1 * 0.5 := by
    decide +kernel
  refine ⟨?_, ?_, ⟨0, by decide +kernel⟩, by decide +kernel, by decide +kernel, by decide +kernel,
    by decide +kernel⟩
  · rw [Primitive.sphere?, hchecked hradius]
    rfl
  · show Primitive.boxOfHalf? half = .ok (.box half)
    rw [Primitive.boxOfHalf?, hchecked (a := half.x) hhalf, hchecked (a := half.y) hhalf,
      hchecked (a := half.z) hhalf]
    rfl

end Engine

end Collision
