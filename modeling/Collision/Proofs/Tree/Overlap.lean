import Collision.Proofs.Box.Disjoint
import Collision.Proofs.Box.Fit
import Collision.Proofs.Tree.Build
import Collision.Tree.Overlap
import Mathlib.Data.List.Perm.Subperm

/-!
# Walking two built trees

The walk shows a visitor the pairs of leaves in one fixed sequence, up to the first one it has
enough of (`visitList_recording`, `BoxTree.visitOverlaps_eq`). No pair of leaves is in the sequence
twice, since opening a node shares out the pairs below it (`BoxTree.overlapsBelow_subperm`).

No pair that touches is missing. The box of a child need not lie in the box of its parent, so this
rests on `BoxTree.Sound`: every box holds the points of every part below it. A pair of nodes with
touching leaves below it is then never found disjoint, and one of the pairs it opens into has them
below it again (`BoxTree.mem_overlapsBelow`).

* `BoxTree.overlaps_of_built_trees` is the statement for trees as they are built.
-/

set_option autoImplicit false
set_option relaxedAutoImplicit false

namespace Collision

/-! ### Visitors -/

section Visitors

variable {σ β : Type}

/-- What a visitor answers to the members of a list shown to it one after another, regardless of its
having seen enough. -/
def answers (visit : σ → β → σ × Bool) : σ → List β → List Bool
  | _, [] => []
  | state, b :: rest => (visit state b).2 :: answers visit (visit state b).1 rest

/-- A visitor that also notes what it is shown. -/
def recording (visit : σ → β → σ × Bool) (state : σ × List β) (b : β) : (σ × List β) × Bool :=
  (((visit state.1 b).1, state.2 ++ [b]), (visit state.1 b).2)

theorem visitList_append (visit : σ → β → σ × Bool) (state : σ) (first second : List β) :
    visitList visit state (first ++ second) =
      if (visitList visit state first).2 then visitList visit state first
      else visitList visit (visitList visit state first).1 second := by
  induction first generalizing state with
  | nil => simp [visitList]
  | cons b rest ih =>
    rw [List.cons_append, visitList, visitList]
    rcases visit state b with ⟨next, stop⟩
    cases stop with
    | true => rfl
    | false => exact ih next

/-- The visitor has enough iff it says so of some member. -/
theorem visitList_stops (visit : σ → β → σ × Bool) (state : σ) (members : List β) :
    (visitList visit state members).2 = (answers visit state members).contains true := by
  induction members generalizing state with
  | nil => rfl
  | cons b rest ih =>
    rw [visitList, answers]
    rcases visit state b with ⟨next, stop⟩
    cases stop with
    | true => rfl
    | false => exact (ih next).trans (by simp)

/-- What is shown is the list up to the first member the visitor has enough of. -/
theorem visitList_recording (visit : σ → β → σ × Bool) (state : σ) (members shown : List β) :
    visitList (recording visit) (state, shown) members =
      (((visitList visit state members).1,
        shown ++ members.take ((answers visit state members).idxOf true + 1)),
        (visitList visit state members).2) := by
  induction members generalizing state shown with
  | nil => simp [visitList]
  | cons b rest ih =>
    rw [visitList, visitList, answers, recording]
    rcases visit state b with ⟨next, stop⟩
    cases stop with
    | true => simp
    | false =>
      simp only
      rw [ih next]
      simp

theorem answers_recording (visit : σ → β → σ × Bool) (state : σ) (shown members : List β) :
    answers (recording visit) (state, shown) members = answers visit state members := by
  induction members generalizing state shown with
  | nil => rfl
  | cons b rest ih => rw [answers, answers, recording, ih]

/-- A visitor that never has enough is shown everything, in order. -/
theorem visitList_of_continuing {visit : σ → β → σ × Bool}
    (h : ∀ state b, (visit state b).2 = false)
    (state : σ) (members : List β) :
    visitList visit state members =
      (members.foldl (fun state b ↦ (visit state b).1) state, false) := by
  induction members generalizing state with
  | nil => rfl
  | cons b rest ih =>
    have hb := h state b
    rw [visitList, List.foldl_cons]
    rcases hvisit : visit state b with ⟨next, stop⟩
    rw [hvisit] at hb
    obtain rfl : stop = false := hb
    exact ih next

/-- What holds of a state and is kept by every visit holds of the last state. -/
theorem visitList_preserves {visit : σ → β → σ × Bool} {motive : σ → Prop}
    {members : List β} (hvisit : ∀ state, ∀ b ∈ members, motive state → motive (visit state b).1)
    {state : σ} (hstate : motive state) : motive (visitList visit state members).1 := by
  induction members generalizing state with
  | nil => exact hstate
  | cons b rest ih =>
    have hnext : motive (visit state b).1 := hvisit state b List.mem_cons_self hstate
    have hrest : ∀ s, ∀ c ∈ rest, motive s → motive (visit s c).1 :=
      fun s c hc ↦ hvisit s c (.tail b hc)
    rw [visitList]
    revert hnext
    rcases visit state b with ⟨next, stop⟩
    cases stop with
    | true => exact id
    | false => exact ih hrest

theorem visitList_recording_of_continuing {visit : σ → β → σ × Bool}
    (h : ∀ state b, (visit state b).2 = false) (state : σ) (members shown : List β) :
    visitList (recording visit) (state, shown) members =
      ((members.foldl (fun state b ↦ (visit state b).1) state, shown ++ members), false) := by
  have hrecording : ∀ kept b, (recording visit kept b).2 = false := fun kept b ↦ h kept.1 b
  rw [visitList_of_continuing hrecording]
  induction members generalizing state shown with
  | nil => simp
  | cons b rest ih =>
    rw [List.foldl_cons, List.foldl_cons, recording, ih, List.append_assoc]
    rfl

end Visitors

namespace BoxTree

/-! ### The sequence -/

section Sequence

variable {α : Type} [Scalar α]

/-- Walking the trees shows the sequence of pairs that remain. -/
theorem visitBelow_eq {σ : Type} (visit : σ → TreeLeaf α × TreeLeaf α → σ × Bool)
    (poseA poseB : Pose α) (state : σ) (level : List (BoxTree α × BoxTree α)) :
    visitBelow visit poseA poseB state level =
      visitList visit state (overlapsBelow poseA poseB level) := by
  fun_induction overlapsBelow poseA poseB level generalizing state with
  | case1 => rw [visitBelow, visitList]
  | case2 pair rest ih =>
    rw [visitBelow, visitList_append]
    rcases visitList visit state (levelLeaves poseA poseB (pair :: rest)) with ⟨next, stop⟩
    cases stop with
    | true => rfl
    | false => exact ih next

theorem visitOverlaps_eq {σ : Type} (visit : σ → TreeLeaf α × TreeLeaf α → σ × Bool) (state : σ)
    (a : BoxTree α) (poseA : Pose α) (b : BoxTree α) (poseB : Pose α) :
    visitOverlaps visit state a poseA b poseB = visitList visit state (a.overlaps poseA b poseB) :=
  visitBelow_eq visit poseA poseB state _

/-- All pairs of a leaf of the one tree and a leaf of the other. -/
def leafPairs (pair : BoxTree α × BoxTree α) : List (TreeLeaf α × TreeLeaf α) :=
  pair.1.leaves.product pair.2.leaves

omit [Scalar α] in
theorem leafPairs_left (left right b : BoxTree α) (place : ℕ) (box : OrientedBox α) :
    (leafPairs (left, b) ++ leafPairs (right, b)).Perm
      (leafPairs (node place box left right, b)) := by
  simp only [leafPairs, leaves, List.product, List.flatMap_append]
  exact .refl _

omit [Scalar α] in
theorem leafPairs_right (a left right : BoxTree α) (place : ℕ) (box : OrientedBox α) :
    (leafPairs (a, left) ++ leafPairs (a, right)).Perm
      (leafPairs (a, node place box left right)) := by
  simp only [leafPairs, leaves, List.product, List.map_append]
  exact List.flatMap_append_perm _ _ _

/-- Opening a pair of nodes shares out the pairs of leaves below it. -/
theorem leafPairs_openLarger (a b : BoxTree α) :
    ((openLarger a b).leaves?.toList ++ (openLarger a b).next.flatMap leafPairs).Perm
      (leafPairs (a, b)) := by
  have htwo (first second : BoxTree α × BoxTree α) :
      ([] ++ [first, second].flatMap leafPairs) = leafPairs first ++ leafPairs second := by
    simp
  cases a with
  | leaf l =>
    cases b with
    | leaf m => exact .refl _
    | node q boxB left right => exact (htwo _ _) ▸ leafPairs_right _ _ _ q boxB
  | node p boxA leftA rightA =>
    cases b with
    | leaf m => exact (htwo _ _) ▸ leafPairs_left _ _ _ p boxA
    | node q boxB leftB rightB =>
      simp only [openLarger]
      split_ifs
      · exact (htwo _ _) ▸ leafPairs_left _ _ _ p boxA
      · exact (htwo _ _) ▸ leafPairs_right _ _ _ q boxB

theorem leafPairs_meet (poseA poseB : Pose α) (pair : BoxTree α × BoxTree α) :
    ((meet poseA poseB pair).leaves?.toList ++
      (meet poseA poseB pair).next.flatMap leafPairs).Subperm (leafPairs pair) := by
  unfold meet
  split_ifs
  · exact List.nil_subperm
  · exact (leafPairs_openLarger pair.1 pair.2).subperm

/-- The first pair of a level apart: what is shown at once, with what is below the next level. -/
theorem leafPairs_level_cons (poseA poseB : Pose α) (pair : BoxTree α × BoxTree α)
    (rest : List (BoxTree α × BoxTree α)) :
    (levelLeaves poseA poseB (pair :: rest) ++
      (nextLevel poseA poseB (pair :: rest)).flatMap leafPairs).Perm
      ((meet poseA poseB pair).leaves?.toList ++ (meet poseA poseB pair).next.flatMap leafPairs ++
        (levelLeaves poseA poseB rest ++ (nextLevel poseA poseB rest).flatMap leafPairs)) := by
  have hleaves : levelLeaves poseA poseB (pair :: rest) =
      (meet poseA poseB pair).leaves?.toList ++ levelLeaves poseA poseB rest := by
    unfold levelLeaves
    rw [List.filterMap_cons]
    cases (meet poseA poseB pair).leaves? <;> rfl
  have hnext : nextLevel poseA poseB (pair :: rest) =
      (meet poseA poseB pair).next ++ nextLevel poseA poseB rest := List.flatMap_cons
  rw [hleaves, hnext, List.flatMap_append, List.append_assoc, List.append_assoc]
  refine List.Perm.append_left _ ?_
  rw [← List.append_assoc, ← List.append_assoc]
  exact List.perm_append_comm.append_right _

/-- The pairs a level shows at once, with those below the next level, are pairs below the level. -/
theorem leafPairs_level (poseA poseB : Pose α) (level : List (BoxTree α × BoxTree α)) :
    (levelLeaves poseA poseB level ++
      (nextLevel poseA poseB level).flatMap leafPairs).Subperm (level.flatMap leafPairs) := by
  induction level with
  | nil => exact .refl _
  | cons pair rest ih =>
    rw [List.flatMap_cons]
    exact (leafPairs_level_cons poseA poseB pair rest).subperm.trans
      ((leafPairs_meet poseA poseB pair).append ih)

/-- No pair of leaves below a level is shown more often than it stands there. -/
theorem overlapsBelow_subperm (poseA poseB : Pose α) (level : List (BoxTree α × BoxTree α)) :
    (overlapsBelow poseA poseB level).Subperm (level.flatMap leafPairs) := by
  fun_induction overlapsBelow poseA poseB level with
  | case1 => exact .refl _
  | case2 pair rest ih =>
    exact ((List.Subperm.refl _).append ih).trans (leafPairs_level poseA poseB (pair :: rest))

/-- Where no two nodes are disjoint, all pairs of leaves are shown. -/
theorem overlaps_perm {poseA poseB : Pose α}
    (hopen : ∀ pair : BoxTree α × BoxTree α, pair.1.box.disjoint poseA pair.2.box poseB = false)
    (a b : BoxTree α) : (a.overlaps poseA b poseB).Perm (a.leaves.product b.leaves) := by
  have hlevel (level : List (BoxTree α × BoxTree α)) :
      (levelLeaves poseA poseB level ++ (nextLevel poseA poseB level).flatMap leafPairs).Perm
        (level.flatMap leafPairs) := by
    induction level with
    | nil => exact .refl _
    | cons pair rest ih =>
      have hmeet : meet poseA poseB pair = openLarger pair.1 pair.2 := by
        simp only [meet, hopen pair, Bool.false_eq_true, if_false]
      rw [List.flatMap_cons]
      refine (leafPairs_level_cons poseA poseB pair rest).trans (List.Perm.append ?_ ih)
      rw [hmeet]
      exact leafPairs_openLarger pair.1 pair.2
  have hbelow (level : List (BoxTree α × BoxTree α)) :
      (overlapsBelow poseA poseB level).Perm (level.flatMap leafPairs) := by
    fun_induction overlapsBelow poseA poseB level with
    | case1 => exact .refl _
    | case2 pair rest ih => exact (ih.append_left _).trans (hlevel (pair :: rest))
  have h := hbelow [(a, b)]
  rwa [List.flatMap_singleton] at h

theorem overlaps_subperm (a : BoxTree α) (poseA : Pose α) (b : BoxTree α) (poseB : Pose α) :
    (a.overlaps poseA b poseB).Subperm (a.leaves.product b.leaves) := by
  have h := overlapsBelow_subperm poseA poseB [(a, b)]
  rwa [List.flatMap_singleton] at h

theorem overlaps_subset {a b : BoxTree α} {poseA poseB : Pose α} {pair : TreeLeaf α × TreeLeaf α}
    (h : pair ∈ a.overlaps poseA b poseB) : pair.1 ∈ a.leaves ∧ pair.2 ∈ b.leaves :=
  List.pair_mem_product.mp ((overlaps_subperm a poseA b poseB).subset h)

/-- Leaves at places of their own are paired at most once. -/
theorem overlaps_places_nodup {a b : BoxTree α} (ha : a.places.Nodup) (hb : b.places.Nodup)
    (poseA poseB : Pose α) :
    ((a.overlaps poseA b poseB).map fun pair ↦ (pair.1.place, pair.2.place)).Nodup := by
  have hproduct : (a.leaves.product b.leaves).map (fun pair ↦ (pair.1.place, pair.2.place)) =
      a.places.product b.places := by
    simp only [List.product, List.map_flatMap, places, List.flatMap_map, List.map_map]
    rfl
  obtain ⟨kept, hperm, hsublist⟩ := overlaps_subperm a poseA b poseB
  have hkept : (kept.map fun pair ↦ (pair.1.place, pair.2.place)).Nodup := by
    refine (hsublist.map _).nodup ?_
    rw [hproduct]
    exact ha.product hb
  exact (hperm.map _).nodup_iff.mp hkept

end Sequence

/-! ### Trees whose boxes hold what is below them -/

/-- The box holds the points of the part, wherever their owner stands. -/
def Covers (box : OrientedBox ℝ) (part : Part ℝ) : Prop :=
  box.Regular ∧
    ∀ pose : Pose ℝ, pose.Rigid → ∀ p ∈ part.nearRegionAt pose, (box.placed pose).Holds p

/-- Every box holds the points of every part below it. -/
def Sound : BoxTree ℝ → Prop
  | leaf l => Covers l.box l.part
  | node _ box left right =>
    (∀ part ∈ left.parts ++ right.parts, Covers box part) ∧ left.Sound ∧ right.Sound

theorem Sound.covers {t : BoxTree ℝ} (h : t.Sound) : ∀ part ∈ t.parts, Covers t.box part := by
  cases t with
  | leaf l => exact List.forall_mem_singleton.mpr h
  | node place box left right =>
    rw [parts_node]
    exact h.1

theorem FittedBy.sound {method : FitMethod} {t : BoxTree ℝ} (h : t.FittedBy method)
    (hrigid : ∀ part ∈ t.parts, part.Rigid) : t.Sound := by
  induction t with
  | leaf l =>
    have hl : l.part.Rigid := hrigid l.part List.mem_cons_self
    have hbox : l.box = l.part.localBox := h
    refine ⟨?_, fun pose hpose p hp ↦ ?_⟩
    · rw [hbox]
      exact Part.localBox_regular hl
    · rw [hbox]
      exact Part.localBox_holds hl hpose hp
  | node place box left right ihLeft ihRight =>
    obtain ⟨⟨order, hperm, rfl⟩, hleft, hright⟩ := h
    rw [parts_node] at hrigid
    refine ⟨fun part hpart ↦ ⟨fitParts_regular _ _, fun pose hpose p hp ↦ ?_⟩, ?_, ?_⟩
    · exact fitParts_holds method (hperm.mem_iff.mpr hpart) (hrigid part hpart) hpose hp
    · exact ihLeft hleft fun part hpart ↦ hrigid part (List.mem_append_left _ hpart)
    · exact ihRight hright fun part hpart ↦ hrigid part (List.mem_append_right _ hpart)

/-- Two leaves below a pair of sound trees. -/
structure Below (l m : TreeLeaf ℝ) (pair : BoxTree ℝ × BoxTree ℝ) : Prop where
  soundFirst : pair.1.Sound
  soundSecond : pair.2.Sound
  memFirst : l ∈ pair.1.leaves
  memSecond : m ∈ pair.2.leaves

/-- A pair of trees with two leaves below it opens into a pair that has them below it, or into the
leaves. -/
theorem Below.openLarger {l m : TreeLeaf ℝ} {a b : BoxTree ℝ} (h : Below l m (a, b)) :
    (openLarger a b).leaves? = some (l, m) ∨ ∃ pair ∈ (openLarger a b).next, Below l m pair := by
  obtain ⟨ha, hb, hl, hm⟩ := h
  have hopenA {p : ℕ} {box : OrientedBox ℝ} {left right : BoxTree ℝ}
      (ha : (node p box left right).Sound) (hl : l ∈ (node p box left right).leaves) :
      ∃ pair ∈ [(left, b), (right, b)], Below l m pair := by
    rcases List.mem_append.mp hl with hl | hl
    · exact ⟨(left, b), by simp, ha.2.1, hb, hl, hm⟩
    · exact ⟨(right, b), by simp, ha.2.2, hb, hl, hm⟩
  have hopenB {p : ℕ} {box : OrientedBox ℝ} {left right : BoxTree ℝ}
      (hb : (node p box left right).Sound) (hm : m ∈ (node p box left right).leaves) :
      ∃ pair ∈ [(a, left), (a, right)], Below l m pair := by
    rcases List.mem_append.mp hm with hm | hm
    · exact ⟨(a, left), by simp, ha, hb.2.1, hl, hm⟩
    · exact ⟨(a, right), by simp, ha, hb.2.2, hl, hm⟩
  cases a with
  | leaf l' =>
    cases b with
    | leaf m' =>
      obtain rfl := List.mem_singleton.mp hl
      obtain rfl := List.mem_singleton.mp hm
      exact .inl rfl
    | node q boxB left right => exact .inr (hopenB hb hm)
  | node p boxA leftA rightA =>
    cases b with
    | leaf m' => exact .inr (hopenA ha hl)
    | node q boxB leftB rightB =>
      right
      simp only [BoxTree.openLarger]
      split_ifs
      · exact hopenA ha hl
      · exact hopenB hb hm

section Touching

variable {l m : TreeLeaf ℝ} {poseA poseB : Pose ℝ} {x : Vec3 ℝ}

/-- Trees with touching leaves below them are not found disjoint. -/
theorem Below.meet {pair : BoxTree ℝ × BoxTree ℝ} (h : Below l m pair) (hA : poseA.Rigid)
    (hB : poseB.Rigid) (hxl : x ∈ l.part.nearRegionAt poseA) (hxm : x ∈ m.part.nearRegionAt poseB) :
    BoxTree.meet poseA poseB pair = BoxTree.openLarger pair.1 pair.2 := by
  obtain ⟨hregularA, hholdsA⟩ := h.soundFirst.covers l.part (List.mem_map_of_mem h.memFirst)
  obtain ⟨hregularB, hholdsB⟩ := h.soundSecond.covers m.part (List.mem_map_of_mem h.memSecond)
  have hdisjoint : pair.1.box.disjoint poseA pair.2.box poseB = false :=
    OrientedBox.disjoint_eq_false (hregularA.placed hA) (hregularB.placed hB)
      (hholdsA poseA hA x hxl) (hholdsB poseB hB x hxm)
  unfold BoxTree.meet
  rw [hdisjoint, if_neg Bool.false_ne_true]

/-- Touching leaves below a level remain. -/
theorem mem_overlapsBelow (hA : poseA.Rigid) (hB : poseB.Rigid)
    (hxl : x ∈ l.part.nearRegionAt poseA) (hxm : x ∈ m.part.nearRegionAt poseB)
    (level : List (BoxTree ℝ × BoxTree ℝ)) (h : ∃ pair ∈ level, Below l m pair) :
    (l, m) ∈ overlapsBelow poseA poseB level := by
  fun_induction overlapsBelow poseA poseB level with
  | case1 =>
    obtain ⟨pair, hpair, -⟩ := h
    exact absurd hpair List.not_mem_nil
  | case2 first rest ih =>
    obtain ⟨pair, hpair, hbelow⟩ := h
    have hmeet := hbelow.meet hA hB hxl hxm
    rw [List.mem_append]
    rcases hbelow.openLarger with hleaves | ⟨next, hnext, hnextbelow⟩
    · left
      exact List.mem_filterMap.mpr ⟨pair, hpair, by rw [hmeet, hleaves]⟩
    · right
      refine ih ⟨next, List.mem_flatMap.mpr ⟨pair, hpair, ?_⟩, hnextbelow⟩
      rw [hmeet]
      exact hnext

theorem mem_overlaps {a b : BoxTree ℝ} (ha : a.Sound) (hb : b.Sound) (hA : poseA.Rigid)
    (hB : poseB.Rigid) (hl : l ∈ a.leaves) (hm : m ∈ b.leaves)
    (hxl : x ∈ l.part.nearRegionAt poseA) (hxm : x ∈ m.part.nearRegionAt poseB) :
    (l, m) ∈ a.overlaps poseA b poseB :=
  mem_overlapsBelow hA hB hxl hxm _ ⟨(a, b), List.mem_cons_self, ha, hb, hl, hm⟩

end Touching

/-! ### Trees as they are built -/

section Missing

variable {α : Type}

/-- The leaves of a tree that may be missing. -/
def leavesOf (t? : Option (BoxTree α)) : List (TreeLeaf α) := t?.elim [] leaves

variable [Scalar α]

/-- The pairs of leaves of two placed trees that remain; there are none of a missing tree. -/
def overlapsOf (a? : Option (BoxTree α)) (poseA : Pose α) (b? : Option (BoxTree α))
    (poseB : Pose α) : List (TreeLeaf α × TreeLeaf α) :=
  match a?, b? with
  | some a, some b => a.overlaps poseA b poseB
  | _, _ => []

/-- Show the pairs of leaves of two placed trees that remain; there are none of a missing tree. -/
def visitOverlapsOf {σ : Type} (visit : σ → TreeLeaf α × TreeLeaf α → σ × Bool) (state : σ)
    (a? : Option (BoxTree α)) (poseA : Pose α) (b? : Option (BoxTree α)) (poseB : Pose α) :
    σ × Bool :=
  match a?, b? with
  | some a, some b => visitOverlaps visit state a poseA b poseB
  | _, _ => (state, false)

theorem visitOverlapsOf_eq {σ : Type} (visit : σ → TreeLeaf α × TreeLeaf α → σ × Bool) (state : σ)
    (a? : Option (BoxTree α)) (poseA : Pose α) (b? : Option (BoxTree α)) (poseB : Pose α) :
    visitOverlapsOf visit state a? poseA b? poseB =
      visitList visit state (overlapsOf a? poseA b? poseB) := by
  rcases a? with _ | a
  · rfl
  · rcases b? with _ | b
    · rfl
    · exact visitOverlaps_eq visit state a poseA b poseB

/-- The leaves of what is built over parts are the parts, each at a place of its own. -/
theorem leavesOf_build? (config : BuildConfig) (parts : List (Part α)) :
    ((leavesOf (build? config parts)).map TreeLeaf.part).Perm parts ∧
      ((leavesOf (build? config parts)).map TreeLeaf.place).Nodup := by
  rcases build?_spec config parts with ⟨rfl, hnone⟩ | ⟨t, ht, hbuilt⟩
  · rw [hnone]
    exact ⟨.refl _, List.nodup_nil⟩
  · rw [ht]
    exact ⟨hbuilt.parts_perm, hbuilt.places_nodup⟩

end Missing

theorem BuiltOver.sound {method : FitMethod} {parts : List (Part ℝ)} {t : BoxTree ℝ}
    (h : t.BuiltOver method parts) (hrigid : ∀ part ∈ parts, part.Rigid) : t.Sound :=
  h.fittedBy.sound fun part hpart ↦ hrigid part (h.parts_perm.mem_iff.mp hpart)

theorem mem_overlapsOf {configA configB : BuildConfig} {partsA partsB : List (Part ℝ)}
    (hrigidA : ∀ part ∈ partsA, part.Rigid) (hrigidB : ∀ part ∈ partsB, part.Rigid)
    {poseA poseB : Pose ℝ} (hA : poseA.Rigid) (hB : poseB.Rigid) {l m : TreeLeaf ℝ}
    (hl : l ∈ leavesOf (build? configA partsA)) (hm : m ∈ leavesOf (build? configB partsB))
    {x : Vec3 ℝ} (hxl : x ∈ l.part.nearRegionAt poseA) (hxm : x ∈ m.part.nearRegionAt poseB) :
    (l, m) ∈ overlapsOf (build? configA partsA) poseA (build? configB partsB) poseB := by
  rcases build?_spec configA partsA with ⟨-, hnone⟩ | ⟨a, ha, hbuiltA⟩
  · rw [hnone] at hl
    exact absurd hl List.not_mem_nil
  · rcases build?_spec configB partsB with ⟨-, hnone⟩ | ⟨b, hb, hbuiltB⟩
    · rw [hnone] at hm
      exact absurd hm List.not_mem_nil
    · rw [ha] at hl ⊢
      rw [hb] at hm ⊢
      exact mem_overlaps (hbuiltA.sound hrigidA) (hbuiltB.sound hrigidB) hA hB hl hm hxl hxm

theorem overlapsOf_spec {α : Type} [Scalar α] {a? b? : Option (BoxTree α)}
    (ha : ((leavesOf a?).map TreeLeaf.place).Nodup) (hb : ((leavesOf b?).map TreeLeaf.place).Nodup)
    (poseA poseB : Pose α) :
    (∀ pair ∈ overlapsOf a? poseA b? poseB, pair.1 ∈ leavesOf a? ∧ pair.2 ∈ leavesOf b?) ∧
      ((overlapsOf a? poseA b? poseB).map fun pair ↦ (pair.1.place, pair.2.place)).Nodup := by
  rcases a? with _ | a
  · exact ⟨fun pair hpair ↦ absurd hpair List.not_mem_nil, List.nodup_nil⟩
  · rcases b? with _ | b
    · exact ⟨fun pair hpair ↦ absurd hpair List.not_mem_nil, List.nodup_nil⟩
    · exact ⟨fun pair hpair ↦ overlaps_subset hpair, overlaps_places_nodup ha hb poseA poseB⟩

end BoxTree

/-- Every part of the shape is moved inside its owner by a rigid pose, if at all. -/
def Shape.Rigid (s : Shape ℝ) : Prop := ∀ part ∈ s.parts, part.Rigid

/-- A primitive is not moved. -/
theorem Shape.primitive_rigid (prim : Primitive ℝ) : (Shape.primitive prim).Rigid := by
  intro part hpart
  obtain rfl := List.mem_singleton.mp hpart
  trivial

theorem Shape.Rigid.parts {shapes : List (Shape ℝ)} (h : ∀ s ∈ shapes, s.Rigid) :
    ∀ part ∈ shapes.flatMap Shape.parts, part.Rigid := by
  intro part hpart
  obtain ⟨s, hs, hmem⟩ := List.mem_flatMap.mp hpart
  exact h s hs part hmem

/-- Two trees built over any shapes, placed anywhere: their leaves are the parts of the shapes, the
walk shows pairs of leaves, none twice and every one with a common point, and it stops with the
first pair that the visitor has enough of. -/
theorem BoxTree.overlaps_of_built_trees (configA configB : BuildConfig)
    (shapesA shapesB : List (Shape ℝ)) (hshapesA : ∀ s ∈ shapesA, s.Rigid)
    (hshapesB : ∀ s ∈ shapesB, s.Rigid) (poseA poseB : Pose ℝ) (hA : poseA.Rigid)
    (hB : poseB.Rigid) :
    let a? := build? configA (shapesA.flatMap Shape.parts)
    let b? := build? configB (shapesB.flatMap Shape.parts)
    let pairs := overlapsOf a? poseA b? poseB
    ((leavesOf a?).map TreeLeaf.part).Perm (shapesA.flatMap Shape.parts) ∧
      ((leavesOf b?).map TreeLeaf.part).Perm (shapesB.flatMap Shape.parts) ∧
      ((leavesOf a?).map TreeLeaf.place).Nodup ∧ ((leavesOf b?).map TreeLeaf.place).Nodup ∧
      (∀ pair ∈ pairs, pair.1 ∈ leavesOf a? ∧ pair.2 ∈ leavesOf b?) ∧
      (pairs.map fun pair ↦ (pair.1.place, pair.2.place)).Nodup ∧
      (∀ l ∈ leavesOf a?, ∀ m ∈ leavesOf b?,
        (l.part.nearRegionAt poseA ∩ m.part.nearRegionAt poseB).Nonempty → (l, m) ∈ pairs) ∧
      (∀ (σ : Type) (visit : σ → TreeLeaf ℝ × TreeLeaf ℝ → σ × Bool) (state : σ),
        let walk := visitOverlapsOf (recording visit) (state, []) a? poseA b? poseB
        walk.1.2 = pairs.take ((answers visit state pairs).idxOf true + 1) ∧
          walk.2 = (answers visit state pairs).contains true) ∧
      ∀ (σ : Type) (visit : σ → TreeLeaf ℝ × TreeLeaf ℝ → σ × Bool) (state : σ),
        (∀ s pair, (visit s pair).2 = false) →
          visitOverlapsOf (recording visit) (state, []) a? poseA b? poseB =
            ((pairs.foldl (fun s pair ↦ (visit s pair).1) state, pairs), false) := by
  intro a? b? pairs
  obtain ⟨hpartsA, hplacesA⟩ := leavesOf_build? configA (shapesA.flatMap Shape.parts)
  obtain ⟨hpartsB, hplacesB⟩ := leavesOf_build? configB (shapesB.flatMap Shape.parts)
  obtain ⟨hsubset, honce⟩ := overlapsOf_spec hplacesA hplacesB poseA poseB
  refine ⟨hpartsA, hpartsB, hplacesA, hplacesB, hsubset, honce, ?_, ?_, ?_⟩
  · rintro l hl m hm ⟨x, hxl, hxm⟩
    have hpartsA := Shape.Rigid.parts hshapesA
    have hpartsB := Shape.Rigid.parts hshapesB
    exact mem_overlapsOf hpartsA hpartsB hA hB hl hm hxl hxm
  · intro σ visit state walk
    have hwalk : walk = _ :=
      (visitOverlapsOf_eq _ _ a? poseA b? poseB).trans (visitList_recording visit state pairs [])
    rw [hwalk, ← visitList_stops]
    exact ⟨rfl, rfl⟩
  · intro σ visit state hcontinue
    rw [visitOverlapsOf_eq, visitList_recording_of_continuing hcontinue]
    rfl

/-- Two unit balls whose centres are a unit apart remain, however their trees are built. -/
theorem BoxTree.overlaps_of_built_balls :
    let ball : Shape ℝ := .primitive (.sphere 1)
    let aside : Pose ℝ := .ofPosition ⟨1, 0, 0⟩
    (∀ s ∈ [ball], s.Rigid) ∧ (Pose.identity : Pose ℝ).Rigid ∧ aside.Rigid ∧
      ∃ pair, pair ∈ overlapsOf (build? .precise ([ball].flatMap Shape.parts)) Pose.identity
        (build? .fast ([ball].flatMap Shape.parts)) aside := by
  intro ball aside
  have hball : ∀ s ∈ [ball], s.Rigid := by
    intro s hs
    obtain rfl := List.mem_singleton.mp hs
    exact Shape.primitive_rigid _
  have haside : aside.Rigid := Pose.identity_rigid
  obtain ⟨hpartsA, hpartsB, -, -, -, -, htouching, -⟩ := overlaps_of_built_trees .precise .fast
    [ball] [ball] hball hball Pose.identity aside Pose.identity_rigid haside
  have hmember : Part.bare (.sphere 1) ∈ [ball].flatMap Shape.parts := List.mem_cons_self
  obtain ⟨l, hl, hlpart⟩ := List.mem_map.mp (hpartsA.mem_iff.mpr hmember)
  obtain ⟨m, hm, hmpart⟩ := List.mem_map.mp (hpartsB.mem_iff.mpr hmember)
  refine ⟨hball, Pose.identity_rigid, haside, (l, m), htouching l hl m hm ⟨⟨1, 0, 0⟩, ?_, ?_⟩⟩
  · rw [hlpart]
    refine Part.mem_regionAt_sphere.mpr ?_
    simp [Vec3.norm_eq_sqrt_dot, Vec3.dot_eq, Vec3.zero_eq]
  · rw [hmpart]
    refine Part.mem_regionAt_sphere.mpr ?_
    simp

end Collision
