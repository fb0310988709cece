import Collision.Proofs.Broad.Frames
import Collision.Proofs.Scalar.Outlying

/-!
# Boxes that are nowhere

A box with a coordinate that is not a number meets no box, so a frame reports the pairs of the
others (`SweepAndPrune.findPairs_around_nan`). It reports all of them when the intervals are made
anew, since the total order puts what is not a number outside the numbers.

The intervals of the last frame, kept and sorted by insertion, are another matter. An interval that
starts at no number is never moved and never passed: it divides the intervals into stretches, which
are sorted (`SweepAndPrune.stretches_insertionSort`) and swept (`SweepAndPrune.sweep_eq_flatMap`)
each for itself. Boxes of different stretches are not compared, and a pair of them is lost, as
`SweepAndPrune.pair_lost_across_nan` shows on three boxes.
-/

set_option autoImplicit false
set_option relaxedAutoImplicit false

namespace Collision

variable {α : Type} [Scalar α]

/-! ### Boxes that meet are somewhere -/

theorem AlignedBox.isNumeric_of_meets [OrderedScalar α] {a b : AlignedBox α} (h : a.Meets b) :
    a.IsNumeric :=
  fun i ↦ ⟨(OrderedScalar.number_of_le (h i).1).1, (OrderedScalar.number_of_le (h i).2).2⟩

theorem AlignedBox.isNumeric_of_expanded [OutlyingScalar α] {margin : α} {b : AlignedBox α}
    (h : (b.expanded margin).IsNumeric) : b.IsNumeric := by
  intro i
  obtain ⟨hlo, hhi⟩ := h i
  rw [AlignedBox.expanded_lo_get] at hlo
  rw [AlignedBox.expanded_hi_get] at hhi
  exact ⟨OutlyingScalar.number_of_sub hlo, OutlyingScalar.number_of_add hhi⟩

/-- Fewer entries meet in fewer pairs. -/
theorem MeetingPair.of_sublist {grow : AlignedBox α → AlignedBox α}
    {first second : List (BoxEntry α)} (hsublist : first.Sublist second) {p : GeomId × GeomId}
    (h : MeetingPair grow first p) : MeetingPair grow second p := by
  rw [meetingPair_iff_not_pairwise] at h ⊢
  exact fun hpairwise ↦ h (hpairwise.sublist hsublist)

namespace SweepAndPrune

theorem isNumeric_of_grown [OutlyingScalar α] {margin : α} {b : AlignedBox α}
    (h : (grown margin b).IsNumeric) : b.IsNumeric := by
  unfold grown at h
  split_ifs at h
  · exact AlignedBox.isNumeric_of_expanded h
  · exact h

/-- The entries whose coordinates are numbers. -/
def sound (entries : List (BoxEntry α)) : List (BoxEntry α) :=
  entries.filter fun e ↦ decide e.box.IsNumeric

theorem sound_isNumeric (entries : List (BoxEntry α)) : ∀ e ∈ sound entries, e.box.IsNumeric :=
  fun _ he ↦ of_decide_eq_true (List.mem_filter.mp he).2

theorem meetingPair_sound_iff [OrderedScalar α] [OutlyingScalar α] (margin : α)
    (entries : List (BoxEntry α)) (p : GeomId × GeomId) :
    MeetingPair (grown margin) (sound entries) p ↔ MeetingPair (grown margin) entries p := by
  rw [meetingPair_iff_not_pairwise, meetingPair_iff_not_pairwise, sound, List.pairwise_filter]
  refine not_congr (List.Pairwise.iff fun {a b} ↦ ⟨fun h hreported ↦ ?_, fun h _ _ ↦ h⟩)
  have ha : a.box.IsNumeric := isNumeric_of_grown (AlignedBox.isNumeric_of_meets hreported.1)
  have hb : b.box.IsNumeric := isNumeric_of_grown (AlignedBox.isNumeric_of_meets hreported.symm.1)
  exact h (decide_eq_true ha) (decide_eq_true hb) hreported

/-! ### Stretches -/

/-- The intervals between one that starts at no number and the next. -/
def stretches (intervals : List (SweepInterval α)) : List (List (SweepInterval α)) :=
  intervals.splitOnP fun i ↦ Scalar.isNaN i.lo

theorem stretches_eq_singleton {intervals : List (SweepInterval α)}
    (h : ∀ i ∈ intervals, Scalar.IsNumber i.lo) : stretches intervals = [intervals] :=
  List.splitOnP_eq_singleton fun i hi ↦ (Scalar.isNaN_eq_false_iff i.lo).mpr (h i hi)

theorem stretches_append_cons {before after : List (SweepInterval α)} {k : SweepInterval α}
    (hbefore : ∀ i ∈ before, Scalar.IsNumber i.lo) (hk : ¬ Scalar.IsNumber k.lo) :
    stretches (before ++ k :: after) = before :: stretches after :=
  List.splitOnP_append_cons_of_forall_mem
    (fun i hi ↦ (Scalar.isNaN_eq_false_iff i.lo).mpr (hbefore i hi)) k
    ((Scalar.isNaN_iff k.lo).mpr hk) after

/-- Induction along the stretches: intervals that all start at numbers, or such intervals up to one
that does not, with what follows it. -/
theorem stretch_induction {motive : List (SweepInterval α) → Prop}
    (numbers : ∀ intervals : List (SweepInterval α),
      (∀ i ∈ intervals, Scalar.IsNumber i.lo) → motive intervals)
    (divided : ∀ (before : List (SweepInterval α)) (k : SweepInterval α)
      (after : List (SweepInterval α)), (∀ i ∈ before, Scalar.IsNumber i.lo) →
        ¬ Scalar.IsNumber k.lo → motive after → motive (before ++ k :: after))
    (intervals : List (SweepInterval α)) : motive intervals := by
  induction hlength : intervals.length using Nat.strong_induction_on generalizing intervals with
  | _ length ih =>
    rcases hfind : intervals.find? fun i ↦ Scalar.isNaN i.lo with _ | k
    · refine numbers intervals fun i hi ↦ (Scalar.isNaN_eq_false_iff i.lo).mp ?_
      simpa using List.find?_eq_none.mp hfind i hi
    · obtain ⟨hk, before, after, rfl, hbefore⟩ := List.find?_eq_some_iff_append.mp hfind
      refine divided before k after (fun i hi ↦ (Scalar.isNaN_eq_false_iff i.lo).mp ?_)
        ((Scalar.isNaN_iff k.lo).mp hk) (ih after.length ?_ after rfl)
      · simpa using hbefore i hi
      · simp only [List.length_append, List.length_cons] at hlength
        omega

theorem number_of_mem_stretches {intervals stretch : List (SweepInterval α)}
    (h : stretch ∈ stretches intervals) : ∀ i ∈ stretch, Scalar.IsNumber i.lo := by
  induction intervals using stretch_induction with
  | numbers intervals hnumber =>
    rw [stretches_eq_singleton hnumber, List.mem_singleton] at h
    exact h ▸ hnumber
  | divided before k after hbefore hk ih =>
    rw [stretches_append_cons hbefore hk] at h
    rcases List.mem_cons.mp h with rfl | h
    · exact hbefore
    · exact ih h

theorem sublist_of_mem_stretches {intervals stretch : List (SweepInterval α)}
    (h : stretch ∈ stretches intervals) : stretch.Sublist intervals := by
  induction intervals using stretch_induction with
  | numbers intervals hnumber =>
    rw [stretches_eq_singleton hnumber, List.mem_singleton] at h
    exact h ▸ .refl _
  | divided before k after hbefore hk ih =>
    rw [stretches_append_cons hbefore hk] at h
    rcases List.mem_cons.mp h with rfl | h
    · exact List.sublist_append_left _ _
    · exact ((ih h).cons k).trans (List.sublist_append_right _ _)

/-! ### What a frame compares -/

/-- The frame keeps the intervals of the last one. -/
def Reuses (s : SweepAndPrune α) (entries : List (BoxEntry α)) : Prop :=
  sweepAxis entries = s.axis ∧ s.intervals.length = entries.length

instance (s : SweepAndPrune α) (entries : List (BoxEntry α)) : Decidable (s.Reuses entries) :=
  inferInstanceAs (Decidable (sweepAxis entries = s.axis ∧ s.intervals.length = entries.length))

/-- The intervals of the last frame, in its order, with the ends that their entries have now. -/
def kept (s : SweepAndPrune α) (entries : List (BoxEntry α)) : List (SweepInterval α) :=
  s.intervals.map (refresh s.margin (sweepAxis entries) entries.toArray)

/-- The groups of entries that a frame compares with each other: those of a stretch where the
intervals are kept, and all where they are made anew. -/
def compared (s : SweepAndPrune α) (entries : List (BoxEntry α)) : List (List (BoxEntry α)) :=
  if s.Reuses entries then (stretches (s.kept entries)).map (entriesOf entries) else [entries]

/-- The intervals are made anew, or each starts at a number. -/
def Undivided (s : SweepAndPrune α) (entries : List (BoxEntry α)) : Prop :=
  s.Reuses entries →
    ∀ e ∈ entries, Scalar.IsNumber ((grown s.margin e.box).lo.get (sweepAxis entries))

instance (s : SweepAndPrune α) (entries : List (BoxEntry α)) : Decidable (s.Undivided entries) :=
  inferInstanceAs (Decidable (_ → _))

theorem update_of_reuses {s : SweepAndPrune α} {entries : List (BoxEntry α)}
    (h : s.Reuses entries) : (s.update entries).intervals = insertionSort (s.kept entries) :=
  if_pos h

theorem update_of_not_reuses {s : SweepAndPrune α} {entries : List (BoxEntry α)}
    (h : ¬ s.Reuses entries) :
    (s.update entries).intervals = freshIntervals s.margin (sweepAxis entries) entries :=
  if_neg h

section Groups

variable {s : SweepAndPrune α} {entries : List (BoxEntry α)}

theorem kept_refreshed (hs : Numbered s.intervals) (h : s.Reuses entries) :
    Refreshed s.margin (sweepAxis entries) entries (s.kept entries) := by
  intro i hi
  refine update_refreshed s entries hs i ?_
  rw [update_of_reuses h]
  exact (insertionSort_perm _).mem_iff.mpr hi

theorem entriesOf_kept_perm (hs : Numbered s.intervals) (h : s.Reuses entries) :
    (entriesOf entries (s.kept entries)).Perm entries := by
  refine entriesOf_perm (map_refresh_numbered _ _ _ _ hs) ?_
  rw [kept, List.length_map, h.2]

/-- What meets within a group meets among the entries. -/
theorem meetingPair_of_compared (hs : Numbered s.intervals) {group : List (BoxEntry α)}
    (hgroup : group ∈ s.compared entries) {p : GeomId × GeomId}
    (hp : MeetingPair (grown s.margin) group p) : MeetingPair (grown s.margin) entries p := by
  unfold compared at hgroup
  split_ifs at hgroup with h
  · obtain ⟨stretch, hstretch, rfl⟩ := List.mem_map.mp hgroup
    refine (meetingPair_congr_perm (entriesOf_kept_perm hs h) p).mp (hp.of_sublist ?_)
    exact (sublist_of_mem_stretches hstretch).filterMap _
  · rwa [List.mem_singleton.mp hgroup] at hp

/-- Where nothing divides the intervals, all entries are compared. -/
theorem exists_compared_iff (hs : Numbered s.intervals) (hundivided : s.Undivided entries)
    (p : GeomId × GeomId) :
    (∃ group ∈ s.compared entries, MeetingPair (grown s.margin) group p) ↔
      MeetingPair (grown s.margin) entries p := by
  by_cases h : s.Reuses entries
  · have hnumber : ∀ i ∈ s.kept entries, Scalar.IsNumber i.lo := by
      intro i hi
      obtain ⟨e, he, heq⟩ := kept_refreshed hs h i hi
      rw [heq]
      exact hundivided h e (List.mem_of_getElem? he)
    rw [compared, if_pos h, stretches_eq_singleton hnumber]
    simp only [List.map_singleton, List.mem_singleton, exists_eq_left]
    exact meetingPair_congr_perm (entriesOf_kept_perm hs h) p
  · rw [compared, if_neg h]
    simp only [List.mem_singleton, exists_eq_left]

end Groups

variable [OrderedScalar α]

/-! ### Sorting by insertion -/

/-- What is not a number is not passed by what is inserted behind it. -/
theorem insertFromEnd_append_cons (i : SweepInterval α) (behind before : List (SweepInterval α))
    {k : SweepInterval α} (hk : ¬ Scalar.IsNumber k.lo) :
    insertFromEnd i (behind ++ k :: before) = insertFromEnd i behind ++ k :: before := by
  induction behind with
  | nil =>
    have hnot : ¬ i.lo < k.lo := fun hlt ↦
      hk (OrderedScalar.number_of_le (Scalar.le_of_lt hlt)).2
    simp [insertFromEnd, hnot]
  | cons j rest ih =>
    simp only [List.cons_append, insertFromEnd, ih]
    split_ifs <;> rfl

/-- What is not a number is not moved. -/
theorem insertFromEnd_eq_cons (before : List (SweepInterval α)) {k : SweepInterval α}
    (hk : ¬ Scalar.IsNumber k.lo) : insertFromEnd k before = k :: before := by
  cases before with
  | nil => rfl
  | cons j rest =>
    refine if_neg fun hlt ↦ ?_
    exact hk (OrderedScalar.number_of_le (Scalar.le_of_lt hlt)).1

theorem foldl_insertFromEnd_append_cons (intervals behind before : List (SweepInterval α))
    {k : SweepInterval α} (hk : ¬ Scalar.IsNumber k.lo) :
    intervals.foldl (fun sorted i ↦ insertFromEnd i sorted) (behind ++ k :: before) =
      intervals.foldl (fun sorted i ↦ insertFromEnd i sorted) behind ++ k :: before := by
  induction intervals generalizing behind with
  | nil => rfl
  | cons i rest ih =>
    rw [List.foldl_cons, insertFromEnd_append_cons i behind before hk, ih, List.foldl_cons]

theorem insertionSort_append_cons (before after : List (SweepInterval α)) {k : SweepInterval α}
    (hk : ¬ Scalar.IsNumber k.lo) :
    insertionSort (before ++ k :: after) = insertionSort before ++ k :: insertionSort after := by
  have hafter := foldl_insertFromEnd_append_cons after []
    (before.foldl (fun sorted i ↦ insertFromEnd i sorted) []) hk
  rw [List.nil_append] at hafter
  rw [insertionSort, List.foldl_append, List.foldl_cons, insertFromEnd_eq_cons _ hk, hafter]
  simp [insertionSort]

/-- Insertion sorts each stretch for itself. -/
theorem stretches_insertionSort (intervals : List (SweepInterval α)) :
    stretches (insertionSort intervals) = (stretches intervals).map insertionSort := by
  have hsorted {part : List (SweepInterval α)} (h : ∀ i ∈ part, Scalar.IsNumber i.lo) :
      ∀ i ∈ insertionSort part, Scalar.IsNumber i.lo :=
    fun i hi ↦ h i ((insertionSort_perm part).mem_iff.mp hi)
  induction intervals using stretch_induction with
  | numbers intervals hnumber =>
    rw [stretches_eq_singleton hnumber, stretches_eq_singleton (hsorted hnumber)]
    rfl
  | divided before k after hbefore hk ih =>
    rw [insertionSort_append_cons before after hk, stretches_append_cons (hsorted hbefore) hk,
      stretches_append_cons hbefore hk, ih]
    rfl

/-! ### Sweeping -/

variable {margin : α} {axis : Fin 3} {entries : List (BoxEntry α)}

/-- An interval is compared with none behind one that starts at no number. -/
theorem sweepFrom_append_cons (i : SweepInterval α) (before after : List (SweepInterval α))
    {k : SweepInterval α} (hk : ¬ Scalar.IsNumber k.lo) :
    sweepFrom margin entries.toArray i (before ++ k :: after) =
      sweepFrom margin entries.toArray i before := by
  have hstop : (k :: after).takeWhile (fun j ↦ decide (j.lo ≤ i.hi)) = [] := by
    refine List.takeWhile_cons_of_neg fun h ↦ ?_
    exact hk (OrderedScalar.number_of_le (of_decide_eq_true h)).1
  have htake : (before ++ k :: after).takeWhile (fun j ↦ decide (j.lo ≤ i.hi)) =
      before.takeWhile fun j ↦ decide (j.lo ≤ i.hi) := by
    rw [List.takeWhile_append, hstop, List.append_nil]
    split_ifs with hlength
    · exact ((List.takeWhile_prefix _).eq_of_length hlength).symm
    · rfl
  rw [sweepFrom, htake, sweepFrom]

/-- An interval that starts at no number is confirmed with none. -/
theorem sweepFrom_eq_nil {k : SweepInterval α} {others : List (SweepInterval α)}
    (hrefreshed : Refreshed margin axis entries (k :: others)) (hk : ¬ Scalar.IsNumber k.lo) :
    sweepFrom margin entries.toArray k others = [] := by
  refine List.eq_nil_iff_forall_not_mem.mpr fun p hp ↦ ?_
  obtain ⟨j, hj, hconfirm⟩ := List.mem_filterMap.mp hp
  have hj : j ∈ k :: others := .tail k (List.takeWhile_subset _ hj)
  exact hk (number_of_confirm? hrefreshed List.mem_cons_self hj hconfirm)

theorem sweep_append_cons (before after : List (SweepInterval α)) {k : SweepInterval α}
    (hrefreshed : Refreshed margin axis entries (before ++ k :: after))
    (hk : ¬ Scalar.IsNumber k.lo) :
    sweep margin entries.toArray (before ++ k :: after) =
      sweep margin entries.toArray before ++ sweep margin entries.toArray after := by
  -- What precedes `k` stops its comparisons there, and `k` itself confirms nothing.
  induction before with
  | nil =>
    rw [List.nil_append, sweep, List.nil_append, sweep, sweepFrom_eq_nil hrefreshed hk,
      List.nil_append]
  | cons i rest ih =>
    have hrest : Refreshed margin axis entries (rest ++ k :: after) :=
      fun j hj ↦ hrefreshed j (.tail i hj)
    rw [List.cons_append, sweep, sweepFrom_append_cons i rest after hk, ih hrest, sweep,
      List.append_assoc]

/-- Each stretch is swept for itself. -/
theorem sweep_eq_flatMap {intervals : List (SweepInterval α)}
    (hrefreshed : Refreshed margin axis entries intervals) :
    sweep margin entries.toArray intervals =
      (stretches intervals).flatMap (sweep margin entries.toArray) := by
  induction intervals using stretch_induction with
  | numbers intervals hnumber =>
    rw [stretches_eq_singleton hnumber, List.flatMap_singleton]
  | divided before k after hbefore hk ih =>
    have hafter : Refreshed margin axis entries after :=
      fun i hi ↦ hrefreshed i (List.mem_append_right before (.tail k hi))
    rw [sweep_append_cons before after hrefreshed hk, ih hafter, stretches_append_cons hbefore hk,
      List.flatMap_cons]

/-- What a sweep finds in intervals sorted by insertion are the pairs within a stretch. -/
theorem mem_sweep_insertionSort {intervals : List (SweepInterval α)}
    (hrefreshed : Refreshed margin axis entries intervals) (p : GeomId × GeomId) :
    p ∈ sweep margin entries.toArray (insertionSort intervals) ↔
      ∃ stretch ∈ stretches intervals,
        MeetingPair (grown margin) (entriesOf entries stretch) p := by
  have hsorted : Refreshed margin axis entries (insertionSort intervals) :=
    fun i hi ↦ hrefreshed i ((insertionSort_perm intervals).mem_iff.mp hi)
  rw [sweep_eq_flatMap hsorted, stretches_insertionSort, List.mem_flatMap]
  simp only [List.mem_map, exists_exists_and_eq_and]
  refine exists_congr fun stretch ↦ and_congr_right fun hstretch ↦ ?_
  have hperm := insertionSort_perm stretch
  have hrising := insertionSort_pairwise stretch (number_of_mem_stretches hstretch)
  have hpart : Refreshed margin axis entries (insertionSort stretch) := fun i hi ↦
    hrefreshed i ((sublist_of_mem_stretches hstretch).subset (hperm.mem_iff.mp hi))
  rw [mem_sweep_iff_meetingPair sweepOrder_le hpart hrising]
  exact meetingPair_congr_perm (hperm.filterMap _) p

/-! ### One frame -/

/-- In the total order what is not a number stands outside the numbers. -/
theorem sweepOrder_totalLe [OutlyingScalar α] :
    SweepOrder fun i j : SweepInterval α ↦ Scalar.totalLe i.lo j.lo = true :=
  fun _ _ _ hik hkj hi hj ↦
    OrderedScalar.le_of_totalLe (OutlyingScalar.number_of_between hi hj hik hkj) hj hkj

/-- A frame sweeps the pairs that meet within a group. -/
theorem mem_sweep_update [OutlyingScalar α] {s : SweepAndPrune α} (hs : Numbered s.intervals)
    (p : GeomId × GeomId) :
    p ∈ sweep s.margin entries.toArray (s.update entries).intervals ↔
      ∃ group ∈ s.compared entries, MeetingPair (grown s.margin) group p := by
  by_cases h : s.Reuses entries
  · rw [update_of_reuses h, mem_sweep_insertionSort (kept_refreshed hs h), compared, if_pos h]
    simp only [List.mem_map, exists_exists_and_eq_and]
  · -- All numbers stand together in the total order, so one sweep over the whole list finds them.
    have hrefreshed := update_refreshed s entries hs
    rw [update_of_not_reuses h] at hrefreshed ⊢
    have hsorted := Scalar.sortAscending_pairwise_totalLe SweepInterval.lo
      (entries.zipIdx.map fun e ↦ intervalOf s.margin (sweepAxis entries) e.2 e.1)
    have hperm : (entriesOf entries (freshIntervals s.margin (sweepAxis entries) entries)).Perm
        entries := by
      refine entriesOf_perm (freshIntervals_numbered _ _ _) ?_
      rw [(freshIntervals_perm _ _ _).length_eq, List.length_map, List.length_zipIdx]
    rw [mem_sweep_iff_meetingPair sweepOrder_totalLe hrefreshed hsorted,
      meetingPair_congr_perm hperm, compared, if_neg h]
    simp only [List.mem_singleton, exists_eq_left]

theorem undivided_sound {s : SweepAndPrune α} (hmargin : Scalar.isFinite s.margin = true)
    (entries : List (BoxEntry α)) : s.Undivided (sound entries) := by
  intro _ e he
  exact (grown_isNumeric hmargin (sound_isNumeric entries e he) _).1

/-- A frame lists the pairs that meet within a group. -/
theorem mem_findPairs_iff_compared [OutlyingScalar α] {s : SweepAndPrune α}
    (hs : Numbered s.intervals) (p : GeomId × GeomId) :
    p ∈ (s.findPairs entries).1 ↔
      ∃ group ∈ s.compared entries, MeetingPair (grown s.margin) group p :=
  (mem_sortedPairs p _).trans (mem_sweep_update hs p)

omit [Scalar α] [OrderedScalar α]

/-- A frame of any boxes, after any frames whatever, lists the pairs whose grown boxes meet within
a group of compared entries. Only boxes whose coordinates are numbers meet, and unless the frame
keeps the intervals and a box starts at no number on the sweep axis, all of those that meet are
listed: what the frame would list without the other boxes, if the margin is finite. -/
theorem findPairs_around_nan (margin : Float) (earlier : List (List (BoxEntry Float)))
    (entries : List (BoxEntry Float)) :
    let state := (start margin).after earlier
    let pairs := (state.findPairs entries).1
    (∀ p, p ∈ pairs ↔ ∃ group ∈ state.compared entries, MeetingPair (grown margin) group p) ∧
      (∀ p ∈ pairs, MeetingPair (grown margin) (sound entries) p) ∧
      (state.Undivided entries →
        ∀ p, p ∈ pairs ↔ MeetingPair (grown margin) (sound entries) p) ∧
      (state.Undivided entries → state.Undivided (sound entries) →
        pairs = (state.findPairs (sound entries)).1) ∧
      (margin.isFinite = true → state.Undivided (sound entries)) := by
  intro state pairs
  have hmargin : state.margin = margin := after_margin _ earlier
  have hstate : Numbered state.intervals := after_numbered _ earlier (start_numbered margin)
  have hgroups (frame : List (BoxEntry Float)) (p : GeomId × GeomId) :
      p ∈ (state.findPairs frame).1 ↔
        ∃ group ∈ state.compared frame, MeetingPair (grown margin) group p := by
    rw [← hmargin]
    exact mem_findPairs_iff_compared hstate p
  have hall {frame : List (BoxEntry Float)} (hundivided : state.Undivided frame)
      (p : GeomId × GeomId) :
      p ∈ (state.findPairs frame).1 ↔ MeetingPair (grown margin) frame p := by
    rw [hgroups, ← hmargin]
    exact exists_compared_iff hstate hundivided p
  refine ⟨hgroups entries, ?_, ?_, ?_, ?_⟩
  · intro p hp
    obtain ⟨group, hgroup, hmeeting⟩ := (hgroups entries p).mp hp
    rw [meetingPair_sound_iff, ← hmargin]
    rw [← hmargin] at hmeeting
    exact meetingPair_of_compared hstate hgroup hmeeting
  · intro hundivided p
    rw [meetingPair_sound_iff]
    exact hall hundivided p
  · intro hundivided hsound
    refine eq_of_pairLt_pairwise (findPairs_pairwise _ _) (findPairs_pairwise _ _) fun p ↦ ?_
    rw [hall hundivided, hall hsound, meetingPair_sound_iff]
  · intro hfinite
    exact undivided_sound (hmargin ▸ hfinite) entries

/-- A cube without a place across the sweep axis takes nothing from the frame: the cubes on its
sides still meet when grown by a half. -/
theorem findPairs_around_cube_nowhere :
    let cube := fun (id : GeomId) (x y : Float) ↦
      (⟨id, .ofCenter ⟨x, y, 0⟩ ⟨1, 1, 1⟩⟩ : BoxEntry Float)
    let state := (start 0.5).after [[cube 2 0 0, cube 4 4 0, cube 7 8 0]]
    let entries := [cube 2 0 0, cube 4 1 (0.0 / 0.0), cube 7 3 0]
    state.Undivided entries ∧ (0.5 : Float).isFinite = true ∧
      (2, 7) ∈ (state.findPairs entries).1 ∧
      (state.findPairs entries).1 = (state.findPairs (sound entries)).1 := by
  intro cube state entries
  have haxis : sweepAxis entries = 0 := by decide +kernel
  have hundivided : state.Undivided entries := fun _ ↦ by
    rw [haxis]
    decide
  have hfinite : (0.5 : Float).isFinite = true := by decide
  obtain ⟨-, -, hmem, heq, hsound⟩ :=
    findPairs_around_nan 0.5 [[cube 2 0 0, cube 4 4 0, cube 7 8 0]] entries
  refine ⟨hundivided, hfinite, (hmem hundivided (2, 7)).mpr ?_, heq hundivided (hsound hfinite)⟩
  rw [meetingPair_sound_iff]
  exact ⟨0, 2, cube 2 0 0, cube 7 3 0, by decide, rfl, rfl, by decide, rfl, by decide⟩

/-- Three boxes apart, and then the last over the first while the second is nowhere: the frame
compares the first box with nothing, though the two are a pair without the second. -/
theorem pair_lost_across_nan :
    let box := fun (id : GeomId) (x : Float) ↦
      (⟨id, ⟨⟨x, 0, 0⟩, ⟨x + 1, 1, 1⟩⟩⟩ : BoxEntry Float)
    let state := (start 0).after [[box 0 0, box 1 2, box 2 4]]
    let entries := [box 0 0, box 1 (0.0 / 0.0), box 2 0.5]
    (0, 2) ∈ (state.findPairs (sound entries)).1 ∧ (0, 2) ∉ (state.findPairs entries).1 := by
  intro box state entries
  have hstate : Numbered state.intervals := after_numbered _ _ (start_numbered 0)
  have hfinite : Scalar.isFinite state.margin = true := by decide
  constructor
  · rw [mem_findPairs state _ hstate hfinite (sound_isNumeric entries), meetingPair_sound_iff]
    exact ⟨0, 2, box 0 0, box 2 0.5, by decide, rfl, rfl, by decide, rfl, by decide⟩
  · have hintervals : state.intervals =
        [intervalOf 0 0 0 (box 0 0), intervalOf 0 0 1 (box 1 2), intervalOf 0 0 2 (box 2 4)] := by
      have haxis : sweepAxis [box 0 0, box 1 2, box 2 4] = 0 := by decide +kernel
      have hfresh : state.intervals = freshIntervals 0 0 [box 0 0, box 1 2, box 2 4] := by
        rw [← haxis]
        exact update_of_not_reuses fun h ↦ absurd h.2 (by decide)
      rw [hfresh]
      exact List.mergeSort_of_pairwise (by decide)
    have haxis : sweepAxis entries = 0 := by decide +kernel
    have hreuses : state.Reuses entries := ⟨by decide +kernel, by rw [hintervals]; rfl⟩
    have hkept : state.kept entries = [intervalOf 0 0 0 (box 0 0)] ++
        intervalOf 0 0 1 (box 1 (0.0 / 0.0)) :: [intervalOf 0 0 2 (box 2 0.5)] := by
      rw [kept, hintervals, haxis]
      rfl
    have hgroups : state.compared entries = [[box 0 0], [box 2 0.5]] := by
      rw [compared, if_pos hreuses, hkept, stretches_append_cons (by decide) (by decide),
        stretches_eq_singleton (by decide)]
      rfl
    rw [mem_findPairs_iff_compared hstate, hgroups]
    rintro ⟨group, hgroup, hmeeting⟩
    rw [meetingPair_iff_not_pairwise] at hmeeting
    -- A single box is compared with none.
    rcases List.mem_pair.mp hgroup with rfl | rfl
    · exact hmeeting (List.pairwise_singleton _ _)
    · exact hmeeting (List.pairwise_singleton _ _)

end SweepAndPrune

end Collision
