import Collision.Broad.Sweep
import Collision.Proofs.Broad.Pairs
import Collision.Proofs.Scalar.Double

/-!
# Sweep and prune over many frames

The intervals kept from one frame to the next are the one thing a frame could inherit wrongly.
`SweepAndPrune.Numbered` says that they name the places of the entries, each once, and holds after
every frame, whatever boxes it was given (`SweepAndPrune.after_numbered`). From it the intervals of
a frame whose coordinates are numbers are those of its own entries in rising order
(`SweepAndPrune.update_current`), and the sweep then stops early without losing a pair
(`SweepAndPrune.mem_sweep`).

* `SweepAndPrune.findPairs_after_any_frames` describes the result of a frame by its boxes alone.
-/

set_option autoImplicit false
set_option relaxedAutoImplicit false

namespace Collision

variable {α : Type} [Scalar α]

/-- Every coordinate of the box is a number. -/
def AlignedBox.IsNumeric (b : AlignedBox α) : Prop :=
  ∀ i : Fin 3, Scalar.IsNumber (b.lo.get i) ∧ Scalar.IsNumber (b.hi.get i)

instance (b : AlignedBox α) : Decidable b.IsNumeric :=
  inferInstanceAs (Decidable
    (∀ i : Fin 3, Scalar.IsNumber (b.lo.get i) ∧ Scalar.IsNumber (b.hi.get i)))

namespace SweepAndPrune

/-- The state after a number of frames. -/
def after (s : SweepAndPrune α) (frames : List (List (BoxEntry α))) : SweepAndPrune α :=
  frames.foldl (fun state entries ↦ (state.findPairs entries).2) s

/-! ### The order of the intervals -/

theorem insertFromEnd_perm (i : SweepInterval α) (intervals : List (SweepInterval α)) :
    (insertFromEnd i intervals).Perm (i :: intervals) := by
  induction intervals with
  | nil => exact .refl _
  | cons j rest ih =>
    unfold insertFromEnd
    split_ifs
    · exact (ih.cons j).trans (.swap i j rest)
    · exact .refl _

theorem foldl_insertFromEnd_perm (intervals sorted : List (SweepInterval α)) :
    (intervals.foldl (fun kept i ↦ insertFromEnd i kept) sorted).Perm (intervals ++ sorted) := by
  induction intervals generalizing sorted with
  | nil => exact .refl _
  | cons i rest ih =>
    refine (ih _).trans ?_
    exact ((insertFromEnd_perm i sorted).append_left rest).trans List.perm_middle

theorem insertionSort_perm (intervals : List (SweepInterval α)) :
    (insertionSort intervals).Perm intervals := by
  have h := foldl_insertFromEnd_perm intervals []
  rw [List.append_nil] at h
  exact (List.reverse_perm _).trans h

variable [OrderedScalar α]

theorem insertFromEnd_pairwise (i : SweepInterval α) (intervals : List (SweepInterval α))
    (hi : Scalar.IsNumber i.lo) (hnumber : ∀ j ∈ intervals, Scalar.IsNumber j.lo)
    (hsorted : intervals.Pairwise fun j k ↦ k.lo ≤ j.lo) :
    (insertFromEnd i intervals).Pairwise fun j k ↦ k.lo ≤ j.lo := by
  induction intervals with
  | nil => exact List.pairwise_singleton _ i
  | cons j rest ih =>
    obtain ⟨hj, hrest⟩ := List.pairwise_cons.mp hsorted
    have hjnumber : Scalar.IsNumber j.lo := hnumber j List.mem_cons_self
    unfold insertFromEnd
    split_ifs with hlt
    · refine List.pairwise_cons.mpr ⟨?_, ih (fun k hk ↦ hnumber k (.tail j hk)) hrest⟩
      intro k hk
      rcases List.mem_cons.mp ((insertFromEnd_perm i rest).mem_iff.mp hk) with rfl | hk
      · exact Scalar.le_of_lt hlt
      · exact hj k hk
    · have hji : j.lo ≤ i.lo := Scalar.le_of_not_lt hjnumber hi hlt
      refine List.pairwise_cons.mpr ⟨?_, hsorted⟩
      intro k hk
      rcases List.mem_cons.mp hk with rfl | hk
      · exact hji
      · exact OrderedScalar.le_trans (hj k hk) hji

theorem foldl_insertFromEnd_pairwise (intervals sorted : List (SweepInterval α))
    (hnumber : ∀ i ∈ intervals ++ sorted, Scalar.IsNumber i.lo)
    (hsorted : sorted.Pairwise fun j k ↦ k.lo ≤ j.lo) :
    (intervals.foldl (fun kept i ↦ insertFromEnd i kept) sorted).Pairwise
      fun j k ↦ k.lo ≤ j.lo := by
  induction intervals generalizing sorted with
  | nil => exact hsorted
  | cons i rest ih =>
    have hinsert := insertFromEnd_perm i sorted
    refine ih _ ?_ (insertFromEnd_pairwise i sorted (hnumber i (by simp)) ?_ hsorted)
    · intro j hj
      refine hnumber j ?_
      simp only [List.mem_append, hinsert.mem_iff, List.mem_cons] at hj ⊢
      tauto
    · intro j hj
      exact hnumber j (List.mem_append_right _ hj)

theorem insertionSort_pairwise (intervals : List (SweepInterval α))
    (hnumber : ∀ i ∈ intervals, Scalar.IsNumber i.lo) :
    (insertionSort intervals).Pairwise fun i j ↦ i.lo ≤ j.lo := by
  refine List.pairwise_reverse.mpr (foldl_insertFromEnd_pairwise intervals [] ?_ .nil)
  simpa using hnumber

omit [OrderedScalar α]

/-! ### The intervals kept between frames -/

/-- The intervals name each of the first places once. -/
def Numbered (intervals : List (SweepInterval α)) : Prop :=
  (intervals.map SweepInterval.entry).Perm (List.range intervals.length)

omit [Scalar α] in
theorem Numbered.perm {first second : List (SweepInterval α)} (h : Numbered second)
    (hperm : first.Perm second) : Numbered first := by
  unfold Numbered
  rw [hperm.length_eq]
  exact (hperm.map _).trans h

theorem refresh_entry (margin : α) (axis : Fin 3) (entries : Array (BoxEntry α))
    (i : SweepInterval α) : (refresh margin axis entries i).entry = i.entry := by
  unfold refresh
  split <;> rfl

theorem map_refresh_numbered (margin : α) (axis : Fin 3) (entries : Array (BoxEntry α))
    (intervals : List (SweepInterval α)) (h : Numbered intervals) :
    Numbered (intervals.map (refresh margin axis entries)) := by
  have hentries : (intervals.map (refresh margin axis entries)).map SweepInterval.entry =
      intervals.map SweepInterval.entry := by
    rw [List.map_map]
    exact List.map_congr_left fun i _ ↦ refresh_entry margin axis entries i
  unfold Numbered
  rw [hentries, List.length_map]
  exact h

theorem freshIntervals_perm (margin : α) (axis : Fin 3) (entries : List (BoxEntry α)) :
    (freshIntervals margin axis entries).Perm
      (entries.zipIdx.map fun e ↦ intervalOf margin axis e.2 e.1) :=
  Scalar.sortAscending_perm _ _

theorem freshIntervals_numbered (margin : α) (axis : Fin 3) (entries : List (BoxEntry α)) :
    Numbered (freshIntervals margin axis entries) := by
  refine Numbered.perm ?_ (freshIntervals_perm margin axis entries)
  unfold Numbered
  rw [List.map_map, List.length_map, List.length_zipIdx]
  have hplaces : entries.zipIdx.map (SweepInterval.entry ∘ fun e ↦ intervalOf margin axis e.2 e.1) =
      List.range entries.length := by
    rw [List.range_eq_range', ← List.zipIdx_map_snd 0 entries]
    rfl
  rw [hplaces]

theorem update_intervals (s : SweepAndPrune α) (entries : List (BoxEntry α)) :
    (s.update entries).intervals =
        insertionSort (s.intervals.map (refresh s.margin (sweepAxis entries) entries.toArray)) ∧
      s.intervals.length = entries.length ∨
    (s.update entries).intervals = freshIntervals s.margin (sweepAxis entries) entries := by
  simp only [update]
  split_ifs with h
  · exact .inl ⟨rfl, h.2⟩
  · exact .inr rfl

theorem update_numbered (s : SweepAndPrune α) (entries : List (BoxEntry α))
    (h : Numbered s.intervals) : Numbered (s.update entries).intervals := by
  rcases update_intervals s entries with ⟨hreused, -⟩ | hfresh
  · rw [hreused]
    exact (map_refresh_numbered _ _ _ _ h).perm (insertionSort_perm _)
  · rw [hfresh]
    exact freshIntervals_numbered _ _ _

theorem update_length (s : SweepAndPrune α) (entries : List (BoxEntry α)) :
    (s.update entries).intervals.length = entries.length := by
  rcases update_intervals s entries with ⟨hreused, hlength⟩ | hfresh
  · rw [hreused, (insertionSort_perm _).length_eq, List.length_map, hlength]
  · rw [hfresh, (freshIntervals_perm _ _ _).length_eq, List.length_map, List.length_zipIdx]

/-- Whatever frames came before, the intervals name the places of the entries. -/
theorem after_numbered (s : SweepAndPrune α) (frames : List (List (BoxEntry α)))
    (h : Numbered s.intervals) : Numbered (s.after frames).intervals := by
  induction frames generalizing s with
  | nil => exact h
  | cons entries rest ih => exact ih _ (update_numbered s entries h)

theorem after_margin (s : SweepAndPrune α) (frames : List (List (BoxEntry α))) :
    (s.after frames).margin = s.margin := by
  induction frames generalizing s with
  | nil => rfl
  | cons entries rest ih => exact ih _

omit [Scalar α] in
theorem start_numbered (margin : α) : Numbered (start margin).intervals := .refl _

/-! ### One frame -/

/-- The intervals are those of the entries, in rising order. -/
structure Current (margin : α) (axis : Fin 3) (entries : List (BoxEntry α))
    (intervals : List (SweepInterval α)) : Prop where
  numbered : Numbered intervals
  length_eq : intervals.length = entries.length
  eq_intervalOf : ∀ i ∈ intervals, ∃ e, entries[i.entry]? = some e ∧
    i = intervalOf margin axis i.entry e
  rising : intervals.Pairwise fun i j ↦ i.lo ≤ j.lo

omit [Scalar α] in
theorem Numbered.entry_lt {intervals : List (SweepInterval α)} (h : Numbered intervals)
    {i : SweepInterval α} (hi : i ∈ intervals) : i.entry < intervals.length := by
  have hmem : i.entry ∈ intervals.map SweepInterval.entry := List.mem_map_of_mem hi
  exact List.mem_range.mp (h.mem_iff.mp hmem)

omit [Scalar α] in
theorem filterMap_range_getElem? (entries : List (BoxEntry α)) :
    ((List.range entries.length).filterMap fun n ↦ entries[n]?) = entries := by
  induction entries with
  | nil => rfl
  | cons e rest ih => simpa [List.range_succ_eq_map, List.filterMap_map, Function.comp_def] using ih

/-- The entries that the intervals stand for. -/
def entriesOf (entries : List (BoxEntry α)) (intervals : List (SweepInterval α)) :
    List (BoxEntry α) :=
  intervals.filterMap fun i ↦ entries[i.entry]?

omit [Scalar α] in
theorem entriesOf_perm {entries : List (BoxEntry α)} {intervals : List (SweepInterval α)}
    (h : Numbered intervals) (hlength : intervals.length = entries.length) :
    (entriesOf entries intervals).Perm entries := by
  have hplaces : (intervals.map SweepInterval.entry).filterMap (fun n ↦ entries[n]?) =
      entriesOf entries intervals := List.filterMap_map
  have hperm := h.filterMap fun n ↦ entries[n]?
  rwa [hplaces, hlength, filterMap_range_getElem?] at hperm

/-- The intervals are those that the entries have now. -/
def Refreshed (margin : α) (axis : Fin 3) (entries : List (BoxEntry α))
    (intervals : List (SweepInterval α)) : Prop :=
  ∀ i ∈ intervals, ∃ e, entries[i.entry]? = some e ∧ i = intervalOf margin axis i.entry e

/-- What stands between two intervals that start at numbers starts no later than the second. -/
def SweepOrder (order : SweepInterval α → SweepInterval α → Prop) : Prop :=
  ∀ ⦃i k j : SweepInterval α⦄, order i k → order k j →
    Scalar.IsNumber i.lo → Scalar.IsNumber j.lo → k.lo ≤ j.lo

theorem sweepOrder_le : SweepOrder fun i j : SweepInterval α ↦ i.lo ≤ j.lo :=
  fun _ _ _ _ hkj _ _ ↦ hkj

theorem update_refreshed (s : SweepAndPrune α) (entries : List (BoxEntry α))
    (hs : Numbered s.intervals) :
    Refreshed s.margin (sweepAxis entries) entries (s.update entries).intervals := by
  intro i hi
  rcases update_intervals s entries with ⟨hreused, hlength⟩ | hfresh
  · rw [hreused, (insertionSort_perm _).mem_iff] at hi
    obtain ⟨old, hold, rfl⟩ := List.mem_map.mp hi
    have hlt : old.entry < entries.length := hlength ▸ hs.entry_lt hold
    refine ⟨entries[old.entry], ?_, ?_⟩
    · rw [refresh_entry]
      exact List.getElem?_eq_getElem hlt
    · rw [refresh_entry]
      simp [refresh, hlt]
  · rw [hfresh, (freshIntervals_perm _ _ _).mem_iff] at hi
    obtain ⟨e, he, rfl⟩ := List.mem_map.mp hi
    exact ⟨e.1, List.mem_zipIdx_iff_getElem?.mp he, rfl⟩

variable [OrderedScalar α]

/-- Growing by a finite margin keeps the coordinates numbers. -/
theorem grown_isNumeric {margin : α} (hmargin : Scalar.isFinite margin = true) {b : AlignedBox α}
    (hb : b.IsNumeric) : (grown margin b).IsNumeric := by
  unfold grown
  split_ifs
  · intro i
    obtain ⟨hlo, hhi⟩ := hb i
    rw [AlignedBox.expanded_lo_get, AlignedBox.expanded_hi_get]
    exact ⟨OrderedScalar.sub_number hlo hmargin, OrderedScalar.add_number hhi hmargin⟩
  · exact hb

theorem update_current (s : SweepAndPrune α) (entries : List (BoxEntry α))
    (hs : Numbered s.intervals) (hmargin : Scalar.isFinite s.margin = true)
    (hnumeric : ∀ e ∈ entries, e.box.IsNumeric) :
    Current s.margin (sweepAxis entries) entries (s.update entries).intervals where
  numbered := update_numbered s entries hs
  length_eq := update_length s entries
  eq_intervalOf := update_refreshed s entries hs
  rising := by
    have hnumber : ∀ i ∈ (s.update entries).intervals, Scalar.IsNumber i.lo := by
      intro i hi
      obtain ⟨e, he, heq⟩ := update_refreshed s entries hs i hi
      rw [heq]
      exact (grown_isNumeric hmargin (hnumeric e (List.mem_of_getElem? he)) _).1
    rcases update_intervals s entries with ⟨hreused, -⟩ | hfresh
    · rw [hreused] at hnumber ⊢
      refine insertionSort_pairwise _ fun i hi ↦ hnumber i ?_
      exact (insertionSort_perm _).mem_iff.mpr hi
    · rw [hfresh] at hnumber ⊢
      refine Scalar.sortAscending_pairwise _ _ fun i hi ↦ hnumber i ?_
      exact (freshIntervals_perm _ _ _).mem_iff.mpr hi

omit [OrderedScalar α] in
theorem confirm?_eq_some (margin : α) (entries : List (BoxEntry α)) (i j : SweepInterval α)
    (p : GeomId × GeomId) :
    confirm? margin entries.toArray i j = some p ↔ ∃ a b, entries[i.entry]? = some a ∧
      entries[j.entry]? = some b ∧ reported (grown margin) p a b := by
  unfold confirm?
  simp only [List.getElem?_toArray]
  rcases entries[i.entry]? with _ | a
  · simp
  · rcases entries[j.entry]? with _ | b
    · simp
    · simp [reported, AlignedBox.overlaps_iff]

omit [OrderedScalar α] in
/-- A swept pair is confirmed by an interval and one behind it, in whatever order they stand. -/
theorem not_pairwise_of_mem_sweep {margin : α} {entries : List (BoxEntry α)}
    {intervals : List (SweepInterval α)} {p : GeomId × GeomId}
    (h : p ∈ sweep margin entries.toArray intervals) :
    ¬ intervals.Pairwise fun i j ↦ ¬ confirm? margin entries.toArray i j = some p := by
  induction intervals with
  | nil => exact absurd h List.not_mem_nil
  | cons i rest ih =>
    intro hnone
    obtain ⟨hfirst, hrest⟩ := List.pairwise_cons.mp hnone
    rcases List.mem_append.mp h with hi | hbehind
    · obtain ⟨j, hj, hp⟩ := List.mem_filterMap.mp hi
      exact hfirst j (List.takeWhile_subset _ hj) hp
    · exact ih hbehind hrest

omit [OrderedScalar α] in
/-- A swept pair is one of entries at different places whose grown boxes meet. -/
theorem meetingPair_of_mem_sweep {margin : α} {entries : List (BoxEntry α)}
    {intervals : List (SweepInterval α)} (hnumbered : Numbered intervals) {p : GeomId × GeomId}
    (h : p ∈ sweep margin entries.toArray intervals) : MeetingPair (grown margin) entries p := by
  have hplaces : intervals.Pairwise fun i j ↦ i.entry ≠ j.entry :=
    List.pairwise_map.mp (hnumbered.nodup_iff.mpr List.nodup_range)
  by_contra hnone
  refine not_pairwise_of_mem_sweep h (hplaces.imp ?_)
  intro i j hne hp
  refine hnone ?_
  obtain ⟨a, b, ha, hb, hreported⟩ := (confirm?_eq_some margin entries i j p).mp hp
  exact (meetingPair_iff _ _ _).mpr ⟨i.entry, j.entry, a, b, hne, ha, hb, hreported⟩

omit [OrderedScalar α] in
/-- Boxes that meet have intervals that meet. -/
theorem lo_le_hi_of_reported {margin : α} {axis : Fin 3} {p : GeomId × GeomId} {a b : BoxEntry α}
    (h : reported (grown margin) p a b) (i j : Nat) :
    (intervalOf margin axis j b).lo ≤ (intervalOf margin axis i a).hi :=
  (h.1 axis).2

section Sweeping

variable {margin : α} {axis : Fin 3} {entries : List (BoxEntry α)}

omit [OrderedScalar α] in
theorem confirm?_symm {i j : SweepInterval α} {p : GeomId × GeomId}
    (h : confirm? margin entries.toArray i j = some p) :
    confirm? margin entries.toArray j i = some p := by
  rw [confirm?_eq_some] at h ⊢
  obtain ⟨a, b, ha, hb, hreported⟩ := h
  exact ⟨b, a, hb, ha, hreported.symm⟩

omit [OrderedScalar α] in
theorem lo_le_hi_of_confirm? {intervals : List (SweepInterval α)}
    (hrefreshed : Refreshed margin axis entries intervals) {i j : SweepInterval α}
    (hi : i ∈ intervals) (hj : j ∈ intervals) {p : GeomId × GeomId}
    (h : confirm? margin entries.toArray i j = some p) : j.lo ≤ i.hi := by
  obtain ⟨a, b, ha, hb, hreported⟩ := (confirm?_eq_some margin entries i j p).mp h
  obtain ⟨a', ha', hi⟩ := hrefreshed i hi
  obtain ⟨b', hb', hj⟩ := hrefreshed j hj
  obtain rfl : a' = a := Option.some_inj.mp (ha'.symm.trans ha)
  obtain rfl : b' = b := Option.some_inj.mp (hb'.symm.trans hb)
  rw [hi, hj]
  exact lo_le_hi_of_reported hreported i.entry j.entry

theorem number_of_confirm? {intervals : List (SweepInterval α)}
    (hrefreshed : Refreshed margin axis entries intervals) {i j : SweepInterval α}
    (hi : i ∈ intervals) (hj : j ∈ intervals) {p : GeomId × GeomId}
    (h : confirm? margin entries.toArray i j = some p) : Scalar.IsNumber i.lo :=
  (OrderedScalar.number_of_le (lo_le_hi_of_confirm? hrefreshed hj hi (confirm?_symm h))).1

variable {order : SweepInterval α → SweepInterval α → Prop}

/-- Nothing that starts before a bound stands behind one that does not. -/
theorem mem_takeWhile_of_sweepOrder (horder : SweepOrder order) {i : SweepInterval α}
    {others : List (SweepInterval α)} (hsorted : (i :: others).Pairwise order)
    (hi : Scalar.IsNumber i.lo) {bound : α} {j : SweepInterval α} (hj : j ∈ others)
    (hle : j.lo ≤ bound) : j ∈ others.takeWhile fun k ↦ decide (k.lo ≤ bound) := by
  induction others with
  | nil => exact hj
  | cons k rest ih =>
    obtain ⟨hbehind, hsortedrest⟩ := List.pairwise_cons.mp hsorted
    have hkle : k.lo ≤ bound := by
      rcases List.mem_cons.mp hj with rfl | hj
      · exact hle
      · have hik : order i k := hbehind k List.mem_cons_self
        have hkj : order k j := (List.pairwise_cons.mp hsortedrest).1 j hj
        have hjnumber : Scalar.IsNumber j.lo := (OrderedScalar.number_of_le hle).1
        exact OrderedScalar.le_trans (horder hik hkj hi hjnumber) hle
    rw [List.takeWhile_cons_of_pos (by simpa using hkle)]
    rcases List.mem_cons.mp hj with rfl | hj
    · exact List.mem_cons_self
    · exact .tail k (ih (hsorted.sublist ((List.sublist_cons_self k rest).cons_cons i)) hj)

theorem mem_sweepFrom (horder : SweepOrder order) {i : SweepInterval α}
    {others : List (SweepInterval α)} (hrefreshed : Refreshed margin axis entries (i :: others))
    (hsorted : (i :: others).Pairwise order) (p : GeomId × GeomId) :
    p ∈ sweepFrom margin entries.toArray i others ↔
      ∃ j ∈ others, confirm? margin entries.toArray i j = some p := by
  unfold sweepFrom
  rw [List.mem_filterMap]
  constructor
  · rintro ⟨j, hj, hp⟩
    exact ⟨j, List.takeWhile_subset _ hj, hp⟩
  · rintro ⟨j, hj, hp⟩
    have hi : i ∈ i :: others := List.mem_cons_self
    have hnumber : Scalar.IsNumber i.lo := number_of_confirm? hrefreshed hi (.tail i hj) hp
    have hle : j.lo ≤ i.hi := lo_le_hi_of_confirm? hrefreshed hi (.tail i hj) hp
    exact ⟨j, mem_takeWhile_of_sweepOrder horder hsorted hnumber hj hle, hp⟩

/-- Stopping early loses nothing: a pair is swept iff some two intervals confirm it. -/
theorem mem_sweep_iff_not_pairwise (horder : SweepOrder order)
    {intervals : List (SweepInterval α)} (hrefreshed : Refreshed margin axis entries intervals)
    (hsorted : intervals.Pairwise order) (p : GeomId × GeomId) :
    p ∈ sweep margin entries.toArray intervals ↔
      ¬ intervals.Pairwise fun i j ↦ ¬ confirm? margin entries.toArray i j = some p := by
  induction intervals with
  | nil => simp [sweep]
  | cons i rest ih =>
    have hrest : Refreshed margin axis entries rest := fun j hj ↦ hrefreshed j (.tail i hj)
    rw [sweep, List.mem_append, mem_sweepFrom horder hrefreshed hsorted,
      ih hrest (List.pairwise_cons.mp hsorted).2, List.pairwise_cons, not_and_or]
    push Not
    rfl

/-- The sweep finds the pairs of the entries that the intervals stand for. -/
theorem mem_sweep_iff_meetingPair (horder : SweepOrder order)
    {intervals : List (SweepInterval α)} (hrefreshed : Refreshed margin axis entries intervals)
    (hsorted : intervals.Pairwise order) (p : GeomId × GeomId) :
    p ∈ sweep margin entries.toArray intervals ↔
      MeetingPair (grown margin) (entriesOf entries intervals) p := by
  rw [mem_sweep_iff_not_pairwise horder hrefreshed hsorted, meetingPair_iff_not_pairwise,
    entriesOf, List.pairwise_filterMap]
  refine not_congr (List.Pairwise.iff fun {i j} ↦ ?_)
  rw [confirm?_eq_some]
  push Not
  exact ⟨fun h a ha b ↦ h a b ha, fun h a b ha ↦ h a ha b⟩

/-- The sweep finds the pairs of entries at different places whose grown boxes meet. -/
theorem mem_sweep {intervals : List (SweepInterval α)}
    (h : Current margin axis entries intervals) (p : GeomId × GeomId) :
    p ∈ sweep margin entries.toArray intervals ↔ MeetingPair (grown margin) entries p := by
  rw [mem_sweep_iff_meetingPair sweepOrder_le h.eq_intervalOf h.rising]
  exact meetingPair_congr_perm (entriesOf_perm h.numbered h.length_eq) p

end Sweeping

/-! ### Every frame of a run -/

omit [OrderedScalar α] in
theorem findPairs_pairwise (s : SweepAndPrune α) (entries : List (BoxEntry α)) :
    (s.findPairs entries).1.Pairwise PairLt :=
  sortedPairs_pairwise _

theorem mem_findPairs (s : SweepAndPrune α) (entries : List (BoxEntry α))
    (hs : Numbered s.intervals) (hmargin : Scalar.isFinite s.margin = true)
    (hnumeric : ∀ e ∈ entries, e.box.IsNumeric) (p : GeomId × GeomId) :
    p ∈ (s.findPairs entries).1 ↔ MeetingPair (grown s.margin) entries p := by
  have hcurrent := update_current s entries hs hmargin hnumeric
  exact (mem_sortedPairs p _).trans (mem_sweep hcurrent p)

/-- Growing by a margin that is not negative decides meeting as growing by it regardless. -/
theorem grown_meets_iff {margin : α} (hmargin : 0 ≤ margin) {a b : AlignedBox α} (ha : a.IsNumeric)
    (hb : b.IsNumeric) :
    (grown margin a).Meets (grown margin b) ↔ (a.expanded margin).Meets (b.expanded margin) := by
  by_cases hpos : 0 < margin
  · simp only [grown, if_pos hpos]
  · obtain ⟨hzero, hnumber⟩ := OrderedScalar.number_of_le hmargin
    have hle : margin ≤ 0 := Scalar.le_of_not_lt hnumber hzero hpos
    have hsub {x : α} (hx : Scalar.IsNumber x) := OrderedScalar.sub_zero hx hle hmargin
    have hadd {x : α} (hx : Scalar.IsNumber x) := OrderedScalar.add_zero hx hle hmargin
    simp only [grown, if_neg hpos, AlignedBox.Meets, AlignedBox.expanded_lo_get,
      AlignedBox.expanded_hi_get]
    refine forall_congr' fun i ↦ and_congr ?_ ?_
    · exact (Scalar.le_congr (hsub (ha i).1) (hadd (hb i).2)).symm
    · exact (Scalar.le_congr (hsub (hb i).1) (hadd (ha i).2)).symm

theorem meetingPair_grown_iff {margin : α} (hmargin : 0 ≤ margin) {entries : List (BoxEntry α)}
    (hnumeric : ∀ e ∈ entries, e.box.IsNumeric) (p : GeomId × GeomId) :
    MeetingPair (grown margin) entries p ↔ MeetingPair (·.expanded margin) entries p := by
  have hmeets {i j : Nat} {a b : BoxEntry α} (ha : entries[i]? = some a)
      (hb : entries[j]? = some b) :
      (grown margin a.box).Meets (grown margin b.box) ↔
        (a.box.expanded margin).Meets (b.box.expanded margin) :=
    grown_meets_iff hmargin (hnumeric a (List.mem_of_getElem? ha))
      (hnumeric b (List.mem_of_getElem? hb))
  constructor
  · rintro ⟨i, j, a, b, hne, ha, hb, hle, hp, h⟩
    exact ⟨i, j, a, b, hne, ha, hb, hle, hp, (hmeets ha hb).mp h⟩
  · rintro ⟨i, j, a, b, hne, ha, hb, hle, hp, h⟩
    exact ⟨i, j, a, b, hne, ha, hb, hle, hp, (hmeets ha hb).mpr h⟩

theorem findPairs_eq_overlappingPairs (s : SweepAndPrune α) (entries : List (BoxEntry α))
    (hs : Numbered s.intervals) (hfinite : Scalar.isFinite s.margin = true)
    (hmargin : 0 ≤ s.margin) (hnumeric : ∀ e ∈ entries, e.box.IsNumeric) :
    (s.findPairs entries).1 = overlappingPairs s.margin entries := by
  refine sortedPairs_congr fun p ↦ ?_
  rw [mem_overlappingList, ← meetingPair_grown_iff hmargin hnumeric]
  exact mem_sweep (update_current s entries hs hfinite hnumeric) p

omit [Scalar α] [OrderedScalar α]

/-- A frame whose coordinates are numbers, after any frames whatever, lists the pairs of entries
whose grown boxes meet, each once and in order: what the first frame would list, in whatever order
the swept pairs are gathered, and what comparing all pairs lists unless the margin is negative. -/
theorem findPairs_after_any_frames (margin : Float) (hfinite : margin.isFinite = true)
    (earlier : List (List (BoxEntry Float))) (entries : List (BoxEntry Float))
    (hnumeric : ∀ e ∈ entries, e.box.IsNumeric) :
    let state := (start margin).after earlier
    let pairs := (state.findPairs entries).1
    pairs.Pairwise PairLt ∧
      (∀ p, p ∈ pairs ↔ MeetingPair (grown margin) entries p) ∧
      pairs = ((start margin).findPairs entries).1 ∧
      (0 ≤ margin → pairs = overlappingPairs margin entries) ∧
      ∀ gathered : List (GeomId × GeomId),
        gathered.Perm (sweep margin entries.toArray (state.update entries).intervals) →
          sortedPairs gathered = pairs := by
  intro state pairs
  have hmargin : state.margin = margin := after_margin _ earlier
  have hstate : Numbered state.intervals := after_numbered _ earlier (start_numbered margin)
  have hstatefinite : Scalar.isFinite state.margin = true := by rw [hmargin]; exact hfinite
  have hmem : ∀ p, p ∈ pairs ↔ MeetingPair (grown margin) entries p := by
    intro p
    rw [← hmargin]
    exact mem_findPairs state entries hstate hstatefinite hnumeric p
  refine ⟨findPairs_pairwise state entries, hmem, ?_, ?_, ?_⟩
  · refine eq_of_pairLt_pairwise (findPairs_pairwise _ _) (findPairs_pairwise _ _) fun p ↦ ?_
    rw [hmem, mem_findPairs (start margin) entries (start_numbered margin) hfinite hnumeric p]
    rfl
  · intro hle
    rw [← hmargin] at hle ⊢
    exact findPairs_eq_overlappingPairs state entries hstate hstatefinite hle hnumeric
  · intro gathered hperm
    refine sortedPairs_congr fun p ↦ ?_
    rw [hperm.mem_iff, ← hmargin]
    rfl

/-- Two cubes a unit apart meet when each is grown by three quarters of one, also in the frame after
one in which a cube is nowhere. -/
theorem findPairs_after_lost_cube :
    let cube := fun (id : GeomId) (x : Float) ↦
      (⟨id, .ofCenter ⟨x, 0, 0⟩ ⟨1, 1, 1⟩⟩ : BoxEntry Float)
    let lost := [cube 2 (0.0 / 0.0), cube 4 5]
    let apart := [cube 7 3, cube 2 0]
    (0.75 : Float).isFinite = true ∧ (∀ e ∈ apart, e.box.IsNumeric) ∧
      (2, 7) ∈ (((start 0.75).after [lost]).findPairs apart).1 := by
  intro cube lost apart
  have hfinite : (0.75 : Float).isFinite = true := by decide
  have hnumeric : ∀ e ∈ apart, e.box.IsNumeric := by decide
  obtain ⟨-, hmem, -⟩ := findPairs_after_any_frames 0.75 hfinite [lost] apart hnumeric
  refine ⟨hfinite, hnumeric, (hmem (2, 7)).mpr ?_⟩
  exact ⟨1, 0, cube 2 0, cube 7 3, by decide, rfl, rfl, by decide, rfl, by decide⟩

end SweepAndPrune

end Collision
