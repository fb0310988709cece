import Collision.Broad.Pairs

/-!
# Sweep and prune

The boxes are swept along the axis on which their centres spread most. Their intervals on that axis
are kept, in order, from one frame to the next: when neither the axis nor the number of boxes
changes, the intervals are refreshed in place and sorted again by insertion, which costs little
where little moved.

Main definitions.

* `SweepAndPrune` is the margin by which boxes are grown and the intervals of the last frame.
* `SweepAndPrune.sweepAxis` chooses the axis, `SweepAndPrune.update` makes the intervals of a frame.
* `SweepAndPrune.sweep` pairs every box with those that start before it ends, as far as they overlap
  on all axes.
* `SweepAndPrune.findPairs` is one frame.
-/

set_option autoImplicit false
set_option relaxedAutoImplicit false

namespace Collision

/-- The stretch that the box of an entry covers on the sweep axis. -/
structure SweepInterval (α : Type) where
  /-- The number of the entry. -/
  entry : Nat
  lo : α
  hi : α
  deriving Inhabited

/-- The margin and the intervals of the last frame. -/
structure SweepAndPrune (α : Type) where
  /-- By how much boxes are grown; they are left as they are unless it is positive. -/
  margin : α
  /-- The axis of the last frame. -/
  axis : Fin 3
  /-- The intervals of the last frame, by their lower ends. -/
  intervals : List (SweepInterval α)

namespace SweepAndPrune

variable {α : Type} [Scalar α]

/-- No frame yet. -/
def start (margin : α) : SweepAndPrune α := ⟨margin, 0, []⟩

/-- The extent of the centres of boxes along the axes. -/
def spread (centers : List (Vec3 α)) : Vec3 α :=
  match centers with
  | [] => Vec3.zero
  | c :: rest => rest.foldl Vec3.greater c - rest.foldl Vec3.lesser c

/-- The first axis on which the centres of the boxes spread most. -/
def sweepAxis (entries : List (BoxEntry α)) : Fin 3 :=
  let s := spread (entries.map fun e => e.box.center)
  if s.y ≤ s.x ∧ s.z ≤ s.x then 0 else if s.z ≤ s.y then 1 else 2

/-- A box grown by the margin. -/
def grown (margin : α) (box : AlignedBox α) : AlignedBox α :=
  if 0 < margin then box.expanded margin else box

/-- The interval of an entry on an axis. -/
def intervalOf (margin : α) (axis : Fin 3) (number : Nat) (e : BoxEntry α) : SweepInterval α :=
  let box := grown margin e.box
  ⟨number, box.lo.get axis, box.hi.get axis⟩

/-- Insert an interval before the intervals at the end that start strictly after it. The list is in
reverse order. -/
def insertFromEnd (i : SweepInterval α) : List (SweepInterval α) → List (SweepInterval α)
  | [] => [i]
  | j :: rest => if i.lo < j.lo then j :: insertFromEnd i rest else i :: j :: rest

/-- Insertion sort by the lower ends; an interval moves down as long as the one before it starts
strictly after it. -/
def insertionSort (intervals : List (SweepInterval α)) : List (SweepInterval α) :=
  (intervals.foldl (fun sorted i => insertFromEnd i sorted) []).reverse

/-- The intervals of a frame made anew. -/
def freshIntervals (margin : α) (axis : Fin 3) (entries : List (BoxEntry α)) :
    List (SweepInterval α) :=
  Scalar.sortAscending SweepInterval.lo
    (entries.zipIdx.map fun e => intervalOf margin axis e.2 e.1)

/-- An interval of the last frame with the ends that its entry has now. -/
def refresh (margin : α) (axis : Fin 3) (entries : Array (BoxEntry α)) (i : SweepInterval α) :
    SweepInterval α :=
  match entries[i.entry]? with
  | some e => intervalOf margin axis i.entry e
  | none => i

/-- The state for a new frame: the intervals of the last one refreshed where the axis and the number
of entries are the same, and made anew otherwise. -/
def update (s : SweepAndPrune α) (entries : List (BoxEntry α)) : SweepAndPrune α :=
  let axis := sweepAxis entries
  let intervals :=
    if axis = s.axis ∧ s.intervals.length = entries.length then
      insertionSort (s.intervals.map (refresh s.margin axis entries.toArray))
    else freshIntervals s.margin axis entries
  { s with axis := axis, intervals := intervals }

/-- The pair of handles of two intervals whose boxes overlap on all axes. -/
def confirm? (margin : α) (entries : Array (BoxEntry α)) (i j : SweepInterval α) :
    Option (GeomId × GeomId) :=
  match entries[i.entry]?, entries[j.entry]? with
  | some a, some b =>
    if (grown margin a.box).overlaps (grown margin b.box) then some (orderedPair a.id b.id)
    else none
  | _, _ => none

/-- The confirmed pairs of an interval with those after it that start before it ends. -/
def sweepFrom (margin : α) (entries : Array (BoxEntry α)) (i : SweepInterval α)
    (others : List (SweepInterval α)) : List (GeomId × GeomId) :=
  (others.takeWhile fun j => decide (j.lo ≤ i.hi)).filterMap (confirm? margin entries i)

/-- The confirmed pairs of all intervals. -/
def sweep (margin : α) (entries : Array (BoxEntry α)) :
    List (SweepInterval α) → List (GeomId × GeomId)
  | [] => []
  | i :: rest => sweepFrom margin entries i rest ++ sweep margin entries rest

/-- One frame: the pairs of handles, in order and once each, and the state for the next frame. -/
def findPairs (s : SweepAndPrune α) (entries : List (BoxEntry α)) :
    List (GeomId × GeomId) × SweepAndPrune α :=
  let s := s.update entries
  (sortedPairs (sweep s.margin entries.toArray s.intervals), s)

end SweepAndPrune

end Collision
