import Collision.Box.Aligned
import Collision.Contact

/-!
# Candidate pairs

The broad phase turns boxes with handles into pairs of handles whose boxes overlap.

Main definitions.

* `BoxEntry` is a box with the handle it is reported under.
* `orderedPair` puts the lower handle first, `sortedPairs` lists pairs in order and once each.
* `overlappingPairs` compares all pairs of entries, each box grown by a margin.
-/

set_option autoImplicit false
set_option relaxedAutoImplicit false

namespace Collision

/-- A box with the handle it is reported under. -/
structure BoxEntry (α : Type) where
  id : GeomId
  box : AlignedBox α
  deriving Inhabited

/-- Two handles, the lower one first. -/
def orderedPair (a b : GeomId) : GeomId × GeomId := if a ≤ b then (a, b) else (b, a)

/-- Pairs compare by their first handles, then by their second. -/
def pairLe (p q : GeomId × GeomId) : Bool :=
  decide (p.1 < q.1) || (p.1 == q.1 && decide (p.2 ≤ q.2))

/-- Equal neighbours are listed once. -/
def dropRepeats : List (GeomId × GeomId) → List (GeomId × GeomId)
  | p :: q :: rest => if p = q then dropRepeats (q :: rest) else p :: dropRepeats (q :: rest)
  | pairs => pairs

/-- The pairs in order, each once. -/
def sortedPairs (pairs : List (GeomId × GeomId)) : List (GeomId × GeomId) :=
  dropRepeats (pairs.mergeSort pairLe)

variable {α : Type} [Scalar α]

/-- The entries after an entry whose boxes overlap its box, all boxes grown by a margin. -/
def overlappingFrom (margin : α) (entry : BoxEntry α) (others : List (BoxEntry α)) :
    List (GeomId × GeomId) :=
  (others.filter fun other =>
      (entry.box.expanded margin).overlaps (other.box.expanded margin)).map fun other =>
    orderedPair entry.id other.id

/-- The pairs of entries whose boxes overlap, by the earlier entry. -/
def overlappingList (margin : α) : List (BoxEntry α) → List (GeomId × GeomId)
  | [] => []
  | entry :: rest => overlappingFrom margin entry rest ++ overlappingList margin rest

/-- The pairs of handles whose boxes overlap when grown by a margin, in order and once each. -/
def overlappingPairs (margin : α) (entries : List (BoxEntry α)) : List (GeomId × GeomId) :=
  sortedPairs (overlappingList margin entries)

end Collision
