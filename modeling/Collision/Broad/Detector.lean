import Collision.Broad.Sweep
import Collision.Config

/-!
# The broad phase of an engine

`BroadPhase` is the algorithm that a configuration selects, without a margin, and its state.
`BroadPhase.findPairs` is one frame.
-/

set_option autoImplicit false
set_option relaxedAutoImplicit false

namespace Collision

/-- The selected algorithm and the state of the sweep. -/
structure BroadPhase (α : Type) where
  choice : BroadPhaseChoice
  sweep : SweepAndPrune α

namespace BroadPhase

variable {α : Type} [Scalar α]

/-- The broad phase of a configuration before its first frame. -/
def ofConfig (config : Config α) : BroadPhase α := ⟨config.broadPhase, .start 0⟩

/-- One frame: the pairs of handles and the state for the next frame. -/
def findPairs (b : BroadPhase α) (entries : List (BoxEntry α)) :
    List (GeomId × GeomId) × BroadPhase α :=
  match b.choice with
  | .sweepAndPrune =>
    let found := b.sweep.findPairs entries
    (found.1, { b with sweep := found.2 })
  | .allPairs => (overlappingPairs 0 entries, b)

end BroadPhase

end Collision
