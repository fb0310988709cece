import Collision.Broad.Detector
import Collision.Geom
import Collision.Memory

/-!
# The engine

Geoms under handles, tested against each other in cycles. A cycle builds the trees that are stale,
finds candidate pairs by their world boxes, tests each of them, and shows those that touch to a
visitor until the visitor has seen enough.

Main definitions.

* `Engine` with `Engine.ofConfig?`; handles are given out by counting and never used again.
* `Engine.add`, `Engine.remove?`, `Engine.geom?`, `Engine.modify?` manage the geoms.
* `Engine.collide` and `Engine.separate` are the cycles, `Engine.collidePair?` and
  `Engine.separatePair?` test two geoms as they are.
* `Engine.maintain` is the maintenance of contact memory.
-/

set_option autoImplicit false
set_option relaxedAutoImplicit false

namespace Collision

/-- Geoms, settings and what is kept between cycles. -/
structure Engine (α : Type) [Scalar α] where
  config : Config α
  tester : PairTester α
  /-- The geoms by handle; removed ones leave a gap. -/
  geoms : List (Option (Geom α))
  /-- The number of registered geoms, counted along. -/
  size : Nat
  broadPhase : BroadPhase α
  /-- The contact memory, if it is enabled. -/
  memory? : Option (ContactMemory α)

namespace Engine

variable {α : Type} [Scalar α]

/-- The engine of a configuration without faults. -/
def ofConfig? (config : Config α) : Except (Error α) (Engine α) := do
  config.validate
  return {
    config := config
    tester := { config := ⟨config.portal, config.contacts⟩ }
    geoms := []
    size := 0
    broadPhase := .ofConfig config
    memory? := if config.memory.enabled then some (.empty config.memory) else none }

/-! ### Geoms -/

/-- The registered geoms with their handles. -/
def live (e : Engine α) : List (GeomId × Geom α) :=
  e.geoms.zipIdx.filterMap fun entry => entry.1.map fun g => (entry.2, g)

/-- The geom under a handle. -/
def lookup? (e : Engine α) (id : GeomId) : Option (Geom α) := (e.geoms[id]?).join

/-- The geom under a handle, or what is wrong with the handle. -/
def geom? (e : Engine α) (id : GeomId) : Except (Error α) (Geom α) :=
  match e.lookup? id with
  | some g => .ok g
  | none => .error (.unknownGeom id)

/-- Register a geom, its tree built by the settings of the engine. -/
def add (e : Engine α) (g : Geom α) : GeomId × Engine α :=
  (e.geoms.length,
    { e with geoms := e.geoms ++ [some (g.build e.config.build)], size := e.size + 1 })

/-- Remove a geom and forget its contacts. -/
def remove? (e : Engine α) (id : GeomId) : Except (Error α) (Geom α × Engine α) := do
  let g ← e.geom? id
  return (g, { e with
    geoms := e.geoms.set id none
    size := e.size - 1
    memory? := e.memory?.map fun m => m.removeGeom id })

/-- Edit a geom. -/
def modify? (e : Engine α) (id : GeomId) (edit : Geom α → Geom α) :
    Except (Error α) (Engine α) := do
  let g ← e.geom? id
  return { e with geoms := e.geoms.set id (some (edit g)) }

/-- Put a geom at a pose. -/
def setPose? (e : Engine α) (id : GeomId) (pose : Pose α) : Except (Error α) (Engine α) :=
  e.modify? id fun g => g.setPose pose

/-- Build the tree of a geom. -/
def rebuild? (e : Engine α) (id : GeomId) : Except (Error α) (Engine α) :=
  e.modify? id fun g => g.build e.config.build

/-! ### Cycles -/

/-- Build the trees that are stale. -/
def rebuildStale (e : Engine α) : Engine α :=
  { e with geoms := e.geoms.map (Option.map fun g => g.rebuildIfStale e.config.build) }

/-- The world boxes of the geoms that have one. -/
def entries (e : Engine α) : List (BoxEntry α) :=
  e.live.filterMap fun entry => entry.2.worldBox?.map fun box => ⟨entry.1, box⟩

/-- The candidate pairs of a cycle, with the engine whose trees and broad phase are up to date. -/
def candidatePairs (e : Engine α) : List (GeomId × GeomId) × Engine α :=
  let e := e.rebuildStale
  let found := e.broadPhase.findPairs e.entries
  (found.1, { e with broadPhase := found.2 })

/-- The geoms of a pair. -/
def geomsOf? (e : Engine α) (pair : GeomId × GeomId) : Option (Geom α × Geom α) :=
  match e.lookup? pair.1, e.lookup? pair.2 with
  | some a, some b => some (a, b)
  | _, _ => none

/-- The geoms of a pair overlap. -/
def overlapping (e : Engine α) (pair : GeomId × GeomId) : Bool :=
  match e.geomsOf? pair with
  | some (a, b) => a.collide b e.tester
  | none => false

/-- What a cycle found. -/
structure Cycle (α : Type) [Scalar α] (σ : Type) where
  /-- A pair was shown to the visitor. -/
  hit : Bool
  /-- The last state of the visitor. -/
  state : σ
  engine : Engine α

variable {σ : Type}

/-- Show a pair to a visitor if its geoms overlap, and note that one was shown. -/
def showOverlap (e : Engine α) (visit : σ → GeomId × GeomId → σ × Bool) (seen : Bool × σ)
    (pair : GeomId × GeomId) : (Bool × σ) × Bool :=
  if e.overlapping pair then
    let answer := visit seen.2 pair
    ((true, answer.1), answer.2)
  else (seen, false)

/-- A cycle of verdicts: the overlapping pairs are shown to a visitor until it has seen enough. -/
def collide (e : Engine α) (visit : σ → GeomId × GeomId → σ × Bool) (state : σ) : Cycle α σ :=
  let (pairs, e) := e.candidatePairs
  let result := visitList (e.showOverlap visit) (false, state) pairs
  ⟨result.1.1, result.1.2, e⟩

/-- Some pair of geoms overlaps. -/
def anyOverlap (e : Engine α) : Cycle α Unit := e.collide (fun _ _ => ((), true)) ()

/-- The state of a cycle of contacts. -/
structure Showing (α : Type) (σ : Type) where
  hit : Bool
  memory? : Option (ContactMemory α)
  state : σ

/-- The contacts of a pair after contact memory, and the memory. -/
def remember (memory? : Option (ContactMemory α)) (pair : GeomId × GeomId) (a b : Geom α)
    (contacts : Contacts α) : Contacts α × Option (ContactMemory α) :=
  match memory? with
  | none => (contacts, none)
  | some m =>
    let updated := m.update ⟨pair.1, a.pose, a.remembered⟩ ⟨pair.2, b.pose, b.remembered⟩ contacts
    (updated.1, some updated.2)

/-- Show a pair with its contacts to a visitor if it has some. -/
def showContacts (e : Engine α) (visit : σ → (GeomId × GeomId) × Contacts α → σ × Bool)
    (s : Showing α σ) (pair : GeomId × GeomId) : Showing α σ × Bool :=
  match e.geomsOf? pair with
  | none => (s, false)
  | some (a, b) =>
    let contacts := a.separate b e.tester
    if contacts.isEmpty then (s, false)
    else
      let (contacts, memory?) := remember s.memory? pair a b contacts
      let answer := visit s.state (pair, contacts)
      (⟨true, memory?, answer.1⟩, answer.2)

/-- A cycle of contacts: the pairs that touch are passed through contact memory and shown to a
visitor until it has seen enough. -/
def separate (e : Engine α) (visit : σ → (GeomId × GeomId) × Contacts α → σ × Bool) (state : σ) :
    Cycle α σ :=
  let (pairs, e) := e.candidatePairs
  let result := (visitList (e.showContacts visit) ⟨false, e.memory?, state⟩ pairs).1
  ⟨result.hit, result.state, { e with memory? := result.memory? }⟩

/-! ### Single pairs -/

/-- Two geoms overlap, by their last built trees. -/
def collidePair? (e : Engine α) (a b : GeomId) : Except (Error α) Bool := do
  let first ← e.geom? a
  let second ← e.geom? b
  return first.collide second e.tester

/-- The contacts of two geoms, by their last built trees and without contact memory. -/
def separatePair? (e : Engine α) (a b : GeomId) : Except (Error α) (Contacts α) := do
  let first ← e.geom? a
  let second ← e.geom? b
  return first.separate second e.tester

/-- Maintenance of contact memory; nothing happens without one. -/
def maintain (e : Engine α) : Maintenance × Engine α :=
  match e.memory? with
  | none => (⟨0, 0⟩, e)
  | some m =>
    let (done, m) := m.maintain
    (done, { e with memory? := some m })

end Engine

end Collision
