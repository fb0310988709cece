import Collision.Broad.Pairs
import Collision.Config

/-!
# Contact memory

The contacts of a pair of geoms are remembered from one cycle to the next. A remembered contact
keeps its identity while the geoms carry it no farther than the allowed drift; a new contact near a
remembered one takes its identity over, and other contacts get identities that were never used.

A pair is *active* from an update to the next maintenance and idle afterwards; it is forgotten once
it has been idle for more than the maximal age.

Main definitions.

* `Remembered` is a contact with its identity and its places in the frames of both geoms.
* `PairMemory` is what is remembered of one pair, from the geom of the lower handle towards the
  other one; `Absorbing` is the state of its update, `Absorbing.placement` says where a new contact
  goes, and `Absorbing.absorb` puts it there.
* `ContactMemory` is the table of all pairs, with `ContactMemory.update`, `ContactMemory.maintain`,
  `ContactMemory.removeGeom` and `ContactMemory.clear`.
-/

set_option autoImplicit false
set_option relaxedAutoImplicit false

namespace Collision

/-! ### One pair -/

/-- A contact with its identity and its places in the frames of the two geoms. -/
structure Remembered (α : Type) where
  id : ContactId
  position : Vec3 α
  normal : Vec3 α
  depth : α
  /-- The position in the frame of the geom of the lower handle. -/
  inFirst : Vec3 α
  /-- The position in the frame of the geom of the higher handle. -/
  inSecond : Vec3 α
  deriving Inhabited

/-- The poses of two geoms, the lower handle first. -/
structure PosePair (α : Type) where
  first : Pose α
  second : Pose α

namespace Remembered

variable {α : Type} [Scalar α]

/-- The distance of the contact from a point. -/
def distanceTo (r : Remembered α) (p : Vec3 α) : α := (r.position - p).norm

/-- The contact as it is reported. -/
def contact (r : Remembered α) : Contact α :=
  { position := r.position, normal := r.normal, depth := r.depth, id? := some r.id }

/-- A contact as it is remembered under an identity. -/
def ofContact (poses : PosePair α) (id : ContactId) (c : Contact α) : Remembered α :=
  { id := id
    position := c.position
    normal := c.normal
    depth := c.depth
    inFirst := poses.first.inverseTransformPoint c.position
    inSecond := poses.second.inverseTransformPoint c.position }

/-- Both geoms carry the contact to within the drift of where it was found. -/
def stays (poses : PosePair α) (drift : α) (r : Remembered α) : Bool :=
  decide ((poses.first.transformPoint r.inFirst - r.position).norm ≤ drift) &&
    decide ((poses.second.transformPoint r.inSecond - r.position).norm ≤ drift)

end Remembered

/-- What is remembered of one pair. -/
structure PairMemory (α : Type) where
  /-- The number of contacts that are remembered. -/
  capacity : Nat
  contacts : List (Remembered α)
  /-- The pair was updated since the last maintenance. -/
  active : Bool
  /-- The number of maintenances since the pair became idle, in 32 bits. -/
  idle : UInt32
  deriving Inhabited

/-- The state of an update: remembered contacts, each with whether a new contact has it, and the
next identity. -/
structure Absorbing (α : Type) where
  slots : List (Remembered α × Bool)
  nextId : ContactId

namespace Absorbing

variable {α : Type} [Scalar α]

/-- The distances of the slots at the given places from a point. -/
def distances (s : Absorbing α) (p : Vec3 α) (eligible : Nat → Remembered α × Bool → Bool) :
    List (Nat × α) :=
  s.slots.zipIdx.filterMap fun slot =>
    if eligible slot.2 slot.1 then some (slot.2, slot.1.1.distanceTo p) else none

/-- The nearest eligible slot, the first one of several, with its distance. -/
def nearest? (s : Absorbing α) (p : Vec3 α) (eligible : Nat → Remembered α × Bool → Bool) :
    Option (Nat × α) :=
  Scalar.firstMinBy? Prod.snd (s.distances p eligible)

/-- A new contact takes over the identity at a place. -/
def takeOver (s : Absorbing α) (poses : PosePair α) (place : Nat) (c : Contact α) : Absorbing α :=
  { s with slots := s.slots.modify place fun slot => (.ofContact poses slot.1.id c, true) }

/-- A new contact with a new identity at the end. -/
def append (s : Absorbing α) (poses : PosePair α) (c : Contact α) : Absorbing α :=
  { slots := s.slots ++ [(.ofContact poses s.nextId c, true)], nextId := s.nextId + 1 }

/-- A new contact with a new identity in place of a remembered one. -/
def overwrite (s : Absorbing α) (poses : PosePair α) (place : Nat) (c : Contact α) : Absorbing α :=
  { slots := s.slots.set place (.ofContact poses s.nextId c, true), nextId := s.nextId + 1 }

/-- The place to overwrite for a contact: the nearest one other than that of the contact which was
deepest at the start, unless it is the only one. -/
def victim? (s : Absorbing α) (deepest : Option Nat) (p : Vec3 α) : Option Nat :=
  (s.nearest? p fun place _ => some place != deepest || s.slots.length == 1).map Prod.fst

/-- What becomes of a new contact. -/
inductive Placement where
  /-- It takes over the identity at a place. -/
  | takesOver (place : Nat)
  /-- It gets a new identity at the end. -/
  | atEnd
  /-- It gets a new identity and the place of a contact that is forgotten. -/
  | replaces (place : Nat)
  /-- It is not remembered. -/
  | dropped
  deriving DecidableEq, Repr

/-- Where a new contact goes if no remembered one is near enough: to the end while there is room,
and to the place of another contact otherwise. -/
def newPlacement (s : Absorbing α) (capacity : Nat) (deepest : Option Nat) (c : Contact α) :
    Placement :=
  if s.slots.length < capacity then .atEnd
  else
    match s.victim? deepest c.position with
    | some place => .replaces place
    | none => .dropped

/-- Where a new contact goes: it takes over the identity of the nearest contact that no other new
contact has, if that is nearer than the drift. -/
def placement (s : Absorbing α) (drift : α) (capacity : Nat) (deepest : Option Nat)
    (c : Contact α) : Placement :=
  match s.nearest? c.position fun _ slot => !slot.2 with
  | some (place, distance) =>
    if distance < drift then .takesOver place else s.newPlacement capacity deepest c
  | none => s.newPlacement capacity deepest c

/-- Put a new contact where it goes. -/
def put (s : Absorbing α) (poses : PosePair α) (c : Contact α) : Placement → Absorbing α
  | .takesOver place => s.takeOver poses place c
  | .atEnd => s.append poses c
  | .replaces place => s.overwrite poses place c
  | .dropped => s

/-- Take in a new contact. -/
def absorb (poses : PosePair α) (drift : α) (capacity : Nat) (deepest : Option Nat)
    (s : Absorbing α) (c : Contact α) : Absorbing α :=
  s.put poses c (s.placement drift capacity deepest c)

end Absorbing

namespace PairMemory

variable {α : Type} [Scalar α]

/-- Nothing remembered yet. -/
def fresh (capacity : Nat) : PairMemory α := ⟨capacity, [], false, 0⟩

/-- The contacts as they are reported, seen from the lower handle or, when `swap` is set, from the
higher one. -/
def output (m : PairMemory α) (swap : Bool) : Contacts α :=
  let contacts := m.contacts.map Remembered.contact
  if swap then Contacts.flipped contacts else contacts

/-- The place of the deepest contact, the last one of several. -/
def deepestPlace? (contacts : List (Remembered α)) : Option Nat :=
  (Scalar.lastMaxBy? (fun slot => slot.1.depth) contacts.zipIdx).map Prod.snd

/-- The contacts that the geoms have not carried too far. -/
def surviving (m : PairMemory α) (poses : PosePair α) (drift : α) : List (Remembered α) :=
  m.contacts.filter (Remembered.stays poses drift)

/-- Before the first new contact: the contacts that stayed, none of them taken. -/
def start (m : PairMemory α) (poses : PosePair α) (drift : α) (nextId : ContactId) : Absorbing α :=
  ⟨(m.surviving poses drift).map fun r => (r, false), nextId⟩

/-- After new contacts, which are seen from the lower handle. -/
def absorbing (m : PairMemory α) (poses : PosePair α) (drift : α) (nextId : ContactId)
    (contacts : Contacts α) : Absorbing α :=
  contacts.foldl
    (Absorbing.absorb poses drift m.capacity (deepestPlace? (m.surviving poses drift)))
    (m.start poses drift nextId)

/-- The pair after new contacts, which are seen from the lower handle, and the next identity. -/
def update (m : PairMemory α) (poses : PosePair α) (drift : α) (nextId : ContactId)
    (contacts : Contacts α) : PairMemory α × ContactId :=
  let result := m.absorbing poses drift nextId contacts
  ({ m with contacts := result.slots.map Prod.fst, active := true, idle := 0 }, result.nextId)

/-- The pair after maintenance: an active one becomes idle, an idle one grows older. -/
def age (m : PairMemory α) : PairMemory α :=
  if m.active then { m with active := false, idle := 0 } else { m with idle := m.idle + 1 }

end PairMemory

/-! ### All pairs -/

/-- A geom that takes part in an update. -/
structure Participant (α : Type) where
  id : GeomId
  pose : Pose α
  /-- The number of contacts it wants remembered of a pair; zero leaves it to the other geom. -/
  capacity : Nat

namespace Participant

variable {α : Type} [Scalar α]

/-- The first of two geoms has the higher handle. -/
def swapped (a b : Participant α) : Bool := decide (b.id < a.id)

/-- The poses of two geoms, the lower handle first. -/
def orderedPoses (a b : Participant α) : PosePair α :=
  if swapped a b then ⟨b.pose, a.pose⟩ else ⟨a.pose, b.pose⟩

/-- Contacts of two geoms that are seen from the first, as the lower handle sees them. The other way
about it is the same. -/
def turned (a b : Participant α) (contacts : Contacts α) : Contacts α :=
  if swapped a b then Contacts.flipped contacts else contacts

end Participant

/-- What a maintenance did. -/
structure Maintenance where
  /-- The number of pairs that became idle. -/
  demoted : Nat
  /-- The number of pairs that were forgotten. -/
  removed : Nat
  deriving DecidableEq, Repr

/-- The remembered contacts of all pairs. -/
structure ContactMemory (α : Type) where
  config : MemoryConfig α
  /-- One entry for each pair, keyed by the lower and the higher handle. -/
  entries : List ((GeomId × GeomId) × PairMemory α)
  /-- The identity that is given out next. -/
  nextId : ContactId

namespace ContactMemory

variable {α : Type} [Scalar α]

/-- Nothing remembered yet. -/
def empty (config : MemoryConfig α) : ContactMemory α := ⟨config, [], 0⟩

/-- The number of pairs. -/
def size (m : ContactMemory α) : Nat := m.entries.length

/-- The number of active pairs. -/
def activeCount (m : ContactMemory α) : Nat := m.entries.countP fun e => e.2.active

/-- What is remembered under a key. -/
def get? (m : ContactMemory α) (key : GeomId × GeomId) : Option (PairMemory α) :=
  m.entries.lookup key

/-- The remembered contacts of a pair, from the first geom towards the second. -/
def contacts? (m : ContactMemory α) (a b : GeomId) : Option (Contacts α) :=
  (m.get? (orderedPair a b)).map fun pair => pair.output (decide (b < a))

/-- Forget every pair. -/
def clear (m : ContactMemory α) : ContactMemory α := { m with entries := [] }

/-- The key names a geom. -/
def involves (id : GeomId) (key : GeomId × GeomId) : Bool := key.1 == id || key.2 == id

/-- Forget the pairs of a geom. -/
def removeGeom (m : ContactMemory α) (id : GeomId) : ContactMemory α :=
  { m with entries := m.entries.filter fun e => !involves id e.1 }

/-- The entries with what is remembered under a key replaced, or added at the end. -/
def store (key : GeomId × GeomId) (pair : PairMemory α) :
    List ((GeomId × GeomId) × PairMemory α) → List ((GeomId × GeomId) × PairMemory α)
  | [] => [(key, pair)]
  | e :: rest => if e.1 = key then (key, pair) :: rest else e :: store key pair rest

/-- The number of contacts that two geoms want remembered: the smaller wish, or the only one. -/
def agreedCapacity (a b : Nat) : Nat := if a = 0 then b else if b = 0 then a else Nat.min a b

/-- What is remembered of two geoms, nothing if they are new to each other. -/
def pairOf (m : ContactMemory α) (a b : Participant α) : PairMemory α :=
  (m.get? (orderedPair a.id b.id)).getD (.fresh (agreedCapacity a.capacity b.capacity))

/-- The contacts of two geoms are not to be remembered. -/
def ignores (m : ContactMemory α) (a b : Participant α) : Bool :=
  !m.config.enabled || (a.capacity == 0 && b.capacity == 0)

/-- Merge new contacts of two geoms, seen from the first, into the memory, and report the contacts
of the pair. Where nothing is to be remembered the new contacts are reported as they are. -/
def update (m : ContactMemory α) (a b : Participant α) (contacts : Contacts α) :
    Contacts α × ContactMemory α :=
  if m.ignores a b then (contacts, m)
  else
    let updated := (m.pairOf a b).update (Participant.orderedPoses a b) m.config.drift m.nextId
      (Participant.turned a b contacts)
    (updated.1.output (Participant.swapped a b),
      { m with
        entries := store (orderedPair a.id b.id) updated.1 m.entries
        nextId := updated.2 })

/-- Pass over one entry after those behind it: a pair that was active becomes idle, and one that was
idle grows older and is forgotten when it is too old. -/
def maintainEntry (maxAge : Nat) (e : (GeomId × GeomId) × PairMemory α)
    (done : Maintenance × List ((GeomId × GeomId) × PairMemory α)) :
    Maintenance × List ((GeomId × GeomId) × PairMemory α) :=
  let aged := e.2.age
  if e.2.active then ({ done.1 with demoted := done.1.demoted + 1 }, (e.1, aged) :: done.2)
  else if aged.idle.toNat ≤ maxAge then (done.1, (e.1, aged) :: done.2)
  else ({ done.1 with removed := done.1.removed + 1 }, done.2)

/-- Active pairs become idle, idle pairs grow older, and those that are too old are forgotten. -/
def maintain (m : ContactMemory α) : Maintenance × ContactMemory α :=
  let done := m.entries.foldr (maintainEntry m.config.maxAge) (⟨0, 0⟩, [])
  (done.1, { m with entries := done.2 })

end ContactMemory

end Collision
