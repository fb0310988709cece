import Collision.Config
import Collision.Pair.Placed
import Collision.Portal.Basic

/-!
# Portal refinement

The test for any two bodies with farthest points. A first portal is found, it is refined until it
lies beyond the origin or cannot get there, and for a contact it is pushed out to the boundary of
the difference body. A search that uses up its rounds reports no overlap.

Main definitions.

* `Discovery` and `Refinement` are the outcomes of the first two searches, running out of rounds
  kept apart from having found the bodies separate.
* `Portal.discover`, `Portal.refine` and `Portal.pushOut` are the searches; each takes the number of
  rounds it may use.
* `DifferenceBody.holdsOrigin` is the verdict and `DifferenceBody.penetration?` the contact;
  `Placed` bodies have `Placed.generallyOverlaps` and `Placed.generalContact?`.
-/

set_option autoImplicit false
set_option relaxedAutoImplicit false

namespace Collision

variable {α : Type} [Scalar α]

/-- The outcome of the search for a first portal. -/
inductive Discovery (α : Type) where
  /-- The difference body misses the origin. -/
  | separated
  /-- The rounds were used up. -/
  | exhausted
  /-- The origin is a farthest point. -/
  | touching
  /-- The origin lies on the segment from the interior point to the farthest point `v1`. -/
  | segment (v1 : DifferencePoint α)
  | portal (p : Portal α)

/-- The outcome of refining a portal. -/
inductive Refinement (α : Type) where
  /-- The difference body misses the origin, or holds it by no more than the tolerance. -/
  | separated
  /-- The rounds were used up. -/
  | exhausted
  /-- The portal lies beyond the origin. -/
  | encloses (p : Portal α)

namespace Portal

/-- The point is strictly ahead of the origin along a direction. -/
def isAhead (p : DifferencePoint α) (direction : Vec3 α) : Bool :=
  let distance := p.v.dot direction
  !(isTiny distance || decide (distance < 0))

/-- The value is below zero by more than what counts as zero. -/
def isClearlyNegative (value : α) : Bool := decide (value < 0) && !isTiny value

/-! ### Discovery -/

/-- Turn the triangle `v0 v1 v2` about the ray until its farthest point completes a portal. -/
def turnToRay (d : DifferenceBody α) (v0 : DifferencePoint α) :
    Nat → DifferencePoint α → DifferencePoint α → Vec3 α → Discovery α
  | 0, _, _, _ => .exhausted
  | rounds + 1, v1, v2, direction =>
    let v3 := d.support direction
    if !isAhead v3 direction then .separated
    else if isClearlyNegative ((v1.v.cross v3.v).dot v0.v) then
      turnToRay d v0 rounds v1 v3 (unitNormal v0.v v1.v v3.v)
    else if isClearlyNegative ((v3.v.cross v2.v).dot v0.v) then
      turnToRay d v0 rounds v3 v2 (unitNormal v0.v v3.v v2.v)
    else .portal ⟨v0, v1, v2, v3⟩

/-- The interior point of the difference body, moved off the origin. -/
def interiorPoint (d : DifferenceBody α) : DifferencePoint α :=
  let c := d.center
  if isTinyVector c.v then { c with v := { c.v with x := c.v.x + 10 * zeroWidth } } else c

/-- Start from the triangle `v0 v1 v2`, its normal looking away from the interior point. -/
def startTurning (d : DifferenceBody α) (rounds : Nat) (v0 v1 v2 : DifferencePoint α) :
    Discovery α :=
  let normal := unitNormal v0.v v1.v v2.v
  if 0 < normal.dot v0.v then turnToRay d v0 rounds v2 v1 (-normal)
  else turnToRay d v0 rounds v1 v2 normal

/-- The search for a first portal. -/
def discover (d : DifferenceBody α) (rounds : Nat) : Discovery α :=
  let v0 := interiorPoint d
  let towards := -v0.v.normalize
  let v1 := d.support towards
  if !isAhead v1 towards then .separated
  else
    let aside := v0.v.cross v1.v
    if isTiny aside.normSq then if isTinyVector v1.v then .touching else .segment v1
    else
      let aside := aside.normalize
      let v2 := d.support aside
      if !isAhead v2 aside then .separated else startTurning d rounds v0 v1 v2

/-! ### Refinement -/

/-- Expand the portal until it lies beyond the origin or cannot get there. -/
def refine (d : DifferenceBody α) (tolerance : α) : Nat → Portal α → Refinement α
  | 0, _ => .exhausted
  | rounds + 1, p =>
    let direction := p.direction
    if p.enclosesOrigin direction then .encloses p
    else
      let v4 := d.support direction
      let distance := v4.v.dot direction
      let canReach := isTiny distance || decide (0 < distance)
      if !canReach || p.reachesTolerance v4 direction tolerance then .separated
      else refine d tolerance rounds (p.expand v4)

/-- Expand the portal to the boundary; the answer says whether it got there. -/
def pushOut (d : DifferenceBody α) (tolerance : α) : Nat → Portal α → Portal α × Bool
  | 0, p => (p, p.reachesTolerance (d.support p.direction) p.direction tolerance)
  | rounds + 1, p =>
    let direction := p.direction
    let v4 := d.support direction
    if p.reachesTolerance v4 direction tolerance then (p, true)
    else pushOut d tolerance rounds (p.expand v4)

/-- The contact that a portal at the boundary names: along the point nearest to the origin. -/
def contact? (p : Portal α) : Option (Contact α) :=
  let nearest := (Triangle.mk p.v1.v p.v2.v p.v3.v).closestPoint Vec3.zero
  (nearest.unit? zeroWidth).map fun normal =>
    { position := p.contactPosition p.direction, normal, depth := nearest.norm }

end Portal

namespace DifferenceBody

/-- The difference body of two placed shapes. -/
def ofPlaced (a b : Placed α) : DifferenceBody α :=
  { center := DifferencePoint.ofPoints a.center b.center
    support := fun direction =>
      DifferencePoint.ofPoints (a.supportPoint direction) (b.supportPoint (-direction)) }

/-- The difference body holds the origin. -/
def holdsOrigin (d : DifferenceBody α) (config : PortalConfig α) : Bool :=
  match Portal.discover d config.iterations with
  | .separated | .exhausted | .touching => false
  | .segment _ => true
  | .portal p =>
    match p.refine d config.tolerance config.iterations with
    | .separated | .exhausted => false
    | .encloses _ => true

/-- The contact of a difference body that holds the origin. -/
def penetration? (d : DifferenceBody α) (config : PortalConfig α) : Option (Contact α) :=
  match Portal.discover d config.iterations with
  | .separated | .exhausted | .touching => none
  | .segment v1 =>
    (v1.v.unit? Portal.zeroWidth).map fun normal =>
      { position := v1.midpoint, normal, depth := v1.v.norm }
  | .portal p =>
    match p.refine d config.tolerance config.iterations with
    | .separated | .exhausted => none
    | .encloses p => (p.pushOut d config.tolerance config.iterations).1.contact?

end DifferenceBody

namespace Placed

/-- Portal refinement finds the bodies overlapping. -/
def generallyOverlaps (a b : Placed α) (config : PortalConfig α) : Bool :=
  (DifferenceBody.ofPlaced a b).holdsOrigin config

/-- The contact of the bodies by portal refinement. -/
def generalContact? (a b : Placed α) (config : PortalConfig α) : Option (Contact α) :=
  (DifferenceBody.ofPlaced a b).penetration? config

end Placed

end Collision
