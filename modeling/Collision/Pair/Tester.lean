import Collision.Pair.HalfSpace
import Collision.Pair.Round
import Collision.Pair.SeparatingAxis
import Collision.Portal.Search

/-!
# Pair tests

Whether two placed shapes overlap, and where they touch. Offsets are traded for poses first. Then an
override for the kinds of the two shapes decides; then surfaces break up into their triangles; then
a closed form is used where there is one, and portal refinement where there is none. Shapes that
only touch do not overlap.

Main definitions.

* `OverrideTable` holds a function for ordered pairs of kinds; it serves the reversed pair too, with
  its arguments swapped, unless that pair has a function of its own.
* `PairConfig` are the settings that pair tests need, `PairTester` those settings with two tables.
* `PairTester.collide` is the verdict, `PairTester.separate` are the contacts, with normals from the
  first shape towards the second.
* `PairConfig.collideGeneral` and `PairConfig.separateGeneral` always use portal refinement.
-/

set_option autoImplicit false
set_option relaxedAutoImplicit false

namespace Collision

/-! ### Overrides -/

/-- Functions for ordered pairs of kinds. -/
structure OverrideTable (φ : Type) where
  entries : List ((ShapeKind × ShapeKind) × φ)

namespace OverrideTable

variable {φ : Type}

/-- No functions. -/
def empty : OverrideTable φ := ⟨[]⟩

/-- The function for an ordered pair of kinds. -/
def get? (t : OverrideTable φ) (a b : ShapeKind) : Option φ := t.entries.lookup (a, b)

/-- The table without a function for an ordered pair of kinds. -/
def erase (t : OverrideTable φ) (a b : ShapeKind) : OverrideTable φ :=
  ⟨t.entries.filter fun entry => entry.1 != (a, b)⟩

/-- The table with a function for an ordered pair of kinds. -/
def insert (t : OverrideTable φ) (a b : ShapeKind) (f : φ) : OverrideTable φ :=
  ⟨((a, b), f) :: (t.erase a b).entries⟩

end OverrideTable

/-- The settings that pair tests need. -/
structure PairConfig (α : Type) where
  portal : PortalConfig α
  /-- The number of contacts that a pair may report. -/
  contacts : Nat

/-- A replacement for the verdict of a pair. -/
abbrev CollideOverride (α : Type) [Scalar α] := PairConfig α → Placed α → Placed α → Bool

/-- A replacement for the contacts of a pair. -/
abbrev SeparateOverride (α : Type) [Scalar α] := PairConfig α → Placed α → Placed α → Contacts α

/-- The settings and replacements with which pairs are tested. -/
structure PairTester (α : Type) [Scalar α] where
  config : PairConfig α
  colliders : OverrideTable (CollideOverride α) := .empty
  separators : OverrideTable (SeparateOverride α) := .empty

variable {α : Type} [Scalar α]

/-! ### Portal refinement for any pair -/

namespace PairConfig

/-- Two triangles that the normal of one of them separates. -/
def separatedByFaces (a b : Placed α) : Bool :=
  match a.triangle?, b.triangle? with
  | some t, some u => Polytope.separatedByFaces (.triangle t) (.triangle u)
  | _, _ => false

/-- The verdict of portal refinement; triangles that a face normal separates are not tried. -/
def collideGeneral (c : PairConfig α) (a b : Placed α) : Bool :=
  !separatedByFaces a b && a.generallyOverlaps b c.portal

/-- The contacts of portal refinement. -/
def separateGeneral (c : PairConfig α) (a b : Placed α) : Contacts α :=
  (a.generalContact? b c.portal).toList

/-! ### Closed forms -/

/-- The verdict for two primitives that are not planes. -/
def collideSolids (c : PairConfig α) (a : Primitive α) (poseA : Pose α) (b : Primitive α)
    (poseB : Pose α) : Bool :=
  match a, b with
  | .sphere r1, .sphere r2 => decide ((poseB.position - poseA.position).norm < r1 + r2)
  | .box ha, .box hb => Polytope.overlap (.box ha poseA) (.box hb poseB)
  | .box half, .triangle t | .box half, .meshTriangle t =>
    Polytope.overlap (.box half poseA) (.triangle (t.placed poseB))
  | .triangle t, .box half | .meshTriangle t, .box half =>
    Polytope.overlap (.box half poseB) (.triangle (t.placed poseA))
  | .triangle t, .triangle u | .triangle t, .meshTriangle u | .meshTriangle t, .triangle u
  | .meshTriangle t, .meshTriangle u =>
    Polytope.overlap (.triangle (t.placed poseA)) (.triangle (u.placed poseB))
  | _, _ =>
    match Round.contacts? a poseA b poseB with
    | some contacts => !contacts.isEmpty
    | none => c.collideGeneral (.ofPrimitive a poseA) (.ofPrimitive b poseB)

/-- The verdict for two primitives. -/
def collidePrimitives (c : PairConfig α) (a : Primitive α) (poseA : Pose α) (b : Primitive α)
    (poseB : Pose α) : Bool :=
  match a, b with
  | .plane, .plane => HalfSpace.overlap (.ofPose poseA) (.ofPose poseB)
  | .plane, _ => !((HalfSpace.ofPose poseA).deepestPoint (.ofPrimitive b poseB)).isEmpty
  | _, .plane => !((HalfSpace.ofPose poseB).deepestPoint (.ofPrimitive a poseA)).isEmpty
  | _, _ => c.collideSolids a poseA b poseB

/-- The contacts of a plane with a primitive; two planes have none. -/
def separatePlane (c : PairConfig α) (plane : Pose α) (b : Primitive α) (poseB : Pose α) :
    Contacts α :=
  let h := HalfSpace.ofPose plane
  match b with
  | .plane => []
  | .sphere radius => h.sphere radius poseB
  | .box half => h.box half poseB c.contacts
  | .capsule radius halfHeight => h.capsule radius halfHeight poseB c.contacts
  | .triangle t | .meshTriangle t => h.triangle (t.placed poseB)
  | .cylinder .. | .convexHull .. => h.deepestPoint (.ofPrimitive b poseB)

/-- The contacts of two primitives. -/
def separatePrimitives (c : PairConfig α) (a : Primitive α) (poseA : Pose α) (b : Primitive α)
    (poseB : Pose α) : Contacts α :=
  match a, b with
  | .plane, _ => c.separatePlane poseA b poseB
  | _, .plane => Contacts.flipped (c.separatePlane poseB a poseA)
  | _, _ =>
    match Round.contacts? a poseA b poseB with
    | some contacts => contacts
    | none => c.separateGeneral (.ofPrimitive a poseA) (.ofPrimitive b poseB)

end PairConfig

namespace PairTester

/-! ### Verdicts -/

/-- The verdict of an override for two bodies, of the pair itself or of the reversed pair. -/
def overriddenCollide? (t : PairTester α) (a b : Placed α) : Option Bool :=
  match t.colliders.get? a.kind b.kind with
  | some f => some (f t.config a b)
  | none => (t.colliders.get? b.kind a.kind).map fun f => f t.config b a

/-- The verdict for two bodies without offset that are not surfaces. -/
def collideBare (t : PairTester α) (a b : Placed α) : Bool :=
  match t.overriddenCollide? a b with
  | some verdict => verdict
  | none =>
    match a.shape, b.shape with
    | .part p, .part q => t.config.collidePrimitives p.primitive a.pose q.primitive b.pose
    | _, _ => false

/-- The verdict for a body that is not a surface against any body, both without offset. -/
def collideWithSurface (t : PairTester α) (a b : Placed α) : Bool :=
  match b.surfaceParts? with
  | none => t.collideBare a b
  | some parts =>
    match t.overriddenCollide? a b with
    | some verdict => verdict
    | none => parts.any fun part => t.collideBare a part

/-- The verdict for two bodies without offset. -/
def collideRebased (t : PairTester α) (a b : Placed α) : Bool :=
  match a.surfaceParts? with
  | none => t.collideWithSurface a b
  | some parts =>
    match t.overriddenCollide? a b with
    | some verdict => verdict
    | none => parts.any fun part => t.collideWithSurface part b

/-- The two bodies overlap. -/
def collide (t : PairTester α) (a b : Placed α) : Bool := t.collideRebased a.rebase b.rebase

/-! ### Contacts -/

/-- The contacts of an override for two bodies, of the pair itself or of the reversed pair. -/
def overriddenSeparate? (t : PairTester α) (a b : Placed α) : Option (Contacts α) :=
  match t.separators.get? a.kind b.kind with
  | some f => some (f t.config a b)
  | none => (t.separators.get? b.kind a.kind).map fun f => Contacts.flipped (f t.config b a)

/-- The contacts of two bodies without offset that are not surfaces. -/
def separateBare (t : PairTester α) (a b : Placed α) : Contacts α :=
  match t.overriddenSeparate? a b with
  | some contacts => contacts
  | none =>
    match a.shape, b.shape with
    | .part p, .part q => t.config.separatePrimitives p.primitive a.pose q.primitive b.pose
    | _, _ => []

/-- The contacts of a body that is not a surface with any body, both without offset. -/
def separateWithSurface (t : PairTester α) (a b : Placed α) : Contacts α :=
  match b.surfaceParts? with
  | none => t.separateBare a b
  | some parts =>
    match t.overriddenSeparate? a b with
    | some contacts => contacts
    | none => parts.flatMap fun part => t.separateBare a part

/-- The contacts of two bodies without offset. -/
def separateRebased (t : PairTester α) (a b : Placed α) : Contacts α :=
  match a.surfaceParts? with
  | none => t.separateWithSurface a b
  | some parts =>
    match t.overriddenSeparate? a b with
    | some contacts => contacts
    | none => parts.flatMap fun part => t.separateWithSurface part b

/-- The contacts of the two bodies, as many as the settings allow. -/
def separate (t : PairTester α) (a b : Placed α) : Contacts α :=
  Contacts.limit t.config.contacts (t.separateRebased a.rebase b.rebase)

end PairTester

end Collision
