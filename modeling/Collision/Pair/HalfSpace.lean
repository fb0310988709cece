import Collision.Contact
import Collision.Pair.Placed

/-!
# Contacts with a half-space

A plane is the half-space below the xy plane of its frame, and its outward normal is the z axis. A
body touches it where it reaches strictly below the plane.

Main definitions.

* `HalfSpace` is a point of the surface with the outward normal, `HalfSpace.height` the signed
  distance of a point.
* `HalfSpace.sphere`, `HalfSpace.box`, `HalfSpace.capsule`, `HalfSpace.triangle` give the contacts
  of these bodies, `HalfSpace.deepestPoint` that of any body with a farthest point.
* `HalfSpace.overlap` decides whether two half-spaces meet.
-/

set_option autoImplicit false
set_option relaxedAutoImplicit false

namespace Collision

/-- A half-space by a point of its surface and its outward normal. -/
structure HalfSpace (α : Type) where
  point : Vec3 α
  normal : Vec3 α

namespace HalfSpace

variable {α : Type} [Scalar α]

/-- The half-space of a placed plane. -/
def ofPose (pose : Pose α) : HalfSpace α := ⟨pose.position, pose.axis 2⟩

/-- The signed distance of a point from the surface, negative below it. -/
def height (h : HalfSpace α) (p : Vec3 α) : α := h.normal.dot (p - h.point)

/-- A sphere: the contact lies midway between its lowest point and the surface. -/
def sphere (h : HalfSpace α) (radius : α) (pose : Pose α) : Contacts α :=
  let height := h.height pose.position
  if radius ≤ height then []
  else
    let depth := radius - height
    [{ position := pose.position - h.normal * (radius - depth * 0.5), normal := h.normal, depth }]

/-- The point at which an edge crosses the surface, if its ends lie on different sides. -/
def crossing? (h : HalfSpace α) (a b : Vec3 α) : Option (Vec3 α) :=
  let ha := h.height a
  let hb := h.height b
  if decide (ha < 0) = decide (hb < 0) then none else some (a + (b - a) * (ha / (ha - hb)))

/-- The corners of a placed box strictly below the surface. -/
def cornersBelow (h : HalfSpace α) (half : Vec3 α) (pose : Pose α) : List (Vec3 α) :=
  ((BoxCorners.all half).map pose.transformPoint).filter fun c => decide (h.height c < 0)

/-- The points at which the edges of a placed box cross the surface. -/
def edgeCrossings (h : HalfSpace α) (half : Vec3 α) (pose : Pose α) : List (Vec3 α) :=
  let corner := fun n => pose.transformPoint (BoxCorners.corner half n)
  BoxCorners.edges.filterMap fun edge => h.crossing? (corner edge.1) (corner edge.2)

/-- The height of the lowest corner of a placed box. -/
def lowestCorner? (h : HalfSpace α) (half : Vec3 α) (pose : Pose α) : Option α :=
  Scalar.minimum? ((BoxCorners.all half).map fun c => h.height (pose.transformPoint c))

/-- A box: contacts where its edges cross the surface, or at its corners when all of them are below,
each as deep as the lowest corner; more points than `count` are replaced by the mean of the corners
below and the crossings, which are some then. -/
def box (h : HalfSpace α) (half : Vec3 α) (pose : Pose α) (count : Nat) : Contacts α :=
  match h.lowestCorner? half pose with
  | none => []
  | some lowest =>
    if 0 ≤ lowest then []
    else
      let below := h.cornersBelow half pose
      let crossings := h.edgeCrossings half pose
      let points := if crossings.isEmpty then below else crossings
      let contactAt := fun p => { position := p, normal := h.normal, depth := -lowest }
      if points.length ≤ count then points.map contactAt
      else
        let all := below ++ crossings
        [contactAt (Vec3.sum all / (Scalar.ofNat all.length : α))]

/-- The contact below an end of the core of a capsule. -/
def capsuleEnd (h : HalfSpace α) (radius : α) (p : Vec3 α) : Contact α :=
  { position := p - h.normal * radius, normal := h.normal, depth := radius - h.height p }

/-- A capsule: a contact at the lower end of its core, and one at the other end if that is below too
and more than one is asked for. -/
def capsule (h : HalfSpace α) (radius halfHeight : α) (pose : Pose α) (count : Nat) : Contacts α :=
  let axis := pose.axis 2
  let side : α := if 0 < h.normal.dot axis then -1 else 1
  let low := h.capsuleEnd radius (pose.position + axis * (halfHeight * side))
  let high := h.capsuleEnd radius (pose.position - axis * (halfHeight * side))
  if low.depth ≤ 0 then []
  else if 1 < count ∧ 0 < high.depth then [low, high]
  else [low]

/-- A triangle where it stands: a contact at every corner strictly below the surface. -/
def triangle (h : HalfSpace α) (t : Triangle α) : Contacts α :=
  t.corners.filterMap fun p =>
    let depth := -h.height p
    if 0 < depth then some { position := p, normal := h.normal, depth } else none

/-- Any body: a contact at a point farthest below. -/
def deepestPoint (h : HalfSpace α) (body : Placed α) : Contacts α :=
  let p := body.supportPoint (-h.normal)
  let depth := -h.height p
  if depth ≤ 0 then [] else [{ position := p, normal := h.normal, depth }]

/-- Two half-spaces meet unless they face away from each other. -/
def overlap (a b : HalfSpace α) : Bool :=
  !decide ((a.normal + b.normal).normSq < 1e-18) || decide (0 < a.normal.dot (a.point - b.point))

end HalfSpace

end Collision
