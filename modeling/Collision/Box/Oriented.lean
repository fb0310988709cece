import Collision.Box.Corners
import Collision.Space.Interval

/-!
# Oriented boxes

Boxes with axes of their own, and the test that separates two of them.

Main definitions.

* `OrientedBox` carries the radius of the sphere around its centre, `OrientedBox.ofHalfLengths`
  computes it.
* `OrientedBox.aroundPoints` is the tight box of given axes around points, and
  `OrientedBox.aroundTriangle` chooses the axes by the longest edge and the normal of a triangle.
* `OrientedBox.disjoint` first compares the distance of the centres with the radii, then tries the
  fifteen axes of the separating axis theorem; it answers true only where a plane separates the
  boxes.
-/

set_option autoImplicit false
set_option relaxedAutoImplicit false

namespace Collision

/-- A box with its own axes. -/
structure OrientedBox (α : Type) where
  center : Vec3 α
  /-- The axes of the box as columns. -/
  axes : Mat3 α
  /-- The half lengths along the axes. -/
  half : Vec3 α
  /-- The radius of the sphere around the centre that holds the box. -/
  radius : α
  deriving Inhabited

namespace OrientedBox

variable {α : Type} [Scalar α]

/-- The box of a centre, axes and half lengths. -/
def ofHalfLengths (center : Vec3 α) (axes : Mat3 α) (half : Vec3 α) : OrientedBox α :=
  ⟨center, axes, half, half.norm⟩

/-- The box along the coordinate axes. -/
def aligned (center half : Vec3 α) : OrientedBox α := ofHalfLengths center Mat3.identity half

/-- The box of given axes between two corners that are read in these axes. -/
def ofCorners (axes : Mat3 α) (lo hi : Vec3 α) : OrientedBox α :=
  ofHalfLengths (axes.mulVec ((lo + hi) * (0.5 : α))) axes ((hi - lo) * (0.5 : α))

/-- The box of given axes around nothing. -/
def empty (axes : Mat3 α) : OrientedBox α := ofHalfLengths Vec3.zero axes Vec3.zero

/-- The tight box of given axes around points. -/
def aroundPoints (axes : Mat3 α) : List (Vec3 α) → OrientedBox α
  | [] => empty axes
  | p :: rest =>
    let first := axes.transposeMulVec p
    let others := rest.map axes.transposeMulVec
    ofCorners axes (others.foldl Vec3.lesser first) (others.foldl Vec3.greater first)

/-- Vectors up to this length give no axis. -/
def shortestAxis : α := 1e-12

/-- The axes for a triangle: the first along its longest edge, the third along its normal; the
coordinate axes if an edge or the normal is too short. -/
def triangleAxes (t : Triangle α) : Mat3 α :=
  let longest := (Scalar.lastMaxBy? Vec3.normSq t.edges).getD Vec3.zero
  match longest.unit? shortestAxis, t.faceAxis.unit? shortestAxis with
  | some e, some n => ⟨e, n.cross e, n⟩
  | _, _ => Mat3.identity

/-- The box around a triangle. -/
def aroundTriangle (t : Triangle α) : OrientedBox α := aroundPoints (triangleAxes t) t.corners

/-- The box moved by a pose. -/
def placed (b : OrientedBox α) (pose : Pose α) : OrientedBox α :=
  { center := pose.transformPoint b.center
    axes := pose.matrix * b.axes
    half := b.half
    radius := b.radius }

/-- The interval that the box covers on an axis. -/
def project (b : OrientedBox α) (axis : Vec3 α) : Interval α :=
  Interval.around (b.center.dot axis) ((b.axes.transposeMulVec axis).abs.dot b.half)

/-- The point lies in the box, up to `tolerance` along each axis. -/
def contains (b : OrientedBox α) (p : Vec3 α) (tolerance : α) : Bool :=
  let distances := (b.axes.transposeMulVec (p - b.center)).abs
  [0, 1, 2].all fun i => decide (distances.get i ≤ b.half.get i + tolerance)

/-- The eight corners. -/
def corners (b : OrientedBox α) : List (Vec3 α) :=
  (BoxCorners.all b.half).map fun p => b.center + b.axes.mulVec p

/-- The volume. -/
def volume (b : OrientedBox α) : α := 8 * b.half.x * b.half.y * b.half.z

/-! ### Separation -/

/-- What is added to the absolute entries of the relative rotation, so that axes that are nearly
parallel do not separate. -/
def rotationPadding : α := 1e-9

/-- A box as seen from another one: the half lengths of both, the axes of the second one as columns
in the frame of the first, and its centre there. -/
structure RelativeBoxes (α : Type) where
  first : Vec3 α
  second : Vec3 α
  rotation : Mat3 α
  offset : Vec3 α

namespace RelativeBoxes

/-- The absolute entries of the relative rotation, padded. -/
def reach (b : RelativeBoxes α) : Mat3 α :=
  b.rotation.mapCols fun c => c.map fun entry => Scalar.abs entry + rotationPadding

/-- The axis `i` of the first box separates the boxes. -/
def separatedByFirst (b : RelativeBoxes α) (i : Fin 3) : Bool :=
  decide (b.first.get i + b.second.dot (b.reach.row i) < Scalar.abs (b.offset.get i))

/-- The axis `j` of the second box separates the boxes. -/
def separatedBySecond (b : RelativeBoxes α) (j : Fin 3) : Bool :=
  decide (b.first.dot (b.reach.col j) + b.second.get j <
    Scalar.abs (b.offset.dot (b.rotation.col j)))

/-- The product of the axis `i` of the first box by the axis `j` of the second separates the
boxes. -/
def separatedByEdges (b : RelativeBoxes α) (i j : Fin 3) : Bool :=
  let distance := Scalar.abs (b.offset.get (i + 2) * b.rotation.entry (i + 1) j -
    b.offset.get (i + 1) * b.rotation.entry (i + 2) j)
  let first := b.first.get (i + 1) * b.reach.entry (i + 2) j +
    b.first.get (i + 2) * b.reach.entry (i + 1) j
  let second := b.second.get (j + 1) * b.reach.entry i (j + 2) +
    b.second.get (j + 2) * b.reach.entry i (j + 1)
  decide (first + second < distance)

/-- One of the fifteen axes separates the boxes. -/
def separated (b : RelativeBoxes α) : Bool :=
  [0, 1, 2].any b.separatedByFirst || [0, 1, 2].any b.separatedBySecond ||
    [0, 1, 2].any fun i => [0, 1, 2].any fun j => b.separatedByEdges i j

end RelativeBoxes

/-- A plane separates the box `a` placed at `poseA` from the box `b` placed at `poseB`. The answer
false says only that no such plane was found. -/
def disjoint (a : OrientedBox α) (poseA : Pose α) (b : OrientedBox α) (poseB : Pose α) : Bool :=
  let offset := poseB.transformPoint b.center - poseA.transformPoint a.center
  let reach := a.radius + b.radius
  if reach * reach < offset.normSq then true
  else
    let axesA := poseA.matrix * a.axes
    let axesB := poseB.matrix * b.axes
    RelativeBoxes.separated
      { first := a.half
        second := b.half
        rotation := axesB.mapCols axesA.transposeMulVec
        offset := axesA.transposeMulVec offset }

end OrientedBox

end Collision
