import Collision.Config
import Collision.Shape.Surface

/-!
# Boxes fitted to shapes

The box around a list of shapes in one frame, by each of the fitting methods: every method chooses
axes, and `OrientedBox.enclosing` gives the tight box of those axes.

Main definitions.

* `OrientedBox.enclosing` projects the shapes onto given axes.
* `OrientedBox.smaller` keeps the earlier of two boxes unless the later one has less volume.
* `OrientedBox.byCalipers`, `OrientedBox.byAngleGrid` are the smallest boxes over a family of axes.
* `OrientedBox.fitted` is the box of a fitting method.
-/

set_option autoImplicit false
set_option relaxedAutoImplicit false

namespace Collision

variable {α : Type} [Scalar α]

namespace OrientedBox

/-! ### Given axes -/

/-- The interval that shapes cover together on an axis. -/
def spanOnAxis (shapes : List (Shape α)) (axis : Vec3 α) : Interval α :=
  Interval.span (shapes.map fun s => s.project axis Pose.identity)

/-- The tight box of given axes around shapes. -/
def enclosing (axes : Mat3 α) (shapes : List (Shape α)) : OrientedBox α :=
  if shapes.isEmpty then empty axes
  else
    let x := spanOnAxis shapes axes.col0
    let y := spanOnAxis shapes axes.col1
    let z := spanOnAxis shapes axes.col2
    ofCorners axes ⟨x.lo, y.lo, z.lo⟩ ⟨x.hi, y.hi, z.hi⟩

/-! ### Searches -/

/-- The second box if its volume is less, and the first one otherwise. -/
def smaller (best candidate : OrientedBox α) : OrientedBox α :=
  if candidate.volume < best.volume then candidate else best

/-- The smallest of the boxes of several axes, the first of several. -/
def smallestEnclosing (first : Mat3 α) (others : List (Mat3 α)) (shapes : List (Shape α)) :
    OrientedBox α :=
  others.foldl (fun best axes => best.smaller (enclosing axes shapes)) (enclosing first shapes)

/-- The base axes turned about the first one, in equal steps over half a turn, without the start. -/
def caliperAxes (base : Mat3 α) (rotations : Nat) : List (Mat3 α) :=
  let major := base.col0.normalize
  let steps := Nat.max rotations 1
  (List.range (steps - 1)).map fun k =>
    Mat3.rotationAbout major (Scalar.pi * Scalar.ofNat (k + 1) / Scalar.ofNat steps) * base

/-- The smallest box over the turns of the base axes about the first one. -/
def byCalipers (base : Mat3 α) (rotations : Nat) (shapes : List (Shape α)) : OrientedBox α :=
  smallestEnclosing base (caliperAxes base rotations) shapes

/-- Equally spaced angles from minus to plus a quarter turn, the given number of steps to each
side. -/
def gridAngles (steps : Nat) : List α :=
  let step : α := Scalar.pi / 2 / Scalar.ofNat steps
  (List.range (2 * steps + 1)).map fun i =>
    (Scalar.ofNat i - Scalar.ofNat steps : α) * step

/-- The frames of all Euler angles on the grid. -/
def gridAxes (rotations : Nat) : List (Mat3 α) :=
  let angles : List α := gridAngles (Nat.max rotations 1)
  angles.flatMap fun roll => angles.flatMap fun pitch => angles.map fun yaw =>
    Mat3.ofEuler roll pitch yaw

/-- The smallest box over the frames of the grid and the coordinate axes. -/
def byAngleGrid (rotations : Nat) (shapes : List (Shape α)) : OrientedBox α :=
  smallestEnclosing Mat3.identity (gridAxes rotations) shapes

/-! ### Methods -/

/-- The principal axes of the points that span shapes. -/
def pointAxes (shapes : List (Shape α)) : Mat3 α :=
  principalAxes (pointCovariance (shapes.flatMap fun s => s.hullPoints Pose.identity))

/-- The principal axes of a matrix made of the surface covariance; those of the points when there is
no surface. -/
def surfaceAxes (shapes : List (Shape α)) (ofCovariance : Mat3 α → Mat3 α) : Mat3 α :=
  match (SurfaceMoments.ofShapes shapes).covariance? with
  | some c => principalAxes (ofCovariance c)
  | none => pointAxes shapes

/-- The inertia tensor of a distribution of a given covariance. -/
def inertiaOfCovariance (c : Mat3 α) : Mat3 α :=
  (Mat3.identity : Mat3 α) * c.trace - c

/-- The box around shapes by a fitting method. -/
def fitted (method : FitMethod) (shapes : List (Shape α)) : OrientedBox α :=
  match method with
  | .covariance => enclosing (pointAxes shapes) shapes
  | .surfaceCovariance => enclosing (surfaceAxes shapes id) shapes
  | .inertia => enclosing (surfaceAxes shapes inertiaOfCovariance) shapes
  | .calipers rotations => byCalipers (pointAxes shapes) rotations shapes
  | .angleGrid rotations => byAngleGrid rotations shapes

end OrientedBox

end Collision
