import Collision.Box.Oriented
import Collision.Space.Covariance

/-!
# Boxes fitted to points

`OrientedBox.fittedToPoints` is the tight box around points along the principal axes of their
covariance.
-/

set_option autoImplicit false
set_option relaxedAutoImplicit false

namespace Collision

/-- The tight box around points along their principal axes. -/
def OrientedBox.fittedToPoints {α : Type} [Scalar α] (points : List (Vec3 α)) : OrientedBox α :=
  aroundPoints (principalAxes (pointCovariance points)) points

end Collision
