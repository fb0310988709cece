import Collision.Space.Matrix

/-!
# Poses

A pose places a local frame in its parent frame: a rotation followed by a translation. Rotations are
quaternions.

Main definitions.

* `Rotation` with `Rotation.apply`, composition `*` and `Rotation.inverse`; `Rotation.matrix` is the
  frame of the rotated coordinate axes.
* `Pose.transformPoint` and `Pose.transformVector` go from local to parent coordinates,
  `Pose.inverseTransformPoint` and `Pose.inverseTransformVector` back.
* `Pose.compose` places a pose given in local coordinates, `Pose.inverse` undoes a pose, and
  `Pose.relative` reads one pose in the frame of another.
-/

set_option autoImplicit false
set_option relaxedAutoImplicit false

namespace Collision

/-- A rotation as a quaternion with real part `w`. Rotations are the quaternions of length one, but
the length is not inspected. -/
structure Rotation (α : Type) where
  w : α
  i : α
  j : α
  k : α
  deriving Inhabited

namespace Rotation

variable {α : Type} [Scalar α]

/-- No rotation. -/
def identity : Rotation α := ⟨1, 0, 0, 0⟩

/-- The vector part. -/
def vector (q : Rotation α) : Vec3 α := ⟨q.i, q.j, q.k⟩

/-- The square of the length of the quaternion. -/
def normSq (q : Rotation α) : α := q.w * q.w + q.i * q.i + q.j * q.j + q.k * q.k

/-- The rotation by `roll` about x, then `pitch` about y, then `yaw` about z. -/
def ofEuler (roll pitch yaw : α) : Rotation α :=
  let sr := Scalar.sin (roll * (0.5 : α))
  let cr := Scalar.cos (roll * (0.5 : α))
  let sp := Scalar.sin (pitch * (0.5 : α))
  let cp := Scalar.cos (pitch * (0.5 : α))
  let sy := Scalar.sin (yaw * (0.5 : α))
  let cy := Scalar.cos (yaw * (0.5 : α))
  ⟨cr * cp * cy + sr * sp * sy, sr * cp * cy - cr * sp * sy,
    cr * sp * cy + sr * cp * sy, cr * cp * sy - sr * sp * cy⟩

/-- The rotation applied to a vector. -/
def apply (q : Rotation α) (v : Vec3 α) : Vec3 α :=
  let t := q.vector.cross v * (2 : α)
  t * q.w + q.vector.cross t + v

/-- The conjugate quaternion, which undoes the rotation. -/
def inverse (q : Rotation α) : Rotation α := ⟨q.w, -q.i, -q.j, -q.k⟩

/-- The rotation that applies the second operand first. -/
instance : Mul (Rotation α) := ⟨fun p q =>
  ⟨p.w * q.w - p.i * q.i - p.j * q.j - p.k * q.k,
    p.w * q.i + p.i * q.w + p.j * q.k - p.k * q.j,
    p.w * q.j - p.i * q.k + p.j * q.w + p.k * q.i,
    p.w * q.k + p.i * q.j - p.j * q.i + p.k * q.w⟩⟩

/-- The matrix whose columns are the rotated coordinate axes. -/
def matrix (q : Rotation α) : Mat3 α :=
  let ww := q.w * q.w
  let ii := q.i * q.i
  let jj := q.j * q.j
  let kk := q.k * q.k
  let ij := q.i * q.j * 2
  let wk := q.w * q.k * 2
  let wj := q.w * q.j * 2
  let ik := q.i * q.k * 2
  let jk := q.j * q.k * 2
  let wi := q.w * q.i * 2
  Mat3.ofRows
    ⟨ww + ii - jj - kk, ij - wk, wj + ik⟩
    ⟨wk + ij, ww - ii + jj - kk, jk - wi⟩
    ⟨ik - wj, wi + jk, ww - ii - jj + kk⟩

end Rotation

/-- Position and orientation of a local frame in its parent frame. -/
structure Pose (α : Type) where
  /-- The origin of the local frame in parent coordinates. -/
  position : Vec3 α
  /-- The orientation of the local frame. -/
  rotation : Rotation α
  deriving Inhabited

namespace Pose

variable {α : Type} [Scalar α]

/-- The pose that moves nothing. -/
def identity : Pose α := ⟨Vec3.zero, Rotation.identity⟩

/-- A translation. -/
def ofPosition (position : Vec3 α) : Pose α := ⟨position, Rotation.identity⟩

/-- The pose at `position` turned by `roll` about x, `pitch` about y and `yaw` about z. -/
def ofEuler (position : Vec3 α) (roll pitch yaw : α) : Pose α :=
  ⟨position, Rotation.ofEuler roll pitch yaw⟩

/-- The matrix whose columns are the local axes in parent coordinates. -/
def matrix (pose : Pose α) : Mat3 α := pose.rotation.matrix

/-- A local axis in parent coordinates. -/
def axis (pose : Pose α) (i : Fin 3) : Vec3 α := pose.rotation.apply (Vec3.axis i)

/-- A local point in parent coordinates. -/
def transformPoint (pose : Pose α) (p : Vec3 α) : Vec3 α := pose.position + pose.rotation.apply p

/-- A local direction in parent coordinates. -/
def transformVector (pose : Pose α) (v : Vec3 α) : Vec3 α := pose.rotation.apply v

/-- A point of the parent frame in local coordinates. -/
def inverseTransformPoint (pose : Pose α) (p : Vec3 α) : Vec3 α :=
  pose.rotation.inverse.apply (p - pose.position)

/-- A direction of the parent frame in local coordinates. -/
def inverseTransformVector (pose : Pose α) (v : Vec3 α) : Vec3 α := pose.rotation.inverse.apply v

/-- The pose `inner`, given in the frame of `outer`, placed in the parent frame of `outer`. -/
def compose (outer inner : Pose α) : Pose α :=
  ⟨outer.transformPoint inner.position, outer.rotation * inner.rotation⟩

/-- The pose that undoes a pose. -/
def inverse (pose : Pose α) : Pose α :=
  let rotation := pose.rotation.inverse
  ⟨-(rotation.apply pose.position), rotation⟩

/-- The pose `other` read in the frame of `pose`. -/
def relative (pose other : Pose α) : Pose α :=
  ⟨pose.inverseTransformPoint other.position, pose.rotation.inverse * other.rotation⟩

end Pose

end Collision
