import Collision.Space.Vector

/-!
# Matrices

Three by three matrices, held by their columns: a frame is the matrix whose columns are its axes.

Main definitions.

* `Mat3` with the product of matrices, `Mat3.mulVec`, and `Mat3.transposeMulVec`, which reads a
  vector in the coordinates of a frame.
* `Mat3.outer` is the product of a column by a row; `Mat3.trace` and `Mat3.identity` complete what
  second moments need.
* `Mat3.rotationAbout` turns about an axis, `Mat3.ofEuler` about the three coordinate axes in turn.
-/

set_option autoImplicit false
set_option relaxedAutoImplicit false

namespace Collision

/-- A matrix given by its columns. -/
structure Mat3 (α : Type) where
  col0 : Vec3 α
  col1 : Vec3 α
  col2 : Vec3 α
  deriving Inhabited

namespace Mat3

variable {α : Type}

/-- The column of an index. -/
def col (m : Mat3 α) : Fin 3 → Vec3 α
  | 0 => m.col0
  | 1 => m.col1
  | 2 => m.col2

/-- The entry of a row and a column. -/
def entry (m : Mat3 α) (i j : Fin 3) : α := (m.col j).get i

/-- The row of an index. -/
def row (m : Mat3 α) (i : Fin 3) : Vec3 α := ⟨m.entry i 0, m.entry i 1, m.entry i 2⟩

/-- The matrix of the given rows. -/
def ofRows (r0 r1 r2 : Vec3 α) : Mat3 α :=
  ⟨⟨r0.x, r1.x, r2.x⟩, ⟨r0.y, r1.y, r2.y⟩, ⟨r0.z, r1.z, r2.z⟩⟩

/-- The matrix with rows and columns exchanged. -/
def transpose (m : Mat3 α) : Mat3 α := ofRows m.col0 m.col1 m.col2

/-- The matrix whose columns are images of the columns. -/
def mapCols (f : Vec3 α → Vec3 α) (m : Mat3 α) : Mat3 α := ⟨f m.col0, f m.col1, f m.col2⟩

/-- The list of all entries, column by column. -/
def entries (m : Mat3 α) : List α :=
  [m.col0.x, m.col0.y, m.col0.z, m.col1.x, m.col1.y, m.col1.z, m.col2.x, m.col2.y, m.col2.z]

variable [Scalar α]

instance : Add (Mat3 α) := ⟨fun m n => ⟨m.col0 + n.col0, m.col1 + n.col1, m.col2 + n.col2⟩⟩

instance : Sub (Mat3 α) := ⟨fun m n => ⟨m.col0 - n.col0, m.col1 - n.col1, m.col2 - n.col2⟩⟩

instance : HMul (Mat3 α) α (Mat3 α) := ⟨fun m s => m.mapCols (· * s)⟩

instance : HDiv (Mat3 α) α (Mat3 α) := ⟨fun m s => m.mapCols (· / s)⟩

/-- The zero matrix. -/
def zero : Mat3 α := ⟨Vec3.zero, Vec3.zero, Vec3.zero⟩

/-- The frame of the coordinate axes. -/
def identity : Mat3 α := ⟨Vec3.axis 0, Vec3.axis 1, Vec3.axis 2⟩

/-- The matrix applied to a vector. -/
def mulVec (m : Mat3 α) (v : Vec3 α) : Vec3 α :=
  ⟨(m.row 0).dot v, (m.row 1).dot v, (m.row 2).dot v⟩

/-- The transposed matrix applied to a vector: its coordinates in the frame of the columns. -/
def transposeMulVec (m : Mat3 α) (v : Vec3 α) : Vec3 α :=
  ⟨m.col0.dot v, m.col1.dot v, m.col2.dot v⟩

instance : Mul (Mat3 α) := ⟨fun m n => n.mapCols m.mulVec⟩

/-- The product of a column vector by a row vector. -/
def outer (v w : Vec3 α) : Mat3 α := ⟨v * w.x, v * w.y, v * w.z⟩

/-- The sum of the diagonal. -/
def trace (m : Mat3 α) : α := m.col0.x + m.col1.y + m.col2.z

/-- The determinant. -/
def det (m : Mat3 α) : α := m.col0.dot (m.col1.cross m.col2)

/-- Every entry is finite. -/
def isFinite (m : Mat3 α) : Bool := m.entries.all Scalar.isFinite

/-- The sum from left to right. -/
def sum (matrices : List (Mat3 α)) : Mat3 α := matrices.foldl (· + ·) zero

/-! ### Rotations -/

/-- The rotation by `angle` about the unit vector `u`; a zero angle gives the identity. -/
def rotationAbout (u : Vec3 α) (angle : α) : Mat3 α :=
  if Scalar.isZero angle then identity
  else
    let s := Scalar.sin angle
    let c := Scalar.cos angle
    let rest := 1 - c
    ofRows
      ⟨u.x * u.x + (1 - u.x * u.x) * c, u.x * u.y * rest - u.z * s, u.x * u.z * rest + u.y * s⟩
      ⟨u.x * u.y * rest + u.z * s, u.y * u.y + (1 - u.y * u.y) * c, u.y * u.z * rest - u.x * s⟩
      ⟨u.x * u.z * rest - u.y * s, u.y * u.z * rest + u.x * s, u.z * u.z + (1 - u.z * u.z) * c⟩

/-- The rotation by `roll` about x, then `pitch` about y, then `yaw` about z. -/
def ofEuler (roll pitch yaw : α) : Mat3 α :=
  let sr := Scalar.sin roll
  let cr := Scalar.cos roll
  let sp := Scalar.sin pitch
  let cp := Scalar.cos pitch
  let sy := Scalar.sin yaw
  let cy := Scalar.cos yaw
  ofRows
    ⟨cy * cp, cy * sp * sr - sy * cr, cy * sp * cr + sy * sr⟩
    ⟨sy * cp, sy * sp * sr + cy * cr, sy * sp * cr - cy * sr⟩
    ⟨-sp, cp * sr, cp * cr⟩

end Mat3

end Collision
