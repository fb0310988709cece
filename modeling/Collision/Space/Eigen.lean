import Collision.Space.Matrix

/-!
# Eigenvectors of symmetric matrices

Eigenvalues and eigenvectors of a symmetric three by three matrix: a reduction to tridiagonal form
by two reflections, then implicitly shifted rotations until the entries beside the diagonal are
negligible. The search stands for a library routine: it runs, but no theorem reads its body. What is
proved of fitted boxes goes through `OrientedBox.fittedBy_eq`, which holds for any search in its
place (`EigenSearch`).

Main definitions.

* `Tridiagonal` is the state of the iteration: the diagonal, the two entries beside it, and the
  basis found so far, one column to a diagonal entry.
* `Tridiagonal.ofSymmetric` is the reduction; it reads the entries on and below the diagonal.
* `Tridiagonal.block` is the part still to be worked on, `Tridiagonal.step` works on it, and
  `Tridiagonal.iterate` repeats that.
* `symmetricEigen` gives the eigenvalues, in no order, with the eigenvectors as columns.
-/

set_option autoImplicit false
set_option relaxedAutoImplicit false

namespace Collision

variable {α : Type} [Scalar α]

/-- The distance from one to the next double. -/
def unitRoundoff : α := Scalar.ofNat 1 / Scalar.ofNat (2 ^ (52 : Nat))

/-- Zero counts as positive here: `1`, or `-1` for what is below zero. -/
def signOrOne (x : α) : α := if (0 : α) ≤ x then 1 else -1

/-- A diagonal with the two entries beside it, and the basis in which it stands. -/
structure Tridiagonal (α : Type) where
  diagonal : Vec3 α
  upper : α
  lower : α
  basis : Mat3 α

/-- A reflection that sends a column of one or two entries to its first axis. -/
structure Reflection (α : Type) where
  first : α
  second : α
  /-- The first entry of the reflected column, sign included. -/
  image : α
  /-- The column was not zero. -/
  acts : Bool

/-- The reflection for the column of entries `x` and `y`. -/
def Reflection.ofColumn (x y : α) : Reflection α :=
  let square := x * x + y * y
  let length := Scalar.sqrt square
  let signed := signOrOne x * length
  let factor := (square + (signOrOne x * x) * length) * 2
  let x := x + signed
  if Scalar.isZero factor then ⟨x, y, signed, false⟩
  else
    let scale := Scalar.sqrt factor
    let x := x / scale
    let y := y / scale
    let length := Scalar.sqrt (x * x + y * y)
    ⟨x / length, y / length, -signed, true⟩

namespace Tridiagonal

/-! ### Reduction -/

/-- The entries of a symmetric two by two matrix on and below its diagonal. -/
structure Corner (α : Type) where
  first : α
  below : α
  second : α

/-- The matrix with a multiple of the product of the columns `(x0, x1)` and `(y0, y1)` added. -/
def Corner.addProduct (m : Corner α) (factor x0 x1 y0 y1 : α) : Corner α :=
  ⟨factor * y0 * x0 + m.first, factor * y0 * x1 + m.below, factor * y1 * x1 + m.second⟩

/-- The corner seen through a reflection. -/
def Corner.reflect (m : Corner α) (u : Reflection α) : Corner α :=
  let p0 := 2 * u.first * m.first + 2 * (m.below * u.second)
  let p1 := 2 * u.first * m.below + 2 * (m.second * u.second)
  let d := u.first * p0 + u.second * p1
  let m := m.addProduct (-1) p0 p1 u.first u.second
  let m := m.addProduct (-1) u.first u.second p0 p1
  m.addProduct (d * 2) u.first u.second u.first u.second

/-- A single entry seen through a reflection of one entry. -/
def reflectEntry (m : α) (w : Reflection α) : α :=
  let p := 2 * w.first * m
  let d := w.first * p
  let m := -w.first * p + m
  let m := -p * w.first + m
  d * 2 * w.first * w.first + m

/-- A column of the basis seen through the reflection of its last two entries. -/
def reflectColumn (u : Reflection α) (sign : α) (v : Vec3 α) : Vec3 α :=
  let factor := (u.first * v.y + u.second * v.z) * (sign * -2)
  ⟨v.x, factor * u.first + sign * v.y, factor * u.second + sign * v.z⟩

/-- A column of the basis seen through the reflection of its last entry. -/
def reflectLast (w : Reflection α) (sign : α) (v : Vec3 α) : Vec3 α :=
  let factor := w.first * v.z * (sign * -2)
  ⟨v.x, v.y, factor * w.first + sign * v.z⟩

/-- The tridiagonal form of a symmetric matrix. -/
def ofSymmetric (a : Mat3 α) : Tridiagonal α :=
  let u := Reflection.ofColumn (a.entry 1 0) (a.entry 2 0)
  let corner : Corner α := ⟨a.entry 1 1, a.entry 2 1, a.entry 2 2⟩
  let corner := if u.acts then corner.reflect u else corner
  let w := Reflection.ofColumn corner.below 0
  let last := if w.acts then reflectEntry corner.second w else corner.second
  let turned : Mat3 α :=
    let sign := Scalar.copySign 1 w.image
    ⟨Vec3.axis 0, reflectLast w sign (Vec3.axis 1), reflectLast w sign (Vec3.axis 2)⟩
  { diagonal := ⟨a.entry 0 0, corner.first, last⟩
    upper := Scalar.abs u.image
    lower := Scalar.abs w.image
    basis := turned.mapCols (reflectColumn u (Scalar.copySign 1 u.image)) }

/-! ### Iteration -/

/-- The part of the matrix that is not diagonal yet. -/
inductive Block where
  | done
  /-- All three diagonal entries. -/
  | whole
  /-- The first two diagonal entries. -/
  | firstPair
  /-- The last two diagonal entries. -/
  | lastPair

/-- The entry beside the diagonal is negligible beside two diagonal entries. -/
def negligible (beside a b : α) : Bool :=
  decide (Scalar.abs beside ≤ unitRoundoff * (Scalar.abs a + Scalar.abs b))

/-- The entry beside the diagonal counts beside two diagonal entries. -/
def counts (beside a b : α) : Bool :=
  decide (unitRoundoff * (Scalar.abs a + Scalar.abs b) < Scalar.abs beside)

/-- The upper entry beside the diagonal counts. -/
def upperCounts (t : Tridiagonal α) : Bool := counts t.upper t.diagonal.x t.diagonal.y

/-- The lower entry beside the diagonal counts. -/
def lowerCounts (t : Tridiagonal α) : Bool := counts t.lower t.diagonal.y t.diagonal.z

/-- The part to work on among the first two diagonal entries. -/
def firstBlock (t : Tridiagonal α) : Block := if t.upperCounts then .firstPair else .done

/-- The part to work on; a negligible upper entry above the last pair is cleared. -/
def block (t : Tridiagonal α) : Block × Tridiagonal α :=
  if t.lowerCounts then
    if Scalar.isZero t.upper || negligible t.upper t.diagonal.x t.diagonal.y then
      (.lastPair, { t with upper := 0 })
    else (.whole, t)
  else (t.firstBlock, t)

/-- A rotation of the plane, with the length it makes of a vector. -/
structure Turn (α : Type) where
  cos : α
  sin : α
  image : α

/-- The rotation that clears the second entry of `(x, y)`. -/
def Turn.clearing (x y : α) : Turn α :=
  let sign := signOrOne x
  let magnitude := sign * x
  let length := Scalar.sqrt (magnitude * magnitude + y * y)
  ⟨magnitude / length, -y / (sign * length), sign * length⟩

/-- Two columns turned into each other. -/
def turnColumns (c s : α) (v w : Vec3 α) : Vec3 α × Vec3 α :=
  (v * c + w * s, v * (-s) + w * c)

/-- Turn the first two columns of the basis. -/
def turnFirst (basis : Mat3 α) (c s : α) : Mat3 α :=
  let turned := turnColumns c s basis.col0 basis.col1
  ⟨turned.1, turned.2, basis.col2⟩

/-- Turn the last two columns of the basis. -/
def turnLast (basis : Mat3 α) (c s : α) : Mat3 α :=
  let turned := turnColumns c s basis.col1 basis.col2
  ⟨basis.col0, turned.1, turned.2⟩

/-- A pair of diagonal entries `a`, `b` with the entry `m` beside them, seen through a rotation. -/
def turnPair (a b m : α) (r : Turn α) : α × α × α :=
  let cc := r.cos * r.cos
  let ss := r.sin * r.sin
  let cs := r.cos * r.sin
  let cross := cs * 2 * m
  (cc * a + ss * b - cross, ss * a + cc * b + cross, cs * (a - b) + m * (cc - ss))

/-- The shift of the whole matrix: the eigenvalue of its last pair nearer to the last entry. -/
def shift (t : Tridiagonal α) : α :=
  let square := t.lower * t.lower
  let d := (t.diagonal.y - t.diagonal.z) * (0.5 : α)
  if Scalar.isZero square then t.diagonal.z
  else t.diagonal.z - square / (d + Scalar.copySign 1 d * Scalar.sqrt (d * d + square))

/-- One sweep over the whole matrix: a rotation that brings in the shift, and one that chases the
entry it leaves outside the three diagonals. -/
def sweep (t : Tridiagonal α) : Tridiagonal α :=
  if Scalar.isZero t.upper then t
  else
    let r := Turn.clearing (t.diagonal.x - t.shift) t.upper
    let (x, y, upper) := turnPair t.diagonal.x t.diagonal.y t.upper r
    let bulge := -r.sin * t.lower
    let lower := t.lower * r.cos
    let basis := turnFirst t.basis r.cos (-r.sin)
    if Scalar.isZero bulge then ⟨⟨x, y, t.diagonal.z⟩, upper, lower, basis⟩
    else
      let r := Turn.clearing upper bulge
      let (y, z, lower) := turnPair y t.diagonal.z lower r
      ⟨⟨x, y, z⟩, r.image, lower, turnLast basis r.cos (-r.sin)⟩

/-- The eigenvalues of the pair `a`, `b` with `m` beside it, the larger first, and the rotation to
its eigenvectors, if there is one. -/
def solvePair (a b m : α) : α × α × Option (α × α) :=
  let h := (a - b) * (0.5 : α)
  let discriminant := Scalar.sqrt (m * m + h * h)
  let mean := (a + b) * (0.5 : α)
  let x := mean + discriminant - b
  let sign := signOrOne x
  let magnitude := sign * x
  let length := Scalar.sqrt (magnitude * magnitude + m * m)
  (mean + discriminant, mean - discriminant,
    if unitRoundoff < length then some (magnitude / length, m / (sign * length)) else none)

/-- Solve the first pair. -/
def solveFirst (t : Tridiagonal α) : Tridiagonal α :=
  let (x, y, turn) := solvePair t.diagonal.x t.diagonal.y t.upper
  let basis := match turn with
    | some (c, s) => turnFirst t.basis c s
    | none => t.basis
  { t with diagonal := ⟨x, y, t.diagonal.z⟩, basis := basis }

/-- Solve the last pair. -/
def solveLast (t : Tridiagonal α) : Tridiagonal α :=
  let (y, z, turn) := solvePair t.diagonal.y t.diagonal.z t.lower
  let basis := match turn with
    | some (c, s) => turnLast t.basis c s
    | none => t.basis
  { t with diagonal := ⟨t.diagonal.x, y, z⟩, basis := basis }

/-- Work on a block once; gives the block to work on next. -/
def step (b : Block) (t : Tridiagonal α) : Block × Tridiagonal α :=
  match b with
  | .done => (.done, t)
  | .firstPair => (.done, t.solveFirst)
  | .lastPair => let t := t.solveLast; (t.firstBlock, t)
  | .whole =>
    let t := t.sweep
    if negligible t.lower t.diagonal.y t.diagonal.z then (t.firstBlock, t) else t.block

/-- Work until nothing is left or `rounds` are used up. -/
def iterate : Nat → Block → Tridiagonal α → Tridiagonal α
  | 0, _, t => t
  | rounds + 1, b, t =>
    match b with
    | .done => t
    | _ => let (b, t) := step b t; iterate rounds b t

/-- The shifted sweeps converge cubically; this many are never needed. -/
def roundLimit : Nat := 10000

end Tridiagonal

/-- The eigenvalues of a symmetric matrix and its eigenvectors as columns. The matrix is divided by
its largest entry first. -/
def symmetricEigen (m : Mat3 α) : Vec3 α × Mat3 α :=
  let largest := (m.entries.map Scalar.abs).foldl Scalar.max 0
  let scaled := if Scalar.isZero largest then m else m / largest
  let start := (Tridiagonal.ofSymmetric scaled).block
  let result := Tridiagonal.iterate Tridiagonal.roundLimit start.1 start.2
  (result.diagonal * largest, result.basis)

end Collision
