import Collision.Scalar

/-!
# Vectors

Points and directions of space. A point is the vector from the origin to it.

Main definitions.

* `Vec3` is a triple of scalars, with addition, negation, scaling, `Vec3.dot` and `Vec3.cross`.
* `Vec3.normalize` divides by the length whatever it is; `Vec3.unit?` refuses a vector that is not
  longer than a given length.
* `Vec3.lesser`, `Vec3.greater` work component by component and give the corners of a box of points.
* `Vec3.longestAxis` is the first index of the largest component.
-/

set_option autoImplicit false
set_option relaxedAutoImplicit false

namespace Collision

/-- Numerals name the coordinate axes. -/
instance three_neZero : @NeZero Nat Zero.ofOfNat0 3 := ⟨by decide⟩

/-- A point or a direction. -/
structure Vec3 (α : Type) where
  x : α
  y : α
  z : α
  deriving Inhabited

namespace Vec3

variable {α : Type}

/-- The component along a coordinate axis. -/
def get (v : Vec3 α) : Fin 3 → α
  | 0 => v.x
  | 1 => v.y
  | 2 => v.z

/-- The vector with the given components. -/
def ofFn (component : Fin 3 → α) : Vec3 α := ⟨component 0, component 1, component 2⟩

/-- The vector whose components are images of the components. -/
def map {β : Type} (f : α → β) (v : Vec3 α) : Vec3 β := ⟨f v.x, f v.y, f v.z⟩

/-- The vector whose components are images of the components of two vectors. -/
def zipWith (f : α → α → α) (v w : Vec3 α) : Vec3 α := ⟨f v.x w.x, f v.y w.y, f v.z w.z⟩

/-- All three components are `a`. -/
def replicate (a : α) : Vec3 α := ⟨a, a, a⟩

variable [Scalar α]

instance : Add (Vec3 α) := ⟨zipWith (· + ·)⟩

instance : Sub (Vec3 α) := ⟨zipWith (· - ·)⟩

instance : Neg (Vec3 α) := ⟨map (- ·)⟩

instance : HMul (Vec3 α) α (Vec3 α) := ⟨fun v s => ⟨v.x * s, v.y * s, v.z * s⟩⟩

instance : HDiv (Vec3 α) α (Vec3 α) := ⟨fun v s => ⟨v.x / s, v.y / s, v.z / s⟩⟩

/-- The origin. -/
def zero : Vec3 α := replicate 0

/-- The unit vector of a coordinate axis. -/
def axis (i : Fin 3) : Vec3 α := ofFn fun j => if i = j then 1 else 0

/-! ### Products and lengths -/

/-- The scalar product. -/
def dot (v w : Vec3 α) : α := v.x * w.x + v.y * w.y + v.z * w.z

/-- The vector product. -/
def cross (v w : Vec3 α) : Vec3 α :=
  ⟨v.y * w.z - v.z * w.y, v.z * w.x - v.x * w.z, v.x * w.y - v.y * w.x⟩

/-- The square of the length. -/
def normSq (v : Vec3 α) : α := v.dot v

/-- The length. -/
def norm (v : Vec3 α) : α := Scalar.sqrt v.normSq

/-- The vector divided by its length, which is not inspected. -/
def normalize (v : Vec3 α) : Vec3 α := v / v.norm

/-- The vector divided by its length, unless the length is at most `shortest`. -/
def unit? (v : Vec3 α) (shortest : α) : Option (Vec3 α) :=
  let length := v.norm
  if length ≤ shortest then none else some (v / length)

/-- The vector of absolute values. -/
def abs (v : Vec3 α) : Vec3 α := v.map Scalar.abs

/-- The midpoint. -/
def midpoint (v w : Vec3 α) : Vec3 α := (v + w) * (0.5 : α)

/-- Every component is finite. -/
def isFinite (v : Vec3 α) : Bool :=
  Scalar.isFinite v.x && Scalar.isFinite v.y && Scalar.isFinite v.z

/-! ### Corners -/

/-- The componentwise choice of the first operand where it is at most the second. -/
def lesser (v w : Vec3 α) : Vec3 α := zipWith Scalar.lesser v w

/-- The componentwise choice of the first operand where it is at least the second. -/
def greater (v w : Vec3 α) : Vec3 α := zipWith Scalar.greater v w

/-- The first index of the largest component. -/
def longestAxis (v : Vec3 α) : Fin 3 :=
  let first : Fin 3 := if v.x < v.y then 1 else 0
  if v.get first < v.z then 2 else first

/-! ### Collections -/

/-- The sum from left to right. -/
def sum (vectors : List (Vec3 α)) : Vec3 α := vectors.foldl (· + ·) zero

/-- The point at the mean of the points; the origin when there are none. -/
def mean (points : List (Vec3 α)) : Vec3 α :=
  sum points / (Scalar.ofNat (Nat.max points.length 1) : α)

/-- The point farthest along a direction, the last one of several. -/
def farthest? (points : List (Vec3 α)) (direction : Vec3 α) : Option (Vec3 α) :=
  Scalar.lastMaxBy? (fun p => p.dot direction) points

end Vec3

end Collision
