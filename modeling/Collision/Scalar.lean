/-!
# Scalars

The geometry of this library is written once, over a type `α` of *scalars*: `Float` when the library
runs, the real numbers when a statement is about exact arithmetic. `Scalar α` lists the operations
the geometry uses and the few facts about them that hold in every arithmetic.

Main definitions.

* `Scalar` is the class; `Scalar.totalLe` is the total order in which depths, keys and eigenvalues
  are sorted, and `Scalar.totalLe_total`, `Scalar.totalLe_trans` say that it is one.
* `Scalar.min`, `Scalar.max` are the smaller and the larger of two scalars; an operand that is not a
  number is ignored. `Scalar.minimum?` and `Scalar.maximum?` do this for a list.
* `Scalar.lesser`, `Scalar.greater` choose by one comparison and give the second operand when it
  fails.
* `Scalar.signum`, `Scalar.copySign` read the sign, negative zero counting as negative.
* `Scalar.lastMaxBy?`, `Scalar.firstMinBy?`, `Scalar.sortDescending` and `Scalar.sortAscending` go
  by the total order.
-/

set_option autoImplicit false
set_option relaxedAutoImplicit false

namespace Collision

/-- The arithmetic the geometry is written in. Comparisons are propositions with a decision
procedure; a scalar that is not a number satisfies none of them. -/
class Scalar (α : Type) extends Add α, Sub α, Mul α, Div α, Neg α, LT α, LE α where
  /-- Strict comparison is decidable. -/
  decidableLT : ∀ a b : α, Decidable (a < b)
  /-- Comparison is decidable. -/
  decidableLE : ∀ a b : α, Decidable (a ≤ b)
  /-- A whole number. -/
  ofNat : Nat → α
  /-- `decimal m true e` is `m / 10 ^ e`, `decimal m false e` is `m * 10 ^ e`. -/
  decimal : Nat → Bool → Nat → α
  /-- Half the circumference of the unit circle. -/
  pi : α
  /-- Square root. -/
  sqrt : α → α
  /-- Cube root. -/
  cbrt : α → α
  /-- Sine. -/
  sin : α → α
  /-- Cosine. -/
  cos : α → α
  /-- Absolute value. -/
  abs : α → α
  /-- The largest whole number not above the scalar. -/
  floor : α → α
  /-- The whole part as a natural number, `0` for what is negative or not a number. An arithmetic
  with a largest whole number stops there. -/
  toNat : α → Nat
  /-- The scalar is a number and not infinite. -/
  isFinite : α → Bool
  /-- The scalar is negative, or a zero that came from the negative side. -/
  isSigned : α → Bool
  /-- What a minimum over nothing amounts to. -/
  unbounded : α
  /-- The order that places every scalar, those that are not numbers included. -/
  totalLe : α → α → Bool
  /-- Any two scalars are comparable in the total order. -/
  totalLe_total : ∀ a b : α, totalLe a b = true ∨ totalLe b a = true
  /-- The total order is transitive. -/
  totalLe_trans : ∀ a b c : α, totalLe a b = true → totalLe b c = true → totalLe a c = true

-- Powers of integers are those of the language, whatever else is in scope.
attribute [instance (high)] instPowNat

-- A type that has these operations already is to find its own.
attribute [instance (low)] Scalar.toAdd Scalar.toSub Scalar.toMul Scalar.toDiv Scalar.toNeg
  Scalar.toLT Scalar.toLE

namespace Scalar

variable {α : Type} [Scalar α]

instance decidableLess (a b : α) : Decidable (a < b) := Scalar.decidableLT a b

instance decidableLessOrEqual (a b : α) : Decidable (a ≤ b) := Scalar.decidableLE a b

instance (priority := 50) instOfNat (n : Nat) : OfNat α n := ⟨Scalar.ofNat n⟩

instance (priority := 50) instOfScientific : OfScientific α := ⟨Scalar.decimal⟩

/-! ### Tests -/

/-- The scalar is not a number: it does not compare with itself. -/
def isNaN (a : α) : Bool := !decide (a ≤ a)

/-- The scalar is zero, of either sign. -/
def isZero (a : α) : Bool := decide (a ≤ 0) && decide ((0 : α) ≤ a)

/-! ### Choices between two scalars -/

/-- The smaller scalar; an operand that is not a number is ignored. -/
def min (a b : α) : α := if isNaN a then b else if b < a then b else a

/-- The larger scalar; an operand that is not a number is ignored. -/
def max (a b : α) : α := if isNaN a then b else if a < b then b else a

/-- The least of the values that are numbers. -/
def minimum? (values : List α) : Option α :=
  match values.filter fun a => !isNaN a with
  | [] => none
  | a :: rest => some (rest.foldl min a)

/-- The largest of the values that are numbers. -/
def maximum? (values : List α) : Option α :=
  match values.filter fun a => !isNaN a with
  | [] => none
  | a :: rest => some (rest.foldl max a)

/-- The first operand if it is at most the second, and the second otherwise. -/
def lesser (a b : α) : α := if a ≤ b then a else b

/-- The first operand if it is at least the second, and the second otherwise. -/
def greater (a b : α) : α := if b ≤ a then a else b

/-- The scalar moved into the interval from `lo` to `hi`. -/
def clamp (a lo hi : α) : α := if a < lo then lo else if hi < a then hi else a

/-! ### Signs -/

/-- The magnitude of the first operand with the sign of the second. -/
def copySign (magnitude sign : α) : α := if isSigned sign then -abs magnitude else abs magnitude

/-- `1` or `-1` with the sign of the operand; an operand that is not a number is kept. -/
def signum (a : α) : α := if isNaN a then a else copySign 1 a

/-! ### Selections in the total order -/

variable {β : Type}

/-- The member whose key is largest in the total order, the last one of several. -/
def lastMaxBy? (key : β → α) : List β → Option β
  | [] => none
  | b :: rest => some (rest.foldl (fun best c => if totalLe (key best) (key c) then c else best) b)

/-- The member whose key is smallest in the total order, the first one of several. -/
def firstMinBy? (key : β → α) : List β → Option β
  | [] => none
  | b :: rest => some (rest.foldl (fun best c => if totalLe (key best) (key c) then best else c) b)

/-- The members by falling key; members of equal key keep their order. -/
def sortDescending (key : β → α) (members : List β) : List β :=
  members.mergeSort fun b c => totalLe (key c) (key b)

/-- The members by rising key; members of equal key keep their order. -/
def sortAscending (key : β → α) (members : List β) : List β :=
  members.mergeSort fun b c => totalLe (key b) (key c)

/-- The sum from left to right. -/
def sum (terms : List α) : α := terms.foldl (· + ·) 0

end Scalar

/-! ### Binary floating point -/

/-- The place of a double in the total order: negative numbers below zero, negative zero just below
positive zero, and what is not a number above infinity. -/
def doubleOrderKey (x : Float) : Int :=
  let bits := x.toBits.toNat
  if bits < 2 ^ (63 : Nat) then bits else 2 ^ (63 : Nat) - 1 - bits

/-- Doubles are scalars. -/
instance : Scalar Float where
  decidableLT a b := inferInstanceAs (Decidable (a < b))
  decidableLE a b := inferInstanceAs (Decidable (a ≤ b))
  ofNat := Float.ofNat
  decimal := Float.ofScientific
  pi := 3.141592653589793
  sqrt := Float.sqrt
  cbrt := Float.cbrt
  sin := Float.sin
  cos := Float.cos
  abs := Float.abs
  floor := Float.floor
  toNat a := a.toUInt64.toNat
  isFinite := Float.isFinite
  isSigned a := decide (2 ^ (63 : Nat) ≤ a.toBits.toNat)
  unbounded := 1.0 / 0.0
  totalLe a b := decide (doubleOrderKey a ≤ doubleOrderKey b)
  totalLe_total a b := by simp only [decide_eq_true_eq]; omega
  totalLe_trans a b c := by simp only [decide_eq_true_eq]; omega

end Collision
