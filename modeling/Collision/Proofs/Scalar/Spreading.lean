import Collision.Proofs.Scalar.Double

/-!
# Values that are no numbers spread

An operation on a value that is not a number gives no number, and such a value compares with
nothing. `SpreadingScalar` says so of every operation a pair test uses, the choices by comparison
apart: those keep a number wherever one of the operands is one, which is why the answer to a test
depends on the way each of its comparisons is written.

For doubles these are laws of the unpacked floats: none of the operations looks at the other operand
once one of them is not a number.
-/

set_option autoImplicit false
set_option relaxedAutoImplicit false

namespace Collision

/-- The scalar is no number: it does not even compare with itself. -/
def Scalar.NoNumber {α : Type} [Scalar α] (a : α) : Prop := ¬ Scalar.IsNumber a

instance {α : Type} [Scalar α] (a : α) : Decidable (Scalar.NoNumber a) :=
  inferInstanceAs (Decidable (¬ _))

/-- The result of an operation is a number only if the operands are. -/
class SpreadingScalar (α : Type) [Scalar α] : Prop extends OrderedScalar α where
  numbers_of_add : ∀ {a b : α}, Scalar.IsNumber (a + b) → Scalar.IsNumber a ∧ Scalar.IsNumber b
  numbers_of_sub : ∀ {a b : α}, Scalar.IsNumber (a - b) → Scalar.IsNumber a ∧ Scalar.IsNumber b
  numbers_of_mul : ∀ {a b : α}, Scalar.IsNumber (a * b) → Scalar.IsNumber a ∧ Scalar.IsNumber b
  numbers_of_div : ∀ {a b : α}, Scalar.IsNumber (a / b) → Scalar.IsNumber a ∧ Scalar.IsNumber b
  number_of_neg : ∀ {a : α}, Scalar.IsNumber (-a) → Scalar.IsNumber a
  number_of_sqrt : ∀ {a : α}, Scalar.IsNumber (Scalar.sqrt a) → Scalar.IsNumber a
  number_of_abs : ∀ {a : α}, Scalar.IsNumber (Scalar.abs a) → Scalar.IsNumber a

namespace Scalar

variable {α : Type} [Scalar α]

theorem NoNumber.isNaN {a : α} (h : NoNumber a) : Scalar.isNaN a = true := (isNaN_iff a).mpr h

/-- Values of which none is a number have no least one. -/
theorem minimum?_eq_none {values : List α} (h : ∀ a ∈ values, NoNumber a) :
    minimum? values = none := by
  have hfilter : values.filter (fun a ↦ !isNaN a) = [] := by
    refine List.filter_eq_nil_iff.mpr fun a ha ↦ ?_
    rw [(h a ha).isNaN]
    exact Bool.false_ne_true
  unfold minimum?
  rw [hfilter]

variable [SpreadingScalar α] {a : α}

namespace NoNumber

/-! ### Operations -/

theorem add_left (h : NoNumber a) (b : α) : NoNumber (a + b) :=
  fun hsum ↦ h (SpreadingScalar.numbers_of_add hsum).1

theorem add_right (h : NoNumber a) (b : α) : NoNumber (b + a) :=
  fun hsum ↦ h (SpreadingScalar.numbers_of_add hsum).2

theorem sub_left (h : NoNumber a) (b : α) : NoNumber (a - b) :=
  fun hdifference ↦ h (SpreadingScalar.numbers_of_sub hdifference).1

theorem sub_right (h : NoNumber a) (b : α) : NoNumber (b - a) :=
  fun hdifference ↦ h (SpreadingScalar.numbers_of_sub hdifference).2

theorem mul_left (h : NoNumber a) (b : α) : NoNumber (a * b) :=
  fun hproduct ↦ h (SpreadingScalar.numbers_of_mul hproduct).1

theorem mul_right (h : NoNumber a) (b : α) : NoNumber (b * a) :=
  fun hproduct ↦ h (SpreadingScalar.numbers_of_mul hproduct).2

theorem neg (h : NoNumber a) : NoNumber (-a) := fun hneg ↦ h (SpreadingScalar.number_of_neg hneg)

theorem sqrt (h : NoNumber a) : NoNumber (Scalar.sqrt a) :=
  fun hroot ↦ h (SpreadingScalar.number_of_sqrt hroot)

theorem abs (h : NoNumber a) : NoNumber (Scalar.abs a) :=
  fun habs ↦ h (SpreadingScalar.number_of_abs habs)

/-! ### Comparisons -/

theorem not_le (h : NoNumber a) (b : α) : ¬ a ≤ b := fun hle ↦ h (OrderedScalar.number_of_le hle).1

theorem not_ge (h : NoNumber a) (b : α) : ¬ b ≤ a := fun hle ↦ h (OrderedScalar.number_of_le hle).2

theorem not_lt (h : NoNumber a) (b : α) : ¬ a < b := fun hlt ↦ h.not_le b (le_of_lt hlt)

theorem not_gt (h : NoNumber a) (b : α) : ¬ b < a := fun hlt ↦ h.not_ge b (le_of_lt hlt)

end NoNumber

end Scalar

/-! ### Doubles -/

namespace Double

open Float.Model Float.Model.UnpackedFloat

/-- A double packed from a result that is not a number is not a number. -/
theorem unpack_pack_notANumber :
    unpack Format.binary64 (pack Format.binary64 .notANumber) = .notANumber := rfl

/-- An operation of one operand spreads if it does so on unpacked floats. -/
theorem number_of_operation {f : UnpackedFloat → UnpackedFloat} {x y : Float}
    (hy : y.toModel.unpack = unpack Format.binary64 (pack Format.binary64 (f x.toModel.unpack)))
    (hspread : f .notANumber = .notANumber) (h : Scalar.IsNumber y) : Scalar.IsNumber x := by
  rw [isNumber_iff] at h ⊢
  intro hx
  rw [hy, hx, hspread, unpack_pack_notANumber] at h
  exact h rfl

/-- An operation of two operands spreads if it does so on unpacked floats. -/
theorem numbers_of_operation {f : UnpackedFloat → UnpackedFloat → UnpackedFloat} {x y z : Float}
    (hz : z.toModel.unpack =
      unpack Format.binary64 (pack Format.binary64 (f x.toModel.unpack y.toModel.unpack)))
    (hfirst : ∀ v, f .notANumber v = .notANumber) (hsecond : ∀ u, f u .notANumber = .notANumber)
    (h : Scalar.IsNumber z) : Scalar.IsNumber x ∧ Scalar.IsNumber y :=
  ⟨number_of_operation (f := fun u ↦ f u y.toModel.unpack) hz (hfirst _) h,
    number_of_operation (f := fun v ↦ f x.toModel.unpack v) hz (hsecond _) h⟩

end Double

open Float.Model in
instance : SpreadingScalar Float where
  numbers_of_add := Double.numbers_of_operation (f := UnpackedFloat.add Format.binary64) rfl
    (fun v ↦ by cases v <;> rfl) (fun u ↦ by cases u <;> rfl)
  numbers_of_sub := Double.numbers_of_operation (f := UnpackedFloat.sub Format.binary64) rfl
    (fun v ↦ by cases v <;> rfl) (fun u ↦ by cases u <;> rfl)
  numbers_of_mul := Double.numbers_of_operation (f := UnpackedFloat.mul Format.binary64) rfl
    (fun v ↦ by cases v <;> rfl) (fun u ↦ by cases u <;> rfl)
  numbers_of_div := Double.numbers_of_operation (f := UnpackedFloat.div Format.binary64) rfl
    (fun v ↦ by cases v <;> rfl) (fun u ↦ by cases u <;> rfl)
  number_of_neg := Double.number_of_operation (f := UnpackedFloat.neg) rfl rfl
  number_of_sqrt := Double.number_of_operation (f := UnpackedFloat.sqrt Format.binary64) rfl rfl
  number_of_abs := Double.number_of_operation (f := UnpackedFloat.abs) rfl rfl

end Collision
