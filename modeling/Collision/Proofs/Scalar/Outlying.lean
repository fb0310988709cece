import Collision.Proofs.Scalar.Spreading

/-!
# What is not a number

A value that is not a number stays one when something is added to it or subtracted from it, and the
total order places it outside the numbers: above all of them or, where the sign of such a value
counts, below all of them. `OutlyingScalar` says both; doubles satisfy it, since the bits below the
sign of a value that is not a number exceed those of infinity (`Double.unpack_eq_notANumber_iff`).
-/

set_option autoImplicit false
set_option relaxedAutoImplicit false

namespace Collision

/-- Values that are not numbers spread through sums, and never stand between two numbers. -/
class OutlyingScalar (α : Type) [Scalar α] : Prop where
  number_of_sub : ∀ {a m : α}, Scalar.IsNumber (a - m) → Scalar.IsNumber a
  number_of_add : ∀ {a m : α}, Scalar.IsNumber (a + m) → Scalar.IsNumber a
  number_of_between : ∀ {a b c : α}, Scalar.IsNumber a → Scalar.IsNumber c →
    Scalar.totalLe a b = true → Scalar.totalLe b c = true → Scalar.IsNumber b

namespace Double

open Float.Model Float.Model.UnpackedFloat

theorem unpack_eq_notANumber_iff (b : BitVec 64) :
    unpack Format.binary64 b = .notANumber ↔ 2047 * 2 ^ 52 < b.toNat % 2 ^ 63 := by
  have hb : b.toNat < 2 ^ 64 := b.isLt
  fun_cases unpack Format.binary64 b with
  | case1 _ _ _ _ hones hempty =>
    have hones := (unpackExponent_eq_ones_iff b).mp hones
    have hempty := (unpackMantissa_eq_zeros_iff b).mp hempty
    exact iff_of_false UnpackedFloat.noConfusion (by omega)
  | case2 _ _ hones hempty =>
    have hones := (unpackExponent_eq_ones_iff b).mp hones
    have hempty := (unpackMantissa_eq_zeros_iff b).not.mp hempty
    exact iff_of_true rfl (by omega)
  | case3 _ _ _ _ hones _ _ =>
    have hones := (unpackExponent_eq_ones_iff b).not.mp hones
    exact iff_of_false UnpackedFloat.noConfusion (by omega)
  | case4 _ _ _ _ _ hones _ _ =>
    have hones := (unpackExponent_eq_ones_iff b).not.mp hones
    exact iff_of_false UnpackedFloat.noConfusion (by omega)
  | case5 _ _ _ _ _ hones _ =>
    have hones := (unpackExponent_eq_ones_iff b).not.mp hones
    exact iff_of_false UnpackedFloat.noConfusion (by omega)

theorem isNumber_iff_bits (x : Float) :
    Scalar.IsNumber x ↔ x.toBits.toNat % 2 ^ 63 ≤ 2047 * 2 ^ 52 := by
  rw [isNumber_iff, ← Nat.not_lt]
  exact not_congr (unpack_eq_notANumber_iff _)

theorem number_of_between {x y z : Float} (hx : Scalar.IsNumber x) (hz : Scalar.IsNumber z)
    (hxy : Scalar.totalLe x y = true) (hyz : Scalar.totalLe y z = true) : Scalar.IsNumber y := by
  rw [isNumber_iff_bits] at hx hz ⊢
  have hxy : doubleOrderKey x ≤ doubleOrderKey y := of_decide_eq_true hxy
  have hyz : doubleOrderKey y ≤ doubleOrderKey z := of_decide_eq_true hyz
  have hboundx : x.toBits.toNat < 2 ^ 64 := x.toBits.toBitVec.isLt
  have hboundy : y.toBits.toNat < 2 ^ 64 := y.toBits.toBitVec.isLt
  have hboundz : z.toBits.toNat < 2 ^ 64 := z.toBits.toBitVec.isLt
  simp only [doubleOrderKey] at hxy hyz
  split_ifs at hxy hyz <;> omega

end Double

instance : OutlyingScalar Float where
  number_of_sub h := (SpreadingScalar.numbers_of_sub h).1
  number_of_add h := (SpreadingScalar.numbers_of_add h).1
  number_of_between := Double.number_of_between

end Collision
