import Collision.Proofs.Scalar.Double
import Collision.Proofs.Scalar.Exact
import Collision.Contact

/-!
# Changing signs twice

Contacts that are seen from the other shape and then seen back are the contacts they were
(`Contacts.flipped_flipped`), in every arithmetic in which changing a sign twice changes nothing:
`InvolutiveScalar` says so, and holds of doubles, infinities and values that are no numbers
included, and of exact arithmetic.
-/

set_option autoImplicit false
set_option relaxedAutoImplicit false

namespace Collision

/-- Changing the sign twice changes nothing. -/
class InvolutiveScalar (α : Type) [Scalar α] : Prop where
  neg_neg : ∀ a : α, -(-a) = a

instance : InvolutiveScalar ℝ := ⟨neg_neg⟩

namespace Double

open Float.Model Float.Model.UnpackedFloat

theorem toNat_packComponents_neg (s : Sign) (exponent : BitVec 11) (mantissa : BitVec 52) :
    (packComponents Format.binary64 (-s) exponent mantissa).toNat =
      ((packComponents Format.binary64 s exponent mantissa).toNat + 2 ^ 63) % 2 ^ 64 := by
  have hexponent : exponent.toNat < 2 ^ 11 := exponent.isLt
  have hmantissa : mantissa.toNat < 2 ^ 52 := mantissa.isLt
  have hnegative : Sign.negative.toBitVec.toNat = 1 := rfl
  have hpositive : Sign.positive.toBitVec.toNat = 0 := rfl
  rw [toNat_packComponents, toNat_packComponents]
  cases s
  · rw [show -Sign.negative = Sign.positive from rfl, hnegative, hpositive]
    omega
  · rw [show -Sign.positive = Sign.negative from rfl, hnegative, hpositive]
    omega

/-- Changing the sign of a number changes the highest of its bits. -/
theorem toNat_pack_neg {u : UnpackedFloat} (hnumber : u ≠ .notANumber) :
    (UnpackedFloat.pack Format.binary64 u.neg).toNat =
      ((UnpackedFloat.pack Format.binary64 u).toNat + 2 ^ 63) % 2 ^ 64 := by
  rcases u with s | _ | s | ⟨s, m, e, hm⟩
  · exact toNat_packComponents_neg s _ _
  · exact absurd rfl hnumber
  · exact toNat_packComponents_neg s _ _
  · simp only [UnpackedFloat.neg, UnpackedFloat.pack]
    split_ifs <;> exact toNat_packComponents_neg s _ _

/-- The bits of a double, as packing gives them. -/
theorem pack_unpack_toModel (x : Float) :
    UnpackedFloat.pack Format.binary64 x.toModel.unpack = x.toModel.toBits.toBitVec :=
  pack_unpack_of_valid x.toModel.valid

theorem eq_of_toNat {x y : Float} (h : x.toModel.toBits.toBitVec.toNat =
    y.toModel.toBits.toBitVec.toNat) : x = y := by
  obtain ⟨⟨⟨b⟩, hb⟩⟩ := x
  obtain ⟨⟨⟨c⟩, hc⟩⟩ := y
  obtain rfl : b = c := BitVec.eq_of_toNat_eq h
  rfl

theorem toNat_neg {x : Float} (hx : Scalar.IsNumber x) : (-x).toModel.toBits.toBitVec.toNat =
    (x.toModel.toBits.toBitVec.toNat + 2 ^ 63) % 2 ^ 64 := by
  rw [← pack_unpack_toModel x]
  exact toNat_pack_neg ((isNumber_iff x).mp hx)

theorem neg_of_not_isNumber {x : Float} (hx : ¬Scalar.IsNumber x) : -x = x := by
  have hnan : x.toModel.unpack = .notANumber := by
    by_contra h
    exact hx ((isNumber_iff x).mpr h)
  have hneg : (-x).toModel.toBits.toBitVec = UnpackedFloat.pack Format.binary64
      x.toModel.unpack.neg := rfl
  refine eq_of_toNat ?_
  rw [hneg, ← pack_unpack_toModel x, hnan]
  rfl

theorem isNumber_neg {x : Float} (hx : Scalar.IsNumber x) : Scalar.IsNumber (-x) := by
  refine (isNumber_iff _).mpr (unpack_pack_ne (u := x.toModel.unpack.neg) ?_)
  have hnumber := (isNumber_iff x).mp hx
  rcases hu : x.toModel.unpack with s | _ | s | ⟨s, m, e, hm⟩
  · exact UnpackedFloat.noConfusion
  · exact absurd hu hnumber
  · exact UnpackedFloat.noConfusion
  · exact UnpackedFloat.noConfusion

end Double

instance : InvolutiveScalar Float where
  neg_neg x := by
    by_cases hx : Scalar.IsNumber x
    · refine Double.eq_of_toNat ?_
      have hbound : x.toModel.toBits.toBitVec.toNat < 2 ^ 64 := x.toModel.toBits.toBitVec.isLt
      rw [Double.toNat_neg (Double.isNumber_neg hx), Double.toNat_neg hx]
      omega
    · rw [Double.neg_of_not_isNumber hx, Double.neg_of_not_isNumber hx]

/-! ### Contacts -/

variable {α : Type} [Scalar α] [InvolutiveScalar α]

theorem Contact.flipped_flipped (c : Contact α) : c.flipped.flipped = c := by
  have hnormal : -(-c.normal) = c.normal := by
    show Vec3.mk (-(-c.normal.x)) (-(-c.normal.y)) (-(-c.normal.z)) = c.normal
    rw [InvolutiveScalar.neg_neg, InvolutiveScalar.neg_neg, InvolutiveScalar.neg_neg]
  show { c with normal := -(-c.normal) } = c
  rw [hnormal]

theorem Contacts.flipped_flipped (contacts : Contacts α) : contacts.flipped.flipped = contacts := by
  unfold flipped
  rw [List.map_map]
  exact List.map_id'' Contact.flipped_flipped contacts

end Collision
