import Collision.Proofs.Scalar.Negation

/-!
# Arithmetic seen in a mirror

Two scalars are opposed when one is the other with its sign changed, or when both are zeros of
whatever sign (`Scalar.Opposed`): the difference of two equal doubles is the same zero in either
order, so the sign alone would not do. `MirroredScalar` are the laws by which opposed operands give
opposed results and compare the other way round; with them the least of some values is opposed to
the largest of the opposed values (`Scalar.minimum?_opposed`). The laws hold of doubles, infinities
and values that are no numbers included, and of exact arithmetic.

For doubles they are laws of the unpacked floats (`Double.Mirrored`), in which rounding does not
look at the sign (`Double.normalize_neg`), and packing and unpacking keep the mirror image
(`Double.packed_neg`, `Double.unpack_neg`).
-/

set_option autoImplicit false
set_option relaxedAutoImplicit false

namespace Collision

/-- One scalar is the other with its sign changed, or both are zeros. -/
def Scalar.Opposed {α : Type} [Scalar α] (a b : α) : Prop :=
  b = -a ∨ Scalar.isZero a = true ∧ Scalar.isZero b = true

open Scalar (Opposed)

/-- Opposed operands give opposed results and compare the other way round. -/
class MirroredScalar (α : Type) [Scalar α] : Prop extends OrderedScalar α,
    InvolutiveScalar α where
  add_comm : ∀ a b : α, a + b = b + a
  mul_comm : ∀ a b : α, a * b = b * a
  sub_opposed : ∀ a b : α, Opposed (a - b) (b - a)
  add_opposed : ∀ {a a' b b' : α}, Opposed a a' → Opposed b b' → Opposed (a + b) (a' + b')
  mul_opposed : ∀ (a : α) {b b' : α}, Opposed b b' → Opposed (a * b) (a * b')
  div_opposed : ∀ {a a' : α} (b : α), Opposed a a' → Opposed (a / b) (a' / b)
  mul_self_opposed : ∀ {a a' : α}, Opposed a a' → a * a = a' * a'
  le_opposed : ∀ {a a' b b' : α}, Opposed a a' → Opposed b b' → (a ≤ b ↔ b' ≤ a')

namespace Scalar

variable {α β : Type} [Scalar α] [MirroredScalar α] {a a' b b' : α}

theorem Opposed.symm (h : Opposed a b) : Opposed b a := by
  rcases h with rfl | ⟨ha, hb⟩
  · exact .inl (InvolutiveScalar.neg_neg a).symm
  · exact .inr ⟨hb, ha⟩

/-! ### Smallest and largest -/

theorem Opposed.isNaN_eq (h : Opposed a a') : isNaN a' = isNaN a := by
  unfold isNaN
  rw [decide_eq_decide.mpr (MirroredScalar.le_opposed h h)]

theorem Opposed.lt_iff (ha : Opposed a a') (hb : Opposed b b') : a < b ↔ b' < a' := by
  rw [OrderedScalar.lt_iff, OrderedScalar.lt_iff, MirroredScalar.le_opposed ha hb,
    MirroredScalar.le_opposed hb ha]

theorem Opposed.min_max (ha : Opposed a a') (hb : Opposed b b') :
    Opposed (min a b) (max a' b') := by
  unfold min max
  rw [ha.isNaN_eq]
  by_cases hnan : isNaN a = true
  · rwa [if_pos hnan, if_pos hnan]
  · rw [if_neg hnan, if_neg hnan]
    by_cases hlt : b < a
    · rwa [if_pos hlt, if_pos ((hb.lt_iff ha).mp hlt)]
    · rwa [if_neg hlt, if_neg ((hb.lt_iff ha).not.mp hlt)]

/-- The least of some values is opposed to the largest of the opposed values. -/
theorem minimum?_opposed {f g : β → α} (h : ∀ i, Opposed (f i) (g i)) (members : List β) :
    Option.Rel Opposed (minimum? (members.map f)) (maximum? (members.map g)) := by
  have hfilter : (members.filter ((fun a ↦ !isNaN a) ∘ g)) =
      members.filter ((fun a ↦ !isNaN a) ∘ f) := by
    refine List.filter_congr fun i _ ↦ ?_
    rw [Function.comp_apply, Function.comp_apply, (h i).isNaN_eq]
  have hfold (rest : List β) {a a' : α} (ha : Opposed a a') :
      Opposed ((rest.map f).foldl min a) ((rest.map g).foldl max a') := by
    induction rest generalizing a a' with
    | nil => exact ha
    | cons i rest ih => exact ih (ha.min_max (h i))
  unfold minimum? maximum?
  rw [List.filter_map, List.filter_map, hfilter]
  cases members.filter ((fun a ↦ !isNaN a) ∘ f) with
  | nil => exact .none
  | cons i rest => exact .some (hfold rest (h i))

end Scalar

/-! ### Exact arithmetic -/

theorem Scalar.opposed_real_iff {a b : ℝ} : Opposed a b ↔ b = -a := by
  unfold Opposed
  simp only [Scalar.isZero_real, decide_eq_true_eq]
  constructor
  · rintro (rfl | ⟨rfl, rfl⟩)
    · rfl
    · exact neg_zero.symm
  · exact .inl

instance : MirroredScalar ℝ where
  add_comm := add_comm
  mul_comm := mul_comm
  sub_opposed a b := Scalar.opposed_real_iff.mpr (neg_sub a b).symm
  add_opposed ha hb := by
    rw [Scalar.opposed_real_iff] at *
    rw [ha, hb, neg_add]
  mul_opposed a b b' hb := by
    rw [Scalar.opposed_real_iff] at *
    rw [hb, mul_neg]
  div_opposed b ha := by
    rw [Scalar.opposed_real_iff] at *
    rw [ha, neg_div]
  mul_self_opposed ha := by
    rw [Scalar.opposed_real_iff] at ha
    rw [ha, neg_mul_neg]
  le_opposed ha hb := by
    rw [Scalar.opposed_real_iff] at ha hb
    rw [ha, hb, neg_le_neg_iff]

/-! ### Doubles -/

namespace Double

open Float.Model Float.Model.UnpackedFloat

/-- One float is the other with its sign changed, or both are zeros. -/
def Mirrored (u v : UnpackedFloat) : Prop :=
  v = u.neg ∨ (∃ s, u = .zero s) ∧ ∃ s, v = .zero s

theorem neg_sign_mul (s t : Sign) : s * -t = -(s * t) := by
  cases s <;> cases t <;> rfl

theorem neg_sign_div (s t : Sign) : -s / t = -(s / t) := by
  cases s <;> cases t <;> rfl

/-! Rounding -/

theorem roundWithAccuracy_neg (s : Sign) (m : ℕ) (e : ℤ) (accuracy : Accuracy) :
    roundWithAccuracy Format.binary64 (-s) m e accuracy =
      (roundWithAccuracy Format.binary64 s m e accuracy).neg := by
  unfold roundWithAccuracy
  simp only
  split <;> rfl

theorem round_neg (s : Sign) (m : ℕ) (e : ℤ) :
    UnpackedFloat.round Format.binary64 (-s) m e =
      (UnpackedFloat.round Format.binary64 s m e).neg :=
  roundWithAccuracy_neg s _ _ _

theorem normalize_neg (m e : ℤ) :
    Mirrored (UnpackedFloat.normalize Format.binary64 m e .positive)
      (UnpackedFloat.normalize Format.binary64 (-m) e .positive) := by
  unfold UnpackedFloat.normalize
  rcases lt_trichotomy m 0 with hlt | rfl | hgt
  · left
    rw [compare_lt_iff_lt.mpr hlt, compare_gt_iff_gt.mpr (by omega : -m > 0)]
    exact round_neg .negative _ _
  · exact .inr ⟨⟨_, rfl⟩, ⟨_, rfl⟩⟩
  · left
    rw [compare_gt_iff_gt.mpr hgt, compare_lt_iff_lt.mpr (by omega : -m < 0), neg_neg]
    exact round_neg .positive _ _

/-! Operations -/

theorem Mirrored.symm {u v : UnpackedFloat} (h : Mirrored u v) : Mirrored v u := by
  rcases h with rfl | ⟨hu, hv⟩
  · left
    cases u with
    | infinity s => cases s <;> rfl
    | notANumber => rfl
    | zero s => cases s <;> rfl
    | finite s m e hm => cases s <;> rfl
  · exact .inr ⟨hv, hu⟩

theorem unpacked_add_comm (u v : UnpackedFloat) :
    UnpackedFloat.add Format.binary64 u v = UnpackedFloat.add Format.binary64 v u := by
  rcases u with s | _ | s | ⟨s, m, e, hm⟩ <;> rcases v with t | _ | t | ⟨t, n, f, hn⟩ <;>
    try rfl
  · cases s <;> cases t <;> rfl
  · cases s <;> cases t <;> rfl
  · show UnpackedFloat.normalize _ _ (min e f) _ = UnpackedFloat.normalize _ _ (min f e) _
    rw [min_comm e f, Int.add_comm]

theorem unpacked_mul_comm (u v : UnpackedFloat) :
    UnpackedFloat.mul Format.binary64 u v = UnpackedFloat.mul Format.binary64 v u := by
  have hsign (s t : Sign) : s * t = t * s := by cases s <;> cases t <;> rfl
  rcases u with s | _ | s | ⟨s, m, e, hm⟩ <;> rcases v with t | _ | t | ⟨t, n, f, hn⟩ <;>
    simp only [UnpackedFloat.mul, hsign, Nat.mul_comm, Int.add_comm]

/-- A difference changes its sign when its operands are exchanged, unless it is a zero. -/
theorem mirrored_sub (u v : UnpackedFloat) :
    Mirrored (UnpackedFloat.sub Format.binary64 u v) (UnpackedFloat.sub Format.binary64 v u) := by
  rcases u with s | _ | s | ⟨s, m, e, hm⟩
  · rcases v with t | _ | t | ⟨t, n, f, hn⟩
    · cases s <;> cases t <;> exact .inl rfl
    · exact .inl rfl
    · exact .inl rfl
    · exact .inl rfl
  · cases v <;> exact .inl rfl
  · rcases v with t | _ | t | ⟨t, n, f, hn⟩
    · cases t <;> exact .inl rfl
    · exact .inl rfl
    · cases s <;> cases t <;> exact .inr ⟨⟨_, rfl⟩, ⟨_, rfl⟩⟩
    · cases t <;> exact .inl rfl
  · rcases v with t | _ | t | ⟨t, n, f, hn⟩
    · cases t <;> exact .inl rfl
    · exact .inl rfl
    · exact .inl rfl
    · have hneg (a b : ℤ) : b - a = -(a - b) := (neg_sub a b).symm
      show Mirrored (UnpackedFloat.normalize _ _ (min e f) _)
        (UnpackedFloat.normalize _ _ (min f e) _)
      rw [min_comm f e, hneg]
      exact (normalize_neg _ _).symm

theorem mirrored_add_neg (u v : UnpackedFloat) :
    Mirrored (UnpackedFloat.add Format.binary64 u v)
      (UnpackedFloat.add Format.binary64 u.neg v.neg) := by
  rcases u with s | _ | s | ⟨s, m, e, hm⟩
  · rcases v with t | _ | t | ⟨t, n, f, hn⟩
    · cases s <;> cases t <;> exact .inl rfl
    · exact .inl rfl
    · exact .inl rfl
    · exact .inl rfl
  · cases v <;> exact .inl rfl
  · rcases v with t | _ | t | ⟨t, n, f, hn⟩
    · exact .inl rfl
    · exact .inl rfl
    · cases s <;> cases t <;> exact .inr ⟨⟨_, rfl⟩, ⟨_, rfl⟩⟩
    · exact .inl rfl
  · rcases v with t | _ | t | ⟨t, n, f, hn⟩
    · exact .inl rfl
    · exact .inl rfl
    · exact .inl rfl
    · have hneg (r : Sign) (a : ℤ) : (-r).apply a = -r.apply a := by
        cases r
        · exact (neg_neg a).symm
        · rfl
      show Mirrored (UnpackedFloat.normalize _ _ _ _) (UnpackedFloat.normalize _ _ _ _)
      rw [hneg, hneg, ← Int.neg_add]
      exact normalize_neg _ _

/-- A zero of either sign leaves the mirror image of a sum. -/
theorem add_zero_mirrored (s t : Sign) (v : UnpackedFloat) :
    Mirrored (UnpackedFloat.add Format.binary64 (.zero s) v)
      (UnpackedFloat.add Format.binary64 (.zero t) v.neg) := by
  rcases v with r | _ | r | ⟨r, n, f, hn⟩
  · exact .inl rfl
  · exact .inl rfl
  · cases s <;> cases t <;> cases r <;> exact .inr ⟨⟨_, rfl⟩, ⟨_, rfl⟩⟩
  · exact .inl rfl

theorem Mirrored.add {u u' v v' : UnpackedFloat} (hu : Mirrored u u') (hv : Mirrored v v') :
    Mirrored (UnpackedFloat.add Format.binary64 u v) (UnpackedFloat.add Format.binary64 u' v') := by
  rcases hu with rfl | ⟨⟨s, rfl⟩, ⟨t, rfl⟩⟩
  · rcases hv with rfl | ⟨⟨s, rfl⟩, ⟨t, rfl⟩⟩
    · exact mirrored_add_neg u v
    · rw [unpacked_add_comm u, unpacked_add_comm u.neg]
      exact add_zero_mirrored s t u
  · rcases hv with rfl | ⟨⟨s', rfl⟩, ⟨t', rfl⟩⟩
    · exact add_zero_mirrored s t v
    · cases s <;> cases t <;> cases s' <;> cases t' <;> exact .inr ⟨⟨_, rfl⟩, ⟨_, rfl⟩⟩

theorem Mirrored.mul (u : UnpackedFloat) {v v' : UnpackedFloat} (hv : Mirrored v v') :
    Mirrored (UnpackedFloat.mul Format.binary64 u v) (UnpackedFloat.mul Format.binary64 u v') := by
  rcases hv with rfl | ⟨⟨s, rfl⟩, ⟨t, rfl⟩⟩
  · left
    rcases u with s | _ | s | ⟨s, m, e, hm⟩ <;> rcases v with t | _ | t | ⟨t, n, f, hn⟩ <;>
      simp only [UnpackedFloat.mul, UnpackedFloat.neg, neg_sign_mul, roundWithAccuracy_neg]
  · rcases u with r | _ | r | ⟨r, m, e, hm⟩
    · exact .inl rfl
    · exact .inl rfl
    · exact .inr ⟨⟨_, rfl⟩, ⟨_, rfl⟩⟩
    · exact .inr ⟨⟨_, rfl⟩, ⟨_, rfl⟩⟩

theorem Mirrored.div (v : UnpackedFloat) {u u' : UnpackedFloat} (hu : Mirrored u u') :
    Mirrored (UnpackedFloat.div Format.binary64 u v) (UnpackedFloat.div Format.binary64 u' v) := by
  rcases hu with rfl | ⟨⟨s, rfl⟩, ⟨t, rfl⟩⟩
  · left
    rcases u with s | _ | s | ⟨s, m, e, hm⟩ <;> rcases v with t | _ | t | ⟨t, n, f, hn⟩ <;>
      simp only [UnpackedFloat.div, UnpackedFloat.neg, neg_sign_div, roundWithAccuracy_neg]
  · rcases v with r | _ | r | ⟨r, m, e, hm⟩
    · exact .inr ⟨⟨_, rfl⟩, ⟨_, rfl⟩⟩
    · exact .inl rfl
    · exact .inl rfl
    · exact .inr ⟨⟨_, rfl⟩, ⟨_, rfl⟩⟩

/-- A square does not see a sign, not even that of a zero. -/
theorem Mirrored.mul_self {u v : UnpackedFloat} (h : Mirrored u v) :
    UnpackedFloat.mul Format.binary64 u u = UnpackedFloat.mul Format.binary64 v v := by
  have hsign (s : Sign) : -s * -s = s * s := by cases s <;> rfl
  rcases h with rfl | ⟨⟨s, rfl⟩, ⟨t, rfl⟩⟩
  · cases u <;> simp only [UnpackedFloat.mul, UnpackedFloat.neg, hsign]
  · cases s <;> cases t <;> rfl

/-! Packing and unpacking -/

theorem ofBitVec_unpackSign_neg {b c : BitVec 64} (h : c.toNat = (b.toNat + 2 ^ 63) % 2 ^ 64) :
    Sign.ofBitVec (@unpackSign Format.binary64 c) =
      -Sign.ofBitVec (@unpackSign Format.binary64 b) := by
  have hb : b.toNat < 2 ^ 64 := b.isLt
  have hsign (v : BitVec 64) : @unpackSign Format.binary64 v = 0#1 ↔ v.toNat < 2 ^ 63 := by
    have hv : v.toNat < 2 ^ 64 := v.isLt
    rw [← BitVec.toNat_inj, toNat_unpackSign, BitVec.toNat_ofNat]
    omega
  unfold Sign.ofBitVec
  by_cases hpositive : b.toNat < 2 ^ 63
  · rw [if_pos ((hsign b).mpr hpositive), if_neg ((hsign c).not.mpr (by omega))]
    rfl
  · rw [if_neg ((hsign b).not.mpr hpositive), if_pos ((hsign c).mpr (by omega))]
    rfl

/-- Changing the highest of the bits changes the sign of what they spell, if that is a number. -/
theorem unpack_neg_of_toNat {b c : BitVec 64} (h : c.toNat = (b.toNat + 2 ^ 63) % 2 ^ 64)
    (hnumber : unpack Format.binary64 b ≠ .notANumber) :
    unpack Format.binary64 c = (unpack Format.binary64 b).neg := by
  have hexponent : @unpackExponent Format.binary64 c = @unpackExponent Format.binary64 b := by
    rw [← BitVec.toNat_inj, toNat_unpackExponent, toNat_unpackExponent]
    omega
  have hmantissa : @unpackMantissa Format.binary64 c = @unpackMantissa Format.binary64 b := by
    rw [← BitVec.toNat_inj, toNat_unpackMantissa, toNat_unpackMantissa]
    omega
  revert hnumber
  unfold UnpackedFloat.unpack
  simp only [hexponent, hmantissa, ofBitVec_unpackSign_neg h]
  split_ifs
  · exact fun _ ↦ rfl
  · exact fun hnan ↦ absurd rfl hnan
  · exact fun _ ↦ rfl
  · exact fun _ ↦ rfl
  · exact fun _ ↦ rfl

/-- Changing the sign of a float changes the sign of what it is unpacked to. -/
theorem unpack_neg (x : Float) : (-x).toModel.unpack = x.toModel.unpack.neg := by
  by_cases hx : Scalar.IsNumber x
  · exact unpack_neg_of_toNat (toNat_neg hx) ((isNumber_iff x).mp hx)
  · have hnan : x.toModel.unpack = .notANumber := by
      by_contra h
      exact hx ((isNumber_iff x).mpr h)
    rw [neg_of_not_isNumber hx, hnan]
    rfl

/-- The double of an unpacked float. -/
def packed (u : UnpackedFloat) : Float := ⟨Float.Model.pack u⟩

theorem packed_neg (u : UnpackedFloat) : packed u.neg = -packed u := by
  by_cases hu : u = .notANumber
  · subst hu
    exact (neg_of_not_isNumber fun h ↦ (isNumber_iff _).mp h rfl).symm
  · have hnumber : Scalar.IsNumber (packed u) := (isNumber_iff _).mpr (unpack_pack_ne hu)
    refine eq_of_toNat ?_
    rw [toNat_neg hnumber]
    exact toNat_pack_neg hu

/-- Packing takes mirror images to mirror images. -/
theorem Mirrored.opposed {u v : UnpackedFloat} (h : Mirrored u v) :
    Opposed (packed u) (packed v) := by
  have hzero (s : Sign) : Scalar.isZero (packed (.zero s)) = true := by
    cases s <;> decide
  rcases h with rfl | ⟨⟨s, rfl⟩, ⟨t, rfl⟩⟩
  · exact .inl (packed_neg u)
  · exact .inr ⟨hzero s, hzero t⟩

theorem Mirrored.of_opposed {x y : Float} (h : Opposed x y) :
    Mirrored x.toModel.unpack y.toModel.unpack := by
  have hzero {m : Float} (hm : Scalar.isZero m = true) : ∃ s, m.toModel.unpack = .zero s := by
    simp only [Scalar.isZero, Bool.and_eq_true, decide_eq_true_eq] at hm
    exact unpack_eq_zero hm.1 hm.2
  rcases h with rfl | ⟨hx, hy⟩
  · exact .inl (unpack_neg x)
  · exact .inr ⟨hzero hx, hzero hy⟩

/-! Comparison -/

theorem Mirrored.place_eq {u v : UnpackedFloat} (h : Mirrored u v) : place v = -place u := by
  rcases h with rfl | ⟨⟨s, rfl⟩, ⟨t, rfl⟩⟩
  · rcases u with s | _ | s | ⟨s, m, e, hm⟩
    · cases s <;> rfl
    · rfl
    · rfl
    · cases s
      · exact (neg_neg _).symm
      · rfl
  · rfl

theorem Mirrored.ne_notANumber {u v : UnpackedFloat} (h : Mirrored u v) (hu : u ≠ .notANumber) :
    v ≠ .notANumber := by
  rintro rfl
  rcases h.symm with rfl | ⟨⟨_, h⟩, -⟩
  · exact hu rfl
  · exact UnpackedFloat.noConfusion h

theorem isNumber_iff_of_opposed {x y : Float} (h : Opposed x y) :
    Scalar.IsNumber x ↔ Scalar.IsNumber y := by
  have hmirrored := Mirrored.of_opposed h
  rw [isNumber_iff, isNumber_iff]
  exact ⟨hmirrored.ne_notANumber, hmirrored.symm.ne_notANumber⟩

theorem le_opposed_iff {x x' y y' : Float} (hx : Opposed x x') (hy : Opposed y y') :
    x ≤ y ↔ y' ≤ x' := by
  have hrankx : rank x' = -rank x := (Mirrored.of_opposed hx).place_eq
  have hranky : rank y' = -rank y := (Mirrored.of_opposed hy).place_eq
  have hnumberx := isNumber_iff_of_opposed hx
  have hnumbery := isNumber_iff_of_opposed hy
  constructor
  · intro h
    obtain ⟨hnx, hny⟩ := number_of_le h
    rw [le_iff_rank hnx hny] at h
    rw [le_iff_rank (hnumbery.mp hny) (hnumberx.mp hnx)]
    omega
  · intro h
    obtain ⟨hny, hnx⟩ := number_of_le h
    rw [le_iff_rank hny hnx] at h
    rw [le_iff_rank (hnumberx.mpr hnx) (hnumbery.mpr hny)]
    omega

end Double

/-- Doubles of opposed signs give opposed results and compare the other way round. -/
instance : MirroredScalar Float where
  add_comm x y := congrArg Double.packed
    (Double.unpacked_add_comm x.toModel.unpack y.toModel.unpack)
  mul_comm x y := congrArg Double.packed
    (Double.unpacked_mul_comm x.toModel.unpack y.toModel.unpack)
  sub_opposed x y := (Double.mirrored_sub x.toModel.unpack y.toModel.unpack).opposed
  add_opposed hx hy := ((Double.Mirrored.of_opposed hx).add (Double.Mirrored.of_opposed hy)).opposed
  mul_opposed x _ _ hy := ((Double.Mirrored.of_opposed hy).mul x.toModel.unpack).opposed
  div_opposed y hx := ((Double.Mirrored.of_opposed hx).div y.toModel.unpack).opposed
  mul_self_opposed hx := congrArg Double.packed (Double.Mirrored.of_opposed hx).mul_self
  le_opposed := Double.le_opposed_iff

end Collision
