import Collision.Proofs.Scalar.Order
import Mathlib

/-!
# Doubles compare as numbers do

The place of a double that is a number is its value in units of the last place of the smallest
doubles, infinity standing one unit above the largest finite double (`place`). The bits of a double
are its sign and the magnitude of its place (`place_unpack`), comparison compares places
(`compare_unpack`), and so does the total order as far as numbers go. With this doubles satisfy the
laws of `OrderedScalar`.
-/

set_option autoImplicit false
set_option relaxedAutoImplicit false

namespace Collision

open Float.Model Float.Model.UnpackedFloat

namespace Double

/-! ### The parts of the bits -/

theorem toNat_unpackExponent (b : BitVec 64) :
    (@unpackExponent Format.binary64 b).toNat = b.toNat / 2 ^ 52 % 2 ^ 11 := by
  simp [unpackExponent, Nat.shiftRight_eq_div_pow]

theorem toNat_unpackMantissa (b : BitVec 64) :
    (@unpackMantissa Format.binary64 b).toNat = b.toNat % 2 ^ 52 := by
  simp [unpackMantissa]

theorem toNat_unpackSign (b : BitVec 64) :
    (@unpackSign Format.binary64 b).toNat = b.toNat / 2 ^ 63 := by
  have hb : b.toNat < 2 ^ 64 := b.isLt
  simp [unpackSign, Nat.shiftRight_eq_div_pow]
  omega

theorem unpackExponent_eq_ones_iff (b : BitVec 64) :
    @unpackExponent Format.binary64 b = -1#_ ↔ b.toNat / 2 ^ 52 % 2 ^ 11 = 2047 := by
  rw [← BitVec.toNat_inj, toNat_unpackExponent]
  rfl

theorem unpackExponent_eq_zeros_iff (b : BitVec 64) :
    @unpackExponent Format.binary64 b = 0#_ ↔ b.toNat / 2 ^ 52 % 2 ^ 11 = 0 := by
  rw [← BitVec.toNat_inj, toNat_unpackExponent]
  rfl

theorem unpackMantissa_eq_zeros_iff (b : BitVec 64) :
    @unpackMantissa Format.binary64 b = 0#_ ↔ b.toNat % 2 ^ 52 = 0 := by
  rw [← BitVec.toNat_inj, toNat_unpackMantissa]
  rfl

theorem toNat_implicit_append (v : BitVec 52) : (1#1 ++ v).toNat = 2 ^ 52 + v.toNat := by
  rw [BitVec.toNat_append, ← Nat.shiftLeft_add_eq_or_of_lt v.isLt]
  rfl

/-- The number of a magnitude with the sign that stands in the highest of the bits. -/
def signed (bits : Nat) (magnitude : Int) : Int :=
  if bits < 2 ^ 63 then magnitude else -magnitude

theorem apply_unpackSign (b : BitVec 64) (magnitude : Int) :
    (Sign.ofBitVec (@unpackSign Format.binary64 b)).apply magnitude =
      signed b.toNat magnitude := by
  have hb : b.toNat < 2 ^ 64 := b.isLt
  have hsign : @unpackSign Format.binary64 b = 0#1 ↔ b.toNat < 2 ^ 63 := by
    rw [← BitVec.toNat_inj, toNat_unpackSign, BitVec.toNat_ofNat]
    omega
  unfold Sign.ofBitVec signed
  by_cases hpositive : b.toNat < 2 ^ 63
  · rw [if_pos hpositive, if_pos (hsign.mpr hpositive)]
    rfl
  · rw [if_neg hpositive, if_neg (hsign.not.mpr hpositive)]
    rfl

/-! ### Places -/

/-- Sign and magnitude of the place of a double; zero for what is not a number. -/
def place : UnpackedFloat → Int
  | .notANumber => 0
  | .zero _ => 0
  | .infinity s => s.apply (2047 * 2 ^ 52)
  | .finite s m e _ => s.apply (m + (e + 1074) * 2 ^ 52)

/-- The mantissas and exponents that doubles have. -/
def Canonical : UnpackedFloat → Prop
  | .finite _ m e _ => m < 2 ^ 53 ∧ -1074 ≤ e ∧ e ≤ 971 ∧ (2 ^ 52 ≤ m ∨ e = -1074)
  | _ => True

theorem canonical_unpack (b : BitVec 64) : Canonical (unpack Format.binary64 b) := by
  have hb : b.toNat < 2 ^ 64 := b.isLt
  have hexponent := toNat_unpackExponent b
  have hmantissa := toNat_unpackMantissa b
  have hbias : (Format.binary64.exponentBias : Int) = 1023 := rfl
  fun_cases unpack Format.binary64 b with
  | case1 => trivial
  | case2 => trivial
  | case3 => trivial
  | case4 mantissa exponent shifted _ _ _ hzeros _ =>
    have hzeros := (unpackExponent_eq_zeros_iff b).mp hzeros
    refine ⟨?_, ?_, ?_, .inr ?_⟩ <;> simp only [mantissa, exponent, shifted, hbias] <;> omega
  | case5 mantissa exponent shifted _ _ hones hzeros =>
    have hones := (unpackExponent_eq_ones_iff b).not.mp hones
    have hzeros := (unpackExponent_eq_zeros_iff b).not.mp hzeros
    have happend := toNat_implicit_append mantissa
    refine ⟨?_, ?_, ?_, .inl ?_⟩ <;> simp only [mantissa, exponent, shifted, hbias] at * <;> omega

/-- The bits of a number below the sign spell the magnitude of its place. -/
theorem place_unpack (b : BitVec 64) (hnumber : unpack Format.binary64 b ≠ .notANumber) :
    place (unpack Format.binary64 b) = signed b.toNat (b.toNat % 2 ^ 63 : Nat) := by
  have hb : b.toNat < 2 ^ 64 := b.isLt
  have hexponent := toNat_unpackExponent b
  have hmantissa := toNat_unpackMantissa b
  have hbias : (Format.binary64.exponentBias : Int) = 1023 := rfl
  revert hnumber
  fun_cases unpack Format.binary64 b with
  | case1 mantissa exponent _ _ hones hempty =>
    intro _
    have hones := (unpackExponent_eq_ones_iff b).mp hones
    have hempty := (unpackMantissa_eq_zeros_iff b).mp hempty
    refine (apply_unpackSign b _).trans (congrArg (signed b.toNat) ?_)
    omega
  | case2 => exact fun h ↦ absurd rfl h
  | case3 mantissa exponent _ _ hones hzeros hempty =>
    intro _
    have hzeros := (unpackExponent_eq_zeros_iff b).mp hzeros
    have hempty := (unpackMantissa_eq_zeros_iff b).mp hempty
    have hmagnitude : b.toNat % 2 ^ 63 = 0 := by omega
    rw [hmagnitude]
    simp [place, signed]
  | case4 mantissa exponent shifted _ _ _ hzeros _ =>
    intro _
    have hzeros := (unpackExponent_eq_zeros_iff b).mp hzeros
    refine (apply_unpackSign b _).trans (congrArg (signed b.toNat) ?_)
    simp only [mantissa, exponent, shifted, hbias]
    omega
  | case5 mantissa exponent shifted _ _ hones hzeros =>
    intro _
    have hones := (unpackExponent_eq_ones_iff b).not.mp hones
    have hzeros := (unpackExponent_eq_zeros_iff b).not.mp hzeros
    have happend := toNat_implicit_append mantissa
    refine (apply_unpackSign b _).trans (congrArg (signed b.toNat) ?_)
    simp only [mantissa, exponent, shifted, hbias] at *
    omega

/-- Magnitudes compare as exponents do, and where these are equal as mantissas do. -/
theorem compare_magnitude {m n : Nat} {e f : Int} (hm : m < 2 ^ 53) (hn : n < 2 ^ 53)
    (he : -1074 ≤ e) (hf : -1074 ≤ f) (hme : 2 ^ 52 ≤ m ∨ e = -1074)
    (hnf : 2 ^ 52 ≤ n ∨ f = -1074) :
    (compare e f).then (compare m n) =
      compare (m + (e + 1074) * 2 ^ 52 : Int) (n + (f + 1074) * 2 ^ 52) := by
  rcases lt_trichotomy e f with hlt | rfl | hgt
  · have hplaces : (m + (e + 1074) * 2 ^ 52 : Int) < n + (f + 1074) * 2 ^ 52 := by omega
    rw [compare_lt_iff_lt.mpr hlt, compare_lt_iff_lt.mpr hplaces]
    rfl
  · rcases lt_trichotomy m n with hlt | rfl | hgt
    · rw [compare_eq_iff_eq.mpr rfl, compare_lt_iff_lt.mpr hlt, compare_lt_iff_lt.mpr (by omega)]
      rfl
    · rw [compare_eq_iff_eq.mpr rfl, compare_eq_iff_eq.mpr rfl, compare_eq_iff_eq.mpr rfl]
      rfl
    · rw [compare_eq_iff_eq.mpr rfl, compare_gt_iff_gt.mpr hgt, compare_gt_iff_gt.mpr (by omega)]
      rfl
  · have hplaces : (n + (f + 1074) * 2 ^ 52 : Int) < m + (e + 1074) * 2 ^ 52 := by omega
    rw [compare_gt_iff_gt.mpr hgt, compare_gt_iff_gt.mpr hplaces]
    rfl

theorem compare_neg_neg (a b : Int) : compare (-a) (-b) = (compare a b).swap := by
  rcases lt_trichotomy a b with hlt | rfl | hgt
  · rw [compare_lt_iff_lt.mpr hlt, compare_gt_iff_gt.mpr (by omega)]
    rfl
  · rw [compare_eq_iff_eq.mpr rfl, compare_eq_iff_eq.mpr rfl]
    rfl
  · rw [compare_gt_iff_gt.mpr hgt, compare_lt_iff_lt.mpr (by omega)]
    rfl

/-- Comparison compares places. -/
theorem compare_eq {u v : UnpackedFloat} (hu : Canonical u) (hv : Canonical v)
    (hnu : u ≠ .notANumber) (hnv : v ≠ .notANumber) :
    u.compare v = some (compare (place u) (place v)) := by
  rcases u with s | _ | s | ⟨s, m, e, hm⟩
  · rcases v with t | _ | t | ⟨t, n, f, hn⟩
    · cases s <;> cases t <;> rfl
    · exact absurd rfl hnv
    · cases s <;> rfl
    · obtain ⟨hn53, hf, hf', -⟩ := hv
      cases s <;> cases t <;> refine congrArg some (Eq.symm ?_) <;>
        simp only [place, Sign.apply, compare_lt_iff_lt, compare_gt_iff_gt] <;> omega
  · exact absurd rfl hnu
  · rcases v with t | _ | t | ⟨t, n, f, hn⟩
    · cases t <;> rfl
    · exact absurd rfl hnv
    · rfl
    · obtain ⟨-, hf, -, -⟩ := hv
      cases t <;> refine congrArg some (Eq.symm ?_) <;>
        simp only [place, Sign.apply, compare_lt_iff_lt, compare_gt_iff_gt] <;> omega
  · obtain ⟨hm53, he, he', hme⟩ := hu
    rcases v with t | _ | t | ⟨t, n, f, hn⟩
    · cases s <;> cases t <;> refine congrArg some (Eq.symm ?_) <;>
        simp only [place, Sign.apply, compare_lt_iff_lt, compare_gt_iff_gt] <;> omega
    · exact absurd rfl hnv
    · cases s <;> refine congrArg some (Eq.symm ?_) <;>
        simp only [place, Sign.apply, compare_lt_iff_lt, compare_gt_iff_gt] <;> omega
    · obtain ⟨hn53, hf, hf', hnf⟩ := hv
      have hmagnitude := compare_magnitude hm53 hn53 he hf hme hnf
      cases s <;> cases t
      · exact congrArg some ((congrArg Ordering.swap hmagnitude).trans (compare_neg_neg _ _).symm)
      · refine congrArg some (Eq.symm ?_)
        simp only [place, Sign.apply, compare_lt_iff_lt]
        omega
      · refine congrArg some (Eq.symm ?_)
        simp only [place, Sign.apply, compare_gt_iff_gt]
        omega
      · exact congrArg some hmagnitude

/-! ### Comparison -/

theorem le_iff_compare (x y : Float) :
    x ≤ y ↔ (x.toModel.unpack.compare y.toModel.unpack).any (·.isLE) = true :=
  ⟨fun h ↦ of_decide_eq_true h, fun h ↦ decide_eq_true h⟩

theorem lt_iff_compare (x y : Float) :
    x < y ↔ x.toModel.unpack.compare y.toModel.unpack = some .lt := by
  have hlt : x < y ↔ (x.toModel.unpack.compare y.toModel.unpack == some .lt) = true :=
    ⟨fun h ↦ of_decide_eq_true h, fun h ↦ decide_eq_true h⟩
  rw [hlt, beq_iff_eq]

theorem compare_notANumber (u : UnpackedFloat) : u.compare .notANumber = none := by
  cases u <;> rfl

/-- The place of a double in the order. -/
def rank (x : Float) : Int := place x.toModel.unpack

theorem isNumber_iff (x : Float) : Scalar.IsNumber x ↔ x.toModel.unpack ≠ .notANumber := by
  have hself : Scalar.IsNumber x ↔ x ≤ x := Iff.rfl
  have hcanonical : Canonical x.toModel.unpack := canonical_unpack _
  rw [hself, le_iff_compare]
  constructor
  · intro h hnan
    rw [hnan] at h
    exact Bool.false_ne_true h
  · intro h
    rw [compare_eq hcanonical hcanonical h h, compare_eq_iff_eq.mpr rfl]
    rfl

theorem compare_rank {x y : Float} (hx : Scalar.IsNumber x) (hy : Scalar.IsNumber y) :
    x.toModel.unpack.compare y.toModel.unpack = some (compare (rank x) (rank y)) :=
  compare_eq (canonical_unpack _) (canonical_unpack _) ((isNumber_iff x).mp hx)
    ((isNumber_iff y).mp hy)

theorem le_iff_rank {x y : Float} (hx : Scalar.IsNumber x) (hy : Scalar.IsNumber y) :
    x ≤ y ↔ rank x ≤ rank y := by
  rw [le_iff_compare, compare_rank hx hy, Option.any_some, Ordering.isLE_iff_ne_gt,
    compare_gt_iff_gt.not, not_lt]

theorem lt_iff_rank {x y : Float} (hx : Scalar.IsNumber x) (hy : Scalar.IsNumber y) :
    x < y ↔ rank x < rank y := by
  rw [lt_iff_compare, compare_rank hx hy, Option.some.injEq, compare_lt_iff_lt]

theorem number_of_le {x y : Float} (h : x ≤ y) : Scalar.IsNumber x ∧ Scalar.IsNumber y := by
  rw [le_iff_compare] at h
  rw [isNumber_iff, isNumber_iff]
  constructor <;> intro hnan
  · rw [hnan] at h
    exact Bool.false_ne_true h
  · rw [hnan, compare_notANumber] at h
    exact Bool.false_ne_true h

theorem le_of_lt {x y : Float} (h : x < y) : x ≤ y := by
  rw [le_iff_compare, (lt_iff_compare x y).mp h]
  rfl

/-- The total order is the order of the bits, sign and magnitude. -/
theorem rank_le_of_totalLe {x y : Float} (hx : Scalar.IsNumber x) (hy : Scalar.IsNumber y)
    (h : Scalar.totalLe x y = true) : rank x ≤ rank y := by
  have hkey : doubleOrderKey x ≤ doubleOrderKey y := of_decide_eq_true h
  have hrankx : rank x = signed x.toBits.toNat (x.toBits.toNat % 2 ^ 63 : Nat) :=
    place_unpack _ ((isNumber_iff x).mp hx)
  have hranky : rank y = signed y.toBits.toNat (y.toBits.toNat % 2 ^ 63 : Nat) :=
    place_unpack _ ((isNumber_iff y).mp hy)
  have hboundx : x.toBits.toNat < 2 ^ 64 := x.toBits.toBitVec.isLt
  have hboundy : y.toBits.toNat < 2 ^ 64 := y.toBits.toBitVec.isLt
  rw [hrankx, hranky]
  simp only [doubleOrderKey] at hkey
  unfold signed
  split_ifs at hkey ⊢ <;> omega

/-! ### Adding and subtracting -/

theorem parts_of_notANumber {b : BitVec 64} (h : unpack Format.binary64 b = .notANumber) :
    @unpackExponent Format.binary64 b = -1#_ ∧
      @unpackMantissa Format.binary64 b ≠ 0#_ := by
  revert h
  fun_cases unpack Format.binary64 b with
  | case1 => exact UnpackedFloat.noConfusion
  | case2 _ _ hones hempty => exact fun _ ↦ ⟨hones, hempty⟩
  | case3 => exact UnpackedFloat.noConfusion
  | case4 => exact UnpackedFloat.noConfusion
  | case5 => exact UnpackedFloat.noConfusion

/-- Bits that spell no number come from packing no number. -/
theorem unpack_pack_ne {u : UnpackedFloat} (hu : u ≠ .notANumber) :
    unpack Format.binary64 (pack Format.binary64 u) ≠ .notANumber := by
  intro h
  have hparts := parts_of_notANumber h
  revert hparts
  fun_cases pack Format.binary64 u with
  | case1 => exact absurd rfl hu
  | case2 s => simp [packedInfinity]
  | case3 s => simp [packedZero]
  | case4 s m e hm biased h => simp [packedInfinity]
  | case5 s m e hm bits biased hlarge hnormal =>
    have hrange : biased + 1 < 2 ^ 11 := Nat.lt_of_not_le hlarge
    intro hparts
    have hones := hparts.1
    have hall : (-1#11).toNat = 2047 := rfl
    have hpow : 2 ^ Format.binary64.exponentBits = 2048 := rfl
    rw [unpackExponent_packComponents, ← BitVec.toNat_inj, BitVec.toNat_ofNat, hall, hpow] at hones
    omega
  | case6 s m e hm bits biased hlarge hnormal =>
    intro hparts
    rw [unpackExponent_packComponents] at hparts
    exact absurd hparts.1 (by decide)

theorem toNat_packComponents (s : Sign) (exponent : BitVec 11) (mantissa : BitVec 52) :
    (packComponents Format.binary64 s exponent mantissa).toNat =
      s.toBitVec.toNat * 2 ^ 63 + exponent.toNat * 2 ^ 52 + mantissa.toNat := by
  unfold packComponents
  rw [BitVec.toNat_append, ← Nat.shiftLeft_add_eq_or_of_lt mantissa.isLt, BitVec.toNat_append,
    ← Nat.shiftLeft_add_eq_or_of_lt exponent.isLt, Nat.shiftLeft_eq, Nat.shiftLeft_eq]
  omega

/-- A canonical finite float is packed as its sign and the magnitude of its place. -/
theorem toNat_pack_finite {s : Sign} {m : Nat} {e : Int} {hm : 0 < m}
    (hcanonical : Canonical (.finite s m e hm)) :
    ((pack Format.binary64 (.finite s m e hm)).toNat : Int) =
      s.toBitVec.toNat * 2 ^ 63 + (m + (e + 1074) * 2 ^ 52) := by
  obtain ⟨hm53, he, he', hme⟩ := hcanonical
  have hbias : (Format.binary64.exponentBias : Int) = 1023 := rfl
  have hwidth : (Format.binary64.mantissaBitsWithoutImplicit : Int) = 52 := rfl
  have hpow : 2 ^ Format.binary64.exponentBits = 2048 := rfl
  have hlog : m.log2 = 52 ↔ 2 ^ 52 ≤ m := by
    rw [Nat.log2_eq_iff (Nat.ne_of_gt hm)]
    omega
  have hbiased : (e + Format.binary64.exponentBias +
      Format.binary64.mantissaBitsWithoutImplicit).toNat = (e + 1075).toNat := by
    rw [hbias, hwidth]
    omega
  have hmantissaBits : Format.binary64.mantissaBits = 53 := rfl
  unfold UnpackedFloat.pack
  simp only [hbiased, hpow, hmantissaBits]
  rw [if_neg (by omega)]
  by_cases hnormal : 2 ^ 52 ≤ m
  · rw [if_pos (by rw [hlog.mpr hnormal]), toNat_packComponents, BitVec.toNat_ofNat,
      BitVec.toNat_ofNat, hpow]
    omega
  · rw [if_neg fun h ↦ hnormal (hlog.mp (Nat.succ.inj h)), toNat_packComponents,
      BitVec.toNat_ofNat, BitVec.toNat_ofNat]
    omega

/-- Packing keeps the place. -/
theorem place_unpack_pack {u : UnpackedFloat} (hu : Canonical u) :
    place (unpack Format.binary64 (pack Format.binary64 u)) = place u := by
  rcases u with s | _ | s | ⟨s, m, e, hm⟩
  · cases s <;> rfl
  · rfl
  · cases s <;> rfl
  · have hpack := toNat_pack_finite hu
    obtain ⟨hm53, he, he', -⟩ := hu
    rw [place_unpack _ (unpack_pack_ne UnpackedFloat.noConfusion)]
    cases s
    · have hsign : (Sign.negative.toBitVec.toNat : Int) = 1 := rfl
      rw [hsign] at hpack
      simp only [place, Sign.apply, signed]
      rw [if_neg (by omega)]
      omega
    · have hsign : (Sign.positive.toBitVec.toNat : Int) = 0 := rfl
      rw [hsign] at hpack
      simp only [place, Sign.apply, signed]
      rw [if_pos (by omega)]
      omega

theorem round_ne (s : Sign) (m : Nat) (e : Int) :
    UnpackedFloat.round Format.binary64 s m e ≠ .notANumber := by
  unfold UnpackedFloat.round UnpackedFloat.roundWithAccuracy
  simp only
  split <;> exact UnpackedFloat.noConfusion

theorem normalize_ne (m e : Int) (s : Sign) :
    UnpackedFloat.normalize Format.binary64 m e s ≠ .notANumber := by
  unfold UnpackedFloat.normalize
  split
  · exact round_ne _ _ _
  · exact UnpackedFloat.noConfusion
  · exact round_ne _ _ _

theorem add_ne {u v : UnpackedFloat} (hu : u ≠ .notANumber) (hv : v.isFinite = true) :
    UnpackedFloat.add Format.binary64 u v ≠ .notANumber := by
  rcases v with t | _ | t | ⟨t, n, f, hn⟩
  · exact absurd hv Bool.false_ne_true
  · exact absurd hv Bool.false_ne_true
  · rcases u with s | _ | s | ⟨s, m, e, hm⟩
    · exact UnpackedFloat.noConfusion
    · exact absurd rfl hu
    · cases s <;> cases t <;> exact UnpackedFloat.noConfusion
    · exact UnpackedFloat.noConfusion
  · rcases u with s | _ | s | ⟨s, m, e, hm⟩
    · exact UnpackedFloat.noConfusion
    · exact absurd rfl hu
    · exact UnpackedFloat.noConfusion
    · exact normalize_ne _ _ _

theorem sub_ne {u v : UnpackedFloat} (hu : u ≠ .notANumber) (hv : v.isFinite = true) :
    UnpackedFloat.sub Format.binary64 u v ≠ .notANumber := by
  rcases v with t | _ | t | ⟨t, n, f, hn⟩
  · exact absurd hv Bool.false_ne_true
  · exact absurd hv Bool.false_ne_true
  · rcases u with s | _ | s | ⟨s, m, e, hm⟩
    · exact UnpackedFloat.noConfusion
    · exact absurd rfl hu
    · cases s <;> cases t <;> exact UnpackedFloat.noConfusion
    · exact UnpackedFloat.noConfusion
  · rcases u with s | _ | s | ⟨s, m, e, hm⟩
    · exact UnpackedFloat.noConfusion
    · exact absurd rfl hu
    · exact UnpackedFloat.noConfusion
    · exact normalize_ne _ _ _

theorem isNumber_add {x m : Float} (hx : Scalar.IsNumber x) (hm : Scalar.isFinite m = true) :
    Scalar.IsNumber (x + m) :=
  (isNumber_iff _).mpr (unpack_pack_ne (add_ne ((isNumber_iff x).mp hx) hm))

theorem isNumber_sub {x m : Float} (hx : Scalar.IsNumber x) (hm : Scalar.isFinite m = true) :
    Scalar.IsNumber (x - m) :=
  (isNumber_iff _).mpr (unpack_pack_ne (sub_ne ((isNumber_iff x).mp hx) hm))

/-- A float that is at most zero and at least zero is a zero of some sign. -/
theorem unpack_eq_zero {m : Float} (hle : m ≤ 0) (hge : 0 ≤ m) :
    ∃ s, m.toModel.unpack = .zero s := by
  have hm := (number_of_le hle).1
  have h0 := (number_of_le hle).2
  have hzero : rank 0 = 0 := by decide
  rw [le_iff_rank hm h0] at hle
  rw [le_iff_rank h0 hm] at hge
  have hrank : place m.toModel.unpack = 0 := by
    show rank m = 0
    omega
  have hnumber := (isNumber_iff m).mp hm
  have hcanonical : Canonical m.toModel.unpack := canonical_unpack _
  rcases hu : m.toModel.unpack with s | _ | s | ⟨s, n, e, hn⟩
  · rw [hu] at hrank
    cases s <;> exact absurd hrank (by decide)
  · exact absurd hu hnumber
  · exact ⟨s, rfl⟩
  · rw [hu] at hrank hcanonical
    obtain ⟨-, he, -, -⟩ := hcanonical
    cases s <;> simp only [place, Sign.apply] at hrank <;> omega

theorem rank_add_zero {x m : Float} (hle : m ≤ 0) (hge : 0 ≤ m) : rank (x + m) = rank x := by
  obtain ⟨s, hm⟩ := unpack_eq_zero hle hge
  have hcanonical : Canonical x.toModel.unpack := canonical_unpack _
  have hsum : rank (x + m) = place (unpack Format.binary64 (pack Format.binary64
      (UnpackedFloat.add Format.binary64 x.toModel.unpack m.toModel.unpack))) := rfl
  rw [hsum, hm, rank]
  rcases hu : x.toModel.unpack with t | _ | t | ⟨t, n, e, hn⟩
  · cases s <;> cases t <;> rfl
  · cases s <;> rfl
  · cases s <;> cases t <;> rfl
  · rw [hu] at hcanonical
    cases s <;> exact place_unpack_pack hcanonical

theorem rank_sub_zero {x m : Float} (hle : m ≤ 0) (hge : 0 ≤ m) : rank (x - m) = rank x := by
  obtain ⟨s, hm⟩ := unpack_eq_zero hle hge
  have hcanonical : Canonical x.toModel.unpack := canonical_unpack _
  have hdifference : rank (x - m) = place (unpack Format.binary64 (pack Format.binary64
      (UnpackedFloat.sub Format.binary64 x.toModel.unpack m.toModel.unpack))) := rfl
  rw [hdifference, hm, rank]
  rcases hu : x.toModel.unpack with t | _ | t | ⟨t, n, e, hn⟩
  · cases s <;> cases t <;> rfl
  · cases s <;> rfl
  · cases s <;> cases t <;> rfl
  · rw [hu] at hcanonical
    cases s <;> exact place_unpack_pack hcanonical

theorem isFinite_of_zero {m : Float} (hle : m ≤ 0) (hge : 0 ≤ m) : Scalar.isFinite m = true := by
  obtain ⟨s, hm⟩ := unpack_eq_zero hle hge
  show m.toModel.unpack.isFinite = true
  rw [hm]
  rfl

theorem le_and_ge_of_rank_eq {x y : Float} (hx : Scalar.IsNumber x) (hy : Scalar.IsNumber y)
    (h : rank x = rank y) : x ≤ y ∧ y ≤ x :=
  ⟨(le_iff_rank hx hy).mpr h.le, (le_iff_rank hy hx).mpr h.ge⟩

end Double

/-- Doubles compare as numbers do. -/
instance : OrderedScalar Float where
  number_of_le := Double.number_of_le
  le_trans := by
    intro x y z hxy hyz
    have hx := (Double.number_of_le hxy).1
    obtain ⟨hy, hz⟩ := Double.number_of_le hyz
    rw [Double.le_iff_rank hx hy] at hxy
    rw [Double.le_iff_rank hy hz] at hyz
    exact (Double.le_iff_rank hx hz).mpr (hxy.trans hyz)
  le_total := by
    intro x y hx hy
    rw [Double.le_iff_rank hx hy, Double.le_iff_rank hy hx]
    exact Int.le_total _ _
  lt_iff := by
    intro x y
    constructor
    · intro h
      obtain ⟨hx, hy⟩ := Double.number_of_le (Double.le_of_lt h)
      rw [Double.lt_iff_rank hx hy] at h
      rw [Double.le_iff_rank hx hy, Double.le_iff_rank hy hx]
      omega
    · rintro ⟨h, hn⟩
      obtain ⟨hx, hy⟩ := Double.number_of_le h
      rw [Double.le_iff_rank hy hx] at hn
      exact (Double.lt_iff_rank hx hy).mpr (not_le.mp hn)
  le_of_totalLe hx hy h := (Double.le_iff_rank hx hy).mpr (Double.rank_le_of_totalLe hx hy h)
  sub_number := Double.isNumber_sub
  add_number := Double.isNumber_add
  sub_zero hx hle hge :=
    Double.le_and_ge_of_rank_eq (Double.isNumber_sub hx (Double.isFinite_of_zero hle hge)) hx
      (Double.rank_sub_zero hle hge)
  add_zero hx hle hge :=
    Double.le_and_ge_of_rank_eq (Double.isNumber_add hx (Double.isFinite_of_zero hle hge)) hx
      (Double.rank_add_zero hle hge)

end Collision
