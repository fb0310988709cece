import Collision.Proofs.Scalar.Order
import Collision.Proofs.Scalar.Selection
import Collision.Proofs.Scalar.Sorting
import Mathlib.Analysis.SpecialFunctions.Pow.Real
import Mathlib.Analysis.SpecialFunctions.Trigonometric.Basic

/-!
# Exact arithmetic

The real numbers as scalars. What the library says of them in its own words (`Scalar.min`,
`Scalar.signum`, numerals) is rewritten into the words of real analysis by the lemmas of this
module.
-/

set_option autoImplicit false
set_option relaxedAutoImplicit false

namespace Collision

/-- Real numbers are scalars. All of them are finite; there is none for what a minimum over nothing
amounts to, and no negative zero. -/
noncomputable instance : Scalar ℝ where
  decidableLT _ _ := Classical.propDecidable _
  decidableLE _ _ := Classical.propDecidable _
  ofNat n := n
  decimal m down e := if down then m / 10 ^ e else m * 10 ^ e
  pi := Real.pi
  sqrt := Real.sqrt
  cbrt a := if 0 ≤ a then a ^ (3⁻¹ : ℝ) else -(-a) ^ (3⁻¹ : ℝ)
  sin := Real.sin
  cos := Real.cos
  abs a := |a|
  floor a := ⌊a⌋
  toNat a := ⌊a⌋₊
  isFinite _ := true
  isSigned a := decide (a < 0)
  unbounded := 0
  totalLe a b := decide (a ≤ b)
  totalLe_total a b := by simpa using le_total a b
  totalLe_trans a b c := by simpa using le_trans

namespace Scalar

/-! ### Numerals -/

@[simp]
theorem ofNat_real (n : ℕ) : (Scalar.ofNat n : ℝ) = n := rfl

@[simp]
theorem zero_real : (@OfNat.ofNat ℝ 0 (Scalar.instOfNat 0)) = 0 := Nat.cast_zero

@[simp]
theorem one_real : (@OfNat.ofNat ℝ 1 (Scalar.instOfNat 1)) = 1 := Nat.cast_one

@[simp]
theorem numeral_real (n : ℕ) [n.AtLeastTwo] :
    (@OfNat.ofNat ℝ n (Scalar.instOfNat n)) = OfNat.ofNat n := rfl

@[simp]
theorem decimal_real (m e : ℕ) (down : Bool) :
    (@OfScientific.ofScientific ℝ Scalar.instOfScientific m down e) =
      if down then (m : ℝ) / 10 ^ e else m * 10 ^ e := rfl

theorem half_real : (@OfScientific.ofScientific ℝ Scalar.instOfScientific 5 true 1) = 1 / 2 := by
  norm_num

/-! ### Operations -/

@[simp]
theorem sqrt_real (a : ℝ) : Scalar.sqrt a = √a := rfl

@[simp]
theorem abs_real (a : ℝ) : Scalar.abs a = |a| := rfl

@[simp]
theorem sin_real (a : ℝ) : Scalar.sin a = Real.sin a := rfl

@[simp]
theorem cos_real (a : ℝ) : Scalar.cos a = Real.cos a := rfl

@[simp]
theorem floor_real (a : ℝ) : Scalar.floor a = ⌊a⌋ := rfl

@[simp]
theorem toNat_real (a : ℝ) : Scalar.toNat a = ⌊a⌋₊ := rfl

@[simp]
theorem isFinite_real (a : ℝ) : Scalar.isFinite a = true := rfl

@[simp]
theorem isSigned_real (a : ℝ) : Scalar.isSigned a = decide (a < 0) := rfl

@[simp]
theorem totalLe_real (a b : ℝ) : Scalar.totalLe a b = decide (a ≤ b) := rfl

@[simp]
theorem isNaN_real (a : ℝ) : Scalar.isNaN a = false := by simp [Scalar.isNaN]

@[simp]
theorem isZero_real (a : ℝ) : Scalar.isZero a = decide (a = 0) := by
  rw [Scalar.isZero, zero_real, ← Bool.decide_and]
  exact decide_eq_decide.mpr le_antisymm_iff.symm

theorem isNumber_real (a : ℝ) : Scalar.IsNumber a := le_refl a

@[simp]
theorem min_real (a b : ℝ) : Scalar.min a b = Min.min a b := by
  unfold Scalar.min
  rw [isNaN_real, if_neg Bool.false_ne_true]
  split_ifs with h
  · exact (min_eq_right h.le).symm
  · exact (min_eq_left (not_lt.mp h)).symm

@[simp]
theorem max_real (a b : ℝ) : Scalar.max a b = Max.max a b := by
  unfold Scalar.max
  rw [isNaN_real, if_neg Bool.false_ne_true]
  split_ifs with h
  · exact (max_eq_right h.le).symm
  · exact (max_eq_left (not_lt.mp h)).symm

@[simp]
theorem lesser_real (a b : ℝ) : Scalar.lesser a b = Min.min a b := by
  unfold Scalar.lesser
  split_ifs with h
  · exact (min_eq_left h).symm
  · exact (min_eq_right (not_le.mp h).le).symm

@[simp]
theorem greater_real (a b : ℝ) : Scalar.greater a b = Max.max a b := by
  unfold Scalar.greater
  split_ifs with h
  · exact (max_eq_left h).symm
  · exact (max_eq_right (not_le.mp h).le).symm

/-- Copying a sign onto a magnitude makes the largest product with whatever has that sign. -/
theorem copySign_mul_real (a b : ℝ) : Scalar.copySign a b * b = |a| * |b| := by
  unfold Scalar.copySign
  rw [isSigned_real, abs_real]
  split_ifs with h
  · rw [abs_of_neg (of_decide_eq_true h)]
    ring
  · rw [abs_of_nonneg (not_lt.mp fun hlt ↦ h (decide_eq_true hlt))]

@[simp]
theorem abs_copySign_real (a b : ℝ) : |Scalar.copySign a b| = |a| := by
  unfold Scalar.copySign
  rw [abs_real]
  split_ifs
  · rw [abs_neg, abs_abs]
  · exact abs_abs a

theorem signum_real (a : ℝ) : Scalar.signum a = Scalar.copySign 1 a := by
  simp [Scalar.signum]

theorem signum_of_nonneg {a : ℝ} (h : 0 ≤ a) : Scalar.signum a = 1 := by
  rw [signum_real, copySign, isSigned_real, decide_eq_false (not_lt.mpr h), if_neg (by simp),
    abs_real, abs_one]

theorem signum_of_neg {a : ℝ} (h : a < 0) : Scalar.signum a = -1 := by
  rw [signum_real, copySign, isSigned_real, decide_eq_true h, if_pos rfl, abs_real, abs_one]

theorem signum_mul_of_pos {s : ℝ} (hs : 0 < s) (a : ℝ) : Scalar.signum (s * a) = Scalar.signum a := by
  rcases lt_or_ge a 0 with ha | ha
  · rw [signum_of_neg ha, signum_of_neg (mul_neg_of_pos_of_neg hs ha)]
  · rw [signum_of_nonneg ha, signum_of_nonneg (mul_nonneg hs.le ha)]

end Scalar

instance : OrderedScalar ℝ where
  number_of_le _ := ⟨le_refl _, le_refl _⟩
  le_trans := le_trans
  le_total _ _ := le_total _ _
  lt_iff := lt_iff_le_not_ge
  le_of_totalLe _ _ h := of_decide_eq_true h
  sub_number _ _ := le_refl _
  add_number _ _ := le_refl _
  sub_zero _ hle hge := by
    rw [Scalar.zero_real] at hle hge
    constructor <;> linarith
  add_zero _ hle hge := by
    rw [Scalar.zero_real] at hle hge
    constructor <;> linarith

namespace Scalar

/-! ### Least and largest of a list -/

theorem foldl_min_real_le (values : List ℝ) (a : ℝ) :
    values.foldl Scalar.min a ≤ a ∧ ∀ b ∈ values, values.foldl Scalar.min a ≤ b := by
  induction values generalizing a with
  | nil => simp
  | cons c rest ih =>
    obtain ⟨hstart, hrest⟩ := ih (Scalar.min a c)
    rw [List.foldl_cons]
    rw [min_real] at hstart ⊢
    refine ⟨hstart.trans (min_le_left a c), ?_⟩
    intro b hb
    rcases List.mem_cons.mp hb with rfl | hb
    · exact hstart.trans (min_le_right a b)
    · rw [← min_real]
      exact hrest b hb

theorem le_foldl_max_real (values : List ℝ) (a : ℝ) :
    a ≤ values.foldl Scalar.max a ∧ ∀ b ∈ values, b ≤ values.foldl Scalar.max a := by
  induction values generalizing a with
  | nil => simp
  | cons c rest ih =>
    obtain ⟨hstart, hrest⟩ := ih (Scalar.max a c)
    rw [List.foldl_cons]
    rw [max_real] at hstart ⊢
    refine ⟨(le_max_left a c).trans hstart, ?_⟩
    intro b hb
    rcases List.mem_cons.mp hb with rfl | hb
    · exact (le_max_right a b).trans hstart
    · rw [← max_real]
      exact hrest b hb

theorem filter_isNaN_real (values : List ℝ) : (values.filter fun a ↦ !isNaN a) = values := by
  simp

theorem foldl_min_real_mem (values : List ℝ) (a : ℝ) :
    values.foldl Scalar.min a ∈ a :: values := by
  induction values generalizing a with
  | nil => exact List.mem_cons_self
  | cons c rest ih =>
    rw [List.foldl_cons]
    rcases List.mem_cons.mp (ih (Scalar.min a c)) with h | h
    · rw [h, min_real]
      rcases min_choice a c with h | h <;> simp [h]
    · exact .tail a (.tail c h)

theorem foldl_max_real_mem (values : List ℝ) (a : ℝ) :
    values.foldl Scalar.max a ∈ a :: values := by
  induction values generalizing a with
  | nil => exact List.mem_cons_self
  | cons c rest ih =>
    rw [List.foldl_cons]
    rcases List.mem_cons.mp (ih (Scalar.max a c)) with h | h
    · rw [h, max_real]
      rcases max_choice a c with h | h <;> simp [h]
    · exact .tail a (.tail c h)

theorem minimum?_real_mem {values : List ℝ} {least : ℝ} (h : minimum? values = some least) :
    least ∈ values := by
  unfold minimum? at h
  rw [filter_isNaN_real] at h
  cases values with
  | nil => cases h
  | cons a rest =>
    obtain rfl := Option.some_inj.mp h
    exact foldl_min_real_mem rest a

theorem maximum?_real_mem {values : List ℝ} {largest : ℝ} (h : maximum? values = some largest) :
    largest ∈ values := by
  unfold maximum? at h
  rw [filter_isNaN_real] at h
  cases values with
  | nil => cases h
  | cons a rest =>
    obtain rfl := Option.some_inj.mp h
    exact foldl_max_real_mem rest a

theorem minimum?_real_le (values : List ℝ) (h : values ≠ []) :
    ∃ least, minimum? values = some least ∧ ∀ a ∈ values, least ≤ a := by
  unfold minimum?
  rw [filter_isNaN_real]
  match values, h with
  | a :: rest, _ =>
    obtain ⟨hstart, hrest⟩ := foldl_min_real_le rest a
    exact ⟨_, rfl, List.forall_mem_cons.mpr ⟨hstart, hrest⟩⟩

theorem le_maximum?_real (values : List ℝ) (h : values ≠ []) :
    ∃ largest, maximum? values = some largest ∧ ∀ a ∈ values, a ≤ largest := by
  unfold maximum?
  rw [filter_isNaN_real]
  match values, h with
  | a :: rest, _ =>
    obtain ⟨hstart, hrest⟩ := le_foldl_max_real rest a
    exact ⟨_, rfl, List.forall_mem_cons.mpr ⟨hstart, hrest⟩⟩

/-- The member of the largest key is a member, and no key is larger. -/
theorem lastMaxBy?_real {β : Type} (key : β → ℝ) (members : List β) (h : members ≠ []) :
    ∃ best, lastMaxBy? key members = some best ∧ best ∈ members ∧
      ∀ b ∈ members, key b ≤ key best := by
  rcases hbest : lastMaxBy? key members with _ | best
  · exact absurd (lastMaxBy?_eq_none hbest) h
  · obtain ⟨hmem, hmax⟩ := lastMaxBy?_eq_some hbest
    exact ⟨best, rfl, hmem, fun b hb ↦ by simpa using hmax b hb⟩

/-- Sorting by falling key puts a member of the largest key first. -/
theorem sortDescending_real {β : Type} (key : β → ℝ) {members : List β} (h : members ≠ []) :
    ∃ best rest, sortDescending key members = best :: rest ∧ ∀ b ∈ members, key b ≤ key best := by
  have hfalling := sortDescending_falling key members
  have hperm := sortDescending_perm key members
  cases hsort : sortDescending key members with
  | nil => exact absurd (hsort ▸ hperm).nil_eq.symm h
  | cons best rest =>
    rw [hsort] at hfalling hperm
    exact ⟨best, rest, rfl, fun b hb ↦ by
      simpa using hfalling.totalLe_head (hperm.mem_iff.mpr hb)⟩

end Scalar

end Collision
