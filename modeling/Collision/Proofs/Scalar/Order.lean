import Collision.Scalar
import Mathlib.Data.List.Basic
import Mathlib.Tactic.Basic

/-!
# Scalars that compare as numbers do

What the comparisons of an arithmetic have to satisfy for the broad phase to be right, stated so
that it holds of doubles with their infinities and values that are no numbers, and of exact
arithmetic.

`OrderedScalar` is the class of these laws. `Scalar.sortAscending_pairwise` says that a list sorted
by a key that is a number everywhere is in the order of the key.
-/

set_option autoImplicit false
set_option relaxedAutoImplicit false

namespace Collision

/-- The scalar is a number: it compares with itself. -/
def Scalar.IsNumber {α : Type} [Scalar α] (a : α) : Prop := a ≤ a

instance {α : Type} [Scalar α] (a : α) : Decidable (Scalar.IsNumber a) :=
  Scalar.decidableLessOrEqual a a

/-- The laws of comparison. Only numbers compare; among them the order is total, and adding or
subtracting a finite amount gives a number again. -/
class OrderedScalar (α : Type) [Scalar α] : Prop where
  number_of_le : ∀ {a b : α}, a ≤ b → Scalar.IsNumber a ∧ Scalar.IsNumber b
  le_trans : ∀ {a b c : α}, a ≤ b → b ≤ c → a ≤ c
  le_total : ∀ {a b : α}, Scalar.IsNumber a → Scalar.IsNumber b → a ≤ b ∨ b ≤ a
  lt_iff : ∀ {a b : α}, a < b ↔ a ≤ b ∧ ¬ b ≤ a
  le_of_totalLe : ∀ {a b : α}, Scalar.IsNumber a → Scalar.IsNumber b →
    Scalar.totalLe a b = true → a ≤ b
  sub_number : ∀ {a m : α}, Scalar.IsNumber a → Scalar.isFinite m = true → Scalar.IsNumber (a - m)
  add_number : ∀ {a m : α}, Scalar.IsNumber a → Scalar.isFinite m = true → Scalar.IsNumber (a + m)
  /-- A zero of either sign changes nothing that a comparison sees. -/
  sub_zero : ∀ {a m : α}, Scalar.IsNumber a → m ≤ 0 → 0 ≤ m → a - m ≤ a ∧ a ≤ a - m
  add_zero : ∀ {a m : α}, Scalar.IsNumber a → m ≤ 0 → 0 ≤ m → a + m ≤ a ∧ a ≤ a + m

namespace Scalar

variable {α : Type} [Scalar α]

theorem isNaN_iff (a : α) : isNaN a = true ↔ ¬ IsNumber a := by
  simp [isNaN, IsNumber]

theorem isNaN_eq_false_iff (a : α) : isNaN a = false ↔ IsNumber a := by
  simp [isNaN, IsNumber]

variable {β : Type}

theorem sortAscending_perm (key : β → α) (members : List β) :
    (sortAscending key members).Perm members :=
  List.mergeSort_perm members _

theorem sortAscending_pairwise_totalLe (key : β → α) (members : List β) :
    (sortAscending key members).Pairwise fun b c ↦ totalLe (key b) (key c) = true := by
  refine List.pairwise_mergeSort ?_ ?_ members
  · intro b c d
    exact totalLe_trans (key b) (key c) (key d)
  · intro b c
    simpa using totalLe_total (key b) (key c)

variable [OrderedScalar α]

theorem le_of_not_lt {a b : α} (ha : IsNumber a) (hb : IsNumber b) (h : ¬ b < a) : a ≤ b := by
  rcases OrderedScalar.le_total ha hb with hab | hba
  · exact hab
  · by_contra hn
    exact h (OrderedScalar.lt_iff.mpr ⟨hba, hn⟩)

theorem le_of_lt {a b : α} (h : a < b) : a ≤ b := (OrderedScalar.lt_iff.mp h).1

/-- Comparison sees only the place of a scalar in the order. -/
theorem le_congr {a a' b b' : α} (ha : a ≤ a' ∧ a' ≤ a) (hb : b ≤ b' ∧ b' ≤ b) :
    a ≤ b ↔ a' ≤ b' :=
  ⟨fun h ↦ OrderedScalar.le_trans (OrderedScalar.le_trans ha.2 h) hb.1,
    fun h ↦ OrderedScalar.le_trans (OrderedScalar.le_trans ha.1 h) hb.2⟩

theorem sortAscending_pairwise (key : β → α) (members : List β)
    (hkey : ∀ b ∈ members, IsNumber (key b)) :
    (sortAscending key members).Pairwise fun b c ↦ key b ≤ key c := by
  have hmem := fun b ↦ (sortAscending_perm key members).mem_iff (a := b)
  refine (sortAscending_pairwise_totalLe key members).imp_of_mem ?_
  intro b c hb hc h
  exact OrderedScalar.le_of_totalLe (hkey b ((hmem b).mp hb)) (hkey c ((hmem c).mp hc)) h

end Scalar

end Collision
