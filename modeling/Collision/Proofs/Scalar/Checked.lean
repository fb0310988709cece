import Collision.Contact
import Collision.Proofs.Space.Vector
import Collision.Shape.Basic

/-!
# Arithmetic with undefined results

In the real numbers a quotient by zero has a value. `Checked` are the real numbers with one more
scalar, `Checked.undefined`, which is what a division by zero and the square root of a negative
number give, which spoils every result it enters, and which no comparison holds of. A statement
about checked arithmetic whose conclusion is a defined result says that nothing was divided by zero
on the way to it.

`Vec3.checked`, `Pose.checked`, `Triangle.checked`, `Part.checked` and `Contact.checked` are the
same things in checked arithmetic; sums and products of them are those of the real numbers.
-/

set_option autoImplicit false
set_option relaxedAutoImplicit false

namespace Collision

/-- A real number, or no number. -/
inductive Checked where
  | defined (value : ℝ)
  | undefined

namespace Checked

/-- An operation with one operand. -/
noncomputable def lift (f : ℝ → ℝ) : Checked → Checked
  | defined a => defined (f a)
  | undefined => undefined

/-- An operation with two operands. -/
noncomputable def lift₂ (f : ℝ → ℝ → ℝ) : Checked → Checked → Checked
  | defined a, defined b => defined (f a b)
  | _, _ => undefined

/-- A comparison, which holds of numbers only. -/
def Compares (r : ℝ → ℝ → Prop) : Checked → Checked → Prop
  | defined a, defined b => r a b
  | _, _ => False

/-- The order of numbers, with what is no number above them. -/
noncomputable def totalLe : Checked → Checked → Bool
  | _, undefined => true
  | undefined, defined _ => false
  | defined a, defined b => decide (a ≤ b)

open Classical in
/-- Checked numbers are scalars. -/
noncomputable instance : Scalar Checked where
  add := lift₂ (· + ·)
  sub := lift₂ (· - ·)
  mul := lift₂ (· * ·)
  div
    | defined a, defined b => if b = 0 then undefined else defined (a / b)
    | _, _ => undefined
  neg := lift (- ·)
  lt := Compares (· < ·)
  le := Compares (· ≤ ·)
  decidableLT _ _ := propDecidable _
  decidableLE _ _ := propDecidable _
  ofNat n := defined n
  decimal m down e := defined (Scalar.decimal m down e)
  pi := defined Real.pi
  sqrt
    | defined a => if a < 0 then undefined else defined √a
    | undefined => undefined
  cbrt := lift Scalar.cbrt
  sin := lift Real.sin
  cos := lift Real.cos
  abs := lift (|·|)
  floor := lift (⌊·⌋)
  toNat
    | defined a => ⌊a⌋₊
    | undefined => 0
  isFinite
    | defined _ => true
    | undefined => false
  isSigned
    | defined a => decide (a < 0)
    | undefined => false
  unbounded := undefined
  totalLe := totalLe
  totalLe_total a b := by
    cases a <;> cases b <;> simp [totalLe, le_total]
  totalLe_trans a b c := by
    cases a <;> cases b <;> cases c <;> simp [totalLe]
    exact le_trans

/-! ### Operations on numbers -/

section Defined

variable (a b : ℝ)

@[simp]
theorem defined_add : defined a + defined b = defined (a + b) := rfl

@[simp]
theorem defined_sub : defined a - defined b = defined (a - b) := rfl

@[simp]
theorem defined_mul : defined a * defined b = defined (a * b) := rfl

@[simp]
theorem defined_div {b : ℝ} (hb : b ≠ 0) : defined a / defined b = defined (a / b) := if_neg hb

@[simp]
theorem defined_div_zero : defined a / defined 0 = undefined := if_pos rfl

@[simp]
theorem defined_le : defined a ≤ defined b ↔ a ≤ b := Iff.rfl

@[simp]
theorem defined_lt : defined a < defined b ↔ a < b := Iff.rfl

@[simp]
theorem sqrt_defined {a : ℝ} (ha : 0 ≤ a) : Scalar.sqrt (defined a) = defined √a :=
  if_neg (not_lt.mpr ha)

end Defined

@[simp]
theorem zero_eq : (@OfNat.ofNat Checked 0 (Scalar.instOfNat 0)) = defined 0 :=
  congrArg defined Nat.cast_zero

@[simp]
theorem one_eq : (@OfNat.ofNat Checked 1 (Scalar.instOfNat 1)) = defined 1 :=
  congrArg defined Nat.cast_one

@[simp]
theorem isNaN_defined (a : ℝ) : Scalar.isNaN (defined a) = false := by
  simp [Scalar.isNaN]

@[simp]
theorem min_defined (a b : ℝ) : Scalar.min (defined a) (defined b) = defined (Scalar.min a b) := by
  simp only [Scalar.min, isNaN_defined, Scalar.isNaN_real, defined_lt]
  split_ifs <;> rfl

theorem minimum?_defined (values : List ℝ) :
    Scalar.minimum? (values.map defined) = (Scalar.minimum? values).map defined := by
  have hnumbers : ((values.map defined).filter fun a ↦ !Scalar.isNaN a) = values.map defined := by
    simp [List.filter_map, Function.comp_def]
  rw [Scalar.minimum?, hnumbers, Scalar.minimum?, Scalar.filter_isNaN_real]
  cases values with
  | nil => rfl
  | cons a rest =>
    have hfold : (rest.map defined).foldl Scalar.min (defined a) =
        defined (rest.foldl Scalar.min a) := by
      rw [List.foldl_map]
      exact List.foldl_hom defined min_defined
    exact congrArg some hfold

/-! ### What is no number -/

@[simp]
theorem sub_undefined (a : Checked) : a - undefined = undefined := by cases a <;> rfl

@[simp]
theorem undefined_sub (a : Checked) : undefined - a = undefined := by cases a <;> rfl

@[simp]
theorem not_le_undefined (a : Checked) : ¬ a ≤ undefined := by cases a <;> exact id

end Checked

open Checked (defined)

/-! ### Vectors -/

namespace Vec3

/-- The same vector in checked arithmetic. -/
def checked (v : Vec3 ℝ) : Vec3 Checked := v.map defined

variable (v w : Vec3 ℝ)

@[simp]
theorem checked_add : v.checked + w.checked = (v + w).checked := rfl

@[simp]
theorem checked_sub : v.checked - w.checked = (v - w).checked := rfl

@[simp]
theorem checked_mul (s : ℝ) : v.checked * defined s = (v * s).checked := rfl

@[simp]
theorem checked_div {s : ℝ} (hs : s ≠ 0) : v.checked / defined s = (v / s).checked := by
  show (⟨defined v.x / defined s, defined v.y / defined s, defined v.z / defined s⟩ :
    Vec3 Checked) = _
  rw [Checked.defined_div _ hs, Checked.defined_div _ hs, Checked.defined_div _ hs]
  rfl

@[simp]
theorem checked_dot : v.checked.dot w.checked = defined (v.dot w) := rfl

@[simp]
theorem checked_norm : v.checked.norm = defined v.norm := Checked.sqrt_defined v.dot_self_nonneg

theorem checked_axis (i : Fin 3) : (Vec3.axis i : Vec3 Checked) = (Vec3.axis i).checked := by
  fin_cases i <;> rfl

theorem checked_sum (points : List (Vec3 ℝ)) : sum (points.map checked) = (sum points).checked := by
  have hzero : (zero : Vec3 Checked) = zero.checked := rfl
  rw [sum, hzero, List.foldl_map]
  exact List.foldl_hom checked checked_add

/-- The mean of points is defined if there are any. -/
theorem checked_sum_div_length {points : List (Vec3 ℝ)} (h : points ≠ []) :
    sum (points.map checked) / (Scalar.ofNat points.length : Checked) =
      (sum points / (Scalar.ofNat points.length : ℝ)).checked := by
  have hcount : (points.length : ℝ) ≠ 0 :=
    Nat.cast_ne_zero.mpr (List.length_pos_of_ne_nil h).ne'
  rw [checked_sum]
  exact checked_div _ hcount

/-- A vector is divided by its length only if that is not zero. -/
theorem checked_unit? {shortest : ℝ} (hshortest : 0 ≤ shortest) :
    v.checked.unit? (defined shortest) = (v.unit? shortest).map checked := by
  simp only [unit?, checked_norm, Checked.defined_le]
  split_ifs with hshort
  · rfl
  · rw [checked_div v (hshortest.trans_lt (not_le.mp hshort)).ne']
    rfl

end Vec3

/-! ### Poses and shapes -/

/-- The same rotation in checked arithmetic. -/
def Rotation.checked (q : Rotation ℝ) : Rotation Checked :=
  ⟨defined q.w, defined q.i, defined q.j, defined q.k⟩

/-- The same pose in checked arithmetic. -/
def Pose.checked (pose : Pose ℝ) : Pose Checked := ⟨pose.position.checked, pose.rotation.checked⟩

/-- The same triangle in checked arithmetic. -/
def Triangle.checked (t : Triangle ℝ) : Triangle Checked := ⟨t.a.checked, t.b.checked, t.c.checked⟩

theorem Triangle.checked_placed (t : Triangle ℝ) (pose : Pose ℝ) :
    t.checked.placed pose.checked = (t.placed pose).checked := rfl

/-- The same primitive in checked arithmetic. -/
def Primitive.checked : Primitive ℝ → Primitive Checked
  | sphere radius => .sphere (defined radius)
  | box half => .box half.checked
  | cylinder radius halfHeight => .cylinder (defined radius) (defined halfHeight)
  | capsule radius halfHeight => .capsule (defined radius) (defined halfHeight)
  | plane => .plane
  | triangle t => .triangle t.checked
  | meshTriangle t => .meshTriangle t.checked
  | convexHull points => .convexHull (points.map Vec3.checked)

namespace Part

/-- The same part in checked arithmetic. -/
def checked : Part ℝ → Part Checked
  | bare p => .bare p.checked
  | offset p pose => .offset p.checked pose.checked

theorem checked_primitive (part : Part ℝ) : part.checked.primitive = part.primitive.checked := by
  cases part <;> rfl

theorem checked_triangle? (part : Part ℝ) :
    part.checked.primitive.triangle? = part.primitive.triangle?.map Triangle.checked := by
  rw [checked_primitive]
  cases part.primitive <;> rfl

theorem checked_rebase (part : Part ℝ) (pose : Pose ℝ) :
    part.checked.rebase pose.checked = (part.rebase pose).checked := by
  cases part <;> rfl

end Part

/-- The same contact in checked arithmetic. -/
def Contact.checked (c : Contact ℝ) : Contact Checked where
  position := c.position.checked
  normal := c.normal.checked
  depth := defined c.depth
  id? := c.id?

end Collision
