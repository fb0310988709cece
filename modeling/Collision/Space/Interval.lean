import Collision.Space.Pose

/-!
# Intervals

The stretch of an axis that a set of values covers.

Main definitions.

* `Interval.hull?` is the least interval around the values of a list that are numbers; there is none
  when no value is one.
* `Interval.span` is the stretch that several intervals cover together.
* `Interval.around` is the interval of a centre and a reach.
-/

set_option autoImplicit false
set_option relaxedAutoImplicit false

namespace Collision

/-- A stretch of an axis. -/
structure Interval (α : Type) where
  lo : α
  hi : α
  deriving Inhabited

namespace Interval

variable {α : Type} [Scalar α]

/-- The interval that reaches equally far to both sides of a centre. -/
def around (center reach : α) : Interval α := ⟨center - reach, center + reach⟩

/-- The least interval around the values that are numbers. -/
def hull? (values : List α) : Option (Interval α) :=
  match Scalar.minimum? values, Scalar.maximum? values with
  | some lo, some hi => some ⟨lo, hi⟩
  | _, _ => none

/-- The stretch from the least lower end to the largest upper end of intervals. An end that is a
number in no interval is the widest possible, turned inside out. -/
def span (intervals : List (Interval α)) : Interval α :=
  { lo := (Scalar.minimum? (intervals.map lo)).getD Scalar.unbounded
    hi := (Scalar.maximum? (intervals.map hi)).getD (-Scalar.unbounded) }

/-- The interval moved along the axis. -/
def shift (i : Interval α) (offset : α) : Interval α := ⟨i.lo + offset, i.hi + offset⟩

/-- The interval covered by points on an axis, as far as it is a number. -/
def ofPoints? (points : List (Vec3 α)) (axis : Vec3 α) : Option (Interval α) :=
  hull? (points.map fun p => p.dot axis)

end Interval

end Collision
