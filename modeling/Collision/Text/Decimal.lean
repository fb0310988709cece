/-!
# Decimal text of doubles

The text of a double is the shortest decimal number that reads back as the same double, written
positionally, never with an exponent.

Main definitions.

* `Dyadic` is a positive double as `mantissa * 2 ^ exponent`; `Dyadic.spread` is the interval of
  numbers that round to it, over a common denominator.
* `shortestDecimal` finds the fewest digits inside that interval and, of two candidates, the nearer
  one, an exact tie going to the larger.
* `positional` writes `digits * 10 ^ exponent` with a point where one is needed.
* `Decimal.text` puts sign, infinity and what is not a number around it.
-/

set_option autoImplicit false
set_option relaxedAutoImplicit false

namespace Collision

namespace Decimal

/-- A positive double, `mantissa * 2 ^ exponent`. -/
structure Dyadic where
  mantissa : Nat
  exponent : Int
  /-- The double below is half as far away as the double above. -/
  lowersGap : Bool

/-- The interval of numbers that read back as one double, as fractions of one denominator. -/
structure Spread where
  low : Nat
  value : Nat
  high : Nat
  denominator : Nat
  /-- The two ends read back as the double too. -/
  closed : Bool

/-- The positive finite double with the given bits below the sign. -/
def Dyadic.ofBits (bits : Nat) : Dyadic :=
  let fraction := bits % 2 ^ (52 : Nat)
  let biased : Nat := bits / 2 ^ (52 : Nat)
  if biased = 0 then ⟨fraction, -1074, false⟩
  else ⟨2 ^ (52 : Nat) + fraction, (biased : Int) - 1075, fraction == 0 && 1 < biased⟩

/-- The numbers nearer to the double than to its neighbours. A mantissa that is even takes the
midpoints too. -/
def Dyadic.spread (d : Dyadic) : Spread :=
  let scale := 2 ^ d.exponent.toNat
  let value := 4 * d.mantissa * scale
  { low := value - (if d.lowersGap then 1 else 2) * scale
    value := value
    high := value + 2 * scale
    denominator := 4 * 2 ^ (-d.exponent).toNat
    closed := d.mantissa % 2 == 0 }

/-- The fraction `numerator / denominator` lies in the interval. -/
def Spread.holds (s : Spread) (numerator denominator : Nat) : Bool :=
  let point := numerator * s.denominator
  let low := s.low * denominator
  let high := s.high * denominator
  if s.closed then low ≤ point && point ≤ high else low < point && point < high

/-- The decimal number `digits * 10 ^ exponent`. -/
structure Shortest where
  digits : Nat
  exponent : Int

/-- Of the two neighbours of the value on the grid of multiples of `10 ^ exponent`, the nearer one
that reads back as the double; the larger one when both are equally near. -/
def Spread.onGrid? (s : Spread) (exponent : Int) : Option Shortest :=
  let up := 10 ^ exponent.toNat
  let down := 10 ^ (-exponent).toNat
  let below := s.value * down / (s.denominator * up)
  let above := below + 1
  let toBelow := s.value * down - below * s.denominator * up
  let toAbove := above * s.denominator * up - s.value * down
  match s.holds (below * up) down, s.holds (above * up) down with
  | true, true => some ⟨if toBelow < toAbove then below else above, exponent⟩
  | true, false => some ⟨below, exponent⟩
  | false, true => some ⟨above, exponent⟩
  | false, false => none

/-- The place of the leading digit: the least `p` with value below `10 ^ p`. Every double is above
`10 ^ -400`. -/
def Spread.leadingPlace (s : Spread) : Int :=
  (Nat.toDigits 10 (s.value * 10 ^ (400 : Nat) / s.denominator)).length - 400

/-- The grids of `count` digits and more, up to seventeen, tried in turn. -/
def Spread.search (s : Spread) (place : Int) : Nat → Nat → Shortest
  | _, 0 => ⟨0, 0⟩
  | count, left + 1 =>
    match s.onGrid? (place - count) with
    | some found => found
    | none => s.search place (count + 1) left

/-- The shortest decimal number that reads back as the double. Seventeen digits always do. -/
def shortestDecimal (d : Dyadic) : Shortest :=
  let s := d.spread
  s.search s.leadingPlace 1 17

/-- The characters without the zeros at their end. -/
def dropTrailingZeros (digits : List Char) : List Char :=
  (digits.reverse.dropWhile (· == '0')).reverse

/-- The decimal number in positional notation, without zeros at the end of its fraction. -/
def positional (s : Shortest) : List Char :=
  let digits := Nat.toDigits 10 s.digits
  if 0 ≤ s.exponent then digits ++ List.replicate s.exponent.toNat '0'
  else
    let places := (-s.exponent).toNat
    let padded := List.replicate (places + 1 - digits.length) '0' ++ digits
    let whole := padded.take (padded.length - places)
    match dropTrailingZeros (padded.drop (padded.length - places)) with
    | [] => whole
    | fraction => whole ++ '.' :: fraction

/-- The text of a double. -/
def text (x : Float) : String :=
  let bits := x.toBits.toNat
  let magnitude := bits % 2 ^ (63 : Nat)
  let sign := if 2 ^ (63 : Nat) ≤ bits then "-" else ""
  if 0x7ff0000000000000 < magnitude then "NaN"
  else if magnitude = 0x7ff0000000000000 then sign ++ "inf"
  else if magnitude = 0 then sign ++ "0"
  else sign ++ String.ofList (positional (shortestDecimal (Dyadic.ofBits magnitude)))

end Decimal

end Collision
