import LayerRouting.Number.Binary64

/-!
# Shortest decimals

The shortest decimal of a binary64 number is the one with the fewest digits among the
decimals that round to the number; of several with equally few digits the nearest, and
of two equally near the one whose last digit is even. A grid of decimals with a fixed
last place has a point that rounds to the number only if one of the number's two
neighbours on the grid does, so only these two are tried for each count of digits.
-/

namespace LayerRouting

/-- The decimal `significand * 10 ^ exponent`. -/
structure Decimal where
  significand : Nat
  exponent : Int
  deriving DecidableEq, Repr

namespace Decimal

/-- How many times ten divides a positive number, and the number without those factors.
Zero is left as it is. -/
def stripZeros (significand : Nat) (exponent : Int) : Decimal :=
  if _divides : 0 < significand ∧ significand % 10 = 0 then
    stripZeros (significand / 10) (exponent + 1)
  else { significand, exponent }
termination_by significand
decreasing_by omega

end Decimal

/-- The greatest power of ten that is at most `num / den`, as an exponent; zero when the
quotient is zero. -/
def decimalExponent (num den : Nat) : Int :=
  if den ≤ num then (Nat.toDigits 10 (num / den)).length - 1
  else if _positive : 0 < num then decimalExponent (num * 10) den - 1
  else 0
termination_by den - num
decreasing_by omega

namespace Binary64

/-- Quarters of the smallest unit, in which the bounds of rounding are whole numbers. -/
def quartersPerOne : Nat := 4 * unitsPerOne

/-- The lower bound, in quarter units, of what rounds to a number. Below a power of two
the format is twice as dense. -/
def lowerBound (x : Binary64) : Nat :=
  let step := 1 <<< doublings x.place
  let denserBelow := x.place % placesPerDoubling = 0 ∧ 0 < doublings x.place
  4 * x.units - (if denserBelow then step else 2 * step)

/-- The upper bound, in quarter units, of what rounds to a number. -/
def upperBound (x : Binary64) : Nat :=
  4 * x.units + (2 <<< doublings x.place)

/-- Whether `count / parts`, a quotient of quarter units, rounds to the number. A bound
itself rounds to an even place. -/
def roundsFrom (x : Binary64) (count parts : Nat) : Bool :=
  if x.place % 2 = 0 then
    decide (x.lowerBound * parts ≤ count ∧ count ≤ x.upperBound * parts)
  else decide (x.lowerBound * parts < count ∧ count < x.upperBound * parts)

/-- The point nearest to the number on the grid of multiples of `10 ^ exponent`, if a
point of the grid rounds to the number. -/
def nearestOnGrid? (x : Binary64) (exponent : Int) : Option Nat :=
  let step := Nat.pow 10 exponent.toNat * quartersPerOne
  let parts := Nat.pow 10 (-exponent).toNat
  let exact := 4 * x.units * parts
  let below := exact / step
  let above := below + 1
  match x.roundsFrom (below * step) parts, x.roundsFrom (above * step) parts with
  | false, false => none
  | true, false => some below
  | false, true => some above
  | true, true =>
      let toBelow := exact - below * step
      let toAbove := above * step - exact
      if toBelow < toAbove then some below
      else if toAbove < toBelow then some above
      else some (below + below % 2)

/-- The number of digits that always suffices. -/
def sufficientDigits : Nat := 17

/-- The shortest decimal that rounds to the absolute value of the number. -/
def shortest (x : Binary64) : Decimal :=
  let leading := decimalExponent x.units unitsPerOne
  let onGrid (digits : Nat) : Option Decimal :=
    let exponent := leading + 1 - digits
    (x.nearestOnGrid? exponent).map fun point => Decimal.stripZeros point exponent
  ((List.range' 1 sufficientDigits).findSome? onGrid).getD ⟨0, 0⟩

end Binary64

end LayerRouting
