/-!
# Finite binary64 numbers

A finite number of the binary64 format is a sign and a place in the increasing list
of nonnegative finite values. Place `0` is zero and every further place is the next
representable value, so comparing places compares absolute values. The places are the
format's bit patterns without the sign bit, and all arithmetic here is exact
arithmetic on natural numbers followed by one rounding.
-/

namespace LayerRouting

/-- A finite binary64 number. -/
structure Binary64 where
  /-- Whether the sign is minus; zero has both signs. -/
  negative : Bool
  /-- The place of the absolute value among the nonnegative finite values. -/
  place : Nat
  /-- Infinity stands at the first place that is out of range. -/
  finite : place < 0x7FF0000000000000
  deriving DecidableEq, Repr

namespace Binary64

/-- Positive zero. -/
def zero : Binary64 where
  negative := false
  place := 0
  finite := by decide

instance : Inhabited Binary64 := ⟨zero⟩

/-- The number with the other sign. -/
def neg (x : Binary64) : Binary64 :=
  { x with negative := !x.negative }

/-- The number with the given sign in place of its own. -/
def withSign (negative : Bool) (x : Binary64) : Binary64 :=
  { x with negative := negative }

/-- The number of places between a power of two and the next one. -/
def placesPerDoubling : Nat := 0x10000000000000

/-- How often the spacing of the subnormal numbers has doubled at a place. -/
def doublings (place : Nat) : Nat :=
  place / placesPerDoubling - 1

/-- The absolute value in units of `2 ^ (-1074)`, the smallest positive number. -/
def units (x : Binary64) : Nat :=
  (x.place - doublings x.place * placesPerDoubling) <<< doublings x.place

/-- The denominator that `units` counts in. -/
def unitsPerOne : Nat := 1 <<< 1074

/-- The quotient rounded to the nearest natural number, a half to the even one. -/
def roundHalfEven (num den : Nat) : Nat :=
  let floor := num / den
  let twice := 2 * (num % den)
  if twice < den then floor
  else if den < twice then floor + 1
  else floor + floor % 2

/-- The place of the value nearest to `num / den`, ties to the even place. The place may
lie out of the finite range. The spacing of the format at the quotient is `2 ^ shift`
units, and rounding up to the next power of two lands on its place by itself. -/
def nearestPlace (num den : Nat) : Nat :=
  let scaled := num * unitsPerOne
  let floor := scaled / den
  let shift := if floor < 2 * placesPerDoubling then 0 else Nat.log2 floor - 52
  shift * placesPerDoubling + roundHalfEven scaled (den <<< shift)

/-- The finite number nearest to `num / den` with the given sign, or `none` when the
quotient rounds to infinity. -/
def ofRatio? (negative : Bool) (num den : Nat) : Option Binary64 :=
  let place := nearestPlace num den
  if finite : place < 0x7FF0000000000000 then some { negative, place, finite } else none

/-- The number nearest to an integer, or `none` when it rounds to infinity. -/
def ofInt? (value : Int) : Option Binary64 :=
  ofRatio? (decide (value < 0)) value.natAbs 1

/-- The rounded product, or `none` when it rounds to infinity. -/
def mul? (x y : Binary64) : Option Binary64 :=
  ofRatio? (x.negative != y.negative) (x.units * y.units) (unitsPerOne * unitsPerOne)

/-- The rounded quotient, or `none` when it rounds to infinity. -/
def div? (x y : Binary64) : Option Binary64 :=
  ofRatio? (x.negative != y.negative) x.units y.units

/-- Whether the number is a zero of either sign. -/
def isZero (x : Binary64) : Bool :=
  x.place == 0

/-- The number itself, with zero of either sign as positive zero. Two numbers are
numerically equal exactly when these agree. -/
def unsignedZero (x : Binary64) : Binary64 :=
  if x.isZero then zero else x

/-- The key of the total order of binary64, in which negative zero stands just below
positive zero. -/
def orderKey (x : Binary64) : Int :=
  if x.negative then -(x.place : Int) - 1 else x.place

end Binary64

end LayerRouting
