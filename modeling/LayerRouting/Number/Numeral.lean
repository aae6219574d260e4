import LayerRouting.Number.Basic
import LayerRouting.Text.Basic

/-!
# Numerals

The value of a number as written: digits, an optional fraction and an optional exponent.
A numeral that is only digits is a whole number when that fits in 64 bits. Any other
numeral is a binary64 number. Its digits are taken into one unsigned word until the next
digit would no longer fit; the word is then scaled by a power of ten with one rounding
each for the word, the power and the scaling.
-/

namespace LayerRouting

/-- The greatest significand that is kept exactly. -/
def greatestWord : Nat := 0xFFFFFFFFFFFFFFFF

/-- Takes digits into a word as long as they fit, and counts those taken. -/
def absorbDigits (word : Nat) : List Nat -> Nat × Nat
  | [] => (word, 0)
  | digit :: rest =>
      if word * 10 + digit ≤ greatestWord then
        let (final, taken) := absorbDigits (word * 10 + digit) rest
        (final, taken + 1)
      else (word, 0)

namespace Binary64

/-- The greatest power of ten within the finite range, as an exponent. -/
def greatestPowerOfTen : Nat := 308

/-- The number nearest to a power of ten within the finite range. -/
def powerOfTen (exponent : Nat) : Binary64 :=
  (ofRatio? false (Nat.pow 10 exponent) 1).getD zero

/-- Division by a power of ten, in steps of the greatest power within range. -/
def divideByTens (x : Binary64) (exponent : Nat) : Binary64 :=
  if exponent ≤ greatestPowerOfTen then (x.div? (powerOfTen exponent)).getD zero
  else if x.isZero then x
  else
    divideByTens ((x.div? (powerOfTen greatestPowerOfTen)).getD zero)
      (exponent - greatestPowerOfTen)
termination_by exponent
decreasing_by simp only [greatestPowerOfTen] at *; omega

/-- Multiplication by a power of ten; `none` when the product is out of range. -/
def multiplyByTens? (x : Binary64) (exponent : Nat) : Option Binary64 :=
  if exponent ≤ greatestPowerOfTen then x.mul? (powerOfTen exponent)
  else if x.isZero then some x
  else none

/-- A word scaled by a power of ten of either sign. -/
def scaleWord? (word : Nat) (exponent : Int) : Option Binary64 :=
  let x := (ofRatio? false word 1).getD zero
  if 0 ≤ exponent then x.multiplyByTens? exponent.toNat
  else some (x.divideByTens exponent.natAbs)

end Binary64

/-- A number as written, in decimal digits. -/
structure Numeral where
  negative : Bool
  whole : List Nat
  /-- The digits after a point, if there is one. -/
  fraction : Option (List Nat)
  /-- Whether the exponent is negative, and its digits, if there is one. -/
  exponent : Option (Bool × List Nat)
  deriving DecidableEq, Repr

namespace Numeral

/-- The exponent as written; zero when there is none. -/
def writtenExponent (numeral : Numeral) : Int :=
  match numeral.exponent with
  | none => 0
  | some (true, digits) => -(ofDigits digits : Int)
  | some (false, digits) => ofDigits digits

/-- The whole number of a numeral that is only digits, if it fits in 64 bits. Minus zero
is not a whole number, since a whole number has no negative zero. -/
def wholeNumber? (numeral : Numeral) : Option WordInt :=
  match numeral.fraction, numeral.exponent with
  | none, none =>
      let value := ofDigits numeral.whole
      if numeral.negative then
        if value = 0 then none else WordInt.ofInt? (-(value : Int))
      else WordInt.ofInt? value
  | _, _ => none

/-- The binary64 number of a numeral; `none` when it is out of range. -/
def binary64? (numeral : Numeral) : Option Binary64 :=
  let (word, taken) := absorbDigits 0 numeral.whole
  let raised : Int := numeral.whole.length - taken
  let (word, lowered) := absorbDigits word (numeral.fraction.getD [])
  let exponent := raised - lowered + numeral.writtenExponent
  (Binary64.scaleWord? word exponent).map (·.withSign numeral.negative)

/-- The value of a numeral; `none` when it is out of range. -/
def value? (numeral : Numeral) : Option Number :=
  match numeral.wholeNumber? with
  | some value => some (.int value)
  | none => numeral.binary64?.map .float

end Numeral

end LayerRouting
