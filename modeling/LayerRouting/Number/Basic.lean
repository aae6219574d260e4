import LayerRouting.Number.Binary64

/-!
# Numbers of a configuration tree

A number is a whole number that fits in 64 bits, signed or unsigned, or a binary64
number. The two kinds stay apart: the whole number one and the binary64 number one are
different values.
-/

namespace LayerRouting

/-- A whole number that fits in 64 bits, signed or unsigned. -/
structure WordInt where
  val : Int
  fits : -0x8000000000000000 ≤ val ∧ val < 0x10000000000000000
  deriving DecidableEq, Repr

namespace WordInt

/-- The whole number, if it fits. -/
def ofInt? (value : Int) : Option WordInt :=
  if fits : -0x8000000000000000 ≤ value ∧ value < 0x10000000000000000 then
    some ⟨value, fits⟩
  else none

/-- The whole number as a natural number of 64 bits, if it is one. -/
def toUInt64? (number : WordInt) : Option UInt64 :=
  if 0 ≤ number.val then some (UInt64.ofNat number.val.toNat) else none

/-- The whole number of an unsigned word. -/
def ofUInt64 (word : UInt64) : WordInt where
  val := word.toNat
  fits := by
    have bound := word.toNat_lt
    omega

/-- The whole number of a signed word. -/
def ofInt64 (word : Int64) : WordInt where
  val := word.toInt
  fits := by
    have least := word.le_toInt
    have most := word.toInt_lt
    omega

/-- The binary64 number nearest to the whole number. -/
def toBinary64 (number : WordInt) : Binary64 :=
  (Binary64.ofInt? number.val).getD .zero

end WordInt

/-- A number of a configuration tree. -/
inductive Number where
  | int (value : WordInt)
  | float (value : Binary64)
  deriving DecidableEq, Repr

namespace Number

/-- The number as a binary64 number, rounded if it is a whole number. -/
def toBinary64 : Number -> Binary64
  | .int value => value.toBinary64
  | .float value => value

/-- The number with zero of either sign as positive zero; numbers are equal as values
exactly when these agree. -/
def unsignedZero : Number -> Number
  | .int value => .int value
  | .float value => .float value.unsignedZero

end Number

end LayerRouting
