import LayerRouting.Number.Shortest

/-!
# Number text

How a binary64 number is written: by its shortest decimal, laid out positionally when
the decimal exponent lies in a window and with an exponent mark otherwise.
-/

namespace LayerRouting

/-- The text of a natural number in decimal. -/
def decimalDigits (value : Nat) : List Char :=
  Nat.toDigits 10 value

/-- A natural number as a text in decimal. -/
def naturalText (value : Nat) : String :=
  String.ofList (decimalDigits value)

/-- The text of a whole number in decimal, after a minus sign if it is negative. -/
def integerText (value : Int) : List Char :=
  if value < 0 then '-' :: decimalDigits value.natAbs else decimalDigits value.natAbs

/-- The choices of a notation for decimals. -/
structure Layout where
  /-- The least decimal exponent that is written positionally. -/
  leastPositional : Int
  /-- The greatest decimal exponent that is written positionally. -/
  greatestPositional : Int
  /-- What ends a whole number that is written positionally. -/
  wholeMark : List Char
  /-- What stands before a nonnegative exponent. -/
  raisedMark : List Char
  /-- What stands before the absolute value of a negative exponent. -/
  loweredMark : List Char

namespace Layout

/-- Numbers from `0.00001` to below `1e+16` are positional and always show a fraction;
others have a signed exponent without padding. -/
def standard : Layout where
  leastPositional := -5
  greatestPositional := 15
  wholeMark := ['.', '0']
  raisedMark := ['e', '+']
  loweredMark := ['e', '-']

/-- Digits with the point after the first `whole` of them, and zeros where the digits do
not reach the point. -/
def positional (layout : Layout) (digits : List Char) (whole : Int) : List Char :=
  if whole ≤ 0 then
    ['0', '.'] ++ List.replicate (-whole).toNat '0' ++ digits
  else if digits.length ≤ whole then
    digits ++ List.replicate (whole.toNat - digits.length) '0' ++ layout.wholeMark
  else digits.take whole.toNat ++ '.' :: digits.drop whole.toNat

/-- Digits with a point after the first one and a decimal exponent. -/
def scientific (layout : Layout) (digits : List Char) (exponent : Int) : List Char :=
  let mantissa :=
    match digits with
    | first :: second :: rest => first :: '.' :: second :: rest
    | few => few
  let mark := if exponent < 0 then layout.loweredMark else layout.raisedMark
  mantissa ++ mark ++ decimalDigits exponent.natAbs

/-- The text of a decimal. -/
def decimal (layout : Layout) (value : Decimal) : List Char :=
  let digits := decimalDigits value.significand
  let exponent := value.exponent + digits.length - 1
  if layout.leastPositional ≤ exponent ∧ exponent ≤ layout.greatestPositional then
    layout.positional digits (exponent + 1)
  else layout.scientific digits exponent

/-- The text of a binary64 number, with a minus sign also for negative zero. -/
def binary64 (layout : Layout) (x : Binary64) : List Char :=
  let text := layout.decimal x.shortest
  if x.negative then '-' :: text else text

end Layout

end LayerRouting
