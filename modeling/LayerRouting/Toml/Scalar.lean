import LayerRouting.Json.Basic
import LayerRouting.Text.Basic
import LayerRouting.Toml.Moment
import LayerRouting.Toml.Quoted

/-!
# Numbers and times of TOML

Whole numbers fit in 64 signed bits and may be written in other bases. Other numbers are
rounded to the nearest binary64 number; those that are not finite, and numbers that
round to negative infinity, become null, while rounding to positive infinity is an error.
Underscores may stand between digits. Dates and times are checked and kept as written.
-/

namespace LayerRouting

namespace Toml

/-! ## Numbers -/

/-- Digits of a base with underscores between them, the first digit being read. -/
def readFurtherDigits (base : Nat) : List Char -> Option (List Nat × List Char)
  | [] => some ([], [])
  | '_' :: char :: rest =>
      match (Text.hexDigit? char).filter (· < base) with
      | some digit =>
          (readFurtherDigits base rest).map fun (digits, after) => (digit :: digits, after)
      | none => none
  | ['_'] => none
  | char :: rest =>
      match (Text.hexDigit? char).filter (· < base) with
      | some digit =>
          (readFurtherDigits base rest).map fun (digits, after) => (digit :: digits, after)
      | none => some ([], char :: rest)

/-- Digits of a base with underscores between them, of which there is one. -/
def readDigits (base : Nat) : List Char -> Option (List Nat × List Char)
  | [] => none
  | char :: rest => do
      let digit ← (Text.hexDigit? char).filter (· < base)
      let (digits, after) ← readFurtherDigits base rest
      some (digit :: digits, after)

/-- A sign, if one comes next: whether it is minus. -/
def readSign : List Char -> Bool × List Char
  | '-' :: rest => (true, rest)
  | '+' :: rest => (false, rest)
  | text => (false, text)

/-- The digits before a point or exponent: a zero alone, or digits that start with
another one. -/
def readWhole : List Char -> Option (List Nat × List Char)
  | '0' :: rest => some ([0], rest)
  | text => readDigits 10 text

/-- A whole number, if it fits in 64 signed bits. -/
def integer? (value : Int) : Option Json :=
  if value < 0x8000000000000000 then (WordInt.ofInt? value).map Json.int else none

/-- A whole number in another base, after its mark. -/
def readBased (base : Nat) (text : List Char) : Option (Json × List Char) := do
  let (digits, after) ← readDigits base text
  let value ← integer? (ofDigitsIn base digits)
  some (value, after)

/-- An exponent, if its mark comes next. -/
def readExponent (text : List Char) : Option (Int × List Char) :=
  let marked (rest : List Char) :=
    let (negative, afterSign) := readSign rest
    (readDigits 10 afterSign).map fun (digits, after) =>
      (if negative then -(ofDigits digits : Int) else ofDigits digits, after)
  match text with
  | 'e' :: rest => marked rest
  | 'E' :: rest => marked rest
  | _ => some (0, text)

/-- The number `significand * 10 ^ exponent` with a sign. Beyond the given bounds on its
magnitude the result is known without computing the power. -/
def float? (negative : Bool) (significand : Nat) (exponent : Int) : Option Json :=
  let magnitude := (Nat.toDigits 10 significand).length + exponent
  let rounded : Option Binary64 :=
    if significand = 0 ∨ magnitude < -400 then some (Binary64.zero.withSign negative)
    else if 400 < magnitude then none
    else
      Binary64.ofRatio? negative (significand * Nat.pow 10 exponent.toNat)
        (Nat.pow 10 (-exponent).toNat)
  match rounded with
  | some value => some (Json.float value)
  | none => if negative then some .null else none

/-- A number in decimal, whole or not. -/
def readDecimal (text : List Char) : Option (Json × List Char) := do
  let (negative, afterSign) := readSign text
  let (whole, afterWhole) ← readWhole afterSign
  let fractional (fraction : List Nat) (rest : List Char) : Option (Json × List Char) := do
    let (exponent, after) ← readExponent rest
    let value ← float? negative (ofDigits (whole ++ fraction)) (exponent - fraction.length)
    some (value, after)
  match afterWhole with
  | '.' :: rest => do
      let (fraction, afterFraction) ← readDigits 10 rest
      fractional fraction afterFraction
  | 'e' :: _ => fractional [] afterWhole
  | 'E' :: _ => fractional [] afterWhole
  | _ => do
      let magnitude : Int := ofDigits whole
      let value ← integer? (if negative then -magnitude else magnitude)
      some (value, afterWhole)

/-- A number that is not finite: an infinity or no number at all, with or without sign. -/
def readNonFinite (text : List Char) : Option (Json × List Char) :=
  let (_, unsigned) := readSign text
  let after := (Text.after? ['i', 'n', 'f'] unsigned).or (Text.after? ['n', 'a', 'n'] unsigned)
  after.map fun rest => (.null, rest)

/-- A number. -/
def readNumber (text : List Char) : Option (Json × List Char) :=
  match text with
  | '0' :: 'x' :: rest => readBased 16 rest
  | '0' :: 'o' :: rest => readBased 8 rest
  | '0' :: 'b' :: rest => readBased 2 rest
  | _ => (readDecimal text).or (readNonFinite text)

/-! ## Dates and times -/

/-- A date, a time, or both. -/
def readMoment (text : List Char) : Option (Json × List Char) := do
  let after ← skipMoment? text
  let written := String.ofList (text.take (text.length - after.length))
  some (ofMoment written, after)

end Toml

end LayerRouting
