/-!
# Texts

What readers of texts share: the ASCII digits and the numbers that texts of them denote, the
characters with the Unicode property White_Space, and dividing a text at a mark.

A whole number in a text is ASCII digits, at least one, after a sign where one is allowed. Leading
zeros do not matter.
-/

namespace LayerRouting

/-! ## Digits -/

/-- The number that digits of a base denote, the first digit being the highest. -/
def ofDigitsIn (base : Nat) (digits : List Nat) : Nat :=
  digits.foldl (fun value digit => value * base + digit) 0

/-- The number that digits denote in decimal. -/
def ofDigits (digits : List Nat) : Nat :=
  ofDigitsIn 10 digits

namespace Text

/-- The value of an ASCII digit. -/
def digit? (char : Char) : Option Nat :=
  if '0' ≤ char ∧ char ≤ '9' then some (char.toNat - '0'.toNat) else none

/-- Whether a character is an ASCII digit. -/
def isDigit (char : Char) : Bool :=
  (digit? char).isSome

/-- The value of a hexadecimal digit of either case. -/
def hexDigit? (char : Char) : Option Nat :=
  if '0' ≤ char ∧ char ≤ '9' then some (char.toNat - '0'.toNat)
  else if 'a' ≤ char ∧ char ≤ 'f' then some (char.toNat - 'a'.toNat + 10)
  else if 'A' ≤ char ∧ char ≤ 'F' then some (char.toNat - 'A'.toNat + 10)
  else none

/-! ## Whole numbers -/

/-- The number that a text of ASCII digits denotes. -/
def natural? (text : List Char) : Option Nat :=
  if text = [] then none else (text.mapM digit?).map ofDigits

/-- The number of a text of digits with or without a plus sign, if it is below a limit. -/
def unsigned? (limit : Nat) (text : List Char) : Option Nat :=
  let digits :=
    match text with
    | '+' :: rest => rest
    | all => all
  (natural? digits).filter (· < limit)

/-- The number of a text of digits with or without a sign. -/
def signed? : List Char -> Option Int
  | '+' :: rest => (natural? rest).map Int.ofNat
  | '-' :: rest => (natural? rest).map fun value => -Int.ofNat value
  | all => (natural? all).map Int.ofNat

/-! ## Blanks -/

/-- The ranges of code points with the property White_Space. -/
def blankRanges : List (Nat × Nat) :=
  [(0x09, 0x0D), (0x20, 0x20), (0x85, 0x85), (0xA0, 0xA0), (0x1680, 0x1680),
    (0x2000, 0x200A), (0x2028, 0x2029), (0x202F, 0x202F), (0x205F, 0x205F),
    (0x3000, 0x3000)]

/-- Whether a character has the property White_Space. -/
def isBlank (char : Char) : Bool :=
  blankRanges.any fun (first, last) => first ≤ char.toNat && char.toNat ≤ last

/-- The text without its leading blanks. -/
def trimStart (text : List Char) : List Char :=
  text.dropWhile isBlank

/-- The text without its trailing blanks. -/
def trimEnd (text : List Char) : List Char :=
  (text.reverse.dropWhile isBlank).reverse

/-! ## Parts -/

/-- The parts of a text between the places of a mark, of which there is at least one. -/
def parts (mark : Char) : List Char -> List (List Char)
  | [] => [[]]
  | char :: rest =>
      if char = mark then [] :: parts mark rest
      else
        match parts mark rest with
        | [] => [[char]]
        | first :: others => (char :: first) :: others

/-- What comes after a beginning; none if the text does not begin with it. -/
def after? {α : Type} [DecidableEq α] : List α -> List α -> Option (List α)
  | [], text => some text
  | _ :: _, [] => none
  | expected :: beginning, found :: text =>
      if expected = found then after? beginning text else none

end Text

end LayerRouting
