/-!
# Op ids

Every op has an id that stays with it as long as it is in a log. New ids come from a
supply, which never gives the same id twice: an id spells the supply's counter in base
thirty-two, padded to twenty-six characters.
-/

namespace LayerRouting

/-- The digits of base thirty-two without the letters that look like digits. -/
def base32Alphabet : List Char :=
  "0123456789abcdefghjkmnpqrstvwxyz".toList

/-- The digit of a value below thirty-two. -/
def base32Digit (value : Nat) : Char :=
  base32Alphabet.getD value '0'

/-- The digits of a number in base thirty-two, the last one first. -/
def base32Reversed (value : Nat) : List Char :=
  if _more : 32 ≤ value then base32Digit (value % 32) :: base32Reversed (value / 32)
  else [base32Digit value]
termination_by value
decreasing_by omega

/-- The least number of characters of a new id. -/
def opIdLength : Nat := 26

/-- The id that spells a counter. -/
def opIdOf (counter : Nat) : String :=
  let digits := (base32Reversed counter).reverse
  String.ofList (List.replicate (opIdLength - digits.length) '0' ++ digits)

/-- A supply of op ids that have not been used. -/
structure IdSupply where
  /-- The counter of the next id. -/
  next : Nat
  deriving DecidableEq, Repr

namespace IdSupply

/-- The next id of a supply, and the supply without it. -/
def take (supply : IdSupply) : String × IdSupply :=
  (opIdOf supply.next, { next := supply.next + 1 })

end IdSupply

end LayerRouting
