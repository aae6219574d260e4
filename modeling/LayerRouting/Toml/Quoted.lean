import LayerRouting.Text.Basic
import LayerRouting.Toml.Scan

/-!
# Strings of TOML

Basic strings have escapes and literal strings have none; either kind is written on one
line between single quotes of its kind, or on several lines between triple ones. On
several lines a line end right after the opening is dropped, every other line end is a
line feed, and up to two quotes may stand before the closing ones.
-/

namespace LayerRouting

namespace Toml

/-- The mark of basic strings. -/
def basicQuote : Char := '\x22'

/-- The mark of literal strings. -/
def literalQuote : Char := '\x27'

/-- The character of a number of hexadecimal digits; surrogates are no characters. -/
def readCodePoint (digits : Nat) (text : List Char) : Option (Char × List Char) := do
  let values ← (text.take digits).mapM Text.hexDigit?
  let scalar := ofDigitsIn 16 values
  if values.length = digits ∧ scalar.isValidChar then
    some (Char.ofNat scalar, text.drop digits)
  else none

/-- The character of an escape after its backslash. -/
def readEscape : List Char -> Option (Char × List Char)
  | 'b' :: rest => some ('\x08', rest)
  | 'f' :: rest => some ('\x0c', rest)
  | 'n' :: rest => some ('\n', rest)
  | 'r' :: rest => some ('\r', rest)
  | 't' :: rest => some ('\t', rest)
  | '\x22' :: rest => some ('\x22', rest)
  | '\\' :: rest => some ('\\', rest)
  | 'u' :: rest => readCodePoint 4 rest
  | 'U' :: rest => readCodePoint 8 rest
  | _ => none

/-- Whether a character may stand for itself within a line of a string. -/
def isStringChar (char : Char) : Bool :=
  char == '\t' || isPrintable char

/-- A basic string on one line, after its opening quote. The fuel bounds its length. -/
def readBasic (fuel : Nat) (text : List Char) : Option (List Char × List Char) :=
  match fuel, text with
  | fuel + 1, '\\' :: rest => do
      let (char, afterEscape) ← readEscape rest
      let (chars, after) ← readBasic fuel afterEscape
      some (char :: chars, after)
  | fuel + 1, char :: rest =>
      if char = basicQuote then some ([], rest)
      else if isStringChar char then
        (readBasic fuel rest).map fun (chars, after) => (char :: chars, after)
      else none
  | _, _ => none

/-- A literal string on one line, after its opening quote. -/
def readLiteral : List Char -> Option (List Char × List Char)
  | [] => none
  | char :: rest =>
      if char = literalQuote then some ([], rest)
      else if isStringChar char then
        (readLiteral rest).map fun (chars, after) => (char :: chars, after)
      else none

/-- The quotes that end a string of several lines, if three or more come next: those that
belong to the string, and the text after the closing ones. -/
def readClosing (quote : Char) (text : List Char) : Option (List Char × List Char) :=
  let count := (text.takeWhile (· == quote)).length
  if 3 ≤ count then
    let own := min (count - 3) 2
    some (List.replicate own quote, text.drop (own + 3))
  else none

/-- The text after all that a backslash at the end of a line drops: blanks and line ends,
whichever way these are written. -/
def skipFolds (fuel : Nat) (text : List Char) : List Char :=
  match fuel with
  | 0 => text
  | fuel + 1 =>
      match text.dropWhile fun char => isBlank char || char == '\n' with
      | '\r' :: '\n' :: rest => skipFolds fuel rest
      | rest => rest

/-- A string of several lines after its opening quotes. The fuel bounds its length. -/
def readLong (quote : Char) (escapes : Bool) (fuel : Nat) (text : List Char) :
    Option (List Char × List Char) :=
  match fuel with
  | 0 => none
  | fuel + 1 =>
      let continueWith (char : Char) (rest : List Char) :=
        (readLong quote escapes fuel rest).map fun (chars, after) => (char :: chars, after)
      match readClosing quote text with
      | some closed => some closed
      | none =>
          match readLineEnd text with
          | some rest => continueWith '\n' rest
          | none =>
              match text with
              | [] => none
              | char :: rest =>
                  if escapes ∧ char = '\\' then
                    match readLineEnd (skipBlanks rest) with
                    | some next => readLong quote escapes fuel (skipFolds next.length next)
                    | none => (readEscape rest).bind fun (value, after) => continueWith value after
                  else if isStringChar char then continueWith char rest
                  else none

/-- A string that starts here, of either kind; `long` allows several lines. -/
def readString (long : Bool) (text : List Char) : Option (List Char × List Char) :=
  let longAfter (quote : Char) (escapes : Bool) (rest : List Char) :=
    readLong quote escapes (rest.length + 1) ((readLineEnd rest).getD rest)
  match text with
  | '\x22' :: '\x22' :: '\x22' :: rest =>
      if long then longAfter basicQuote true rest else some ([], '\x22' :: rest)
  | '\x27' :: '\x27' :: '\x27' :: rest =>
      if long then longAfter literalQuote false rest else some ([], '\x27' :: rest)
  | '\x22' :: rest => readBasic (rest.length + 1) rest
  | '\x27' :: rest => readLiteral rest
  | _ => none

end Toml

end LayerRouting
