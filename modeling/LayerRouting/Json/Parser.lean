import LayerRouting.Json.Written
import LayerRouting.Number.Numeral
import LayerRouting.Text.Basic

/-!
# Reading JSON text

A strict reader: one value with blanks around it and nothing else. Each reading function
gives what it read and the contents after it. The nesting of values is bounded by fuel,
of which every value, item and entry takes one; a text's length bounds the fuel it needs.
-/

namespace LayerRouting

namespace Written

/-! ## Blanks and numbers -/

/-- The four blanks of JSON. -/
def isBlank : TextUnit -> Bool
  | .char value => value == ' ' || value == '\n' || value == '\t' || value == '\r'
  | .stray _ => false

/-- The contents after leading blanks. -/
def skipBlanks (content : Content) : Content :=
  content.dropWhile isBlank

/-- The value of a decimal digit. -/
def digit? (unit : TextUnit) : Option Nat :=
  unit.char?.bind Text.digit?

/-- The leading decimal digits. -/
def readDigits : Content -> List Nat × Content
  | [] => ([], [])
  | unit :: rest =>
      match digit? unit with
      | some digit =>
          let (digits, after) := readDigits rest
          (digit :: digits, after)
      | none => ([], unit :: rest)

/-- The digits before a point: a single zero, or digits that start with another one. -/
def readWhole (content : Content) : Option (List Nat × Content) :=
  match content with
  | .char '0' :: rest => some ([0], rest)
  | _ =>
      match readDigits content with
      | ([], _) => none
      | found => some found

/-- A fraction, if a point comes next; it has a digit. -/
def readFraction (content : Content) : Option (Option (List Nat) × Content) :=
  match content with
  | .char '.' :: rest =>
      match readDigits rest with
      | ([], _) => none
      | (digits, after) => some (some digits, after)
  | _ => some (none, content)

/-- An exponent's sign, if one comes next: whether it is minus. -/
def readExponentSign : Content -> Bool × Content
  | .char '-' :: rest => (true, rest)
  | .char '+' :: rest => (false, rest)
  | content => (false, content)

/-- An exponent, if its mark comes next; it has a digit. -/
def readExponent (content : Content) : Option (Option (Bool × List Nat) × Content) :=
  let marked (rest : Content) :=
    let (negative, afterSign) := readExponentSign rest
    match readDigits afterSign with
    | ([], _) => none
    | (digits, after) => some (some (negative, digits), after)
  match content with
  | .char 'e' :: rest => marked rest
  | .char 'E' :: rest => marked rest
  | _ => some (none, content)

/-- A number without its sign. -/
def readUnsigned (negative : Bool) (content : Content) : Option (Numeral × Content) := do
  let (whole, afterWhole) ← readWhole content
  let (fraction, afterFraction) ← readFraction afterWhole
  let (exponent, after) ← readExponent afterFraction
  some ({ negative, whole, fraction, exponent }, after)

/-- A number. -/
def readNumeral : Content -> Option (Numeral × Content)
  | .char '-' :: rest => readUnsigned true rest
  | content => readUnsigned false content

/-! ## Strings -/

/-- One piece of a string as written. -/
inductive Piece where
  /-- A unit of the contents that stands for itself, or the character of a short escape. -/
  | plain (unit : TextUnit)
  /-- A code unit of sixteen bits, written as four hexadecimal digits. -/
  | code (unit : Nat)
  deriving DecidableEq, Repr

/-- The value of a hexadecimal digit. -/
def hexDigit? (unit : TextUnit) : Option Nat :=
  unit.char?.bind Text.hexDigit?

/-- The code unit of four hexadecimal digits. -/
def codeUnit? (first second third fourth : TextUnit) : Option Nat := do
  let a ← hexDigit? first
  let b ← hexDigit? second
  let c ← hexDigit? third
  let d ← hexDigit? fourth
  some (ofDigitsIn 16 [a, b, c, d])

/-- The character that a short escape stands for. -/
def shortEscape? : TextUnit -> Option Char
  | .char '\x22' => some '\x22'
  | .char '\\' => some '\\'
  | .char '/' => some '/'
  | .char 'b' => some '\x08'
  | .char 'f' => some '\x0c'
  | .char 'n' => some '\n'
  | .char 'r' => some '\r'
  | .char 't' => some '\t'
  | _ => none

/-- Whether a unit is one of the control characters that a string may not hold. -/
def isControl : TextUnit -> Bool
  | .char value => value < ' '
  | .stray _ => false

/-- The pieces of a string up to its closing quote. -/
def readPieces : Content -> Option (List Piece × Content)
  | [] => none
  | .char '\x22' :: rest => some ([], rest)
  | .char '\\' :: .char 'u' :: first :: second :: third :: fourth :: rest =>
      match codeUnit? first second third fourth, readPieces rest with
      | some unit, some (pieces, after) => some (.code unit :: pieces, after)
      | _, _ => none
  | .char '\\' :: escape :: rest =>
      match shortEscape? escape, readPieces rest with
      | some value, some (pieces, after) => some (.plain (.char value) :: pieces, after)
      | _, _ => none
  | unit :: rest =>
      if isControl unit then none
      else (readPieces rest).map fun (pieces, after) => (.plain unit :: pieces, after)

/-- Whether a code unit is the first of a surrogate pair. -/
def isHighSurrogate (unit : Nat) : Bool :=
  0xD800 ≤ unit && unit < 0xDC00

/-- Whether a code unit is the second of a surrogate pair. -/
def isLowSurrogate (unit : Nat) : Bool :=
  0xDC00 ≤ unit && unit < 0xE000

/-- The characters that pieces denote; none if a surrogate stands alone or a byte belongs
to no character. -/
def denoted : List Piece -> Option (List Char)
  | [] => some []
  | .plain unit :: rest =>
      match unit.char?, denoted rest with
      | some value, some chars => some (value :: chars)
      | _, _ => none
  | .code high :: .code low :: rest =>
      if isHighSurrogate high then
        if isLowSurrogate low then
          let scalar := 0x10000 + (high - 0xD800) * 0x400 + (low - 0xDC00)
          (denoted rest).map (Char.ofNat scalar :: ·)
        else none
      else if isLowSurrogate high then none
      else (denoted (.code low :: rest)).map (Char.ofNat high :: ·)
  | .code unit :: rest =>
      if isHighSurrogate unit || isLowSurrogate unit then none
      else (denoted rest).map (Char.ofNat unit :: ·)

/-- A string after its opening quote. -/
def readString (content : Content) : Option (Option String × Content) :=
  (readPieces content).map fun (pieces, after) =>
    ((denoted pieces).map String.ofList, after)

/-! ## Values -/

/-- The contents after a word, if it comes next. -/
def readWord (word : List Char) (content : Content) : Option Content :=
  Text.after? (Content.ofChars word) content

mutual

/-- A value after leading blanks. -/
def readValue (fuel : Nat) (content : Content) : Option (Written × Content) :=
  match fuel with
  | 0 => none
  | fuel + 1 =>
      match skipBlanks content with
      | .char '\x22' :: rest =>
          (readString rest).map fun (value, after) => (.string value, after)
      | .char '[' :: rest =>
          match skipBlanks rest with
          | .char ']' :: after => some (.array [], after)
          | _ => (readItems fuel rest).map fun (items, after) => (.array items, after)
      | .char '{' :: rest =>
          match skipBlanks rest with
          | .char '}' :: after => some (.object [], after)
          | _ => (readEntries fuel rest).map fun (entries, after) => (.object entries, after)
      | .char 'n' :: rest => (readWord ['u', 'l', 'l'] rest).map fun after => (.null, after)
      | .char 't' :: rest =>
          (readWord ['r', 'u', 'e'] rest).map fun after => (.bool true, after)
      | .char 'f' :: rest =>
          (readWord ['a', 'l', 's', 'e'] rest).map fun after => (.bool false, after)
      | other => (readNumeral other).map fun (numeral, after) => (.number numeral.value?, after)

/-- The items of an array, of which there is one, and the closing bracket. -/
def readItems (fuel : Nat) (content : Content) : Option (List Written × Content) :=
  match fuel with
  | 0 => none
  | fuel + 1 =>
      match readValue fuel content with
      | none => none
      | some (item, afterItem) =>
          match skipBlanks afterItem with
          | .char ']' :: after => some ([item], after)
          | .char ',' :: rest =>
              (readItems fuel rest).map fun (items, after) => (item :: items, after)
          | _ => none

/-- The entries of an object, of which there is one, and the closing brace. -/
def readEntries (fuel : Nat) (content : Content) :
    Option (List (Option String × Written) × Content) :=
  match fuel with
  | 0 => none
  | fuel + 1 =>
      match skipBlanks content with
      | .char '\x22' :: keyRest =>
          match readString keyRest with
          | none => none
          | some (key, afterKey) =>
              match skipBlanks afterKey with
              | .char ':' :: valueRest =>
                  match readValue fuel valueRest with
                  | none => none
                  | some (item, afterItem) =>
                      match skipBlanks afterItem with
                      | .char '}' :: after => some ([(key, item)], after)
                      | .char ',' :: rest =>
                          (readEntries fuel rest).map fun (entries, after) =>
                            ((key, item) :: entries, after)
                      | _ => none
              | _ => none
      | _ => none

end

/-- The syntax tree of a whole text. -/
def parse? (content : Content) : Option Written :=
  match readValue (2 * content.length + 1) content with
  | some (written, after) => if skipBlanks after = [] then some written else none
  | none => none

end Written

namespace Json

/-- The tree of a whole JSON text. -/
def parse? (content : Content) : Option Json :=
  (Written.parse? content).bind Written.value?

end Json

end LayerRouting
