/-!
# File contents

The contents of a file are characters, and bytes that belong to no character. Every
sequence of bytes has exactly one reading as contents that keeps all bytes, so nothing
is lost by reading a file that is not text.
-/

namespace LayerRouting

/-- One unit of a file's contents. -/
inductive TextUnit where
  /-- A character that the file encodes. -/
  | char (value : Char)
  /-- A byte that is not part of an encoded character. -/
  | stray (byte : UInt8)
  deriving DecidableEq, Repr

namespace TextUnit

/-- The bytes of a unit. -/
def bytes : TextUnit -> List UInt8
  | .char value => String.utf8EncodeChar value
  | .stray byte => [byte]

/-- The character of a unit, if it is one. -/
def char? : TextUnit -> Option Char
  | .char value => some value
  | .stray _ => none

end TextUnit

/-- The contents of a file. -/
abbrev Content := List TextUnit

namespace Content

/-- The contents that encode a list of characters. -/
def ofChars (text : List Char) : Content :=
  text.map .char

/-- The contents that encode a text. -/
def ofText (text : String) : Content :=
  ofChars text.toList

/-- The units of the bytes from a position on. -/
def decodeFrom (bytes : ByteArray) (position : Nat) : Content :=
  if _inside : position < bytes.size then
    match bytes.utf8DecodeChar? position with
    | some value => .char value :: decodeFrom bytes (position + value.utf8Size)
    | none => .stray bytes[position] :: decodeFrom bytes (position + 1)
  else []
termination_by bytes.size - position
decreasing_by
  · have := value.utf8Size_pos
    omega
  · omega

/-- The contents that a file's bytes are. -/
def ofBytes (bytes : ByteArray) : Content :=
  decodeFrom bytes 0

/-- The bytes of the contents. -/
def toBytes (content : Content) : List UInt8 :=
  content.flatMap TextUnit.bytes

/-- The characters of the contents, if all of it is text. -/
def chars? : Content -> Option (List Char)
  | [] => some []
  | .char value :: rest => (chars? rest).map (value :: ·)
  | .stray _ :: _ => none

/-- The text of the contents, if all of it is text. -/
def text? (content : Content) : Option String :=
  content.chars?.map String.ofList

end Content

end LayerRouting
