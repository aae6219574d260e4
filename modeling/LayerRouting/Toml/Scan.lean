/-!
# Blanks, comments and line ends of TOML

The parts of a TOML text that carry no value. Each function gives the text after what it
read. A line ends with a line feed, alone or after a carriage return.
-/

namespace LayerRouting

namespace Toml

/-- The blanks within a line. -/
def isBlank (char : Char) : Bool :=
  char == ' ' || char == '\t'

/-- The text after leading blanks. -/
def skipBlanks (text : List Char) : List Char :=
  text.dropWhile isBlank

/-- The text after a line end, if one comes next. -/
def readLineEnd : List Char -> Option (List Char)
  | '\n' :: rest => some rest
  | '\r' :: '\n' :: rest => some rest
  | _ => none

/-- Whether a character is printable: no control character. -/
def isPrintable (char : Char) : Bool :=
  0x20 ≤ char.toNat && char.toNat ≠ 0x7F

/-- Whether a character may stand in a comment. -/
def isCommentChar (char : Char) : Bool :=
  char == '\t' || isPrintable char

/-- The text after a comment, if one comes next. -/
def skipComment : List Char -> List Char
  | '#' :: rest => rest.dropWhile isCommentChar
  | text => text

/-- The text after the rest of a line that holds no more than a comment. The last line
may end with the text. -/
def readLineRest (text : List Char) : Option (List Char) :=
  match skipComment (skipBlanks text) with
  | [] => some []
  | rest => readLineEnd rest

/-- The text after blanks, comments and line ends, where `inComment` says whether the text
starts within a comment. A comment ends with its line. -/
def skipLines (inComment : Bool) : List Char -> Option (List Char)
  | [] => if inComment then none else some []
  | '\n' :: rest => skipLines false rest
  | '\r' :: '\n' :: rest => skipLines false rest
  | '\r' :: _ => none
  | char :: rest =>
      if inComment then if isCommentChar char then skipLines true rest else none
      else if isBlank char then skipLines false rest
      else if char = '#' then skipLines true rest
      else some (char :: rest)

/-- The text after blanks, comments and line ends. -/
def skipTrivia (text : List Char) : Option (List Char) :=
  skipLines false text

end Toml

end LayerRouting
