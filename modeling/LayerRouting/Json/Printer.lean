import LayerRouting.Json.Basic
import LayerRouting.Number.Layout

/-!
# Writing trees

The two written forms of a tree: compact text on one line, and indented text with two
spaces for each level and one entry or item on each line.
-/

namespace LayerRouting

/-- The lower-case hexadecimal digit of a number below sixteen. -/
def hexDigit (value : Nat) : Char :=
  Nat.digitChar value

namespace Json

/-- The written form of one character of a string. Only the quote, the backslash and the
characters below the blank are escaped. -/
def escapeChar (char : Char) : List Char :=
  match char with
  | '\x22' => ['\\', '\x22']
  | '\\' => ['\\', '\\']
  | '\x08' => ['\\', 'b']
  | '\x0c' => ['\\', 'f']
  | '\n' => ['\\', 'n']
  | '\r' => ['\\', 'r']
  | '\t' => ['\\', 't']
  | other =>
      if other.toNat < 0x20 then
        ['\\', 'u', '0', '0', hexDigit (other.toNat / 16), hexDigit (other.toNat % 16)]
      else [other]

/-- A string in quotes. -/
def quoted (text : String) : List Char :=
  '\x22' :: (text.toList.flatMap escapeChar ++ ['\x22'])

/-- The text of a number; a binary64 number always shows that it is one. -/
def numberText : Number -> List Char
  | .int value => integerText value.val
  | .float value => Layout.standard.binary64 value

/-- The text of a truth value. -/
def boolText (value : Bool) : List Char :=
  if value then "true".toList else "false".toList

/-! ## Compact text -/

mutual

/-- The tree on one line without blanks. -/
def compact : Json -> List Char
  | .null => "null".toList
  | .bool value => boolText value
  | .number value => numberText value
  | .string value => quoted value
  | .array items => '[' :: (compactItems items ++ [']'])
  | .object entries => '{' :: (compactEntries entries ++ ['}'])

/-- Items with a comma between them. -/
def compactItems : List Json -> List Char
  | [] => []
  | item :: rest => compact item ++ compactFurtherItems rest

/-- Items, each after a comma. -/
def compactFurtherItems : List Json -> List Char
  | [] => []
  | item :: rest => ',' :: (compact item ++ compactFurtherItems rest)

/-- Entries with a comma between them. -/
def compactEntries : List (String × Json) -> List Char
  | [] => []
  | (key, value) :: rest => quoted key ++ ':' :: (compact value ++ compactFurtherEntries rest)

/-- Entries, each after a comma. -/
def compactFurtherEntries : List (String × Json) -> List Char
  | [] => []
  | (key, value) :: rest =>
      ',' :: (quoted key ++ ':' :: (compact value ++ compactFurtherEntries rest))

end

/-! ## Indented text -/

/-- A line break and the blanks of a level. -/
def lineBreak (level : Nat) : List Char :=
  '\n' :: List.replicate (2 * level) ' '

mutual

/-- The tree at a level of indentation; an empty array or object stays on its line. -/
def indented (level : Nat) : Json -> List Char
  | .null => "null".toList
  | .bool value => boolText value
  | .number value => numberText value
  | .string value => quoted value
  | .array [] => ['[', ']']
  | .array (item :: rest) =>
      '[' :: (lineBreak (level + 1) ++ indented (level + 1) item
        ++ indentedFurtherItems (level + 1) rest ++ lineBreak level ++ [']'])
  | .object [] => ['{', '}']
  | .object ((key, value) :: rest) =>
      '{' :: (lineBreak (level + 1) ++ quoted key ++ [':', ' '] ++ indented (level + 1) value
        ++ indentedFurtherEntries (level + 1) rest ++ lineBreak level ++ ['}'])

/-- Items, each after a comma and on its own line. -/
def indentedFurtherItems (level : Nat) : List Json -> List Char
  | [] => []
  | item :: rest =>
      ',' :: (lineBreak level ++ indented level item ++ indentedFurtherItems level rest)

/-- Entries, each after a comma and on its own line. -/
def indentedFurtherEntries (level : Nat) : List (String × Json) -> List Char
  | [] => []
  | (key, value) :: rest =>
      ',' :: (lineBreak level ++ quoted key ++ [':', ' '] ++ indented level value
        ++ indentedFurtherEntries level rest)

end

/-- The compact text of a tree. -/
def text (tree : Json) : String :=
  String.ofList tree.compact

/-- The indented text of a tree, without a final line break. -/
def prettyText (tree : Json) : String :=
  String.ofList (tree.indented 0)

end Json

end LayerRouting
