import LayerRouting.Toml.Scalar
import LayerRouting.Toml.Table

/-!
# Reading TOML text

A text is a sequence of lines: blank ones, headers and assignments. The nesting of values
is limited, and so is the number of parts of a dotted key. Values become configuration
trees; an assignment belongs to the table of the latest header.
-/

namespace LayerRouting

namespace Toml

/-! ## Keys -/

/-- The first number of parts that is too many for a dotted key. -/
def keyPartLimit : Nat := 80

/-- The number of arrays and tables in braces that may be nested. -/
def greatestDepth : Nat := 79

/-- Whether a character may stand in a key without quotes. -/
def isBareKeyChar (char : Char) : Bool :=
  char.isAlphanum || char == '-' || char == '_'

/-- One part of a key. -/
def readKeyPart (text : List Char) : Option (String × List Char) :=
  match text with
  | '\x22' :: _ => (readString false text).map fun (chars, rest) => (String.ofList chars, rest)
  | '\x27' :: _ => (readString false text).map fun (chars, rest) => (String.ofList chars, rest)
  | _ =>
      match text.takeWhile isBareKeyChar with
      | [] => none
      | chars => some (String.ofList chars, text.drop chars.length)

/-- The parts of a key with dots between them and blanks around them. The fuel bounds the
number of parts. -/
def readKeyParts (fuel : Nat) (text : List Char) : Option (List String × List Char) :=
  match fuel with
  | 0 => none
  | fuel + 1 => do
      let (part, afterPart) ← readKeyPart (skipBlanks text)
      match skipBlanks afterPart with
      | '.' :: rest => do
          let (parts, after) ← readKeyParts fuel rest
          some (part :: parts, after)
      | after => some ([part], after)

/-- A key, with fewer parts than the limit. -/
def readKey (text : List Char) : Option (List String × List Char) :=
  readKeyParts (keyPartLimit - 1) text

/-! ## Values -/

mutual

/-- A value within a number of levels. -/
def readValue (fuel levels : Nat) (text : List Char) : Option (Json × List Char) :=
  match fuel with
  | 0 => none
  | fuel + 1 =>
      match text with
      | '\x22' :: _ =>
          (readString true text).map fun (chars, rest) => (.string (String.ofList chars), rest)
      | '\x27' :: _ =>
          (readString true text).map fun (chars, rest) => (.string (String.ofList chars), rest)
      | '[' :: rest =>
          match levels with
          | 0 => none
          | inner + 1 =>
              (readItems fuel inner rest).map fun (items, after) => (.array items, after)
      | '{' :: rest =>
          match levels with
          | 0 => none
          | inner + 1 => do
              let (assignments, after) ←
                match skipBlanks rest with
                | '}' :: after => some ([], after)
                | _ => readAssignments fuel inner rest
              let table ← inlineTable? assignments
              some (table, after)
      | 't' :: rest => (Text.after? ['r', 'u', 'e'] rest).map fun after => (.bool true, after)
      | 'f' :: rest => (Text.after? ['a', 'l', 's', 'e'] rest).map fun after => (.bool false, after)
      | _ => (readMoment text).or (readNumber text)

/-- The items of an array with the closing bracket. A comma may stand before it. -/
def readItems (fuel levels : Nat) (text : List Char) : Option (List Json × List Char) :=
  match fuel with
  | 0 => none
  | fuel + 1 => do
      match ← skipTrivia text with
      | ']' :: after => some ([], after)
      | start => do
          let (item, afterItem) ← readValue fuel levels start
          match ← skipTrivia afterItem with
          | ']' :: after => some ([item], after)
          | ',' :: rest => do
              let (items, after) ← readItems fuel levels rest
              some (item :: items, after)
          | _ => none

/-- The assignments in braces, of which there is one, with the closing brace. -/
def readAssignments (fuel levels : Nat) (text : List Char) :
    Option (List (List String × Json) × List Char) :=
  match fuel with
  | 0 => none
  | fuel + 1 => do
      let (keys, afterKeys) ← readKey text
      let (tree, afterValue) ← readValue fuel levels (skipBlanks (← Text.after? ['='] afterKeys))
      match skipBlanks afterValue with
      | '}' :: after => some ([(keys, tree)], after)
      | ',' :: rest => do
          let (assignments, after) ← readAssignments fuel levels rest
          some ((keys, tree) :: assignments, after)
      | _ => none

end

/-! ## Lines -/

/-- What a line says. -/
inductive Line where
  | blank
  /-- A header of a table. -/
  | header (keys : List String)
  /-- A header of a further table in a list. -/
  | listed (keys : List String)
  | assignment (keys : List String) (tree : Json)
  deriving DecidableEq, Repr

/-- The next line, which for a value on several lines is all of them. -/
def readLine (text : List Char) : Option (Line × List Char) :=
  match skipBlanks text with
  | [] => some (.blank, [])
  | '#' :: rest => (readLineRest ('#' :: rest)).map fun after => (.blank, after)
  | '\n' :: rest => some (.blank, rest)
  | '\r' :: rest => (readLineEnd ('\r' :: rest)).map fun after => (.blank, after)
  | '[' :: '[' :: rest => do
      let (keys, afterKeys) ← readKey rest
      let after ← readLineRest (← Text.after? [']', ']'] afterKeys)
      some (.listed keys, after)
  | '[' :: rest => do
      let (keys, afterKeys) ← readKey rest
      let after ← readLineRest (← Text.after? [']'] afterKeys)
      some (.header keys, after)
  | start => do
      let (keys, afterKeys) ← readKey start
      let valueStart := skipBlanks (← Text.after? ['='] afterKeys)
      let (tree, afterValue) ← readValue (2 * valueStart.length + 1) greatestDepth valueStart
      let after ← readLineRest afterValue
      some (.assignment keys tree, after)

/-- All lines. The fuel bounds their number. -/
def readLines (fuel : Nat) (text : List Char) : Option (List Line) :=
  match fuel, text with
  | _, [] => some []
  | 0, _ => none
  | fuel + 1, _ => do
      let (line, rest) ← readLine text
      let lines ← readLines fuel rest
      some (line :: lines)

/-! ## Documents -/

/-- A document while its lines are taken in: its entries and the path of the table that
assignments belong to. -/
structure Draft where
  entries : Nodes
  current : List String
  deriving Repr

namespace Draft

/-- The document after a further line. -/
def take? (draft : Draft) : Line -> Option Draft
  | .blank => some draft
  | .header keys => (openTable? keys draft.entries).map fun entries => ⟨entries, keys⟩
  | .listed keys => (openListed? keys draft.entries).map fun entries => ⟨entries, keys⟩
  | .assignment keys tree =>
      (updateAt? false draft.current (assign? keys tree) .explicit draft.entries).map
        fun entries => { draft with entries }

end Draft

/-- The tree of a TOML text; a byte order mark at its start is skipped. Dates and times are
settled below the top of the text only. -/
def parse? (text : List Char) : Option Json := do
  let body :=
    match text with
    | '\uFEFF' :: rest => rest
    | all => all
  let lines ← readLines (body.length + 1) body
  let draft ← lines.foldlM Draft.take? (⟨[], []⟩ : Draft)
  let entries ← entriesWithMoments? (Node.entriesToJson draft.entries)
  some (.object entries)

end Toml

end LayerRouting
