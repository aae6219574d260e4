import LayerRouting.Json.Basic
import LayerRouting.Text.Content

/-!
# Trees as written

What a JSON text says before it is decided whether it means something: repeated keys are
still there, a number may be out of range and a string may be no text. A reader that
skips a part of a text accepts it in this form, however deep it nests; `Written.value?`
gives the configuration tree of a part that is read as a value.
-/

namespace LayerRouting

/-- A JSON text's syntax tree. -/
inductive Written where
  | null
  | bool (value : Bool)
  /-- A number, or none if it is out of range. -/
  | number (value : Option Number)
  /-- A string, or none if what it denotes is not text. -/
  | string (value : Option String)
  | array (items : List Written)
  | object (entries : List (Option String × Written))
  deriving Repr

instance : Inhabited Written := ⟨.null⟩

namespace Written

/-- The number of nested arrays and objects that a text may have. -/
def greatestDepth : Nat := 127

mutual

/-- The tree of a value within a number of levels; none if the value nests deeper, or if
a number or string in it denotes nothing. A repeated key keeps its first place and takes
its last value. -/
def valueWithin (levels : Nat) : Written -> Option Json
  | .null => some .null
  | .bool value => some (.bool value)
  | .number value => value.map .number
  | .string value => value.map .string
  | .array items =>
      match levels with
      | 0 => none
      | inner + 1 => (itemsWithin inner items).map .array
  | .object entries =>
      match levels with
      | 0 => none
      | inner + 1 => (entriesWithin inner entries).map fun list => .object (Entries.ofList list)

/-- The trees of an array's items within a number of levels. -/
def itemsWithin (levels : Nat) : List Written -> Option (List Json)
  | [] => some []
  | item :: rest =>
      match valueWithin levels item, itemsWithin levels rest with
      | some tree, some trees => some (tree :: trees)
      | _, _ => none

/-- The entries of an object within a number of levels, repeated keys included. -/
def entriesWithin (levels : Nat) :
    List (Option String × Written) -> Option (List (String × Json))
  | [] => some []
  | (key, item) :: rest =>
      match key, valueWithin levels item, entriesWithin levels rest with
      | some name, some tree, some entries => some ((name, tree) :: entries)
      | _, _, _ => none

end

/-- The tree of a whole text. -/
def value? (written : Written) : Option Json :=
  written.valueWithin greatestDepth

end Written

end LayerRouting
