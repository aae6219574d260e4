import LayerRouting.Json.Basic

/-!
# Records in trees

How a record with named members is read from a tree. Members are looked up by name in an
object; some records are also read from an array that holds the members in order, where
members at the end may be left out. A member that may be absent is also absent when it is
null; any other member reads its null like any other value. Members that a record does
not know are ignored.
-/

namespace LayerRouting

/-- The members that a record was given. -/
abbrev Record := List (String × Json)

namespace Record

/-- The members of an object. -/
def ofObject? : Json -> Option Record
  | .object entries => some entries
  | _ => none

/-- The members of an object, or of an array that holds no more than the named ones. -/
def ofTree? (names : List String) : Json -> Option Record
  | .object entries => some entries
  | .array items => if items.length ≤ names.length then some (names.zip items) else none
  | _ => none

variable {α : Type}

/-- A member that must be there. -/
def required? (record : Record) (name : String) (read? : Json -> Option α) : Option α :=
  (Entries.get? name record).bind read?

/-- A member that has a value of its own when it is left out. -/
def defaulted? (record : Record) (name : String) (default : α) (read? : Json -> Option α) :
    Option α :=
  match Entries.get? name record with
  | none => some default
  | some value => read? value

/-- A member that may be absent. -/
def optional? (record : Record) (name : String) (read? : Json -> Option α) :
    Option (Option α) :=
  match Entries.get? name record with
  | none => some none
  | some .null => some none
  | some value => (read? value).map some

/-- The members that are not among the known names, in order. -/
def unknown (names : List String) (record : Record) : Record :=
  record.filter fun entry => entry.1 ∉ names

end Record

namespace Json

variable {α : Type}

/-- Every item of an array read as one type. -/
def readItems? (read? : Json -> Option α) : Json -> Option (List α)
  | .array items => items.mapM read?
  | _ => none

/-- The entries of an object as they are. -/
def readEntries? : Json -> Option (List (String × Json))
  | .object entries => some entries
  | _ => none

/-- The name of an alternative: the name itself, or an object that holds null under it. -/
def readName? : Json -> Option String
  | .string name => some name
  | .object [(name, .null)] => some name
  | _ => none

/-- The entry of a member that may be absent, if it is present. -/
def optionalEntry (name : String) (write : α -> Json) (value : Option α) : Record :=
  match value with
  | none => []
  | some present => [(name, write present)]

/-- Null for an absent value. -/
def ofOption (write : α -> Json) : Option α -> Json
  | none => .null
  | some present => write present

/-- An array of written items. -/
def ofList (write : α -> Json) (items : List α) : Json :=
  .array (items.map write)

end Json

end LayerRouting
