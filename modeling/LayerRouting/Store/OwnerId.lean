import LayerRouting.Json.Basic

/-!
# Owner ids

The id of an owner becomes the name of its document's file, so only ids of a safe form
are accepted. Of several faults of an id the first one counts.
-/

namespace LayerRouting

/-- Why an owner id is not accepted. -/
inductive OwnerIdFault where
  | empty
  | tooLong
  | leadingDot
  | unsafeCharacter
  deriving DecidableEq, Repr

namespace OwnerIdFault

/-- The text of a fault. -/
def message : OwnerIdFault -> String
  | .empty => "must not be empty"
  | .tooLong => "longer than 128 characters"
  | .leadingDot => "must not start with '.'"
  | .unsafeCharacter => "only ASCII letters, digits, '-', '_' and '.' are allowed"

end OwnerIdFault

namespace OwnerId

/-- The greatest length of an owner id in bytes. -/
def greatestLength : Nat := 128

/-- Whether a character may stand in an owner id. -/
def isSafe (char : Char) : Bool :=
  char.isAlphanum || char == '-' || char == '_' || char == '.'

/-- The fault of an owner id, if it has one. -/
def fault? (owner : String) : Option OwnerIdFault :=
  if owner = "" then some .empty
  else if greatestLength < owner.utf8ByteSize then some .tooLong
  else if owner.toList.head? = some '.' then some .leadingDot
  else if owner.toList.all isSafe then none
  else some .unsafeCharacter

/-- The name of the file that holds an owner's document. -/
def documentName (owner : String) : String :=
  owner ++ ".json"

/-- The name of the file that a new document of an owner is first written to. -/
def temporaryName (owner : String) : String :=
  "." ++ documentName owner ++ ".tmp"

end OwnerId

end LayerRouting
