import LayerRouting.Number.Basic

/-!
# Configuration trees

The values that documents, settings and requests are made of. An object is a list of
entries in insertion order. `Json.Same` is equality of values: the order of entries does
not matter, and zero equals negative zero.
-/

namespace LayerRouting

/-- A configuration tree. -/
inductive Json where
  | null
  | bool (value : Bool)
  | number (value : Number)
  | string (value : String)
  | array (items : List Json)
  | object (entries : List (String × Json))
  deriving Repr

instance : Inhabited Json := ⟨.null⟩

namespace Json

mutual

/-- Decides whether two trees are identical, entry order included. -/
def decideEq : (left right : Json) -> Decidable (left = right)
  | .null, .null => isTrue rfl
  | .bool x, .bool y => if h : x = y then isTrue (by rw [h]) else isFalse (by simp [h])
  | .number x, .number y => if h : x = y then isTrue (by rw [h]) else isFalse (by simp [h])
  | .string x, .string y => if h : x = y then isTrue (by rw [h]) else isFalse (by simp [h])
  | .array xs, .array ys =>
      match decideEqItems xs ys with
      | isTrue h => isTrue (by rw [h])
      | isFalse h => isFalse (by simp [h])
  | .object xs, .object ys =>
      match decideEqEntries xs ys with
      | isTrue h => isTrue (by rw [h])
      | isFalse h => isFalse (by simp [h])
  | .null, .bool _ | .null, .number _ | .null, .string _ | .null, .array _
  | .null, .object _ => isFalse nofun
  | .bool _, .null | .bool _, .number _ | .bool _, .string _ | .bool _, .array _
  | .bool _, .object _ => isFalse nofun
  | .number _, .null | .number _, .bool _ | .number _, .string _ | .number _, .array _
  | .number _, .object _ => isFalse nofun
  | .string _, .null | .string _, .bool _ | .string _, .number _ | .string _, .array _
  | .string _, .object _ => isFalse nofun
  | .array _, .null | .array _, .bool _ | .array _, .number _ | .array _, .string _
  | .array _, .object _ => isFalse nofun
  | .object _, .null | .object _, .bool _ | .object _, .number _ | .object _, .string _
  | .object _, .array _ => isFalse nofun

/-- Decides whether two lists of trees are identical. -/
def decideEqItems : (left right : List Json) -> Decidable (left = right)
  | [], [] => isTrue rfl
  | [], _ :: _ => isFalse nofun
  | _ :: _, [] => isFalse nofun
  | x :: xs, y :: ys =>
      match decideEq x y, decideEqItems xs ys with
      | isTrue h, isTrue g => isTrue (by rw [h, g])
      | isFalse h, _ => isFalse (by simp [h])
      | _, isFalse g => isFalse (by simp [g])

/-- Decides whether two lists of entries are identical. -/
def decideEqEntries : (left right : List (String × Json)) -> Decidable (left = right)
  | [], [] => isTrue rfl
  | [], _ :: _ => isFalse nofun
  | _ :: _, [] => isFalse nofun
  | (k, x) :: xs, (l, y) :: ys =>
      if e : k = l then
        match decideEq x y, decideEqEntries xs ys with
        | isTrue h, isTrue g => isTrue (by rw [e, h, g])
        | isFalse h, _ => isFalse (by simp [h])
        | _, isFalse g => isFalse (by simp [g])
      else isFalse (by simp [e])

end

instance : DecidableEq Json := decideEq

/-- The whole number as a tree. -/
def int (value : WordInt) : Json :=
  .number (.int value)

/-- The binary64 number as a tree. -/
def float (value : Binary64) : Json :=
  .number (.float value)

/-- A natural number as a tree: whole if it fits in 64 bits, else rounded. -/
def ofNat (value : Nat) : Json :=
  match WordInt.ofInt? value with
  | some whole => int whole
  | none => float ((Binary64.ofInt? value).getD .zero)

/-- Whether a tree is an object. -/
def isObject : Json -> Bool
  | .object _ => true
  | _ => false

/-- The text of a string. -/
def asString? : Json -> Option String
  | .string value => some value
  | _ => none

/-- The truth value of a boolean. -/
def asBool? : Json -> Option Bool
  | .bool value => some value
  | _ => none

/-- A number of either kind as a binary64 number. -/
def asBinary64? : Json -> Option Binary64
  | .number value => some value.toBinary64
  | _ => none

end Json

/-! ## Entries -/

namespace Entries

variable {α : Type}

/-- The value of the first entry with a key. -/
def get? (key : String) : List (String × α) -> Option α
  | [] => none
  | (name, value) :: rest => if name = key then some value else get? key rest

/-- Replaces the value of the first entry with a key, or appends an entry. -/
def insert (key : String) (value : α) : List (String × α) -> List (String × α)
  | [] => [(key, value)]
  | (name, old) :: rest =>
      if name = key then (name, value) :: rest else (name, old) :: insert key value rest

/-- Drops the entries with a key; the others keep their order. -/
def erase (key : String) (entries : List (String × α)) : List (String × α) :=
  entries.filter fun entry => entry.1 ≠ key

/-- The keys in order. -/
def keys (entries : List (String × α)) : List String :=
  entries.map Prod.fst

/-- Puts an entry at its place in entries sorted by key, replacing an entry with its key. -/
def insertSorted (key : String) (value : α) : List (String × α) -> List (String × α)
  | [] => [(key, value)]
  | (name, old) :: rest =>
      if name = key then (key, value) :: rest
      else if key < name then (key, value) :: (name, old) :: rest
      else (name, old) :: insertSorted key value rest

/-- Entries in which a repeated key keeps its first place and takes the last value. -/
def ofList (entries : List (String × α)) : List (String × α) :=
  entries.foldl (fun result entry => insert entry.1 entry.2 result) []

end Entries

namespace Json

/-- The member of an object; a tree of another kind has none. -/
def get? (tree : Json) (key : String) : Option Json :=
  match tree with
  | .object entries => Entries.get? key entries
  | _ => none

/-! ## Equality of values -/

mutual

/-- The tree with every object's entries in order of their keys and every zero positive. -/
def canonical : Json -> Json
  | .number value => .number value.unsignedZero
  | .array items => .array (canonicalItems items)
  | .object entries => .object (canonicalEntries entries)
  | leaf => leaf

/-- The canonical trees of a list. -/
def canonicalItems : List Json -> List Json
  | [] => []
  | item :: rest => canonical item :: canonicalItems rest

/-- The canonical entries of an object; of entries with one key the first counts. -/
def canonicalEntries : List (String × Json) -> List (String × Json)
  | [] => []
  | (key, value) :: rest => Entries.insertSorted key (canonical value) (canonicalEntries rest)

end

/-- Equality of values: neither the order of an object's entries nor the sign of zero
matters, but a whole number differs from a binary64 number. -/
def Same (left right : Json) : Prop :=
  left.canonical = right.canonical

instance (left right : Json) : Decidable (Same left right) :=
  inferInstanceAs (Decidable (left.canonical = right.canonical))

@[refl]
theorem Same.refl (tree : Json) : Same tree tree :=
  rfl

@[symm]
theorem Same.symm {left right : Json} (same : Same left right) : Same right left :=
  Eq.symm same

theorem Same.trans {first second third : Json} (one : Same first second)
    (two : Same second third) : Same first third :=
  Eq.trans one two

end Json

end LayerRouting
