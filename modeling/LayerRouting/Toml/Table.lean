import LayerRouting.Json.Basic

/-!
# Tables of TOML

How headers and assignments build up the tables of a TOML text. A table is explicit when
a header defines it, implied when it is only on the way of a header's path, and dotted
when it is only on the way of an assignment's key. A header defines a table once, and may
define one that was implied so far; an assignment may add to dotted tables only; no key
is assigned twice.
-/

namespace LayerRouting

namespace Toml

/-- How a table came to be. -/
inductive TableKind where
  | explicit
  | implied
  | dotted
  deriving DecidableEq, Repr

/-- What a key of a table holds while a text is read. -/
inductive Node where
  | value (tree : Json)
  | table (kind : TableKind) (entries : List (String × Node))
  /-- The tables of headers in double brackets, the latest last. -/
  | tables (items : List (List (String × Node)))
  deriving Repr

/-- The entries of a table while a text is read. -/
abbrev Nodes := List (String × Node)

namespace Node

mutual

/-- The tree of what a key holds. -/
def toJson : Node -> Json
  | .value tree => tree
  | .table _ entries => .object (entriesToJson entries)
  | .tables items => .array (itemsToJson items)

/-- The trees of entries. -/
def entriesToJson : List (String × Node) -> List (String × Json)
  | [] => []
  | (key, node) :: rest => (key, toJson node) :: entriesToJson rest

/-- The trees of tables in a list. -/
def itemsToJson : List (List (String × Node)) -> List Json
  | [] => []
  | entries :: rest => .object (entriesToJson entries) :: itemsToJson rest

end

end Node

/-- The list with its last item changed, unless it is empty or the change fails. -/
def updateLast? {α : Type} (change : α -> Option α) : List α -> Option (List α)
  | [] => none
  | [last] => (change last).map fun changed => [changed]
  | item :: rest => (updateLast? change rest).map (item :: ·)

/-- Changes the table at a path below a table; tables on the way are made. Of tables in a
list the last one is meant. With `dotted` the path is part of an assignment's key, which
does not lead through explicit tables. -/
def updateAt? (dotted : Bool) (path : List String)
    (change : TableKind -> Nodes -> Option Nodes) (kind : TableKind) (entries : Nodes) :
    Option Nodes :=
  match path with
  | [] => change kind entries
  | key :: rest =>
      match Entries.get? key entries with
      | none => do
          let made := if dotted then TableKind.dotted else .implied
          let inner ← updateAt? dotted rest change made []
          some (Entries.insert key (.table made inner) entries)
      | some (.value _) => none
      | some (.tables items) => do
          let changed ← updateLast? (updateAt? dotted rest change .explicit) items
          some (Entries.insert key (.tables changed) entries)
      | some (.table innerKind inner) =>
          if dotted ∧ innerKind = .explicit then none
          else do
            let changed ← updateAt? dotted rest change innerKind inner
            some (Entries.insert key (.table innerKind changed) entries)

/-- The path of all keys but the last, and the last; none without keys. -/
def splitKeys? : List String -> Option (List String × String)
  | [] => none
  | [last] => some ([], last)
  | key :: rest => (splitKeys? rest).map fun (path, last) => (key :: path, last)

/-- The entries of a table after an assignment to a dotted key. -/
def assign? (keys : List String) (tree : Json) (kind : TableKind) (entries : Nodes) :
    Option Nodes := do
  let (path, last) ← splitKeys? keys
  let install (target : TableKind) (inner : Nodes) : Option Nodes :=
    if decide (target = .dotted) == path.isEmpty then none
    else if (Entries.get? last inner).isSome then none
    else some (Entries.insert last (.value tree) inner)
  updateAt? true path install kind entries

/-- The entries of a document after a header of a table. A table that was implied so far
moves behind the other entries of its table. -/
def openTable? (keys : List String) (entries : Nodes) : Option Nodes := do
  let (path, last) ← splitKeys? keys
  let define (_ : TableKind) (inner : Nodes) : Option Nodes :=
    match Entries.get? last inner with
    | none => some (Entries.insert last (.table .explicit []) inner)
    | some (.table .implied own) =>
        some (Entries.insert last (.table .explicit own) (Entries.erase last inner))
    | some _ => none
  updateAt? false path define .explicit entries

/-- The entries of a document after a header of a further table in a list. -/
def openListed? (keys : List String) (entries : Nodes) : Option Nodes := do
  let (path, last) ← splitKeys? keys
  let define (_ : TableKind) (inner : Nodes) : Option Nodes :=
    match Entries.get? last inner with
    | none => some (Entries.insert last (.tables [[]]) inner)
    | some (.tables items) => some (Entries.insert last (.tables (items ++ [[]])) inner)
    | some _ => none
  updateAt? false path define .explicit entries

/-- The table of the assignments in braces. -/
def inlineTable? (assignments : List (List String × Json)) : Option Json := do
  let entries ← assignments.foldlM (fun entries (keys, tree) =>
    assign? keys tree .explicit entries) ([] : Nodes)
  some (.object (Node.entriesToJson entries))

end Toml

end LayerRouting
