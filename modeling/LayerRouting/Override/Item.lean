import LayerRouting.Override.OpIndex
import LayerRouting.Override.Resolution

/-!
# Items of a keyed collection

A collection is an object whose entries are items by id. Each item is reported with its
computed value, its default and the ops that touch it, so that a defaulted item can be
told from an edited, an inserted and a deleted one. `Item.all` reads the items off the
resolved tree; `Item.single?` replays only the ops that touch one item.
-/

namespace LayerRouting

/-- Where an item's computed value comes from. -/
inductive Provenance where
  /-- The defaults have the item and no op touches it. -/
  | default
  /-- The defaults have the item and an op touches it. -/
  | overridden
  /-- Only the log has the item. -/
  | overrideOnly
  /-- The log deleted the item. -/
  | deleted
  deriving DecidableEq, Repr

namespace Provenance

/-- The name of a provenance. -/
def name : Provenance -> String
  | .default => "default"
  | .overridden => "overridden"
  | .overrideOnly => "override_only"
  | .deleted => "deleted"

end Provenance

/-- An entry of a collection, with what the log did to it. -/
structure Item (α : Type) where
  id : String
  /-- The value in the resolved tree; none if the log deleted the item. -/
  computed : Option α
  /-- The value in the defaults, if the item has one. -/
  defaultValue : Option α
  /-- The ops that touch the item, in log order. -/
  ops : Log
  deriving DecidableEq, Repr

namespace Item

variable {α β : Type}

/-- Whether an op touches the item. -/
def isOverridden (item : Item α) : Bool :=
  !item.ops.isEmpty

/-- Whether the log deleted the item. -/
def isDeleted (item : Item α) : Bool :=
  item.computed.isNone

/-- Where the computed value comes from. -/
def provenance (item : Item α) : Provenance :=
  match item.computed, item.defaultValue with
  | none, _ => .deleted
  | some _, none => .overrideOnly
  | some _, some _ => if item.isOverridden then .overridden else .default

/-- Reads a value, if there is one; a value that does not read is a failure. -/
def readOptional? (read? : α -> Option β) : Option α -> Option (Option β)
  | none => some none
  | some value => (read? value).map some

/-- The item with both values read as another type; none if one does not read. -/
def mapValues? (read? : α -> Option β) (item : Item α) : Option (Item β) := do
  let computed ← readOptional? read? item.computed
  let defaultValue ← readOptional? read? item.defaultValue
  some { id := item.id, computed, defaultValue, ops := item.ops }

/-- The member of an item that holds its rank. -/
def rankField : String := "_rank"

/-- The rank that an item's value holds, if it holds one. -/
def rank? (value : Json) : Option Binary64 :=
  (value.get? rankField).bind Json.asBinary64?

/-- A position as a rank. -/
def positionRank (position : Nat) : Binary64 :=
  (Binary64.ofInt? position).getD .zero

/-- The ids of a collection: those of the defaults, then the new ones of the tree. -/
def collectionIds (defaults resolved : Json) : List String :=
  let keysOf (tree : Json) : List String :=
    match tree with
    | .object entries => Entries.keys entries
    | _ => []
  (keysOf resolved).foldl (fun ids id => if id ∈ ids then ids else ids ++ [id])
    (keysOf defaults)

/-- The item of an id, if the resolved tree or the defaults hold a value for it. -/
def report? (defaults resolved : Json) (index : OpIndex) (id : String) : Option (Item Json) :=
  let computed := resolved.lookup? (Path.item id)
  let defaultValue := defaults.lookup? (Path.item id)
  if computed.isNone ∧ defaultValue.isNone then none
  else some { id, computed, defaultValue, ops := index.opsFor id }

/-- The rank by which an item is ordered: that of its computed value, or of its default if
it is deleted, or else its position. -/
def orderRank (item : Item Json) (position : Nat) : Binary64 :=
  ((item.computed.or item.defaultValue).bind rank?).getD (positionRank position)

/-- All items of a collection in order of their ranks; items of one rank keep the order of
their ids in the collection. -/
def all (defaults : Json) (log : Log) : List (Item Json) :=
  let index := OpIndex.ofLog log
  let resolved := log.resolve defaults
  let ranked := (collectionIds defaults resolved).zipIdx.filterMap fun (id, position) =>
    (report? defaults resolved index id).map fun item => (item.orderRank position, item)
  (ranked.mergeSort fun left right => left.1.orderKey ≤ right.1.orderKey).map Prod.snd

/-- The value of one item after an op that touches it. -/
def afterOp (op : Op) (value : Option Json) : Option Json :=
  let below := op.path.drop 1
  match below, op with
  | [], .set _ _ installed => some installed
  | [], .delete _ _ => none
  | _, _ =>
      match value with
      | some old => some ((op.withPath below).apply old)
      | none => if op.isDelete then none else some ((op.withPath below).apply .null)

/-- One item of a collection, from the ops that touch it alone. When an op is on the root,
or the defaults are no object, the whole collection is resolved instead. -/
def single? (index : OpIndex) (log : Log) (defaults : Json) (id : String) :
    Option (Item Json) :=
  if !index.root.isEmpty || !defaults.isObject then
    (all defaults log).find? fun item => item.id = id
  else
    let defaultValue := defaults.lookup? (Path.item id)
    let ops := index.opsFor id
    let computed := ops.foldl (fun value op => afterOp op value) defaultValue
    if computed.isNone ∧ defaultValue.isNone then none
    else some { id, computed, defaultValue, ops }

end Item

namespace Document

/-- All items of a document's collection. -/
def items (document : Document Json) : List (Item Json) :=
  Item.all document.defaults document.log

/-- One item of a document's collection. -/
def item? (document : Document Json) (id : String) : Option (Item Json) :=
  Item.single? (OpIndex.ofLog document.log) document.log document.defaults id

end Document

end LayerRouting
