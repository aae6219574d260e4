import LayerRouting.Override.Op

/-!
# Ops by item

The ops of a log grouped by the item that they touch, built in one pass. Ops on the root
touch every item and stand in a group of their own. Every op keeps its position in the
log, by which the two groups of an item are merged back into log order.
-/

namespace LayerRouting

/-- An op and its position in the log. -/
abbrev PlacedOp := Nat × Op

/-- The ops of a log by item. -/
structure OpIndex where
  /-- The ops below each item, with the items in order of first mention. -/
  byItem : List (String × List PlacedOp)
  /-- The ops on the root. -/
  root : List PlacedOp

namespace OpIndex

/-- Adds a placed op to an item's group, which is made at the end if it is new. -/
def addTo (id : String) (placed : PlacedOp) (groups : List (String × List PlacedOp)) :
    List (String × List PlacedOp) :=
  Entries.insert id ((Entries.get? id groups).getD [] ++ [placed]) groups

/-- Adds the next op of the log. -/
def add (index : OpIndex) (placed : PlacedOp) : OpIndex :=
  match placed.2.path.firstKey? with
  | none => { index with root := index.root ++ [placed] }
  | some id => { index with byItem := addTo id placed index.byItem }

/-- The index of a log. -/
def ofLog (log : Log) : OpIndex :=
  log.zipIdx.foldl (fun index (op, position) => index.add (position, op)) ⟨[], []⟩

/-- The items that the log mentions, in order of first mention. -/
def itemIds (index : OpIndex) : List String :=
  Entries.keys index.byItem

/-- The ops that touch an item, in log order. -/
def opsFor (index : OpIndex) (id : String) : Log :=
  let own := (Entries.get? id index.byItem).getD []
  (List.merge own index.root fun left right => left.1 ≤ right.1).map Prod.snd

/-- Whether an op touches an item. -/
def isTouched (index : OpIndex) (id : String) : Bool :=
  !index.root.isEmpty || (Entries.get? id index.byItem).isSome

end OpIndex

end LayerRouting
