import LayerRouting.Override.Item

/-!
# Drafts

A draft is a working log against fixed defaults; edits of items are made on it one after
the other and its log is committed as a whole. An edit that sets a defaulted, unedited
value to its default leaves no op behind.
-/

namespace LayerRouting

/-- A working log, the defaults that it edits and the ids for its new ops. -/
structure Draft where
  defaults : Json
  log : Log
  supply : IdSupply
  deriving DecidableEq, Repr

/-- What an edit of an item asks for. -/
inductive Intent where
  /-- Set a field of an item; the root field is the item itself. -/
  | set (id : String) (field : Path) (value : Json)
  /-- Drop the ops on a field and below it. -/
  | clear (id : String) (field : Path)
  /-- Drop the ops on an item. -/
  | reset (id : String)
  /-- Insert an item or replace it as a whole. -/
  | insert (id : String) (value : Json)
  /-- Remove an item. -/
  | remove (id : String)
  /-- Move an item to a place among the live items. -/
  | move (id : String) (place : Nat)
  /-- Give an item another id. -/
  | rename (id newId : String)
  /-- Drop the ops that do nothing. -/
  | prune
  deriving DecidableEq, Repr

namespace Draft

/-- The draft of a document's current log. -/
def ofDocument (document : Document Json) (supply : IdSupply) : Draft :=
  { defaults := document.defaults, log := document.log, supply }

/-- Appends a new op that sets a value. -/
def appendSet (draft : Draft) (path : Path) (value : Json) : Draft :=
  let (id, supply) := draft.supply.take
  { draft with log := draft.log ++ [.set id path value], supply }

/-- Appends a new op that deletes. -/
def appendDelete (draft : Draft) (path : Path) : Draft :=
  let (id, supply) := draft.supply.take
  { draft with log := draft.log ++ [.delete id path], supply }

/-- The last op of a log on a path, below it or above it. -/
def lastTouching? (log : Log) (path : Path) : Option Op :=
  log.reverse.find? fun op => op.affects path

/-- Whether an op sets exactly a path to the same value. -/
def recordsValue (op : Op) (path : Path) (value : Json) : Bool :=
  match op with
  | .set _ recorded old => recorded = path ∧ old.Same value
  | .delete _ _ => false

/-- Whether a log already says that a path has a value: the last op touching the path sets
it to that value, and no other op is on the path or below it. Such an op keeps its id. -/
def alreadyRecords (log : Log) (path : Path) (value : Json) : Bool :=
  let within := log.countP fun op => op.path.isWithin path
  (lastTouching? log path).any (recordsValue · path value) && within == 1

/-- Drops the ops on a path and below it. -/
def dropWithin (path : Path) (log : Log) : Log :=
  log.filter fun op => !op.path.isWithin path

/-- The last op of a log that satisfies a condition, with the ops before and after it. -/
def splitLast? (condition : Op -> Bool) : Log -> Option (Log × Op × Log)
  | [] => none
  | op :: rest =>
      match splitLast? condition rest with
      | some (before, found, after) => some (op :: before, found, after)
      | none => if condition op then some ([], op, rest) else none

/-- Records a value in the last op above a path, if there is such an op: inside the value
that it sets, or, if it deletes, as a new op at the end. -/
def recordUnderAncestor? (draft : Draft) (path : Path) (value : Json) : Option Draft :=
  match splitLast? (fun op => path.isWithin op.path) draft.log with
  | none => none
  | some (before, .set id ancestor container, after) =>
      let below := (path.relativeTo? ancestor).getD []
      some { draft with log := before ++ .set id ancestor (container.setAt below value) :: after }
  | some (_, .delete _ _, _) => some (draft.appendSet path value)

/-- Sets the value at a path. -/
def setPath (draft : Draft) (path : Path) (value : Json) : Draft :=
  if alreadyRecords draft.log path value then draft
  else
    let cleared := { draft with log := dropWithin path draft.log }
    match cleared.recordUnderAncestor? path value with
    | some recorded => recorded
    | none =>
        if (draft.defaults.lookup? path).any fun old => old.Same value then cleared
        else cleared.appendSet path value

/-- Sets a field of an item; the root field is the item itself. -/
def setField (draft : Draft) (id : String) (field : Path) (value : Json) : Draft :=
  draft.setPath (Path.item id ++ field) value

/-- Drops the ops on a field of an item and below it. -/
def clearField (draft : Draft) (id : String) (field : Path) : Draft :=
  { draft with log := dropWithin (Path.item id ++ field) draft.log }

/-- Drops the ops on an item and below it. -/
def resetItem (draft : Draft) (id : String) : Draft :=
  draft.clearField id []

/-- Inserts an item or replaces it as a whole. -/
def insertItem (draft : Draft) (id : String) (value : Json) : Draft :=
  let cleared := draft.resetItem id
  if (draft.defaults.lookup? (Path.item id)).any fun old => old.Same value then cleared
  else cleared.appendSet (Path.item id) value

/-- Removes an item. An item of the defaults is deleted by an op; of another item only the
ops are dropped. -/
def removeItem (draft : Draft) (id : String) : Draft :=
  let cleared := draft.resetItem id
  if (draft.defaults.lookup? (Path.item id)).isSome then cleared.appendDelete (Path.item id)
  else cleared

/-- The live items in order, each with the rank that its value holds. -/
def liveRanks (draft : Draft) : List (String × Option Binary64) :=
  (Item.all draft.defaults draft.log).filterMap fun item =>
    item.computed.map fun value => (item.id, Item.rank? value)

/-- Whether a value's rank is numerically a position. -/
def hasRank (rank : Option Binary64) (position : Nat) : Bool :=
  rank.any fun held => held.unsignedZero = (Item.positionRank position).unsignedZero

/-- Moves an item to a place among the live items, by setting the rank of every item that
does not hold its position as its rank. A place beyond the end is the end. -/
def moveItem (draft : Draft) (id : String) (place : Nat) : Draft :=
  let live := draft.liveRanks
  match live.find? fun entry => entry.1 = id with
  | none => draft
  | some moved =>
      let others := live.eraseP fun entry => entry.1 = id
      let order := others.insertIdx (min place others.length) moved
      order.zipIdx.foldl (fun (draft : Draft) ((item, rank), position) =>
        if hasRank rank position then draft
        else draft.setField item [.key Item.rankField] (Json.ofNat position)) draft

/-- Gives an item another id. An item of the defaults is removed and its value inserted
under the new id; of another item the ops are moved, with their ids. -/
def renameItem (draft : Draft) (id newId : String) : Draft :=
  if id = newId then draft
  else
    match Document.item? ⟨draft.defaults, draft.log⟩ id with
    | some { computed := some value, defaultValue, .. } =>
        let cleared := draft.resetItem newId
        if defaultValue.isNone then
          let moved := cleared.log.map fun op =>
            if op.path.firstKey? = some id then
              op.withPath (op.path.withFirst (.key newId))
            else op
          { cleared with log := moved }
        else (cleared.removeItem id).insertItem newId value
    | _ => draft

/-- Drops the ops that have the id of an op that does nothing. -/
def prune (draft : Draft) : Draft :=
  let unused := draft.log.unusedIds draft.defaults
  { draft with log := draft.log.filter fun op => op.id ∉ unused }

/-- Carries out one intent. -/
def perform (draft : Draft) : Intent -> Draft
  | .set id field value => draft.setField id field value
  | .clear id field => draft.clearField id field
  | .reset id => draft.resetItem id
  | .insert id value => draft.insertItem id value
  | .remove id => draft.removeItem id
  | .move id place => draft.moveItem id place
  | .rename id newId => draft.renameItem id newId
  | .prune => draft.prune

/-- Carries out a batch of intents. -/
def performAll (draft : Draft) (intents : List Intent) : Draft :=
  intents.foldl perform draft

end Draft

end LayerRouting
