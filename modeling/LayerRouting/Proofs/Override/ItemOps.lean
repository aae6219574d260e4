import LayerRouting.Proofs.Override.Items
import LayerRouting.Proofs.Override.Makers
import LayerRouting.Proofs.Override.Tidiness

/-!
# The ops of an item

An item of a draft is what the ops that touch it make of its default (`Draft.get?_resolved`), so an
edit is known by the ops that it leaves on each item. Resetting, inserting and removing an item
replace the ops on that item by at most one, and no other item loses or gets an op
(`Draft.KeepsOps`): the other items keep their values (`Draft.KeepsOps.leavesOthers`).
-/

namespace LayerRouting

/-! ## Replaying ops -/

namespace Item

/-- What the ops that touch an item make of a value, one after the other. -/
def replay (ops : Log) (value : Option Json) : Option Json :=
  ops.foldl (fun value op => afterOp op value) value

theorem replay_concat (ops : Log) (last : Op) (value : Option Json) :
    replay (ops ++ [last]) value = afterOp last (replay ops value) :=
  List.foldl_concat ..

end Item

/-- A path is within an item exactly if it begins with the item's id. -/
theorem Path.isWithin_item_iff {path : Path} {id : String} :
    path.isWithin (Path.item id) ↔ path.firstKey? = some id := by
  cases path with
  | nil => simp [isWithin_iff, keys, item, firstKey?]
  | cons segment rest =>
      rw [item, isWithin_cons_cons]
      simp [firstKey?, Segment.asKey, eq_comm]

namespace Draft

/-! ## Items of a draft -/

/-- An item of a draft is what the ops that touch it make of its default. -/
theorem get?_resolved {draft : Draft} (object : draft.defaults.isObject)
    (belowRoot : draft.log.IsBelowRoot) (id : String) :
    draft.resolved.get? id = Item.replay (draft.log.opsOn id) (draft.defaults.get? id) :=
  Log.get?_resolve belowRoot object id

/-- Whether an edit keeps a log below the root, and the ops of every item but certain ones. -/
structure KeepsOps (edited : List String) (before after : Draft) : Prop where
  defaults : after.defaults = before.defaults
  belowRoot : before.log.IsBelowRoot -> after.log.IsBelowRoot
  ops : before.log.IsBelowRoot -> ∀ other, other ∉ edited ->
    after.log.opsOn other = before.log.opsOn other

/-- Whether an edit leaves every item but certain ones alone: the value in the resolved tree and
the ops that the index gives for it. -/
structure LeavesOthers (edited : List String) (before after : Draft) : Prop where
  value : ∀ other, other ∉ edited -> after.resolved.get? other = before.resolved.get? other
  ops : ∀ other, other ∉ edited ->
    (OpIndex.ofLog after.log).opsFor other = (OpIndex.ofLog before.log).opsFor other

namespace KeepsOps

variable {edited further : List String} {before middle after : Draft}

theorem refl (edited : List String) (draft : Draft) : KeepsOps edited draft draft :=
  ⟨rfl, id, fun _ _ _ => rfl⟩

theorem trans (first : KeepsOps edited before middle) (second : KeepsOps further middle after) :
    KeepsOps (edited ++ further) before after where
  defaults := second.defaults.trans first.defaults
  belowRoot below := second.belowRoot (first.belowRoot below)
  ops below other apart := by
    rw [List.mem_append, not_or] at apart
    exact (second.ops (first.belowRoot below) other apart.2).trans (first.ops below other apart.1)

theorem mono (keeps : KeepsOps edited before after) (sub : edited ⊆ further) :
    KeepsOps further before after :=
  ⟨keeps.defaults, keeps.belowRoot, fun below other apart =>
    keeps.ops below other fun member => apart (sub member)⟩

/-- What an item becomes is told by the ops that are left on it. -/
theorem get?_resolved (keeps : KeepsOps edited before after) (object : before.defaults.isObject)
    (belowRoot : before.log.IsBelowRoot) (id : String) :
    after.resolved.get? id = Item.replay (after.log.opsOn id) (before.defaults.get? id) := by
  rw [← keeps.defaults]
  exact Draft.get?_resolved (keeps.defaults ▸ object) (keeps.belowRoot belowRoot) id

/-- An item whose ops are kept keeps its value. -/
theorem leavesOthers (keeps : KeepsOps edited before after) (object : before.defaults.isObject)
    (belowRoot : before.log.IsBelowRoot) : LeavesOthers edited before after where
  value other apart := by
    rw [keeps.get?_resolved object belowRoot, keeps.ops belowRoot other apart]
    exact (Draft.get?_resolved object belowRoot other).symm
  ops other apart := by
    rw [OpIndex.opsFor_ofLog, OpIndex.opsFor_ofLog]
    exact keeps.ops belowRoot other apart

end KeepsOps

variable {draft : Draft}

/-! ## Clearing and resetting -/

theorem keepsOps_clearField (draft : Draft) (id : String) (field : Path) :
    KeepsOps [id] draft (draft.clearField id field) where
  defaults := rfl
  belowRoot below := isBelowRoot_dropWithin below _
  ops below other apart := opsOn_dropWithin (by simpa using apart) field below

theorem keepsOps_resetItem (draft : Draft) (id : String) :
    KeepsOps [id] draft (draft.resetItem id) :=
  keepsOps_clearField draft id []

/-- After an item was reset no op touches it. -/
theorem opsOn_resetItem (belowRoot : draft.log.IsBelowRoot) (id : String) :
    (draft.resetItem id).log.opsOn id = [] := by
  refine List.filter_eq_nil_iff.mpr fun op member touched => ?_
  have below := (keepsOps_resetItem draft id).belowRoot belowRoot op member
  obtain ⟨segment, rest, path⟩ := List.exists_cons_of_ne_nil below
  refine IsTidy.not_isWithin_of_mem_resetItem op member (Path.isWithin_item_iff.mpr ?_)
  rw [path, ← (Op.touches_iff path id).mp touched]
  rfl

/-! ## Adding one op on an item -/

/-- An op on an item itself that comes last is the last op of that item and of no other. -/
theorem opsOn_concat (log : Log) {op : Op} {id : String} (path : op.path = Path.item id)
    (other : String) :
    Log.opsOn (log ++ [op]) other
      = if id = other then log.opsOn other ++ [op] else log.opsOn other := by
  rw [Log.opsOn_append]
  split
  · next same =>
      rw [Log.opsOn_cons_of_touches ((Op.touches_iff path other).mpr same)]
      rfl
  · next distinct =>
      rw [Log.opsOn_cons_of_not_touches (mt (Op.touches_iff path other).mp distinct)]
      exact List.append_nil _

theorem keepsOps_concat (draft : Draft) {op : Op} {id : String} (path : op.path = Path.item id)
    (supply : IdSupply) : KeepsOps [id] draft { draft with log := draft.log ++ [op], supply } where
  defaults := rfl
  belowRoot below := by
    refine List.forall_mem_append.mpr ⟨below, List.forall_mem_singleton.mpr ?_⟩
    rw [path]
    exact List.cons_ne_nil _ _
  ops below other apart := by
    rw [opsOn_concat _ path, if_neg]
    rintro rfl
    exact apart List.mem_cons_self

/-! ## Inserting -/

/-- A value that may be absent has the test for sameness as its comparison. -/
theorem any_same_iff {held : Option Json} {value : Json} :
    (held.any fun old => old.Same value) ↔ Json.SameAt held (some value) := by
  cases held <;> simp

/-- Inserting the default leaves no op on the item. -/
theorem insertItem_of_same {id : String} {value : Json}
    (same : Json.SameAt (draft.defaults.lookup? (Path.item id)) (some value)) :
    draft.insertItem id value = draft.resetItem id :=
  if_pos (any_same_iff.mpr same)

/-- Inserting anything else leaves one op, which sets the item. -/
theorem insertItem_of_different {id : String} {value : Json}
    (different : ¬ Json.SameAt (draft.defaults.lookup? (Path.item id)) (some value)) :
    draft.insertItem id value = (draft.resetItem id).appendSet (Path.item id) value :=
  if_neg (mt any_same_iff.mp different)

theorem keepsOps_insertItem (draft : Draft) (id : String) (value : Json) :
    KeepsOps [id] draft (draft.insertItem id value) := by
  have reset := keepsOps_resetItem draft id
  by_cases same : Json.SameAt (draft.defaults.lookup? (Path.item id)) (some value)
  · rw [insertItem_of_same same]
    exact reset
  · rw [insertItem_of_different same]
    exact (reset.trans (keepsOps_concat _ rfl _)).mono (by simp)

/-- An inserted item has the value that was inserted, or a default that is the same. -/
theorem get?_insertItem (object : draft.defaults.isObject) (belowRoot : draft.log.IsBelowRoot)
    (id : String) (value : Json) :
    (draft.insertItem id value).resolved.get? id
      = if Json.SameAt (draft.defaults.get? id) (some value) then draft.defaults.get? id
        else some value := by
  have keeps := keepsOps_insertItem draft id value
  rw [keeps.get?_resolved object belowRoot]
  have atItem := Json.lookup?_item object id
  split
  · next same =>
      rw [insertItem_of_same (atItem ▸ same), opsOn_resetItem belowRoot]
      rfl
  · next different =>
      rw [insertItem_of_different (atItem ▸ different), log_appendSet, opsOn_concat _ rfl,
        if_pos rfl, opsOn_resetItem belowRoot]
      rfl

/-! ## Removing -/

/-- Removing an item of the defaults leaves one op, which deletes the item. -/
theorem removeItem_of_defaulted {id : String}
    (defaulted : (draft.defaults.lookup? (Path.item id)).isSome) :
    draft.removeItem id = (draft.resetItem id).appendDelete (Path.item id) :=
  if_pos defaulted

/-- Removing an item that the defaults lack leaves no op on it. -/
theorem removeItem_of_undefaulted {id : String}
    (undefaulted : draft.defaults.lookup? (Path.item id) = none) :
    draft.removeItem id = draft.resetItem id :=
  if_neg (by simp [undefaulted])

theorem keepsOps_removeItem (draft : Draft) (id : String) :
    KeepsOps [id] draft (draft.removeItem id) := by
  have reset := keepsOps_resetItem draft id
  by_cases defaulted : (draft.defaults.lookup? (Path.item id)).isSome
  · rw [removeItem_of_defaulted defaulted]
    exact (reset.trans (keepsOps_concat _ rfl _)).mono (by simp)
  · rw [removeItem_of_undefaulted (by simpa using defaulted)]
    exact reset

/-- A removed item is absent. -/
theorem get?_removeItem (object : draft.defaults.isObject) (belowRoot : draft.log.IsBelowRoot)
    (id : String) : (draft.removeItem id).resolved.get? id = none := by
  have keeps := keepsOps_removeItem draft id
  rw [keeps.get?_resolved object belowRoot]
  have atItem := Json.lookup?_item object id
  by_cases defaulted : (draft.defaults.lookup? (Path.item id)).isSome
  · have log : (draft.removeItem id).log = (draft.resetItem id).log
        ++ [.delete (opIdOf (draft.resetItem id).supply.next) (Path.item id)] := by
      rw [removeItem_of_defaulted defaulted]
      rfl
    rw [log, opsOn_concat _ rfl, if_pos rfl, Item.replay_concat]
    rfl
  · have undefaulted : draft.defaults.lookup? (Path.item id) = none := by simpa using defaulted
    rw [removeItem_of_undefaulted undefaulted, opsOn_resetItem belowRoot, ← atItem, undefaulted]
    rfl

end Draft

end LayerRouting
