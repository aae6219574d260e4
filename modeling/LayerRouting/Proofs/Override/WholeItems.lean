import LayerRouting.Proofs.Override.ItemOps

/-!
# Edits of whole items

Giving an item another id moves its ops, or removes the item and inserts its value under the other
id. `Draft.editsWholeItems` says what this and the other intents on whole items leave, for all
defaults that are an object and all logs without ops on the root.
-/

namespace LayerRouting

namespace Draft

/-! ## Ops under another id -/

theorem withItem_of_not_touches {op : Op} {id : String} (apart : ¬ op.touches id)
    (newId : String) : withItem id newId op = op := by
  refine if_neg fun own => apart ?_
  simp [Op.touches, own]

/-- An op of an item comes under the other id, and keeps the rest of its path. -/
theorem path_withItem {op : Op} {segment : Segment} {rest : Path}
    (path : op.path = segment :: rest) (newId : String) :
    (withItem segment.asKey newId op).path = .key newId :: rest := by
  have own : op.path.firstKey? = some segment.asKey := by simp [path, Path.firstKey?]
  rw [withItem, if_pos own, path]
  cases op <;> rfl

theorem isDelete_withItem (id newId : String) (op : Op) :
    (withItem id newId op).isDelete = op.isDelete := by
  rw [withItem]
  split
  · cases op <;> rfl
  · rfl

/-- An op that is moved touches the item with the other id, and no item besides. -/
theorem touches_withItem {op : Op} (below : op.path ≠ []) (id newId other : String) :
    (withItem id newId op).touches other
      ↔ if op.touches id then newId = other else op.touches other := by
  obtain ⟨segment, rest, path⟩ := List.exists_cons_of_ne_nil below
  by_cases own : op.touches id
  · rw [if_pos own]
    obtain rfl := (Op.touches_iff path id).mp own
    exact Op.touches_iff (path_withItem path newId) other
  · rw [if_neg own, withItem_of_not_touches own]

/-- An op does under the other id what it did. -/
theorem afterOp_withItem (id newId : String) (op : Op) (value : Option Json) :
    Item.afterOp (withItem id newId op) value = Item.afterOp op value := by
  rw [withItem]
  split
  · next own =>
      obtain ⟨segment, rest, path⟩ : ∃ segment rest, op.path = segment :: rest := by
        cases path : op.path with
        | nil => simp [path, Path.firstKey?] at own
        | cons segment rest => exact ⟨segment, rest, rfl⟩
      cases op with
      | set opId setPath installed =>
          obtain rfl : setPath = segment :: rest := path
          exact (Item.afterOp_set _ _ rest _ _).trans (Item.afterOp_set _ _ rest _ _).symm
      | delete opId deletePath =>
          obtain rfl : deletePath = segment :: rest := path
          exact (Item.afterOp_delete _ _ rest _).trans (Item.afterOp_delete _ _ rest _).symm
  · rfl

theorem replay_map_withItem (id newId : String) (ops : Log) (value : Option Json) :
    Item.replay (ops.map (withItem id newId)) value = Item.replay ops value := by
  simp only [Item.replay, List.foldl_map, afterOp_withItem]

section Moved

variable {log : Log} {id newId : String}

theorem isBelowRoot_map_withItem (belowRoot : log.IsBelowRoot) :
    Log.IsBelowRoot (log.map (withItem id newId)) := by
  refine List.forall_mem_map.mpr fun op member => ?_
  by_cases own : op.touches id
  · obtain ⟨segment, rest, path⟩ := List.exists_cons_of_ne_nil (belowRoot op member)
    obtain rfl := (Op.touches_iff path id).mp own
    rw [path_withItem path]
    exact List.cons_ne_nil _ _
  · rw [withItem_of_not_touches own]
    exact belowRoot op member

/-- The item with the other id gets the ops that are moved, if no op touched it. -/
theorem opsOn_map_withItem_new (belowRoot : log.IsBelowRoot)
    (free : ∀ op ∈ log, ¬ op.touches newId) :
    Log.opsOn (log.map (withItem id newId)) newId = (log.opsOn id).map (withItem id newId) := by
  rw [Log.opsOn, List.filter_map]
  refine congrArg (List.map _) (List.filter_congr fun op member => Bool.eq_iff_iff.mpr ?_)
  rw [Function.comp_apply, touches_withItem (belowRoot op member)]
  simp [free op member]

/-- The item with the old id has no ops left. -/
theorem opsOn_map_withItem_old (belowRoot : log.IsBelowRoot) (distinct : id ≠ newId) :
    Log.opsOn (log.map (withItem id newId)) id = [] := by
  refine List.filter_eq_nil_iff.mpr (List.forall_mem_map.mpr fun op member => ?_)
  rw [touches_withItem (belowRoot op member)]
  split
  · exact distinct.symm
  · assumption

/-- Items with neither id keep their ops. -/
theorem opsOn_map_withItem_other (belowRoot : log.IsBelowRoot) {other : String}
    (notOld : other ≠ id) (notNew : other ≠ newId) :
    Log.opsOn (log.map (withItem id newId)) other = log.opsOn other := by
  have apart : ∀ op ∈ log, op.touches other -> ¬ op.touches id := by
    intro op member touched
    obtain ⟨segment, rest, path⟩ := List.exists_cons_of_ne_nil (belowRoot op member)
    rw [Op.touches_iff path] at touched ⊢
    exact touched ▸ notOld
  have same : ∀ op ∈ log, (withItem id newId op).touches other = op.touches other := by
    intro op member
    rw [Bool.eq_iff_iff, touches_withItem (belowRoot op member)]
    split
    · next own =>
        exact ⟨fun new => absurd new.symm notNew, fun old => absurd own (apart op member old)⟩
    · rfl
  have still : ∀ op ∈ log.opsOn other, withItem id newId op = op := by
    intro op member
    obtain ⟨listed, touched⟩ := List.mem_filter.mp member
    exact withItem_of_not_touches (apart op listed touched) newId
  calc Log.opsOn (log.map (withItem id newId)) other
      = (log.filter ((fun op => op.touches other) ∘ withItem id newId)).map (withItem id newId) :=
        List.filter_map
    _ = (log.opsOn other).map (withItem id newId) :=
        congrArg (List.map _) (List.filter_congr same)
    _ = log.opsOn other := (List.map_congr_left still).trans (List.map_id _)

end Moved

variable {draft : Draft}

/-! ## Giving an item another id -/

/-- The item that a draft reports, when it is live. -/
theorem item?_of_live (object : draft.defaults.isObject) (belowRoot : draft.log.IsBelowRoot)
    {id : String} {value : Json} (live : draft.resolved.get? id = some value) :
    Document.item? ⟨draft.defaults, draft.log⟩ id
      = some { id, computed := some value, defaultValue := draft.defaults.get? id,
               ops := (OpIndex.ofLog draft.log).opsFor id } := by
  have resolvedObject := Log.isObject_resolve belowRoot object
  change (draft.log.resolve draft.defaults).get? id = some value at live
  rw [Document.item?, Item.single?_of_belowRoot object belowRoot,
    Item.report?_of_isObject object resolvedObject, if_pos (.inr (by simp [live])), live]

/-- The draft in which the ops of an item are those of another id, whose own ops are dropped. -/
def moveOps (draft : Draft) (id newId : String) : Draft :=
  { draft.resetItem newId with log := (draft.resetItem newId).log.map (withItem id newId) }

section Rename

variable {id newId : String} {value : Json}

/-- An item that is absent is given no other id. -/
theorem renameItem_of_absent (object : draft.defaults.isObject)
    (belowRoot : draft.log.IsBelowRoot) (absent : draft.resolved.get? id = none) :
    draft.renameItem id newId = draft := by
  have resolvedObject := Log.isObject_resolve belowRoot object
  change (draft.log.resolve draft.defaults).get? id = none at absent
  have reported : ∀ item, Document.item? ⟨draft.defaults, draft.log⟩ id = some item ->
      item.computed = none := by
    intro item found
    rw [Document.item?, Item.single?_of_belowRoot object belowRoot,
      Item.report?_of_isObject object resolvedObject, absent] at found
    split at found <;> cases found
    rfl
  rw [renameItem]
  split
  · rfl
  · split
    · next found => cases reported _ found
    · rfl

/-- The ops of an inserted item are moved. -/
theorem renameItem_of_inserted (object : draft.defaults.isObject)
    (belowRoot : draft.log.IsBelowRoot) (distinct : id ≠ newId)
    (live : draft.resolved.get? id = some value) (inserted : draft.defaults.get? id = none) :
    draft.renameItem id newId = draft.moveOps id newId := by
  rw [renameItem, if_neg distinct, item?_of_live object belowRoot live]
  simp only [inserted, Option.isNone_none, if_true]
  rfl

/-- An item of the defaults is removed, and its value is inserted. -/
theorem renameItem_of_defaulted (object : draft.defaults.isObject)
    (belowRoot : draft.log.IsBelowRoot) (distinct : id ≠ newId)
    (live : draft.resolved.get? id = some value) (defaulted : (draft.defaults.get? id).isSome) :
    draft.renameItem id newId = ((draft.resetItem newId).removeItem id).insertItem newId value := by
  obtain ⟨default, held⟩ := Option.isSome_iff_exists.mp defaulted
  rw [renameItem, if_neg distinct, item?_of_live object belowRoot live]
  simp only [held, Option.isNone_some, Bool.false_eq_true, if_false]

theorem keepsOps_moveOps (draft : Draft) (id newId : String) :
    KeepsOps [id, newId] draft (draft.moveOps id newId) where
  defaults := rfl
  belowRoot below := isBelowRoot_map_withItem ((keepsOps_resetItem draft newId).belowRoot below)
  ops below other apart := by
    have reset := keepsOps_resetItem draft newId
    simp only [List.mem_cons, List.not_mem_nil, or_false, not_or] at apart
    refine (opsOn_map_withItem_other (reset.belowRoot below) apart.1 apart.2).trans ?_
    exact reset.ops below other (by simpa using apart.2)

/-- After ops were moved, the item with the new id has those of the old one. -/
theorem opsOn_moveOps_new (belowRoot : draft.log.IsBelowRoot) (distinct : id ≠ newId) :
    (draft.moveOps id newId).log.opsOn newId = (draft.log.opsOn id).map (withItem id newId) := by
  have reset := keepsOps_resetItem draft newId
  have free := List.filter_eq_nil_iff.mp (opsOn_resetItem belowRoot newId)
  refine (opsOn_map_withItem_new (reset.belowRoot belowRoot) free).trans ?_
  rw [reset.ops belowRoot id (by simpa using distinct)]

/-- What the item with the new id becomes: the moved ops are replayed on the default that it has
itself. -/
theorem get?_moveOps_new (object : draft.defaults.isObject) (belowRoot : draft.log.IsBelowRoot)
    (distinct : id ≠ newId) :
    (draft.moveOps id newId).resolved.get? newId
      = Item.replay (draft.log.opsOn id) (draft.defaults.get? newId) := by
  have keeps := keepsOps_moveOps draft id newId
  rw [keeps.get?_resolved object belowRoot, opsOn_moveOps_new belowRoot distinct,
    replay_map_withItem]

theorem get?_moveOps_old (object : draft.defaults.isObject) (belowRoot : draft.log.IsBelowRoot)
    (distinct : id ≠ newId) (inserted : draft.defaults.get? id = none) :
    (draft.moveOps id newId).resolved.get? id = none := by
  have keeps := keepsOps_moveOps draft id newId
  have none := opsOn_map_withItem_old ((keepsOps_resetItem draft newId).belowRoot belowRoot)
    distinct
  rw [keeps.get?_resolved object belowRoot]
  exact (congrArg (Item.replay · _) none).trans inserted

/-- Giving an item another id concerns the items with the two ids only. -/
theorem keepsOps_renameItem (object : draft.defaults.isObject) (belowRoot : draft.log.IsBelowRoot)
    (distinct : id ≠ newId) : KeepsOps [id, newId] draft (draft.renameItem id newId) := by
  cases live : draft.resolved.get? id with
  | none =>
      rw [renameItem_of_absent object belowRoot live]
      exact .refl _ draft
  | some value =>
      by_cases defaulted : (draft.defaults.get? id).isSome
      · rw [renameItem_of_defaulted object belowRoot distinct live defaulted]
        have replaced := ((keepsOps_resetItem draft newId).trans
          (keepsOps_removeItem _ id)).trans (keepsOps_insertItem _ newId value)
        exact replaced.mono (by simp)
      · rw [renameItem_of_inserted object belowRoot distinct live (by simpa using defaulted)]
        exact keepsOps_moveOps draft id newId

/-- An item that was given another id is absent under the old one. -/
theorem get?_renameItem_old (object : draft.defaults.isObject) (belowRoot : draft.log.IsBelowRoot)
    (distinct : id ≠ newId) (live : draft.resolved.get? id = some value) :
    (draft.renameItem id newId).resolved.get? id = none := by
  by_cases defaulted : (draft.defaults.get? id).isSome
  · have cleared := (keepsOps_resetItem draft newId).belowRoot belowRoot
    have clearedObject : (draft.resetItem newId).defaults.isObject := object
    have removed := keepsOps_removeItem (draft.resetItem newId) id
    have inserted := (keepsOps_insertItem ((draft.resetItem newId).removeItem id) newId
      value).leavesOthers (removed.defaults ▸ object) (removed.belowRoot cleared)
    rw [renameItem_of_defaulted object belowRoot distinct live defaulted,
      inserted.value id (by simpa using distinct)]
    exact get?_removeItem clearedObject cleared id
  · have inserted : draft.defaults.get? id = none := by simpa using defaulted
    rw [renameItem_of_inserted object belowRoot distinct live inserted]
    exact get?_moveOps_old object belowRoot distinct inserted

/-- An item of the defaults shows its value under the new id, or the default there if that is the
same. -/
theorem get?_renameItem_of_defaulted (object : draft.defaults.isObject)
    (belowRoot : draft.log.IsBelowRoot) (distinct : id ≠ newId)
    (live : draft.resolved.get? id = some value) (defaulted : (draft.defaults.get? id).isSome) :
    (draft.renameItem id newId).resolved.get? newId
      = if Json.SameAt (draft.defaults.get? newId) (some value) then draft.defaults.get? newId
        else some value := by
  have cleared := (keepsOps_resetItem draft newId).belowRoot belowRoot
  have removed := keepsOps_removeItem (draft.resetItem newId) id
  rw [renameItem_of_defaulted object belowRoot distinct live defaulted,
    get?_insertItem (removed.defaults ▸ object) (removed.belowRoot cleared), removed.defaults]
  rfl

/-- Under the new id of an inserted item its ops are replayed on the default that is there. -/
theorem get?_renameItem_of_inserted (object : draft.defaults.isObject)
    (belowRoot : draft.log.IsBelowRoot) (distinct : id ≠ newId)
    (live : draft.resolved.get? id = some value) (inserted : draft.defaults.get? id = none) :
    (draft.renameItem id newId).resolved.get? newId
      = Item.replay (draft.log.opsOn id) (draft.defaults.get? newId) := by
  rw [renameItem_of_inserted object belowRoot distinct live inserted]
  exact get?_moveOps_new object belowRoot distinct

end Rename

/-! ## The intents on whole items -/

/-- What the intents on whole items promise of a draft. -/
structure EditsWholeItems (draft : Draft) : Prop where
  /-- An inserted item has the value. -/
  insert : ∀ id value,
    Json.SameAt ((draft.perform (.insert id value)).resolved.get? id) (some value)
      ∧ LeavesOthers [id] draft (draft.perform (.insert id value))
  /-- A removed item is absent. -/
  remove : ∀ id, (draft.perform (.remove id)).resolved.get? id = none
    ∧ LeavesOthers [id] draft (draft.perform (.remove id))
  /-- An item that was reset is its default, and no op touches it. -/
  reset : ∀ id, (draft.perform (.reset id)).resolved.get? id = draft.defaults.get? id
    ∧ (OpIndex.ofLog (draft.perform (.reset id)).log).isTouched id = false
    ∧ LeavesOthers [id] draft (draft.perform (.reset id))
  /-- A live item shows its value under an id that the defaults lack, and is absent under its old
  id. -/
  rename : ∀ id newId value, id ≠ newId -> draft.resolved.get? id = some value ->
    draft.defaults.get? newId = none ->
    (draft.perform (.rename id newId)).resolved.get? newId = some value
      ∧ (draft.perform (.rename id newId)).resolved.get? id = none
      ∧ LeavesOthers [id, newId] draft (draft.perform (.rename id newId))
  /-- An absent or deleted item is given no other id. -/
  renameAbsent : ∀ id newId, draft.resolved.get? id = none ->
    (draft.perform (.rename id newId)).log = draft.log

/-- The intents on whole items keep their promises whenever the defaults are an object and no op is
on the root. -/
theorem editsWholeItems (draft : Draft) (object : draft.defaults.isObject)
    (belowRoot : draft.log.IsBelowRoot) : draft.EditsWholeItems where
  insert id value := by
    refine ⟨?_, (keepsOps_insertItem draft id value).leavesOthers object belowRoot⟩
    rw [perform, get?_insertItem object belowRoot]
    split
    · assumption
    · rfl
  remove id :=
    ⟨get?_removeItem object belowRoot id,
      (keepsOps_removeItem draft id).leavesOthers object belowRoot⟩
  reset id := by
    have keeps := keepsOps_resetItem draft id
    have none := opsOn_resetItem belowRoot id
    refine ⟨?_, ?_, keeps.leavesOthers object belowRoot⟩
    · rw [perform, keeps.get?_resolved object belowRoot, none]
      rfl
    · rw [perform, Bool.eq_false_iff, ne_eq, OpIndex.isTouched_ofLog_iff]
      rintro ⟨op, member, touched⟩
      exact List.filter_eq_nil_iff.mp none op member touched
  rename id newId value distinct live free := by
    refine ⟨?_, get?_renameItem_old object belowRoot distinct live,
      (keepsOps_renameItem object belowRoot distinct).leavesOthers object belowRoot⟩
    rw [perform]
    by_cases defaulted : (draft.defaults.get? id).isSome
    · rw [get?_renameItem_of_defaulted object belowRoot distinct live defaulted, free]
      exact if_neg Json.SameAt.none_some
    · have inserted : draft.defaults.get? id = none := by simpa using defaulted
      rw [get?_renameItem_of_inserted object belowRoot distinct live inserted, free, ← inserted,
        ← get?_resolved object belowRoot, live]
  renameAbsent id newId absent := by
    rw [perform, renameItem_of_absent object belowRoot absent]

/-- A draft with an item of the defaults that is edited, one that is deleted and one that the log
made by two ops. -/
def ofEdits : Draft where
  defaults := .object [("left", .object [("name", .string "Left")]),
    ("right", .object [("name", .string "Right")])]
  log := [.set "o1" [.key "new", .key "name"] (.string "New"), .delete "o2" [.key "right"],
    .set "o3" [.key "left", .key "active"] (.bool true),
    .set "o4" [.key "new", .key "active"] (.bool true)]
  supply := ⟨0⟩

/-- The item that the log made takes its value along to a free id, and the edited one goes on as it
was. -/
theorem editsWholeItems_ofEdits :
    (ofEdits.perform (.rename "new" "fresh")).resolved.get? "fresh"
        = some (.object [("name", .string "New"), ("active", .bool true)])
      ∧ (ofEdits.perform (.rename "new" "fresh")).resolved.get? "left"
        = ofEdits.resolved.get? "left"
      ∧ (ofEdits.perform (.rename "right" "fresh")).log = ofEdits.log := by
  have edits := editsWholeItems ofEdits (by decide) (by decide)
  obtain ⟨taken, -, others⟩ := edits.rename "new" "fresh" _ (by decide)
    (show _ = some (.object [("name", .string "New"), ("active", .bool true)]) by decide)
    (by decide)
  exact ⟨taken, others.value "left" (by decide), edits.renameAbsent "right" "fresh" (by decide)⟩

end Draft

end LayerRouting
