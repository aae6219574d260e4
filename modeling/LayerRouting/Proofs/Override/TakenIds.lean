import LayerRouting.Proofs.Override.WholeItems

/-!
# Ids that are taken

An item can be given an id that the defaults define. An item of the defaults then shows its value
there, but the ops of an inserted item are replayed on the default of the new id: the item keeps its
value if one of them is on the item as a whole, and otherwise all that it never had an op for shows
what that default has (`Draft.takesOver`).
-/

namespace LayerRouting

open Segment (IsName)

namespace Item

/-- An op on the item as a whole leaves the same whatever it finds. -/
theorem afterOp_of_whole {op : Op} (whole : op.path.length = 1) (first second : Option Json) :
    afterOp op first = afterOp op second := by
  obtain ⟨segment, path⟩ := List.length_eq_one_iff.mp whole
  cases op with
  | set id setPath installed =>
      obtain rfl : setPath = [segment] := path
      rfl
  | delete id deletePath =>
      obtain rfl : deletePath = [segment] := path
      rfl

/-- What was there before an op on the item as a whole does not matter. -/
theorem replay_of_whole {ops : Log} (whole : ∃ op ∈ ops, op.path.length = 1)
    (first second : Option Json) : replay ops first = replay ops second := by
  obtain ⟨op, member, length⟩ := whole
  obtain ⟨before, after, rfl⟩ := List.append_of_mem member
  simp only [replay, List.foldl_append, List.foldl_cons]
  rw [afterOp_of_whole length]

/-- A name that no op concerns keeps what it had. -/
theorem field?_replay {ops : Log} {field : String} (named : IsName field)
    (below : ∀ op ∈ ops, op.path ≠ [])
    (apart : ∀ op ∈ ops, ∀ value, op.fieldAfter field value = value) (value : Option Json) :
    ((replay ops value).bind fun item => item.get? field)
      = value.bind fun item => item.get? field := by
  induction ops generalizing value with
  | nil => rfl
  | cons op rest inductionHypothesis =>
      obtain ⟨opBelow, restBelow⟩ := List.forall_mem_cons.mp below
      obtain ⟨opApart, restApart⟩ := List.forall_mem_cons.mp apart
      refine (inductionHypothesis restBelow restApart (afterOp op value)).trans ?_
      rw [Op.get?_afterOp opBelow named, opApart]

end Item

namespace Draft

/-- What becomes of two items when the first, which has a value, is given the id of the second. -/
structure TakesOver (draft : Draft) (id newId : String) (value : Json) : Prop where
  /-- The first item is absent under its old id. -/
  absent : (draft.renameItem id newId).resolved.get? id = none
  /-- An item of the defaults has its value under the new id. -/
  defaulted : (draft.defaults.get? id).isSome ->
    Json.SameAt ((draft.renameItem id newId).resolved.get? newId) (some value)
  /-- The ops of an inserted item are replayed on the default that the new id has. -/
  inserted : draft.defaults.get? id = none ->
    (draft.renameItem id newId).resolved.get? newId
      = Item.replay (draft.log.opsOn id) (draft.defaults.get? newId)
  /-- So the item has its value under the new id if an op of it is on the item as a whole. -/
  whole : (∃ op ∈ draft.log.opsOn id, op.path.length = 1) ->
    Json.SameAt ((draft.renameItem id newId).resolved.get? newId) (some value)
  /-- Under a name that no op of an inserted item concerns, the new id shows what its default has
  there, though the item had nothing. -/
  shows : draft.defaults.get? id = none -> ∀ field, IsName field ->
    (∀ op ∈ draft.log.opsOn id, ¬ op.affects [.key id, .key field]) ->
    (draft.renameItem id newId).resolved.field? newId field = draft.defaults.field? newId field
      ∧ value.get? field = none
  /-- All other items stay as they are. -/
  others : LeavesOthers [id, newId] draft (draft.renameItem id newId)

/-- A live item takes over another id in this way, whether the defaults define that id or not. -/
theorem takesOver (draft : Draft) (object : draft.defaults.isObject)
    (belowRoot : draft.log.IsBelowRoot) {id newId : String} (distinct : id ≠ newId) {value : Json}
    (live : draft.resolved.get? id = some value) : draft.TakesOver id newId value := by
  have replayed := get?_resolved object belowRoot id
  have defaulted : (draft.defaults.get? id).isSome ->
      Json.SameAt ((draft.renameItem id newId).resolved.get? newId) (some value) := by
    intro held
    rw [get?_renameItem_of_defaulted object belowRoot distinct live held]
    split
    · assumption
    · rfl
  have inserted : draft.defaults.get? id = none ->
      (draft.renameItem id newId).resolved.get? newId
        = Item.replay (draft.log.opsOn id) (draft.defaults.get? newId) :=
    get?_renameItem_of_inserted object belowRoot distinct live
  refine ⟨get?_renameItem_old object belowRoot distinct live, defaulted, inserted, ?_, ?_,
    (keepsOps_renameItem object belowRoot distinct).leavesOthers object belowRoot⟩
  · intro whole
    by_cases held : (draft.defaults.get? id).isSome
    · exact defaulted held
    · rw [inserted (by simpa using held), Item.replay_of_whole whole _ (draft.defaults.get? id),
        ← replayed, live]
  · intro lacking field named apart
    have below : ∀ op ∈ draft.log.opsOn id, op.path ≠ [] := fun op member =>
      belowRoot op (List.mem_of_mem_filter member)
    have unconcerned : ∀ op ∈ draft.log.opsOn id, ∀ value, op.fieldAfter field value = value := by
      intro op member
      obtain ⟨segment, rest, path⟩ := List.exists_cons_of_ne_nil (below op member)
      have own := (Op.touches_iff path id).mp (List.mem_filter.mp member).2
      exact Op.fieldAfter_of_apart path (own ▸ apart op member)
    constructor
    · rw [Json.field?, inserted lacking, Item.field?_replay named below unconcerned]
      rfl
    · have old := Item.field?_replay named below unconcerned (draft.defaults.get? id)
      rwa [← replayed, live, lacking] at old

/-- A draft whose log makes an item by an op on one of its fields. -/
def ofField : Draft where
  defaults := .object [("left", .object [("name", .string "Left")])]
  log := [.set "o1" [.key "new", .key "active"] (.bool true)]
  supply := ⟨0⟩

/-- Under the id of a defaulted item it has that item's name, which it never had itself. -/
theorem takesOver_ofField :
    ofField.resolved.get? "new" = some (.object [("active", .bool true)])
      ∧ (ofField.renameItem "new" "left").resolved.get? "new" = none
      ∧ (ofField.renameItem "new" "left").resolved.field? "left" "name"
        = some (.string "Left") := by
  have live : ofField.resolved.get? "new" = some (.object [("active", .bool true)]) := by decide
  have named : IsName "name" := Segment.isName_of_head rfl (by decide) (by decide)
  have takes := takesOver ofField (by decide) (by decide) (by decide : "new" ≠ "left") live
  refine ⟨live, takes.absent, ?_⟩
  rw [(takes.shows (by decide) "name" named (by decide)).1]
  decide

end Draft

end LayerRouting
