import LayerRouting.Proofs.Override.Items
import LayerRouting.Proofs.Override.Makers

/-!
# The order of keys

The keys of a resolved collection stand in the order in which the log made the items: an op that
makes an item puts its key at the end, and no op moves a key (`Op.keys_apply`). When the ops on a
field of an item are left out, the keys of the other items keep their order
(`Json.SameKeysOff.resolve_dropWithin`). So does that of the item, unless one of those ops made it
(`Json.SameKeysOff.keys_resolve_dropWithin`).
-/

namespace LayerRouting

namespace Item

/-! ## Ids after an op -/

/-- The ids of a collection when an item is there or not: a new id comes last. -/
def placeId (ids : List String) (id : String) (present : Bool) : List String :=
  if present then addId ids id else ids.filter (· ≠ id)

/-- Placing an id leaves the other ids where they are. -/
theorem filter_placeId_self (ids : List String) (id : String) (present : Bool) :
    (placeId ids id present).filter (· ≠ id) = ids.filter (· ≠ id) := by
  cases present with
  | false => simp [placeId]
  | true =>
      simp only [placeId, if_true, addId]
      split <;> simp

/-- Placing an id does not depend on the places of others. -/
theorem filter_placeId_of_ne {id other : String} (distinct : other ≠ id) (ids : List String)
    (present : Bool) :
    (placeId ids other present).filter (· ≠ id) = placeId (ids.filter (· ≠ id)) other present := by
  cases present with
  | false => simp [placeId, Bool.and_comm]
  | true =>
      have member : other ∈ ids.filter (· ≠ id) ↔ other ∈ ids := by simp [distinct]
      simp only [placeId, if_true, addId, member]
      split <;> simp [distinct]

/-- Leaving out an id that is not there changes nothing. -/
theorem filter_ne_of_not_mem {ids : List String} {id : String} (absent : id ∉ ids) :
    ids.filter (· ≠ id) = ids := by
  refine List.filter_eq_self.mpr fun other member => ?_
  have distinct : other ≠ id := fun same => absent (same ▸ member)
  simpa using distinct

/-- An id that is there stays where it is, and one that is not there stays away. -/
theorem placeId_of_iff {ids : List String} {id : String} {present : Bool}
    (same : present ↔ id ∈ ids) : placeId ids id present = ids := by
  cases present with
  | false => exact filter_ne_of_not_mem fun member => Bool.false_ne_true (same.mpr member)
  | true => exact if_pos (same.mp rfl)

end Item

namespace Json

/-! ## Keys after a change -/

/-- Setting a member of an object adds its key at the end if it is new. -/
theorem keys_setChild {tree : Json} (object : tree.isObject) (segment : Segment) (value : Json) :
    (tree.setChild segment value).keys = Item.addId tree.keys segment.asKey := by
  obtain ⟨entries, rfl⟩ := isObject_iff.mp object
  exact Entries.keys_insert segment.asKey value entries

/-- Setting below the root of an object adds a key at the end if it is new. -/
theorem keys_setAt {tree : Json} (object : tree.isObject) (segment : Segment) (rest : Path)
    (value : Json) :
    (tree.setAt (segment :: rest) value).keys = Item.addId tree.keys segment.asKey := by
  rw [setAt_cons, containerFor_of_isObject object, keys_setChild object]

/-- Deleting a member of an object removes its key, and deleting below it removes none. -/
theorem keys_deleteAt? {tree : Json} (object : tree.isObject) (segment : Segment) (rest : Path) :
    ((tree.deleteAt? (segment :: rest)).getD tree).keys
      = if rest = [] then tree.keys.filter (· ≠ segment.asKey) else tree.keys := by
  obtain ⟨entries, rfl⟩ := isObject_iff.mp object
  split
  · next last =>
      subst last
      rw [deleteAt?, removeChild?]
      split
      · simp only [Option.getD_some, keys, Entries.keys, Entries.erase, List.filter_map]
        rfl
      · next absent =>
          rw [Entries.get?_isSome_iff] at absent
          exact (Item.filter_ne_of_not_mem absent).symm
  · next further =>
      rw [deleteAt?_cons _ _ further]
      cases here : (Json.object entries).child? segment with
      | none => rfl
      | some inner =>
          cases left : inner.deleteAt? rest with
          | none => simp [left]
          | some changed =>
              have known : segment.asKey ∈ (Json.object entries).keys :=
                mem_keys_iff.mpr (Option.isSome_of_mem here)
              simp only [left, Option.bind_some, Option.map_some, Option.getD_some]
              rw [keys_setChild object, Item.addId, if_pos known]

end Json

namespace Op

variable {op : Op}

/-- An op below the root touches an item. -/
theorem exists_touches (below : op.path ≠ []) : ∃ id, op.touches id := by
  obtain ⟨segment, rest, path⟩ := List.exists_cons_of_ne_nil below
  exact ⟨segment.asKey, (touches_iff path _).mpr rfl⟩

/-- An op on a field of an item or below it touches the item, and leaves it if it is there. -/
theorem touches_of_isWithin_field {id : String} {field : Path} (further : field ≠ [])
    (within : op.path.isWithin (Path.item id ++ field)) :
    op.path ≠ [] ∧ op.touches id ∧ ∀ value, value.isSome -> (Item.afterOp op value).isSome := by
  cases path : op.path with
  | nil => simp [path, Path.isWithin_iff, Path.keys, Path.item] at within
  | cons segment rest =>
      rw [path] at within
      obtain ⟨own, inner⟩ := Path.isWithin_cons_cons.mp within
      have deeper : rest ≠ [] := by
        rintro rfl
        simp [Path.isWithin_iff, Path.keys, further] at inner
      refine ⟨List.cons_ne_nil segment rest, (touches_iff path id).mpr own.symm, ?_⟩
      exact fun value present => (Item.isSome_afterOp path value).mpr (.inr ⟨deeper, present⟩)

/-- The keys of an object after an op below the root. -/
theorem keys_apply (below : op.path ≠ []) {tree : Json} (object : tree.isObject)
    {id : String} (touched : op.touches id) :
    (op.apply tree).keys
      = Item.placeId tree.keys id (Item.afterOp op (tree.get? id)).isSome := by
  obtain ⟨segment, rest, path⟩ := List.exists_cons_of_ne_nil below
  obtain rfl := (touches_iff path id).mp touched
  cases op with
  | set id setPath value =>
      obtain rfl : setPath = segment :: rest := path
      rw [apply, Json.keys_setAt object, Item.afterOp_set, Item.placeId, Option.isSome_some,
        if_pos rfl]
  | delete id deletePath =>
      obtain rfl : deletePath = segment :: rest := path
      rw [apply, Json.keys_deleteAt? object, Item.afterOp_delete]
      split
      · rfl
      · rw [Option.isSome_map]
        exact (Item.placeId_of_iff Json.mem_keys_iff.symm).symm

end Op

/-! ## Leaving out the ops on a field -/

namespace Json

/-- Whether two collections have the same keys in one order, apart from that of one item, which
the right one has only if the left one has it. -/
structure SameKeysOff (id : String) (left right : Json) : Prop where
  leftObject : left.isObject
  rightObject : right.isObject
  others : left.keys.filter (· ≠ id) = right.keys.filter (· ≠ id)
  present : (right.get? id).isSome -> (left.get? id).isSome

/-- Ops make the same keys of the same keys. -/
theorem keys_apply_congr {op : Op} (below : op.path ≠ []) {left right : Json}
    (leftObject : left.isObject) (rightObject : right.isObject) (same : left.keys = right.keys) :
    (op.apply left).keys = (op.apply right).keys := by
  obtain ⟨id, touched⟩ := Op.exists_touches below
  have present : (left.get? id).isSome ↔ (right.get? id).isSome := by
    rw [← mem_keys_iff, ← mem_keys_iff, same]
  rw [Op.keys_apply below leftObject touched, Op.keys_apply below rightObject touched, same,
    Item.isSome_afterOp_congr below present]

/-- A log makes the same keys of the same keys. -/
theorem keys_resolve_congr {log : Log} (belowRoot : log.IsBelowRoot) {left right : Json}
    (leftObject : left.isObject) (rightObject : right.isObject) (same : left.keys = right.keys) :
    (log.resolve left).keys = (log.resolve right).keys := by
  induction log generalizing left right with
  | nil => exact same
  | cons op rest inductionHypothesis =>
      obtain ⟨below, later⟩ := List.forall_mem_cons.mp belowRoot
      exact inductionHypothesis later (Op.isObject_apply below leftObject)
        (Op.isObject_apply below rightObject) (keys_apply_congr below leftObject rightObject same)

namespace SameKeysOff

variable {id : String} {left right : Json}

theorem refl (id : String) {tree : Json} (object : tree.isObject) : SameKeysOff id tree tree :=
  ⟨object, object, rfl, fun present => present⟩

/-- The other items are there on both sides or on none. -/
theorem isSome_iff (same : SameKeysOff id left right) {other : String} (distinct : other ≠ id) :
    (left.get? other).isSome ↔ (right.get? other).isSome := by
  have member : ∀ tree : Json, other ∈ tree.keys.filter (· ≠ id) ↔ (tree.get? other).isSome := by
    intro tree
    simp [distinct, mem_keys_iff]
  rw [← member left, ← member right, same.others]

/-- An op below the root that applies to both sides keeps their keys the same. -/
theorem apply (same : SameKeysOff id left right) {op : Op} (below : op.path ≠ []) :
    SameKeysOff id (op.apply left) (op.apply right) where
  leftObject := Op.isObject_apply below same.leftObject
  rightObject := Op.isObject_apply below same.rightObject
  others := by
    obtain ⟨key, touched⟩ := Op.exists_touches below
    rw [Op.keys_apply below same.leftObject touched, Op.keys_apply below same.rightObject touched]
    by_cases own : key = id
    · rw [own, Item.filter_placeId_self, Item.filter_placeId_self, same.others]
    · rw [Item.filter_placeId_of_ne own, Item.filter_placeId_of_ne own, same.others,
        Item.isSome_afterOp_congr below (same.isSome_iff own)]
  present := by
    rw [Op.get?_apply_of_isObject below same.leftObject,
      Op.get?_apply_of_isObject below same.rightObject]
    split
    · exact Item.isSome_afterOp_mono below same.present
    · exact same.present

/-- An op on a field of the item or below it makes no other key, and removes none. -/
theorem apply_left (same : SameKeysOff id left right) {op : Op} {field : Path}
    (further : field ≠ []) (within : op.path.isWithin (Path.item id ++ field)) :
    SameKeysOff id (op.apply left) right := by
  obtain ⟨below, touched, leaves⟩ := Op.touches_of_isWithin_field further within
  constructor
  · exact Op.isObject_apply below same.leftObject
  · exact same.rightObject
  · rw [Op.keys_apply below same.leftObject touched, Item.filter_placeId_self, same.others]
  · intro present
    rw [Op.get?_apply_of_isObject below same.leftObject, if_pos touched]
    exact leaves _ (same.present present)

/-- Without the ops on a field and below it a log makes the same keys apart from the item's. -/
theorem resolve_dropWithin (same : SameKeysOff id left right) {field : Path}
    (further : field ≠ []) {log : Log} (belowRoot : log.IsBelowRoot) :
    SameKeysOff id (log.resolve left)
      (Log.resolve (Draft.dropWithin (Path.item id ++ field) log) right) := by
  induction log generalizing left right with
  | nil => exact same
  | cons op rest inductionHypothesis =>
      obtain ⟨below, later⟩ := List.forall_mem_cons.mp belowRoot
      rw [Log.resolve_cons]
      by_cases within : op.path.isWithin (Path.item id ++ field)
      · rw [Draft.dropWithin_cons_of_within within]
        exact inductionHypothesis (same.apply_left further within) later
      · rw [Draft.dropWithin_cons_of_not_within within, Log.resolve_cons]
        exact inductionHypothesis (same.apply below) later

/-- Where the item is absent the keys are the same. -/
theorem keys_eq_of_absent (same : SameKeysOff id left right) (absent : left.get? id = none) :
    left.keys = right.keys := by
  have missing : ∀ {tree : Json}, ¬ (tree.get? id).isSome ->
      tree.keys.filter (· ≠ id) = tree.keys := fun gone =>
    Item.filter_ne_of_not_mem (mt Json.mem_keys_iff.mp gone)
  have leftMissing : ¬ (left.get? id).isSome := by simp [absent]
  have rightMissing := mt same.present leftMissing
  rw [← missing leftMissing, same.others, missing rightMissing]

/-- Whether the item gets one place on both sides from the ops that follow, also when those on a
path are left out on the right: the op that makes the item is not left out, and if no op makes
it the keys are the same already. -/
structure Settles (path : Path) (ops : Log) (id : String) (left right : Json) : Prop where
  made : ∀ op, Item.maker? ops (left.get? id) = some op -> ¬ op.path.isWithin path
  unmade : Item.maker? ops (left.get? id) = none -> left.keys = right.keys

/-- An op that is left out settles nothing. -/
theorem settles_apply_left (same : SameKeysOff id left right) {field : Path}
    (further : field ≠ []) {op : Op} {rest : Log}
    (within : op.path.isWithin (Path.item id ++ field))
    (settles : Settles (Path.item id ++ field) (op :: rest) id left right) :
    Settles (Path.item id ++ field) rest id (op.apply left) right := by
  obtain ⟨below, touched, leaves⟩ := Op.touches_of_isWithin_field further within
  have step : (op.apply left).get? id = Item.afterOp op (left.get? id) := by
    rw [Op.get?_apply_of_isObject below same.leftObject, if_pos touched]
  constructor
  · intro maker made
    rw [step] at made
    exact settles.made maker (Item.maker?_cons_of_later made)
  · intro unmade
    rw [step] at unmade
    -- The op did not make the item, so it left the keys as they were.
    have old : left.get? id = none -> ¬ (Item.afterOp op (left.get? id)).isSome :=
      fun absent made => settles.made op (Item.maker?_cons_of_made unmade absent made) within
    have kept : (Item.afterOp op (left.get? id)).isSome ↔ id ∈ left.keys := by
      rw [Json.mem_keys_iff]
      constructor
      · intro made
        exact Option.isSome_iff_ne_none.mpr fun absent => old absent made
      · exact leaves _
    rw [Op.keys_apply below same.leftObject touched, Item.placeId_of_iff kept]
    exact settles.unmade (Item.maker?_cons_of_not_made unmade old)

/-- An op on the item that applies to both sides settles the place of the item if it makes it. -/
theorem settles_apply (same : SameKeysOff id left right) {path : Path} {op : Op} {rest : Log}
    (below : op.path ≠ []) (touched : op.touches id)
    (settles : Settles path (op :: rest) id left right) :
    Settles path rest id (op.apply left) (op.apply right) := by
  have step : (op.apply left).get? id = Item.afterOp op (left.get? id) := by
    rw [Op.get?_apply_of_isObject below same.leftObject, if_pos touched]
  constructor
  · intro maker made
    rw [step] at made
    exact settles.made maker (Item.maker?_cons_of_later made)
  · intro unmade
    rw [step] at unmade
    refine keys_apply_congr below same.leftObject same.rightObject ?_
    by_cases absent : left.get? id = none
    · exact same.keys_eq_of_absent absent
    · exact settles.unmade (Item.maker?_cons_of_not_made unmade fun gone => absurd gone absent)

/-- Without the ops on a field and below it a log makes the same keys in the same order, if none
of those ops made the item. -/
theorem keys_resolve_dropWithin (same : SameKeysOff id left right) {field : Path}
    (further : field ≠ []) {log : Log} (belowRoot : log.IsBelowRoot)
    (settles : Settles (Path.item id ++ field) (log.opsOn id) id left right) :
    (log.resolve left).keys
      = (Log.resolve (Draft.dropWithin (Path.item id ++ field) log) right).keys := by
  induction log generalizing left right with
  | nil => exact settles.unmade rfl
  | cons op rest inductionHypothesis =>
      obtain ⟨below, later⟩ := List.forall_mem_cons.mp belowRoot
      by_cases within : op.path.isWithin (Path.item id ++ field)
      · obtain ⟨-, touched, -⟩ := Op.touches_of_isWithin_field further within
        rw [Log.opsOn_cons_of_touches touched] at settles
        rw [Draft.dropWithin_cons_of_within within]
        exact inductionHypothesis (same.apply_left further within) later
          (same.settles_apply_left further within settles)
      · rw [Draft.dropWithin_cons_of_not_within within]
        refine inductionHypothesis (same.apply below) later ?_
        by_cases touched : op.touches id
        · rw [Log.opsOn_cons_of_touches touched] at settles
          exact same.settles_apply below touched settles
        · -- The op leaves the item as it is.
          have step : (op.apply left).get? id = left.get? id := by
            rw [Op.get?_apply_of_isObject below same.leftObject, if_neg touched]
          rw [Log.opsOn_cons_of_not_touches touched] at settles
          constructor
          · rw [step]
            exact settles.made
          · rw [step]
            exact fun unmade =>
              keys_apply_congr below same.leftObject same.rightObject (settles.unmade unmade)

end SameKeysOff

end Json

/-- What an op sets does not matter for the keys. -/
theorem Log.keys_resolve_replaceValue {before after : Log} {opId : String} {path : Path}
    {old : Json} (belowRoot : IsBelowRoot (before ++ .set opId path old :: after)) {tree : Json}
    (object : tree.isObject) (value : Json) :
    (Log.resolve (before ++ .set opId path value :: after) tree).keys
      = (Log.resolve (before ++ .set opId path old :: after) tree).keys := by
  obtain ⟨early, late⟩ := List.forall_mem_append.mp belowRoot
  obtain ⟨below, late⟩ := List.forall_mem_cons.mp late
  have reached := isObject_resolve early object
  have keys : ∀ installed : Json, ((Op.set opId path installed).apply (before.resolve tree)).keys
      = ((Op.set opId path old).apply (before.resolve tree)).keys := by
    intro installed
    obtain ⟨segment, rest, rfl⟩ := List.exists_cons_of_ne_nil (show path ≠ [] from below)
    rw [Op.apply, Op.apply, Json.keys_setAt reached, Json.keys_setAt reached]
  have newBelow : (Op.set opId path value).path ≠ [] := below
  rw [resolve_append, resolve_append, resolve_cons, resolve_cons]
  exact Json.keys_resolve_congr late (Op.isObject_apply newBelow reached)
    (Op.isObject_apply below reached) (keys value)

end LayerRouting
