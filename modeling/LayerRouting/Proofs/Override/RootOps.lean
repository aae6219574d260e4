import LayerRouting.Proofs.Override.ItemOps

/-!
# Items under ops on the root

An op on the root replaces the whole collection, and no op below the root changes what an item of
another id has. So when the ops of an item are dropped, the ops on the root alone decide what it has
(`Log.get?_resolve_of_apart`). Inserting and removing an item look at the defaults instead:
`Draft.handlesRootOps` says exactly when an inserted item has its value and when a removed item is
absent, for all logs.
-/

namespace LayerRouting

/-! ## One op -/

namespace Op

/-- What an op on the root leaves does not depend on what it finds. -/
theorem apply_of_root {op : Op} (root : op.path = []) (first second : Json) :
    op.apply first = op.apply second := by
  cases op with
  | set id path value =>
      obtain rfl : path = [] := root
      rfl
  | delete id path =>
      obtain rfl : path = [] := root
      rfl

/-- An op below another key leaves what a tree has under a key, whatever the tree is. -/
theorem get?_apply_of_apart {op : Op} {id : String} (below : op.path ≠ [])
    (apart : op.path.firstKey? ≠ some id) (tree : Json) :
    (op.apply tree).get? id = tree.get? id := by
  obtain ⟨segment, rest, path⟩ := List.exists_cons_of_ne_nil below
  have distinct : segment.asKey ≠ id := by simpa [path, Path.firstKey?] using apart
  cases op with
  | set opId setPath value =>
      obtain rfl : setPath = segment :: rest := path
      exact Json.get?_setAt_of_ne tree distinct rest value
  | delete opId deletePath =>
      obtain rfl : deletePath = segment :: rest := path
      rw [apply, Json.get?_deleteAt?, if_neg distinct]

end Op

/-! ## Logs -/

namespace Log

/-- The ops on the root. -/
def rootOps (log : Log) : Log :=
  log.filter fun op => op.path = []

theorem rootOps_cons_of_root {op : Op} (root : op.path = []) (rest : Log) :
    rootOps (op :: rest) = op :: rest.rootOps :=
  List.filter_cons_of_pos (by simpa using root)

theorem rootOps_cons_of_below {op : Op} (below : op.path ≠ []) (rest : Log) :
    rootOps (op :: rest) = rest.rootOps :=
  List.filter_cons_of_neg (by simpa using below)

/-- What a key holds when no op is below it: the ops on the root alone decide. The trees that they
and the whole log start with need only agree at the key. -/
theorem get?_resolve_of_apart {log : Log} {id : String}
    (apart : ∀ op ∈ log, op.path.firstKey? ≠ some id) {tree base : Json}
    (same : tree.get? id = base.get? id) :
    (log.resolve tree).get? id = (log.rootOps.resolve base).get? id := by
  induction log generalizing tree base with
  | nil => exact same
  | cons op rest inductionHypothesis =>
      obtain ⟨here, later⟩ := List.forall_mem_cons.mp apart
      rw [resolve_cons]
      by_cases root : op.path = []
      · rw [rootOps_cons_of_root root, resolve_cons]
        have agree := Op.apply_of_root root tree base
        exact inductionHypothesis later (congrArg (Json.get? · id) agree)
      · rw [rootOps_cons_of_below root]
        exact inductionHypothesis later ((Op.get?_apply_of_apart root here tree).trans same)

/-- A collection is an object if the ops on the root alone leave one. -/
theorem isObject_resolve_of_rootOps {log : Log} {tree base : Json}
    (keyed : base.isObject -> tree.isObject) (object : (log.rootOps.resolve base).isObject) :
    (log.resolve tree).isObject := by
  induction log generalizing tree base with
  | nil => exact keyed object
  | cons op rest inductionHypothesis =>
      rw [resolve_cons]
      by_cases root : op.path = []
      · rw [rootOps_cons_of_root root, resolve_cons] at object
        exact inductionHypothesis (fun left => Op.apply_of_root root tree base ▸ left) object
      · rw [rootOps_cons_of_below root] at object
        exact inductionHypothesis (fun left => Op.isObject_apply root (keyed left)) object

end Log

/-! ## Items of a tree -/

namespace Json

/-- Whether a tree is a list. -/
def isList : Json -> Bool
  | .array _ => true
  | _ => false

/-- A tree that is no list has items under their ids only. -/
theorem lookup?_item_of_not_isList {tree : Json} (keyed : ¬ tree.isList) (id : String) :
    tree.lookup? (Path.item id) = tree.get? id := by
  cases tree with
  | array items => exact absurd rfl keyed
  | object entries => exact lookup?_item rfl id
  | null | bool | number | string => rfl

/-- An item that is deleted from a tree that is no list is absent. -/
theorem lookup?_item_delete {tree : Json} (keyed : ¬ tree.isList) (opId id : String) :
    ((Op.delete opId (Path.item id)).apply tree).lookup? (Path.item id) = none := by
  have still : ¬ ((Op.delete opId (Path.item id)).apply tree).isList := by
    cases tree with
    | array items => exact absurd rfl keyed
    | object entries =>
        simp only [Op.apply, Path.item, deleteAt?, removeChild?]
        split <;> simp [isList]
    | null | bool | number | string => simp [Op.apply, Path.item, deleteAt?, removeChild?, isList]
  rw [lookup?_item_of_not_isList still, Op.apply, Path.item, get?_deleteAt?]
  simp [Segment.asKey]

/-- An item that is deleted from a list gives its place to the element behind it. -/
theorem lookup?_item_delete_array (items : List Json) (opId id : String) :
    ((Op.delete opId (Path.item id)).apply (.array items)).lookup? (Path.item id)
      = (Segment.key id).asIndex?.bind fun position => items[position + 1]? := by
  cases index : (Segment.key id).asIndex? with
  | none => simp [Op.apply, Path.item, deleteAt?, removeChild?, child?, index]
  | some position =>
      by_cases inside : position < items.length
      · simp [Op.apply, Path.item, deleteAt?, removeChild?, child?, index, inside,
          List.getElem?_eraseIdx]
      · have behind : items[position + 1]? = none := List.getElem?_eq_none (by omega)
        simp [Op.apply, Path.item, deleteAt?, removeChild?, child?, index, inside, behind]

end Json

namespace Draft

variable {draft : Draft} {id : String}

/-- After an item was reset no op is below its id. -/
theorem firstKey?_ne_of_mem_resetItem :
    ∀ op ∈ (draft.resetItem id).log, op.path.firstKey? ≠ some id := by
  intro op member own
  exact IsTidy.not_isWithin_of_mem_resetItem op member (Path.isWithin_item_iff.mpr own)

/-- Resetting an item keeps the ops on the root. -/
theorem rootOps_resetItem (draft : Draft) (id : String) :
    (draft.resetItem id).log.rootOps = draft.log.rootOps := by
  rw [Log.rootOps, Log.rootOps, resetItem, clearField, dropWithin, List.filter_filter]
  refine List.filter_congr fun op _ => ?_
  by_cases root : op.path = []
  · simp [root, Path.item, Path.isWithin, Path.relativeTo?]
  · simp [root]

theorem resolved_appendSet (draft : Draft) (path : Path) (value : Json) :
    (draft.appendSet path value).resolved = draft.resolved.setAt path value :=
  Log.resolve_concat ..

theorem resolved_appendDelete (draft : Draft) (path : Path) :
    (draft.appendDelete path).resolved
      = (Op.delete (opIdOf draft.supply.next) path).apply draft.resolved :=
  Log.resolve_concat ..

/-- What inserting and removing an item come to when ops may be on the root. What the collection is
without the ops of the item decides where the edit does not look at it. -/
structure HandlesRootOps (draft : Draft) (id : String) : Prop where
  /-- An inserted item has its value unless that is the default and the collection has another
  one. -/
  insert : ∀ value,
    Json.SameAt ((draft.insertItem id value).resolved.lookup? (Path.item id)) (some value)
      ↔ ¬ Json.SameAt (draft.defaults.get? id) (some value)
        ∨ Json.SameAt ((draft.resetItem id).resolved.lookup? (Path.item id)) (some value)
  /-- A removed item is absent unless the defaults lack it and the collection has it. -/
  remove : ¬ (draft.resetItem id).resolved.isList ->
    ((draft.removeItem id).resolved.lookup? (Path.item id) = none
      ↔ (draft.defaults.get? id).isSome
        ∨ (draft.resetItem id).resolved.lookup? (Path.item id) = none)
  /-- In a collection that is a list the element behind takes the place of the one that is
  deleted. -/
  removeListed : ∀ items, (draft.resetItem id).resolved = .array items ->
    ((draft.removeItem id).resolved.lookup? (Path.item id) = none
      ↔ ∀ position, (Segment.key id).asIndex? = some position ->
        items.length ≤ position + if (draft.defaults.get? id).isSome then 1 else 0)
  /-- What the collection has is what the ops on the root alone leave. -/
  left : ¬ (draft.resetItem id).resolved.isList ->
    (draft.resetItem id).resolved.lookup? (Path.item id)
      = (draft.log.rootOps.resolve draft.defaults).get? id
  /-- The collection is no list if the ops on the root leave an object. -/
  keyed : (draft.log.rootOps.resolve draft.defaults).isObject ->
    ¬ (draft.resetItem id).resolved.isList

/-- Inserting and removing an item come to this on every log. -/
theorem handlesRootOps (draft : Draft) (object : draft.defaults.isObject) (id : String) :
    draft.HandlesRootOps id where
  insert value := by
    rw [← Json.lookup?_item object id]
    by_cases same : Json.SameAt (draft.defaults.lookup? (Path.item id)) (some value)
    · rw [insertItem_of_same same]
      simp [same]
    · rw [insertItem_of_different same, resolved_appendSet, Json.lookup?_setAt]
      simp [same]
  remove keyed := by
    rw [← Json.lookup?_item object id]
    by_cases defaulted : (draft.defaults.lookup? (Path.item id)).isSome
    · rw [removeItem_of_defaulted defaulted, resolved_appendDelete,
        Json.lookup?_item_delete keyed]
      simp [defaulted]
    · rw [removeItem_of_undefaulted (by simpa using defaulted)]
      simp [defaulted]
  removeListed items listed := by
    rw [← Json.lookup?_item object id]
    by_cases defaulted : (draft.defaults.lookup? (Path.item id)).isSome
    · rw [removeItem_of_defaulted defaulted, resolved_appendDelete, listed,
        Json.lookup?_item_delete_array, Option.bind_eq_none_iff]
      simp [defaulted]
    · rw [removeItem_of_undefaulted (by simpa using defaulted), listed]
      simp only [defaulted, Bool.false_eq_true, if_false, Nat.add_zero]
      simp [Path.item, Json.child?]
  left keyed := by
    rw [Json.lookup?_item_of_not_isList keyed, ← rootOps_resetItem draft id]
    exact Log.get?_resolve_of_apart firstKey?_ne_of_mem_resetItem rfl
  keyed rootObject := by
    rw [← rootOps_resetItem draft id] at rootObject
    have left := Log.isObject_resolve_of_rootOps (fun object => object) rootObject
    obtain ⟨entries, collection⟩ := Json.isObject_iff.mp left
    change ¬ ((draft.resetItem id).log.resolve draft.defaults).isList
    simp [collection, Json.isList]

/-- A draft whose log replaces the collection, so that the default of one item is hidden and another
item has no default. -/
def ofReplaced : Draft where
  defaults := .object [("left", .string "Left")]
  log := [.set "o1" [] (.object [("right", .string "Right")])]
  supply := ⟨0⟩

/-- The item that is inserted as it is in the defaults is not there, and the one that is removed
is. -/
theorem handlesRootOps_ofReplaced :
    ¬ Json.SameAt ((ofReplaced.insertItem "left" (.string "Left")).resolved.lookup?
        (Path.item "left")) (some (.string "Left"))
      ∧ (ofReplaced.removeItem "right").resolved.lookup? (Path.item "right") ≠ none := by
  have inserts := handlesRootOps ofReplaced (by decide) "left"
  have removes := handlesRootOps ofReplaced (by decide) "right"
  refine ⟨mt (inserts.insert (.string "Left")).mp (by decide), ?_⟩
  exact mt (removes.remove (by decide)).mp (by decide)

end Draft

end LayerRouting
