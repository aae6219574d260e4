import LayerRouting.Override.Item
import LayerRouting.Proofs.Override.Places

/-!
# Ops on the members of an object

An op below the root concerns one member of an object and leaves the others alone
(`Op.get?_apply`). When no op of a log is on the root, each member of the resolved tree
therefore comes from its default and from the ops that touch it, in log order
(`Log.get?_resolve`).
-/

namespace LayerRouting

namespace Json

/-! ## Members after a change -/

theorem containerFor_of_isObject {tree : Json} (object : tree.isObject) (segment : Segment) :
    tree.containerFor segment = tree := by
  obtain ⟨entries, rfl⟩ := isObject_iff.mp object
  rfl

/-- The container made for a segment has the members that the tree had, if it is an
object. -/
theorem get?_containerFor {tree : Json} {segment : Segment}
    (fits : (tree.containerFor segment).isObject) (key : String) :
    (tree.containerFor segment).get? key = tree.get? key := by
  cases tree with
  | object entries => rfl
  | array items =>
      simp only [containerFor] at fits ⊢
      split
      · rfl
      · cases segment <;> simp [emptyFor, Json.get?, Entries.get?]
  | null | bool | number | string =>
      cases segment <;> simp [containerFor, emptyFor, Json.get?, Entries.get?]

/-- Setting at a path leaves the members of other keys alone, whatever the tree is. -/
theorem get?_setAt_of_ne (tree : Json) {segment : Segment} {key : String}
    (distinct : segment.asKey ≠ key) (rest : Path) (value : Json) :
    (tree.setAt (segment :: rest) value).get? key = tree.get? key := by
  rw [setAt_cons]
  generalize ((tree.child? segment).getD .null).setAt rest value = inner
  cases tree with
  | object entries => simp [containerFor, setChild, Json.get?, Entries.get?_insert_of_ne distinct]
  | array items =>
      cases index : segment.asIndex? with
      | some position => simp [containerFor, setChild, Json.get?, index]
      | none =>
          cases segment <;>
            simp_all [containerFor, emptyFor, setChild, Json.get?, Entries.get?, Segment.asIndex?,
              Entries.get?_insert_of_ne]
  | null | bool | number | string =>
      cases segment <;>
        simp_all [containerFor, emptyFor, setChild, Json.get?, Entries.get?, Segment.asIndex?,
          Entries.get?_insert_of_ne]

/-- Where a segment meets an object, setting at a path changes the member of its key. -/
theorem get?_setAt_self {tree : Json} {segment : Segment}
    (fits : (tree.containerFor segment).isObject) (rest : Path) (value : Json) :
    (tree.setAt (segment :: rest) value).get? segment.asKey
      = some (((tree.get? segment.asKey).getD .null).setAt rest value) := by
  have members := get?_containerFor fits segment.asKey
  obtain ⟨entries, container⟩ := isObject_iff.mp fits
  rw [setAt_cons, ← child?_containerFor, ← members, container]
  simp [setChild, Json.get?, child?]

theorem isObject_setChild (tree : Json) (segment : Segment) (value : Json) :
    (tree.setChild segment value).isObject = tree.isObject := by
  cases tree with
  | array items => cases index : segment.asIndex? <;> simp [setChild, index, isObject]
  | object | null | bool | number | string => rfl

/-- Deleting below the root leaves an object an object, and makes no other tree one. -/
theorem isObject_of_deleteAt? {tree left : Json} {path : Path} (below : path ≠ [])
    (deleted : tree.deleteAt? path = some left) : left.isObject = tree.isObject := by
  obtain ⟨segment, rest, rfl⟩ := List.exists_cons_of_ne_nil below
  cases rest with
  | nil =>
      cases tree <;> simp only [deleteAt?, removeChild?] at deleted <;> (repeat' split at deleted)
        <;> cases deleted <;> rfl
  | cons next rest =>
      rw [deleteAt?_cons _ _ (by simp)] at deleted
      obtain ⟨child, -, changed⟩ := Option.bind_eq_some_iff.mp deleted
      obtain ⟨inner, -, rfl⟩ := Option.map_eq_some_iff.mp changed
      exact isObject_setChild tree segment inner

theorem isObject_getD_deleteAt? (tree : Json) {path : Path} (below : path ≠ []) :
    ((tree.deleteAt? path).getD tree).isObject = tree.isObject := by
  cases deleted : tree.deleteAt? path with
  | none => rfl
  | some left => exact isObject_of_deleteAt? below deleted

/-- Deleting at a path leaves the members of other keys alone, and changes or removes the
member of its key if there is one. -/
theorem get?_deleteAt? (tree : Json) (segment : Segment) (rest : Path) (key : String) :
    ((tree.deleteAt? (segment :: rest)).getD tree).get? key
      = if segment.asKey = key then
          if rest = [] then none
          else (tree.get? key).map fun inner => (inner.deleteAt? rest).getD inner
        else tree.get? key := by
  by_cases object : tree.isObject
  · obtain ⟨entries, rfl⟩ := isObject_iff.mp object
    by_cases further : rest = []
    · subst further
      simp only [deleteAt?, removeChild?, if_true]
      split
      · simp [Json.get?, Entries.get?_erase]
      · next absent =>
          split
          · next same => simpa [Json.get?, same] using absent
          · rfl
    · rw [deleteAt?_cons _ _ further]
      simp only [child?, further, if_false]
      cases here : Entries.get? segment.asKey entries with
      | none =>
          simp only [Option.bind_none, Option.getD_none]
          split
          · next same => simp [Json.get?, ← same, here]
          · rfl
      | some inner =>
          cases left : inner.deleteAt? rest <;> by_cases same : segment.asKey = key
          · simp [left, Json.get?, ← same, here]
          · simp [left, same]
          · simp [left, setChild, Json.get?, ← same, here]
          · simp [left, setChild, Json.get?, same, Entries.get?_insert]
  · have after := isObject_getD_deleteAt? tree (List.cons_ne_nil segment rest)
    rw [get?_of_not_isObject (by rwa [after]), get?_of_not_isObject object]
    simp

end Json

/-! ## One op -/

namespace Item

/-- A set on the item itself installs the value; one below changes the value, or null in
place of an absent one. -/
theorem afterOp_set (id : String) (segment : Segment) (rest : Path) (installed : Json)
    (value : Option Json) :
    afterOp (.set id (segment :: rest) installed) value
      = some ((value.getD .null).setAt rest installed) := by
  cases rest with
  | nil => rfl
  | cons next rest => cases value <;> rfl

/-- A delete on the item itself removes it; one below changes a value that is there. -/
theorem afterOp_delete (id : String) (segment : Segment) (rest : Path) (value : Option Json) :
    afterOp (.delete id (segment :: rest)) value
      = if rest = [] then none
        else value.map fun old => (old.deleteAt? rest).getD old := by
  cases rest with
  | nil => rfl
  | cons next rest => cases value <;> rfl

end Item

namespace Op

/-- The value of a member after an op below the root. An op that sets must meet an object;
one that deletes does not change members where it meets something else. -/
theorem get?_apply {op : Op} {segment : Segment} {rest : Path} (path : op.path = segment :: rest)
    {tree : Json} (fits : (tree.containerFor segment).isObject) (key : String) :
    (op.apply tree).get? key
      = if segment.asKey = key then Item.afterOp op (tree.get? key) else tree.get? key := by
  cases op with
  | set id setPath value =>
      obtain rfl : setPath = segment :: rest := path
      simp only [apply, Item.afterOp_set]
      split
      · next same => rw [← same, Json.get?_setAt_self fits]
      · next distinct => rw [Json.get?_setAt_of_ne tree distinct]
  | delete id deletePath =>
      obtain rfl : deletePath = segment :: rest := path
      rw [apply, Json.get?_deleteAt?, Item.afterOp_delete]

/-- An op touches an item if it is on the root or its first segment names the item. -/
theorem touches_iff_root_or {op : Op} {id : String} :
    op.touches id ↔ op.path = [] ∨ op.path.firstKey? = some id := by
  cases path : op.path <;> simp [touches, path, Path.firstKey?]

theorem touches_iff {op : Op} {segment : Segment} {rest : Path}
    (path : op.path = segment :: rest) (id : String) : op.touches id ↔ segment.asKey = id := by
  simp [touches_iff_root_or, path, Path.firstKey?]

/-- An op below the root leaves an object an object. -/
theorem isObject_apply {op : Op} (below : op.path ≠ []) {tree : Json} (object : tree.isObject) :
    (op.apply tree).isObject := by
  cases op with
  | set id path value =>
      obtain ⟨segment, rest, rfl⟩ := List.exists_cons_of_ne_nil below
      rwa [apply, Json.setAt_cons, Json.isObject_setChild, Json.containerFor_of_isObject object]
  | delete id path =>
      have kept := Json.isObject_getD_deleteAt? tree (show path ≠ [] from below)
      rwa [apply, kept]

/-- The value of a member of an object after an op that is not on the root. -/
theorem get?_apply_of_isObject {op : Op} (below : op.path ≠ []) {tree : Json}
    (object : tree.isObject) (id : String) :
    (op.apply tree).get? id
      = if op.touches id then Item.afterOp op (tree.get? id) else tree.get? id := by
  obtain ⟨segment, rest, path⟩ := List.exists_cons_of_ne_nil below
  rw [get?_apply path (by rwa [Json.containerFor_of_isObject object])]
  simp [touches_iff path]

end Op

/-! ## Logs -/

namespace Log

/-- Whether no op is on the root. -/
def IsBelowRoot (log : Log) : Prop :=
  ∀ op ∈ log, op.path ≠ []

instance (log : Log) : Decidable log.IsBelowRoot :=
  inferInstanceAs (Decidable (∀ op ∈ log, op.path ≠ []))

theorem resolve_cons (op : Op) (rest : Log) (tree : Json) :
    Log.resolve (op :: rest) tree = Log.resolve rest (op.apply tree) :=
  rfl

theorem resolve_append (first second : Log) (tree : Json) :
    Log.resolve (first ++ second) tree = Log.resolve second (Log.resolve first tree) :=
  List.foldl_append

/-- The tree that a log with one more op makes. -/
theorem resolve_concat (log : Log) (op : Op) (tree : Json) :
    Log.resolve (log ++ [op]) tree = op.apply (log.resolve tree) :=
  resolve_append log [op] tree

/-- A log without ops on the root leaves an object an object. -/
theorem isObject_resolve {log : Log} (belowRoot : log.IsBelowRoot) {tree : Json}
    (object : tree.isObject) : (log.resolve tree).isObject := by
  induction log generalizing tree with
  | nil => exact object
  | cons op rest inductionHypothesis =>
      obtain ⟨below, later⟩ := List.forall_mem_cons.mp belowRoot
      exact inductionHypothesis later (Op.isObject_apply below object)

/-- Each member of a resolved object comes from its default by the ops that touch it. -/
theorem get?_resolve {log : Log} (belowRoot : log.IsBelowRoot) {tree : Json}
    (object : tree.isObject) (id : String) :
    (log.resolve tree).get? id
      = (log.filter fun op => op.touches id).foldl (fun value op => Item.afterOp op value)
          (tree.get? id) := by
  induction log generalizing tree with
  | nil => rfl
  | cons op rest inductionHypothesis =>
      obtain ⟨below, later⟩ := List.forall_mem_cons.mp belowRoot
      rw [resolve_cons, inductionHypothesis later (Op.isObject_apply below object),
        Op.get?_apply_of_isObject below object]
      by_cases touched : op.touches id <;> simp [touched]

end Log

end LayerRouting
