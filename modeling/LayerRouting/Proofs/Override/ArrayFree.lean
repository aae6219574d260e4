import LayerRouting.Proofs.Override.Members
import LayerRouting.Proofs.Override.Paths
import LayerRouting.Proofs.Override.Sameness

/-!
# Trees without arrays

Where no tree holds an array and every segment is a key, a path means one place whatever
happens around it: ops that do not affect a path commute with setting it
(`Op.setAt_apply_same`), and what was done on the path or below it does not matter once the
path is set (`Op.setAt_apply_within`).
-/

namespace LayerRouting

namespace Json

mutual

/-- Whether a tree has no array in it. -/
def isArrayFree : Json -> Bool
  | .array _ => false
  | .object entries => entriesAreArrayFree entries
  | _ => true

/-- Whether no entry has an array in it. -/
def entriesAreArrayFree : List (String × Json) -> Bool
  | [] => true
  | (_, value) :: rest => isArrayFree value && entriesAreArrayFree rest

end

theorem isArrayFree_object {entries : List (String × Json)} :
    (object entries).isArrayFree ↔ ∀ entry ∈ entries, entry.2.isArrayFree := by
  simp only [isArrayFree]
  induction entries with
  | nil => simp [entriesAreArrayFree]
  | cons entry rest inductionHypothesis => simp [entriesAreArrayFree, inductionHypothesis]

/-! ## What stays free of arrays -/

theorem isArrayFree_get? {tree child : Json} (free : tree.isArrayFree) {key : String}
    (found : tree.get? key = some child) : child.isArrayFree := by
  cases tree with
  | object entries => exact isArrayFree_object.mp free _ (Entries.mem_of_get? found)
  | array | null | bool | number | string => cases found

/-- In a tree without arrays the child at a segment is the member of its key. -/
theorem child?_of_isArrayFree {tree : Json} (free : tree.isArrayFree) (segment : Segment) :
    tree.child? segment = tree.get? segment.asKey := by
  cases tree with
  | array items => cases free
  | object | null | bool | number | string => rfl

theorem isArrayFree_getD_child? {tree : Json} (free : tree.isArrayFree) (segment : Segment) :
    ((tree.child? segment).getD .null).isArrayFree := by
  rw [child?_of_isArrayFree free]
  cases found : tree.get? segment.asKey with
  | none => rfl
  | some child => exact isArrayFree_get? free found

/-- A key always meets an object in a tree without arrays. -/
theorem isObject_containerFor {tree : Json} (free : tree.isArrayFree) {segment : Segment}
    (key : segment.isKey) : (tree.containerFor segment).isObject := by
  cases segment with
  | index position => cases key
  | key name =>
      cases tree with
      | array items => cases free
      | object | null | bool | number | string => rfl

theorem isArrayFree_setChild_containerFor {tree value : Json} (free : tree.isArrayFree)
    (valueFree : value.isArrayFree) {segment : Segment} (key : segment.isKey) :
    ((tree.containerFor segment).setChild segment value).isArrayFree := by
  have inserted : ∀ entries : List (String × Json), (object entries).isArrayFree ->
      (object (Entries.insert segment.asKey value entries)).isArrayFree := by
    intro entries held
    induction entries with
    | nil => simpa [Entries.insert, isArrayFree_object] using valueFree
    | cons entry rest inductionHypothesis =>
        obtain ⟨name, old⟩ := entry
        simp only [isArrayFree_object, List.forall_mem_cons] at held inductionHypothesis ⊢
        simp only [Entries.insert]
        split
        · simpa using ⟨valueFree, fun name value => held.2 (name, value)⟩
        · exact List.forall_mem_cons.mpr ⟨held.1, inductionHypothesis held.2⟩
  cases segment with
  | index position => cases key
  | key name =>
      cases tree with
      | array items => cases free
      | object entries => exact inserted entries free
      | null | bool | number | string => exact inserted [] rfl

theorem isArrayFree_setAt {tree value : Json} (free : tree.isArrayFree)
    (valueFree : value.isArrayFree) {path : Path} (keys : path.isKeys) :
    (tree.setAt path value).isArrayFree := by
  induction path generalizing tree with
  | nil => exact valueFree
  | cons segment rest inductionHypothesis =>
      obtain ⟨key, restKeys⟩ := Path.isKeys_cons.mp keys
      rw [setAt_cons]
      exact isArrayFree_setChild_containerFor free
        (inductionHypothesis (isArrayFree_getD_child? free segment) restKeys) key

theorem isArrayFree_of_deleteAt? {tree left : Json} (free : tree.isArrayFree) {path : Path}
    (keys : path.isKeys) (deleted : tree.deleteAt? path = some left) : left.isArrayFree := by
  induction path generalizing tree left with
  | nil => cases deleted; rfl
  | cons segment rest inductionHypothesis =>
      obtain ⟨key, restKeys⟩ := Path.isKeys_cons.mp keys
      cases rest with
      | nil =>
          cases tree with
          | object entries =>
              simp only [deleteAt?, removeChild?] at deleted
              split at deleted <;> cases deleted
              exact isArrayFree_object.mpr fun entry member =>
                isArrayFree_object.mp free entry (List.mem_of_mem_filter member)
          | array | null | bool | number | string => simp_all [deleteAt?, removeChild?, isArrayFree]
      | cons next rest =>
          rw [deleteAt?_cons _ _ (by simp)] at deleted
          obtain ⟨child, here, changed⟩ := Option.bind_eq_some_iff.mp deleted
          obtain ⟨inner, below, rfl⟩ := Option.map_eq_some_iff.mp changed
          rw [← containerFor_of_child? here]
          rw [child?_of_isArrayFree free] at here
          exact isArrayFree_setChild_containerFor free
            (inductionHypothesis (isArrayFree_get? free here) restKeys below) key

end Json

namespace Op

/-- Whether an op is on a path of keys and sets no array. -/
def isArrayFree : Op -> Bool
  | .set _ path value => path.isKeys && value.isArrayFree
  | .delete _ path => path.isKeys

theorem isKeys_path {op : Op} (free : op.isArrayFree) : op.path.isKeys := by
  cases op <;> simp_all [isArrayFree, path]

theorem isArrayFree_withPath {op : Op} (free : op.isArrayFree) {path : Path}
    (keys : path.isKeys) : (op.withPath path).isArrayFree := by
  cases op <;> simp_all [isArrayFree, withPath]

theorem isArrayFree_apply {op : Op} (opFree : op.isArrayFree) {tree : Json}
    (free : tree.isArrayFree) : (op.apply tree).isArrayFree := by
  cases op with
  | set id path value =>
      obtain ⟨keys, valueFree⟩ := (Bool.and_eq_true _ _).mp opFree
      exact Json.isArrayFree_setAt free valueFree keys
  | delete id path =>
      simp only [apply]
      cases deleted : tree.deleteAt? path with
      | none => exact free
      | some left => exact Json.isArrayFree_of_deleteAt? free opFree deleted

/-- The member that an op changes, in a tree without arrays. -/
theorem get?_apply_of_isArrayFree {op : Op} (opFree : op.isArrayFree) {segment : Segment}
    {rest : Path} (path : op.path = segment :: rest) {tree : Json} (free : tree.isArrayFree)
    (key : String) :
    (op.apply tree).get? key
      = if segment.asKey = key then Item.afterOp op (tree.get? key) else tree.get? key := by
  have keys := isKeys_path opFree
  rw [path, Path.isKeys_cons] at keys
  exact get?_apply path (Json.isObject_containerFor free keys.1) key

end Op

end LayerRouting
