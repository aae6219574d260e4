import LayerRouting.Proofs.Override.Items

/-!
# A collection that is replaced

An op on the root can put a list, a scalar or null in the place of a collection. Then the items
are those of the defaults, and most of them are deleted. But an id that reads as a number is an
index where it meets a list, so an item whose id spells a position of the list shows the element
there (`Item.hidesItems`).
-/

namespace LayerRouting

/-- What is found under an id in a tree that is no object: the element of a list at the position
that the id spells. -/
theorem Json.lookup?_item_eq_some_iff {tree value : Json} (other : ¬ tree.isObject) {id : String} :
    tree.lookup? (Path.item id) = some value
      ↔ ∃ elements position, tree = .array elements
        ∧ (Segment.key id).asIndex? = some position ∧ elements[position]? = some value := by
  cases tree with
  | object entries => exact absurd rfl other
  | array elements => simp [Path.item, child?, Option.bind_eq_some_iff]
  | null | bool | number | string => simp [Path.item, child?]

namespace Item

variable {defaults : Json} {log : Log} {item : Item Json}

/-- Whether an item is reported: in the list of all items, or when it is asked for. -/
def IsReported (defaults : Json) (log : Log) (item : Item Json) : Prop :=
  item ∈ all defaults log ∨ ∃ id, single? (OpIndex.ofLog log) log defaults id = some item

/-- A collection that is replaced has an op on the root, so an item that is asked for is searched
in the list of all. -/
theorem IsReported.mem_all (reported : IsReported defaults log item) (object : defaults.isObject)
    (replaced : ¬ (log.resolve defaults).isObject) : item ∈ all defaults log := by
  rcases reported with member | ⟨id, asked⟩
  · exact member
  · have rooted : ¬ (OpIndex.ofLog log).root.isEmpty := fun unrooted =>
      replaced (Log.isObject_resolve ((OpIndex.isEmpty_root_ofLog_iff log).mp unrooted) object)
    rw [single?, if_pos (by simp [rooted])] at asked
    exact List.mem_of_find?_eq_some asked

/-- The items of a collection that is replaced: those of the defaults. -/
theorem mem_all_iff_of_replaced (object : defaults.isObject)
    (replaced : ¬ (log.resolve defaults).isObject) :
    item ∈ all defaults log
      ↔ item.id ∈ defaults.keys
        ∧ item = { id := item.id, computed := (log.resolve defaults).lookup? (Path.item item.id),
                   defaultValue := defaults.get? item.id,
                   ops := (OpIndex.ofLog log).opsFor item.id } := by
  rw [mem_all, mem_collectionIds, Json.get?_of_not_isObject replaced, Json.mem_keys_iff]
  simp only [Option.isSome_none, Bool.false_eq_true, or_false]
  refine and_congr_right fun present => ?_
  rw [report?, Json.lookup?_item object, if_neg (by simp [Option.isSome_iff_ne_none.mp present]),
    Option.some.injEq, eq_comm]

/-- What is left of the items of a collection that is replaced. -/
structure HidesItems (defaults : Json) (log : Log) : Prop where
  /-- The ids are the keys of the defaults. -/
  listed : ∀ id, (∃ item ∈ all defaults log, item.id = id) ↔ id ∈ defaults.keys
  /-- An item is deleted unless its id spells a position of the list that the tree is. -/
  deleted : ∀ item, IsReported defaults log item ->
    (item.isDeleted ↔ ∀ elements position, log.resolve defaults = .array elements ->
      (Segment.key item.id).asIndex? = some position -> elements.length ≤ position)
  /-- An item whose id spells a position of the list shows the element there. -/
  shown : ∀ item, IsReported defaults log item -> ∀ elements position,
    log.resolve defaults = .array elements ->
      (Segment.key item.id).asIndex? = some position -> item.computed = elements[position]?

/-- Whatever ops leave a tree that is no object, they hide every item of the defaults whose id
spells no position of the tree, and so all of them when the tree is no list. -/
theorem hidesItems (object : defaults.isObject) (replaced : ¬ (log.resolve defaults).isObject) :
    HidesItems defaults log := by
  have computed : ∀ item, IsReported defaults log item ->
      item.computed = (log.resolve defaults).lookup? (Path.item item.id) := fun item reported =>
    congrArg Item.computed
      ((mem_all_iff_of_replaced object replaced).mp (reported.mem_all object replaced)).2
  have element : ∀ item, IsReported defaults log item -> ∀ value, item.computed = some value
      ↔ ∃ elements position, log.resolve defaults = .array elements
        ∧ (Segment.key item.id).asIndex? = some position
        ∧ elements[position]? = some value := fun item reported value =>
    computed item reported ▸ Json.lookup?_item_eq_some_iff replaced
  constructor
  case listed =>
    intro id
    constructor
    · rintro ⟨item, member, rfl⟩
      exact ((mem_all_iff_of_replaced object replaced).mp member).1
    · intro present
      refine ⟨⟨id, (log.resolve defaults).lookup? (Path.item id), defaults.get? id,
        (OpIndex.ofLog log).opsFor id⟩, ?_, rfl⟩
      exact (mem_all_iff_of_replaced object replaced).mpr ⟨present, rfl⟩
  case shown =>
    intro item reported elements position list index
    refine Option.ext fun value => (element item reported value).trans ?_
    simp [list, index]
  case deleted =>
    intro item reported
    rw [isDeleted, Option.isNone_iff_eq_none, Option.eq_none_iff_forall_ne_some]
    constructor
    · intro absent elements position list index
      by_contra inside
      exact absent elements[position] ((element item reported _).mpr
        ⟨elements, position, list, index, List.getElem?_eq_getElem (not_le.mp inside)⟩)
    · intro outside value live
      obtain ⟨elements, position, list, index, found⟩ := (element item reported value).mp live
      exact absurd (outside elements position list index)
        (not_le.mpr (List.getElem?_eq_some_iff.mp found).1)

/-- A collection that a list of one element replaced, with two items of which one has a number as
its id. -/
def listedItems : Document Json where
  defaults := .object [("left", .object []), ("0", .bool true)]
  log := [.set "o1" [] (.array []), .set "o2" [.index 0] (.string "element")]

/-- One of the items is deleted, and the other one shows the element of the list. -/
theorem hidesItems_listedItems :
    (∃ item ∈ listedItems.items, item.id = "left" ∧ item.isDeleted)
      ∧ ∃ item ∈ listedItems.items, item.id = "0" ∧ item.computed = some (.string "element") := by
  have hides : HidesItems listedItems.defaults listedItems.log :=
    hidesItems (by decide) (by decide)
  have list : listedItems.log.resolve listedItems.defaults = .array [.string "element"] := by decide
  have noIndex : (Segment.key "left").asIndex? = none := by decide
  obtain ⟨left, leftMember, leftId⟩ := (hides.listed "left").mpr (by decide)
  obtain ⟨zero, zeroMember, zeroId⟩ := (hides.listed "0").mpr (by decide)
  refine ⟨⟨left, leftMember, leftId, ?_⟩, ⟨zero, zeroMember, zeroId, ?_⟩⟩
  · refine (hides.deleted left (.inl leftMember)).mpr fun elements position _ index => ?_
    rw [leftId, noIndex] at index
    cases index
  · exact hides.shown zero (.inl zeroMember) _ 0 list (by rw [zeroId]; decide)

end Item

end LayerRouting
