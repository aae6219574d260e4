import LayerRouting.Proofs.Override.Items

/-!
# Interleaved edits

An op below the root concerns one item, so the ops of different items may be interleaved in any
way: two logs that give every item the same ops in the same order agree on every item
(`Item.agreeOnItems_of_perm`). This needs nothing of the items themselves, whatever arrays they
hold, for an item is told from the others by the key of a path's first segment.
-/

namespace LayerRouting

namespace Log

variable {first second : Log}

/-- In a log without ops on the root an item is touched by the ops below it alone. -/
theorem filter_touches {log : Log} (belowRoot : log.IsBelowRoot) (id : String) :
    (log.filter fun op => op.touches id) = log.filter fun op => op.path.firstKey? = some id := by
  refine List.filter_congr fun op member => Bool.eq_iff_iff.mpr ?_
  rw [Op.touches_iff_root_or, decide_eq_true_iff, or_iff_right (belowRoot op member)]

theorem IsBelowRoot.of_perm (belowRoot : first.IsBelowRoot) (perm : first.Perm second) :
    second.IsBelowRoot :=
  fun op member => belowRoot op (perm.mem_iff.mpr member)

end Log

namespace Item

/-- Whether two logs agree on the items of a collection. -/
structure AgreeOnItems (defaults : Json) (first second : Log) : Prop where
  /-- The resolved trees are the same as values. -/
  resolved : (first.resolve defaults).Same (second.resolve defaults)
  /-- Every id has one computed value. -/
  computed : ∀ id, (first.resolve defaults).get? id = (second.resolve defaults).get? id
  /-- Every id has one list of ops. -/
  ops : ∀ id, (OpIndex.ofLog first).opsFor id = (OpIndex.ofLog second).opsFor id
  /-- Every item is in both lists of all items or in neither. -/
  all : ∀ item, item ∈ Item.all defaults first ↔ item ∈ Item.all defaults second
  /-- Every id that is asked for has one answer. -/
  single : ∀ id, single? (OpIndex.ofLog first) first defaults id
    = single? (OpIndex.ofLog second) second defaults id

/-- Logs without ops on the root that are permutations of one another agree on all items, if each
single item has its ops in one order in both. -/
theorem agreeOnItems_of_perm {defaults : Json} {first second : Log} (object : defaults.isObject)
    (belowRoot : first.IsBelowRoot) (perm : first.Perm second)
    (order : ∀ id, (first.filter fun op => op.path.firstKey? = some id)
      = second.filter fun op => op.path.firstKey? = some id) :
    AgreeOnItems defaults first second := by
  have secondBelow := belowRoot.of_perm perm
  have touches : ∀ id, (first.filter fun op => op.touches id)
      = second.filter fun op => op.touches id := by
    intro id
    rw [Log.filter_touches belowRoot, order id, Log.filter_touches secondBelow]
  have computed : ∀ id, (first.resolve defaults).get? id = (second.resolve defaults).get? id := by
    intro id
    rw [Log.get?_resolve belowRoot object, touches id, Log.get?_resolve secondBelow object]
  have ops : ∀ id, (OpIndex.ofLog first).opsFor id = (OpIndex.ofLog second).opsFor id := by
    intro id
    rw [OpIndex.opsFor_ofLog, touches id, OpIndex.opsFor_ofLog]
  have firstObject := Log.isObject_resolve belowRoot object
  have secondObject := Log.isObject_resolve secondBelow object
  constructor
  · exact Json.same_of_get? firstObject secondObject fun id => by rw [computed id]
  · exact computed
  · exact ops
  · intro item
    rw [mem_all_iff object belowRoot, mem_all_iff object secondBelow, computed, ops]
  · intro id
    rw [single?_of_belowRoot object belowRoot, single?_of_belowRoot object secondBelow,
      report?_of_isObject object firstObject, report?_of_isObject object secondObject, computed,
      ops]

/-- Ops on two items in turns. The one item is named by a key and by an index, and the other one
is a list. -/
def turns : Log :=
  [.set "o1" [.key "0", .key "name"] (.string "Zero"), .set "o2" [.key "left"] (.array [.null]),
    .delete "o3" [.index 0, .key "name"], .set "o4" [.key "left", .index 2] (.bool true)]

/-- The same ops, item by item. -/
def blocks : Log :=
  [.set "o2" [.key "left"] (.array [.null]), .set "o4" [.key "left", .index 2] (.bool true),
    .set "o1" [.key "0", .key "name"] (.string "Zero"), .delete "o3" [.index 0, .key "name"]]

/-- Both logs leave the item that is a list with the same elements. -/
theorem agreeOnItems_turns_blocks :
    AgreeOnItems (.object [("0", .object [])]) turns blocks
      ∧ (blocks.resolve (.object [("0", .object [])])).get? "left"
        = some (.array [.null, .null, .bool true]) := by
  have perm : turns.Perm blocks := by decide
  have named : ∀ op ∈ turns, op.path.firstKey? = some "0" ∨ op.path.firstKey? = some "left" := by
    decide
  have order : ∀ id, (turns.filter fun op => op.path.firstKey? = some id)
      = blocks.filter fun op => op.path.firstKey? = some id := by
    intro id
    by_cases known : id = "0" ∨ id = "left"
    case pos => rcases known with rfl | rfl <;> decide
    case neg =>
      -- No op names another item, so nothing of either log is left.
      have none : ∀ op ∈ turns, op.path.firstKey? ≠ some id := by
        intro op member same
        have namedHere := named op member
        rw [same, Option.some.injEq, Option.some.injEq] at namedHere
        exact known namedHere
      have noneOfBlocks : ∀ op ∈ blocks, op.path.firstKey? ≠ some id :=
        fun op member => none op (perm.mem_iff.mpr member)
      rw [List.filter_eq_nil_iff.mpr (by simpa using none),
        List.filter_eq_nil_iff.mpr (by simpa using noneOfBlocks)]
  have agree : AgreeOnItems (.object [("0", .object [])]) turns blocks :=
    agreeOnItems_of_perm (by decide) (by decide) perm order
  refine ⟨agree, ?_⟩
  rw [← agree.computed "left"]
  decide

end Item

end LayerRouting
