import LayerRouting.Proofs.Override.Members
import LayerRouting.Proofs.Override.OpIndex

/-!
# One item and all items

`Item.all` resolves a whole collection and reads every item off the tree, `Item.single?`
replays the ops that touch one item on its default. `Item.single?_agrees_with_all` says
that the two give the same items, for all defaults and logs. `Item.mem_all_iff` says which
items a collection of object defaults has.
-/

namespace LayerRouting

namespace Json

theorem lookup?_item {tree : Json} (object : tree.isObject) (id : String) :
    tree.lookup? (Path.item id) = tree.get? id := by
  obtain ⟨entries, rfl⟩ := isObject_iff.mp object
  simp [Path.item, child?, Json.get?, Segment.asKey]

end Json

namespace Item

/-! ## Ids -/

/-- Adds an id at the end unless it is there. -/
def addId (ids : List String) (id : String) : List String :=
  if id ∈ ids then ids else ids ++ [id]

theorem collectionIds_eq (defaults resolved : Json) :
    collectionIds defaults resolved = resolved.keys.foldl addId defaults.keys := by
  cases defaults <;> cases resolved <;> rfl

theorem mem_foldl_addId (added ids : List String) (id : String) :
    id ∈ added.foldl addId ids ↔ id ∈ ids ∨ id ∈ added := by
  induction added generalizing ids with
  | nil => simp
  | cons first rest inductionHypothesis =>
      rw [List.foldl_cons, inductionHypothesis, addId]
      split <;> grind

theorem nodup_foldl_addId (added : List String) {ids : List String} (distinct : ids.Nodup) :
    (added.foldl addId ids).Nodup := by
  induction added generalizing ids with
  | nil => exact distinct
  | cons first rest inductionHypothesis =>
      refine inductionHypothesis ?_
      rw [addId]
      split
      · exact distinct
      · next absent => exact List.nodup_append.mpr ⟨distinct, by simp, by grind⟩

/-- A collection has the ids of its defaults and those of the resolved tree. -/
theorem mem_collectionIds {defaults resolved : Json} {id : String} :
    id ∈ collectionIds defaults resolved
      ↔ (defaults.get? id).isSome ∨ (resolved.get? id).isSome := by
  rw [collectionIds_eq, mem_foldl_addId, Json.mem_keys_iff, Json.mem_keys_iff]

/-! ## Reports -/

theorem id_of_report? {defaults resolved : Json} {index : OpIndex} {id : String}
    {item : Item Json} (reported : report? defaults resolved index id = some item) :
    item.id = id := by
  simp only [report?] at reported
  split at reported <;> cases reported
  rfl

/-- The report of an id, when the defaults and the resolved tree are objects. -/
theorem report?_of_isObject {defaults resolved : Json} (defaultsObject : defaults.isObject)
    (resolvedObject : resolved.isObject) (index : OpIndex) (id : String) :
    report? defaults resolved index id
      = if (defaults.get? id).isSome ∨ (resolved.get? id).isSome then
          some { id, computed := resolved.get? id, defaultValue := defaults.get? id,
                 ops := index.opsFor id }
        else none := by
  simp only [report?, Json.lookup?_item defaultsObject, Json.lookup?_item resolvedObject]
  cases defaults.get? id <;> cases resolved.get? id <;> simp

/-- The items of a collection with their ranks, in the order of their ids. -/
def ranked (defaults : Json) (log : Log) : List (Binary64 × Item Json) :=
  (collectionIds defaults (log.resolve defaults)).zipIdx.filterMap fun (id, position) =>
    (report? defaults (log.resolve defaults) (OpIndex.ofLog log) id).map fun item =>
      (item.orderRank position, item)

/-- The items of a collection in the order of their ids. -/
def inIdOrder (defaults : Json) (log : Log) : List (Item Json) :=
  (collectionIds defaults (log.resolve defaults)).filterMap fun id =>
    let computed := (log.resolve defaults).lookup? (Path.item id)
    let defaultValue := defaults.lookup? (Path.item id)
    if computed.isNone ∧ defaultValue.isNone then none
    else some { id, computed, defaultValue, ops := log.filter fun op => op.touches id }

/-- Items whose ranks are in order stay in the order of their ids. -/
theorem all_of_ordered {defaults : Json} {log : Log}
    (ordered : (ranked defaults log).Pairwise fun left right =>
      left.1.orderKey ≤ right.1.orderKey) :
    all defaults log = inIdOrder defaults log := by
  have sorted : all defaults log = (ranked defaults log).map Prod.snd :=
    congrArg (List.map Prod.snd) (List.mergeSort_of_pairwise (ordered.imp (by simp)))
  calc all defaults log
      = (collectionIds defaults (log.resolve defaults)).zipIdx.filterMap fun entry =>
          report? defaults (log.resolve defaults) (OpIndex.ofLog log) entry.1 := by
        simp [sorted, ranked, List.map_filterMap, Option.map_map, Function.comp_def]
    _ = ((collectionIds defaults (log.resolve defaults)).zipIdx.map Prod.fst).filterMap
          (report? defaults (log.resolve defaults) (OpIndex.ofLog log)) :=
        by rw [List.filterMap_map]; rfl
    _ = inIdOrder defaults log := by
        rw [List.zipIdx_map_fst, inIdOrder]
        refine List.filterMap_congr fun id _ => ?_
        simp only [report?, OpIndex.opsFor_ofLog]

/-- The items of a collection are the reports of its ids. -/
theorem mem_all {defaults : Json} {log : Log} {item : Item Json} :
    item ∈ all defaults log
      ↔ item.id ∈ collectionIds defaults (log.resolve defaults)
        ∧ report? defaults (log.resolve defaults) (OpIndex.ofLog log) item.id = some item := by
  simp only [all, List.mem_map, List.mem_mergeSort, List.mem_filterMap]
  constructor
  · rintro ⟨ranked, ⟨⟨id, position⟩, listed, reported⟩, rfl⟩
    obtain ⟨item, found, rfl⟩ := Option.map_eq_some_iff.mp reported
    obtain rfl := id_of_report? found
    exact ⟨List.fst_mem_of_mem_zipIdx listed, found⟩
  · rintro ⟨member, reported⟩
    obtain ⟨position, inside, here⟩ := List.getElem_of_mem member
    exact ⟨(orderRank item position, item),
      ⟨(item.id, position), by simp [List.mem_zipIdx_iff_getElem?, ← here],
        by simp [reported]⟩, rfl⟩

/-- Two items of a collection with one id are one item. -/
theorem eq_of_mem_all {defaults : Json} {log : Log} {left right : Item Json}
    (leftMember : left ∈ all defaults log) (rightMember : right ∈ all defaults log)
    (same : left.id = right.id) : left = right := by
  have leftReport := (mem_all.mp leftMember).2
  have rightReport := (mem_all.mp rightMember).2
  rw [same, rightReport] at leftReport
  exact (Option.some.inj leftReport).symm

/-- Searching a collection for an id finds the item with the id, if there is one. -/
theorem find?_all_eq_some_iff {defaults : Json} {log : Log} {id : String} {item : Item Json} :
    ((all defaults log).find? fun item => item.id = id) = some item
      ↔ item ∈ all defaults log ∧ item.id = id := by
  constructor
  · intro first
    exact ⟨List.mem_of_find?_eq_some first, by simpa using List.find?_some first⟩
  · rintro ⟨member, rfl⟩
    obtain ⟨other, first⟩ : ∃ other, (all defaults log).find? (·.id = item.id) = some other :=
      Option.isSome_iff_exists.mp (List.find?_isSome.mpr ⟨item, member, by simp⟩)
    have named : other.id = item.id := by simpa using List.find?_some first
    rw [first, eq_of_mem_all (List.mem_of_find?_eq_some first) member named]

/-- The items of a collection whose defaults and resolved tree are objects: those of the ids for
which either holds a value. -/
theorem mem_all_iff_of_isObject {defaults : Json} {log : Log} (object : defaults.isObject)
    (resolvedObject : (log.resolve defaults).isObject) {item : Item Json} :
    item ∈ all defaults log
      ↔ item = { id := item.id, computed := (log.resolve defaults).get? item.id,
                 defaultValue := defaults.get? item.id,
                 ops := (OpIndex.ofLog log).opsFor item.id }
        ∧ ((item.computed).isSome ∨ item.defaultValue.isSome) := by
  rw [mem_all, mem_collectionIds, report?_of_isObject object resolvedObject]
  obtain ⟨id, computed, defaultValue, ops⟩ := item
  grind

/-- The items of a collection of object defaults, when no op is on the root: those of the
ids for which the resolved tree or the defaults hold a value. -/
theorem mem_all_iff {defaults : Json} {log : Log} (object : defaults.isObject)
    (belowRoot : log.IsBelowRoot) {item : Item Json} :
    item ∈ all defaults log
      ↔ item = { id := item.id, computed := (log.resolve defaults).get? item.id,
                 defaultValue := defaults.get? item.id,
                 ops := (OpIndex.ofLog log).opsFor item.id }
        ∧ ((item.computed).isSome ∨ item.defaultValue.isSome) :=
  mem_all_iff_of_isObject object (Log.isObject_resolve belowRoot object)

/-- In a collection of object defaults, when no op is on the root, the items are exactly the
reports. -/
theorem report?_eq_some_iff {defaults : Json} {log : Log} (object : defaults.isObject)
    (belowRoot : log.IsBelowRoot) {id : String} {item : Item Json} :
    report? defaults (log.resolve defaults) (OpIndex.ofLog log) id = some item
      ↔ item ∈ all defaults log ∧ item.id = id := by
  rw [mem_all]
  constructor
  · intro reported
    obtain rfl := id_of_report? reported
    refine ⟨⟨?_, reported⟩, rfl⟩
    rw [report?_of_isObject object (Log.isObject_resolve belowRoot object)] at reported
    rw [mem_collectionIds]
    grind
  · rintro ⟨⟨-, reported⟩, rfl⟩
    exact reported

/-- No two items of a collection have one id, if no key of the defaults is repeated. -/
theorem nodup_ids_all {defaults : Json} (distinct : defaults.keys.Nodup) (log : Log) :
    ((all defaults log).map Item.id).Nodup := by
  have ids : (collectionIds defaults (log.resolve defaults)).Nodup := by
    rw [collectionIds_eq]
    exact nodup_foldl_addId _ distinct
  rw [List.Nodup, List.pairwise_map]
  have reports : ∀ {entries : List (String × Nat)}, (entries.map Prod.fst).Nodup ->
      (entries.filterMap fun (id, position) =>
        (report? defaults (log.resolve defaults) (OpIndex.ofLog log) id).map
          fun item => (item.orderRank position, item)).Pairwise
        fun left right => left.2.id ≠ right.2.id := by
    intro entries apart
    rw [List.Nodup, List.pairwise_map] at apart
    refine apart.filterMap _ fun left right different first firstReport second secondReport => ?_
    obtain ⟨leftItem, leftFound, rfl⟩ := Option.map_eq_some_iff.mp firstReport
    obtain ⟨rightItem, rightFound, rfl⟩ := Option.map_eq_some_iff.mp secondReport
    rw [id_of_report? leftFound, id_of_report? rightFound]
    exact different
  rw [all, List.pairwise_map]
  exact (List.mergeSort_perm _ _).symm.pairwise (reports (by simpa using ids))
    fun different => Ne.symm different

/-! ## One item -/

/-- Replaying the ops that touch an item gives its report. -/
theorem single?_of_belowRoot {defaults : Json} {log : Log} (object : defaults.isObject)
    (belowRoot : log.IsBelowRoot) (id : String) :
    single? (OpIndex.ofLog log) log defaults id
      = report? defaults (log.resolve defaults) (OpIndex.ofLog log) id := by
  have noRoot : (OpIndex.ofLog log).root.isEmpty :=
    (OpIndex.isEmpty_root_ofLog_iff log).mpr belowRoot
  rw [report?_of_isObject object (Log.isObject_resolve belowRoot object),
    Log.get?_resolve belowRoot object]
  simp only [single?, noRoot, object, Bool.not_true, Bool.or_false, Bool.false_eq_true, if_false,
    Json.lookup?_item object, OpIndex.opsFor_ofLog]
  generalize (log.filter fun op => op.touches id).foldl (fun value op => afterOp op value)
    (defaults.get? id) = computed
  cases computed <;> cases defaults.get? id <;> simp

/-- Asking for one item gives the entry of the whole collection with that id, and none
exactly when the collection has no such entry. -/
theorem single?_agrees_with_all (defaults : Json) (log : Log) (id : String) :
    (∀ item, single? (OpIndex.ofLog log) log defaults id = some item
        ↔ item ∈ all defaults log ∧ item.id = id)
      ∧ (single? (OpIndex.ofLog log) log defaults id = none
        ↔ ∀ item ∈ all defaults log, item.id ≠ id) := by
  have found : ∀ item, single? (OpIndex.ofLog log) log defaults id = some item
      ↔ item ∈ all defaults log ∧ item.id = id := by
    intro item
    by_cases replayed : defaults.isObject ∧ log.IsBelowRoot
    · obtain ⟨object, belowRoot⟩ := replayed
      rw [single?_of_belowRoot object belowRoot]
      exact report?_eq_some_iff object belowRoot
    · -- The whole collection is searched, and only one of its items has the id.
      have searched : single? (OpIndex.ofLog log) log defaults id
          = (all defaults log).find? fun item => item.id = id := by
        rw [single?, if_pos]
        rw [not_and_or] at replayed
        simp only [Bool.or_eq_true, Bool.not_eq_true', ← Bool.not_eq_true,
          OpIndex.isEmpty_root_ofLog_iff]
        exact replayed.symm
      rw [searched]
      exact find?_all_eq_some_iff
  refine ⟨found, ?_⟩
  constructor
  · intro absent item member named
    rw [(found item).mpr ⟨member, named⟩] at absent
    cases absent
  · intro absent
    cases single : single? (OpIndex.ofLog log) log defaults id with
    | none => rfl
    | some item =>
        obtain ⟨member, named⟩ := (found item).mp single
        exact absurd named (absent item member)

end Item

end LayerRouting
