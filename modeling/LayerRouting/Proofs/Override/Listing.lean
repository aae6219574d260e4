import LayerRouting.Proofs.Number.WholeNumbers
import LayerRouting.Proofs.Override.Items

/-!
# The list of all items

When the defaults and the resolved tree are objects, the list of all items leaves out no key of
either and reports none twice, and every item shows what the two trees hold under its id and the
ops that touch it (`Item.reportsCollection_all`). The list is the stable sort of these items by
rank: a shown value may hold a rank of its own, and where it holds none the place of the item
among the keys takes its place.
-/

namespace LayerRouting

/-! ## Stable sorting -/

/-- Whether a list is another one put in the order of ranks, so that elements of one rank keep
their order. -/
structure IsStableSort {α : Type} (rank : α -> Binary64) (source sorted : List α) : Prop where
  perm : sorted.Perm source
  ordered : sorted.Pairwise fun left right => (rank left).Precedes (rank right)
  stable : ∀ value, sorted.filter (rank · = value) = source.filter (rank · = value)

/-- Merge sort by the key of the total order is a stable sort. -/
theorem isStableSort_mergeSort {α : Type} (rank : α -> Binary64) (source : List α) :
    IsStableSort rank source
      (source.mergeSort fun left right => (rank left).orderKey ≤ (rank right).orderKey) := by
  have perm := List.mergeSort_perm source
    fun left right => decide ((rank left).orderKey ≤ (rank right).orderKey)
  constructor
  · exact perm
  · exact (List.pairwise_mergeSort (Binary64.decide_orderKey_le_trans rank)
      (Binary64.decide_orderKey_le_total rank) source).imp fun le =>
        Binary64.precedes_of_orderKey_le (of_decide_eq_true le)
  · intro value
    -- Elements of one rank are sorted already, so their list survives the sort as a sublist.
    have tied : (source.filter (rank · = value)).Pairwise fun left right =>
        decide ((rank left).orderKey ≤ (rank right).orderKey) = true := by
      refine List.pairwise_of_forall_mem_list fun left leftMember right rightMember => ?_
      have leftRank := of_decide_eq_true (List.mem_filter.mp leftMember).2
      have rightRank := of_decide_eq_true (List.mem_filter.mp rightMember).2
      simp [leftRank, rightRank]
    have kept := (List.sublist_mergeSort (Binary64.decide_orderKey_le_trans rank)
      (Binary64.decide_orderKey_le_total rank) tied List.filter_sublist).filter (rank · = value)
    rw [List.filter_filter] at kept
    simp only [Bool.and_self] at kept
    exact (kept.eq_of_length (perm.filter _).length_eq.symm).symm

namespace Item

/-! ## Ranks -/

/-- The ranks of an item at a place among the keys of its collection. The value that it shows is
the computed one, or the default if it is deleted. -/
inductive RanksAt (item : Item Json) (place : Nat) : Binary64 -> Prop where
  /-- The rank that the shown value holds. -/
  | held {value : Json} {number : Number} (shown : item.computed.or item.defaultValue = some value)
      (rank : value.get? rankField = some (.number number)) : RanksAt item place number.toBinary64
  /-- The place, where the shown value holds no number as its rank. -/
  | unheld (none : ∀ value, item.computed.or item.defaultValue = some value ->
      ∀ number, value.get? rankField ≠ some (.number number)) :
      RanksAt item place (positionRank place)

theorem rank?_eq_some_iff {value : Json} {rank : Binary64} :
    rank? value = some rank
      ↔ ∃ number, value.get? rankField = some (.number number) ∧ number.toBinary64 = rank := by
  rw [rank?, Option.bind_eq_some_iff]
  constructor
  · rintro ⟨held, found, number⟩
    cases held <;> simp_all [Json.asBinary64?]
  · rintro ⟨number, found, same⟩
    exact ⟨.number number, found, congrArg some same⟩

theorem ranksAt_orderRank (item : Item Json) (place : Nat) :
    item.RanksAt place (item.orderRank place) := by
  rw [orderRank]
  cases held : (item.computed.or item.defaultValue).bind rank? with
  | some rank =>
      obtain ⟨value, shown, found⟩ := Option.bind_eq_some_iff.mp held
      obtain ⟨number, member, rfl⟩ := rank?_eq_some_iff.mp found
      rw [Option.getD_some]
      exact .held shown member
  | none =>
      rw [Option.getD_none]
      refine .unheld fun value shown number found => ?_
      rw [shown, Option.bind_some, rank?_eq_some_iff.mpr ⟨number, found, rfl⟩] at held
      cases held

/-! ## The collection -/

/-- The ids of a collection are the keys of its defaults and then the new keys of the tree. -/
theorem collectionIds_eq_append (defaults resolved : Json) :
    collectionIds defaults resolved
      = defaults.keys ++ (resolved.keys.filter (· ∉ defaults.keys)).eraseDups :=
  (collectionIds_eq defaults resolved).trans (Entries.foldl_addNew resolved.keys defaults.keys)

variable {defaults : Json} {log : Log}

/-- Every id of a collection has an item, so each of them has the place of its id. -/
theorem ranked_eq_map (object : defaults.isObject)
    (resolvedObject : (log.resolve defaults).isObject) :
    ranked defaults log
      = (collectionIds defaults (log.resolve defaults)).zipIdx.map fun (id, place) =>
          let item : Item Json :=
            { id, computed := (log.resolve defaults).get? id, defaultValue := defaults.get? id,
              ops := (OpIndex.ofLog log).opsFor id }
          (item.orderRank place, item) := by
  rw [ranked, ← List.filterMap_eq_map]
  refine List.filterMap_congr fun entry member => ?_
  obtain ⟨id, place⟩ := entry
  have known := (mem_collectionIds.mp (List.fst_mem_of_mem_zipIdx member)).symm
  simp only [report?_of_isObject object resolvedObject, if_pos known.symm]
  rfl

/-- The ops that the index gives for an item: those on the root and those below the item. -/
theorem opsFor_ofLog_eq (log : Log) (id : String) :
    (OpIndex.ofLog log).opsFor id
      = log.filter fun op => op.path = [] ∨ op.path.firstKey? = some id := by
  rw [OpIndex.opsFor_ofLog]
  exact List.filter_congr fun op _ => Bool.eq_iff_iff.mpr (by simpa using Op.touches_iff_root_or)

/-- Whether a list is a complete and exact report of a collection, in the order of ranks. -/
structure ReportsCollection (defaults : Json) (log : Log) (items : List (Item Json)) : Prop where
  /-- The ids are the keys of the defaults and those of the resolved tree. -/
  complete : ∀ id, (∃ item ∈ items, item.id = id)
    ↔ id ∈ defaults.keys ∨ id ∈ (log.resolve defaults).keys
  /-- No id is reported twice. -/
  once : (items.map Item.id).Nodup
  /-- The computed value is what the resolved tree holds under the id. -/
  computed : ∀ item ∈ items, item.computed = (log.resolve defaults).get? item.id
  /-- The default is what the defaults hold under the id. -/
  defaultValue : ∀ item ∈ items, item.defaultValue = defaults.get? item.id
  /-- The ops are those on the root or below the id, in log order. -/
  ops : ∀ item ∈ items,
    item.ops = log.filter fun op => op.path = [] ∨ op.path.firstKey? = some item.id
  /-- The items are the stable sort by rank of the keys of the defaults in their order and then
  the new keys of the resolved tree in theirs. -/
  order : ∃ placed sorted : List (Binary64 × Item Json),
    placed.map (fun entry => entry.2.id)
        = defaults.keys
          ++ ((log.resolve defaults).keys.filter (· ∉ defaults.keys)).eraseDups
      ∧ (∀ place rank (item : Item Json), placed[place]? = some (rank, item) ->
        item.RanksAt place rank)
      ∧ IsStableSort Prod.fst placed sorted
      ∧ items = sorted.map Prod.snd

/-- The list of all items reports its collection, whatever ops on the root or below it made the
resolved tree, if that is an object. The defaults are an object, which repeats no key. -/
theorem reportsCollection_all (object : defaults.isObject) (distinct : defaults.keys.Nodup)
    (resolvedObject : (log.resolve defaults).isObject) :
    ReportsCollection defaults log (all defaults log) := by
  have reported : ∀ item ∈ all defaults log,
      item = { id := item.id, computed := (log.resolve defaults).get? item.id,
               defaultValue := defaults.get? item.id,
               ops := (OpIndex.ofLog log).opsFor item.id } := fun item member =>
    ((mem_all_iff_of_isObject object resolvedObject).mp member).1
  constructor
  case complete =>
    intro id
    rw [Json.mem_keys_iff, Json.mem_keys_iff]
    constructor
    · rintro ⟨item, member, rfl⟩
      exact mem_collectionIds.mp (mem_all.mp member).1
    · intro known
      refine ⟨⟨id, (log.resolve defaults).get? id, defaults.get? id,
        (OpIndex.ofLog log).opsFor id⟩, ?_, rfl⟩
      exact (mem_all_iff_of_isObject object resolvedObject).mpr ⟨rfl, known.symm⟩
  case once => exact nodup_ids_all distinct log
  case computed => exact fun item member => congrArg Item.computed (reported item member)
  case defaultValue => exact fun item member => congrArg Item.defaultValue (reported item member)
  case ops =>
    exact fun item member =>
      (congrArg Item.ops (reported item member)).trans (opsFor_ofLog_eq log item.id)
  case order =>
    refine ⟨ranked defaults log, _, ?_, ?_, isStableSort_mergeSort Prod.fst _, rfl⟩
    · rw [ranked_eq_map object resolvedObject, List.map_map, ← collectionIds_eq_append]
      exact List.zipIdx_map_fst 0 _
    · intro place rank item found
      rw [ranked_eq_map object resolvedObject, List.getElem?_map, List.getElem?_zipIdx] at found
      obtain ⟨id, -, same⟩ := Option.map_eq_some_iff.mp (Option.map_map .. ▸ found)
      simp only [Function.comp_apply, Nat.zero_add, Prod.mk.injEq] at same
      obtain ⟨rfl, rfl⟩ := same
      exact ranksAt_orderRank _ place

/-- A collection that an op on the root replaced by another object: one item is deleted, one is
kept, and one is made by a later op under an index. -/
def replacedItems : Document Json where
  defaults := .object [("gone", .object [("_rank", Json.ofNat 1)]), ("kept", .object [])]
  log := [.set "o1" [] (.object [("kept", .object [("_rank", Json.ofNat 3)])]),
    .set "o2" [.index 7, .key "name"] (.string "Seven")]

/-- All three are reported, the deleted one with the op on the root alone. -/
theorem reportsCollection_replacedItems :
    (∃ item ∈ replacedItems.items, item.id = "gone" ∧ item.computed = none
        ∧ item.ops.map Op.id = ["o1"])
      ∧ (∃ item ∈ replacedItems.items, item.id = "7" ∧ item.defaultValue = none
        ∧ item.computed = some (.object [("name", .string "Seven")])
        ∧ item.ops.map Op.id = ["o1", "o2"])
      ∧ (replacedItems.items.map Item.id).Nodup := by
  have report : ReportsCollection replacedItems.defaults replacedItems.log replacedItems.items :=
    reportsCollection_all (by decide) (by decide) (by decide)
  obtain ⟨gone, goneMember, goneId⟩ := (report.complete "gone").mpr (by decide)
  obtain ⟨seven, sevenMember, sevenId⟩ := (report.complete "7").mpr (by decide)
  refine ⟨⟨gone, goneMember, goneId, ?_, ?_⟩, ⟨seven, sevenMember, sevenId, ?_, ?_, ?_⟩,
    report.once⟩
  · rw [report.computed gone goneMember, goneId]
    decide
  · rw [report.ops gone goneMember, goneId]
    decide
  · rw [report.defaultValue seven sevenMember, sevenId]
    decide
  · rw [report.computed seven sevenMember, sevenId]
    decide
  · rw [report.ops seven sevenMember, sevenId]
    decide

end Item

end LayerRouting
