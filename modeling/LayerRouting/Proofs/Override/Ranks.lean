import LayerRouting.Proofs.Number.WholeNumbers
import LayerRouting.Proofs.Override.ItemOps

/-!
# Ranks of live items

The items of a collection are in the order of their ranks (`Item.pairwise_all`). A position is a
rank exactly when no rounding is needed for it, as for the positions below `2 ^ 53`
(`Item.rankIsExact_of_lt`). Live items that hold the positions of a list as exact ranks are in the
order of the list, wherever deleted items stand and whatever ranks these have
(`Draft.liveIds_eq_of_holdPlaces`).
-/

namespace LayerRouting

/-! ## The number of a position -/

theorem WordInt.val_of_ofInt? {value : Int} {whole : WordInt} (found : ofInt? value = some whole) :
    whole.val = value := by
  rw [ofInt?] at found
  split at found
  · exact congrArg WordInt.val (Option.some.inj found).symm
  · cases found

/-- Equal numbers are numerically equal. -/
theorem Number.unsignedZero_toBinary64_congr {left right : Number}
    (same : left.unsignedZero = right.unsignedZero) :
    left.toBinary64.unsignedZero = right.toBinary64.unsignedZero := by
  cases left <;> cases right <;> simp_all [unsignedZero, toBinary64]

namespace Json

/-- The number of a natural number: a whole number if it fits, else the nearest binary64 one. -/
theorem ofNat_eq_elim (value : Nat) :
    ofNat value = (WordInt.ofInt? value).elim
      (float ((Binary64.ofInt? value).getD .zero)) int := by
  -- Unfolding at an argument would make the kernel compare it with the bounds of a word.
  have function : ofNat = fun value : Nat => (WordInt.ofInt? value).elim
      (float ((Binary64.ofInt? value).getD .zero)) int := by
    delta ofNat
    funext value
    generalize WordInt.ofInt? value = whole
    cases whole <;> rfl
  exact congrFun function value

/-- Only a number is the same as a number. -/
theorem exists_of_same_number {value : Json} {number : Number}
    (same : value.Same (.number number)) :
    ∃ other, value = .number other ∧ other.unsignedZero = number.unsignedZero := by
  cases value <;> simp_all [Same, canonical]

end Json

/-! ## Positions as ranks -/

namespace Item

/-- Whether a position is a rank as it is, without rounding. -/
def RankIsExact (position : Nat) : Prop :=
  (positionRank position).magnitude = position

theorem rankIsExact_of_lt {position : Nat} (fits : position < 2 ^ 53) : RankIsExact position := by
  obtain ⟨rank, found, whole⟩ := Binary64.exists_ofInt?_of_lt fits
  rw [RankIsExact, positionRank, found]
  exact whole

theorem negative_positionRank (position : Nat) : (positionRank position).negative = false := by
  rw [positionRank, Binary64.ofInt?, Binary64.ofRatio?]
  split <;> simp [Binary64.zero]

/-- A rank holds a position when both are one number. -/
theorem hasRank_some_iff {rank : Binary64} {position : Nat} :
    Draft.hasRank (some rank) position
      ↔ rank.unsignedZero = (positionRank position).unsignedZero := by
  rw [Draft.hasRank, Option.any_some, decide_eq_true_iff]

/-- Ranks that are exact positions are in the order of the positions. -/
theorem orderKey_lt_of_hasRank {left right : Binary64} {first second : Nat}
    (leftHeld : Draft.hasRank (some left) first) (rightHeld : Draft.hasRank (some right) second)
    (firstExact : RankIsExact first) (secondExact : RankIsExact second) (less : first < second) :
    left.orderKey < right.orderKey := by
  have leftSame := hasRank_some_iff.mp leftHeld
  have rightSame := hasRank_some_iff.mp rightHeld
  have places : (positionRank first).place < (positionRank second).place := by
    refine Binary64.place_lt_of_magnitude_lt ?_
    rw [firstExact, secondExact]
    exact_mod_cast less
  have leftPlace : left.place = (positionRank first).place := by
    rw [← Binary64.place_unsignedZero left, leftSame, Binary64.place_unsignedZero]
  calc left.orderKey ≤ left.place := left.orderKey_le_place
    _ < (positionRank second).place := by exact_mod_cast leftPlace.trans_lt places
    _ = right.orderKey := (Binary64.orderKey_of_positive rightSame (negative_positionRank second)
        (Nat.zero_lt_of_lt places)).symm

/-- The number of a position has the position's rank. -/
theorem exists_ofNat (position : Nat) :
    ∃ number, Json.ofNat position = .number number
      ∧ number.toBinary64 = positionRank position := by
  rw [Json.ofNat_eq_elim]
  cases found : WordInt.ofInt? position with
  | none => exact ⟨.float (positionRank position), by rw [positionRank, Option.elim, Json.float],
      by rw [Number.toBinary64]⟩
  | some whole =>
      refine ⟨.int whole, rfl, ?_⟩
      rw [Number.toBinary64, WordInt.toBinary64, WordInt.val_of_ofInt? found, positionRank]

/-- A value that is the same as a position's number holds the position as its rank. -/
theorem hasRank_of_same {value : Json} {position : Nat}
    (same : value.Same (Json.ofNat position)) : Draft.hasRank value.asBinary64? position := by
  obtain ⟨number, ofNat, rank⟩ := exists_ofNat position
  obtain ⟨other, rfl, equal⟩ := Json.exists_of_same_number (ofNat ▸ same)
  rw [Json.asBinary64?, hasRank_some_iff, ← rank]
  exact Number.unsignedZero_toBinary64_congr equal

/-! ## The order of all items -/

/-- The items of a collection are in the order of their ranks. -/
theorem pairwise_all (defaults : Json) (log : Log) :
    (all defaults log).Pairwise fun left right => ∃ first second,
      (left.orderRank first).orderKey ≤ (right.orderRank second).orderKey := by
  have sorted : ((ranked defaults log).mergeSort fun left right =>
      left.1.orderKey ≤ right.1.orderKey).Pairwise fun left right =>
        left.1.orderKey ≤ right.1.orderKey :=
    (List.pairwise_mergeSort (Binary64.decide_orderKey_le_trans Prod.fst)
      (Binary64.decide_orderKey_le_total Prod.fst) (ranked defaults log)).imp of_decide_eq_true
  have atPosition : ∀ entry ∈ ranked defaults log,
      ∃ position, entry.1 = entry.2.orderRank position := by
    rintro ⟨rank, item⟩ member
    obtain ⟨⟨id, position⟩, -, reported⟩ := List.mem_filterMap.mp member
    obtain ⟨_, -, same⟩ := Option.map_eq_some_iff.mp reported
    cases same
    exact ⟨position, rfl⟩
  change (((ranked defaults log).mergeSort fun left right =>
    left.1.orderKey ≤ right.1.orderKey).map Prod.snd).Pairwise _
  rw [List.pairwise_map]
  refine sorted.imp_of_mem fun {left right} leftMember rightMember order => ?_
  obtain ⟨first, leftRank⟩ := atPosition left (List.mem_mergeSort.mp leftMember)
  obtain ⟨second, rightRank⟩ := atPosition right (List.mem_mergeSort.mp rightMember)
  exact ⟨first, second, leftRank ▸ rightRank ▸ order⟩

end Item

namespace Draft

variable {draft : Draft}

/-! ## Live items -/

/-- The ids of the live items, in order. -/
def liveIds (draft : Draft) : List String :=
  ((Item.all draft.defaults draft.log).filter fun item => !item.isDeleted).map Item.id

/-- The ids of the deleted items, in order. -/
def deletedIds (draft : Draft) : List String :=
  ((Item.all draft.defaults draft.log).filter Item.isDeleted).map Item.id

/-- The rank that an item's value in the resolved tree holds. -/
def rankOf? (draft : Draft) (id : String) : Option Binary64 :=
  (draft.resolved.get? id).bind Item.rank?

/-- The live items are those that the resolved tree has. -/
theorem mem_liveIds (object : draft.defaults.isObject) (belowRoot : draft.log.IsBelowRoot)
    {id : String} : id ∈ draft.liveIds ↔ (draft.resolved.get? id).isSome := by
  simp only [liveIds, List.mem_map, List.mem_filter, Item.mem_all_iff object belowRoot]
  constructor
  · rintro ⟨item, ⟨⟨reported, -⟩, live⟩, rfl⟩
    rw [reported] at live
    simpa [Item.isDeleted, resolved] using live
  · intro live
    refine ⟨⟨id, draft.resolved.get? id, draft.defaults.get? id,
      (OpIndex.ofLog draft.log).opsFor id⟩, ⟨⟨rfl, .inl live⟩, ?_⟩, rfl⟩
    simpa [Item.isDeleted] using live

/-- The deleted items are those that the defaults have and the resolved tree lacks. -/
theorem mem_deletedIds (object : draft.defaults.isObject) (belowRoot : draft.log.IsBelowRoot)
    {id : String} :
    id ∈ draft.deletedIds ↔ (draft.defaults.get? id).isSome ∧ draft.resolved.get? id = none := by
  simp only [deletedIds, List.mem_map, List.mem_filter, Item.mem_all_iff object belowRoot]
  constructor
  · rintro ⟨item, ⟨⟨reported, present⟩, deleted⟩, rfl⟩
    rw [reported] at present deleted
    simp only [Item.isDeleted, Option.isNone_iff_eq_none] at deleted
    exact ⟨by simpa [deleted] using present, deleted⟩
  · rintro ⟨default, missing⟩
    refine ⟨⟨id, draft.resolved.get? id, draft.defaults.get? id,
      (OpIndex.ofLog draft.log).opsFor id⟩, ⟨⟨rfl, .inr default⟩, ?_⟩, rfl⟩
    simpa [Item.isDeleted] using missing

theorem nodup_liveIds (distinct : draft.defaults.keys.Nodup) : draft.liveIds.Nodup :=
  (Item.nodup_ids_all distinct draft.log).sublist (List.filter_sublist.map Item.id)

/-- The live items with the ranks that they hold. -/
theorem liveRanks_eq_map (object : draft.defaults.isObject) (belowRoot : draft.log.IsBelowRoot) :
    draft.liveRanks = draft.liveIds.map fun id => (id, draft.rankOf? id) := by
  have held : ∀ item ∈ Item.all draft.defaults draft.log,
      draft.resolved.get? item.id = item.computed := by
    intro item member
    rw [((Item.mem_all_iff object belowRoot).mp member).1]
    rfl
  rw [liveRanks, liveIds, List.map_map, ← List.filterMap_eq_map, List.filterMap_filter]
  refine List.filterMap_congr fun item member => ?_
  cases live : item.computed <;> simp [Item.isDeleted, live, rankOf?, held item member]

/-! ## Places held as ranks -/

/-- Whether every id of a list is a live item with its position in the list as its rank. -/
def HoldPlaces (draft : Draft) (ids : List String) : Prop :=
  ∀ entry ∈ ids.zipIdx, hasRank (draft.rankOf? entry.1) entry.2

/-- Whether every position among the live items is a rank as it is. -/
def RanksAreExact (draft : Draft) : Prop :=
  ∀ position < draft.liveIds.length, Item.RankIsExact position

/-- Up to `2 ^ 53` live items their positions are ranks as they are. -/
theorem ranksAreExact_of_length_le (few : draft.liveIds.length ≤ 2 ^ 53) : draft.RanksAreExact :=
  fun _ inside => Item.rankIsExact_of_lt (inside.trans_le few)

/-- The key by which a live item with a rank is ordered. -/
def rankKey (draft : Draft) (id : String) : Int :=
  ((draft.rankOf? id).getD .zero).orderKey

/-- Live items that all have ranks are in the order of these. -/
theorem pairwise_liveIds (object : draft.defaults.isObject) (belowRoot : draft.log.IsBelowRoot)
    (ranks : ∀ id ∈ draft.liveIds, (draft.rankOf? id).isSome) :
    draft.liveIds.Pairwise fun left right => draft.rankKey left ≤ draft.rankKey right := by
  have own : ∀ item ∈ (Item.all draft.defaults draft.log).filter fun item => !item.isDeleted,
      ∀ position, (item.orderRank position).orderKey = draft.rankKey item.id := by
    intro item member position
    obtain ⟨rank, held⟩ := Option.isSome_iff_exists.mp (ranks item.id (List.mem_map_of_mem member))
    obtain ⟨listed, live⟩ := List.mem_filter.mp member
    have computed : item.computed = draft.resolved.get? item.id := by
      rw [((Item.mem_all_iff object belowRoot).mp listed).1]
      rfl
    obtain ⟨value, found⟩ : ∃ value, item.computed = some value := by
      simpa [Item.isDeleted, Option.isSome_iff_exists] using live
    rw [rankKey, held]
    rw [rankOf?, ← computed, found, Option.bind_some] at held
    rw [Item.orderRank, found, Option.some_or, Option.bind_some, held, Option.getD_some,
      Option.getD_some]
  rw [liveIds, List.pairwise_map]
  refine ((Item.pairwise_all draft.defaults draft.log).filter _).imp_of_mem
    fun {left right} leftMember rightMember order => ?_
  obtain ⟨first, second, le⟩ := order
  rwa [own left leftMember, own right rightMember] at le

namespace HoldPlaces

variable {ids : List String}

theorem hasRank (held : draft.HoldPlaces ids) {place : Nat} (inside : place < ids.length) :
    hasRank (draft.rankOf? ids[place]) place :=
  held (ids[place], place) (List.mem_zipIdx_iff_getElem?.mpr (List.getElem?_eq_getElem inside))

theorem isSome_rankOf? (held : draft.HoldPlaces ids) {id : String} (member : id ∈ ids) :
    (draft.rankOf? id).isSome := by
  obtain ⟨place, inside, rfl⟩ := List.getElem_of_mem member
  exact Option.isSome_of_any (held.hasRank inside)

/-- Items that hold exact places are ordered by them. -/
theorem rankKey_lt (held : draft.HoldPlaces ids)
    (exactRanks : ∀ position < ids.length, Item.RankIsExact position) {first second : Nat}
    (order : first < second) (inside : second < ids.length) :
    draft.rankKey ids[first] < draft.rankKey ids[second] := by
  have firstInside := order.trans inside
  have firstHeld := held.hasRank firstInside
  have secondHeld := held.hasRank inside
  obtain ⟨left, leftRank⟩ := Option.isSome_iff_exists.mp (Option.isSome_of_any firstHeld)
  obtain ⟨right, rightRank⟩ := Option.isSome_iff_exists.mp (Option.isSome_of_any secondHeld)
  rw [leftRank] at firstHeld
  rw [rightRank] at secondHeld
  rw [rankKey, rankKey, leftRank, rightRank]
  exact Item.orderKey_lt_of_hasRank firstHeld secondHeld (exactRanks first firstInside)
    (exactRanks second inside) order

end HoldPlaces

/-- The live items are in the order of a list when they hold its positions as exact ranks. -/
theorem liveIds_eq_of_holdPlaces (object : draft.defaults.isObject)
    (belowRoot : draft.log.IsBelowRoot) {ids : List String} (listed : draft.liveIds.Perm ids)
    (held : draft.HoldPlaces ids) (exactRanks : draft.RanksAreExact) : draft.liveIds = ids := by
  have strict : ids.Pairwise fun left right => draft.rankKey left < draft.rankKey right :=
    List.pairwise_iff_getElem.mpr fun _ _ _ inside order =>
      held.rankKey_lt (listed.length_eq ▸ exactRanks) order inside
  have distinct : (ids.map draft.rankKey).Nodup := List.pairwise_map.mpr (strict.imp ne_of_lt)
  have sorted := pairwise_liveIds object belowRoot fun id member =>
    held.isSome_rankOf? (listed.mem_iff.mp member)
  -- Both lists are sorted by the keys, and no two ids have one key.
  refine listed.eq_of_pairwise ?_ sorted (strict.imp le_of_lt)
  intro left right leftMember rightMember le ge
  exact List.inj_on_of_nodup_map distinct (listed.mem_iff.mp leftMember) rightMember
    (le_antisymm le ge)

end Draft

end LayerRouting
