import LayerRouting.Proofs.Override.Ranks
import Mathlib.Data.List.InsertIdx

/-!
# Moving an item

A move sets the ranks of live items one after the other. Each setting gives one item its new place
as its rank, leaves the ranks of the others and takes no item in or out
(`Draft.TakesPlaces.takePlace`). So at the end every live item holds its new place
(`Draft.takesPlaces_foldl`), and the live items are in the order in which the moved one was taken
out and put back (`Draft.movesItem`). A second move to the same place finds every place held.
-/

namespace LayerRouting

namespace Draft

variable {draft : Draft} {id : String} {place : Nat}

/-! ## The new order -/

/-- Taking out what was put in among others leaves the others. -/
theorem erase_insertIdx_of_new {others : List String} (new : id ∉ others)
    (inside : place ≤ others.length) : (others.insertIdx place id).erase id = others := by
  induction others generalizing place with
  | nil =>
      obtain rfl := Nat.le_zero.mp inside
      rw [List.insertIdx_zero, List.erase_cons_head]
  | cons first rest inductionHypothesis =>
      cases place with
      | zero => rw [List.insertIdx_zero, List.erase_cons_head]
      | succ place =>
          obtain ⟨distinct, later⟩ := not_or.mp (mt List.mem_cons.mpr new)
          rw [List.insertIdx_succ_cons, List.erase_cons_tail (by simpa using Ne.symm distinct),
            inductionHypothesis later (Nat.le_of_succ_le_succ inside)]

/-- The live items with one of them taken out and put back at a place. A place beyond the end is
the end. -/
def movedIds (draft : Draft) (id : String) (place : Nat) : List String :=
  (draft.liveIds.erase id).insertIdx (min place (draft.liveIds.length - 1)) id

/-- The place of a moved item is one of the places among the others. -/
theorem place_le_length_erase (live : id ∈ draft.liveIds) :
    min place (draft.liveIds.length - 1) ≤ (draft.liveIds.erase id).length := by
  rw [List.length_erase_of_mem live]
  exact Nat.min_le_right _ _

theorem perm_movedIds (live : id ∈ draft.liveIds) :
    draft.liveIds.Perm (draft.movedIds id place) :=
  (List.perm_cons_erase live).trans (List.perm_insertIdx id _ (place_le_length_erase live)).symm

/-- Where the live items are in the new order, the same move leads to the same order. -/
theorem movedIds_of_liveIds_eq {moved : Draft} (distinct : draft.liveIds.Nodup)
    (live : id ∈ draft.liveIds) (order : moved.liveIds = draft.movedIds id place) :
    moved.movedIds id place = draft.movedIds id place := by
  have length : moved.liveIds.length = draft.liveIds.length :=
    order ▸ (perm_movedIds live).length_eq.symm
  have others : moved.liveIds.erase id = draft.liveIds.erase id := by
    rw [order, movedIds]
    exact erase_insertIdx_of_new distinct.not_mem_erase (place_le_length_erase live)
  rw [movedIds, others, length, movedIds]

/-- The live items with their new places, as a move goes through them. -/
theorem newPlaces_of_live (object : draft.defaults.isObject) (belowRoot : draft.log.IsBelowRoot)
    (live : id ∈ draft.liveIds) :
    draft.newPlaces id place
      = (draft.movedIds id place).zipIdx.map fun entry =>
          ((entry.1, draft.rankOf? entry.1), entry.2) := by
  have ranks := liveRanks_eq_map object belowRoot
  have first : draft.liveIds.find? (fun other => other = id) = some id := by
    obtain ⟨other, found⟩ : ∃ other, draft.liveIds.find? (fun other => other = id) = some other :=
      Option.isSome_iff_exists.mp (List.find?_isSome.mpr ⟨id, live, decide_eq_true rfl⟩)
    have same : other = id := by simpa using List.find?_some found
    rw [found, same]
  have found : draft.liveRanks.find? (fun entry => entry.1 = id)
      = some (id, draft.rankOf? id) := by
    rw [ranks, List.find?_map]
    exact congrArg (Option.map fun other => (other, draft.rankOf? other)) first
  have others : draft.liveRanks.eraseP (fun entry => entry.1 = id)
      = (draft.liveIds.erase id).map fun other => (other, draft.rankOf? other) := by
    rw [ranks, List.eraseP_map, List.erase_eq_eraseP']
    rfl
  rw [newPlaces, found]
  simp only [others, List.length_map, List.length_erase_of_mem live]
  rw [← List.map_insertIdx (fun other => (other, draft.rankOf? other)), List.zipIdx_map, movedIds]
  rfl

/-! ## Taking the places -/

/-- Gives an item its new place as its rank, unless its old rank was that place already. -/
def takePlace (draft current : Draft) (entry : String × Nat) : Draft :=
  if hasRank (draft.rankOf? entry.1) entry.2 then current
  else current.setField entry.1 [.key Item.rankField] (Json.ofNat entry.2)

theorem moveItem_of_live (object : draft.defaults.isObject) (belowRoot : draft.log.IsBelowRoot)
    (live : id ∈ draft.liveIds) :
    draft.moveItem id place = (draft.movedIds id place).zipIdx.foldl draft.takePlace draft := by
  rw [moveItem_eq_foldl, newPlaces_of_live object belowRoot live, List.foldl_map]
  rfl

theorem moveItem_of_not_live (absent : id ∉ draft.liveIds) (object : draft.defaults.isObject)
    (belowRoot : draft.log.IsBelowRoot) : draft.moveItem id place = draft := by
  have missing : draft.liveRanks.find? (fun entry => entry.1 = id) = none := by
    rw [liveRanks_eq_map object belowRoot, List.find?_eq_none]
    rintro entry member same
    obtain ⟨other, live, rfl⟩ := List.mem_map.mp member
    exact absent (of_decide_eq_true same ▸ live)
  rw [moveItem_eq_foldl, newPlaces, missing]
  rfl

/-- Live items that hold the places of the new order are not moved. -/
theorem moveItem_of_holdPlaces (object : draft.defaults.isObject)
    (belowRoot : draft.log.IsBelowRoot) (live : id ∈ draft.liveIds)
    (held : draft.HoldPlaces (draft.movedIds id place)) : draft.moveItem id place = draft := by
  rw [moveItem_of_live object belowRoot live]
  refine List.foldlRecOn (motive := fun current => current = draft) _ _ rfl ?_
  rintro current rfl entry member
  exact if_pos (held entry member)

/-- What a move has done when it went through some of the new places. -/
structure TakesPlaces (draft current : Draft) (entries : List (String × Nat)) : Prop where
  /-- The defaults are the same. -/
  defaults : current.defaults = draft.defaults
  /-- No op is on the root. -/
  belowRoot : current.log.IsBelowRoot
  /-- Items with other ids are as they were. -/
  others : ∀ other ∉ entries.map Prod.fst, current.resolved.get? other = draft.resolved.get? other
  /-- No item was taken in or out. -/
  live : ∀ other, (current.resolved.get? other).isSome = (draft.resolved.get? other).isSome
  /-- The items hold their new places as ranks. -/
  held : ∀ entry ∈ entries, hasRank (current.rankOf? entry.1) entry.2

theorem isName_rankField : Segment.IsName Item.rankField :=
  Segment.isName_of_head rfl (by decide) (by decide)

/-- An item whose rank is set to a place is live and holds the place. -/
theorem hasRank_setField (object : draft.defaults.isObject) (belowRoot : draft.log.IsBelowRoot)
    (id : String) (place : Nat) :
    let ranked := draft.setField id [.key Item.rankField] (Json.ofNat place)
    (ranked.resolved.get? id).isSome ∧ hasRank (ranked.rankOf? id) place := by
  intro ranked
  have reads := (fieldSet_setField object belowRoot id isName_rankField (Json.ofNat place)).reads
  obtain ⟨rank, read⟩ := Option.isSome_iff_exists.mp reads.isSome_eq
  rw [read, Json.SameAt.some_some] at reads
  obtain ⟨value, present, member⟩ := Option.bind_eq_some_iff.mp read
  rw [rankOf?, present, Option.bind_some, Item.rank?, member, Option.bind_some]
  exact ⟨rfl, Item.hasRank_of_same reads⟩

/-- Setting the rank of an item leaves the others as they are. -/
theorem get?_setField_rankField (object : draft.defaults.isObject)
    (belowRoot : draft.log.IsBelowRoot) {id other : String} (distinct : other ≠ id) (rank : Json) :
    (draft.setField id [.key Item.rankField] rank).resolved.get? other
      = draft.resolved.get? other :=
  ((fieldSet_setField object belowRoot id isName_rankField rank).agree.items other distinct).symm

/-- One more item that was not there yet takes its place. -/
theorem TakesPlaces.takePlace {current : Draft} {entries : List (String × Nat)}
    (takes : draft.TakesPlaces current entries) (object : draft.defaults.isObject)
    {entry : String × Nat} (new : entry.1 ∉ entries.map Prod.fst)
    (live : (draft.resolved.get? entry.1).isSome) :
    draft.TakesPlaces (draft.takePlace current entry) (entries ++ [entry]) := by
  obtain ⟨id, place⟩ := entry
  have apart : ∀ other ∉ (entries ++ [(id, place)]).map Prod.fst,
      other ∉ entries.map Prod.fst ∧ other ≠ id := by
    simp [not_or]
  rw [Draft.takePlace]
  split
  · next kept =>
      have held : hasRank (current.rankOf? id) place := by
        rwa [rankOf?, takes.others id new]
      exact ⟨takes.defaults, takes.belowRoot, fun other absent =>
        takes.others other (apart other absent).1, takes.live,
        List.forall_mem_append.mpr ⟨takes.held, List.forall_mem_singleton.mpr held⟩⟩
  · have keyed : current.defaults.isObject := takes.defaults ▸ object
    obtain ⟨present, held⟩ := hasRank_setField keyed takes.belowRoot id place
    have same : ∀ other ≠ id, (current.setField id [.key Item.rankField]
        (Json.ofNat place)).resolved.get? other = current.resolved.get? other :=
      fun other distinct => get?_setField_rankField keyed takes.belowRoot distinct _
    refine ⟨(defaults_setPath _ _ _).trans takes.defaults,
      isBelowRoot_setPath takes.belowRoot (List.cons_ne_nil _ _) _, ?_, ?_, ?_⟩
    · intro other absent
      obtain ⟨unlisted, distinct⟩ := apart other absent
      rw [same other distinct, takes.others other unlisted]
    · intro other
      by_cases distinct : other = id
      · rw [distinct, present, live]
      · rw [same other distinct, takes.live other]
    · refine List.forall_mem_append.mpr
        ⟨fun earlier listed => ?_, List.forall_mem_singleton.mpr held⟩
      have known : earlier.1 ∈ entries.map Prod.fst := List.mem_map_of_mem listed
      have distinct : earlier.1 ≠ id := fun named => new (named ▸ known)
      rw [rankOf?, same _ distinct]
      exact takes.held earlier listed

/-- A move gives every live item its new place as its rank, and does nothing else to the order. -/
theorem takesPlaces_foldl (object : draft.defaults.isObject) (belowRoot : draft.log.IsBelowRoot)
    {entries : List (String × Nat)} (distinct : (entries.map Prod.fst).Nodup)
    (live : ∀ entry ∈ entries, (draft.resolved.get? entry.1).isSome) :
    draft.TakesPlaces (entries.foldl draft.takePlace draft) entries := by
  induction entries using List.reverseRecOn with
  | nil =>
      exact ⟨rfl, belowRoot, fun _ _ => rfl, fun _ => rfl, List.forall_mem_nil _⟩
  | append_singleton earlier entry inductionHypothesis =>
      rw [List.map_append, List.nodup_append] at distinct
      obtain ⟨earlierDistinct, -, apart⟩ := distinct
      obtain ⟨earlierLive, entryLive⟩ := List.forall_mem_append.mp live
      rw [List.foldl_append]
      refine (inductionHypothesis earlierDistinct earlierLive).takePlace object (fun listed => ?_)
        (entryLive entry List.mem_cons_self)
      exact apart _ listed _ List.mem_cons_self rfl

/-- After a move of a live item all live items hold their new places. -/
theorem takesPlaces_moveItem (object : draft.defaults.isObject)
    (belowRoot : draft.log.IsBelowRoot) (distinct : draft.defaults.keys.Nodup)
    (live : id ∈ draft.liveIds) :
    draft.TakesPlaces (draft.moveItem id place) (draft.movedIds id place).zipIdx := by
  have listed : (draft.movedIds id place).zipIdx.map Prod.fst = draft.movedIds id place :=
    List.zipIdx_map_fst 0 _
  rw [moveItem_of_live object belowRoot live]
  refine takesPlaces_foldl object belowRoot ?_ fun entry member => ?_
  · rw [listed]
    exact (perm_movedIds live).nodup (nodup_liveIds distinct)
  · have known : entry.1 ∈ draft.movedIds id place := List.fst_mem_of_mem_zipIdx member
    exact (mem_liveIds object belowRoot).mp ((perm_movedIds live).mem_iff.mpr known)

namespace TakesPlaces

variable {current : Draft} {entries : List (String × Nat)}

/-- The items that are live stay the same ones. -/
theorem mem_liveIds_iff (takes : draft.TakesPlaces current entries)
    (object : draft.defaults.isObject) (belowRoot : draft.log.IsBelowRoot) (other : String) :
    other ∈ current.liveIds ↔ other ∈ draft.liveIds := by
  rw [mem_liveIds (takes.defaults ▸ object) takes.belowRoot, mem_liveIds object belowRoot,
    takes.live other]

/-- The items that are deleted stay the same ones. -/
theorem mem_deletedIds_iff (takes : draft.TakesPlaces current entries)
    (object : draft.defaults.isObject) (belowRoot : draft.log.IsBelowRoot) (other : String) :
    other ∈ current.deletedIds ↔ other ∈ draft.deletedIds := by
  rw [mem_deletedIds (takes.defaults ▸ object) takes.belowRoot, mem_deletedIds object belowRoot,
    takes.defaults, ← Option.not_isSome_iff_eq_none, ← Option.not_isSome_iff_eq_none,
    takes.live other]

/-- When all live items took the places of the new order, they are in that order. -/
theorem liveIds_eq (takes : draft.TakesPlaces current (draft.movedIds id place).zipIdx)
    (object : draft.defaults.isObject) (belowRoot : draft.log.IsBelowRoot)
    (distinct : draft.defaults.keys.Nodup) (live : id ∈ draft.liveIds)
    (exactRanks : draft.RanksAreExact) : current.liveIds = draft.movedIds id place := by
  have currentDistinct : current.liveIds.Nodup := nodup_liveIds (takes.defaults ▸ distinct)
  have same : current.liveIds.Perm draft.liveIds :=
    (List.perm_ext_iff_of_nodup currentDistinct (nodup_liveIds distinct)).mpr
      (takes.mem_liveIds_iff object belowRoot)
  exact liveIds_eq_of_holdPlaces (takes.defaults ▸ object) takes.belowRoot
    (same.trans (perm_movedIds live)) takes.held (fun position inside =>
      exactRanks position (same.length_eq ▸ inside))

/-- When all live items took the places of the new order, the same move changes nothing. -/
theorem moveItem_eq_self (takes : draft.TakesPlaces current (draft.movedIds id place).zipIdx)
    (object : draft.defaults.isObject) (belowRoot : draft.log.IsBelowRoot)
    (distinct : draft.defaults.keys.Nodup) (live : id ∈ draft.liveIds)
    (exactRanks : draft.RanksAreExact) : current.moveItem id place = current := by
  have order := takes.liveIds_eq object belowRoot distinct live exactRanks
  refine moveItem_of_holdPlaces (takes.defaults ▸ object) takes.belowRoot
    ((takes.mem_liveIds_iff object belowRoot id).mpr live) ?_
  rw [movedIds_of_liveIds_eq (nodup_liveIds distinct) live order]
  exact takes.held

end TakesPlaces

/-! ## Moves -/

/-- What a move of an item to a place promises of a draft. -/
structure MovesItem (draft : Draft) (id : String) (place : Nat) : Prop where
  /-- The live items are in the order in which the item was taken out and put back, if their
  positions are ranks as they are. -/
  order : draft.RanksAreExact -> id ∈ draft.liveIds ->
    (draft.moveItem id place).liveIds
      = (draft.liveIds.erase id).insertIdx (min place (draft.liveIds.length - 1)) id
  /-- No item becomes live or stops being it. -/
  live : ∀ other, other ∈ (draft.moveItem id place).liveIds ↔ other ∈ draft.liveIds
  /-- No item becomes deleted or stops being it. -/
  deleted : ∀ other, other ∈ (draft.moveItem id place).deletedIds ↔ other ∈ draft.deletedIds
  /-- The same move on the log that it left changes nothing, whatever ids are handed out. -/
  again : draft.RanksAreExact -> ∀ supply,
    (moveItem ⟨draft.defaults, (draft.moveItem id place).log, supply⟩ id place).log
      = (draft.moveItem id place).log
  /-- An id that is not live is not moved. -/
  absent : id ∉ draft.liveIds -> (draft.moveItem id place).log = draft.log

/-- A move keeps its promises in a collection of object defaults whose log has no op on the
root. -/
theorem movesItem (object : draft.defaults.isObject) (distinct : draft.defaults.keys.Nodup)
    (belowRoot : draft.log.IsBelowRoot) (id : String) (place : Nat) : draft.MovesItem id place := by
  by_cases live : id ∈ draft.liveIds
  · have takes : draft.TakesPlaces (draft.moveItem id place) (draft.movedIds id place).zipIdx :=
      takesPlaces_moveItem object belowRoot distinct live
    refine ⟨fun exactRanks _ => takes.liveIds_eq object belowRoot distinct live exactRanks,
      takes.mem_liveIds_iff object belowRoot, takes.mem_deletedIds_iff object belowRoot,
      fun exactRanks supply => ?_, absurd live⟩
    -- The draft that is moved again differs from the moved one in its ids for new ops only.
    have moved : draft.TakesPlaces ⟨draft.defaults, (draft.moveItem id place).log, supply⟩
        (draft.movedIds id place).zipIdx := by
      rw [← takes.defaults]
      exact ⟨takes.defaults, takes.belowRoot, takes.others, takes.live, takes.held⟩
    rw [moved.moveItem_eq_self object belowRoot distinct live exactRanks]
  · have same : ∀ supply, moveItem ⟨draft.defaults, draft.log, supply⟩ id place
        = ⟨draft.defaults, draft.log, supply⟩ :=
      fun supply => moveItem_of_not_live live object belowRoot
    have kept : draft.moveItem id place = draft := same draft.supply
    refine ⟨fun _ member => absurd member live, fun _ => by rw [kept], fun _ => by rw [kept],
      fun _ supply => ?_, fun _ => by rw [kept]⟩
    rw [kept, same]

/-- A draft of four items, the second of which is deleted and the last two of which have ranks that
leave gaps. -/
def ofShelf : Draft where
  defaults := .object [("a", .object [("_rank", Json.ofNat 0)]), ("b", .object []),
    ("c", .object [("_rank", Json.ofNat 5)]), ("d", .object [])]
  log := [.delete "o1" [.key "b"], .set "o2" [.key "d", .key "_rank"] (Json.ofNat 7)]
  supply := ⟨0⟩

/-- The last item is moved to the middle, again to the same place, and the deleted one is not. -/
theorem movesItem_ofShelf :
    (ofShelf.moveItem "d" 1).liveIds = ["a", "d", "c"]
      ∧ (moveItem ⟨ofShelf.defaults, (ofShelf.moveItem "d" 1).log, ⟨9⟩⟩ "d" 1).log
        = (ofShelf.moveItem "d" 1).log
      ∧ (ofShelf.moveItem "b" 0).log = ofShelf.log := by
  have moves : ∀ id place, ofShelf.MovesItem id place :=
    movesItem (by decide) (by decide) (by decide)
  have live : ofShelf.liveIds = ["a", "c", "d"] := by
    rw [liveIds, Item.all_of_ordered (by decide +kernel)]
    decide +kernel
  have exactRanks : ofShelf.RanksAreExact := ranksAreExact_of_length_le (by rw [live]; decide)
  have middle := (moves "d" 1).order exactRanks (by rw [live]; decide)
  rw [live] at middle
  exact ⟨middle, (moves "d" 1).again exactRanks ⟨9⟩, (moves "b" 0).absent (by rw [live]; decide)⟩

end Draft

end LayerRouting
