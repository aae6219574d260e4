import LayerRouting.Proofs.Override.KeyOrder

/-!
# The order of items

The ids of a collection are the keys of its defaults, in their order, and then the new keys of
the resolved tree. Setting a field of an item drops the older ops on the field and adds a new one
at the end. It leaves all ids in their places if the defaults have the item or no op on the field
made it (`Draft.collectionIds_setField`), and no op on the field makes it then
(`Draft.settled_setField`).

Items are sorted by their ranks, and items of one rank by the places of their ids. So the order
of the items is determined by the places and the ranks (`Document.map_id_items_congr`).
-/

namespace LayerRouting

namespace Item

/-! ## Order of ids and ranks -/

/-- Where an id is among the first ones, its place among those that are added does not matter. -/
theorem foldl_addId_filter {ids : List String} {id : String} (known : id ∈ ids)
    {added : List String} : (added.filter (· ≠ id)).foldl addId ids = added.foldl addId ids := by
  induction added generalizing ids with
  | nil => rfl
  | cons first rest inductionHypothesis =>
      rw [List.foldl_cons]
      by_cases same : first = id
      · rw [List.filter_cons_of_neg (by simpa using same), addId, if_pos (same ▸ known)]
        exact inductionHypothesis known
      · rw [List.filter_cons_of_pos (by simpa using same), List.foldl_cons]
        refine inductionHypothesis ?_
        rw [addId]
        split
        · exact known
        · exact List.mem_append_left _ known

/-- The items of a collection in order, by ranks and ids alone. -/
theorem map_id_all (defaults : Json) (log : Log) :
    (all defaults log).map Item.id
      = (((ranked defaults log).map fun entry => (entry.1, entry.2.id)).mergeSort
          fun left right => left.1.orderKey ≤ right.1.orderKey).map Prod.snd := by
  have sorted : ((ranked defaults log).mergeSort fun left right =>
      left.1.orderKey ≤ right.1.orderKey).map (fun entry => (entry.1, entry.2.id))
        = ((ranked defaults log).map fun entry => (entry.1, entry.2.id)).mergeSort
            fun left right => left.1.orderKey ≤ right.1.orderKey :=
    List.map_mergeSort fun _ _ _ _ => rfl
  rw [← sorted, List.map_map]
  exact List.map_map

/-- The ranks and ids of a collection, in the order of the ids. -/
theorem map_ranked (defaults : Json) (log : Log) :
    (ranked defaults log).map (fun entry => (entry.1, entry.2.id))
      = (collectionIds defaults (log.resolve defaults)).zipIdx.filterMap fun (id, position) =>
          ((report? defaults (log.resolve defaults) (OpIndex.ofLog log) id).map
            (orderRank · position)).map (·, id) := by
  rw [ranked, List.map_filterMap]
  refine List.filterMap_congr fun entry _ => ?_
  obtain ⟨id, position⟩ := entry
  simp only [Option.map_map]
  refine Option.map_congr fun item reported => ?_
  rw [← id_of_report? reported]
  rfl

/-- The items of two collections are in the same order when the ids have the same places and the
items of each id have the same rank. -/
theorem map_id_all_congr {firstDefaults secondDefaults : Json} {first second : Log}
    (ids : collectionIds firstDefaults (first.resolve firstDefaults)
      = collectionIds secondDefaults (second.resolve secondDefaults))
    (ranks : ∀ id position,
      (report? firstDefaults (first.resolve firstDefaults) (OpIndex.ofLog first) id).map
          (orderRank · position)
        = (report? secondDefaults (second.resolve secondDefaults) (OpIndex.ofLog second) id).map
          (orderRank · position)) :
    (all firstDefaults first).map Item.id = (all secondDefaults second).map Item.id := by
  rw [map_id_all, map_id_all, map_ranked, map_ranked, ids]
  simp only [ranks]

end Item

/-! ## Ranks of a document -/

namespace Document

/-- The member that holds the rank of an item: of its value, or of its default if it is deleted. -/
def rankMember? (document : Document Json) (id : String) : Option Json :=
  ((document.resolved.get? id).or (document.defaults.get? id)).bind fun value =>
    value.get? Item.rankField

/-- The rank that an item has, if it has one. -/
def rank? (document : Document Json) (id : String) : Option Binary64 :=
  (document.rankMember? id).bind Json.asBinary64?

/-- The rank by which an item is sorted is the one that it has, or else its position. -/
theorem map_orderRank_report? {document : Document Json} (object : document.defaults.isObject)
    (belowRoot : document.log.IsBelowRoot) (id : String) (position : Nat) :
    (Item.report? document.defaults document.resolved (OpIndex.ofLog document.log) id).map
        (Item.orderRank · position)
      = if id ∈ Item.collectionIds document.defaults document.resolved then
          some ((document.rank? id).getD (Item.positionRank position))
        else none := by
  have resolvedObject : document.resolved.isObject := Log.isObject_resolve belowRoot object
  rw [Item.report?_of_isObject object resolvedObject]
  simp only [Item.mem_collectionIds, rank?, rankMember?, Option.bind_assoc]
  split <;> rfl

/-- Collections with the same ids in the same places and the same ranks have their items in the
same order. -/
theorem map_id_items_congr {first second : Document Json} (object : first.defaults.isObject)
    (belowRoot : first.log.IsBelowRoot) (secondObject : second.defaults.isObject)
    (secondBelowRoot : second.log.IsBelowRoot)
    (ids : Item.collectionIds first.defaults first.resolved
      = Item.collectionIds second.defaults second.resolved)
    (ranks : ∀ id, first.rank? id = second.rank? id) :
    first.items.map Item.id = second.items.map Item.id := by
  refine Item.map_id_all_congr ids fun id position => ?_
  have firstRank := map_orderRank_report? object belowRoot id position
  have secondRank := map_orderRank_report? secondObject secondBelowRoot id position
  rw [ids, ranks, ← secondRank] at firstRank
  exact firstRank

end Document

/-! ## Setting a field -/

namespace Draft

variable {draft : Draft} {id : String} {field : Path}

/-- The tree of a draft without the ops on a field and below it. -/
def resolvedWithout (draft : Draft) (path : Path) : Json :=
  Log.resolve (dropWithin path draft.log) draft.defaults

/-- The keys after a field of an item was set: those before, or those without the older ops on
the field, to which the item's id may be added. -/
theorem keys_setField (object : draft.defaults.isObject) (belowRoot : draft.log.IsBelowRoot)
    (id : String) (field : Path) (value : Json) :
    (draft.setField id field value).resolved.keys = draft.resolved.keys
      ∨ (draft.setField id field value).resolved.keys
          = (draft.resolvedWithout (Path.item id ++ field)).keys
      ∨ (draft.setField id field value).resolved.keys
          = Item.addId (draft.resolvedWithout (Path.item id ++ field)).keys id := by
  have leftBelow := isBelowRoot_dropWithin belowRoot (Path.item id ++ field)
  have leftObject := Log.isObject_resolve leftBelow object
  have outcome := draft.setOutcome (Path.item id ++ field) value
  change (draft.setPath (Path.item id ++ field) value).resolved.keys = _
    ∨ (draft.setPath (Path.item id ++ field) value).resolved.keys = _
    ∨ (draft.setPath (Path.item id ++ field) value).resolved.keys = _
  generalize draft.setPath (Path.item id ++ field) value = edited at outcome ⊢
  cases outcome with
  | kept => exact .inl rfl
  | elided => exact .inr (.inl rfl)
  | folded new split above last =>
      rw [split] at leftBelow
      refine .inr (.inl ?_)
      rw [resolvedWithout, split, resolved]
      exact Log.keys_resolve_replaceValue leftBelow object _
  | restored | appended =>
      refine .inr (.inr ?_)
      rw [resolved, log_appendSet, defaults_appendSet, Log.resolve_append]
      exact Json.keys_setAt leftObject (.key id) field value

/-- Setting a field of an item leaves the keys of the others in their order. -/
theorem filter_keys_setField (object : draft.defaults.isObject)
    (belowRoot : draft.log.IsBelowRoot) (further : field ≠ []) (id : String) (value : Json) :
    (draft.setField id field value).resolved.keys.filter (· ≠ id)
      = draft.resolved.keys.filter (· ≠ id) := by
  have without := ((Json.SameKeysOff.refl id object).resolve_dropWithin further belowRoot).others
  rcases keys_setField object belowRoot id field value with same | same | same
  · rw [same]
  · rw [same]
    exact without.symm
  · have placed := Item.filter_placeId_self
      (draft.resolvedWithout (Path.item id ++ field)).keys id true
    rw [same]
    exact placed.trans without.symm

/-- Setting a field of an item that is there leaves all keys in their order, if no op on the
field or below it made the item. -/
theorem keys_setField_of_settled (object : draft.defaults.isObject)
    (belowRoot : draft.log.IsBelowRoot) (further : field ≠ [])
    (present : (draft.resolved.get? id).isSome)
    (settled : ∀ op ∈ Item.maker? (draft.log.opsOn id) (draft.defaults.get? id),
      ¬ op.path.isWithin (Path.item id ++ field)) (value : Json) :
    (draft.setField id field value).resolved.keys = draft.resolved.keys := by
  have without := (Json.SameKeysOff.refl id object).keys_resolve_dropWithin further belowRoot
    ⟨settled, fun _ => rfl⟩
  rcases keys_setField object belowRoot id field value with same | same | same
  · exact same
  · exact same.trans without.symm
  · have known : id ∈ (draft.resolvedWithout (Path.item id ++ field)).keys := by
      have held := Json.mem_keys_iff.mpr present
      rwa [resolved, without] at held
    rw [same, Item.addId, if_pos known]
    exact without.symm

/-- An item that no op on a field made is not made by one when the field is set. -/
theorem settled_setField (object : draft.defaults.isObject) (belowRoot : draft.log.IsBelowRoot)
    (further : field ≠ []) (present : (draft.resolved.get? id).isSome)
    (settled : ∀ op ∈ Item.maker? (draft.log.opsOn id) (draft.defaults.get? id),
      ¬ op.path.isWithin (Path.item id ++ field)) (value : Json) :
    ∀ op ∈ Item.maker? ((draft.setField id field value).log.opsOn id) (draft.defaults.get? id),
      ¬ op.path.isWithin (Path.item id ++ field) := by
  -- The ops that are left are not on the field, and the last one finds the item there.
  have leftOps : ∀ op ∈ dropWithin (Path.item id ++ field) draft.log,
      ¬ op.path.isWithin (Path.item id ++ field) := fun _ member => (mem_dropWithin.mp member).2
  have left : ∀ op ∈ Item.maker? (Log.opsOn (dropWithin (Path.item id ++ field) draft.log) id)
      (draft.defaults.get? id), ¬ op.path.isWithin (Path.item id ++ field) :=
    fun op made => leftOps op (List.mem_of_mem_filter (Item.mem_of_maker? made))
  have outcome := draft.setOutcome (Path.item id ++ field) value
  change ∀ op ∈ Item.maker? ((draft.setPath (Path.item id ++ field) value).log.opsOn id) _, _
  generalize draft.setPath (Path.item id ++ field) value = edited at outcome ⊢
  cases outcome with
  | kept => exact settled
  | elided => exact left
  | folded new split above last =>
      rename_i before after opId ancestor rest container
      rw [split] at leftOps
      intro op made
      have member := List.mem_of_mem_filter (Item.mem_of_maker? made)
      rcases List.mem_append.mp member with early | late
      · exact leftOps op (List.mem_append_left _ early)
      · rcases List.mem_cons.mp late with rfl | late
        · exact leftOps (.set opId ancestor container)
            (List.mem_append_right _ List.mem_cons_self)
        · exact leftOps op (List.mem_append_right _ (List.mem_cons_of_mem _ late))
  | restored | appended =>
      have keys := (Json.SameKeysOff.refl id object).keys_resolve_dropWithin further belowRoot
        ⟨settled, fun _ => rfl⟩
      have held : ((Log.opsOn (dropWithin (Path.item id ++ field) draft.log) id).foldl
          (fun value op => Item.afterOp op value) (draft.defaults.get? id)).isSome := by
        have known := Json.mem_keys_iff.mpr present
        rw [resolved, keys, Json.mem_keys_iff,
          Log.get?_resolve (isBelowRoot_dropWithin belowRoot _) object] at known
        exact known
      have touched : ∀ opId, (Op.set opId (Path.item id ++ field) value).touches id :=
        fun opId => (Op.touches_iff rfl id).mpr rfl
      rw [log_appendSet, Log.opsOn_append, Log.opsOn_cons_of_touches (touched _)]
      rw [show Log.opsOn [] id = [] from rfl, Item.maker?_append_of_present held]
      exact left

/-- Setting a field of an item that is there leaves all ids of the collection in their places, if
the defaults have the item or no op on the field or below it made it. -/
theorem collectionIds_setField (object : draft.defaults.isObject)
    (belowRoot : draft.log.IsBelowRoot) (further : field ≠ [])
    (present : (draft.resolved.get? id).isSome)
    (settled : (draft.defaults.get? id).isSome
      ∨ ∀ op ∈ Item.maker? (draft.log.opsOn id) (draft.defaults.get? id),
        ¬ op.path.isWithin (Path.item id ++ field)) (value : Json) :
    Item.collectionIds draft.defaults (draft.setField id field value).resolved
      = Item.collectionIds draft.defaults draft.resolved := by
  rw [Item.collectionIds_eq, Item.collectionIds_eq]
  rcases settled with default | settled
  · have known := Json.mem_keys_iff.mpr default
    rw [← Item.foldl_addId_filter known, filter_keys_setField object belowRoot further,
      Item.foldl_addId_filter known]
  · rw [keys_setField_of_settled object belowRoot further present settled]

end Draft

end LayerRouting
