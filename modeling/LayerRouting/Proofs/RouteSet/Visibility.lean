import LayerRouting.Proofs.RouteSet.Live

/-!
# Which route sets are seen

An item is read as a route set together with its default, and is left out when one of the two
does not read. So a document shows a route set exactly if its resolved value reads as the set
and its default reads too, if it has one (`RouteSets.seen_iff_shows`). An item whose default
does not read stays hidden after the log has repaired it.

This holds of all defaults and logs, also of logs with ops on the root.
-/

namespace LayerRouting

/-- Whether a document shows a route set under an id: the id is one of its collection, the
resolved value reads as the route set, and the default reads if there is one. -/
structure Document.Shows (document : Document Json) (id : String) (set : RouteSet) : Prop where
  listed : id ∈ Item.collectionIds document.defaults document.resolved
  reads : (document.resolved.lookup? (Path.item id)).bind RouteSet.ofJson? = some set
  default : ∀ value ∈ document.defaults.lookup? (Path.item id), (RouteSet.ofJson? value).isSome

namespace Item

variable {α β : Type} {read? : α -> Option β}

/-- A value that is there reads as what it reads as. -/
theorem readOptional?_eq_some_some_iff {value : Option α} {read : β} :
    readOptional? read? value = some (some read) ↔ value.bind read? = some read := by
  cases value <;> simp [readOptional?]

/-- A value reads, if it is there. -/
theorem isSome_readOptional?_iff {value : Option α} :
    (readOptional? read? value).isSome ↔ ∀ held ∈ value, (read? held).isSome := by
  cases value <;> simp [readOptional?]

/-- An item reads when both its values do. -/
theorem mapValues?_eq_some_iff {item : Item α} {read : Item β} :
    item.mapValues? read? = some read
      ↔ read.id = item.id ∧ readOptional? read? item.computed = some read.computed
        ∧ readOptional? read? item.defaultValue = some read.defaultValue
        ∧ read.ops = item.ops := by
  obtain ⟨id, computed, defaultValue, ops⟩ := read
  simp only [mapValues?, Option.bind_eq_bind, Option.bind_eq_some_iff, Option.some.injEq,
    Item.mk.injEq]
  constructor
  · rintro ⟨_, computedRead, _, defaultRead, rfl, rfl, rfl, rfl⟩
    exact ⟨rfl, computedRead, defaultRead, rfl⟩
  · rintro ⟨rfl, computedRead, defaultRead, rfl⟩
    exact ⟨computed, computedRead, defaultValue, defaultRead, rfl, rfl, rfl, rfl⟩

/-- An item of a collection has the values that are found under its id. -/
theorem values_of_mem_all {defaults : Json} {log : Log} {item : Item Json}
    (member : item ∈ all defaults log) :
    item.computed = (log.resolve defaults).lookup? (Path.item item.id)
      ∧ item.defaultValue = defaults.lookup? (Path.item item.id) := by
  obtain ⟨-, reported⟩ := mem_all.mp member
  simp only [report?] at reported
  split at reported
  · cases reported
  · have same := Option.some.inj reported
    exact ⟨(congrArg Item.computed same).symm, (congrArg Item.defaultValue same).symm⟩

/-- A collection has an item for each of its ids under which a value is found in the end. -/
theorem exists_mem_all {defaults : Json} {log : Log} {id : String}
    (listed : id ∈ collectionIds defaults (log.resolve defaults))
    (found : ((log.resolve defaults).lookup? (Path.item id)).isSome) :
    ∃ item ∈ all defaults log, item.id = id := by
  have present : ¬ (((log.resolve defaults).lookup? (Path.item id)).isNone
      ∧ (defaults.lookup? (Path.item id)).isNone) := by
    rintro ⟨absent, -⟩
    rw [Option.isNone_iff_eq_none.mp absent] at found
    cases found
  obtain ⟨item, reported⟩ : ∃ item,
      report? defaults (log.resolve defaults) (OpIndex.ofLog log) id = some item := by
    rw [report?, if_neg present]
    exact ⟨_, rfl⟩
  obtain rfl := id_of_report? reported
  exact ⟨item, mem_all.mpr ⟨listed, reported⟩, rfl⟩

end Item

namespace RouteSets

variable {document : Document Json} {id : String} {set : RouteSet}

/-- Two route sets of a document with one id are one. -/
theorem eq_of_mem_ofDocument {left right : Item RouteSet} (leftMember : left ∈ ofDocument document)
    (rightMember : right ∈ ofDocument document) (same : left.id = right.id) : left = right := by
  obtain ⟨leftItem, leftListed, leftRead⟩ := List.mem_filterMap.mp leftMember
  obtain ⟨rightItem, rightListed, rightRead⟩ := List.mem_filterMap.mp rightMember
  rw [id_of_mapValues? leftRead, id_of_mapValues? rightRead] at same
  obtain rfl := Item.eq_of_mem_all leftListed rightListed same
  exact Option.some.inj (leftRead.symm.trans rightRead)

/-- The live route sets of a document are those that it shows. -/
theorem mem_live_ofDocument_iff :
    (id, set) ∈ (ofDocument document).live ↔ document.Shows id set := by
  simp only [live, List.mem_filterMap, Option.map_eq_some_iff, Prod.mk.injEq]
  constructor
  · rintro ⟨item, member, _, computed, rfl, rfl⟩
    obtain ⟨raw, listed, read⟩ := List.mem_filterMap.mp member
    obtain ⟨same, reads, defaultReads, -⟩ := Item.mapValues?_eq_some_iff.mp read
    obtain ⟨rawComputed, rawDefault⟩ := Item.values_of_mem_all listed
    rw [computed, rawComputed] at reads
    have default := Option.isSome_of_mem defaultReads
    rw [rawDefault] at default
    rw [same]
    exact ⟨(Item.mem_all.mp listed).1, Item.readOptional?_eq_some_some_iff.mp reads,
      Item.isSome_readOptional?_iff.mp default⟩
  · intro shows
    obtain ⟨value, found, -⟩ := Option.bind_eq_some_iff.mp shows.reads
    obtain ⟨raw, listed, rfl⟩ := Item.exists_mem_all shows.listed (Option.isSome_of_mem found)
    obtain ⟨rawComputed, rawDefault⟩ := Item.values_of_mem_all listed
    have reads := Item.readOptional?_eq_some_some_iff.mpr shows.reads
    obtain ⟨default, defaultReads⟩ :=
      Option.isSome_iff_exists.mp (Item.isSome_readOptional?_iff.mpr shows.default)
    have read : raw.mapValues? RouteSet.ofJson? = some ⟨raw.id, some set, default, raw.ops⟩ :=
      Item.mapValues?_eq_some_iff.mpr
        ⟨rfl, rawComputed ▸ reads, rawDefault ▸ defaultReads, rfl⟩
    exact ⟨_, List.mem_filterMap.mpr ⟨raw, listed, read⟩, set, rfl, rfl, rfl⟩

/-- A document shows a route set under an id exactly if the set is among its live route sets
with the id, and then asking for the id gives the set. -/
theorem seen_iff_shows (document : Document Json) (id : String) (set : RouteSet) :
    ((id, set) ∈ (ofDocument document).live ↔ document.Shows id set)
      ∧ ((ofDocument document).liveSet? id = some set ↔ document.Shows id set) := by
  have unique : ∀ left ∈ ofDocument document, ∀ right ∈ ofDocument document,
      left.id = right.id -> left = right :=
    fun _ leftMember _ rightMember same => eq_of_mem_ofDocument leftMember rightMember same
  constructor
  · exact mem_live_ofDocument_iff
  · rw [← mem_live_iff_of_unique unique]
    exact mem_live_ofDocument_iff

end RouteSets

/-! ## A repaired route set -/

/-- A collection whose default is no route set, since its name is a number. The log sets the
name. -/
def Document.repaired : Document Json where
  defaults := .object [("left", .object [("name", .ofNat 42)])]
  log := [.set (opIdOf 0) [.key "left", .key "name"] (.string "Left")]

/-- The repaired route set reads, but the collection has no route sets. -/
theorem RouteSets.repaired_is_hidden :
    Document.repaired.defaults.isObject
      ∧ (Document.repaired.resolved.lookup? (Path.item "left")).bind RouteSet.ofJson?
        = some { leftSide with active := false, exclusivityGroup := none }
      ∧ ofDocument Document.repaired = [] := by
  refine ⟨by decide, by decide +kernel, ?_⟩
  exact ofDocument_of_ordered (by decide +kernel) (by decide +kernel)

end LayerRouting
