import LayerRouting.Activation.Plan
import LayerRouting.Proofs.Override.Items

/-!
# The route sets of a collection

A collection of route sets has object defaults and a log without ops on the root. Its
route sets have distinct ids, and what they are is determined id by id: by the values that
the resolved tree and the defaults hold under the id (`RouteSets.values?_ofDocument`).
-/

namespace LayerRouting

/-- Whether a document is a collection of items by id, in which no op replaced or deleted the
collection as a whole. A tree that was read repeats no key. -/
structure Document.IsCollection (document : Document Json) : Prop where
  object : document.defaults.isObject
  distinct : document.defaults.keys.Nodup
  belowRoot : document.log.IsBelowRoot

/-- No two items of a collection have one id. -/
theorem Document.IsCollection.nodup_ids_items {document : Document Json}
    (collection : document.IsCollection) : (document.items.map Item.id).Nodup :=
  Item.nodup_ids_all collection.distinct document.log

/-- The item of an id in a collection. -/
theorem Document.IsCollection.find?_items {document : Document Json}
    (collection : document.IsCollection) (id : String) :
    (document.items.find? fun item => item.id = id)
      = Item.report? document.defaults document.resolved (OpIndex.ofLog document.log) id := by
  refine Option.ext fun item => ?_
  rw [Document.resolved, Item.report?_eq_some_iff collection.object collection.belowRoot]
  exact Item.find?_all_eq_some_iff

namespace RouteSets

/-! ## Values by id -/

/-- The live and the default route set of an id, if the collection has an item with the id. -/
def values? (sets : RouteSets) (id : String) : Option (Option RouteSet × Option RouteSet) :=
  (sets.find? fun item => item.id = id).map fun item => (item.computed, item.defaultValue)

/-- The values that a collection holds under an id read as route sets. An item of which one
value does not read is left out. -/
def readValues? (computed defaultValue : Option Json) :
    Option (Option RouteSet × Option RouteSet) :=
  if computed.isNone ∧ defaultValue.isNone then none
  else do
    let live ← Item.readOptional? RouteSet.ofJson? computed
    let default ← Item.readOptional? RouteSet.ofJson? defaultValue
    some (live, default)

theorem readValues?_some (value : Json) (defaultValue : Option Json) :
    readValues? (some value) defaultValue
      = (RouteSet.ofJson? value).bind fun live =>
          (Item.readOptional? RouteSet.ofJson? defaultValue).map fun default =>
            (some live, default) := by
  have reads : Item.readOptional? RouteSet.ofJson? (some value)
      = (RouteSet.ofJson? value).map some := rfl
  rw [readValues?, if_neg (by simp), reads]
  cases RouteSet.ofJson? value with
  | none => rfl
  | some live => cases Item.readOptional? RouteSet.ofJson? defaultValue <;> rfl

/-- A deleted item has no live route set. -/
theorem bind_fst_readValues?_none (defaultValue : Option Json) :
    (readValues? none defaultValue).bind Prod.fst = none := by
  cases defaultValue with
  | none => rfl
  | some value =>
      cases reads : RouteSet.ofJson? value <;> simp [readValues?, Item.readOptional?, reads]

theorem liveSet?_eq (sets : RouteSets) (id : String) :
    sets.liveSet? id = (sets.values? id).bind Prod.fst := by
  rw [liveSet?, values?]
  cases sets.find? fun item => item.id = id <;> rfl

/-- The default route set of an id. -/
def defaultSet? (sets : RouteSets) (id : String) : Option RouteSet :=
  (sets.find? fun item => item.id = id).bind Item.defaultValue

theorem defaultSet?_eq (sets : RouteSets) (id : String) :
    sets.defaultSet? id = (sets.values? id).bind Prod.snd := by
  rw [defaultSet?, values?]
  cases sets.find? fun item => item.id = id <;> rfl

theorem mem_ids_iff {sets : RouteSets} {id : String} :
    id ∈ sets.map Item.id ↔ (sets.values? id).isSome := by
  simp [values?, List.find?_isSome]

theorem id_of_mapValues? {α β : Type} {read? : α -> Option β} {item : Item α} {read : Item β}
    (reads : item.mapValues? read? = some read) : read.id = item.id := by
  simp only [Item.mapValues?, Option.bind_eq_bind, Option.bind_eq_some_iff, Option.some.injEq]
    at reads
  obtain ⟨_, _, _, _, rfl⟩ := reads
  rfl

/-- Reading leaves the search for an id to the items, if no id is repeated. -/
theorem find?_ofItems {items : List (Item Json)} (distinct : (items.map Item.id).Nodup)
    (id : String) :
    ((ofItems items).find? fun item => item.id = id)
      = (items.find? fun item => item.id = id).bind (Item.mapValues? RouteSet.ofJson?) := by
  induction items with
  | nil => rfl
  | cons item rest inductionHypothesis =>
      obtain ⟨fresh, others⟩ := List.nodup_cons.mp distinct
      rw [ofItems] at inductionHypothesis ⊢
      rw [List.filterMap_cons, List.find?_cons]
      have later := inductionHypothesis others
      cases reads : item.mapValues? RouteSet.ofJson? with
      | none =>
          by_cases here : item.id = id
          · -- The id is not found again among the rest.
            have absent : (rest.find? fun item => item.id = id) = none := by
              refine List.find?_eq_none.mpr fun other member named => fresh ?_
              rw [here, ← of_decide_eq_true named]
              exact List.mem_map_of_mem member
            rw [absent] at later
            simp [here, reads, later]
          · simpa [here] using later
      | some read =>
          rw [List.find?_cons, id_of_mapValues? reads]
          by_cases here : item.id = id
          · simp [here, reads]
          · simpa [here] using later

theorem nodup_ids_ofItems {items : List (Item Json)} (distinct : (items.map Item.id).Nodup) :
    ((ofItems items).map Item.id).Nodup := by
  rw [List.Nodup, List.pairwise_map] at distinct ⊢
  refine distinct.filterMap _ fun left right different first firstRead second secondRead => ?_
  rw [id_of_mapValues? firstRead, id_of_mapValues? secondRead]
  exact different

section Collections

variable {document : Document Json}

/-- No two route sets of a collection have one id. -/
theorem nodup_ids_ofDocument (collection : document.IsCollection) :
    ((ofDocument document).map Item.id).Nodup :=
  nodup_ids_ofItems collection.nodup_ids_items

/-- The route sets of an id come from the values that are held under the id. -/
theorem values?_ofDocument (collection : document.IsCollection) (id : String) :
    (ofDocument document).values? id
      = readValues? (document.resolved.get? id) (document.defaults.get? id) := by
  have resolvedObject : document.resolved.isObject :=
    Log.isObject_resolve collection.belowRoot collection.object
  rw [values?, ofDocument, find?_ofItems collection.nodup_ids_items, collection.find?_items,
    Item.report?_of_isObject collection.object resolvedObject, readValues?]
  have read (item : Item Json) :
      (item.mapValues? RouteSet.ofJson?).map (fun item => (item.computed, item.defaultValue))
        = (Item.readOptional? RouteSet.ofJson? item.computed).bind fun live =>
            (Item.readOptional? RouteSet.ofJson? item.defaultValue).bind fun default =>
              some (live, default) := by
    rw [Item.mapValues?]
    cases Item.readOptional? RouteSet.ofJson? item.computed with
    | none => rfl
    | some live => cases Item.readOptional? RouteSet.ofJson? item.defaultValue <;> rfl
  cases document.defaults.get? id <;> cases document.resolved.get? id <;> simp [read]

end Collections

/-! ## Live route sets -/

theorem nodup_ids_live {sets : RouteSets} (distinct : (sets.map Item.id).Nodup) :
    (sets.live.map Prod.fst).Nodup := by
  rw [List.Nodup, List.pairwise_map] at distinct ⊢
  refine distinct.filterMap _ fun left right different first firstLive second secondLive => ?_
  obtain ⟨_, -, rfl⟩ := Option.map_eq_some_iff.mp firstLive
  obtain ⟨_, -, rfl⟩ := Option.map_eq_some_iff.mp secondLive
  exact different

/-- The live route sets are listed under their ids, if items with one id are one item. -/
theorem mem_live_iff_of_unique {sets : RouteSets}
    (unique : ∀ left ∈ sets, ∀ right ∈ sets, left.id = right.id -> left = right) {id : String}
    {set : RouteSet} : (id, set) ∈ sets.live ↔ sets.liveSet? id = some set := by
  rw [liveSet?, Option.bind_eq_some_iff]
  simp only [live, List.mem_filterMap, Option.map_eq_some_iff, Prod.mk.injEq]
  constructor
  · rintro ⟨item, member, _, computed, rfl, rfl⟩
    obtain ⟨other, found⟩ : ∃ other, sets.find? (·.id = item.id) = some other :=
      Option.isSome_iff_exists.mp (List.find?_isSome.mpr ⟨item, member, by simp⟩)
    have named : other.id = item.id := by simpa using List.find?_some found
    obtain rfl := unique other (List.mem_of_find?_eq_some found) item member named
    exact ⟨other, found, computed⟩
  · rintro ⟨item, found, computed⟩
    have named : item.id = id := by simpa using List.find?_some found
    exact ⟨item, List.mem_of_find?_eq_some found, set, computed, named, rfl⟩

/-- The live route sets are listed under their ids, if no id is repeated. -/
theorem mem_live_iff {sets : RouteSets} (distinct : (sets.map Item.id).Nodup) {id : String}
    {set : RouteSet} : (id, set) ∈ sets.live ↔ sets.liveSet? id = some set :=
  mem_live_iff_of_unique fun _ left _ right same =>
    List.inj_on_of_nodup_map distinct left right same

/-- The route sets of a document whose items are in the order of their ranks are read off its
items in the order of their ids. -/
theorem ofDocument_of_ordered {document : Document Json} {sets : RouteSets}
    (ordered : (Item.ranked document.defaults document.log).Pairwise fun left right =>
      left.1.orderKey ≤ right.1.orderKey)
    (read : ofItems (Item.inIdOrder document.defaults document.log) = sets) :
    ofDocument document = sets :=
  (congrArg ofItems (Item.all_of_ordered ordered)).trans read

/-! ## Two route sets -/

/-- An active route set on the left. -/
def leftSide : RouteSet where
  name := "Left"
  active := true
  defaultActive := none
  behavior := .toggle
  exclusivityGroup := some "side"
  routes := []
  abPlayers := []
  rank := none

/-- An inactive route set on the right, in the same group. -/
def rightSide : RouteSet :=
  { leftSide with name := "Right", active := false }

end RouteSets

/-- A collection of two route sets of one group, as defaults without edits. -/
def Document.sides : Document Json where
  defaults := .object [
    ("left", .object [("name", .string "Left"), ("active", .bool true),
      ("exclusivityGroup", .string "side")]),
    ("right", .object [("name", .string "Right"), ("exclusivityGroup", .string "side")])]
  log := []

theorem Document.isCollection_sides : Document.sides.IsCollection :=
  ⟨by decide, by decide, by decide⟩

theorem RouteSets.ofDocument_sides :
    ofDocument Document.sides
      = [
        { id := "left", computed := some leftSide, defaultValue := some leftSide, ops := [] },
        { id := "right", computed := some rightSide, defaultValue := some rightSide, ops := [] }
      ] :=
  ofDocument_of_ordered (by decide +kernel) (by decide +kernel)

end LayerRouting
