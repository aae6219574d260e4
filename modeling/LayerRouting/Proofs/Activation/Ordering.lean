import LayerRouting.Proofs.Activation.Policy
import LayerRouting.Proofs.Override.ItemOrder

/-!
# The order of route sets

A request leaves the route sets of a collection in their order when every set that gets a flag
holds its place: its value is an object, and the defaults have it or an op made it that is not on
its flag (`Document.HoldsPlace`). An item that only an op on its flag made goes to the end of the
collection when the flag is set again, since the new op comes last in the log.

Sets that hold their places go on doing so, and so no run changes the order of a collection of
which all sets do (`Controller.Reaches.map_id_ofDocument`).

The sets are sorted by their ranks, which are binary64 numbers. So all this is said of documents of
which the ranks come back from the store (`LawfulStore.KeepsRanks`).
-/

namespace LayerRouting

/-- Whether the place of an item does not hang on its flag: the defaults have the item, or the op
that made it is not on the flag. -/
def Log.IsPlaced (log : Log) (defaults : Json) (id : String) : Prop :=
  (defaults.get? id).isSome
    ∨ ∀ op ∈ Item.maker? (log.opsOn id) (defaults.get? id),
        ¬ op.path.isWithin (Path.item id ++ activeField)

/-- Whether a route set keeps its place when its flag is set. -/
structure Document.HoldsPlace (document : Document Json) (id : String) : Prop where
  object : (document.resolved.get? id).any Json.isObject
  placed : document.log.IsPlaced document.defaults id

/-- A route set that keeps its place is there. -/
theorem Document.HoldsPlace.isSome {document : Document Json} {id : String}
    (holds : document.HoldsPlace id) : (document.resolved.get? id).isSome := by
  obtain ⟨value, held, -⟩ := (Option.any_eq_true _ _).mp holds.object
  exact Option.isSome_of_mem held

/-! ## Recording flags -/

namespace Draft

variable {draft : Draft} {id other : String}

/-- Recording a flag leaves the items that are there. -/
theorem isSome_get?_setActive (collection : draft.document.IsCollection)
    (present : (draft.resolved.get? other).isSome) (id : String) (active : Bool) :
    ((draft.setActive id active).resolved.get? other).isSome := by
  have set : Json.FieldSet id "active" (.bool active) draft.resolved
      (draft.setActive id active).resolved :=
    fieldSet_setField collection.object collection.belowRoot id isName_active _
  by_cases same : other = id
  · have flag := Json.sameAt_bool_iff.mp set.reads
    obtain ⟨item, held, -⟩ := Option.bind_eq_some_iff.mp flag
    rw [same, held, Option.isSome_some]
  · rwa [← set.agree.items other same]

/-- Recording the flag of an item that is there leaves places that do not hang on flags so. -/
theorem isPlaced_setActive (collection : draft.document.IsCollection)
    (present : (draft.resolved.get? id).isSome) (active : Bool)
    (placed : draft.log.IsPlaced draft.defaults other) :
    (draft.setActive id active).log.IsPlaced draft.defaults other := by
  rcases placed with default | settled
  · exact .inl default
  · right
    by_cases same : other = id
    · subst same
      exact settled_setField collection.object collection.belowRoot (List.cons_ne_nil _ _)
        present settled (.bool active)
    · rw [setActive, opsOn_setField collection.belowRoot same]
      exact settled

/-- Recording the flags of items that are there leaves all ids in their places if no place hangs
on its flag, and then no place does. -/
theorem places_setFlags (collection : draft.document.IsCollection)
    {flags : List (String × Bool)}
    (present : ∀ flag ∈ flags, (draft.resolved.get? flag.1).isSome)
    (placed : ∀ flag ∈ flags, draft.log.IsPlaced draft.defaults flag.1) :
    Item.collectionIds draft.defaults (draft.setFlags flags).resolved
        = Item.collectionIds draft.defaults draft.resolved
      ∧ ∀ id, draft.log.IsPlaced draft.defaults id ->
          (draft.setFlags flags).log.IsPlaced draft.defaults id := by
  induction flags generalizing draft with
  | nil => exact ⟨rfl, fun id held => held⟩
  | cons flag rest inductionHypothesis =>
      obtain ⟨here, laterPresent⟩ := List.forall_mem_cons.mp present
      obtain ⟨firstPlaced, laterPlaced⟩ := List.forall_mem_cons.mp placed
      have kept : ∀ id, draft.log.IsPlaced draft.defaults id ->
          (draft.setActive flag.1 flag.2).log.IsPlaced draft.defaults id :=
        fun id held => isPlaced_setActive collection here flag.2 held
      have first := collectionIds_setField collection.object collection.belowRoot
        (List.cons_ne_nil _ _) here firstPlaced (.bool flag.2)
      have defaults : (draft.setActive flag.1 flag.2).defaults = draft.defaults :=
        defaults_setPath draft _ _
      have later := inductionHypothesis (isCollection_setActive collection flag.1 flag.2)
        (fun later member =>
          isSome_get?_setActive collection (laterPresent later member) flag.1 flag.2)
        (fun later member => by
          rw [defaults]
          exact kept later.1 (laterPlaced later member))
      rw [defaults] at later
      exact ⟨later.1.trans first, fun id held => later.2 id (kept id held)⟩

end Draft

/-! ## The order of route sets -/

namespace RouteSets

/-- Reading leaves the items that read in their order. -/
theorem map_id_ofItems (items : List (Item Json)) :
    (ofItems items).map Item.id
      = (items.filter fun item => (item.mapValues? RouteSet.ofJson?).isSome).map Item.id := by
  induction items with
  | nil => rfl
  | cons item rest inductionHypothesis =>
      rw [ofItems] at inductionHypothesis ⊢
      cases read : item.mapValues? RouteSet.ofJson? with
      | none => simpa [read] using inductionHypothesis
      | some set => simpa [read, id_of_mapValues? read] using inductionHypothesis

/-- The route sets of a collection are in the order of its items. -/
theorem map_id_ofDocument {document : Document Json} (collection : document.IsCollection) :
    (ofDocument document).map Item.id
      = (document.items.map Item.id).filter fun id =>
          ((ofDocument document).values? id).isSome := by
  have reads : ∀ item ∈ document.items, (item.mapValues? RouteSet.ofJson?).isSome
      = ((ofDocument document).values? item.id).isSome := by
    intro item member
    have found : (document.items.find? fun other => other.id = item.id) = some item :=
      Item.find?_all_eq_some_iff.mpr ⟨member, rfl⟩
    rw [values?, ofDocument, find?_ofItems collection.nodup_ids_items, found, Option.isSome_map,
      Option.bind_some]
  rw [List.filter_map, ofDocument, map_id_ofItems]
  exact congrArg (List.map Item.id) (List.filter_congr reads)

end RouteSets

namespace Document.FlagsSet

variable {flags : List (String × Bool)} {before after : Document Json}

/-- Flags of live items leave the ranks. -/
theorem rankMember?_eq (set : FlagsSet flags before after)
    (present : ∀ flag ∈ flags, (before.resolved.get? flag.1).isSome) (id : String) :
    after.rankMember? id = before.rankMember? id := by
  rw [rankMember?, rankMember?, set.defaults]
  by_cases named : id ∈ flags.map Prod.fst
  · obtain ⟨⟨id, active⟩, member, rfl⟩ := List.mem_map.mp named
    obtain ⟨value, held⟩ := Option.isSome_iff_exists.mp (present _ member)
    obtain ⟨flagged, found, -, others⟩ := set.exists_flagged member held
    rw [found, held]
    exact others "_rank" (by decide) (by decide)
  · rw [set.resolved.items id named]

/-- Flags of live items leave the items in their order if the ids keep their places. -/
theorem map_id_items (set : FlagsSet flags before after)
    (present : ∀ flag ∈ flags, (before.resolved.get? flag.1).isSome)
    (ids : Item.collectionIds before.defaults after.resolved
      = Item.collectionIds before.defaults before.resolved) :
    after.items.map Item.id = before.items.map Item.id := by
  rw [← set.defaults] at ids
  refine map_id_items_congr set.afterCollection.object set.afterCollection.belowRoot
    set.beforeCollection.object set.beforeCollection.belowRoot (set.defaults ▸ ids) fun id => ?_
  rw [rank?, rank?, set.rankMember?_eq present]

end Document.FlagsSet

namespace Document

variable {document : Document Json} {flags : List (String × Bool)}

/-- Recording flags of live route sets that hold their places leaves all route sets in their
order. -/
theorem map_id_withFlags (collection : document.IsCollection) (supply : IdSupply)
    (owned : (RouteSets.ofDocument document).OwnsFlags flags)
    (holds : ∀ flag ∈ flags, document.HoldsPlace flag.1) :
    (RouteSets.ofDocument (document.withFlags supply flags)).map Item.id
      = (RouteSets.ofDocument document).map Item.id := by
  have set : FlagsSet flags document (document.withFlags supply flags) :=
    .of_setFlags collection supply owned.distinct
  have drafted : (Draft.ofDocument document supply).document.IsCollection := collection
  have present : ∀ flag ∈ flags, (document.resolved.get? flag.1).isSome :=
    fun flag member => (holds flag member).isSome
  obtain ⟨ids, -⟩ := Draft.places_setFlags drafted present
    fun flag member => (holds flag member).placed
  rw [← resolved_withFlags] at ids
  have items := set.map_id_items present ids
  have values : ∀ id, ((RouteSets.ofDocument (document.withFlags supply flags)).values? id).isSome
      = ((RouteSets.ofDocument document).values? id).isSome := by
    intro id
    by_cases named : id ∈ flags.map Prod.fst
    · obtain ⟨⟨id, active⟩, member, rfl⟩ := List.mem_map.mp named
      obtain ⟨value, held, object⟩ := (Option.any_eq_true _ _).mp (holds _ member).object
      obtain ⟨routeSet, live⟩ := Option.isSome_iff_exists.mp (owned.live _ member)
      rw [set.values?_of_named member held object live, Option.isSome_map]
    · rw [set.values?_of_unnamed named]
  rw [RouteSets.map_id_ofDocument set.afterCollection, RouteSets.map_id_ofDocument collection,
    items]
  exact List.filter_congr fun id _ => values id

/-- Whether a document is a collection in which every live route set holds its place. -/
structure IsSettled (document : Document Json) : Prop where
  collection : document.IsCollection
  holds : ∀ id, ((RouteSets.ofDocument document).liveSet? id).isSome -> document.HoldsPlace id

/-- Flags of live route sets leave the route sets of a settled collection in their order. -/
theorem IsSettled.map_id_withFlags (settled : document.IsSettled) (supply : IdSupply)
    (owned : (RouteSets.ofDocument document).OwnsFlags flags) :
    (RouteSets.ofDocument (document.withFlags supply flags)).map Item.id
      = (RouteSets.ofDocument document).map Item.id :=
  Document.map_id_withFlags settled.collection supply owned
    fun flag member => settled.holds flag.1 (owned.live flag member)

/-- Flags of live route sets keep a collection settled. -/
theorem IsSettled.withFlags (settled : document.IsSettled) (supply : IdSupply)
    (owned : (RouteSets.ofDocument document).OwnsFlags flags) :
    (document.withFlags supply flags).IsSettled := by
  have set : FlagsSet flags document (document.withFlags supply flags) :=
    .of_setFlags settled.collection supply owned.distinct
  have drafted : (Draft.ofDocument document supply).document.IsCollection := settled.collection
  have holds := fun flag member => settled.holds flag.1 (owned.live flag member)
  have regular := set.isRegular ⟨settled.collection, fun id live => (settled.holds id live).object⟩
    owned.live
  obtain ⟨-, placed⟩ := Draft.places_setFlags drafted
    (fun flag member => (holds flag member).isSome) (fun flag member => (holds flag member).placed)
  refine ⟨set.afterCollection, fun id live => ⟨regular.objects id live, ?_⟩⟩
  obtain ⟨routeSet, live⟩ := Option.isSome_iff_exists.mp live
  obtain ⟨old, oldLive, -⟩ := set.exists_live owned.live live
  exact placed id (settled.holds id (Option.isSome_of_mem oldLive)).placed

/-- A route set that holds its place does so with other binary64 numbers. -/
theorem HoldsPlace.mapFloats {id : String} (holds : document.HoldsPlace id)
    (change : Binary64 -> Binary64) : (document.mapFloats change).HoldsPlace id where
  object := by
    rw [resolved_mapFloats, Json.get?_mapFloats, Option.any_map]
    simpa [Function.comp_def] using holds.object
  placed := by
    have defaults : (document.mapFloats change).defaults = document.defaults.mapFloats change := rfl
    have log : (document.mapFloats change).log = Log.mapFloats change document.log := rfl
    rw [Log.IsPlaced, defaults, log, Json.get?_mapFloats, Option.isSome_map, Log.opsOn_mapFloats,
      Item.maker?_mapFloats]
    refine holds.placed.imp_right fun settled op made => ?_
    obtain ⟨old, maker, rfl⟩ := Option.map_eq_some_iff.mp made
    rw [Op.path_mapFloats]
    exact settled old maker

/-- A settled collection is settled with other binary64 numbers. -/
theorem IsSettled.mapFloats (settled : document.IsSettled) (change : Binary64 -> Binary64) :
    (document.mapFloats change).IsSettled where
  collection := settled.collection.mapFloats
  holds id live := by
    rw [(RouteSets.alike_mapFloats settled.collection change).isSome_liveSet? id] at live
    exact (settled.holds id live).mapFloats change

end Document

/-! ## Two inserted route sets -/

/-- The value of a route set of which only the name is given. -/
def Json.named (name : String) : Json :=
  .object [("name", .string name)]

/-- A draft of an empty collection into which a first and a last route set were inserted. -/
def Draft.inserted : Draft :=
  (Draft.ofDocument ⟨.object [], []⟩ ⟨0⟩).performAll
    [.insert "first" (.named "First"), .insert "last" (.named "Last")]

/-- A draft of an empty collection in which the flag of a first route set was set before its
name, and a last one was inserted in between. -/
def Draft.flagFirst : Draft :=
  (Draft.ofDocument ⟨.object [], []⟩ ⟨0⟩).performAll
    [.set "first" activeField (.bool true), .insert "last" (.named "Last"),
      .set "first" [.key "name"] (.string "First")]

/-- A route set that is neither active nor in a group. -/
def RouteSets.loneSet (name : String) : RouteSet :=
  { leftSide with name, active := false, exclusivityGroup := none }

theorem RouteSets.ofDocument_flagFirst :
    ofDocument Draft.flagFirst.document
      = [
        { id := "first", computed := some { loneSet "First" with active := true },
          defaultValue := none, ops := Draft.flagFirst.log.opsOn "first" },
        { id := "last", computed := some (loneSet "Last"), defaultValue := none,
          ops := Draft.flagFirst.log.opsOn "last" }
      ] :=
  ofDocument_of_ordered (by decide +kernel) (by decide +kernel)

/-- A controller of a store in service, in which one owner has the document of a draft. -/
def Controller.ofDraft (draft : Draft) : Controller (MonitoredStore MemoryStore) :=
  { ofSides with
    store := MonitoredStore.ofStore ⟨[("stage", draft.document)]⟩
    supply := draft.supply }

/-! ## Ranks that come back -/

/-- Whether the ranks of a document's items come back from stores as they are. -/
def LawfulStore.KeepsRanks (σ : Type) [DocumentStore σ] [LawfulStore σ]
    (document : Document Json) : Prop :=
  ∀ id, (document.mapFloats (LawfulStore.reread σ)).rank? id = document.rank? id

namespace Document

variable {document : Document Json} {change : Binary64 -> Binary64}

theorem rankMember?_mapFloats (document : Document Json) (id : String) :
    (document.mapFloats change).rankMember? id
      = (document.rankMember? id).map (Json.mapFloats change) := by
  have defaults : (document.mapFloats change).defaults = document.defaults.mapFloats change := rfl
  rw [rankMember?, rankMember?, resolved_mapFloats, defaults, Json.get?_mapFloats,
    Json.get?_mapFloats]
  cases document.resolved.get? id with
  | some value => exact Json.get?_mapFloats value _
  | none =>
      cases document.defaults.get? id with
      | some value => exact Json.get?_mapFloats value _
      | none => rfl

/-- A collection with other binary64 numbers has its route sets in the same order if the ranks are
the same. -/
theorem map_id_mapFloats (collection : document.IsCollection)
    (ranks : ∀ id, (document.mapFloats change).rank? id = document.rank? id) :
    (RouteSets.ofDocument (document.mapFloats change)).map Item.id
      = (RouteSets.ofDocument document).map Item.id := by
  have changed : (document.mapFloats change).IsCollection := collection.mapFloats
  have alike := RouteSets.alike_mapFloats collection change
  have ids : Item.collectionIds (document.mapFloats change).defaults
      (document.mapFloats change).resolved
      = Item.collectionIds document.defaults document.resolved := by
    have keys : (document.mapFloats change).defaults.keys = document.defaults.keys :=
      Json.keys_mapFloats document.defaults
    rw [resolved_mapFloats, Item.collectionIds_eq, Item.collectionIds_eq, Json.keys_mapFloats, keys]
  have items := map_id_items_congr changed.object changed.belowRoot collection.object
    collection.belowRoot ids ranks
  rw [RouteSets.map_id_ofDocument changed, RouteSets.map_id_ofDocument collection, items]
  refine List.filter_congr fun id _ => Bool.eq_iff_iff.mpr ?_
  rw [← RouteSets.mem_ids_iff, ← RouteSets.mem_ids_iff]
  exact alike.ids id

end Document

namespace LawfulStore.KeepsRanks

variable {σ : Type} [DocumentStore σ] [LawfulStore σ] {document : Document Json}
  {flags : List (String × Bool)}

/-- Ranks that come back do so after flags of live route sets were recorded. -/
theorem of_flagsSet (ranks : KeepsRanks σ document) {after : Document Json}
    (set : Document.FlagsSet flags document after)
    (present : ∀ flag ∈ flags, (document.resolved.get? flag.1).isSome) : KeepsRanks σ after := by
  intro id
  have kept := ranks id
  rw [Document.rank?, Document.rank?, Document.rankMember?_mapFloats] at kept ⊢
  rw [set.rankMember?_eq present]
  exact kept

/-- Route sets that hold their places stay in their order when flags are recorded and the document
comes back from the store. -/
theorem map_id_withFlags (ranks : KeepsRanks σ document) (collection : document.IsCollection)
    (supply : IdSupply) (owned : (RouteSets.ofDocument document).OwnsFlags flags)
    (holds : ∀ flag ∈ flags, document.HoldsPlace flag.1) :
    (RouteSets.ofDocument ((document.withFlags supply flags).mapFloats (reread σ))).map Item.id
      = (RouteSets.ofDocument document).map Item.id := by
  have set : Document.FlagsSet flags document (document.withFlags supply flags) :=
    .of_setFlags collection supply owned.distinct
  have kept := ranks.of_flagsSet set fun flag member => (holds flag member).isSome
  rw [Document.map_id_mapFloats set.afterCollection kept,
    Document.map_id_withFlags collection supply owned holds]

/-- Ranks that come back do so once more. -/
theorem mapFloats (ranks : KeepsRanks σ document) :
    KeepsRanks σ (document.mapFloats (reread σ)) := by
  intro id
  have kept := ranks id
  rw [Document.rank?, Document.rank?, Document.rankMember?_mapFloats] at kept ⊢
  rw [Document.rankMember?_mapFloats]
  generalize document.rankMember? id = member at kept ⊢
  cases member with
  | none => rfl
  | some value =>
      cases value with
      | number number =>
          cases number with
          | int _ => rfl
          | float x =>
              have same : reread σ x = x := Option.some.inj kept
              exact congrArg (fun y => some (reread σ y)) same
      | null | bool _ | string _ | array _ | object _ => rfl

end LawfulStore.KeepsRanks

namespace Controller

variable {σ : Type} [DocumentStore σ]

/-! ## Requests -/

/-- A request leaves the route sets of an owner in their order, whether it succeeds or not, if
every set to which it gives a flag holds its place and the ranks come back from the store. -/
theorem requests_keep_order [LawfulStore σ] (controller : Controller σ) {owner : String}
    {document : Document Json}
    (stored : DocumentStore.load controller.store owner = .ok document)
    (collection : document.IsCollection) (ranks : LawfulStore.KeepsRanks σ document) :
    (∀ id active,
        (∀ target, (RouteSets.ofDocument document).liveSet? id = some target ->
          ∀ flag ∈ (RouteSets.ofDocument document).switchFlags id target active,
            document.HoldsPlace flag.1) ->
        ∃ sets, (controller.switch owner id active).2.routeSets owner = .ok sets
          ∧ sets.map Item.id = (RouteSets.ofDocument document).map Item.id)
      ∧ ((∀ flag ∈ (RouteSets.ofDocument document).resetFlags, document.HoldsPlace flag.1) ->
        ∃ sets, (controller.reset owner).2.routeSets owner = .ok sets
          ∧ sets.map Item.id = (RouteSets.ofDocument document).map Item.id) := by
  have distinct := RouteSets.nodup_ids_ofDocument collection
  constructor
  · intro id active holds
    obtain ⟨final, held, change⟩ := controller.switch_exists_final stored owner id active
    refine ⟨RouteSets.ofDocument final, by rw [routeSets, held], ?_⟩
    rcases change with same | ⟨target, live, -, same⟩
    · rw [same]
    · rw [same]
      exact ranks.map_id_withFlags collection controller.supply
        (RouteSets.ownsFlags_switchFlags distinct live) (holds target live)
  · intro holds
    obtain ⟨final, held, change⟩ := controller.reset_exists_final stored owner
    refine ⟨RouteSets.ofDocument final, by rw [routeSets, held], ?_⟩
    rcases change with same | same
    · rw [same]
    · rw [same]
      exact ranks.map_id_withFlags collection controller.supply
        (RouteSets.ownsFlags_resetFlags distinct) holds

/-- When the first of two inserted route sets is switched on they stay in their order. -/
theorem requests_keep_order_of_inserted :
    ∃ sets, ((ofDraft Draft.inserted).switch "stage" "first" true).2.routeSets "stage" = .ok sets
      ∧ sets.map Item.id = ["first", "last"] := by
  have stored : DocumentStore.load (ofDraft Draft.inserted).store "stage"
      = .ok Draft.inserted.document := rfl
  have collection : Draft.inserted.document.IsCollection :=
    ⟨by decide, by decide, by decide⟩
  have holds : Draft.inserted.document.HoldsPlace "first" := by
    refine ⟨by decide, .inr fun op made => ?_⟩
    cases made
    decide
  have listed : RouteSets.ofDocument Draft.inserted.document
      = [
        { id := "first", computed := some (RouteSets.loneSet "First"), defaultValue := none,
          ops := Draft.inserted.log.opsOn "first" },
        { id := "last", computed := some (RouteSets.loneSet "Last"), defaultValue := none,
          ops := Draft.inserted.log.opsOn "last" }
      ] :=
    RouteSets.ofDocument_of_ordered (by decide +kernel) (by decide +kernel)
  have ranks : LawfulStore.KeepsRanks (MonitoredStore MemoryStore) Draft.inserted.document :=
    fun id => congrArg (Document.rank? · id) (Document.mapFloats_id Draft.inserted.document)
  obtain ⟨switched, -⟩ := requests_keep_order (ofDraft Draft.inserted) stored collection ranks
  rw [listed] at switched
  refine switched "first" true fun target live flag member => ?_
  obtain rfl : RouteSets.loneSet "First" = target := Option.some.inj live
  obtain rfl : flag = ("first", true) := List.mem_singleton.mp member
  exact holds

/-- When the first of two route sets is switched off that was made by setting its flag, it goes
to the end: edits give the collection this order and the request another one. -/
theorem switch_moves_flag_made :
    DocumentStore.load (ofDraft Draft.flagFirst).store "stage" = .ok Draft.flagFirst.document
      ∧ Draft.flagFirst.document.IsCollection
      ∧ (∃ outcome, ((ofDraft Draft.flagFirst).switch "stage" "first" false).1 = .ok outcome)
      ∧ (RouteSets.ofDocument Draft.flagFirst.document).map Item.id = ["first", "last"]
      ∧ ∃ sets, ((ofDraft Draft.flagFirst).switch "stage" "first" false).2.routeSets "stage"
            = .ok sets
          ∧ sets.map Item.id = ["last", "first"] := by
  have stored : DocumentStore.load (ofDraft Draft.flagFirst).store "stage"
      = .ok Draft.flagFirst.document := rfl
  have held : ((ofDraft Draft.flagFirst).locks.request "stage").2.holds
      ((ofDraft Draft.flagFirst).locks.request "stage").1 := holds_ofSides
  have order : (RouteSets.ofDocument (Draft.flagFirst.document.withFlags Draft.flagFirst.supply
      [("first", false)])).map Item.id = ["last", "first"] := by
    rw [RouteSets.ofDocument_of_ordered (by decide +kernel) rfl]
    decide +kernel
  have final : DocumentStore.load ((ofDraft Draft.flagFirst).switch "stage" "first" false).2.store
      "stage" = .ok (Draft.flagFirst.document.withFlags Draft.flagFirst.supply
        [("first", false)]) := by
    rw [store_switch_of_holds held]
    simp only [switchLocked, stored, planSwitch, RouteSets.ofDocument_flagFirst]
    decide +kernel
  have succeeded : ((ofDraft Draft.flagFirst).switch "stage" "first" false).1
      = .ok { routeSetId := "first", active := false, previouslyActive := true,
              deactivated := [], committed := true, logLength := 3 } := by
    rw [switch_of_holds held]
    simp only [switchLocked, stored, planSwitch, RouteSets.ofDocument_flagFirst]
    decide +kernel
  refine ⟨stored, ⟨by decide, by decide, by decide⟩, ⟨_, succeeded⟩, ?_, _, ?_, order⟩
  · rw [RouteSets.ofDocument_flagFirst]
    rfl
  · rw [routeSets, final]

/-! ## Runs -/

/-- No run changes the order of the route sets of an owner, if all live ones hold their places
at the start and the ranks come back from the store. -/
theorem Reaches.map_id_ofDocument [LawfulStore σ] {start finish : Controller σ}
    (run : Reaches start finish) {owner : String} {document : Document Json}
    (stored : DocumentStore.load start.store owner = .ok document)
    (settled : document.IsSettled) (ranks : LawfulStore.KeepsRanks σ document) :
    ∃ final, DocumentStore.load finish.store owner = .ok final ∧ final.IsSettled
      ∧ (RouteSets.ofDocument final).map Item.id
        = (RouteSets.ofDocument document).map Item.id := by
  obtain ⟨final, held, finalSettled, -, order⟩ :=
    run.keeps (P := fun current => current.IsSettled ∧ LawfulStore.KeepsRanks σ current
        ∧ (RouteSets.ofDocument current).map Item.id = (RouteSets.ofDocument document).map Item.id)
      (fun current ⟨settled, ranks, order⟩ supply flags owned => by
        have ownsFlags := owned settled.collection
        have set : Document.FlagsSet flags current (current.withFlags supply flags) :=
          .of_setFlags settled.collection supply ownsFlags.distinct
        exact ⟨settled.withFlags supply ownsFlags,
          ranks.of_flagsSet set fun flag member =>
            (settled.holds flag.1 (ownsFlags.live flag member)).isSome,
          (settled.map_id_withFlags supply ownsFlags).trans order⟩)
      (fun current ⟨settled, ranks, order⟩ => ⟨settled.mapFloats _, ranks.mapFloats,
        (Document.map_id_mapFloats settled.collection ranks).trans order⟩)
      stored ⟨settled, ranks, rfl⟩
  exact ⟨final, held, finalSettled, order⟩

end Controller

end LayerRouting
