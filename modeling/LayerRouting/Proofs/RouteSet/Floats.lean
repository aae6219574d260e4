import LayerRouting.Proofs.Override.Floats
import LayerRouting.Proofs.RouteSet.Exclusivity

/-!
# Route sets with other binary64 numbers

Whether a tree reads as a route set does not depend on its binary64 numbers, and these show in few
places of the route set: in its rank and in the options and unknown members of remappings. The
form of a route set is what it is without them (`RouteSet.withoutFloats`). A document whose
numbers were changed has route sets of the same forms under the same ids
(`RouteSets.alike_mapFloats`), although they may come in another order.
-/

namespace LayerRouting

variable {change : Binary64 -> Binary64}

/-! ## Forms of route sets -/

namespace Remapping

/-- A remapping in which every binary64 number is zero. -/
def withoutFloats (remapping : Remapping) : Remapping :=
  { remapping with
    options := remapping.options.map (Entries.mapValues Json.withoutFloats)
    extra := Entries.mapValues Json.withoutFloats remapping.extra }

end Remapping

namespace Route

/-- A route in which every binary64 number is zero. -/
def withoutFloats (route : Route) : Route :=
  { route with remapping := route.remapping.map Remapping.withoutFloats }

end Route

namespace RouteSet

/-- A route set in which every binary64 number is zero. -/
def withoutFloats (set : RouteSet) : RouteSet :=
  { set with
    routes := set.routes.map Route.withoutFloats
    rank := set.rank.map fun _ => .zero }

@[simp] theorem active_withoutFloats (set : RouteSet) : set.withoutFloats.active = set.active :=
  rfl

@[simp] theorem group?_withoutFloats (set : RouteSet) : set.withoutFloats.group? = set.group? :=
  rfl

end RouteSet

/-! ## Reading without binary64 numbers -/

/-- Whether what a tree reads as has the same form after any change of its binary64 numbers. -/
def ReadsForm {α β : Type} (form : α -> β) (read? : Json -> Option α) : Prop :=
  ∀ change tree, (read? (tree.mapFloats change)).map form = (read? tree).map form

/-- Steps that go by the form of a value, after values of the same form. -/
theorem map_bind_congr {α β γ δ : Type} {form : α -> γ} {result : β -> δ} {first second : Option α}
    {firstStep secondStep : α -> Option β} (same : first.map form = second.map form)
    (steps : ∀ left right, form left = form right ->
      (firstStep left).map result = (secondStep right).map result) :
    (first.bind firstStep).map result = (second.bind secondStep).map result := by
  match first, second, same with
  | none, none, _ => rfl
  | some left, some right, same => exact steps left right (Option.some.inj same)

namespace Json

theorem readsForm_asString? : ReadsForm id asString? := by
  intro change tree
  cases tree <;> rfl

theorem readsForm_asBool? : ReadsForm id asBool? := by
  intro change tree
  cases tree <;> rfl

/-- A number is a number after any change. -/
theorem readsForm_asBinary64? : ReadsForm (fun _ => Binary64.zero) asBinary64? := by
  intro change tree
  cases tree <;> rfl

theorem readsForm_readEntries? : ReadsForm (Entries.mapValues withoutFloats) readEntries? := by
  intro change tree
  cases tree with
  | object entries =>
      rw [mapFloats_object]
      simp only [readEntries?, Option.map_some, Entries.mapValues, List.map_map]
      refine congrArg some (List.map_congr_left fun entry _ => ?_)
      exact Prod.ext rfl (withoutFloats_mapFloats change entry.2)
  | array items => rw [mapFloats_array]; rfl
  | null | bool | number | string => rfl

theorem readsForm_readName? : ReadsForm id readName? := by
  intro change tree
  match tree with
  | .object [] | .null | .bool _ | .number _ | .string _ => rfl
  | .array items => rw [mapFloats_array]; rfl
  | .object [(name, value)] => rw [mapFloats_object]; cases value <;> rfl
  | .object ((_, value) :: (_, _) :: _) => rw [mapFloats_object]; cases value <;> rfl

theorem readsForm_readItems? {α β : Type} {form : α -> β} {read? : Json -> Option α}
    (reads : ReadsForm form read?) : ReadsForm (List.map form) (readItems? read?) := by
  intro change tree
  cases tree with
  | array items =>
      rw [mapFloats_array, readItems?, readItems?]
      induction items with
      | nil => rfl
      | cons item rest inductionHypothesis =>
          simp only [List.map_cons, List.mapM_cons, Option.bind_eq_bind]
          refine map_bind_congr (reads change item) fun left right same => ?_
          refine map_bind_congr inductionHypothesis fun lefts rights others => ?_
          simp [same, others]
  | object entries => rw [mapFloats_object]; rfl
  | null | bool | number | string => rfl

end Json

/-- A name that is read goes by the form of the tree. -/
theorem ReadsForm.bind {α : Type} {read? : Json -> Option String} (reads : ReadsForm id read?)
    (ofName? : String -> Option α) : ReadsForm id fun tree => (read? tree).bind ofName? :=
  fun change tree => map_bind_congr (reads change tree) fun _ _ same =>
    congrArg (fun name => (ofName? name).map id) same

namespace Record

variable {α β : Type} {form : α -> β} {read? : Json -> Option α}

theorem ofObject?_mapFloats (tree : Json) :
    ofObject? (tree.mapFloats change)
      = (ofObject? tree).map (Entries.mapValues (Json.mapFloats change)) := by
  cases tree with
  | object entries => rw [Json.mapFloats_object]; rfl
  | array items => rw [Json.mapFloats_array]; rfl
  | null | bool | number | string => rfl

theorem ofTree?_mapFloats (names : List String) (tree : Json) :
    ofTree? names (tree.mapFloats change)
      = (ofTree? names tree).map (Entries.mapValues (Json.mapFloats change)) := by
  cases tree with
  | object entries => rw [Json.mapFloats_object]; rfl
  | array items =>
      rw [Json.mapFloats_array, ofTree?, ofTree?, List.length_map]
      split
      · rw [Option.map_some, List.zip_map_right]
        rfl
      · rfl
  | null | bool | number | string => rfl

theorem required?_mapFloats (reads : ReadsForm form read?) (record : Record) (name : String) :
    (required? (Entries.mapValues (Json.mapFloats change) record) name read?).map form
      = (record.required? name read?).map form := by
  rw [required?, required?, Entries.get?_mapValues]
  cases Entries.get? name record with
  | none => rfl
  | some value => exact reads change value

theorem defaulted?_mapFloats (reads : ReadsForm form read?) (record : Record) (name : String)
    (default : α) :
    (defaulted? (Entries.mapValues (Json.mapFloats change) record) name default read?).map form
      = (record.defaulted? name default read?).map form := by
  rw [defaulted?, defaulted?, Entries.get?_mapValues]
  cases Entries.get? name record with
  | none => rfl
  | some value => exact reads change value

theorem optional?_mapFloats (reads : ReadsForm form read?) (record : Record) (name : String) :
    (optional? (Entries.mapValues (Json.mapFloats change) record) name read?).map (Option.map form)
      = (record.optional? name read?).map (Option.map form) := by
  have read (value : Json) : ((read? (value.mapFloats change)).map some).map (Option.map form)
      = ((read? value).map some).map (Option.map form) := by
    have same := congrArg (Option.map some) (reads change value)
    simpa using same
  rw [optional?, optional?, Entries.get?_mapValues]
  cases Entries.get? name record with
  | none => rfl
  | some value =>
      cases value with
      | null => rfl
      | bool | number | string | array | object => exact read _

theorem unknown_mapFloats (names : List String) (record : Record) :
    unknown names (Entries.mapValues (Json.mapFloats change) record)
      = Entries.mapValues (Json.mapFloats change) (record.unknown names) :=
  List.filter_map

end Record

theorem Entries.withoutFloats_mapFloats (entries : List (String × Json)) :
    mapValues Json.withoutFloats (mapValues (Json.mapFloats change) entries)
      = mapValues Json.withoutFloats entries := by
  rw [mapValues, mapValues, List.map_map]
  exact List.map_congr_left fun entry _ => Prod.ext rfl (Json.withoutFloats_mapFloats change _)

/-! ## Reading route sets -/

theorem Remapping.readsForm_ofJson? : ReadsForm withoutFloats ofJson? := by
  intro change tree
  simp only [ofJson?, Record.ofObject?_mapFloats, Option.bind_eq_bind]
  cases Record.ofObject? tree with
  | none => rfl
  | some record =>
      simp only [Option.map_some, Option.bind_some]
      refine map_bind_congr (Record.optional?_mapFloats Json.readsForm_asString? record "deviceId")
        fun _ _ deviceId => ?_
      refine map_bind_congr (Record.optional?_mapFloats
        (Json.readsForm_readName?.bind Lookahead.ofName?) record "lookahead")
        fun _ _ lookahead => ?_
      refine map_bind_congr (Record.optional?_mapFloats Json.readsForm_readEntries? record "options")
        fun _ _ options => ?_
      refine map_bind_congr (Record.optional?_mapFloats Json.readsForm_asString? record "layerName")
        fun _ _ layerName => ?_
      simp only [Option.map_id_fun, id_eq] at deviceId lookahead layerName
      simp only [Option.map_some, withoutFloats, deviceId, lookahead, options, layerName,
        Record.unknown_mapFloats, Entries.withoutFloats_mapFloats]

theorem Route.readsForm_ofJson? : ReadsForm withoutFloats ofJson? := by
  intro change tree
  simp only [ofJson?, Record.ofTree?_mapFloats, Option.bind_eq_bind]
  cases Record.ofTree? memberNames tree with
  | none => rfl
  | some record =>
      simp only [Option.map_some, Option.bind_some]
      refine map_bind_congr
        (Record.optional?_mapFloats Json.readsForm_asString? record "mappedLayer")
        fun _ _ mappedLayer => ?_
      refine map_bind_congr
        (Record.optional?_mapFloats Json.readsForm_asString? record "outputMappedLayer")
        fun _ _ outputMappedLayer => ?_
      refine map_bind_congr (Record.defaulted?_mapFloats
        (Json.readsForm_readName?.bind RouteType.ofName?) record "routeType" .reroute)
        fun _ _ routeType => ?_
      refine map_bind_congr (Record.optional?_mapFloats Json.readsForm_asString? record "deviceType")
        fun _ _ deviceType => ?_
      refine map_bind_congr
        (Record.optional?_mapFloats Remapping.readsForm_ofJson? record "remapping")
        fun _ _ remapping => ?_
      simp only [Option.map_id_fun, id_eq] at mappedLayer outputMappedLayer routeType deviceType
      simp only [Option.map_some, withoutFloats, mappedLayer, outputMappedLayer, routeType,
        deviceType, remapping]

theorem PlayerId.readsForm_ofJson? : ReadsForm id ofJson? := by
  intro change tree
  match tree with
  | .number (.int _) | .number (.float _) | .null | .bool _ | .string _ | .array _ | .object _ =>
      rfl

theorem PoolMember.readsForm_ofJson? : ReadsForm id ofJson? := by
  intro change tree
  simp only [ofJson?, Record.ofTree?_mapFloats, Option.bind_eq_bind]
  cases Record.ofTree? memberNames tree with
  | none => rfl
  | some record =>
      simp only [Option.map_some, Option.bind_some]
      refine map_bind_congr (Record.required?_mapFloats Json.readsForm_asString? record "poolName")
        fun _ _ poolName => ?_
      refine map_bind_congr
        (Record.required?_mapFloats PlayerId.readsForm_ofJson? record "playerId")
        fun _ _ playerId => ?_
      simp only [id_eq] at poolName playerId
      rw [poolName, playerId]

/-- Whether a tree reads as a route set, and of which form, does not depend on its binary64
numbers. -/
theorem RouteSet.readsForm_ofJson? : ReadsForm withoutFloats ofJson? := by
  intro change tree
  simp only [ofJson?, Record.ofTree?_mapFloats, Option.bind_eq_bind]
  cases Record.ofTree? memberNames tree with
  | none => rfl
  | some record =>
      simp only [Option.map_some, Option.bind_some]
      refine map_bind_congr (Record.required?_mapFloats Json.readsForm_asString? record "name")
        fun _ _ name => ?_
      refine map_bind_congr
        (Record.defaulted?_mapFloats Json.readsForm_asBool? record "active" false)
        fun _ _ active => ?_
      refine map_bind_congr
        (Record.optional?_mapFloats Json.readsForm_asBool? record "defaultActive")
        fun _ _ defaultActive => ?_
      refine map_bind_congr (Record.defaulted?_mapFloats
        (Json.readsForm_readName?.bind Behavior.ofName?) record "behavior" .toggle)
        fun _ _ behavior => ?_
      refine map_bind_congr
        (Record.optional?_mapFloats Json.readsForm_asString? record "exclusivityGroup")
        fun _ _ exclusivityGroup => ?_
      refine map_bind_congr (Record.defaulted?_mapFloats
        (Json.readsForm_readItems? Route.readsForm_ofJson?) record "routes" [])
        fun _ _ routes => ?_
      refine map_bind_congr (Record.defaulted?_mapFloats
        (Json.readsForm_readItems? PoolMember.readsForm_ofJson?) record "abPlayers" [])
        fun _ _ abPlayers => ?_
      refine map_bind_congr (Record.optional?_mapFloats Json.readsForm_asBinary64? record "_rank")
        fun _ _ rank => ?_
      simp only [id_eq, Option.map_id_fun, List.map_id_fun]
        at name active defaultActive behavior exclusivityGroup abPlayers
      simp only [Option.map_some, withoutFloats, name, active, defaultActive, behavior,
        exclusivityGroup, routes, abPlayers, rank]

/-! ## Route sets of documents -/

namespace RouteSet

variable {left right : RouteSet}

/-- Route sets of one form have the same flag. -/
theorem active_eq_of_form (same : left.withoutFloats = right.withoutFloats) :
    left.active = right.active := by
  rw [← left.active_withoutFloats, same, active_withoutFloats]

/-- Route sets of one form are in the same group. -/
theorem group?_eq_of_form (same : left.withoutFloats = right.withoutFloats) :
    left.group? = right.group? := by
  rw [← left.group?_withoutFloats, same, group?_withoutFloats]

/-- Route sets of one form are active members of the same groups. -/
theorem claims_iff_of_form (same : left.withoutFloats = right.withoutFloats) {group : String} :
    left.Claims group ↔ right.Claims group := by
  rw [Claims, Claims, active_eq_of_form same, group?_eq_of_form same]

end RouteSet

/-- Whether the route sets under the same ids are of the same forms. -/
structure RouteSets.Alike (left right : RouteSets) : Prop where
  ids : ∀ id, id ∈ right.map Item.id ↔ id ∈ left.map Item.id
  live : ∀ id, (right.liveSet? id).map RouteSet.withoutFloats
    = (left.liveSet? id).map RouteSet.withoutFloats
  defaults : ∀ id, (right.defaultSet? id).map RouteSet.withoutFloats
    = (left.defaultSet? id).map RouteSet.withoutFloats

namespace RouteSets.Alike

variable {left right : RouteSets}

theorem refl (sets : RouteSets) : sets.Alike sets :=
  ⟨fun _ => .rfl, fun _ => rfl, fun _ => rfl⟩

theorem symm (alike : left.Alike right) : right.Alike left :=
  ⟨fun id => (alike.ids id).symm, fun id => (alike.live id).symm,
    fun id => (alike.defaults id).symm⟩

/-- A route set that is live among the one has a counterpart of its form among the others. -/
theorem exists_live (alike : left.Alike right) {id : String} {set : RouteSet}
    (live : right.liveSet? id = some set) :
    ∃ old, left.liveSet? id = some old ∧ set.withoutFloats = old.withoutFloats := by
  have same := alike.live id
  rw [live, Option.map_some, eq_comm, Option.map_eq_some_iff] at same
  obtain ⟨old, oldLive, form⟩ := same
  exact ⟨old, oldLive, form.symm⟩

theorem isSome_liveSet? (alike : left.Alike right) (id : String) :
    (right.liveSet? id).isSome = (left.liveSet? id).isSome := by
  rw [← Option.isSome_map, alike.live id, Option.isSome_map]

end RouteSets.Alike

namespace Document

variable {document : Document Json}

/-- A collection is one with other binary64 numbers, too. -/
theorem IsCollection.mapFloats (collection : document.IsCollection) :
    (document.mapFloats change).IsCollection where
  object := (Json.isObject_mapFloats _).trans collection.object
  distinct := by
    have keys : (document.defaults.mapFloats change).keys = document.defaults.keys :=
      Json.keys_mapFloats document.defaults
    exact keys.symm ▸ collection.distinct
  belowRoot := by
    refine List.forall_mem_map.mpr fun op member => ?_
    rw [Op.path_mapFloats]
    exact collection.belowRoot op member

end Document

namespace RouteSets

/-- The forms of a live and a default route set. -/
def formsOf (values : Option RouteSet × Option RouteSet) : Option RouteSet × Option RouteSet :=
  (values.1.map RouteSet.withoutFloats, values.2.map RouteSet.withoutFloats)

theorem readOptional?_mapFloats (value : Option Json) :
    (Item.readOptional? RouteSet.ofJson? (value.map (Json.mapFloats change))).map
        (Option.map RouteSet.withoutFloats)
      = (Item.readOptional? RouteSet.ofJson? value).map (Option.map RouteSet.withoutFloats) := by
  cases value with
  | none => rfl
  | some value =>
      have same := congrArg (Option.map some) (RouteSet.readsForm_ofJson? change value)
      simpa [Item.readOptional?] using same

/-- The forms under an id do not depend on the binary64 numbers of the values. -/
theorem readValues?_mapFloats (computed default : Option Json) :
    (readValues? (computed.map (Json.mapFloats change))
        (default.map (Json.mapFloats change))).map formsOf
      = (readValues? computed default).map formsOf := by
  simp only [readValues?, Option.isNone_map]
  split
  · rfl
  · refine map_bind_congr (readOptional?_mapFloats computed) fun _ _ live => ?_
    refine map_bind_congr (readOptional?_mapFloats default) fun _ _ unedited => ?_
    simp only [Option.map_some, formsOf, live, unedited]

/-- A document with other binary64 numbers has route sets of the same forms. -/
theorem alike_mapFloats {document : Document Json} (collection : document.IsCollection)
    (change : Binary64 -> Binary64) :
    (ofDocument document).Alike (ofDocument (document.mapFloats change)) := by
  have values (id : String) : ((ofDocument (document.mapFloats change)).values? id).map formsOf
      = ((ofDocument document).values? id).map formsOf := by
    have defaults : (document.mapFloats change).defaults = document.defaults.mapFloats change := rfl
    rw [values?_ofDocument collection.mapFloats, values?_ofDocument collection,
      Document.resolved_mapFloats, defaults, Json.get?_mapFloats, Json.get?_mapFloats,
      readValues?_mapFloats]
  refine ⟨fun id => ?_, fun id => ?_, fun id => ?_⟩
  · rw [mem_ids_iff, mem_ids_iff, ← Option.isSome_map, values id, Option.isSome_map]
  · have live := congrArg (Option.bind · Prod.fst) (values id)
    rw [liveSet?_eq, liveSet?_eq, Option.map_bind, Option.map_bind]
    simpa [Option.bind_map, Function.comp_def, formsOf] using live
  · have default := congrArg (Option.bind · Prod.snd) (values id)
    rw [defaultSet?_eq, defaultSet?_eq, Option.map_bind, Option.map_bind]
    simpa [Option.bind_map, Function.comp_def, formsOf] using default

end RouteSets

end LayerRouting
