import LayerRouting.Proofs.Override.Codec
import LayerRouting.Proofs.RouteSet.MappingForm

/-!
# Reading again what was read

A tree can spell a value in several ways: members in any order, an array of members in place of an
object, an object in place of a name, null or nothing for what is absent, any number for a rank.
What is read is written in one way, and that reads as the same value (`keepsTypedForms`). All values
but mappings and remappings read back whether they were read or not; these do because a reader
keeps as unknown only members that it does not know.
-/

namespace LayerRouting

/-! ## Members -/

namespace Record

variable {α : Type} {record : Record} {name : String}

/-- A member that must be there reads as it was written. -/
theorem required?_of_get? {value : α} (tree : Json) {read? : Json -> Option α}
    (held : Entries.get? name record = some tree) (reads : read? tree = some value) :
    record.required? name read? = some value := by
  rw [required?, held, Option.bind_some, reads]

/-- A member with a value of its own reads as it was written. -/
theorem defaulted?_of_get? {default value : α} (tree : Json) {read? : Json -> Option α}
    (held : Entries.get? name record = some tree) (reads : read? tree = some value) :
    record.defaulted? name default read? = some value := by
  rw [defaulted?, held]
  exact reads

end Record

/-! ## Names and ids -/

theorem Behavior.ofJson?_toJson (behavior : Behavior) :
    ofJson? behavior.toJson = some behavior := by
  cases behavior <;> rfl

theorem RouteType.ofJson?_toJson (routeType : RouteType) :
    ofJson? routeType.toJson = some routeType := by
  cases routeType <;> rfl

/-- A signed word is a player id. -/
theorem PlayerId.ofInt?_toInt (value : Int64) : ofInt? value.toInt = some (.number value) := by
  have least := value.le_toInt
  have most := value.toInt_lt
  rw [ofInt?, if_pos (by omega), Int64.ofInt_toInt]

theorem PlayerId.ofJson?_toJson (player : PlayerId) : ofJson? player.toJson = some player := by
  cases player with
  | number value => exact ofInt?_toInt value
  | name value => rfl

theorem PoolMember.ofJson?_toJson (member : PoolMember) : ofJson? member.toJson = some member := by
  simp [ofJson?, toJson, Record.ofTree?, Record.required?, Entries.get?, Json.asString?,
    PlayerId.ofJson?_toJson]

/-! ## Remappings and routes -/

/-- A well-formed remapping reads back. -/
theorem Remapping.IsWellFormed.ofJson?_toJson {remapping : Remapping}
    (wellFormed : remapping.IsWellFormed) : ofJson? remapping.toJson = some remapping := by
  have foreign : Record.IsForeignTo memberNames remapping.extra := wellFormed
  have listed := remapping.keys_knownMembers_sublist
  have distinct : (Entries.keys remapping.members).Nodup :=
    foreign.nodup_keys_append (by decide) listed
  have unknown : remapping.members.unknown memberNames = remapping.extra :=
    foreign.unknown_append listed
  have read : remapping.IsReadFrom remapping.members :=
    isReadFrom_append foreign (List.Subset.refl _) fun _ _ => rfl
  simp [toJson, Entries.ofList_of_nodup distinct, ofJson?, Record.ofObject?, read.deviceId,
    read.lookahead, read.options, read.layerName, unknown]

namespace Route

/-- The members of a route that are written. -/
def members (route : Route) : Record :=
  Json.optionalEntry "mappedLayer" .string route.mappedLayer
    ++ Json.optionalEntry "outputMappedLayer" .string route.outputMappedLayer
    ++ [("routeType", route.routeType.toJson)]
    ++ Json.optionalEntry "deviceType" .string route.deviceType
    ++ Json.optionalEntry "remapping" Remapping.toJson route.remapping

theorem toJson_eq (route : Route) : route.toJson = .object route.members :=
  rfl

/-- A route reads back if its remapping is well formed. -/
theorem ofJson?_toJson {route : Route}
    (wellFormed : ∀ remapping ∈ route.remapping, remapping.IsWellFormed) :
    ofJson? route.toJson = some route := by
  have mappedLayer : route.members.optional? "mappedLayer" Json.asString?
      = some route.mappedLayer :=
    Record.optional?_of_get? .string
      (by simp [members, Entries.get?_append, Json.get?_optionalEntry, Entries.get?])
      (fun _ _ => rfl) fun _ => Json.noConfusion
  have outputMappedLayer : route.members.optional? "outputMappedLayer" Json.asString?
      = some route.outputMappedLayer :=
    Record.optional?_of_get? .string
      (by simp [members, Entries.get?_append, Json.get?_optionalEntry, Entries.get?])
      (fun _ _ => rfl) fun _ => Json.noConfusion
  have routeType : route.members.defaulted? "routeType" .reroute RouteType.ofJson?
      = some route.routeType :=
    Record.defaulted?_of_get? route.routeType.toJson
      (by simp [members, Entries.get?_append, Json.get?_optionalEntry, Entries.get?])
      route.routeType.ofJson?_toJson
  have deviceType : route.members.optional? "deviceType" Json.asString? = some route.deviceType :=
    Record.optional?_of_get? .string
      (by simp [members, Entries.get?_append, Json.get?_optionalEntry, Entries.get?])
      (fun _ _ => rfl) fun _ => Json.noConfusion
  have remapping : route.members.optional? "remapping" Remapping.ofJson? = some route.remapping :=
    Record.optional?_of_get? Remapping.toJson
      (by simp [members, Entries.get?_append, Json.get?_optionalEntry, Entries.get?])
      (fun remapping held => (wellFormed remapping held).ofJson?_toJson) fun _ => Json.noConfusion
  simp [toJson_eq, ofJson?, Record.ofTree?, mappedLayer, outputMappedLayer, routeType, deviceType,
    remapping]

end Route

/-! ## Route sets -/

namespace RouteSet

/-- The members of a route set that are written. -/
def members (set : RouteSet) : Record :=
  [("name", .string set.name), ("active", .bool set.active)]
    ++ Json.optionalEntry "defaultActive" .bool set.defaultActive
    ++ [("behavior", set.behavior.toJson)]
    ++ Json.optionalEntry "exclusivityGroup" .string set.exclusivityGroup
    ++ [("routes", Json.ofList Route.toJson set.routes),
        ("abPlayers", Json.ofList PoolMember.toJson set.abPlayers)]
    ++ Json.optionalEntry "_rank" Json.float set.rank

theorem toJson_eq (set : RouteSet) : set.toJson = .object set.members :=
  rfl

/-- A route set reads back if the remappings of its routes are well formed. -/
theorem ofJson?_toJson {set : RouteSet}
    (wellFormed : ∀ route ∈ set.routes, ∀ remapping ∈ route.remapping, remapping.IsWellFormed) :
    ofJson? set.toJson = some set := by
  have name : set.members.required? "name" Json.asString? = some set.name :=
    Record.required?_of_get? (.string set.name) (by simp [members, Entries.get?]) rfl
  have active : set.members.defaulted? "active" false Json.asBool? = some set.active :=
    Record.defaulted?_of_get? (.bool set.active) (by simp [members, Entries.get?]) rfl
  have defaultActive : set.members.optional? "defaultActive" Json.asBool?
      = some set.defaultActive :=
    Record.optional?_of_get? .bool
      (by simp [members, Entries.get?_append, Json.get?_optionalEntry, Entries.get?])
      (fun _ _ => rfl) fun _ => Json.noConfusion
  have behavior : set.members.defaulted? "behavior" .toggle Behavior.ofJson?
      = some set.behavior :=
    Record.defaulted?_of_get? set.behavior.toJson
      (by simp [members, Entries.get?_append, Json.get?_optionalEntry, Entries.get?])
      set.behavior.ofJson?_toJson
  have exclusivityGroup : set.members.optional? "exclusivityGroup" Json.asString?
      = some set.exclusivityGroup :=
    Record.optional?_of_get? .string
      (by simp [members, Entries.get?_append, Json.get?_optionalEntry, Entries.get?])
      (fun _ _ => rfl) fun _ => Json.noConfusion
  have routes : set.members.defaulted? "routes" [] (Json.readItems? Route.ofJson?)
      = some set.routes :=
    Record.defaulted?_of_get? (Json.ofList Route.toJson set.routes)
      (by simp [members, Entries.get?_append, Json.get?_optionalEntry, Entries.get?])
      (Json.readItems?_ofList fun route held => Route.ofJson?_toJson (wellFormed route held))
  have abPlayers : set.members.defaulted? "abPlayers" [] (Json.readItems? PoolMember.ofJson?)
      = some set.abPlayers :=
    Record.defaulted?_of_get? (Json.ofList PoolMember.toJson set.abPlayers)
      (by simp [members, Entries.get?_append, Json.get?_optionalEntry, Entries.get?])
      (Json.readItems?_ofList fun member _ => member.ofJson?_toJson)
  have rank : set.members.optional? "_rank" Json.asBinary64? = some set.rank :=
    Record.optional?_of_get? Json.float
      (by simp [members, Entries.get?_append, Json.get?_optionalEntry, Entries.get?])
      (fun _ _ => rfl) fun _ => Json.noConfusion
  simp [toJson_eq, ofJson?_eq, Record.ofTree?, ofRecord?, name, active, defaultActive, behavior,
    exclusivityGroup, routes, abPlayers, rank]

end RouteSet

/-! ## Documents -/

/-- A document reads back if its defaults do. -/
theorem Document.ofJson?_toJson {α : Type} {read? : Json -> Option α} {write : α -> Json}
    {document : Document α} (reads : read? (write document.defaults) = some document.defaults) :
    Document.ofJson? read? (document.toJson write) = some document := by
  simp [Document.ofJson?, Document.toJson, Record.ofTree?, Record.required?, Record.defaulted?,
    Entries.get?, reads, Log.ofJson?_toJson]

/-! ## All types -/

/-- Whether whatever reads as a type, in any of the ways to spell it, is written as a tree that
reads as the same value. -/
def ReadsAgain {α : Type} (read? : Json -> Option α) (write : α -> Json) : Prop :=
  ∀ {tree : Json} {value : α}, tree.RepeatsNoKey -> read? tree = some value ->
    read? (write value) = some value

/-- What the types of the format promise. -/
structure KeepsTypedForms : Prop where
  routeSet : ReadsAgain RouteSet.ofJson? RouteSet.toJson
  route : ReadsAgain Route.ofJson? Route.toJson
  mapping : ReadsAgain Mapping.ofJson? Mapping.toJson
  remapping : ReadsAgain Remapping.ofJson? Remapping.toJson
  poolMember : ReadsAgain PoolMember.ofJson? PoolMember.toJson
  op : ReadsAgain Op.ofJson? Op.toJson
  path : ReadsAgain Path.ofJson? Path.toJson
  /-- Documents of trees. -/
  document : ReadsAgain (Document.ofJson? some) (Document.toJson id)
  /-- Documents whose defaults are of a type that keeps the promise. -/
  typedDocument {α : Type} {read? : Json -> Option α} {write : α -> Json}
    (kept : ReadsAgain read? write) :
    ReadsAgain (Document.ofJson? read?) (Document.toJson write)

/-- The defaults of a document that is read are read from a tree that repeats no key either. -/
theorem Document.exists_of_ofJson? {α : Type} {read? : Json -> Option α} {tree : Json}
    {document : Document α} (distinct : tree.RepeatsNoKey)
    (read : Document.ofJson? read? tree = some document) :
    ∃ defaults : Json, defaults.RepeatsNoKey ∧ read? defaults = some document.defaults := by
  obtain ⟨levels, fits⟩ := distinct
  simp only [Document.ofJson?, Option.bind_eq_bind, Option.bind_eq_some_iff,
    Option.some.injEq] at read
  obtain ⟨record, members, value, held, _, -, rfl⟩ := read
  obtain ⟨defaults, found, reads⟩ := Option.bind_eq_some_iff.mp held
  exact ⟨defaults, ⟨levels, Record.fits_of_ofTree? fits members _ (Entries.mem_of_get? found)⟩,
    reads⟩

/-- Whatever is read from a tree without repeated keys, from an object, an array of members or an
object for a name, is written as a tree that reads as the same again, with the unknown members of
mappings and remappings in their order. -/
theorem keepsTypedForms : KeepsTypedForms where
  routeSet := fun ⟨levels, fits⟩ read =>
    RouteSet.ofJson?_toJson fun _ routed _ remapped =>
      RouteSet.IsRead.isWellFormed ⟨levels, _, fits, read⟩ routed remapped
  route := fun ⟨_, fits⟩ read =>
    Route.ofJson?_toJson fun _ remapped => Route.isWellFormed_of_ofJson? fits read remapped
  mapping := fun ⟨_, fits⟩ read =>
    Mapping.ofJson?_toJson_iff.mpr (Mapping.isWellFormed_of_ofJson?
      (fun _ object => (Record.fits_of_ofObject? fits object).2) read)
  remapping := fun ⟨_, fits⟩ read =>
    (Remapping.isWellFormed_of_ofJson? fits read).ofJson?_toJson
  poolMember := fun _ _ => PoolMember.ofJson?_toJson _
  op := fun _ _ => Op.ofJson?_toJson _
  path := fun _ _ => Path.ofJson?_toJson _
  document := fun _ _ => Document.ofJson?_toJson rfl
  typedDocument := fun kept _ _ distinct read => by
    obtain ⟨defaults, own, reads⟩ := Document.exists_of_ofJson? distinct read
    exact Document.ofJson?_toJson (kept own reads)

/-- A route set in other spellings than its written one: an array of members, of which the last is
left out, with an object for a name, nulls for what is absent, a route with a member that nothing
knows, and a remapping that keeps two. -/
def RouteSet.spelledSide : Json :=
  .array [.string "Left", .bool true, .null, .object [("TOGGLE", .null)], .null,
    .array [.object [
      ("remapping", .object [("index", .ofNat 4), ("layerName", .null), ("device", .string "A")]),
      ("outputMappedLayer", .string "stage"), ("color", .string "red")]],
    .array [.array [.string "clips", .ofNat 2]]]

theorem RouteSet.repeatsNoKey_spelledSide : spelledSide.RepeatsNoKey :=
  Json.repeatsNoKey_of_parse? (Content.ofChars (spelledSide.indented 0)) (by decide +kernel)

/-- A route set that was spelled in other ways is written in full and reads as the same. -/
theorem keepsTypedForms_spelledSide :
    RouteSet.spelledSide.RepeatsNoKey
      ∧ ∃ set, RouteSet.ofJson? RouteSet.spelledSide = some set
        ∧ set.toJson ≠ RouteSet.spelledSide ∧ RouteSet.ofJson? set.toJson = some set := by
  have reads : (RouteSet.ofJson? RouteSet.spelledSide).isSome := by decide +kernel
  obtain ⟨set, read⟩ := Option.isSome_iff_exists.mp reads
  exact ⟨RouteSet.repeatsNoKey_spelledSide, set, read, nofun,
    keepsTypedForms.routeSet RouteSet.repeatsNoKey_spelledSide read⟩

end LayerRouting
