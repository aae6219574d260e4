import LayerRouting.Proofs.Json.Levels
import LayerRouting.Proofs.RouteSet.Reading
import LayerRouting.Proofs.Text.Digits

/-!
# Well-formed mappings

A mapping keeps the members that it does not know beside those that it knows. It is well formed
if none of the former has the name of one of the latter; then no name is written twice, and the
mapping reads back as it is (`Mapping.readsBack_iff`). What a reader gives is well formed
(`Mapping.isWellFormed_of_ofJson?`), as are the remappings in a route set that was read
(`RouteSet.IsRead.isWellFormed`). But a remapping knows fewer members than a mapping: not `device`.
-/

namespace LayerRouting

/-! ## Members of records -/

namespace Record

variable {α : Type} {record : Record} {names : List String}

/-- A member that is there as it was written reads as it was. -/
theorem optional?_of_get? {name : String} {value : Option α} (write : α -> Json)
    {read? : Json -> Option α} (held : Entries.get? name record = value.map write)
    (reads : ∀ present ∈ value, read? (write present) = some present)
    (visible : ∀ present, write present ≠ .null) : record.optional? name read? = some value := by
  cases value with
  | none => simp [optional?, held]
  | some present =>
      rw [optional?, held, Option.map_some]
      split
      · next absent => cases absent
      · next same => exact absurd (Option.some.inj same) (visible present)
      · next same =>
          rw [← Option.some.inj same, reads present rfl]
          rfl

/-- Whether a record repeats no name and has none of some names. -/
structure IsForeignTo (names : List String) (record : Record) : Prop where
  distinct : (Entries.keys record).Nodup
  foreign : ∀ name ∈ Entries.keys record, name ∉ names

theorem isForeignTo_unknown (distinct : (Entries.keys record).Nodup) :
    (record.unknown names).IsForeignTo names where
  distinct := distinct.sublist (List.filter_sublist.map _)
  foreign := by
    intro name member
    obtain ⟨entry, held, rfl⟩ := List.mem_map.mp member
    exact of_decide_eq_true (List.mem_filter.mp held).2

namespace IsForeignTo

variable {known extra : Record}

/-- A member with one of the names is not among the others. -/
theorem get?_eq_none (foreign : extra.IsForeignTo names) {name : String} (member : name ∈ names) :
    Entries.get? name extra = none :=
  Option.not_isSome_iff_eq_none.mp fun found =>
    foreign.foreign name (Entries.get?_isSome_iff.mp found) member

/-- Known members in the order of the names, followed by others, repeat no name. -/
theorem nodup_keys_append (foreign : extra.IsForeignTo names) (distinct : names.Nodup)
    (listed : (Entries.keys known).Sublist names) : (Entries.keys (known ++ extra)).Nodup := by
  rw [Entries.keys, List.map_append, List.nodup_append]
  refine ⟨listed.nodup distinct, foreign.distinct, ?_⟩
  rintro name member other unknown rfl
  exact foreign.foreign name unknown (listed.subset member)

/-- The unknown members are found again among all of them. -/
theorem unknown_append (foreign : extra.IsForeignTo names)
    (listed : (Entries.keys known).Sublist names) : unknown names (known ++ extra) = extra := by
  rw [unknown, List.filter_append]
  have dropped : known.filter (fun entry => entry.1 ∉ names) = [] := by
    refine List.filter_eq_nil_iff.mpr fun entry member => ?_
    simpa using listed.subset (List.mem_map_of_mem member)
  have kept : extra.filter (fun entry => entry.1 ∉ names) = extra := by
    refine List.filter_eq_self.mpr fun entry member => ?_
    simpa using foreign.foreign entry.1 (List.mem_map_of_mem member)
  rw [dropped, kept, List.nil_append]

/-- A known member reads as it was written, whatever others follow. -/
theorem optional?_append (foreign : extra.IsForeignTo names) {name : String} {value : Option α}
    (write : α -> Json) {read? : Json -> Option α} (member : name ∈ names)
    (held : Entries.get? name known = value.map write)
    (reads : ∀ present, read? (write present) = some present)
    (visible : ∀ present, write present ≠ .null) :
    optional? (known ++ extra) name read? = some value := by
  refine optional?_of_get? write ?_ (fun present _ => reads present) visible
  rw [Entries.get?_append, held, foreign.get?_eq_none member, Option.or_none]

end IsForeignTo

/-- A member that may be absent is read from one of the entries. -/
theorem exists_of_optional? {name : String} {read? : Json -> Option α} {value : α}
    (read : record.optional? name read? = some (some value)) :
    ∃ entry ∈ record, read? entry.2 = some value := by
  rw [optional?] at read
  split at read
  · cases read
  · cases read
  · next tree _ held =>
      obtain ⟨present, found, same⟩ := Option.map_eq_some_iff.mp read
      cases same
      exact ⟨_, Entries.mem_of_get? held, found⟩

/-- A member with a value of its own has this value or is read from one of the entries. -/
theorem exists_of_defaulted? {name : String} {default value : α} {read? : Json -> Option α}
    (read : record.defaulted? name default read? = some value) :
    value = default ∨ ∃ entry ∈ record, read? entry.2 = some value := by
  rw [defaulted?] at read
  split at read
  · exact .inl (Option.some.inj read).symm
  · next held => exact .inr ⟨_, Entries.mem_of_get? held, read⟩

/-- The members of an object that nests some levels nest no more, and their names are distinct. -/
theorem fits_of_ofObject? {numbers : Number -> Prop} {levels : Nat} {tree : Json}
    (fits : tree.Fits numbers levels) (read : ofObject? tree = some record) :
    (∀ entry ∈ record, entry.2.Fits numbers levels) ∧ (Entries.keys record).Nodup := by
  cases fits with
  | null | bool | number | string | array => cases read
  | object fit distinct =>
      cases read
      exact ⟨fun entry member => (fit entry member).mono (Nat.le_succ _), distinct⟩

/-- The members of a tree that nests some levels nest no more. -/
theorem fits_of_ofTree? {numbers : Number -> Prop} {levels : Nat} {tree : Json}
    (fits : tree.Fits numbers levels) (read : ofTree? names tree = some record) :
    ∀ entry ∈ record, entry.2.Fits numbers levels := by
  cases fits with
  | null | bool | number | string => cases read
  | array fit =>
      simp only [ofTree?, Option.ite_none_right_eq_some, Option.some.injEq] at read
      obtain ⟨-, rfl⟩ := read
      exact fun entry member => (fit entry.2 (List.of_mem_zip member).2).mono (Nat.le_succ _)
  | object fit distinct => exact (fits_of_ofObject? (.object fit distinct) read).1

end Record

/-- The items of an array are read from trees that nest no more than it. -/
theorem Json.Fits.exists_of_readItems? {numbers : Number -> Prop} {levels : Nat} {tree : Json}
    (fits : tree.Fits numbers levels) {α : Type} {read? : Json -> Option α} {values : List α}
    (read : Json.readItems? read? tree = some values) :
    ∀ value ∈ values, ∃ item, item.Fits numbers levels ∧ read? item = some value := by
  cases fits with
  | null | bool | number | string | object => cases read
  | array fit =>
      intro value member
      obtain ⟨item, held, found⟩ := exists_of_mem_mapM read value member
      exact ⟨item, (fit item held).mono (Nat.le_succ _), found⟩

theorem Json.get?_optionalEntry {α : Type} (key name : String) (write : α -> Json)
    (value : Option α) :
    Entries.get? key (optionalEntry name write value)
      = if name = key then value.map write else none := by
  cases value <;> simp [optionalEntry, Entries.get?]

theorem Json.keys_optionalEntry {α : Type} (name : String) (write : α -> Json)
    (value : Option α) : (Entries.keys (optionalEntry name write value)).Sublist [name] := by
  cases value <;> simp [optionalEntry, Entries.keys]

theorem Lookahead.ofJson?_toJson (lookahead : Lookahead) :
    ofJson? lookahead.toJson = some lookahead := by
  cases lookahead <;> rfl

/-! ## Members that mappings and remappings share -/

namespace Remapping

/-- The known members of a remapping that are present. -/
def knownMembers (remapping : Remapping) : Record :=
  Json.optionalEntry "deviceId" .string remapping.deviceId
    ++ Json.optionalEntry "lookahead" Lookahead.toJson remapping.lookahead
    ++ Json.optionalEntry "options" .object remapping.options
    ++ Json.optionalEntry "layerName" .string remapping.layerName

theorem keys_knownMembers_sublist (remapping : Remapping) :
    (Entries.keys remapping.knownMembers).Sublist memberNames := by
  simp only [Entries.keys, knownMembers, List.map_append]
  exact (((Json.keys_optionalEntry _ _ _).append (Json.keys_optionalEntry _ _ _)).append
    (Json.keys_optionalEntry _ _ _)).append (Json.keys_optionalEntry _ _ _)

/-- Whether the known members of a remapping are what is read from a record. -/
structure IsReadFrom (remapping : Remapping) (record : Record) : Prop where
  deviceId : record.optional? "deviceId" Json.asString? = some remapping.deviceId
  lookahead : record.optional? "lookahead" Lookahead.ofJson? = some remapping.lookahead
  options : record.optional? "options" Json.readEntries? = some remapping.options
  layerName : record.optional? "layerName" Json.asString? = some remapping.layerName

/-- Known members that are there as they are written are read, whatever others follow. -/
theorem isReadFrom_append {remapping : Remapping} {names : List String} {known extra : Record}
    (foreign : extra.IsForeignTo names) (listed : memberNames ⊆ names)
    (held : ∀ name ∈ memberNames,
      Entries.get? name known = Entries.get? name remapping.knownMembers) :
    remapping.IsReadFrom (known ++ extra) where
  deviceId := by
    refine foreign.optional?_append .string (listed (by decide)) ?_ (fun _ => rfl) nofun
    rw [held _ (by decide)]
    simp [knownMembers, Entries.get?_append, Json.get?_optionalEntry]
  lookahead := by
    refine foreign.optional?_append Lookahead.toJson (listed (by decide)) ?_
      Lookahead.ofJson?_toJson nofun
    rw [held _ (by decide)]
    simp [knownMembers, Entries.get?_append, Json.get?_optionalEntry]
  options := by
    refine foreign.optional?_append .object (listed (by decide)) ?_ (fun _ => rfl) nofun
    rw [held _ (by decide)]
    simp [knownMembers, Entries.get?_append, Json.get?_optionalEntry]
  layerName := by
    refine foreign.optional?_append .string (listed (by decide)) ?_ (fun _ => rfl) nofun
    rw [held _ (by decide)]
    simp [knownMembers, Entries.get?_append, Json.get?_optionalEntry]

end Remapping

/-! ## Mappings -/

namespace Mapping

/-- Whether the members that a mapping does not know are distinct and have names that it does
not know. -/
def IsWellFormed (mapping : Mapping) : Prop :=
  Record.IsForeignTo memberNames mapping.extra

/-- What a mapping is but for its device. -/
def toRemapping (mapping : Mapping) : Remapping where
  deviceId := mapping.deviceId
  lookahead := mapping.lookahead
  options := mapping.options
  layerName := mapping.layerName
  extra := mapping.extra

/-- The known members of a mapping that are present. -/
def knownMembers (mapping : Mapping) : Record :=
  Json.optionalEntry "device" .string mapping.device ++ mapping.toRemapping.knownMembers

theorem keys_knownMembers_sublist (mapping : Mapping) :
    (Entries.keys mapping.knownMembers).Sublist memberNames := by
  rw [Entries.keys, knownMembers, List.map_append]
  exact (Json.keys_optionalEntry _ _ _).append mapping.toRemapping.keys_knownMembers_sublist

theorem members_eq_append (mapping : Mapping) :
    mapping.members = mapping.knownMembers ++ mapping.extra := by
  simp only [members, knownMembers, Remapping.knownMembers, toRemapping, List.append_assoc]

namespace IsWellFormed

variable {mapping : Mapping}

/-- No name is written twice. -/
theorem nodup_keys_members (wellFormed : mapping.IsWellFormed) :
    (Entries.keys mapping.members).Nodup := by
  rw [mapping.members_eq_append]
  exact Record.IsForeignTo.nodup_keys_append wellFormed (by decide)
    mapping.keys_knownMembers_sublist

/-- The members of a mapping read as the mapping. -/
theorem ofJson?_members (wellFormed : mapping.IsWellFormed) :
    ofJson? (.object mapping.members) = some mapping := by
  have foreign : Record.IsForeignTo memberNames mapping.extra := wellFormed
  have unknown : Record.unknown memberNames (mapping.knownMembers ++ mapping.extra)
      = mapping.extra :=
    foreign.unknown_append mapping.keys_knownMembers_sublist
  have device : Record.optional? (mapping.knownMembers ++ mapping.extra) "device" Json.asString?
      = some mapping.device :=
    foreign.optional?_append .string (by decide)
      (by simp [knownMembers, Remapping.knownMembers, Entries.get?_append,
        Json.get?_optionalEntry]) (fun _ => rfl) nofun
  have others : mapping.toRemapping.IsReadFrom (mapping.knownMembers ++ mapping.extra) := by
    refine Remapping.isReadFrom_append foreign (by decide) fun name member => ?_
    have different : "device" ≠ name := by
      rintro rfl
      exact absurd member (by decide)
    rw [knownMembers, Entries.get?_append, Json.get?_optionalEntry, if_neg different,
      Option.none_or]
  simp [ofJson?, Record.ofObject?, mapping.members_eq_append, device, others.deviceId,
    others.lookahead, others.options, others.layerName, unknown, toRemapping]

theorem toJson_eq (wellFormed : mapping.IsWellFormed) :
    mapping.toJson = .object mapping.members := by
  rw [toJson, Entries.ofList_of_nodup wellFormed.nodup_keys_members]

end IsWellFormed

/-- A mapping that is read from distinct members is well formed. -/
theorem isWellFormed_of_ofJson? {tree : Json} {mapping : Mapping}
    (distinct : ∀ record, Record.ofObject? tree = some record -> (Entries.keys record).Nodup)
    (read : ofJson? tree = some mapping) : mapping.IsWellFormed := by
  simp only [ofJson?, Option.bind_eq_bind, Option.bind_eq_some_iff, Option.some.injEq] at read
  obtain ⟨record, object, _, -, _, -, _, -, _, -, _, -, rfl⟩ := read
  exact Record.isForeignTo_unknown (distinct record object)

/-- The mappings that read back are the well-formed ones. -/
theorem ofJson?_toJson_iff {mapping : Mapping} :
    ofJson? mapping.toJson = some mapping ↔ mapping.IsWellFormed := by
  constructor
  · refine isWellFormed_of_ofJson? fun record object => ?_
    cases object
    exact Entries.nodup_keys_ofList mapping.members
  · intro wellFormed
    rw [wellFormed.toJson_eq, wellFormed.ofJson?_members]

/-- The text of the members of a mapping reads as its tree, in which the last one of the members
with one name counts. -/
theorem parse?_members {mapping : Mapping} {levels : Nat} (within : levels < Written.greatestDepth)
    (fit : ∀ entry ∈ mapping.members, entry.2.Fits Number.ReadsBack levels) :
    Json.parse? (Content.ofChars ((Json.object mapping.members).indented 0))
      = some mapping.toJson := by
  obtain ⟨more, depth⟩ := Nat.exists_eq_add_of_lt within
  have read : ∀ entry ∈ mapping.members,
      (Written.ofJson entry.2).valueWithin (levels + more) = some entry.2 :=
    fun entry member => ((fit entry member).mono (Nat.le_add_right _ _)).valueWithin_ofJson
  have readable : (Json.object mapping.members).ReadsBack :=
    .object fun entry member => (fit entry member).readsBack
  rw [Json.parse?, Written.parse?_indented, readable.reread_eq, Option.bind_some, Written.value?,
    depth, Written.ofJson, Written.valueWithin, Written.entriesWithin_ofEntries read]
  rfl

/-- Whether the text of a mapping's members reads as the mapping. -/
def ReadsBack (mapping : Mapping) : Prop :=
  (Json.parse? (Content.ofChars ((Json.object mapping.members).indented 0))).bind ofJson?
    = some mapping

/-- Where the members nest few enough levels and their numbers read back, the mappings that read
back are the well-formed ones. -/
theorem readsBack_iff {mapping : Mapping} {levels : Nat} (within : levels < Written.greatestDepth)
    (fit : ∀ entry ∈ mapping.members, entry.2.Fits Number.ReadsBack levels) :
    mapping.ReadsBack ↔ mapping.IsWellFormed := by
  rw [ReadsBack, parse?_members within fit, Option.bind_some, ofJson?_toJson_iff]

end Mapping

/-! ## Remappings of route sets that are read -/

/-- Whether the members that a remapping does not know are distinct and have names that it does
not know. -/
def Remapping.IsWellFormed (remapping : Remapping) : Prop :=
  Record.IsForeignTo memberNames remapping.extra

variable {numbers : Number -> Prop} {levels : Nat} {tree : Json}

/-- A remapping that is read is well formed. -/
theorem Remapping.isWellFormed_of_ofJson? {remapping : Remapping} (fits : tree.Fits numbers levels)
    (read : ofJson? tree = some remapping) : remapping.IsWellFormed := by
  simp only [ofJson?, Option.bind_eq_bind, Option.bind_eq_some_iff, Option.some.injEq] at read
  obtain ⟨record, object, _, -, _, -, _, -, _, -, rfl⟩ := read
  exact Record.isForeignTo_unknown (Record.fits_of_ofObject? fits object).2

/-- The remapping of a route that is read is well formed. -/
theorem Route.isWellFormed_of_ofJson? {route : Route} {remapping : Remapping}
    (fits : tree.Fits numbers levels) (read : ofJson? tree = some route)
    (remapped : route.remapping = some remapping) : remapping.IsWellFormed := by
  simp only [ofJson?, Option.bind_eq_bind, Option.bind_eq_some_iff, Option.some.injEq] at read
  obtain ⟨record, members, _, -, _, -, _, -, _, -, _, held, rfl⟩ := read
  cases remapped
  obtain ⟨entry, member, found⟩ := Record.exists_of_optional? held
  exact Remapping.isWellFormed_of_ofJson? (Record.fits_of_ofTree? fits members entry member) found

/-- Whether a route set was read from a tree without repeated keys. -/
def RouteSet.IsRead (set : RouteSet) : Prop :=
  ∃ levels tree, Json.Fits (fun _ => True) levels tree ∧ ofJson? tree = some set

/-- What is read from a text has no repeated keys. -/
theorem RouteSet.isRead_of_parse? (content : Content) {set : RouteSet}
    (read : (Json.parse? content).bind ofJson? = some set) : set.IsRead := by
  obtain ⟨tree, parsed, found⟩ := Option.bind_eq_some_iff.mp read
  obtain ⟨levels, fits⟩ := Json.repeatsNoKey_of_parse? content parsed
  exact ⟨levels, tree, fits, found⟩

/-- The remappings of a route set that was read are well formed. -/
theorem RouteSet.IsRead.isWellFormed {set : RouteSet} (isRead : set.IsRead) {route : Route}
    (member : route ∈ set.routes) {remapping : Remapping}
    (remapped : route.remapping = some remapping) : remapping.IsWellFormed := by
  obtain ⟨levels, tree, fits, read⟩ := isRead
  rw [ofJson?_eq, Option.bind_eq_some_iff] at read
  obtain ⟨record, members, read⟩ := read
  simp only [ofRecord?, Option.bind_eq_bind, Option.bind_eq_some_iff, Option.some.injEq] at read
  obtain ⟨_, -, _, -, _, -, _, -, _, -, routes, routesRead, _, -, _, -, rfl⟩ := read
  rcases Record.exists_of_defaulted? routesRead with rfl | ⟨entry, held, items⟩
  · cases member
  · have itemFits := Record.fits_of_ofTree? fits members entry held
    obtain ⟨item, fits, found⟩ := itemFits.exists_of_readItems? items route member
    exact Route.isWellFormed_of_ofJson? fits found remapped

end LayerRouting
