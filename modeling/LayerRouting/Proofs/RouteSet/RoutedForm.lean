import LayerRouting.Proofs.RouteSet.MappingForm
import LayerRouting.Proofs.RouteSet.MappingTable

/-!
# Well-formed mappings in routed tables

Of well-formed mappings and remappings a route makes well-formed mappings, with one exception: a
remapping does not know the member `device`, so it keeps one as an unknown member, and the
mapping that is made of it has both (`Route.Makes.isWellFormed_iff`). The mappings of a routed
table are therefore well formed unless a route remaps the device
(`MappingTable.isWellFormed_iff_of_mem_apply`).
-/

namespace LayerRouting

/-! ## Mappings that routes make -/

/-- A mapping with the members of a remapping has the unknown members of both. -/
theorem Remapping.Overlays.mem_keys_extra {remapping : Remapping} {base result : Mapping}
    (overlays : remapping.Overlays base result) {name : String} :
    name ∈ Entries.keys result.extra
      ↔ name ∈ Entries.keys remapping.extra ∨ name ∈ Entries.keys base.extra := by
  rw [← Entries.get?_isSome_iff, overlays.extra, Option.isSome_or, Bool.or_eq_true,
    Entries.get?_isSome_iff, Entries.get?_isSome_iff, Entries.keys, List.map_reverse,
    List.mem_reverse, ← Entries.keys]

namespace Route

/-- Whether the remapping of a route has a member `device`, which it does not know. -/
def RemapsDevice (route : Route) : Prop :=
  ∃ remapping, route.remapping = some remapping ∧ "device" ∈ Entries.keys remapping.extra

namespace Makes

variable {route : Route} {base : Option Mapping} {result : Mapping}

/-- The unknown members of the remapping are among those of the mapping that is made. -/
theorem mem_keys_of_remapping (makes : route.Makes base result) {remapping : Remapping}
    (remapped : route.remapping = some remapping) {name : String}
    (member : name ∈ Entries.keys remapping.extra) : name ∈ Entries.keys result.extra := by
  cases makes with
  | replacement _ same =>
      cases remapped.symm.trans same
      exact member
  | overlay same _ overlays =>
      cases remapped.symm.trans same
      exact overlays.mem_keys_extra.mpr (.inl member)
  | kept plain => cases remapped.symm.trans plain

/-- The unknown members of the mapping that is made are those of the remapping and some of those
of the mapping that it is made of. -/
theorem mem_keys_extra (makes : route.Makes base result) {name : String}
    (member : name ∈ Entries.keys result.extra) :
    (∃ remapping, route.remapping = some remapping ∧ name ∈ Entries.keys remapping.extra)
      ∨ ∃ mapping ∈ base, name ∈ Entries.keys mapping.extra := by
  cases makes with
  | replacement _ remapped => exact .inl ⟨_, remapped, member⟩
  | overlay remapped _ overlays =>
      exact (overlays.mem_keys_extra.mp member).imp (fun held => ⟨_, remapped, held⟩)
        fun held => ⟨_, rfl, held⟩
  | kept plain => exact .inr ⟨_, rfl, member⟩

variable (baseForm : ∀ mapping ∈ base, mapping.IsWellFormed)
  (remappingForm : ∀ remapping ∈ route.remapping, remapping.IsWellFormed)

include baseForm remappingForm

theorem nodup_keys_extra (makes : route.Makes base result) :
    (Entries.keys result.extra).Nodup := by
  cases makes with
  | replacement _ remapped => exact (remappingForm _ remapped).distinct
  | overlay _ _ overlays => exact overlays.distinct (baseForm _ rfl).distinct
  | kept plain => exact (baseForm _ rfl).distinct

/-- The one known name that an unknown member may have is `device`. -/
theorem remapsDevice_of_mem_keys_extra (makes : route.Makes base result) {name : String}
    (member : name ∈ Entries.keys result.extra) (known : name ∈ Mapping.memberNames) :
    name = "device" ∧ route.RemapsDevice := by
  rcases makes.mem_keys_extra member with ⟨remapping, remapped, held⟩ | ⟨mapping, made, held⟩
  · rcases List.mem_cons.mp known with rfl | other
    · exact ⟨rfl, remapping, remapped, held⟩
    · exact absurd other ((remappingForm remapping remapped).foreign name held)
  · exact absurd known ((baseForm mapping made).foreign name held)

/-- A route makes a well-formed mapping if it does not remap the device. -/
theorem isWellFormed_iff (makes : route.Makes base result) :
    result.IsWellFormed ↔ ¬ route.RemapsDevice := by
  constructor
  · rintro wellFormed ⟨remapping, remapped, device⟩
    exact wellFormed.foreign "device" (makes.mem_keys_of_remapping remapped device) (by decide)
  · intro spared
    exact ⟨makes.nodup_keys_extra baseForm remappingForm, fun name member known =>
      spared (makes.remapsDevice_of_mem_keys_extra baseForm remappingForm member known).2⟩

end Makes

/-- What a route gives it makes of a mapping of the table, or of nothing. -/
theorem Gives.exists_makes {input : MappingTable} {route : Route} {entry : String × Mapping}
    (gives : route.Gives input entry) :
    ∃ base, (∀ mapping ∈ base, ∃ held ∈ input, held.2 = mapping) ∧ route.Makes base entry.2 := by
  have mapping := gives.mapping
  split at mapping
  · obtain ⟨base, held, makes⟩ := mapping
    refine ⟨some base, fun mapping same => ?_, makes⟩
    cases same
    exact ⟨_, Entries.mem_of_get? held, rfl⟩
  · exact ⟨none, nofun, mapping⟩

end Route

namespace MappingTable

/-- A table that is read is in order, and its mappings are well formed. -/
theorem isWellFormed_of_ofJson? {numbers : Number -> Prop} {levels : Nat} {tree : Json}
    (fits : tree.Fits numbers levels) {input : MappingTable} (read : ofJson? tree = some input) :
    Entries.Ordered input ∧ ∀ entry ∈ input, entry.2.IsWellFormed := by
  simp only [ofJson?, Option.bind_eq_bind, Option.bind_eq_some_iff, Option.some.injEq] at read
  obtain ⟨record, object, mappings, items, rfl⟩ := read
  refine ⟨ordered_ofEntries mappings, fun entry member => ?_⟩
  obtain ⟨source, held, found⟩ :=
    exists_of_mem_mapM items entry (mem_of_mem_ofEntries member)
  obtain ⟨mapping, mappingRead, rfl⟩ := Option.map_eq_some_iff.mp found
  have sourceFits := (Record.fits_of_ofObject? fits object).1 source held
  exact Mapping.isWellFormed_of_ofJson?
    (fun _ object => (Record.fits_of_ofObject? sourceFits object).2) mappingRead

section Routed

variable {input : MappingTable} {sets : RouteSets}
  (wellFormed : ∀ entry ∈ input, entry.2.IsWellFormed)
  (read : ∀ item ∈ sets, ∀ set ∈ item.computed, set.IsRead)

include wellFormed read

/-- What an offered route gives is well formed if the route does not remap the device, and
`device` is the one known name that an unknown member may have. -/
theorem isWellFormed_of_gives {route : Route} (offered : route ∈ sets.offeredRoutes)
    {entry : String × Mapping} (gives : route.Gives input entry) :
    (entry.2.IsWellFormed ↔ ¬ route.RemapsDevice)
      ∧ ∀ name ∈ Entries.keys entry.2.extra, name ∈ Mapping.memberNames -> name = "device" := by
  obtain ⟨base, held, makes⟩ := gives.exists_makes
  have baseForm : ∀ mapping ∈ base, mapping.IsWellFormed := by
    intro mapping member
    obtain ⟨source, listed, rfl⟩ := held mapping member
    exact wellFormed source listed
  have remappingForm : ∀ remapping ∈ route.remapping, remapping.IsWellFormed := by
    intro remapping remapped
    obtain ⟨item, listed, set, computed, routed⟩ := RouteSets.exists_of_mem_offeredRoutes offered
    exact (read item listed set computed).isWellFormed routed remapped
  exact ⟨makes.isWellFormed_iff baseForm remappingForm, fun name member known =>
    (makes.remapsDevice_of_mem_keys_extra baseForm remappingForm member known).1⟩

/-- Where the mappings of a table are well formed and the route sets were read, a mapping of the
routed table is well formed unless a route that gives it remaps the device, and `device` is the
one known name that its unknown members may have. A well-formed mapping is written without
repeated names. The well-formed mappings are those that read back, as far as their members nest
few enough levels and have numbers that do. -/
theorem isWellFormed_iff_of_mem_apply (ordered : Entries.Ordered input)
    {entry : String × Mapping} (member : entry ∈ input.apply (ActiveRoutes.ofRouteSets sets)) :
    (entry.2.IsWellFormed
        ↔ ∀ route ∈ sets.unignored.offeredRoutes, route.Gives input entry -> ¬ route.RemapsDevice)
      ∧ (∀ name ∈ Entries.keys entry.2.extra, name ∈ Mapping.memberNames -> name = "device")
      ∧ (entry.2.IsWellFormed -> (Entries.keys entry.2.members).Nodup)
      ∧ ∀ levels < Written.greatestDepth,
          (∀ written ∈ entry.2.members, written.2.Fits Number.ReadsBack levels) ->
            (entry.2.ReadsBack ↔ entry.2.IsWellFormed) := by
  have unignoredRead : ∀ item ∈ sets.unignored, ∀ set ∈ item.computed, set.IsRead :=
    fun item listed => read item (RouteSets.mem_of_mem_unignored listed)
  have source := (outputs_perm sets.holds_unignored ordered.nodup_keys).mem_iff.mp
    (mem_of_mem_ofEntries member)
  have made : entry.2.IsWellFormed
      ∨ ∃ route ∈ sets.unignored.offeredRoutes, route.Gives input entry := by
    rcases List.mem_append.mp source with kept | made
    · exact .inl (wellFormed entry (List.mem_filter.mp kept).1)
    · obtain ⟨route, offered, given⟩ := List.mem_filterMap.mp made
      exact .inr ⟨route, offered, Route.gives_of_outputOn? given⟩
  refine ⟨⟨fun own route offered gives => ?_, fun spared => ?_⟩, ?_,
    fun own => own.nodup_keys_members, fun _ within fit => Mapping.readsBack_iff within fit⟩
  · exact (isWellFormed_of_gives wellFormed unignoredRead offered gives).1.mp own
  · rcases made with own | ⟨route, offered, gives⟩
    · exact own
    · exact (isWellFormed_of_gives wellFormed unignoredRead offered gives).1.mpr
        (spared route offered gives)
  · rcases made with own | ⟨route, offered, gives⟩
    · exact fun name unknown known => absurd known (own.foreign name unknown)
    · exact (isWellFormed_of_gives wellFormed unignoredRead offered gives).2

end Routed

/-- A route whose remapping has a member `device`. -/
def remappedCamera : Route :=
  { Route.renaming "camera1" "stage" with
    remapping := some {
      deviceId := none
      lookahead := none
      options := none
      layerName := none
      extra := [("device", .string "A")] } }

/-- A route set with a route that remaps the device, as the only one. -/
def remappedSets : RouteSets :=
  [{ id := "left"
     computed := some { RouteSets.leftSide with routes := [remappedCamera] }
     defaultValue := none
     ops := [] }]

theorem isRead_of_mem_remappedSets : ∀ item ∈ remappedSets, ∀ set ∈ item.computed, set.IsRead := by
  rintro item member set computed
  obtain rfl := List.mem_singleton.mp member
  obtain rfl := Option.some.inj computed
  refine RouteSet.isRead_of_parse? (Content.ofChars
    ((RouteSet.toJson { RouteSets.leftSide with routes := [remappedCamera] }).indented 0)) ?_
  decide +kernel

theorem isWellFormed_of_mem_cameras : ∀ entry ∈ cameras, entry.2.IsWellFormed := by
  have plain : ∀ device, (Mapping.onDevice device).IsWellFormed := fun _ =>
    ⟨List.nodup_nil, List.forall_mem_nil _⟩
  simp only [cameras, List.forall_mem_cons]
  exact ⟨plain "A", plain "B", List.forall_mem_nil _⟩

/-- The mapping that the route makes, with two members `device`. -/
def remappedMapping : Mapping :=
  { Mapping.onDevice "A" with extra := [("device", .string "A")] }

/-- The mapping of a camera that is sent to the stage gets a second member `device` there, so it
is not well formed and does not read back. -/
theorem repeated_device_of_remappedSets :
    Entries.Ordered cameras
      ∧ (∀ entry ∈ cameras, entry.2.IsWellFormed)
      ∧ (∀ item ∈ remappedSets, ∀ set ∈ item.computed, set.IsRead)
      ∧ ("stage", remappedMapping) ∈ cameras.apply (ActiveRoutes.ofRouteSets remappedSets)
      ∧ ¬ remappedMapping.IsWellFormed ∧ ¬ remappedMapping.ReadsBack := by
  have member :
      ("stage", remappedMapping) ∈ cameras.apply (ActiveRoutes.ofRouteSets remappedSets) := by
    decide +kernel
  obtain ⟨form, -, -, reads⟩ := isWellFormed_iff_of_mem_apply isWellFormed_of_mem_cameras
    isRead_of_mem_remappedSets ordered_cameras member
  have repeated : ¬ remappedMapping.IsWellFormed := fun wellFormed =>
    form.mp wellFormed remappedCamera (by decide +kernel) (Route.gives_of_outputOn? rfl)
      ⟨_, rfl, List.mem_singleton_self _⟩
  have fit : ∀ written ∈ remappedMapping.members, written.2.Fits Number.ReadsBack 0 :=
    List.forall_mem_cons.mpr ⟨.string "A", List.forall_mem_cons.mpr ⟨.string "A", nofun⟩⟩
  exact ⟨ordered_cameras, isWellFormed_of_mem_cameras, isRead_of_mem_remappedSets, member,
    repeated, fun back => repeated ((reads 0 (by decide) fit).mp back)⟩

end MappingTable

end LayerRouting
