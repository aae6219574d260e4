import LayerRouting.Proofs.Json.Entries
import LayerRouting.RouteSet.MappingTable

/-!
# What a route makes of a mapping

A route either replaces the mapping of its input layer, or lays its remapping over it; a route
without an input layer makes a new mapping. `Route.Makes` gives these rules, with
`Remapping.Overlays` for what a remapping does member by member, and `Route.Gives` adds the
name under which the mapping is put out. `Route.outputOn?` computes the entry that a route gives
on a table.
-/

namespace LayerRouting

/-- The mapping of a layer to a device, without any settings. -/
def Mapping.onDevice (device : String) : Mapping where
  device := some device
  deviceId := none
  lookahead := none
  options := none
  layerName := none
  extra := []

/-- A route that renames a layer. -/
def Route.renaming (source target : String) : Route where
  mappedLayer := some source
  outputMappedLayer := some target
  routeType := .reroute
  deviceType := none
  remapping := none

/-- A route that makes a new layer on a player. -/
def Route.playing (target : String) : Route where
  mappedLayer := none
  outputMappedLayer := some target
  routeType := .remap
  deviceType := some "player"
  remapping := some {
    deviceId := some "player1"
    lookahead := none
    options := none
    layerName := none
    extra := [] }

/-! ## Remappings -/

/-- Whether a mapping is another one in which the members of a remapping took the place of its
own. Of a member that is repeated the last value counts. -/
structure Remapping.Overlays (remapping : Remapping) (base result : Mapping) : Prop where
  device : result.device = base.device
  deviceId : result.deviceId = remapping.deviceId.or base.deviceId
  lookahead : result.lookahead = remapping.lookahead.or base.lookahead
  options : result.options = remapping.options.or base.options
  layerName : result.layerName = remapping.layerName.or base.layerName
  extra : ∀ name, Entries.get? name result.extra
    = (Entries.get? name remapping.extra.reverse).or (Entries.get? name base.extra)
  distinct : (Entries.keys base.extra).Nodup -> (Entries.keys result.extra).Nodup

theorem Remapping.overlays_mergeInto (remapping : Remapping) (base : Mapping) :
    remapping.Overlays base (remapping.mergeInto base) where
  device := rfl
  deviceId := rfl
  lookahead := rfl
  options := rfl
  layerName := rfl
  extra := fun name => Entries.get?_foldl Entries.get?_insert name remapping.extra base.extra
  distinct := fun distinct =>
    List.foldlRecOn (motive := fun extra => (Entries.keys extra).Nodup) remapping.extra _ distinct
      fun _ distinct entry _ => Entries.nodup_keys_insert distinct entry.1 entry.2

namespace Route

/-! ## Mappings -/

/-- The mappings that a route may make of the mapping of its input layer, which is absent for a
route that makes a new layer. -/
inductive Makes (route : Route) : Option Mapping -> Mapping -> Prop where
  /-- A complete route replaces the mapping if it is a remap, and makes that of a new layer. -/
  | replacement {base : Option Mapping} {deviceType deviceId : String} {remapping : Remapping}
      (device : route.deviceType = some deviceType) (remapped : route.remapping = some remapping)
      (identified : remapping.deviceId = some deviceId)
      (replaces : base = none ∨ route.routeType = .remap) :
      Makes route base {
        device := some deviceType
        deviceId := some deviceId
        lookahead := some (remapping.lookahead.getD .none)
        options := some (remapping.options.getD [])
        layerName := remapping.layerName
        extra := remapping.extra }
  /-- Any other route lays its remapping over the mapping. -/
  | overlay {base result : Mapping} {remapping : Remapping}
      (remapped : route.remapping = some remapping)
      (keeps : route.routeType = .remap -> route.deviceType = none ∨ remapping.deviceId = none)
      (overlays : remapping.Overlays base result) : Makes route (some base) result
  /-- A route without a remapping keeps the mapping. -/
  | kept {base : Mapping} (plain : route.remapping = none) : Makes route (some base) base

theorem fullRemap?_eq_some_iff {route : Route} {deviceType deviceId : String}
    {remapping : Remapping} :
    route.fullRemap? = some (deviceType, remapping, deviceId)
      ↔ route.deviceType = some deviceType ∧ route.remapping = some remapping
        ∧ remapping.deviceId = some deviceId := by
  simp only [fullRemap?, Option.bind_eq_bind, Option.bind_eq_some_iff, Option.some.injEq,
    Prod.mk.injEq]
  constructor
  · rintro ⟨_, device, _, remapped, _, identified, rfl, rfl, rfl⟩
    exact ⟨device, remapped, identified⟩
  · rintro ⟨device, remapped, identified⟩
    exact ⟨_, device, _, remapped, _, identified, rfl, rfl, rfl⟩

/-- A route that has a remapping is complete or lacks one of two names. -/
theorem fullRemap?_of_remapping {route : Route} {remapping : Remapping}
    (remapped : route.remapping = some remapping) :
    (∃ deviceType deviceId, route.fullRemap? = some (deviceType, remapping, deviceId))
      ∨ route.fullRemap? = none ∧ (route.deviceType = none ∨ remapping.deviceId = none) := by
  cases device : route.deviceType with
  | none => exact .inr ⟨by simp [fullRemap?, device], .inl rfl⟩
  | some deviceType =>
      cases identified : remapping.deviceId with
      | none => exact .inr ⟨by simp [fullRemap?, device, remapped, identified], .inr rfl⟩
      | some deviceId =>
          exact .inl ⟨deviceType, deviceId,
            fullRemap?_eq_some_iff.mpr ⟨device, remapped, identified⟩⟩

/-- On an existing layer a route makes one of the mappings that it may make. -/
theorem makes_routed (route : Route) (base : Mapping) :
    route.Makes (some base) (route.routed base) := by
  cases remapped : route.remapping with
  | none =>
      have incomplete : route.fullRemap? = none := by
        cases device : route.deviceType <;> simp [fullRemap?, device, remapped]
      simp only [routed, incomplete, remapped]
      cases route.routeType <;> exact .kept remapped
  | some remapping =>
      have overlays := remapping.overlays_mergeInto base
      cases kind : route.routeType with
      | reroute =>
          simp only [routed, kind, remapped]
          exact .overlay remapped (by simp [kind]) overlays
      | remap =>
          rcases fullRemap?_of_remapping remapped with ⟨deviceType, deviceId, complete⟩ | incomplete
          · simp only [routed, kind, complete]
            obtain ⟨device, -, identified⟩ := fullRemap?_eq_some_iff.mp complete
            exact .replacement device remapped identified (.inr kind)
          · simp only [routed, kind, incomplete.1, remapped]
            exact .overlay remapped (fun _ => incomplete.2) overlays

/-! ## Entries -/

/-- Whether a route gives an entry on a table: under its output layer, with a mapping that it
makes of the mapping of its input layer, or of nothing if it has none. -/
structure Gives (input : MappingTable) (route : Route) (entry : String × Mapping) : Prop where
  output : route.output? = some entry.1
  mapping : match route.input? with
    | some layer => ∃ base, Entries.get? layer input = some base ∧ route.Makes (some base) entry.2
    | none => route.Makes none entry.2

/-- Whether a route with an output layer has an effect on a table: its input layer is in the
table, or it makes a new layer and names a device type, a remapping and a device id. -/
def isEffective (input : MappingTable) (route : Route) : Bool :=
  match route.input? with
  | some layer => (Entries.get? layer input).isSome
  | none => route.fullRemap?.isSome

/-- The entry that a route gives on a table. -/
def outputOn? (input : MappingTable) (route : Route) : Option (String × Mapping) :=
  match route.input? with
  | some layer => (Entries.get? layer input).bind route.outputFor?
  | none => route.newOutput?

variable {input : MappingTable} {route : Route} {entry : String × Mapping}

/-- What a route is computed to give it gives. -/
theorem gives_of_outputOn? (given : route.outputOn? input = some entry) :
    route.Gives input entry := by
  cases layer : route.input? with
  | some name =>
      simp only [outputOn?, layer, Option.bind_eq_some_iff, outputFor?, Option.map_eq_some_iff]
        at given
      obtain ⟨base, held, target, output, rfl⟩ := given
      refine ⟨output, ?_⟩
      rw [layer]
      exact ⟨base, held, route.makes_routed base⟩
  | none =>
      simp only [outputOn?, layer, newOutput?, Option.bind_eq_bind, Option.bind_eq_some_iff,
        Option.some.injEq] at given
      obtain ⟨target, output, ⟨deviceType, remapping, deviceId⟩, complete, rfl⟩ := given
      refine ⟨output, ?_⟩
      rw [layer]
      obtain ⟨device, remapped, identified⟩ := fullRemap?_eq_some_iff.mp complete
      exact .replacement device remapped identified (.inl rfl)

/-- Of the routes with an output layer exactly the effective ones give entries. -/
theorem isSome_outputOn? (output : route.output?.isSome) :
    (route.outputOn? input).isSome = route.isEffective input := by
  obtain ⟨target, output⟩ := Option.isSome_iff_exists.mp output
  cases layer : route.input? with
  | some name =>
      simp only [outputOn?, isEffective, layer]
      cases Entries.get? name input <;> simp [outputFor?, output]
  | none =>
      simp only [outputOn?, isEffective, layer, newOutput?, output]
      cases route.fullRemap? <;> rfl

/-- Each effective route gives one entry, in order. -/
theorem forall₂_gives {contributed : List Route}
    (named : ∀ route ∈ contributed, route.output?.isSome) :
    List.Forall₂ (Gives input) (contributed.filter (isEffective input))
      (contributed.filterMap (outputOn? input)) := by
  induction contributed with
  | nil => exact .nil
  | cons route rest inductionHypothesis =>
      obtain ⟨first, others⟩ := List.forall_mem_cons.mp named
      have effective : (route.outputOn? input).isSome = route.isEffective input :=
        isSome_outputOn? first
      rw [List.filter_cons, List.filterMap_cons, ← effective]
      cases given : route.outputOn? input with
      | none => exact inductionHypothesis others
      | some entry => exact .cons (gives_of_outputOn? given) (inductionHypothesis others)

end Route

end LayerRouting
