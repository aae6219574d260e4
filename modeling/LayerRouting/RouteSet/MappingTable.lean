import LayerRouting.RouteSet.ActiveRoutes

/-!
# Routing a table of mappings

A table holds the mapping of each layer in order of the layers' names. Routing sends the
mapping of each routed layer to the outputs of its routes; a layer without routes keeps
its mapping under its own name. Routes that make new layers come last, so they win over
any other output of the same name.
-/

namespace LayerRouting

/-- The mappings of layers, in order of the layers' names. -/
abbrev MappingTable := List (String × Mapping)

namespace Remapping

/-- The mapping that a complete route makes. -/
def mappingFor (remapping : Remapping) (deviceType deviceId : String) : Mapping where
  device := some deviceType
  deviceId := some deviceId
  lookahead := some (remapping.lookahead.getD .none)
  options := some (remapping.options.getD [])
  layerName := remapping.layerName
  extra := remapping.extra

/-- A mapping with the members replaced that the remapping holds. -/
def mergeInto (remapping : Remapping) (base : Mapping) : Mapping where
  device := base.device
  deviceId := remapping.deviceId.or base.deviceId
  lookahead := remapping.lookahead.or base.lookahead
  options := remapping.options.or base.options
  layerName := remapping.layerName.or base.layerName
  extra := remapping.extra.foldl (fun extra entry => Entries.insert entry.1 entry.2 extra)
    base.extra

end Remapping

namespace Route

/-- The mapping that a route makes of its input layer's mapping. -/
def routed (route : Route) (base : Mapping) : Mapping :=
  match route.routeType, route.fullRemap? with
  | .remap, some (deviceType, remapping, deviceId) => remapping.mappingFor deviceType deviceId
  | _, _ =>
      match route.remapping with
      | some remapping => remapping.mergeInto base
      | none => base

/-- The output layer and mapping of a route on an existing layer. -/
def outputFor? (route : Route) (base : Mapping) : Option (String × Mapping) :=
  route.output?.map fun target => (target, route.routed base)

/-- The output layer and mapping of a route that makes a new layer; none if the route does
not name a device type and a device id. -/
def newOutput? (route : Route) : Option (String × Mapping) := do
  let target ← route.output?
  let (deviceType, remapping, deviceId) ← route.fullRemap?
  some (target, remapping.mappingFor deviceType deviceId)

end Route

namespace MappingTable

/-- The table of a list of entries; of one layer's entries the last one counts. -/
def ofEntries (entries : List (String × Mapping)) : MappingTable :=
  entries.foldl (fun table entry => Entries.insertSorted entry.1 entry.2 table) []

/-- The outputs of one layer: itself if it has no routes, else those of its routes. -/
def layerOutputs (routes : ActiveRoutes) (entry : String × Mapping) : List (String × Mapping) :=
  match routes.ofLayer entry.1 with
  | [] => [entry]
  | layerRoutes => layerRoutes.filterMap fun route => route.outputFor? entry.2

/-- All outputs in the order in which they are written. -/
def outputs (input : MappingTable) (routes : ActiveRoutes) : List (String × Mapping) :=
  input.flatMap (layerOutputs routes) ++ routes.inserted.filterMap Route.newOutput?

/-- The table that routing makes; of outputs with one name the last one counts. -/
def apply (input : MappingTable) (routes : ActiveRoutes) : MappingTable :=
  ofEntries (input.outputs routes)

/-- The table that an object of mappings is. -/
def ofJson? (tree : Json) : Option MappingTable := do
  let entries ← Record.ofObject? tree
  let mappings ← entries.mapM fun (layer, value) =>
    (Mapping.ofJson? value).map fun mapping => (layer, mapping)
  some (ofEntries mappings)

end MappingTable

end LayerRouting
