import LayerRouting.Json.Record
import LayerRouting.RouteSet.Basic
import LayerRouting.Text.Basic

/-!
# Route sets in trees

How route sets and their parts are written as trees and read back. Members that are
absent are not written. Mappings and remappings keep the members that they do not know
and write them after the known ones.
-/

namespace LayerRouting

namespace Behavior

/-- The word for a behavior. -/
def name : Behavior -> String
  | .hidden => "HIDDEN"
  | .toggle => "TOGGLE"
  | .activateOnly => "ACTIVATE_ONLY"

/-- The behavior of a word. -/
def ofName? : String -> Option Behavior
  | "HIDDEN" => some .hidden
  | "TOGGLE" => some .toggle
  | "ACTIVATE_ONLY" => some .activateOnly
  | _ => none

/-- A behavior as a tree. -/
def toJson (behavior : Behavior) : Json :=
  .string behavior.name

/-- The behavior that a tree is. -/
def ofJson? (tree : Json) : Option Behavior :=
  tree.readName?.bind ofName?

end Behavior

namespace RouteType

/-- The word for a route type. -/
def name : RouteType -> String
  | .reroute => "REROUTE"
  | .remap => "REMAP"

/-- The route type of a word. -/
def ofName? : String -> Option RouteType
  | "REROUTE" => some .reroute
  | "REMAP" => some .remap
  | _ => none

/-- A route type as a tree. -/
def toJson (routeType : RouteType) : Json :=
  .string routeType.name

/-- The route type that a tree is. -/
def ofJson? (tree : Json) : Option RouteType :=
  tree.readName?.bind ofName?

end RouteType

namespace Lookahead

/-- The word for a lookahead. -/
def name : Lookahead -> String
  | .none => "NONE"
  | .preload => "PRELOAD"
  | .whenClear => "WHEN_CLEAR"

/-- The lookahead of a word. -/
def ofName? : String -> Option Lookahead
  | "NONE" => some .none
  | "PRELOAD" => some .preload
  | "WHEN_CLEAR" => some .whenClear
  | _ => Option.none

/-- A lookahead as a tree. -/
def toJson (lookahead : Lookahead) : Json :=
  .string lookahead.name

/-- The lookahead that a tree is. -/
def ofJson? (tree : Json) : Option Lookahead :=
  tree.readName?.bind ofName?

end Lookahead

namespace Mapping

/-- The names of the known members. -/
def memberNames : List String := ["device", "deviceId", "lookahead", "options", "layerName"]

/-- The members of a mapping: the known ones that are present, then the others. A member
among the others may have a known name. -/
def members (mapping : Mapping) : Record :=
  Json.optionalEntry "device" .string mapping.device
    ++ Json.optionalEntry "deviceId" .string mapping.deviceId
    ++ Json.optionalEntry "lookahead" Lookahead.toJson mapping.lookahead
    ++ Json.optionalEntry "options" .object mapping.options
    ++ Json.optionalEntry "layerName" .string mapping.layerName
    ++ mapping.extra

/-- A mapping as a tree, in which a repeated member takes its last value. -/
def toJson (mapping : Mapping) : Json :=
  .object (Entries.ofList mapping.members)

/-- The mapping that an object is. -/
def ofJson? (tree : Json) : Option Mapping := do
  let record ← Record.ofObject? tree
  let device ← record.optional? "device" Json.asString?
  let deviceId ← record.optional? "deviceId" Json.asString?
  let lookahead ← record.optional? "lookahead" Lookahead.ofJson?
  let options ← record.optional? "options" Json.readEntries?
  let layerName ← record.optional? "layerName" Json.asString?
  some { device, deviceId, lookahead, options, layerName, extra := record.unknown memberNames }

end Mapping

namespace Remapping

/-- The names of the known members. -/
def memberNames : List String := ["deviceId", "lookahead", "options", "layerName"]

/-- The members of a remapping: the known ones that are present, then the others. -/
def members (remapping : Remapping) : Record :=
  Json.optionalEntry "deviceId" .string remapping.deviceId
    ++ Json.optionalEntry "lookahead" Lookahead.toJson remapping.lookahead
    ++ Json.optionalEntry "options" .object remapping.options
    ++ Json.optionalEntry "layerName" .string remapping.layerName
    ++ remapping.extra

/-- A remapping as a tree. -/
def toJson (remapping : Remapping) : Json :=
  .object (Entries.ofList remapping.members)

/-- The remapping that an object is. -/
def ofJson? (tree : Json) : Option Remapping := do
  let record ← Record.ofObject? tree
  let deviceId ← record.optional? "deviceId" Json.asString?
  let lookahead ← record.optional? "lookahead" Lookahead.ofJson?
  let options ← record.optional? "options" Json.readEntries?
  let layerName ← record.optional? "layerName" Json.asString?
  some { deviceId, lookahead, options, layerName, extra := record.unknown memberNames }

end Remapping

namespace Route

/-- The names of the members in order. -/
def memberNames : List String :=
  ["mappedLayer", "outputMappedLayer", "routeType", "deviceType", "remapping"]

/-- A route as a tree. -/
def toJson (route : Route) : Json :=
  .object (Json.optionalEntry "mappedLayer" .string route.mappedLayer
    ++ Json.optionalEntry "outputMappedLayer" .string route.outputMappedLayer
    ++ [("routeType", route.routeType.toJson)]
    ++ Json.optionalEntry "deviceType" .string route.deviceType
    ++ Json.optionalEntry "remapping" Remapping.toJson route.remapping)

/-- The route that a tree is. -/
def ofJson? (tree : Json) : Option Route := do
  let record ← Record.ofTree? memberNames tree
  let mappedLayer ← record.optional? "mappedLayer" Json.asString?
  let outputMappedLayer ← record.optional? "outputMappedLayer" Json.asString?
  let routeType ← record.defaulted? "routeType" .reroute RouteType.ofJson?
  let deviceType ← record.optional? "deviceType" Json.asString?
  let remapping ← record.optional? "remapping" Remapping.ofJson?
  some { mappedLayer, outputMappedLayer, routeType, deviceType, remapping }

end Route

namespace PlayerId

/-- A player id as a tree. -/
def toJson : PlayerId -> Json
  | .number value => Json.int (WordInt.ofInt64 value)
  | .name value => .string value

/-- The signed word of a whole number, if it fits. -/
def ofInt? (value : Int) : Option PlayerId :=
  if -0x8000000000000000 ≤ value ∧ value < 0x8000000000000000 then
    some (.number (Int64.ofInt value))
  else none

/-- The player id that a tree is. -/
def ofJson? : Json -> Option PlayerId
  | .number (.int value) => ofInt? value.val
  | .string value => some (.name value)
  | _ => none

/-- The player id that a text reads as: a number if it is one, else a name. -/
def ofText (text : String) : PlayerId :=
  match (Text.signed? text.toList).bind ofInt? with
  | some playerId => playerId
  | none => .name text

end PlayerId

namespace PoolMember

/-- The names of the members in order. -/
def memberNames : List String := ["poolName", "playerId"]

/-- A pool member as a tree. -/
def toJson (member : PoolMember) : Json :=
  .object [("poolName", .string member.poolName), ("playerId", member.playerId.toJson)]

/-- The pool member that a tree is. -/
def ofJson? (tree : Json) : Option PoolMember := do
  let record ← Record.ofTree? memberNames tree
  let poolName ← record.required? "poolName" Json.asString?
  let playerId ← record.required? "playerId" PlayerId.ofJson?
  some { poolName, playerId }

end PoolMember

namespace RouteSet

/-- The names of the members in order. -/
def memberNames : List String :=
  ["name", "active", "defaultActive", "behavior", "exclusivityGroup", "routes", "abPlayers",
    "_rank"]

/-- A route set as a tree. -/
def toJson (set : RouteSet) : Json :=
  .object ([("name", .string set.name), ("active", .bool set.active)]
    ++ Json.optionalEntry "defaultActive" .bool set.defaultActive
    ++ [("behavior", set.behavior.toJson)]
    ++ Json.optionalEntry "exclusivityGroup" .string set.exclusivityGroup
    ++ [("routes", Json.ofList Route.toJson set.routes),
        ("abPlayers", Json.ofList PoolMember.toJson set.abPlayers)]
    ++ Json.optionalEntry "_rank" Json.float set.rank)

/-- The route set that a tree is. -/
def ofJson? (tree : Json) : Option RouteSet := do
  let record ← Record.ofTree? memberNames tree
  let name ← record.required? "name" Json.asString?
  let active ← record.defaulted? "active" false Json.asBool?
  let defaultActive ← record.optional? "defaultActive" Json.asBool?
  let behavior ← record.defaulted? "behavior" .toggle Behavior.ofJson?
  let exclusivityGroup ← record.optional? "exclusivityGroup" Json.asString?
  let routes ← record.defaulted? "routes" [] (Json.readItems? Route.ofJson?)
  let abPlayers ← record.defaulted? "abPlayers" [] (Json.readItems? PoolMember.ofJson?)
  let rank ← record.optional? "_rank" Json.asBinary64?
  some { name, active, defaultActive, behavior, exclusivityGroup, routes, abPlayers, rank }

end RouteSet

end LayerRouting
