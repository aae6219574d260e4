import LayerRouting.Json.Basic
import LayerRouting.Number.Layout

/-!
# Route sets

A route set is a named bundle of routes that is switched on and off as a whole. Of the
route sets of one exclusivity group at most one should be active. A route sends an input
layer to an output layer, or makes a new layer; a route set also lists the pool players
that are disabled while it is inactive.
-/

namespace LayerRouting

/-- How operators may switch a route set. -/
inductive Behavior where
  /-- Switched by requests only, and not listed for operators. -/
  | hidden
  /-- Switched freely. -/
  | toggle
  /-- Switched off only when another member of its group is switched on. -/
  | activateOnly
  deriving DecidableEq, Repr

/-- What a route does with the mapping of its input layer. -/
inductive RouteType where
  /-- Renames the layer and keeps its mapping. -/
  | reroute
  /-- Replaces the device and the mapping's options. -/
  | remap
  deriving DecidableEq, Repr

/-- How a mapped layer treats what comes next. -/
inductive Lookahead where
  | none
  | preload
  | whenClear
  deriving DecidableEq, Repr

/-- Which device plays a layer, and how. -/
structure Mapping where
  device : Option String
  deviceId : Option String
  lookahead : Option Lookahead
  options : Option (List (String × Json))
  layerName : Option String
  /-- Members that only the device knows, in order. -/
  extra : List (String × Json)
  deriving DecidableEq, Repr

/-- The part of a mapping that a route replaces. -/
structure Remapping where
  deviceId : Option String
  lookahead : Option Lookahead
  options : Option (List (String × Json))
  layerName : Option String
  /-- Members that only the device knows, in order. -/
  extra : List (String × Json)
  deriving DecidableEq, Repr

/-- One rule of a route set. -/
structure Route where
  /-- The input layer; a route without one makes a new layer. -/
  mappedLayer : Option String
  outputMappedLayer : Option String
  routeType : RouteType
  deviceType : Option String
  remapping : Option Remapping
  deriving DecidableEq, Repr

/-- The id of a player in a device pool. -/
inductive PlayerId where
  | number (value : Int64)
  | name (value : String)
  deriving DecidableEq

/-- A pool player that is disabled while a route set is inactive. -/
structure PoolMember where
  poolName : String
  playerId : PlayerId
  deriving DecidableEq

/-- A named bundle of routes and pool players. -/
structure RouteSet where
  name : String
  active : Bool
  /-- The state that a reset restores. -/
  defaultActive : Option Bool
  behavior : Behavior
  exclusivityGroup : Option String
  routes : List Route
  abPlayers : List PoolMember
  rank : Option Binary64
  deriving DecidableEq

/-- A name, if it is not empty. -/
def nonempty? (name : Option String) : Option String :=
  name.filter (· ≠ "")

namespace Route

/-- The input layer; an empty name is none. -/
def input? (route : Route) : Option String :=
  nonempty? route.mappedLayer

/-- The output layer; an empty name is none. -/
def output? (route : Route) : Option String :=
  nonempty? route.outputMappedLayer

/-- The device type, remapping and device id of a route that names them all. -/
def fullRemap? (route : Route) : Option (String × Remapping × String) := do
  let deviceType ← route.deviceType
  let remapping ← route.remapping
  let deviceId ← remapping.deviceId
  some (deviceType, remapping, deviceId)

end Route

namespace RouteSet

/-- The exclusivity group; an empty name is none. -/
def group? (set : RouteSet) : Option String :=
  nonempty? set.exclusivityGroup

end RouteSet

namespace PlayerId

/-- The text of a player id. -/
def text : PlayerId -> String
  | .number value => String.ofList (integerText value.toInt)
  | .name value => value

end PlayerId

end LayerRouting
