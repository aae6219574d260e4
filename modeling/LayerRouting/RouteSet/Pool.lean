import LayerRouting.RouteSet.Collection

/-!
# Pool players

Which players of a device pool are disabled: those that an inactive route set lists for
the pool.
-/

namespace LayerRouting

/-- What one route set says about one player of a pool. -/
structure PoolStatus where
  poolName : String
  playerId : PlayerId
  disabled : Bool
  deriving DecidableEq

namespace PoolStatus

/-- A pool status as a tree. -/
def toJson (status : PoolStatus) : Json :=
  .object [("poolName", .string status.poolName), ("playerId", status.playerId.toJson),
    ("disabled", .bool status.disabled)]

end PoolStatus

namespace RouteSets

/-- What the live route sets say about pool players, in order. -/
def poolStatuses (sets : RouteSets) : List PoolStatus :=
  sets.live.flatMap fun (_, set) => set.abPlayers.map fun member =>
    { poolName := member.poolName, playerId := member.playerId, disabled := !set.active }

end RouteSets

/-- Whether some status disables a player of a pool. -/
def isPlayerDisabled (pool : String) (statuses : List PoolStatus) (player : PlayerId) : Bool :=
  statuses.any fun status =>
    status.disabled && status.poolName = pool && status.playerId = player

/-- The players of a pool that no status disables, in order. -/
def enabledPlayers (pool : String) (players : List PlayerId) (statuses : List PoolStatus) :
    List PlayerId :=
  players.filter fun player => !isPlayerDisabled pool statuses player

end LayerRouting
