import LayerRouting.Override.Item
import LayerRouting.RouteSet.Codec

/-!
# The route sets of a document

A route-set document is a collection whose items are route sets. An item whose values do
not read as route sets is left out. The questions asked of the collection are the active
flag of a set, the members of a group and the groups in which more than one set is active.
-/

namespace LayerRouting

/-- The route sets of a collection, in order. -/
abbrev RouteSets := List (Item RouteSet)

/-- A group with more than one active member. -/
structure ExclusivityConflict where
  group : String
  active : List String
  deriving DecidableEq, Repr

namespace RouteSets

/-- The items that read as route sets. -/
def ofItems (items : List (Item Json)) : RouteSets :=
  items.filterMap (Item.mapValues? RouteSet.ofJson?)

/-- The route sets of a document. -/
def ofDocument (document : Document Json) : RouteSets :=
  ofItems document.items

/-- The live route sets with their ids. -/
def live (sets : RouteSets) : List (String × RouteSet) :=
  sets.filterMap fun item => item.computed.map fun set => (item.id, set)

/-- The live members of a group, in order. -/
def groupMembers (sets : RouteSets) (group : String) : List (String × RouteSet) :=
  sets.live.filter fun entry => entry.2.group? = some group

/-- The ids of the active members of each group, by group. -/
def activeByGroup (sets : RouteSets) : List (String × List String) :=
  sets.live.foldl (fun groups (id, set) =>
    match set.active, set.group? with
    | true, some group =>
        Entries.insertSorted group ((Entries.get? group groups).getD [] ++ [id]) groups
    | _, _ => groups) []

/-- The groups with more than one active member, in order of their names. -/
def conflicts (sets : RouteSets) : List ExclusivityConflict :=
  sets.activeByGroup.filterMap fun (group, active) =>
    if 1 < active.length then some { group, active } else none

end RouteSets

namespace ExclusivityConflict

/-- A conflict as a tree. -/
def toJson (conflict : ExclusivityConflict) : Json :=
  .object [("group", .string conflict.group), ("active", Json.ofList .string conflict.active)]

end ExclusivityConflict

end LayerRouting
