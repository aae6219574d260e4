import LayerRouting.RouteSet.Collection

/-!
# Active routes

The routes that the active route sets contribute. Of the active members of a group only
the first one contributes, which keeps the routes sane even when a stored document has
several. A route without an output layer is left out.
-/

namespace LayerRouting

/-- The routes contributed by active route sets. -/
structure ActiveRoutes where
  /-- The routes of each input layer in order of contribution, by layer. -/
  existing : List (String × List Route)
  /-- The routes that make new layers. -/
  inserted : List Route
  deriving DecidableEq, Repr

namespace RouteSets

/-- The route sets that contribute, when the first active members of some groups have come
before. -/
def contributingAfter (claimed : List String) : List (String × RouteSet) -> List RouteSet
  | [] => []
  | (_, set) :: rest =>
      if set.active then
        match set.group? with
        | none => set :: contributingAfter claimed rest
        | some group =>
            if group ∈ claimed then contributingAfter claimed rest
            else set :: contributingAfter (group :: claimed) rest
      else contributingAfter claimed rest

/-- The active route sets that are in no group or the first active ones of theirs. -/
def contributing (sets : RouteSets) : List RouteSet :=
  contributingAfter [] sets.live

/-- The routes with an output layer that the contributing sets hold, in order. -/
def contributedRoutes (sets : RouteSets) : List Route :=
  (sets.contributing.flatMap RouteSet.routes).filter fun route => route.output?.isSome

end RouteSets

namespace ActiveRoutes

/-- No routes. -/
def empty : ActiveRoutes := ⟨[], []⟩

/-- The routes of an input layer. -/
def ofLayer (routes : ActiveRoutes) (layer : String) : List Route :=
  (Entries.get? layer routes.existing).getD []

/-- Adds a route after those of its input layer, or after the inserted ones. -/
def add (routes : ActiveRoutes) (route : Route) : ActiveRoutes :=
  match route.input? with
  | some layer =>
      { routes with
        existing := Entries.insertSorted layer (routes.ofLayer layer ++ [route])
          routes.existing }
  | none => { routes with inserted := routes.inserted ++ [route] }

/-- The active routes of route sets. -/
def ofRouteSets (sets : RouteSets) : ActiveRoutes :=
  sets.contributedRoutes.foldl add empty

/-- Active routes as a tree. -/
def toJson (routes : ActiveRoutes) : Json :=
  .object [
    ("existing", .object (routes.existing.map fun (layer, list) =>
      (layer, Json.ofList Route.toJson list))),
    ("inserted", Json.ofList Route.toJson routes.inserted)]

end ActiveRoutes

end LayerRouting
