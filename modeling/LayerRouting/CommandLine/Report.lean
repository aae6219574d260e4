import LayerRouting.Activation.Controller
import LayerRouting.Json.Printer
import LayerRouting.RouteSet.MappingTable
import LayerRouting.RouteSet.Pool
import LayerRouting.Settings.Effective
import LayerRouting.Text.Basic

/-!
# Reports

What commands print, each in two forms: text for people and a tree for programs. Columns
are padded by counting characters.
-/

namespace LayerRouting

/-- What a command prints. -/
structure Report where
  /-- The text for people, without a final line break. -/
  text : String
  /-- The tree for programs. -/
  tree : Json
  deriving DecidableEq, Repr

namespace Report

/-- A text padded with blanks to a width. -/
def padded (width : Nat) (text : String) : String :=
  text ++ String.ofList (List.replicate (width - text.length) ' ')

/-- Lines as one text. -/
def lines (list : List String) : String :=
  String.intercalate "\n" list

/-- A text without trailing blanks. -/
def trimmed (text : String) : String :=
  String.ofList (Text.trimEnd text.toList)

/-- What is shown for a name that is absent. -/
def orDash (name : Option String) : String :=
  name.getD "-"

/-- The report of a document that was started. -/
def ofInit (owner : String) (count : Nat) : Report where
  text := "Initialized " ++ owner ++ " with " ++ naturalText count ++ " route set(s)"
  tree := .object [("owner", .string owner), ("routeSets", Json.ofNat count)]

/-- Whether a route set is listed: a hidden one only when all are asked for. -/
def isListed (all : Bool) (item : Item RouteSet) : Bool :=
  all || match item.computed with
    | none => true
    | some set => set.behavior ≠ .hidden

/-- The word for the state of a route set. -/
def stateName (item : Item RouteSet) : String :=
  match item.computed with
  | none => "deleted"
  | some set => if set.active then "active" else "inactive"

/-- The line of a route set. -/
def routeSetLine (item : Item RouteSet) : String :=
  padded 20 item.id ++ " " ++ padded 9 (stateName item) ++ " "
    ++ padded 14 (orDash (item.computed.bind RouteSet.group?)) ++ " " ++ item.provenance.name

/-- The tree of a route set's line. -/
def routeSetRow (item : Item RouteSet) : Json :=
  .object [("id", .string item.id),
    ("name", Json.ofOption (fun (set : RouteSet) => .string set.name) item.computed),
    ("active", Json.ofOption (fun (set : RouteSet) => .bool set.active) item.computed),
    ("behavior", Json.ofOption (fun (set : RouteSet) => set.behavior.toJson) item.computed),
    ("exclusivityGroup", Json.ofOption .string (item.computed.bind RouteSet.group?)),
    ("provenance", .string item.provenance.name),
    ("overrideOps", Json.ofNat item.ops.length)]

/-- The report of route sets. -/
def ofRouteSets (all : Bool) (sets : RouteSets) : Report :=
  let listed := sets.filter (isListed all)
  { text := trimmed (lines (listed.map routeSetLine))
    tree := Json.ofList routeSetRow listed }

/-- The report of active routes. -/
def ofRoutes (routes : ActiveRoutes) : Report where
  text :=
    let existing := routes.existing.flatMap fun (layer, list) =>
      list.map fun route => layer ++ " -> " ++ orDash route.output?
    let inserted := routes.inserted.map fun route => "(new) -> " ++ orDash route.output?
    lines (existing ++ inserted)
  tree := routes.toJson

/-- The report of a table of mappings. -/
def ofMappings (table : MappingTable) : Report where
  text := lines (table.map fun (layer, mapping) =>
    padded 20 layer ++ " " ++ orDash mapping.device ++ " " ++ orDash mapping.deviceId)
  tree := .object (table.map fun (layer, mapping) => (layer, .object mapping.members))

/-- The report of a route set that was activated. -/
def ofActivation (outcome : SwitchOutcome) : Report where
  text :=
    if outcome.deactivated = [] then "Activated " ++ outcome.routeSetId
    else "Activated " ++ outcome.routeSetId ++ " (deactivated "
      ++ String.intercalate ", " outcome.deactivated ++ ")"
  tree := outcome.toJson

/-- The report of a route set that was deactivated. -/
def ofDeactivation (outcome : SwitchOutcome) : Report where
  text := "Deactivated " ++ outcome.routeSetId
  tree := outcome.toJson

/-- The report of a reset. -/
def ofReset (owner : String) (outcome : ResetOutcome) : Report where
  text := "Reset " ++ owner ++ ": " ++ naturalText outcome.activated.length ++ " activated, "
    ++ naturalText outcome.deactivated.length ++ " deactivated"
  tree := outcome.toJson

/-- The report of groups with more than one active route set. -/
def ofConflicts (conflicts : List ExclusivityConflict) : Report where
  text :=
    if conflicts = [] then "OK: every exclusivity group has at most one active route set"
    else lines (conflicts.map fun conflict =>
      "group " ++ conflict.group ++ ": " ++ String.intercalate ", " conflict.active)
  tree := Json.ofList ExclusivityConflict.toJson conflicts

/-- The report of the players of a pool. -/
def ofPlayers (players : List PlayerId) : Report where
  text := String.intercalate " " (players.map PlayerId.text)
  tree := Json.ofList PlayerId.toJson players

/-- The report of the settings. -/
def ofSettings (effective : EffectiveSettings) : Report where
  text :=
    let settings := effective.settings
    let values := [
      "store.dir = " ++ settings.storeDirectory,
      "lock.timeout_ms = " ++ naturalText settings.lockTiming.timeout,
      "lock.warn_after_ms = " ++ naturalText settings.lockTiming.warnAfter,
      "log.filter = " ++ settings.logFilter]
    let sources := effective.sources.map fun source =>
      "source: " ++ source.origin.title ++ " " ++ orDash source.path ++ " "
        ++ orDash source.digest
    trimmed (lines (values ++ sources))
  tree := effective.toJson

/-- What is printed, with its final line break. -/
def printed (json : Bool) (report : Report) : String :=
  (if json then report.tree.prettyText else report.text) ++ "\n"

end Report

end LayerRouting
