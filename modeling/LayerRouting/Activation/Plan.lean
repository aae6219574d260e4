import LayerRouting.Override.Draft
import LayerRouting.RouteSet.Collection

/-!
# Plans of activation

What a request makes of a document: the new log and what it reports, before anything is
stored. Activating a route set deactivates the other members of its group. A reset gives
every route set its default state, of which only the first active one in each group
stands, and keeps an active set that may only be deactivated by another member of its
group unless there is such a member.
-/

namespace LayerRouting

/-- Why a request is refused by the route sets themselves. -/
inductive Refusal where
  /-- No live route set has the id. -/
  | notFound (id : String)
  /-- The route set is deactivated by its group only. -/
  | activateOnly (id : String)
  deriving DecidableEq, Repr

/-- What a request to switch one route set leads to. -/
structure SwitchPlan where
  previouslyActive : Bool
  /-- The other members of the group that were active, in order. -/
  deactivated : List String
  draft : Draft
  deriving DecidableEq, Repr

/-- What a reset leads to. -/
structure ResetPlan where
  activated : List String
  deactivated : List String
  draft : Draft
  deriving DecidableEq, Repr

/-- The field that holds whether a route set is active. -/
def activeField : Path := [.key "active"]

namespace Draft

/-- Records whether a route set is active. -/
def setActive (draft : Draft) (id : String) (active : Bool) : Draft :=
  draft.setField id activeField (.bool active)

end Draft

namespace RouteSets

/-- The live route set of an id. -/
def liveSet? (sets : RouteSets) (id : String) : Option RouteSet :=
  (sets.find? fun item => item.id = id).bind Item.computed

/-- The other members of the group that a route set is in, in order. -/
def siblings (sets : RouteSets) (id : String) (set : RouteSet) : List (String × RouteSet) :=
  match set.group? with
  | none => []
  | some group => (sets.groupMembers group).filter fun entry => entry.1 ≠ id

end RouteSets

/-- Plans a request to switch one route set on or off. -/
def planSwitch (document : Document Json) (supply : IdSupply) (id : String) (active : Bool) :
    Except Refusal SwitchPlan :=
  let sets := RouteSets.ofDocument document
  match sets.liveSet? id with
  | none => .error (.notFound id)
  | some set =>
      if !active && set.behavior = .activateOnly then .error (.activateOnly id)
      else
        let siblings := if active then sets.siblings id set else []
        let switched := (Draft.ofDocument document supply).setActive id active
        .ok {
          previouslyActive := set.active
          deactivated := (siblings.filter fun entry => entry.2.active).map Prod.fst
          draft := siblings.foldl (fun draft entry => draft.setActive entry.1 false) switched }

/-! ## Resets -/

/-- A route set with the state that a reset gives it. -/
structure ResetTarget where
  id : String
  set : RouteSet
  active : Bool
  deriving DecidableEq

namespace ResetTarget

/-- The default state of a route set: what its defaults say, or else its present state. -/
def ofLive (entry : String × RouteSet) : ResetTarget :=
  { id := entry.1, set := entry.2, active := entry.2.defaultActive.getD entry.2.active }

/-- Lets only the first active target of each group stand, when some groups have been
claimed before; gives the targets and the claimed groups. -/
def claimGroups (claimed : List String) : List ResetTarget -> List ResetTarget × List String
  | [] => ([], claimed)
  | target :: rest =>
      match target.active, target.set.group? with
      | true, some group =>
          if group ∈ claimed then
            let (targets, groups) := claimGroups claimed rest
            ({ target with active := false } :: targets, groups)
          else
            let (targets, groups) := claimGroups (group :: claimed) rest
            (target :: targets, groups)
      | _, _ =>
          let (targets, groups) := claimGroups claimed rest
          (target :: targets, groups)

/-- Whether the target would deactivate a set that only its group may deactivate. -/
def needsSuccessor (target : ResetTarget) : Bool :=
  target.set.behavior = .activateOnly && target.set.active && !target.active

/-- Keeps the sets that need another active member of their group and have none. A kept
set claims its group in turn. -/
def keepUnsucceeded (claimed : List String) : List ResetTarget -> List ResetTarget
  | [] => []
  | target :: rest =>
      if target.needsSuccessor then
        match target.set.group? with
        | some group =>
            if group ∈ claimed then target :: keepUnsucceeded claimed rest
            else { target with active := true } :: keepUnsucceeded (group :: claimed) rest
        | none => { target with active := true } :: keepUnsucceeded claimed rest
      else target :: keepUnsucceeded claimed rest

/-- Whether the target differs from the present state. -/
def changes (target : ResetTarget) : Bool :=
  target.active != target.set.active

end ResetTarget

namespace RouteSets

/-- The states that a reset gives the live route sets, in order. -/
def resetTargets (sets : RouteSets) : List ResetTarget :=
  let (targets, claimed) := ResetTarget.claimGroups [] (sets.live.map ResetTarget.ofLive)
  ResetTarget.keepUnsucceeded claimed targets

end RouteSets

/-- Plans a reset. -/
def planReset (document : Document Json) (supply : IdSupply) : ResetPlan :=
  let changes := (RouteSets.ofDocument document).resetTargets.filter ResetTarget.changes
  { activated := (changes.filter fun target => target.active).map ResetTarget.id
    deactivated := (changes.filter fun target => !target.active).map ResetTarget.id
    draft := changes.foldl (fun draft target => draft.setActive target.id target.active)
      (Draft.ofDocument document supply) }

end LayerRouting
