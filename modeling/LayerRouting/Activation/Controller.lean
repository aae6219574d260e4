import LayerRouting.Activation.Plan
import LayerRouting.Lock.Owner
import LayerRouting.Store.Basic

/-!
# Activation of route sets

Requests to switch a route set or to reset all of them. A request loads the owner's
document, plans and saves under the owner's lock, and saves at most once: not at all when
the plan leaves the log as it is.
-/

namespace LayerRouting

/-- Why a request failed. -/
inductive ActivationError where
  | refused (refusal : Refusal)
  | persistence (error : StoreError)
  | lock (error : LockError)
  deriving DecidableEq, Repr

namespace ActivationError

/-- The rule by which a deactivation is refused. -/
def activateOnlyRule : String :=
  "ACTIVATE_ONLY route sets are deactivated only by activating another member of their group"

/-- The text of an error. -/
def message : ActivationError -> String
  | .refused (.notFound id) => "route set '" ++ id ++ "' not found"
  | .refused (.activateOnly id) => "route set '" ++ id ++ "' rejected: " ++ activateOnlyRule
  | .persistence error => "persistence failure: " ++ error.message
  | .lock error => "lock failure: " ++ error.message

/-- Whether the request may succeed when it is made again. -/
def isTransient : ActivationError -> Bool
  | .refused _ => false
  | .persistence _ => true
  | .lock _ => true

end ActivationError

/-- What a request to switch one route set did. -/
structure SwitchOutcome where
  routeSetId : String
  active : Bool
  previouslyActive : Bool
  /-- The other members of the group that were active, in order. -/
  deactivated : List String
  /-- Whether a new log was saved. -/
  committed : Bool
  /-- The length of the log that is now stored. -/
  logLength : Nat
  deriving DecidableEq, Repr

/-- What a reset did. -/
structure ResetOutcome where
  activated : List String
  deactivated : List String
  /-- Whether a new log was saved. -/
  committed : Bool
  /-- The length of the log that is now stored. -/
  logLength : Nat
  deriving DecidableEq, Repr

namespace SwitchOutcome

/-- An outcome as a tree. -/
def toJson (outcome : SwitchOutcome) : Json :=
  .object [("routeSetId", .string outcome.routeSetId), ("active", .bool outcome.active),
    ("previouslyActive", .bool outcome.previouslyActive),
    ("deactivated", Json.ofList .string outcome.deactivated),
    ("committed", .bool outcome.committed), ("logLen", Json.ofNat outcome.logLength)]

end SwitchOutcome

namespace ResetOutcome

/-- An outcome as a tree. -/
def toJson (outcome : ResetOutcome) : Json :=
  .object [("activated", Json.ofList .string outcome.activated),
    ("deactivated", Json.ofList .string outcome.deactivated),
    ("committed", .bool outcome.committed), ("logLen", Json.ofNat outcome.logLength)]

end ResetOutcome

/-- A store with the locks of its owners and the ids for new ops. -/
structure Controller (σ : Type) where
  store : σ
  locks : LockTable
  timing : LockTiming
  supply : IdSupply

namespace Controller

variable {σ : Type} [DocumentStore σ]

/-- A controller of a store. -/
def ofStore (store : σ) (timing : LockTiming) (supply : IdSupply) : Controller σ :=
  { store, locks := LockTable.empty, timing, supply }

/-- The route sets of an owner, read without the lock. -/
def routeSets (controller : Controller σ) (owner : String) : Except ActivationError RouteSets :=
  match DocumentStore.load controller.store owner with
  | .ok document => .ok (RouteSets.ofDocument document)
  | .error error => .error (.persistence error)

/-- Saves a planned log unless it is the log that the document has; says whether it did. -/
def commit (controller : Controller σ) (owner : String) (document : Document Json)
    (draft : Draft) : Except ActivationError Bool × Controller σ :=
  let supplied := { controller with supply := draft.supply }
  if draft.log.Same document.log then (.ok false, supplied)
  else
    match DocumentStore.save controller.store owner draft.log with
    | (.ok (), store) => (.ok true, { supplied with store })
    | (.error error, store) => (.error (.persistence error), { supplied with store })

/-- Switches one route set, for a caller that holds the owner's lock. -/
def switchLocked (controller : Controller σ) (owner id : String) (active : Bool) :
    Except ActivationError SwitchOutcome × Controller σ :=
  match DocumentStore.load controller.store owner with
  | .error error => (.error (.persistence error), controller)
  | .ok document =>
      match planSwitch document controller.supply id active with
      | .error refusal => (.error (.refused refusal), controller)
      | .ok plan =>
          let (result, after) := controller.commit owner document plan.draft
          let outcome := result.map fun committed => {
            routeSetId := id
            active
            previouslyActive := plan.previouslyActive
            deactivated := plan.deactivated
            committed
            logLength := if committed then plan.draft.log.length else document.log.length }
          (outcome, after)

/-- Resets all route sets, for a caller that holds the owner's lock. -/
def resetLocked (controller : Controller σ) (owner : String) :
    Except ActivationError ResetOutcome × Controller σ :=
  match DocumentStore.load controller.store owner with
  | .error error => (.error (.persistence error), controller)
  | .ok document =>
      let plan := planReset document controller.supply
      let (result, after) := controller.commit owner document plan.draft
      let outcome := result.map fun committed => {
        activated := plan.activated
        deactivated := plan.deactivated
        committed
        logLength := if committed then plan.draft.log.length else document.log.length }
      (outcome, after)

/-- Runs a body while an owner's lock is held. -/
def withLock {α : Type} (controller : Controller σ) (owner : String)
    (body : Controller σ -> α × Controller σ) : Except LockError α × Controller σ :=
  let locked := controller.locks.withLock controller.timing owner fun locks =>
    let (result, after) := body { controller with locks }
    ((result, after), after.locks)
  match locked with
  | (.ok (result, after), locks) => (.ok result, { after with locks })
  | (.error error, locks) => (.error error, { controller with locks })

/-- The result of a request that ran under a lock, or the lock's error. -/
def joined {α : Type} : Except LockError (Except ActivationError α) -> Except ActivationError α
  | .ok result => result
  | .error error => .error (.lock error)

/-- Switches one route set of an owner on or off. -/
def switch (controller : Controller σ) (owner id : String) (active : Bool) :
    Except ActivationError SwitchOutcome × Controller σ :=
  let (result, after) := controller.withLock owner fun locked =>
    locked.switchLocked owner id active
  (joined result, after)

/-- Resets all route sets of an owner to their default states. -/
def reset (controller : Controller σ) (owner : String) :
    Except ActivationError ResetOutcome × Controller σ :=
  let (result, after) := controller.withLock owner fun locked => locked.resetLocked owner
  (joined result, after)

end Controller

end LayerRouting
