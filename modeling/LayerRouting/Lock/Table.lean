import LayerRouting.Json.Basic

/-!
# The lock table

Edits of one owner's document are serialised by a mutex of the owner. The mutexes stand
in a table; a call takes a clone of its owner's mutex while it uses it, and gives the
entry back to the table once nobody else holds a clone. Each event of a call is one
atomic step: either the table itself is locked during the step, or the step concerns a
single mutex. A call that does not get the mutex in time gives up. A call whose body
panics frees the mutex but leaves the entry in the table.
-/

namespace LayerRouting

/-- How a call ended. -/
inductive CallEnd where
  /-- The body ran to its end. -/
  | finished
  /-- The mutex could not be taken in time. -/
  | timedOut
  /-- The body panicked. -/
  | panicked
  deriving DecidableEq, Repr

/-- What a call is doing. -/
inductive CallPhase where
  /-- It holds a clone of the mutex and tries to take it. -/
  | waiting
  /-- It holds the mutex and runs its body. -/
  | inside
  /-- It holds a clone of the mutex that it no longer needs. -/
  | leaving (how : CallEnd)
  /-- It has dropped its clone and is about to look after the entry. -/
  | sweeping (how : CallEnd)
  /-- It has returned. -/
  | returned (how : CallEnd)
  deriving DecidableEq, Repr

/-- A call that takes an owner's lock. -/
structure LockCall where
  owner : String
  /-- The mutex that the call cloned from the table. -/
  mutex : Nat
  phase : CallPhase
  deriving DecidableEq, Repr

namespace LockCall

/-- Whether the call holds a clone of its mutex. -/
def holdsClone (call : LockCall) : Bool :=
  match call.phase with
  | .waiting | .inside | .leaving _ => true
  | .sweeping _ | .returned _ => false

/-- Whether the call runs its body, holding the mutex. -/
def isInside (call : LockCall) : Bool :=
  call.phase = .inside

end LockCall

/-- The mutexes of owners, and all calls so far in order of their start. -/
structure LockTable where
  /-- The mutex of each owner that has one. -/
  entries : List (String × Nat)
  /-- The next new mutex. -/
  nextMutex : Nat
  calls : List LockCall
  deriving DecidableEq, Repr

/-- One atomic step of one call, which is named by its position among the calls. -/
inductive LockEvent where
  /-- A new call clones its owner's mutex, which is made if there is none. -/
  | enter (owner : String)
  /-- A waiting call takes the mutex if it is free, and goes on waiting if it is not. -/
  | tryLock (call : Nat)
  /-- A waiting call gives up. -/
  | giveUp (call : Nat)
  /-- A call's body ends and the mutex is freed. -/
  | finish (call : Nat)
  /-- A call drops its clone. -/
  | dropClone (call : Nat)
  /-- A call removes its owner's entry if nobody holds a clone of its mutex. -/
  | sweep (call : Nat)
  /-- A call's body panics: the mutex is freed and the clone dropped. -/
  | panic (call : Nat)
  deriving DecidableEq, Repr

namespace LockTable

/-- The table before any call. -/
def empty : LockTable := ⟨[], 0, []⟩

/-- Whether some call holds a mutex. -/
def isLocked (table : LockTable) (mutex : Nat) : Bool :=
  table.calls.any fun call => call.isInside && call.mutex == mutex

/-- Whether some call holds a clone of a mutex. -/
def isCloned (table : LockTable) (mutex : Nat) : Bool :=
  table.calls.any fun call => call.holdsClone && call.mutex == mutex

/-- The table after a call has moved to another phase. -/
def setPhase (table : LockTable) (position : Nat) (phase : CallPhase) : LockTable :=
  { table with calls := table.calls.modify position fun call => { call with phase } }

/-- A new call of an owner, at the end of the calls. -/
def enter (table : LockTable) (owner : String) : LockTable :=
  match Entries.get? owner table.entries with
  | some mutex => { table with calls := table.calls ++ [⟨owner, mutex, .waiting⟩] }
  | none =>
      { entries := table.entries ++ [(owner, table.nextMutex)]
        nextMutex := table.nextMutex + 1
        calls := table.calls ++ [⟨owner, table.nextMutex, .waiting⟩] }

/-- A call tries to take its mutex. -/
def tryLock (table : LockTable) (position : Nat) (call : LockCall) : LockTable :=
  if table.isLocked call.mutex then table else table.setPhase position .inside

/-- A call looks after its owner's entry and returns. -/
def sweep (table : LockTable) (position : Nat) (call : LockCall) (how : CallEnd) : LockTable :=
  let idle :=
    match Entries.get? call.owner table.entries with
    | some mutex => !table.isCloned mutex
    | none => false
  let entries := if idle then Entries.erase call.owner table.entries else table.entries
  { table with entries }.setPhase position (.returned how)

/-- The table after an event; none if the event's call is not ready for it. -/
def after? (table : LockTable) : LockEvent -> Option LockTable
  | .enter owner => some (table.enter owner)
  | .tryLock position => do
      let call ← table.calls[position]?
      if call.phase = .waiting then some (table.tryLock position call) else none
  | .giveUp position => do
      let call ← table.calls[position]?
      if call.phase = .waiting then some (table.setPhase position (.leaving .timedOut))
      else none
  | .finish position => do
      let call ← table.calls[position]?
      if call.phase = .inside then some (table.setPhase position (.leaving .finished))
      else none
  | .dropClone position => do
      let call ← table.calls[position]?
      match call.phase with
      | .leaving how => some (table.setPhase position (.sweeping how))
      | _ => none
  | .sweep position => do
      let call ← table.calls[position]?
      match call.phase with
      | .sweeping how => some (table.sweep position call how)
      | _ => none
  | .panic position => do
      let call ← table.calls[position]?
      if call.phase = .inside then some (table.setPhase position (.returned .panicked))
      else none

/-- The table after events, of which those that no call is ready for do nothing. -/
def afterAll (table : LockTable) (events : List LockEvent) : LockTable :=
  events.foldl (fun table event => (table.after? event).getD table) table

/-- Zero or more events, one after the other. -/
inductive Reaches : LockTable -> LockTable -> Prop where
  | refl (table : LockTable) : Reaches table table
  | step {table middle next : LockTable} (event : LockEvent) (prior : Reaches table middle)
      (transition : middle.after? event = some next) : Reaches table next

end LockTable

end LayerRouting
