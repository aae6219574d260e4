import LayerRouting.Lock.Table
import LayerRouting.Number.Layout

/-!
# Holding an owner's lock

A body runs while its owner's lock is held. While nobody else makes progress, a lock that
is taken stays taken, so a call that meets one waits until its time is up and fails.
-/

namespace LayerRouting

/-- How long a call waits for a lock, in milliseconds. -/
structure LockTiming where
  /-- The time after which a call gives up. -/
  timeout : Nat
  /-- The time after which waiting is worth a warning. -/
  warnAfter : Nat
  deriving DecidableEq, Repr

namespace LockTiming

/-- Calls give up after ten seconds, with a warning after half a second. -/
def standard : LockTiming where
  timeout := 10000
  warnAfter := 500

end LockTiming

/-- The text of a duration of milliseconds: in seconds with the fraction that is needed
from one second on, in milliseconds below, and zero in nanoseconds. -/
def durationText (milliseconds : Nat) : String :=
  let fraction (value : Nat) : List Char :=
    let padded := List.replicate (3 - (decimalDigits value).length) '0' ++ decimalDigits value
    (padded.reverse.dropWhile (· == '0')).reverse
  if milliseconds = 0 then "0ns"
  else if milliseconds < 1000 then naturalText milliseconds ++ "ms"
  else if milliseconds % 1000 = 0 then naturalText (milliseconds / 1000) ++ "s"
  else
    naturalText (milliseconds / 1000) ++ "."
      ++ String.ofList (fraction (milliseconds % 1000)) ++ "s"

/-- Why a lock could not be taken. -/
inductive LockError where
  | timeout (owner : String) (milliseconds : Nat)
  deriving DecidableEq, Repr

namespace LockError

/-- The text of a lock error. -/
def message : LockError -> String
  | .timeout owner milliseconds =>
      "timed out after " ++ durationText milliseconds ++ " waiting for the lock of owner '"
        ++ owner ++ "'"

end LockError

namespace LockTable

/-- The table after a call of an owner has started and tried to take the lock, and the
position of the call. -/
def request (table : LockTable) (owner : String) : Nat × LockTable :=
  let position := table.calls.length
  (position, table.afterAll [.enter owner, .tryLock position])

/-- Whether a call holds its lock. -/
def holds (table : LockTable) (position : Nat) : Bool :=
  table.calls[position]?.any LockCall.isInside

/-- The table after a call that waits has given up and returned. -/
def abandon (table : LockTable) (position : Nat) : LockTable :=
  table.afterAll [.giveUp position, .dropClone position, .sweep position]

/-- The table after a call that holds its lock has ended its body and returned. -/
def release (table : LockTable) (position : Nat) : LockTable :=
  table.afterAll [.finish position, .dropClone position, .sweep position]

/-- Runs a body while an owner's lock is held. The body may take further locks. -/
def withLock {α : Type} (timing : LockTiming) (owner : String) (table : LockTable)
    (body : LockTable -> α × LockTable) : Except LockError α × LockTable :=
  let (position, requested) := table.request owner
  if requested.holds position then
    let (result, left) := body requested
    (.ok result, left.release position)
  else (.error (.timeout owner timing.timeout), requested.abandon position)

/-- Takes an owner's lock for a body that panics. -/
def withPanic (timing : LockTiming) (owner : String) (table : LockTable) :
    Except LockError Unit × LockTable :=
  let (position, requested) := table.request owner
  if requested.holds position then (.ok (), requested.afterAll [.panic position])
  else (.error (.timeout owner timing.timeout), requested.abandon position)

end LockTable

end LayerRouting
