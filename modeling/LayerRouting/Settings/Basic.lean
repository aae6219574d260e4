import LayerRouting.Files.FilePath
import LayerRouting.Json.Record
import LayerRouting.Lock.Owner

/-!
# Settings

Where documents live, how long to wait for locks and what to log. Settings are read from
a tree; every member must be there, since the built-in settings are the weakest layer.
-/

namespace LayerRouting

/-- The settings of the program. -/
structure Settings where
  /-- The directory of the owners' documents. -/
  storeDirectory : String
  lockTiming : LockTiming
  logFilter : String
  deriving DecidableEq, Repr

/-- Why settings are not accepted. -/
inductive SettingsFault where
  | timeoutOutOfRange
  /-- A warning would come after calls have given up. -/
  | warningTooLate (timeout : Nat)
  | emptyStoreDirectory
  deriving DecidableEq, Repr

namespace Settings

/-- The settings without any configuration. -/
def builtin : Settings where
  storeDirectory := ".studio-routing/route-sets"
  lockTiming := LockTiming.standard
  logFilter := "info"

/-- Whether two settings are the same, where the directories need only be the same path. -/
def Same (settings other : Settings) : Prop :=
  FilePath.Same settings.storeDirectory other.storeDirectory ∧
    settings.lockTiming = other.lockTiming ∧ settings.logFilter = other.logFilter

instance (settings other : Settings) : Decidable (settings.Same other) :=
  inferInstanceAs (Decidable (_ ∧ _ ∧ _))

/-- Settings as a tree. -/
def toJson (settings : Settings) : Json :=
  .object [
    ("store", .object [("dir", .string settings.storeDirectory)]),
    ("lock", .object [
      ("timeout_ms", Json.ofNat settings.lockTiming.timeout),
      ("warn_after_ms", Json.ofNat settings.lockTiming.warnAfter)]),
    ("log", .object [("filter", .string settings.logFilter)])]

/-- A natural number of 64 bits. -/
def word? : Json -> Option Nat
  | .number (.int value) => if 0 ≤ value.val then some value.val.toNat else none
  | _ => none

/-- The store's directory. -/
def storeOfJson? (tree : Json) : Option String := do
  let record ← Record.ofTree? ["dir"] tree
  record.required? "dir" Json.asString?

/-- The timing of locks. -/
def lockOfJson? (tree : Json) : Option LockTiming := do
  let record ← Record.ofTree? ["timeout_ms", "warn_after_ms"] tree
  let timeout ← record.required? "timeout_ms" word?
  let warnAfter ← record.required? "warn_after_ms" word?
  some { timeout, warnAfter }

/-- The filter of the log. -/
def logOfJson? (tree : Json) : Option String := do
  let record ← Record.ofTree? ["filter"] tree
  record.required? "filter" Json.asString?

/-- The settings that a tree is. -/
def ofJson? (tree : Json) : Option Settings := do
  let record ← Record.ofTree? ["store", "lock", "log"] tree
  let storeDirectory ← record.required? "store" storeOfJson?
  let lockTiming ← record.required? "lock" lockOfJson?
  let logFilter ← record.required? "log" logOfJson?
  some { storeDirectory, lockTiming, logFilter }

/-- The greatest lock timeout in milliseconds. -/
def greatestTimeout : Nat := 600000

/-- The first fault of the settings, if they have one. -/
def fault? (settings : Settings) : Option SettingsFault :=
  let timing := settings.lockTiming
  if timing.timeout = 0 ∨ greatestTimeout < timing.timeout then some .timeoutOutOfRange
  else if timing.timeout < timing.warnAfter then some (.warningTooLate timing.timeout)
  else if settings.storeDirectory = "" then some .emptyStoreDirectory
  else none

end Settings

namespace SettingsFault

/-- The text of a fault. -/
def message : SettingsFault -> String
  | .timeoutOutOfRange =>
      "lock.timeout_ms must be in (0, " ++ naturalText Settings.greatestTimeout ++ "]"
  | .warningTooLate timeout =>
      "lock.warn_after_ms must not exceed lock.timeout_ms (" ++ naturalText timeout ++ ")"
  | .emptyStoreDirectory => "store.dir must not be empty"

end SettingsFault

end LayerRouting
