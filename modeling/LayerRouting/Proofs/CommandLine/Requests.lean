import LayerRouting.CommandLine.Program
import LayerRouting.Proofs.Activation.Runs
import LayerRouting.Proofs.Store.TimedFiles

/-!
# Requests of the program

The program handles requests by a controller of a store of files. While the clock shows a time that
a clock gives, such a store does what a `TimedFileStore` does, which keeps the contract of stores,
and a controller of the one does what a controller of the other does (`Controller.switch_files`,
`Controller.reset_files`). So what is proved of requests from the contract holds of the program's
requests: of its commands none but the one that starts a document lets a group have two active
members (`Program.runCommand_isSound`).
-/

namespace LayerRouting

variable {δ : Type} [StoreDirectory δ]

namespace Controller

/-! ## Controllers of files -/

/-- The controller of the files of a store. -/
def files (controller : Controller (TimedFileStore δ)) : Controller (FileStore δ) :=
  { controller with store := controller.store.files }

omit [StoreDirectory δ] in
/-- A controller of files is such a one while its clock shows a time that a clock gives. -/
theorem exists_files (controller : Controller (FileStore δ))
    (regular : controller.store.now.IsRegular) :
    ∃ timed : Controller (TimedFileStore δ), timed.files = controller :=
  ⟨{ controller with store := ⟨controller.store, regular⟩ }, rfl⟩

/-- What a body gives and the files of the controller that it leaves. -/
def onFiles {α : Type} (done : α × Controller (TimedFileStore δ)) : α × Controller (FileStore δ) :=
  (done.1, done.2.files)

variable (controller : Controller (TimedFileStore δ)) (owner : String)

theorem commit_files (document : Document Json) (draft : Draft) :
    controller.files.commit owner document draft
      = onFiles (controller.commit owner document draft) := by
  rw [commit, commit]
  split
  · rfl
  · have saved : DocumentStore.save controller.files.store owner draft.log
        = ((DocumentStore.save controller.store owner draft.log).1,
          (DocumentStore.save controller.store owner draft.log).2.files) := rfl
    rw [saved]
    generalize DocumentStore.save controller.store owner draft.log = result
    obtain ⟨_ | _, _⟩ := result <;> rfl

theorem switchLocked_files (id : String) (active : Bool) :
    controller.files.switchLocked owner id active
      = onFiles (controller.switchLocked owner id active) := by
  have loaded : DocumentStore.load controller.files.store owner
      = DocumentStore.load controller.store owner := rfl
  have supplied : controller.files.supply = controller.supply := rfl
  rw [switchLocked, switchLocked, loaded, supplied]
  split
  · rfl
  · split
    · rfl
    · rw [commit_files]
      rfl

theorem resetLocked_files :
    controller.files.resetLocked owner = onFiles (controller.resetLocked owner) := by
  have loaded : DocumentStore.load controller.files.store owner
      = DocumentStore.load controller.store owner := rfl
  have supplied : controller.files.supply = controller.supply := rfl
  rw [resetLocked, resetLocked, loaded, supplied]
  split
  · rfl
  · simp only [commit_files]
    rfl

omit [StoreDirectory δ] in
/-- A body that does to the files what another one does to their store does so under the lock. -/
theorem withLock_files {α : Type} {body : Controller (FileStore δ) -> α × Controller (FileStore δ)}
    {timed : Controller (TimedFileStore δ) -> α × Controller (TimedFileStore δ)}
    (same : ∀ current, body current.files = onFiles (timed current)) :
    controller.files.withLock owner body = onFiles (controller.withLock owner timed) := by
  have bodies (locks : LockTable) :
      body { controller.files with locks } = onFiles (timed { controller with locks }) :=
    same { controller with locks }
  have table : controller.files.locks = controller.locks := rfl
  by_cases held :
      (controller.locks.request owner).2.holds (controller.locks.request owner).1
  · simp only [withLock, LockTable.withLock, bodies, table, held, if_true]
    rfl
  · simp only [withLock, LockTable.withLock, table, held]
    rfl

/-- A request to a controller of files. -/
theorem switch_files (id : String) (active : Bool) :
    controller.files.switch owner id active = onFiles (controller.switch owner id active) := by
  rw [switch, withLock_files controller owner fun current => current.switchLocked_files owner id
    active]
  rfl

/-- A reset by a controller of files. -/
theorem reset_files : controller.files.reset owner = onFiles (controller.reset owner) := by
  rw [reset, withLock_files controller owner fun current => current.resetLocked_files owner]
  rfl

variable [LawfulDirectory δ]

/-- A request to a controller of files leaves every sound document sound. -/
theorem exists_isSound_files {controller : Controller (FileStore δ)}
    (regular : controller.store.now.IsRegular) {owner : String} {document : Document Json}
    (stored : controller.store.load owner = .ok document) (sound : document.IsSound) :
    (∀ requester id active, ∃ final,
        (controller.switch requester id active).2.store.load owner = .ok final ∧ final.IsSound)
      ∧ ∀ requester, ∃ final,
        (controller.reset requester).2.store.load owner = .ok final ∧ final.IsSound := by
  obtain ⟨timed, rfl⟩ := exists_files controller regular
  constructor
  · intro requester id active
    rw [switch_files]
    exact (Step.switch timed requester id active).exists_isSound stored sound
  · intro requester
    rw [reset_files]
    exact (Step.reset timed requester).exists_isSound stored sound

end Controller

/-! ## Commands -/

namespace Program

variable [LawfulDirectory δ]

/-- A command that starts no document leaves every sound document sound. -/
theorem execute_isSound (effective : EffectiveSettings) {controller : Controller (FileStore δ)}
    (regular : controller.store.now.IsRegular) (input : Except FileFault Content)
    {command : Command} (starts : ∀ owner path, command ≠ .init owner path) {owner : String}
    {document : Document Json} (stored : controller.store.load owner = .ok document)
    (sound : document.IsSound) :
    ∃ final, (execute effective controller input command).2.store.load owner = .ok final
      ∧ final.IsSound := by
  obtain ⟨switched, reset⟩ := Controller.exists_isSound_files regular stored sound
  cases command with
  | init owner path => exact absurd rfl (starts owner path)
  | activate requester id => exact switched requester id true
  | deactivate requester id => exact switched requester id false
  | reset requester => exact reset requester
  | routes requester path =>
      cases path <;> exact ⟨document, stored, sound⟩
  | check requester =>
      rw [execute]
      split <;> exact ⟨document, stored, sound⟩
  | «show» | pools | config => exact ⟨document, stored, sound⟩

/-- A run of the program with any command but the one that starts a document leaves every sound
document of its directory sound: no group gets two active members. -/
theorem runCommand_isSound {surroundings : Surroundings} (regular : surroundings.now.IsRegular)
    {arguments : Arguments} (starts : ∀ owner path, arguments.command ≠ .init owner path)
    (effective : EffectiveSettings) (directory : δ) (input : Except FileFault Content)
    {owner : String} {document : Document Json}
    (stored : FileStore.load { directory, now := surroundings.now } owner = .ok document)
    (sound : document.IsSound) :
    ∃ final, FileStore.load
        { directory := (runCommand surroundings arguments effective directory input).2
          now := surroundings.now } owner = .ok final
      ∧ final.IsSound := by
  let controller : Controller (FileStore δ) :=
    Controller.ofStore ⟨directory, surroundings.now⟩ effective.settings.lockTiming
      surroundings.supply
  have clock : controller.store.now.IsRegular := regular
  exact execute_isSound effective clock input starts stored sound

end Program

end LayerRouting
