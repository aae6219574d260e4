import LayerRouting.Proofs.Activation.Requests
import LayerRouting.Proofs.Store.Files

/-!
# Requests as a whole

A request is atomic (`IsAtomic`): it asks for one save at most, an error leaves every stored
document as it was, and a success reports what is stored now. This holds of the store in
memory and of the store of files, in service and out of it
(`Controller.isAtomic_requests`). The store of files keeps the defaults of a document whose
numbers read back; a binary64 number that does not is stored as a neighbour when the document
is written again (`Controller.switch_changes_unstable_defaults`).
-/

namespace LayerRouting

variable {σ : Type} [DocumentStore σ]

/-- Every save that is asked of a store under observation is counted. -/
theorem MonitoredStore.saves_save {store after : MonitoredStore σ} {owner : String} {log : Log}
    {result : Except StoreError Unit}
    (saved : DocumentStore.save store owner log = (result, after)) :
    after.saves = store.saves + 1 := by
  simp only [DocumentStore.save] at saved
  split at saved <;> cases saved <;> rfl

namespace Controller

/-- What atomic means of a request, for what counts as the same stored documents and for the
documents that the store reads back as they are: the defaults of others may change when they
are written again. An outcome reports whether a log was saved and the length of the one that
is stored. -/
structure IsAtomic {α : Type} (same : σ -> σ -> Prop) (readsBack : Document Json -> Prop)
    (report : α -> Bool × Nat) (owner : String) (before after : MonitoredStore σ)
    (result : Except ActivationError α) : Prop where
  /-- Saving is asked for once at most. -/
  once : after.saves ≤ before.saves + 1
  /-- An error leaves the documents as they are, and only a failed save was asked for. -/
  failed : ∀ error, result = .error error ->
    same before.inner after.inner ∧ SameDocuments before after
      ∧ (after.saves = before.saves ∨ ∃ log fault, error = .persistence fault
        ∧ DocumentStore.save before owner log = (.error fault, after))
  /-- A success reports the log that is stored, and has saved it if it says so. -/
  succeeded : ∀ outcome, result = .ok outcome -> ∃ document log,
    DocumentStore.load before owner = .ok document ∧ log.length = (report outcome).2
      ∧ (if (report outcome).1 then
          after.saves = before.saves + 1 ∧ DocumentStore.save before owner log = (.ok (), after)
        else after = before ∧ log = document.log)
      ∧ (readsBack document -> DocumentStore.load after owner = .ok { document with log })
      ∧ ∀ other, other ≠ owner -> DocumentStore.load after other = DocumentStore.load before other

/-- What is planned reports whether a log was saved and the length of the one that is stored. -/
def Reports {α : Type} (planned : Document Json -> (Bool -> Nat -> α) -> Draft -> Prop)
    (report : α -> Bool × Nat) : Prop :=
  ∀ document outcome draft, planned document outcome draft ->
    ∀ committed logLength, report (outcome committed logLength) = (committed, logLength)

theorem SwitchPlans.reports (supply : IdSupply) (id : String) (active : Bool) :
    Reports (SwitchPlans supply id active)
      fun outcome => (outcome.committed, outcome.logLength) := by
  rintro document outcome draft ⟨plan, planned, rfl, rfl⟩ committed logLength
  rfl

theorem ResetPlans.reports (supply : IdSupply) :
    Reports (ResetPlans supply) fun outcome => (outcome.committed, outcome.logLength) := by
  rintro document outcome draft ⟨rfl, rfl⟩ committed logLength
  rfl

/-- A request that is handled is atomic in a store of which failed saves change nothing and
successful ones store flags for their owner. -/
theorem Handled.isAtomic {α : Type} {same : σ -> σ -> Prop} {readsBack : Document Json -> Prop}
    {report : α -> Bool × Nat} {owner : String}
    {planned : Document Json -> (Bool -> Nat -> α) -> Draft -> Prop}
    {before after : Controller (MonitoredStore σ)} {result : Except ActivationError α}
    (handled : Handled owner planned before after result)
    (records : RecordsFlags before.supply planned) (reports : Reports planned report)
    (refl : ∀ store, same store store)
    (documents : ∀ {store later : σ}, same store later -> SameDocuments store later)
    (unsaved : ∀ {store later : σ} {log error},
      DocumentStore.save store owner log = (.error error, later) -> same store later)
    (saved : ∀ {later : σ} {document : Document Json} {flags},
      DocumentStore.load before.store.inner owner = .ok document -> readsBack document ->
      DocumentStore.save before.store.inner owner
        (document.withFlags before.supply flags).log = (.ok (), later) ->
      DocumentStore.load later owner = .ok (document.withFlags before.supply flags))
    (apart : ∀ {store later : σ} {log}, DocumentStore.save store owner log = (.ok (), later) ->
      ∀ other, other ≠ owner -> DocumentStore.load later other = DocumentStore.load store other) :
    IsAtomic same readsBack report owner before.store after.store result := by
  cases handled with
  | refused store =>
      refine ⟨?_, ?_, nofun⟩
      · rw [store]
        omega
      · intro error _
        rw [store]
        exact ⟨refl _, .of_eq rfl, .inl rfl⟩
  | unchanged stored plan equal store =>
      have reported := reports _ _ _ plan
      refine ⟨?_, nofun, ?_⟩
      · rw [store]
        omega
      · rintro _ ⟨⟩
        rw [reported, store]
        exact ⟨_, _, stored, rfl, ⟨rfl, rfl⟩, fun _ => stored, fun _ _ => rfl⟩
  | saved stored plan different store =>
      have reported := reports _ _ _ plan
      obtain ⟨flags, rfl⟩ := records _ _ _ plan
      have counted := MonitoredStore.saves_save store
      refine ⟨counted.le, nofun, ?_⟩
      rintro _ ⟨⟩
      rw [reported]
      obtain ⟨_, failed, -⟩ | inner := MonitoredStore.save_cases store
      · cases failed
      · exact ⟨_, _, stored, rfl, ⟨counted, store⟩, fun read => saved stored read inner,
          apart inner⟩
  | unsaved stored plan different store =>
      have counted := MonitoredStore.saves_save store
      refine ⟨counted.le, ?_, nofun⟩
      rintro _ ⟨⟩
      have kept : same before.store.inner after.store.inner := by
        obtain ⟨_, -, untouched⟩ | inner := MonitoredStore.save_cases store
        · rw [untouched]
          exact refl _
        · exact unsaved inner
      exact ⟨kept, fun other => documents kept other, .inr ⟨_, _, rfl, store⟩⟩

/-- A request that is handled is atomic in the store in memory, which loads every document as
it was saved. -/
theorem Handled.isAtomic_memory {α : Type} {report : α -> Bool × Nat} {owner : String}
    {planned : Document Json -> (Bool -> Nat -> α) -> Draft -> Prop}
    {before after : Controller (MonitoredStore MemoryStore)} {result : Except ActivationError α}
    (handled : Handled owner planned before after result)
    (records : RecordsFlags before.supply planned) (reports : Reports planned report) :
    IsAtomic (fun store later => later = store) (fun _ => True) report owner before.store
      after.store result := by
  refine handled.isAtomic records reports (fun _ => rfl) (fun same => .of_eq same) ?_ ?_ ?_
  · intro store later log error failed
    simp only [DocumentStore.save, MemoryStore.save] at failed
    split at failed <;> cases failed
    rfl
  · intro later document flags stored _ saved
    obtain ⟨again, before, after⟩ := MemoryStore.load_saved saved
    obtain rfl := Except.ok.inj (before.symm.trans stored)
    exact after
  · intro store later log saved other distinct
    exact LawfulStore.load_other saved distinct

/-- A request that is handled is atomic in a store of files, which loads a document as it was
saved if its numbers read back. -/
theorem Handled.isAtomic_files {α δ : Type} [StoreDirectory δ] [LawfulDirectory δ]
    {report : α -> Bool × Nat} {owner : String}
    {planned : Document Json -> (Bool -> Nat -> α) -> Draft -> Prop}
    {before after : Controller (MonitoredStore (FileStore δ))} {result : Except ActivationError α}
    (handled : Handled owner planned before after result)
    (records : RecordsFlags before.supply planned) (reports : Reports planned report) :
    IsAtomic FileStore.SameFiles
      (fun document => document.ReadsBack ∧ before.store.inner.now.IsRegular) report owner
      before.store after.store result := by
  refine handled.isAtomic records reports FileStore.SameFiles.refl FileStore.SameFiles.load
    FileStore.save_error ?_ FileStore.load_other
  rintro later document flags stored ⟨read, clock⟩ saved
  have fits := (FileStore.fits_of_load stored).of_readsBack read
  exact FileStore.load_saved stored saved clock (fits.withFlags before.supply flags)

/-- Whether the requests to a controller for an owner are atomic. -/
structure RequestsAtomic (same : σ -> σ -> Prop) (readsBack : Document Json -> Prop)
    (controller : Controller (MonitoredStore σ)) (owner : String) : Prop where
  switch : ∀ id active, IsAtomic same readsBack
    (fun outcome : SwitchOutcome => (outcome.committed, outcome.logLength)) owner
    controller.store (controller.switch owner id active).2.store
    (controller.switch owner id active).1
  reset : IsAtomic same readsBack
    (fun outcome : ResetOutcome => (outcome.committed, outcome.logLength)) owner
    controller.store (controller.reset owner).2.store (controller.reset owner).1

/-- Requests are atomic in both stores. -/
theorem isAtomic_requests {δ : Type} [StoreDirectory δ] [LawfulDirectory δ] :
    (∀ (controller : Controller (MonitoredStore MemoryStore)) (owner : String),
      RequestsAtomic (fun before after => after = before) (fun _ => True) controller owner)
    ∧ ∀ (controller : Controller (MonitoredStore (FileStore δ))) (owner : String),
      RequestsAtomic FileStore.SameFiles
        (fun document => document.ReadsBack ∧ controller.store.inner.now.IsRegular)
        controller owner := by
  constructor
  · intro controller owner
    exact ⟨fun id active => (controller.switch_handled owner id active).isAtomic_memory
        (SwitchPlans.recordsFlags _ id active) (SwitchPlans.reports _ id active),
      (controller.reset_handled owner).isAtomic_memory (ResetPlans.recordsFlags _)
        (ResetPlans.reports _)⟩
  · intro controller owner
    exact ⟨fun id active => (controller.switch_handled owner id active).isAtomic_files
        (SwitchPlans.recordsFlags _ id active) (SwitchPlans.reports _ id active),
      (controller.reset_handled owner).isAtomic_files (ResetPlans.recordsFlags _)
        (ResetPlans.reports _)⟩

/-- The collection of two route sets, stored at the start of 1970. -/
def storedSides : StoredDocument where
  version := schemaVersion
  updatedAt := ⟨0, 0⟩
  document := Document.sides

/-- A controller of a store of files in service, in which one owner has a collection of two
route sets. -/
def ofSideFiles : Controller (MonitoredStore (FileStore Directory)) :=
  Controller.ofStore (MonitoredStore.ofStore
      ⟨.holding [("stage.json", .file storedSides.toContent)], storedSides.updatedAt⟩)
    LockTiming.standard ⟨0⟩

theorem fits_sides : Document.sides.Fits Number.ReadsBack where
  defaults := by
    have fits : Document.sides.defaults.Fits Number.ReadsBack 2 := by
      refine .object ?_ (by decide)
      simp only [List.forall_mem_cons]
      refine ⟨.object ?_ (by decide), .object ?_ (by decide), List.forall_mem_nil _⟩
      · simp only [List.forall_mem_cons]
        exact ⟨.string _, .bool _, .string _, List.forall_mem_nil _⟩
      · simp only [List.forall_mem_cons]
        exact ⟨.string _, .string _, List.forall_mem_nil _⟩
    exact fits.mono (by decide)
  log := List.forall_mem_nil _

theorem isRegular_storedSides : storedSides.updatedAt.IsRegular :=
  ⟨by decide, by decide⟩

theorem load_ofSideFiles : DocumentStore.load ofSideFiles.store "stage" = .ok Document.sides := by
  have known := StoredDocument.ofContent?_toContent_of_fits rfl isRegular_storedSides fits_sides
  have name : OwnerId.documentName "stage" = "stage.json" := by decide
  have read : ofSideFiles.store.inner.file "stage" = .ok storedSides.toContent := by
    rw [FileStore.file, name]
    exact Directory.read_holding _ _
  have loaded : ofSideFiles.store.inner.loadStored "stage" = .ok storedSides :=
    FileStore.loadStored_of_file (by decide) read known rfl
  exact FileStore.load_of_loadStored loaded

/-- Requests for two route sets are atomic, in memory and in files that are read as they were
written. -/
theorem isAtomic_requests_of_sides :
    DocumentStore.load ofSides.store "stage" = .ok Document.sides
      ∧ RequestsAtomic (fun before after => after = before) (fun _ => True) ofSides "stage"
      ∧ DocumentStore.load ofSideFiles.store "stage" = .ok Document.sides
      ∧ Document.sides.ReadsBack ∧ ofSideFiles.store.inner.now.IsRegular
      ∧ RequestsAtomic FileStore.SameFiles
        (fun document => document.ReadsBack ∧ ofSideFiles.store.inner.now.IsRegular)
        ofSideFiles "stage" :=
  ⟨load_ofSides, (isAtomic_requests (δ := Directory)).1 ofSides "stage", load_ofSideFiles,
    ⟨fits_sides.defaults.readsBack, List.forall_mem_nil _⟩, isRegular_storedSides,
    (isAtomic_requests (δ := Directory)).2 ofSideFiles "stage"⟩

/-! ## Numbers that do not read back -/

/-- The file of a document with a number in its defaults that does not read back. -/
def unstableText : String :=
  "\x7b\"schemaVersion\":1,\"updatedAt\":\"2024-01-01T00:00:00Z\","
    ++ "\"defaults\":\x7b\"a\":\x7b\"name\":\"A\",\"level\":1e-24\x7d\x7d\x7d"

/-- A controller of a store of files in service, in which one owner has that document. -/
def ofUnstable : Controller (MonitoredStore (FileStore Directory)) :=
  Controller.ofStore (MonitoredStore.ofStore
      ⟨.holding [("stage.json", .file (Content.ofText unstableText))], ⟨0, 0⟩⟩)
    LockTiming.standard ⟨0⟩

/-- Defaults that do not read back are not kept by a request that succeeds. -/
theorem switch_changes_unstable_defaults :
    (ofUnstable.switch "stage" "a" true).1.map SwitchOutcome.committed = .ok true
      ∧ (DocumentStore.load (ofUnstable.switch "stage" "a" true).2.store "stage").map
          Document.defaults
        ≠ (DocumentStore.load ofUnstable.store "stage").map Document.defaults := by
  decide +kernel

end Controller

end LayerRouting
