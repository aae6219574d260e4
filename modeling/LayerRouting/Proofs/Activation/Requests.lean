import LayerRouting.Activation.Controller
import LayerRouting.Proofs.Activation.Plans
import LayerRouting.Proofs.Lock.Idle
import LayerRouting.Proofs.Override.Levels
import LayerRouting.Proofs.RouteSet.Floats
import LayerRouting.Proofs.Store.Contract

/-!
# Requests

`Controller.Handled` lists all that handling a request can come to, for every store: it is
refused, what it plans is there already, its log is saved, or saving fails. Every request is
handled so (`Controller.switch_handled`, `Controller.reset_handled`), and what follows about
requests follows from that list.

In a store that keeps its contract a request that is refused or fails changes no document, and
one that succeeds concerns one owner. All that it may do to the owner's document is to record
flags, and to leave its binary64 numbers as they come back from the store
(`Controller.switch_exists_final`, `Controller.reset_exists_final`).
-/

namespace LayerRouting

/-! ## Documents with flags -/

/-- A flag is two levels below the root. -/
theorem Draft.fits_setFlags {numbers : Number -> Prop} {draft : Draft} {levels : Nat}
    (enough : 2 ≤ levels) (fit : ∀ op ∈ draft.log, op.Fits numbers levels)
    (flags : List (String × Bool)) : ∀ op ∈ (draft.setFlags flags).log, op.Fits numbers levels :=
  List.foldlRecOn (motive := fun draft : Draft => ∀ op ∈ draft.log, op.Fits numbers levels) _ _ fit
    fun _ current _ _ => fits_setPath current (.bool _ : Json.Fits numbers 0 _) enough

namespace Document

variable {document : Document Json}

/-- A document that fits still does when flags were recorded. -/
theorem Fits.withFlags {numbers : Number -> Prop} (fits : document.Fits numbers)
    (supply : IdSupply) (flags : List (String × Bool)) :
    (document.withFlags supply flags).Fits numbers where
  defaults := fits.defaults
  log := Draft.fits_setFlags (by decide) fits.log flags

/-- A document that a change of binary64 numbers leaves as it is still is when flags were
recorded. -/
theorem mapFloats_withFlags_eq {change : Binary64 -> Binary64}
    (same : document.mapFloats change = document) (supply : IdSupply)
    (flags : List (String × Bool)) :
    (document.withFlags supply flags).mapFloats change = document.withFlags supply flags := by
  obtain ⟨defaults, log⟩ := mapFloats_eq_iff.mp same
  refine mapFloats_eq_iff.mpr ⟨defaults, ?_⟩
  exact List.foldlRecOn (motive := fun draft : Draft => ∀ op ∈ draft.log, op.mapFloats change = op)
    _ _ log fun _ current _ _ => Draft.forall_mapFloats_eq_setPath current _ _

/-- When the log with the flags is the same as the one before, the flags were set before. -/
theorem FlagsSet.of_same {flags : List (String × Bool)} {before after : Document Json}
    (set : FlagsSet flags before after) (same : after.log.Same before.log) :
    FlagsSet flags before before where
  beforeCollection := set.beforeCollection
  afterCollection := set.beforeCollection
  defaults := rfl
  resolved :=
    { items := fun _ _ => rfl
      fields := fun _ _ _ _ => rfl
      flag := by
        intro id active named
        have resolvedSame : after.resolved.Same before.resolved := by
          rw [Document.resolved, set.defaults]
          exact same.resolve (Json.Same.refl before.defaults)
        have held : Json.SameAt (after.resolved.field? id "active")
            (before.resolved.field? id "active") :=
          (resolvedSame.get? id).bind fun item => item.get? "active"
        rw [set.resolved.flag id active named] at held
        exact Json.sameAt_bool_iff.mp held.symm }

/-- Whether a document has the log that a draft plans for another document, or still the log that
the other has because it is the same. -/
structure Keeps (document : Document Json) (draft : Draft) (kept : Document Json) : Prop where
  same : draft.log.Same kept.log
  kept : kept = document ∨ kept = { document with log := draft.log }

namespace Keeps

variable {kept : Document Json} {supply : IdSupply} {flags : List (String × Bool)}

theorem defaults {draft : Draft} (keeps : document.Keeps draft kept) :
    kept.defaults = document.defaults := by
  rcases keeps.kept with rfl | rfl <;> rfl

/-- The flags are set in the document that has the log. -/
theorem flagsSet (keeps : document.Keeps ((Draft.ofDocument document supply).setFlags flags) kept)
    (collection : document.IsCollection) (distinct : (flags.map Prod.fst).Nodup) :
    FlagsSet flags document kept := by
  have set := FlagsSet.of_setFlags collection supply distinct
  rcases keeps.kept with rfl | rfl
  · exact set.of_same keeps.same
  · exact set

/-- If the numbers of a document come back, so do those of the document with the log. -/
theorem keepsNumbers {σ : Type} [DocumentStore σ] [LawfulStore σ]
    (keeps : document.Keeps ((Draft.ofDocument document supply).setFlags flags) kept)
    (numbers : LawfulStore.KeepsNumbers σ document) : LawfulStore.KeepsNumbers σ kept := by
  rcases keeps.kept with rfl | rfl
  · exact numbers
  · exact mapFloats_withFlags_eq numbers supply flags

end Keeps

end Document

/-- What a store returns of a collection is one. -/
theorem LawfulStore.Returns.isCollection {σ : Type} [DocumentStore σ] [LawfulStore σ]
    {document returned : Document Json} (returns : LawfulStore.Returns σ document returned)
    (collection : document.IsCollection) : returned.IsCollection := by
  rcases returns with rfl | rfl
  · exact collection
  · exact collection.mapFloats

/-- What a store returns of a collection has route sets of the same forms. -/
theorem LawfulStore.Returns.alike {σ : Type} [DocumentStore σ] [LawfulStore σ]
    {document returned : Document Json} (returns : LawfulStore.Returns σ document returned)
    (collection : document.IsCollection) :
    (RouteSets.ofDocument document).Alike (RouteSets.ofDocument returned) := by
  rcases returns with rfl | rfl
  · exact .refl _
  · exact RouteSets.alike_mapFloats collection _

variable {σ : Type} [DocumentStore σ]

namespace Controller

/-! ## Handling -/

/-- What handling a request comes to. For the owner's document a draft is planned, and what
the outcome is once it is known whether a log was saved and how long the stored one is. -/
inductive Handled {α : Type} (owner : String)
    (planned : Document Json -> (Bool -> Nat -> α) -> Draft -> Prop)
    (before after : Controller σ) : Except ActivationError α -> Prop where
  /-- The request is refused before anything is planned. -/
  | refused {error : ActivationError} (store : after.store = before.store)
      (supply : after.supply = before.supply) : Handled owner planned before after (.error error)
  /-- The document has the planned log already, and no save is asked for. -/
  | unchanged {document : Document Json} {outcome : Bool -> Nat -> α} {draft : Draft}
      (stored : DocumentStore.load before.store owner = .ok document)
      (plan : planned document outcome draft) (same : draft.log.Same document.log)
      (store : after.store = before.store) (supply : after.supply = draft.supply) :
      Handled owner planned before after (.ok (outcome false document.log.length))
  /-- The planned log is another one, and it is saved. -/
  | saved {document : Document Json} {outcome : Bool -> Nat -> α} {draft : Draft}
      (stored : DocumentStore.load before.store owner = .ok document)
      (plan : planned document outcome draft) (different : ¬ draft.log.Same document.log)
      (store : DocumentStore.save before.store owner draft.log = (.ok (), after.store))
      (supply : after.supply = draft.supply) :
      Handled owner planned before after (.ok (outcome true draft.log.length))
  /-- The planned log is another one, and saving it fails. -/
  | unsaved {document : Document Json} {outcome : Bool -> Nat -> α} {draft : Draft}
      {error : StoreError} (stored : DocumentStore.load before.store owner = .ok document)
      (plan : planned document outcome draft) (different : ¬ draft.log.Same document.log)
      (store : DocumentStore.save before.store owner draft.log = (.error error, after.store))
      (supply : after.supply = draft.supply) :
      Handled owner planned before after (.error (.persistence error))

/-- Committing a draft that was planned. -/
theorem commit_handled {α : Type} {planned : Document Json -> (Bool -> Nat -> α) -> Draft -> Prop}
    (controller : Controller σ) {owner : String} {document : Document Json}
    (stored : DocumentStore.load controller.store owner = .ok document)
    {outcome : Bool -> Nat -> α} {draft : Draft} (plan : planned document outcome draft) :
    Handled owner planned controller (controller.commit owner document draft).2
      ((controller.commit owner document draft).1.map fun committed =>
        outcome committed (if committed then draft.log.length else document.log.length)) := by
  rw [Controller.commit]
  split
  · next same => exact .unchanged stored plan same rfl rfl
  · next different =>
      split
      · next saved => exact .saved stored plan different saved rfl
      · next failed => exact .unsaved stored plan different failed rfl

/-- A request that is handled under any lock table is handled under its owner's lock; if it
gets no lock it is refused. -/
theorem Handled.withLock {α : Type}
    {planned : Document Json -> (Bool -> Nat -> α) -> Draft -> Prop} (controller : Controller σ)
    (owner : String) (body : Controller σ -> Except ActivationError α × Controller σ)
    (handled : ∀ locks, Handled owner planned { controller with locks }
      (body { controller with locks }).2 (body { controller with locks }).1) :
    Handled owner planned controller (controller.withLock owner body).2
      (joined (controller.withLock owner body).1) := by
  simp only [Controller.withLock, LockTable.withLock]
  generalize controller.locks.request owner = requested
  obtain ⟨position, taken⟩ := requested
  by_cases held : taken.holds position
  · simp only [held, if_true, joined]
    have result := handled taken
    generalize body { controller with locks := taken } = bodyResult at result ⊢
    obtain ⟨result', after⟩ := bodyResult
    cases result with
    | refused store supply => exact .refused store supply
    | unchanged stored plan same store supply => exact .unchanged stored plan same store supply
    | saved stored plan different store supply => exact .saved stored plan different store supply
    | unsaved stored plan different store supply =>
        exact .unsaved stored plan different store supply
  · simp only [held]
    exact .refused rfl rfl

/-- What is planned for a request to switch a route set. -/
def SwitchPlans (supply : IdSupply) (id : String) (active : Bool) (document : Document Json)
    (outcome : Bool -> Nat -> SwitchOutcome) (draft : Draft) : Prop :=
  ∃ plan, planSwitch document supply id active = .ok plan ∧ draft = plan.draft
    ∧ outcome = fun committed logLength => {
        routeSetId := id
        active
        previouslyActive := plan.previouslyActive
        deactivated := plan.deactivated
        committed
        logLength }

/-- What is planned for a request to reset all route sets. -/
def ResetPlans (supply : IdSupply) (document : Document Json)
    (outcome : Bool -> Nat -> ResetOutcome) (draft : Draft) : Prop :=
  draft = (planReset document supply).draft
    ∧ outcome = fun committed logLength => {
        activated := (planReset document supply).activated
        deactivated := (planReset document supply).deactivated
        committed
        logLength }

/-- How a request to switch a route set is handled. -/
theorem switch_handled (controller : Controller σ) (owner id : String) (active : Bool) :
    Handled owner (SwitchPlans controller.supply id active) controller
      (controller.switch owner id active).2 (controller.switch owner id active).1 := by
  refine Handled.withLock controller owner (fun locked => locked.switchLocked owner id active)
    fun locks => ?_
  rw [switchLocked]
  split
  · exact .refused rfl rfl
  · next document stored =>
      split
      · exact .refused rfl rfl
      · next plan planned => exact commit_handled _ stored ⟨plan, planned, rfl, rfl⟩

/-- How a request to reset all route sets is handled. -/
theorem reset_handled (controller : Controller σ) (owner : String) :
    Handled owner (ResetPlans controller.supply) controller
      (controller.reset owner).2 (controller.reset owner).1 := by
  refine Handled.withLock controller owner (fun locked => locked.resetLocked owner)
    fun locks => ?_
  rw [resetLocked]
  split
  · exact .refused rfl rfl
  · next document stored => exact commit_handled _ stored ⟨rfl, rfl⟩

/-! ## Planned drafts -/

/-- Whether all that is planned is to record flags. -/
def RecordsFlags {α : Type} (supply : IdSupply)
    (plans : Document Json -> (Bool -> Nat -> α) -> Draft -> Prop) : Prop :=
  ∀ document outcome draft, plans document outcome draft ->
    ∃ flags, draft = (Draft.ofDocument document supply).setFlags flags

/-- What is planned for a switch is to record flags. -/
theorem SwitchPlans.recordsFlags (supply : IdSupply) (id : String) (active : Bool) :
    RecordsFlags supply (SwitchPlans supply id active) := by
  rintro document outcome draft ⟨plan, planned, rfl, -⟩
  obtain ⟨target, -, -, -, flags⟩ := planSwitch_eq_ok planned
  exact ⟨_, flags⟩

/-- What is planned for a reset is to record flags. -/
theorem ResetPlans.recordsFlags (supply : IdSupply) :
    RecordsFlags supply (ResetPlans supply) := by
  rintro document outcome draft ⟨rfl, -⟩
  exact ⟨_, draft_planReset document supply⟩

/-- What a store has after a planned draft was saved. -/
theorem RecordsFlags.load_saved [LawfulStore σ] {α : Type} {supply : IdSupply}
    {plans : Document Json -> (Bool -> Nat -> α) -> Draft -> Prop}
    (records : RecordsFlags supply plans) {before after : σ} {owner : String}
    {document : Document Json} (stored : DocumentStore.load before owner = .ok document)
    {outcome : Bool -> Nat -> α} {draft : Draft} (plan : plans document outcome draft)
    (saved : DocumentStore.save before owner draft.log = (.ok (), after)) :
    DocumentStore.load after owner
      = .ok (Document.mapFloats (LawfulStore.reread σ) { document with log := draft.log }) := by
  refine LawfulStore.load_saved stored saved fun fits => ?_
  obtain ⟨flags, rfl⟩ := records _ _ _ plan
  exact fits.withFlags supply flags

/-! ## Documents after a request -/

/-- Whether two stores hold the same documents. -/
def SameDocuments (before after : σ) : Prop :=
  ∀ owner, DocumentStore.load after owner = DocumentStore.load before owner

theorem SameDocuments.of_eq {before after : σ} (same : after = before) :
    SameDocuments before after :=
  fun _ => same ▸ rfl

/-! ## The document of an owner -/

/-- An owner's document after a request that is handled: as it was, or with a log that was
planned for it, as the store gives it back. -/
theorem Handled.exists_final [LawfulStore σ] {α : Type} {requester owner : String}
    {plans : Document Json -> (Bool -> Nat -> α) -> Draft -> Prop} {before after : Controller σ}
    {result : Except ActivationError α} (handled : Handled requester plans before after result)
    (records : RecordsFlags before.supply plans)
    {document : Document Json} (stored : DocumentStore.load before.store owner = .ok document) :
    ∃ final, DocumentStore.load after.store owner = .ok final
      ∧ (final = document
        ∨ ∃ outcome draft, plans document outcome draft
            ∧ final = Document.mapFloats (LawfulStore.reread σ)
                { document with log := draft.log }) := by
  cases handled with
  | refused store | unchanged _ _ _ store => exact ⟨document, store ▸ stored, .inl rfl⟩
  | unsaved _ _ _ save =>
      exact ⟨document, (LawfulStore.load_failed save owner).trans stored, .inl rfl⟩
  | saved again plan _ save =>
      by_cases own : owner = requester
      · subst own
        obtain rfl := Except.ok.inj (again.symm.trans stored)
        exact ⟨_, records.load_saved stored plan save, .inr ⟨_, _, plan, rfl⟩⟩
      · exact ⟨document, (LawfulStore.load_other save own).trans stored, .inl rfl⟩

/-- An owner's document after a request to switch a route set: as it was, or with the flags of
the request. -/
theorem switch_exists_final [LawfulStore σ] (controller : Controller σ) {owner : String}
    {document : Document Json}
    (stored : DocumentStore.load controller.store owner = .ok document)
    (requester id : String) (active : Bool) :
    ∃ final, DocumentStore.load (controller.switch requester id active).2.store owner = .ok final
      ∧ (final = document
        ∨ ∃ target, (RouteSets.ofDocument document).liveSet? id = some target
            ∧ (active = false -> target.behavior ≠ .activateOnly)
            ∧ final = (document.withFlags controller.supply
                ((RouteSets.ofDocument document).switchFlags id target active)).mapFloats
                  (LawfulStore.reread σ)) := by
  obtain ⟨final, held, same | ⟨outcome, draft, ⟨plan, planned, rfl, -⟩, rfl⟩⟩ :=
    (controller.switch_handled requester id active).exists_final
      (SwitchPlans.recordsFlags _ id active) stored
  · exact ⟨final, held, .inl same⟩
  · obtain ⟨target, live, -, -, drafted⟩ := planSwitch_eq_ok planned
    refine ⟨_, held, .inr ⟨target, live, behavior_ne_of_planSwitch planned live, ?_⟩⟩
    rw [drafted]
    rfl

/-- An owner's document after a reset: as it was, or with the flags of the reset. -/
theorem reset_exists_final [LawfulStore σ] (controller : Controller σ) {owner : String}
    {document : Document Json}
    (stored : DocumentStore.load controller.store owner = .ok document) (requester : String) :
    ∃ final, DocumentStore.load (controller.reset requester).2.store owner = .ok final
      ∧ (final = document
        ∨ final = (document.withFlags controller.supply
            (RouteSets.ofDocument document).resetFlags).mapFloats (LawfulStore.reread σ)) := by
  obtain ⟨final, held, same | ⟨outcome, draft, ⟨rfl, -⟩, rfl⟩⟩ :=
    (controller.reset_handled requester).exists_final (ResetPlans.recordsFlags _) stored
  · exact ⟨final, held, .inl same⟩
  · refine ⟨_, held, .inr ?_⟩
    rw [draft_planReset]
    rfl

/-! ## The document of a request that succeeds -/

/-- The document of the owner after a request that succeeds. A log was saved exactly when the
planned one is another than the one that was there. -/
theorem Handled.exists_keeps [LawfulStore σ] {α : Type} {owner : String}
    {plans : Document Json -> (Bool -> Nat -> α) -> Draft -> Prop} {before after : Controller σ}
    {outcome : α} (handled : Handled owner plans before after (.ok outcome))
    (records : RecordsFlags before.supply plans) {document : Document Json}
    (stored : DocumentStore.load before.store owner = .ok document) :
    ∃ report draft committed kept final, plans document report draft
      ∧ outcome = report committed final.log.length
      ∧ (committed = true ↔ ¬ draft.log.Same document.log)
      ∧ DocumentStore.load after.store owner = .ok final ∧ document.Keeps draft kept
      ∧ LawfulStore.Returns σ kept final := by
  cases handled with
  | unchanged again plan same store supply =>
      obtain rfl := Except.ok.inj (again.symm.trans stored)
      exact ⟨_, _, _, _, _, plan, rfl, by simp [same], store ▸ stored, ⟨same, .inl rfl⟩, .inl rfl⟩
  | saved again plan different store supply =>
      obtain rfl := Except.ok.inj (again.symm.trans stored)
      refine ⟨_, _, _, _, _, plan, congrArg _ ?_, by simp [different],
        records.load_saved stored plan store, ⟨Log.Same.refl _, .inr rfl⟩, .inr rfl⟩
      exact (Log.length_mapFloats _).symm

/-! ## Requests under a free lock -/

/-- The controller while a call of an owner holds its lock. -/
def inside (controller : Controller σ) (owner : String) : Controller σ :=
  { controller with locks := (controller.locks.request owner).2 }

omit [DocumentStore σ] in
/-- Where the owner's lock is free, a body runs under it, and it is given back. -/
theorem withLock_of_holds {α : Type} {controller : Controller σ} {owner : String}
    (held : (controller.locks.request owner).2.holds (controller.locks.request owner).1)
    (body : Controller σ -> α × Controller σ)
    (keeps : (body (controller.inside owner)).2.locks = (controller.inside owner).locks) :
    controller.withLock owner body
      = (.ok (body (controller.inside owner)).1,
        { (body (controller.inside owner)).2 with locks := controller.locks.passed owner }) := by
  rw [inside] at keeps ⊢
  simp only [withLock, LockTable.withLock, held, if_true, keeps, LockTable.passed]

theorem locks_commit (controller : Controller σ) (owner : String) (document : Document Json)
    (draft : Draft) : (controller.commit owner document draft).2.locks = controller.locks := by
  rw [commit]
  split
  · rfl
  · split <;> rfl

/-- Where the owner's lock is free, a request is what it does under the lock. -/
theorem switch_eq_of_holds {controller : Controller σ} {owner : String}
    (held : (controller.locks.request owner).2.holds (controller.locks.request owner).1)
    (id : String) (active : Bool) :
    controller.switch owner id active
      = (((controller.inside owner).switchLocked owner id active).1,
        { ((controller.inside owner).switchLocked owner id active).2 with
          locks := controller.locks.passed owner }) := by
  have keeps : ((controller.inside owner).switchLocked owner id active).2.locks
      = (controller.inside owner).locks := by
    rw [switchLocked]
    split
    · rfl
    · split
      · rfl
      · exact locks_commit _ _ _ _
  rw [switch, withLock_of_holds held (fun locked => locked.switchLocked owner id active) keeps]
  rfl

/-- Where the owner's lock is free, a reset is what it does under the lock. -/
theorem reset_eq_of_holds {controller : Controller σ} {owner : String}
    (held : (controller.locks.request owner).2.holds (controller.locks.request owner).1) :
    controller.reset owner
      = (((controller.inside owner).resetLocked owner).1,
        { ((controller.inside owner).resetLocked owner).2 with
          locks := controller.locks.passed owner }) := by
  have keeps : ((controller.inside owner).resetLocked owner).2.locks
      = (controller.inside owner).locks := by
    rw [resetLocked]
    split
    · rfl
    · exact locks_commit _ _ _ _
  rw [reset, withLock_of_holds held (fun locked => locked.resetLocked owner) keeps]
  rfl

/-- What a request answers where the owner's lock is free. -/
theorem switch_of_holds {controller : Controller σ} {owner : String}
    (held : (controller.locks.request owner).2.holds (controller.locks.request owner).1)
    (id : String) (active : Bool) :
    (controller.switch owner id active).1
      = (switchLocked { controller with locks := (controller.locks.request owner).2 }
          owner id active).1 := by
  rw [switch_eq_of_holds held]
  rfl

/-- The store that a request leaves where the owner's lock is free. -/
theorem store_switch_of_holds {controller : Controller σ} {owner : String}
    (held : (controller.locks.request owner).2.holds (controller.locks.request owner).1)
    (id : String) (active : Bool) :
    (controller.switch owner id active).2.store
      = (switchLocked { controller with locks := (controller.locks.request owner).2 }
          owner id active).2.store := by
  rw [switch_eq_of_holds held]
  rfl

/-- What a reset answers where the owner's lock is free. -/
theorem reset_of_holds {controller : Controller σ} {owner : String}
    (held : (controller.locks.request owner).2.holds (controller.locks.request owner).1) :
    (controller.reset owner).1
      = (resetLocked { controller with locks := (controller.locks.request owner).2 } owner).1 := by
  rw [reset_eq_of_holds held]
  rfl

omit [DocumentStore σ] in
/-- A request succeeds only where the owner's lock is free. -/
theorem holds_of_joined_withLock {α : Type} {controller : Controller σ} {owner : String}
    (body : Controller σ -> Except ActivationError α × Controller σ) {outcome : α}
    (succeeded : joined (controller.withLock owner body).1 = .ok outcome) :
    (controller.locks.request owner).2.holds (controller.locks.request owner).1 := by
  by_contra free
  simp [withLock, LockTable.withLock, free, joined] at succeeded

/-! ## A controller of two route sets -/

/-- A controller of a store in service, in which one owner has a collection of two route
sets. -/
def ofSides : Controller (MonitoredStore MemoryStore) :=
  Controller.ofStore (MonitoredStore.ofStore ⟨[("stage", Document.sides)]⟩) LockTiming.standard ⟨0⟩

theorem load_ofSides : DocumentStore.load ofSides.store "stage" = .ok Document.sides :=
  rfl

theorem holds_ofSides :
    (ofSides.locks.request "stage").2.holds (ofSides.locks.request "stage").1 := by
  decide

end Controller

end LayerRouting
