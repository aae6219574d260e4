import LayerRouting.Proofs.Activation.Editing
import LayerRouting.Proofs.Activation.TwinPlans
import LayerRouting.Proofs.Store.Owned

/-!
# Sessions

A session begins with a new controller of a store and goes on with one request after the other,
each in some owner's name and at the next time of a clock (`Session.run`). Since every request
ends before the next one begins, all of them find the locks free
(`Controller.isIdle_locks_handle`). A request never gives ids back to the supply
(`Controller.advances_handle`), and it leaves the documents of other owners as they are
(`Controller.load_handle_other`).
-/

namespace LayerRouting

/-! ## Requests and answers -/

/-- What may be asked in an owner's name. -/
inductive Request where
  /-- Start the owner's document. -/
  | start (document : Document Json)
  /-- Save a log for the owner's document. -/
  | save (log : Log)
  /-- Switch a route set on or off. -/
  | switch (id : String) (active : Bool)
  /-- Reset all route sets. -/
  | reset
  /-- Read the route sets. -/
  | routeSets
  deriving DecidableEq, Repr

namespace Request

/-- The request with the op ids in it renamed. -/
def renamed (names : Equiv.Perm String) : Request -> Request
  | .start document => .start (document.renamed names)
  | .save log => .save (Log.renamed names log)
  | .switch id active => .switch id active
  | .reset => .reset
  | .routeSets => .routeSets

/-- The ops that the request hands in. -/
def ops : Request -> Log
  | .start document => document.log
  | .save log => log
  | .switch _ _ | .reset | .routeSets => []

theorem renamed_congr {names others : Equiv.Perm String} {request : Request}
    (same : ∀ op ∈ request.ops, names op.id = others op.id) :
    request.renamed names = request.renamed others := by
  cases request with
  | start document => exact congrArg Request.start (Document.renamed_congr same)
  | save log => exact congrArg Request.save (Log.renamed_congr same)
  | switch | reset | routeSets => rfl

theorem renamed_refl (request : Request) : request.renamed (.refl String) = request := by
  cases request with
  | start document => exact congrArg Request.start document.renamed_refl
  | save log => exact congrArg Request.save (Log.renamed_refl log)
  | switch | reset | routeSets => rfl

end Request

/-- Whether a result is no failure of the file system. -/
def FilesWork {α : Type} (result : Except ActivationError α) : Prop :=
  ∀ fault, result ≠ .error (.persistence (.file fault))

theorem filesWork_ok {α : Type} (value : α) : FilesWork (.ok value) := by
  rintro fault ⟨⟩

theorem filesWork_refused {α : Type} (refusal : Refusal) :
    FilesWork (.error (.refused refusal) : Except ActivationError α) := by
  rintro fault ⟨⟩

theorem FilesWork.map {α β : Type} {result : Except ActivationError α} (works : FilesWork result)
    (report : α -> β) : FilesWork (result.map report) := by
  cases result with
  | error error =>
      rintro fault ⟨⟩
      exact works fault rfl
  | ok value => exact filesWork_ok _

/-- What is reported of a result hides no failure. -/
theorem FilesWork.of_map {α β : Type} {result : Except ActivationError α} {report : α -> β}
    (works : FilesWork (result.map report)) : FilesWork result := by
  rintro fault rfl
  exact works fault rfl

/-- What a request is answered. -/
inductive Answer where
  | started (result : Except StoreError (Document Json))
  | saved (result : Except StoreError Unit)
  | switched (result : Except ActivationError SwitchOutcome)
  | reset (result : Except ActivationError ResetOutcome)
  | routeSets (result : Except ActivationError RouteSets)

namespace Answer

/-- The answer with the op ids in it renamed. -/
def renamed (names : Equiv.Perm String) : Answer -> Answer
  | .started result => .started (result.map (Document.renamed names))
  | .saved result => .saved result
  | .switched result => .switched result
  | .reset result => .reset result
  | .routeSets result => .routeSets (result.map (RouteSets.renamed names))

/-- The ops that the answer shows. -/
def ops : Answer -> Log
  | .started (.ok document) => document.log
  | .routeSets (.ok sets) => sets.flatMap Item.ops
  | _ => []

/-- Whether the answer is no failure of the file system. -/
def Works : Answer -> Prop
  | .started result => ∀ fault, result ≠ .error (.file fault)
  | .saved result => ∀ fault, result ≠ .error (.file fault)
  | .switched result => FilesWork result
  | .reset result => FilesWork result
  | .routeSets result => FilesWork result

theorem renamed_congr {names others : Equiv.Perm String} {answer : Answer}
    (same : ∀ op ∈ answer.ops, names op.id = others op.id) :
    answer.renamed names = answer.renamed others := by
  cases answer with
  | started result =>
      cases result with
      | error error => rfl
      | ok document => simp only [renamed, Except.map, Document.renamed_congr same]
  | routeSets result =>
      cases result with
      | error error => rfl
      | ok sets =>
          have items : sets.map (Item.renamed names) = sets.map (Item.renamed others) :=
            List.map_congr_left fun item member => Item.renamed_congr fun op held =>
              same op (List.mem_flatMap.mpr ⟨item, member, held⟩)
          simp only [renamed, Except.map, RouteSets.renamed, items]
  | saved | switched | reset => rfl

end Answer

namespace Controller

variable {σ : Type} [DocumentStore σ]

/-! ## Locks -/

/-- Where all calls have returned, a request is what it does under its owner's lock. -/
theorem switch_of_idle {controller : Controller σ} (idle : controller.locks.IsIdle)
    (owner id : String) (active : Bool) :
    controller.switch owner id active
      = (((controller.inside owner).switchLocked owner id active).1,
        { ((controller.inside owner).switchLocked owner id active).2 with
          locks := controller.locks.passed owner }) :=
  switch_eq_of_holds (idle.holds_request owner) id active

/-- Where all calls have returned, a reset is what it does under its owner's lock. -/
theorem reset_of_idle {controller : Controller σ} (idle : controller.locks.IsIdle)
    (owner : String) :
    controller.reset owner
      = (((controller.inside owner).resetLocked owner).1,
        { ((controller.inside owner).resetLocked owner).2 with
          locks := controller.locks.passed owner }) :=
  reset_eq_of_holds (idle.holds_request owner)

/-! ## Ids -/

/-- What a request does to the supply. -/
theorem Handled.advances {α : Type} {owner : String}
    {plans : Document Json -> (Bool -> Nat -> α) -> Draft -> Prop} {before after : Controller σ}
    {result : Except ActivationError α} (handled : Handled owner plans before after result)
    (advances : ∀ document outcome draft, plans document outcome draft ->
      (Draft.ofDocument document before.supply).Advances draft) :
    before.supply.next ≤ after.supply.next := by
  cases handled with
  | refused _ supply => exact supply ▸ le_rfl
  | unchanged _ plan _ _ supply | saved _ plan _ _ supply | unsaved _ plan _ _ supply =>
      exact supply ▸ advances _ _ _ plan

/-! ## Handling a request -/

variable [SessionStore σ]

/-- The controller when the clock of its store shows a time. -/
def atTime (controller : Controller σ) (now : Timestamp) : Controller σ :=
  { controller with store := SessionStore.atTime controller.store now }

/-- Handles a request in an owner's name at a time. -/
def handle (controller : Controller σ) (now : Timestamp) (owner : String) :
    Request -> Answer × Controller σ
  | .start document =>
      let (result, store) := SessionStore.start (controller.atTime now).store owner document
      (.started result, { controller with store })
  | .save log =>
      let (result, store) := DocumentStore.save (controller.atTime now).store owner log
      (.saved result, { controller with store })
  | .switch id active =>
      let (result, after) := (controller.atTime now).switch owner id active
      (.switched result, after)
  | .reset =>
      let (result, after) := (controller.atTime now).reset owner
      (.reset result, after)
  | .routeSets => (.routeSets ((controller.atTime now).routeSets owner), controller.atTime now)

/-- When a request has ended, all calls have returned. -/
theorem isIdle_locks_handle {controller : Controller σ} (idle : controller.locks.IsIdle)
    (now : Timestamp) (owner : String) (request : Request) :
    (controller.handle now owner request).2.locks.IsIdle := by
  have timed : (controller.atTime now).locks.IsIdle := idle
  cases request with
  | start | save | routeSets => exact idle
  | switch id active =>
      simp only [handle, switch_of_idle timed]
      exact timed.passed owner
  | reset =>
      simp only [handle, reset_of_idle timed]
      exact timed.passed owner

/-- A request gives no ids back to the supply. -/
theorem advances_handle (controller : Controller σ) (now : Timestamp) (owner : String)
    (request : Request) :
    controller.supply.next ≤ (controller.handle now owner request).2.supply.next := by
  cases request with
  | start | save | routeSets => exact le_rfl
  | switch id active =>
      refine ((controller.atTime now).switch_handled owner id active).advances ?_
      rintro document outcome draft ⟨plan, planned, rfl, -⟩
      obtain ⟨target, -, -, -, drafted⟩ := planSwitch_eq_ok planned
      rw [drafted]
      exact Draft.Advances.setFlags _ _
  | reset =>
      refine ((controller.atTime now).reset_handled owner).advances ?_
      rintro document outcome draft ⟨rfl, -⟩
      rw [draft_planReset]
      exact Draft.Advances.setFlags _ _

/-- A request changes a store only by a save for its owner. -/
theorem Handled.load_other [OwnedStore σ] {α : Type} {requester owner : String}
    {plans : Document Json -> (Bool -> Nat -> α) -> Draft -> Prop} {before after : Controller σ}
    {result : Except ActivationError α} (handled : Handled requester plans before after result)
    (distinct : owner ≠ requester) :
    DocumentStore.load after.store owner = DocumentStore.load before.store owner := by
  cases handled with
  | refused store | unchanged _ _ _ store => rw [store]
  | saved _ _ _ save | unsaved _ _ _ save => exact OwnedStore.save_other save distinct

/-- A request leaves the documents of other owners as they are, whatever comes of it. -/
theorem load_handle_other [OwnedStore σ] (controller : Controller σ) (now : Timestamp)
    {requester owner : String} (distinct : owner ≠ requester) (request : Request) :
    DocumentStore.load (controller.handle now requester request).2.store owner
      = DocumentStore.load controller.store owner := by
  have timed : DocumentStore.load (controller.atTime now).store owner
      = DocumentStore.load controller.store owner := OwnedStore.load_atTime _ _ _
  rw [← timed]
  cases request with
  | start document => exact OwnedStore.start_other rfl distinct
  | save log => exact OwnedStore.save_other rfl distinct
  | switch id active =>
      exact ((controller.atTime now).switch_handled requester id active).load_other distinct
  | reset => exact ((controller.atTime now).reset_handled requester).load_other distinct
  | routeSets => rfl

/-- A start goes by its owner and the document, unless the file system fails. -/
theorem handle_start [OwnedStore σ] {controller : Controller σ} {now : Timestamp} {owner : String}
    {document : Document Json} (regular : now.IsRegular)
    (works : (controller.handle now owner (.start document)).1.Works) :
    (controller.handle now owner (.start document)).1
        = .started (OwnedStore.started σ owner document)
      ∧ DocumentStore.load (controller.handle now owner (.start document)).2.store owner
        = (OwnedStore.started σ owner document).bind (OwnedStore.kept σ) := by
  have timed : OwnedStore.IsTimed (controller.atTime now).store :=
    OwnedStore.isTimed_atTime _ regular
  rcases start : SessionStore.start (controller.atTime now).store owner document
    with ⟨result, store⟩
  simp only [handle, start] at works ⊢
  have answered : ∀ fault, result ≠ .error (.file fault) := by
    rintro fault rfl
    exact works fault rfl
  obtain ⟨rfl, load⟩ := OwnedStore.start_own timed start answered
  exact ⟨rfl, load⟩

/-- A save goes by the log and by what was loaded, unless the file system fails. -/
theorem handle_save [OwnedStore σ] {controller : Controller σ} {now : Timestamp} {owner : String}
    {log : Log} (regular : now.IsRegular)
    (works : (controller.handle now owner (.save log)).1.Works) :
    (controller.handle now owner (.save log)).1
        = .saved ((DocumentStore.load controller.store owner).map fun _ => ())
      ∧ DocumentStore.load (controller.handle now owner (.save log)).2.store owner
        = (DocumentStore.load controller.store owner).bind fun document =>
            OwnedStore.kept σ { document with log } := by
  have timed : OwnedStore.IsTimed (controller.atTime now).store :=
    OwnedStore.isTimed_atTime _ regular
  have loaded : DocumentStore.load (controller.atTime now).store owner
      = DocumentStore.load controller.store owner := OwnedStore.load_atTime _ _ _
  rcases save : DocumentStore.save (controller.atTime now).store owner log with ⟨result, store⟩
  simp only [handle, save] at works ⊢
  have answered : ∀ fault, result ≠ .error (.file fault) := by
    rintro fault rfl
    exact works fault rfl
  obtain ⟨rfl, load⟩ := OwnedStore.save_own timed save answered
  rw [← loaded]
  exact ⟨rfl, load⟩

end Controller

/-! ## Working file systems -/

namespace NeverFails

variable {σ : Type} [DocumentStore σ]

variable [SessionStore σ] {sound : σ -> Prop} {controller : Controller σ}

theorem commit (never : NeverFails sound) (holds : sound controller.store) (owner : String)
    (document : Document Json) (draft : Draft) :
    FilesWork (controller.commit owner document draft).1
      ∧ sound (controller.commit owner document draft).2.store := by
  rw [Controller.commit]
  split
  · exact ⟨filesWork_ok false, holds⟩
  · split
    · next store save => exact ⟨filesWork_ok true, (never.save holds save).2⟩
    · next error store save =>
        obtain ⟨works, kept⟩ := never.save holds save
        refine ⟨?_, kept⟩
        rintro fault ⟨⟩
        exact works fault rfl

theorem switchLocked (never : NeverFails sound) (holds : sound controller.store)
    (owner id : String) (active : Bool) :
    FilesWork (controller.switchLocked owner id active).1
      ∧ sound (controller.switchLocked owner id active).2.store := by
  rw [Controller.switchLocked]
  split
  · next error failed =>
      refine ⟨?_, holds⟩
      rintro fault ⟨⟩
      exact never.load holds owner fault failed
  · next document loaded =>
      split
      · exact ⟨filesWork_refused _, holds⟩
      · next plan planned =>
          obtain ⟨works, kept⟩ := never.commit holds owner document plan.draft
          exact ⟨works.map _, kept⟩

theorem resetLocked (never : NeverFails sound) (holds : sound controller.store) (owner : String) :
    FilesWork (controller.resetLocked owner).1
      ∧ sound (controller.resetLocked owner).2.store := by
  rw [Controller.resetLocked]
  split
  · next error failed =>
      refine ⟨?_, holds⟩
      rintro fault ⟨⟩
      exact never.load holds owner fault failed
  · next document loaded =>
      obtain ⟨works, kept⟩ :=
        never.commit holds owner document (planReset document controller.supply).draft
      exact ⟨works.map _, kept⟩

/-- Where nothing fails for the file system, no request does. -/
theorem handle (never : NeverFails sound) (holds : sound controller.store)
    (idle : controller.locks.IsIdle) (now : Timestamp) (owner : String) (request : Request) :
    (controller.handle now owner request).1.Works
      ∧ sound (controller.handle now owner request).2.store := by
  have timed : sound ((controller.atTime now).inside owner).store := never.atTime holds now
  have timedIdle : (controller.atTime now).locks.IsIdle := idle
  cases request with
  | start document => exact never.start timed rfl
  | save log => exact never.save timed rfl
  | switch id active =>
      have locked := never.switchLocked timed owner id active
      simp only [Controller.handle, Controller.switch_of_idle timedIdle]
      exact locked
  | reset =>
      have locked := never.resetLocked timed owner
      simp only [Controller.handle, Controller.reset_of_idle timedIdle]
      exact locked
  | routeSets =>
      refine ⟨fun fault failed => ?_, timed⟩
      rw [Controller.routeSets] at failed
      split at failed
      · cases failed
      · next error unloaded =>
          cases failed
          exact never.load timed owner fault unloaded

end NeverFails

/-! ## Sessions -/

/-- A store, its clock, and what a controller of it is made of besides. -/
structure Session (σ : Type) where
  store : σ
  timing : LockTiming
  supply : IdSupply
  /-- The time of the first request, the second one and so on. -/
  clock : Nat -> Timestamp

namespace Session

variable {σ : Type} [DocumentStore σ] [SessionStore σ]

/-- Handles one more request, after some others. -/
def advance (session : Session σ) (before : List (String × Answer) × Controller σ)
    (entry : String × Request) : List (String × Answer) × Controller σ :=
  let (answer, after) := before.2.handle (session.clock before.1.length) entry.1 entry.2
  (before.1 ++ [(entry.1, answer)], after)

/-- Handles the requests of owners one after the other; gives the answers, each with its owner,
and the controller after them. -/
def run (session : Session σ) (requests : List (String × Request)) :
    List (String × Answer) × Controller σ :=
  requests.foldl session.advance ([], .ofStore session.store session.timing session.supply)

/-- What comes of a request after some others. -/
def next (session : Session σ) (requests : List (String × Request)) (owner : String)
    (request : Request) : Answer × Controller σ :=
  (session.run requests).2.handle (session.clock (session.run requests).1.length) owner request

theorem run_concat (session : Session σ) (requests : List (String × Request)) (owner : String)
    (request : Request) :
    session.run (requests ++ [(owner, request)])
      = ((session.run requests).1 ++ [(owner, (session.next requests owner request).1)],
        (session.next requests owner request).2) := by
  rw [run, List.foldl_append]
  rfl

/-- After any requests all calls have returned. -/
theorem isIdle_locks_run (session : Session σ) (requests : List (String × Request)) :
    (session.run requests).2.locks.IsIdle :=
  List.foldlRecOn (motive := fun before : List (String × Answer) × Controller σ =>
    before.2.locks.IsIdle) requests _ LockTable.isIdle_empty fun _ idle _ _ =>
      Controller.isIdle_locks_handle idle _ _ _

/-- What an owner has a part in. -/
def ofOwner {α : Type} (owner : String) (entries : List (String × α)) : List (String × α) :=
  entries.filter fun entry => entry.1 = owner

/-- Whether the file system fails in none of an owner's requests. -/
def Works (session : Session σ) (owner : String) (requests : List (String × Request)) : Prop :=
  ∀ entry ∈ ofOwner owner (session.run requests).1, entry.2.Works

/-- Where nothing fails for the file system, it fails in no request. -/
theorem works_of_neverFails {sound : σ -> Prop} (never : NeverFails sound) (session : Session σ)
    (holds : sound session.store) (owner : String) (requests : List (String × Request)) :
    session.Works owner requests := by
  have all : (∀ entry ∈ (session.run requests).1, entry.2.Works)
      ∧ sound (session.run requests).2.store := by
    induction requests using List.reverseRecOn with
    | nil => exact ⟨List.forall_mem_nil _, holds⟩
    | append_singleton before entry inductionHypothesis =>
        obtain ⟨works, kept⟩ := inductionHypothesis
        obtain ⟨answered, keptAfter⟩ := never.handle kept (session.isIdle_locks_run before)
          (session.clock (session.run before).1.length) entry.1 entry.2
        rw [run_concat, List.forall_mem_append, List.forall_mem_singleton]
        exact ⟨⟨works, answered⟩, keptAfter⟩
  exact fun entry member => all.1 entry (List.mem_filter.mp member).1

end Session

end LayerRouting
