import LayerRouting.Proofs.Activation.Requests
import LayerRouting.Proofs.Override.Tidiness

/-!
# Runs of edits

Besides requests, an owner's document is edited by batches of intents (`Controller.edit`): a
batch works on the document that is stored, and the log that it leaves is saved. A run of
edits is any sequence of batches and requests, of any owners, with changes between them that
touch no document. Every step keeps an owner's log tidy and leaves only new ids to be given
(`Controller.EditStep.keepsTidy`), and so does every run (`Controller.EditReaches.isTidy`).
-/

namespace LayerRouting

namespace Draft

variable {draft : Draft}

/-- Recording flags keeps a draft tidy. -/
theorem IsTidy.setFlags (tidy : draft.IsTidy) (flags : List (String × Bool)) :
    (draft.setFlags flags).IsTidy :=
  List.foldlRecOn _ _ tidy fun _ current _ _ => current.setField _ _ _

/-- Recording flags gives no ids back. -/
theorem Advances.setFlags (draft : Draft) (flags : List (String × Bool)) :
    draft.Advances (draft.setFlags flags) :=
  List.foldlRecOn _ _ (Advances.refl draft) fun current advanced _ _ =>
    advanced.trans (Advances.setPath current _ _)

end Draft

namespace Controller

variable {σ : Type} [DocumentStore σ]

/-- Carries out a batch of intents on an owner's document and saves the log that it leaves. -/
def edit (controller : Controller σ) (owner : String) (intents : List Intent) :
    Except StoreError Unit × Controller σ :=
  match DocumentStore.load controller.store owner with
  | .error error => (.error error, controller)
  | .ok document =>
      let draft := (Draft.ofDocument document controller.supply).performAll intents
      let (result, store) := DocumentStore.save controller.store owner draft.log
      (result, { controller with store, supply := draft.supply })

/-- Whether an owner's document is there. -/
def Loads (controller : Controller σ) (owner : String) : Prop :=
  ∃ document, DocumentStore.load controller.store owner = .ok document

/-- Whether an owner's document, if it is there, has a tidy log in which no id still to be given
is. -/
def KeepsTidy (controller : Controller σ) (owner : String) : Prop :=
  ∀ document, DocumentStore.load controller.store owner = .ok document ->
    (Draft.ofDocument document controller.supply).IsTidy

/-! ## Saves -/

variable {before after : Controller σ} {owner requester : String}

/-- A change that touches no document and gives no ids back keeps logs tidy. -/
theorem KeepsTidy.of_sameDocuments (keeps : before.KeepsTidy owner)
    (same : SameDocuments before.store after.store)
    (advanced : before.supply.next ≤ after.supply.next) : after.KeepsTidy owner := by
  intro document stored
  have tidy := keeps document ((same owner).symm.trans stored)
  exact ⟨tidy.log, tidy.new.mono advanced (List.Subset.refl _)⟩

/-- A save keeps logs tidy, whether or not it succeeds, when what is saved is the log of a
draft that is as tidy as the document. -/
theorem KeepsTidy.of_save [LawfulStore σ] (keeps : before.KeepsTidy owner)
    {document : Document Json} {draft : Draft} {result : Except StoreError Unit}
    (stored : DocumentStore.load before.store requester = .ok document)
    (save : DocumentStore.save before.store requester draft.log = (result, after.store))
    (supply : after.supply = draft.supply)
    (tidies : (Draft.ofDocument document before.supply).IsTidy -> draft.IsTidy)
    (advanced : (Draft.ofDocument document before.supply).Advances draft) :
    after.KeepsTidy owner := by
  have ahead : before.supply.next ≤ after.supply.next := supply ▸ advanced
  cases result with
  | error error => exact keeps.of_sameDocuments (LawfulStore.load_failed save) ahead
  | ok =>
      intro final held
      by_cases own : owner = requester
      · subst own
        have drafted := tidies (keeps document stored)
        have same := LawfulStore.ops_saved save held
        have ids : final.log.map Op.id = draft.log.map Op.id := by
          simpa [Function.comp_def] using congrArg (List.map Prod.fst) same
        refine ⟨drafted.log.of_map_eq same, ?_⟩
        exact supply ▸ drafted.new.mono le_rfl (ids ▸ List.Subset.refl _)
      · have tidy := keeps final ((LawfulStore.load_other save own).symm.trans held)
        exact ⟨tidy.log, tidy.new.mono ahead (List.Subset.refl _)⟩

/-- A save keeps documents there that a store can load. -/
theorem Loads.of_save [LawfulStore σ] (loads : before.Loads owner)
    (loadsSaved : LawfulStore.LoadsSaved σ) {log : Log} {result : Except StoreError Unit}
    (save : DocumentStore.save before.store requester log = (result, after.store)) :
    after.Loads owner := by
  obtain ⟨document, stored⟩ := loads
  cases result with
  | error error => exact ⟨document, (LawfulStore.load_failed save owner).trans stored⟩
  | ok =>
      by_cases own : owner = requester
      · exact own ▸ loadsSaved save
      · exact ⟨document, (LawfulStore.load_other save own).trans stored⟩

/-! ## Steps -/

/-- A request keeps logs tidy when what it plans is as tidy as the document. -/
theorem Handled.keepsTidy [LawfulStore σ] {α : Type}
    {plans : Document Json -> (Bool -> Nat -> α) -> Draft -> Prop}
    {result : Except ActivationError α} (handled : Handled requester plans before after result)
    (tidies : ∀ document outcome draft, plans document outcome draft ->
      (Draft.ofDocument document before.supply).IsTidy -> draft.IsTidy)
    (advances : ∀ document outcome draft, plans document outcome draft ->
      (Draft.ofDocument document before.supply).Advances draft)
    (keeps : before.KeepsTidy owner) : after.KeepsTidy owner := by
  cases handled with
  | refused store supply => exact keeps.of_sameDocuments (.of_eq store) (supply ▸ le_rfl)
  | unchanged stored plan same store supply =>
      exact keeps.of_sameDocuments (.of_eq store) (supply ▸ advances _ _ _ plan)
  | saved stored plan different save supply | unsaved stored plan different save supply =>
      exact keeps.of_save stored save supply (tidies _ _ _ plan) (advances _ _ _ plan)

/-- A request keeps documents there. -/
theorem Handled.loads [LawfulStore σ] {α : Type}
    {plans : Document Json -> (Bool -> Nat -> α) -> Draft -> Prop}
    {result : Except ActivationError α} (handled : Handled requester plans before after result)
    (loadsSaved : LawfulStore.LoadsSaved σ) (loads : before.Loads owner) : after.Loads owner := by
  cases handled with
  | refused store | unchanged _ _ _ store =>
      obtain ⟨document, stored⟩ := loads
      exact ⟨document, store ▸ stored⟩
  | saved _ _ _ save | unsaved _ _ _ save => exact loads.of_save loadsSaved save

theorem keepsTidy_switch [LawfulStore σ] {controller : Controller σ}
    (keeps : controller.KeepsTidy owner) (requester id : String) (active : Bool) :
    (controller.switch requester id active).2.KeepsTidy owner := by
  refine (controller.switch_handled requester id active).keepsTidy ?_ ?_ keeps
  · rintro document outcome draft ⟨plan, planned, rfl, -⟩ tidy
    obtain ⟨target, -, -, -, drafted⟩ := planSwitch_eq_ok planned
    rw [drafted]
    exact tidy.setFlags _
  · rintro document outcome draft ⟨plan, planned, rfl, -⟩
    obtain ⟨target, -, -, -, drafted⟩ := planSwitch_eq_ok planned
    rw [drafted]
    exact Draft.Advances.setFlags _ _

theorem keepsTidy_reset [LawfulStore σ] {controller : Controller σ}
    (keeps : controller.KeepsTidy owner) (requester : String) :
    (controller.reset requester).2.KeepsTidy owner := by
  refine (controller.reset_handled requester).keepsTidy ?_ ?_ keeps
  · rintro document outcome draft ⟨rfl, -⟩ tidy
    rw [draft_planReset]
    exact tidy.setFlags _
  · rintro document outcome draft ⟨rfl, -⟩
    rw [draft_planReset]
    exact Draft.Advances.setFlags _ _

theorem keepsTidy_edit [LawfulStore σ] {controller : Controller σ}
    (keeps : controller.KeepsTidy owner) (requester : String) (intents : List Intent) :
    (controller.edit requester intents).2.KeepsTidy owner := by
  rw [edit]
  split
  · exact keeps
  · next document stored =>
      exact keeps.of_save stored rfl rfl (fun tidy => tidy.performAll intents)
        (Draft.Advances.performAll _ intents)

theorem Loads.edit [LawfulStore σ] {controller : Controller σ} (loads : controller.Loads owner)
    (loadsSaved : LawfulStore.LoadsSaved σ) (requester : String) (intents : List Intent) :
    (controller.edit requester intents).2.Loads owner := by
  rw [Controller.edit]
  split
  · exact loads
  · exact loads.of_save loadsSaved rfl

/-- One step of a run of edits: a batch of intents or a request, whatever comes of it, or a
change that touches no document and gives no ids back. -/
inductive EditStep : Controller σ -> Controller σ -> Prop where
  | edit (controller : Controller σ) (owner : String) (intents : List Intent) :
      EditStep controller (controller.edit owner intents).2
  | switch (controller : Controller σ) (owner id : String) (active : Bool) :
      EditStep controller (controller.switch owner id active).2
  | reset (controller : Controller σ) (owner : String) :
      EditStep controller (controller.reset owner).2
  | outside {before after : Controller σ} (same : SameDocuments before.store after.store)
      (advanced : before.supply.next ≤ after.supply.next) : EditStep before after

/-- Zero or more steps of edits, one after the other. -/
inductive EditReaches : Controller σ -> Controller σ -> Prop where
  | refl (controller : Controller σ) : EditReaches controller controller
  | step {start middle finish : Controller σ} (prior : EditReaches start middle)
      (transition : EditStep middle finish) : EditReaches start finish

/-- Every step keeps an owner's log tidy. -/
theorem EditStep.keepsTidy [LawfulStore σ] (step : EditStep before after)
    (keeps : before.KeepsTidy owner) :
    after.KeepsTidy owner := by
  cases step with
  | edit requester intents => exact keepsTidy_edit keeps requester intents
  | switch requester id active => exact keepsTidy_switch keeps requester id active
  | reset requester => exact keepsTidy_reset keeps requester
  | outside same advanced => exact keeps.of_sameDocuments same advanced

/-- Every step keeps an owner's document there. -/
theorem EditStep.loads [LawfulStore σ] (step : EditStep before after)
    (loadsSaved : LawfulStore.LoadsSaved σ) (loads : before.Loads owner) :
    after.Loads owner := by
  cases step with
  | edit requester intents => exact loads.edit loadsSaved requester intents
  | switch requester id active =>
      exact (before.switch_handled requester id active).loads loadsSaved loads
  | reset requester => exact (before.reset_handled requester).loads loadsSaved loads
  | outside same advanced =>
      obtain ⟨document, stored⟩ := loads
      exact ⟨document, (same owner).trans stored⟩

theorem EditReaches.keepsTidy [LawfulStore σ] {start finish : Controller σ}
    (run : EditReaches start finish) (keeps : start.KeepsTidy owner) :
    finish.KeepsTidy owner := by
  induction run with
  | refl => exact keeps
  | step prior transition inductionHypothesis => exact transition.keepsTidy inductionHypothesis

theorem EditReaches.loads [LawfulStore σ] {start finish : Controller σ}
    (run : EditReaches start finish) (loadsSaved : LawfulStore.LoadsSaved σ)
    (loads : start.Loads owner) : finish.Loads owner := by
  induction run with
  | refl => exact loads
  | step prior transition inductionHypothesis =>
      exact transition.loads loadsSaved inductionHypothesis

/-- After any run of edits a log that was tidy is tidy, as long as only ids are given that
were not in it. It is there to be read if the store can load whatever it saves. -/
theorem EditReaches.isTidy [LawfulStore σ] {start finish : Controller σ}
    (run : EditReaches start finish) {owner : String} {document : Document Json}
    (stored : DocumentStore.load start.store owner = .ok document) (tidy : document.log.IsTidy)
    (new : start.supply.IsNewFor document.log) :
    (∀ final, DocumentStore.load finish.store owner = .ok final ->
        final.log.IsTidy ∧ finish.supply.IsNewFor final.log)
      ∧ (LawfulStore.LoadsSaved σ ->
        ∃ final, DocumentStore.load finish.store owner = .ok final) := by
  have keeps : start.KeepsTidy owner := by
    intro same again
    obtain rfl := Except.ok.inj (stored.symm.trans again)
    exact ⟨tidy, new⟩
  have tidies := run.keepsTidy keeps
  exact ⟨fun final held => ⟨(tidies final held).log, (tidies final held).new⟩,
    fun loadsSaved => run.loads loadsSaved ⟨document, stored⟩⟩

/-- A batch that gives a set another id and moves it to the front, and then a request that
switches it on. -/
theorem EditReaches.isTidy_after_rename :
    ∃ final, DocumentStore.load ((ofSides.edit "stage" [.rename "right" "far",
        .move "far" 0]).2.switch "stage" "far" true).2.store "stage" = .ok final
      ∧ final.log.IsTidy := by
  have tidy : Document.sides.log.IsTidy := ⟨List.nodup_nil, List.Pairwise.nil⟩
  have new : ofSides.supply.IsNewFor Document.sides.log := fun _ _ => List.not_mem_nil
  have edited := EditReaches.step (.refl ofSides) (.edit ofSides "stage"
    [.rename "right" "far", .move "far" 0])
  obtain ⟨tidies, loads⟩ :=
    EditReaches.isTidy (edited.step (.switch _ "stage" "far" true)) load_ofSides tidy new
  obtain ⟨final, held⟩ := loads (MonitoredStore.loadsSaved MemoryStore.loadsSaved)
  exact ⟨final, held, (tidies final held).1⟩

end Controller

end LayerRouting
