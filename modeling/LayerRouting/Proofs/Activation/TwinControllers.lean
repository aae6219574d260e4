import LayerRouting.Proofs.Activation.Sessions

/-!
# Twin controllers

Two controllers are twins for an owner when they hold the same document of the owner, but for the
ids of its ops, and both supplies have passed the ids that a naming relates (`Controller.Twin`).
What other owners have in them does not matter. Requests of the owner to twins, the same but for
those ids, are answered alike and leave twins; the naming then relates the ids of the new ops as
well (`Controller.Twin.handle`).
-/

namespace LayerRouting

namespace Controller

variable {σ : Type} [DocumentStore σ]

/-! ## Twins -/

/-- Whether two controllers hold the same for an owner up to the ids of ops, which are settled. -/
structure Twin (naming : Naming) (owner : String) (first second : Controller σ) : Prop where
  load : DocumentStore.load second.store owner
    = (DocumentStore.load first.store owner).map (Document.renamed naming.rename)
  settled : ∀ document, DocumentStore.load first.store owner = .ok document ->
    ∀ op ∈ document.log, op.id ∈ naming.settled
  past : naming.IsPast first.supply second.supply

namespace Twin

variable {naming later : Naming} {owner : String}
  {first second firstAfter secondAfter : Controller σ} {document : Document Json}

/-- Whatever leaves the owner's document as it is keeps twins. -/
theorem congr (twin : Twin naming owner first second)
    (load : DocumentStore.load firstAfter.store owner = DocumentStore.load first.store owner)
    (otherLoad : DocumentStore.load secondAfter.store owner
      = DocumentStore.load second.store owner)
    (advanced : first.supply.next ≤ firstAfter.supply.next)
    (otherAdvanced : second.supply.next ≤ secondAfter.supply.next) :
    Twin naming owner firstAfter secondAfter where
  load := by rw [load, otherLoad, twin.load]
  settled := load ▸ twin.settled
  past := twin.past.mono advanced otherAdvanced

/-- Controllers that hold for an owner what was made alike of twin documents are twins. -/
theorem of_change {change : Document Json -> Except StoreError (Document Json)}
    (ignores : IgnoresIds change) (settled : ∀ op ∈ document.log, op.id ∈ naming.settled)
    (load : DocumentStore.load first.store owner = change document)
    (otherLoad : DocumentStore.load second.store owner
      = change (document.renamed naming.rename))
    (past : naming.IsPast first.supply second.supply) : Twin naming owner first second where
  load := by rw [load, otherLoad, ignores.renamed]
  settled result loaded op member := by
    rw [load] at loaded
    obtain ⟨old, oldMember, same⟩ := ignores.ids loaded op member
    exact same ▸ settled old oldMember
  past := past

/-- The drafts with which requests to twins begin are twins. -/
theorem draft (twin : Twin naming owner first second)
    (loaded : DocumentStore.load first.store owner = .ok document) :
    Draft.Twin naming (Draft.ofDocument document first.supply)
      (Draft.ofDocument (document.renamed naming.rename) second.supply) where
  defaults := rfl
  log := rfl
  settled := twin.settled document loaded
  past := twin.past

theorem load_ok (twin : Twin naming owner first second)
    (loaded : DocumentStore.load first.store owner = .ok document) :
    DocumentStore.load second.store owner = .ok (document.renamed naming.rename) := by
  rw [twin.load, loaded]
  rfl

end Twin

/-! ## Commits -/

variable [SessionStore σ] [OwnedStore σ] {naming later : Naming} {owner : String}
  {first second : Controller σ} {document : Document Json}

/-- A commit of another log saves it, unless the file system fails. -/
theorem commit_of_different {draft : Draft} (timed : OwnedStore.IsTimed first.store)
    (loaded : DocumentStore.load first.store owner = .ok document)
    (different : ¬ draft.log.Same document.log)
    (works : FilesWork (first.commit owner document draft).1) :
    (first.commit owner document draft).1 = .ok true
      ∧ DocumentStore.load (first.commit owner document draft).2.store owner
        = OwnedStore.kept σ { document with log := draft.log }
      ∧ (first.commit owner document draft).2.supply = draft.supply := by
  rw [Controller.commit, if_neg different] at works ⊢
  rcases save : DocumentStore.save first.store owner draft.log with ⟨result, store⟩
  rw [save] at works
  have answered : ∀ fault, result ≠ .error (.file fault) := by
    rintro fault rfl
    exact works fault rfl
  obtain ⟨rfl, kept⟩ := OwnedStore.save_own timed save answered
  rw [loaded] at kept ⊢
  exact ⟨rfl, kept, rfl⟩

/-- Commits of twin drafts come to the same. -/
theorem Twin.commit (twin : Twin naming owner first second)
    (loaded : DocumentStore.load first.store owner = .ok document)
    (extended : naming.Extends later) {draft other : Draft} (drafts : Draft.Twin later draft other)
    (timed : OwnedStore.IsTimed first.store) (otherTimed : OwnedStore.IsTimed second.store)
    (works : FilesWork (first.commit owner document draft).1)
    (otherWorks : FilesWork (second.commit owner (document.renamed naming.rename) other).1) :
    (second.commit owner (document.renamed naming.rename) other).1
        = (first.commit owner document draft).1
      ∧ Twin later owner (first.commit owner document draft).2
        (second.commit owner (document.renamed naming.rename) other).2 := by
  have settled : ∀ op ∈ document.log, op.id ∈ later.settled :=
    fun op member => extended.settled (twin.settled document loaded op member)
  have otherLoaded := twin.load_ok loaded
  rw [← extended.renamed_document (twin.settled document loaded)] at otherLoaded otherWorks ⊢
  have same : other.log.Same (document.renamed later.rename).log ↔ draft.log.Same document.log := by
    rw [drafts.log, Document.log_renamed, Log.same_renamed_iff]
  by_cases unchanged : draft.log.Same document.log
  · simp only [Controller.commit, same, unchanged, if_true]
    exact ⟨trivial, .of_change ignoresIds_ok settled loaded otherLoaded drafts.past⟩
  · obtain ⟨answer, load, supply⟩ := commit_of_different timed loaded unchanged works
    obtain ⟨otherAnswer, otherLoad, otherSupply⟩ :=
      commit_of_different otherTimed otherLoaded (mt same.mp unchanged) otherWorks
    rw [drafts.log] at otherLoad
    refine ⟨otherAnswer.trans answer.symm, ?_⟩
    refine .of_change OwnedStore.kept_ignoresIds ?_ load otherLoad ?_
    · exact drafts.settled
    · rw [supply, otherSupply]
      exact drafts.past

/-! ## Requests under the lock -/

/-- Requests to twins to switch a route set come to the same. -/
theorem Twin.switchLocked (twin : Twin naming owner first second)
    (timed : OwnedStore.IsTimed first.store) (otherTimed : OwnedStore.IsTimed second.store)
    (id : String) (active : Bool)
    (works : FilesWork (first.switchLocked owner id active).1)
    (otherWorks : FilesWork (second.switchLocked owner id active).1) :
    ∃ later, naming.Extends later
      ∧ (second.switchLocked owner id active).1 = (first.switchLocked owner id active).1
      ∧ Twin later owner (first.switchLocked owner id active).2
        (second.switchLocked owner id active).2 := by
  cases loaded : DocumentStore.load first.store owner with
  | error error =>
      have otherLoaded := twin.load
      rw [loaded] at otherLoaded
      rw [Controller.switchLocked, Controller.switchLocked, loaded, otherLoaded]
      exact ⟨naming, .refl naming, rfl, twin⟩
  | ok document =>
      have otherLoaded := twin.load_ok loaded
      have plans := planSwitch_twin (twin.draft loaded) id active
      simp only [Controller.switchLocked, loaded, otherLoaded] at works otherWorks ⊢
      generalize planSwitch document first.supply id active = planned at plans works ⊢
      generalize planSwitch (document.renamed naming.rename) second.supply id active
        = otherPlanned at plans otherWorks ⊢
      cases plans with
      | refused refusal => exact ⟨naming, .refl naming, rfl, twin⟩
      | @planned plan other later extended previouslyActive deactivated drafts =>
          simp only at works otherWorks ⊢
          obtain ⟨answer, twins⟩ := twin.commit loaded extended drafts timed otherTimed
            works.of_map otherWorks.of_map
          refine ⟨later, extended, ?_, twins⟩
          simp only [answer, previouslyActive, deactivated, drafts.log, Document.log_renamed,
            Log.length_renamed]

/-- Resets of twins come to the same. -/
theorem Twin.resetLocked (twin : Twin naming owner first second)
    (timed : OwnedStore.IsTimed first.store) (otherTimed : OwnedStore.IsTimed second.store)
    (works : FilesWork (first.resetLocked owner).1)
    (otherWorks : FilesWork (second.resetLocked owner).1) :
    ∃ later, naming.Extends later
      ∧ (second.resetLocked owner).1 = (first.resetLocked owner).1
      ∧ Twin later owner (first.resetLocked owner).2 (second.resetLocked owner).2 := by
  cases loaded : DocumentStore.load first.store owner with
  | error error =>
      have otherLoaded := twin.load
      rw [loaded] at otherLoaded
      rw [Controller.resetLocked, Controller.resetLocked, loaded, otherLoaded]
      exact ⟨naming, .refl naming, rfl, twin⟩
  | ok document =>
      have otherLoaded := twin.load_ok loaded
      obtain ⟨activated, deactivated, later, extended, drafts⟩ :=
        planReset_twin (twin.draft loaded)
      simp only [Controller.resetLocked, loaded, otherLoaded] at works otherWorks ⊢
      obtain ⟨answer, twins⟩ := twin.commit loaded extended drafts timed otherTimed
        works.of_map otherWorks.of_map
      refine ⟨later, extended, ?_, twins⟩
      simp only [answer, activated, deactivated, drafts.log, Document.log_renamed,
        Log.length_renamed]

/-! ## Requests -/

/-- Whether two requests came to the same up to the ids of ops: they were answered alike and left
twins, under a naming that goes on from the one before. -/
structure Alike (naming later : Naming) (owner : String) (first second : Answer × Controller σ) :
    Prop where
  extended : naming.Extends later
  answer : second.1 = first.1.renamed later.rename
  answered : ∀ op ∈ first.1.ops, op.id ∈ later.settled
  twin : Twin later owner first.2 second.2

variable {now other : Timestamp}

/-- Starts of the same document in twins come to the same. -/
theorem Twin.handle_start (twin : Twin naming owner first second) (regular : now.IsRegular)
    (otherRegular : other.IsRegular) (settled : ∀ op ∈ document.log, op.id ∈ naming.settled)
    (works : (first.handle now owner (.start document)).1.Works)
    (otherWorks : (second.handle other owner
      (.start (document.renamed naming.rename))).1.Works) :
    Alike naming naming owner (first.handle now owner (.start document))
      (second.handle other owner (.start (document.renamed naming.rename))) := by
  obtain ⟨answer, load⟩ := Controller.handle_start regular works
  obtain ⟨otherAnswer, otherLoad⟩ := Controller.handle_start otherRegular otherWorks
  have started := OwnedStore.started_ignoresIds (σ := σ) owner
  refine ⟨.refl naming, ?_, ?_, ?_⟩
  · rw [answer, otherAnswer, started.renamed]
    rfl
  · rw [answer]
    intro op member
    cases made : OwnedStore.started σ owner document with
    | error error =>
        rw [made] at member
        cases member
    | ok result =>
        rw [made] at member
        obtain ⟨old, oldMember, same⟩ := started.ids made op member
        exact same ▸ settled old oldMember
  · exact .of_change (started.bind OwnedStore.kept_ignoresIds) settled load otherLoad twin.past

/-- Saves of the same log in twins come to the same. -/
theorem Twin.handle_save (twin : Twin naming owner first second) (regular : now.IsRegular)
    (otherRegular : other.IsRegular) {log : Log} (settled : ∀ op ∈ log, op.id ∈ naming.settled)
    (works : (first.handle now owner (.save log)).1.Works)
    (otherWorks : (second.handle other owner (.save (Log.renamed naming.rename log))).1.Works) :
    Alike naming naming owner (first.handle now owner (.save log))
      (second.handle other owner (.save (Log.renamed naming.rename log))) := by
  obtain ⟨answer, load⟩ := Controller.handle_save regular works
  obtain ⟨otherAnswer, otherLoad⟩ := Controller.handle_save otherRegular otherWorks
  refine ⟨.refl naming, ?_, answer ▸ List.forall_mem_nil _, ?_⟩
  · rw [answer, otherAnswer, twin.load]
    cases DocumentStore.load first.store owner <;> rfl
  · cases loaded : DocumentStore.load first.store owner with
    | error error =>
        have otherLoaded := twin.load
        rw [loaded] at load otherLoaded
        rw [otherLoaded] at otherLoad
        exact twin.congr (load.trans loaded.symm) (otherLoad.trans otherLoaded.symm) le_rfl le_rfl
    | ok document =>
        rw [loaded] at load
        rw [twin.load_ok loaded] at otherLoad
        have logSettled : ∀ op ∈ ({ document with log } : Document Json).log,
            op.id ∈ naming.settled := settled
        exact .of_change OwnedStore.kept_ignoresIds logSettled load otherLoad twin.past

/-- Clocks make no difference between twins. -/
theorem Twin.atTime (twin : Twin naming owner first second) (now other : Timestamp) :
    Twin naming owner (first.atTime now) (second.atTime other) :=
  twin.congr (OwnedStore.load_atTime _ _ _) (OwnedStore.load_atTime _ _ _) le_rfl le_rfl

/-- The route sets that are read from twins are the same. -/
theorem Twin.handle_routeSets (twin : Twin naming owner first second) (now other : Timestamp) :
    Alike naming naming owner (first.handle now owner .routeSets)
      (second.handle other owner .routeSets) := by
  have timed := twin.atTime now other
  simp only [handle, routeSets, timed.load]
  cases loaded : DocumentStore.load (first.atTime now).store owner with
  | error error => exact ⟨.refl naming, rfl, List.forall_mem_nil _, timed⟩
  | ok document =>
      refine ⟨.refl naming, ?_, ?_, timed⟩
      · exact congrArg (Answer.routeSets ∘ Except.ok)
          (RouteSets.ofDocument_renamed naming.rename document)
      · intro op member
        obtain ⟨item, listed, held⟩ := List.mem_flatMap.mp member
        exact timed.settled document loaded op (RouteSets.ops_subset_of_mem_ofDocument listed held)

/-- Requests to twins that are the same up to settled ids come to the same. -/
theorem Twin.handle (twin : Twin naming owner first second) (idle : first.locks.IsIdle)
    (otherIdle : second.locks.IsIdle) (regular : now.IsRegular) (otherRegular : other.IsRegular)
    {request : Request} (settled : ∀ op ∈ request.ops, op.id ∈ naming.settled)
    (works : (first.handle now owner request).1.Works)
    (otherWorks : (second.handle other owner (request.renamed naming.rename)).1.Works) :
    ∃ later, Alike naming later owner (first.handle now owner request)
      (second.handle other owner (request.renamed naming.rename)) := by
  have timed : OwnedStore.IsTimed (first.atTime now).store :=
    OwnedStore.isTimed_atTime _ regular
  have otherTimed : OwnedStore.IsTimed (second.atTime other).store :=
    OwnedStore.isTimed_atTime _ otherRegular
  have timedIdle : (first.atTime now).locks.IsIdle := idle
  have otherTimedIdle : (second.atTime other).locks.IsIdle := otherIdle
  have inside : Twin naming owner ((first.atTime now).inside owner)
      ((second.atTime other).inside owner) := (twin.atTime now other).congr rfl rfl le_rfl le_rfl
  cases request with
  | start document =>
      exact ⟨naming, twin.handle_start regular otherRegular settled works otherWorks⟩
  | save log => exact ⟨naming, twin.handle_save regular otherRegular settled works otherWorks⟩
  | switch id active =>
      simp only [Controller.handle, Request.renamed, switch_of_idle timedIdle,
        switch_of_idle otherTimedIdle] at works otherWorks ⊢
      obtain ⟨later, extended, answer, twins⟩ := inside.switchLocked timed otherTimed id active
        works otherWorks
      exact ⟨later, extended, congrArg Answer.switched answer, List.forall_mem_nil _,
        twins.congr rfl rfl le_rfl le_rfl⟩
  | reset =>
      simp only [Controller.handle, Request.renamed, reset_of_idle timedIdle,
        reset_of_idle otherTimedIdle] at works otherWorks ⊢
      obtain ⟨later, extended, answer, twins⟩ := inside.resetLocked timed otherTimed
        works otherWorks
      exact ⟨later, extended, congrArg Answer.reset answer, List.forall_mem_nil _,
        twins.congr rfl rfl le_rfl le_rfl⟩
  | routeSets => exact ⟨naming, twin.handle_routeSets now other⟩

end Controller

end LayerRouting
