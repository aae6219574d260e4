import LayerRouting.Proofs.Activation.Requests

/-!
# Runs of requests

A run is any sequence of requests to switch a route set or to reset all, of any owners, with
changes between them that touch no document: locks that others take and free, and outages
that begin and end. Every step keeps a collection with exclusive groups one
(`Controller.Step.exists_isSound`), and so does every run (`Controller.Reaches.exists_isSound`).

All that a step may do to an owner's document is to record flags of live route sets in it, and to
leave it as the store gives it back (`Controller.Step.exists_final`). So whatever both of these
keep of a document, every run keeps (`Controller.Reaches.keeps`).
-/

namespace LayerRouting

/-! ## Sound documents -/

/-- Exclusive groups are so in route sets of the same forms. -/
theorem RouteSets.IsExclusive.of_alike {left right : RouteSets} (exclusive : left.IsExclusive)
    (alike : left.Alike right) : right.IsExclusive := by
  intro id other set otherSet group live otherLive claims otherClaims
  obtain ⟨old, oldLive, form⟩ := alike.exists_live live
  obtain ⟨otherOld, otherOldLive, otherForm⟩ := alike.exists_live otherLive
  exact exclusive oldLive otherOldLive ((RouteSet.claims_iff_of_form form).mp claims)
    ((RouteSet.claims_iff_of_form otherForm).mp otherClaims)

namespace Document

/-- Whether a document is a collection of route sets with exclusive groups. -/
structure IsSound (document : Document Json) : Prop where
  collection : document.IsCollection
  exclusive : (RouteSets.ofDocument document).IsExclusive

namespace IsSound

variable {document : Document Json}

/-- A sound document is sound with other binary64 numbers. -/
theorem mapFloats (sound : document.IsSound) (change : Binary64 -> Binary64) :
    (document.mapFloats change).IsSound where
  collection := sound.collection.mapFloats
  exclusive := sound.exclusive.of_alike (RouteSets.alike_mapFloats sound.collection change)

/-- The flags of a request to switch a route set leave a sound document sound. -/
theorem withFlags_switchFlags (sound : document.IsSound) (supply : IdSupply) {id : String}
    {target : RouteSet} (live : (RouteSets.ofDocument document).liveSet? id = some target)
    (active : Bool) :
    (document.withFlags supply
      ((RouteSets.ofDocument document).switchFlags id target active)).IsSound := by
  have distinct := RouteSets.nodup_ids_ofDocument sound.collection
  have set := FlagsSet.of_setFlags sound.collection supply
    (RouteSets.nodup_ids_switchFlags distinct id target active)
  exact ⟨set.afterCollection, set.isExclusive_of_switch live sound.exclusive⟩

end IsSound

/-- The flags of a reset make any collection sound. -/
theorem IsCollection.isSound_withFlags_resetFlags {document : Document Json}
    (collection : document.IsCollection) (supply : IdSupply) :
    (document.withFlags supply (RouteSets.ofDocument document).resetFlags).IsSound := by
  have distinct := RouteSets.nodup_ids_ofDocument collection
  have set := FlagsSet.of_setFlags collection supply (RouteSets.nodup_ids_resetFlags distinct)
  exact ⟨set.afterCollection, set.isExclusive_of_reset⟩

end Document

namespace Controller

/-! ## Steps -/

variable {σ : Type} [DocumentStore σ]

/-- One step of a run: a request that is accepted, refused or fails, or a change that touches
no document. -/
inductive Step : Controller σ -> Controller σ -> Prop where
  | switch (controller : Controller σ) (owner id : String) (active : Bool) :
      Step controller (controller.switch owner id active).2
  | reset (controller : Controller σ) (owner : String) :
      Step controller (controller.reset owner).2
  | outside {before after : Controller σ} (same : SameDocuments before.store after.store) :
      Step before after

/-- Zero or more steps, one after the other. -/
inductive Reaches : Controller σ -> Controller σ -> Prop where
  | refl (controller : Controller σ) : Reaches controller controller
  | step {start middle finish : Controller σ} (prior : Reaches start middle)
      (transition : Step middle finish) : Reaches start finish

/-- Every step keeps an owner's document sound. -/
theorem Step.exists_isSound [LawfulStore σ] {before after : Controller σ}
    (step : Step before after) {owner : String} {document : Document Json}
    (stored : DocumentStore.load before.store owner = .ok document) (sound : document.IsSound) :
    ∃ final, DocumentStore.load after.store owner = .ok final ∧ final.IsSound := by
  cases step with
  | switch requester id active =>
      obtain ⟨final, held, rfl | ⟨target, live, -, rfl⟩⟩ :=
        before.switch_exists_final stored requester id active
      · exact ⟨final, held, sound⟩
      · exact ⟨_, held, (sound.withFlags_switchFlags _ live active).mapFloats _⟩
  | reset requester =>
      obtain ⟨final, held, rfl | rfl⟩ := before.reset_exists_final stored requester
      · exact ⟨final, held, sound⟩
      · exact ⟨_, held, (sound.collection.isSound_withFlags_resetFlags _).mapFloats _⟩
  | outside same => exact ⟨document, (same owner).trans stored, sound⟩

/-- Every run keeps an owner's document sound. -/
theorem Reaches.exists_isSound [LawfulStore σ] {start finish : Controller σ}
    (run : Reaches start finish) {owner : String} {document : Document Json}
    (stored : DocumentStore.load start.store owner = .ok document) (sound : document.IsSound) :
    ∃ final, DocumentStore.load finish.store owner = .ok final ∧ final.IsSound := by
  induction run with
  | refl => exact ⟨document, stored, sound⟩
  | step prior transition inductionHypothesis =>
      obtain ⟨middle, held, middleSound⟩ := inductionHypothesis
      exact transition.exists_isSound held middleSound

/-! ## Recorded flags -/

/-- An owner's document after a step: as it was, or with flags that were recorded, as the store
gives it back. In a collection they are of different live route sets. -/
theorem Step.exists_final [LawfulStore σ] {before after : Controller σ} (step : Step before after)
    {owner : String} {document : Document Json}
    (stored : DocumentStore.load before.store owner = .ok document) :
    ∃ final, DocumentStore.load after.store owner = .ok final
      ∧ (final = document
        ∨ ∃ flags, (document.IsCollection -> (RouteSets.ofDocument document).OwnsFlags flags)
            ∧ final = (document.withFlags before.supply flags).mapFloats
                (LawfulStore.reread σ)) := by
  cases step with
  | switch requester id active =>
      obtain ⟨final, held, same | ⟨target, live, -, recorded⟩⟩ :=
        before.switch_exists_final stored requester id active
      · exact ⟨final, held, .inl same⟩
      · refine ⟨final, held, .inr ⟨_, fun collection => ?_, recorded⟩⟩
        exact RouteSets.ownsFlags_switchFlags (RouteSets.nodup_ids_ofDocument collection) live
  | reset requester =>
      obtain ⟨final, held, same | recorded⟩ := before.reset_exists_final stored requester
      · exact ⟨final, held, .inl same⟩
      · refine ⟨final, held, .inr ⟨_, fun collection => ?_, recorded⟩⟩
        exact RouteSets.ownsFlags_resetFlags (RouteSets.nodup_ids_ofDocument collection)
  | outside same => exact ⟨document, (same owner).trans stored, .inl rfl⟩

/-- What recording flags keeps of documents, and what the store keeps that gives them back, every
run keeps of an owner's document, where in a collection only flags of different live route sets
are recorded. -/
theorem Reaches.keeps [LawfulStore σ] {P : Document Json -> Prop}
    (recorded : ∀ current, P current -> ∀ supply flags,
      (current.IsCollection -> (RouteSets.ofDocument current).OwnsFlags flags) ->
        P (current.withFlags supply flags))
    (returned : ∀ current, P current -> P (current.mapFloats (LawfulStore.reread σ)))
    {start finish : Controller σ} (run : Reaches start finish) {owner : String}
    {document : Document Json} (stored : DocumentStore.load start.store owner = .ok document)
    (holds : P document) :
    ∃ final, DocumentStore.load finish.store owner = .ok final ∧ P final := by
  induction run with
  | refl => exact ⟨document, stored, holds⟩
  | step prior transition inductionHypothesis =>
      obtain ⟨middle, middleStored, middleHolds⟩ := inductionHypothesis
      obtain ⟨final, finalStored, rfl | ⟨flags, owned, rfl⟩⟩ :=
        transition.exists_final middleStored
      · exact ⟨final, finalStored, middleHolds⟩
      · exact ⟨_, finalStored, returned _ (recorded middle middleHolds _ flags owned)⟩

/-! ## Exclusivity -/

/-- When the check of exclusivity reports nothing, it reports nothing after any run. -/
theorem Reaches.conflicts_eq_nil [LawfulStore σ] {start finish : Controller σ}
    (run : Reaches start finish) {owner : String} {document : Document Json}
    (stored : DocumentStore.load start.store owner = .ok document)
    (collection : document.IsCollection)
    (unreported : (RouteSets.ofDocument document).conflicts = []) :
    ∃ sets, finish.routeSets owner = .ok sets ∧ sets.conflicts = [] := by
  have exclusive := (RouteSets.conflicts_eq_nil_iff
    (RouteSets.nodup_ids_ofDocument collection)).mp unreported
  obtain ⟨final, held, sound⟩ := run.exists_isSound stored ⟨collection, exclusive⟩
  refine ⟨RouteSets.ofDocument final, ?_, ?_⟩
  · rw [routeSets, held]
  · exact (RouteSets.conflicts_eq_nil_iff
      (RouteSets.nodup_ids_ofDocument sound.collection)).mpr sound.exclusive

/-- A run in which the other side is switched on and a reset then fails in an outage. -/
theorem Reaches.conflicts_eq_nil_in_outage :
    ∃ sets, (Controller.reset
        { (ofSides.switch "stage" "right" true).2 with store.outage := some "disk full" }
        "stage").2.routeSets "stage" = .ok sets ∧ sets.conflicts = [] := by
  have unreported : (RouteSets.ofDocument Document.sides).conflicts = [] := by
    rw [RouteSets.ofDocument_sides]
    decide
  have switched := Reaches.step (.refl ofSides) (.switch ofSides "stage" "right" true)
  have outage : Step (ofSides.switch "stage" "right" true).2
      { (ofSides.switch "stage" "right" true).2 with store.outage := some "disk full" } :=
    .outside fun _ => rfl
  exact Reaches.conflicts_eq_nil ((switched.step outage).step (.reset _ "stage")) load_ofSides
    Document.isCollection_sides unreported

end Controller

end LayerRouting
