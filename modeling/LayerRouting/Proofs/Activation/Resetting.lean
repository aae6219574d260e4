import LayerRouting.Proofs.Activation.ResetRule
import LayerRouting.Proofs.Activation.Switching

/-!
# What a reset changes

A reset that succeeds gives every live route set the state that the rule of resets gives it,
whatever state the collection was in, and changes nothing else that is read of any route set.
It reports the sets whose state changes, and saves exactly when there is one
(`Controller.reset_route_sets`).
-/

namespace LayerRouting

namespace RouteSet

variable {left right : RouteSet}

@[simp] theorem defaultState_withoutFloats (set : RouteSet) :
    set.withoutFloats.defaultState = set.defaultState :=
  rfl

@[simp] theorem isHeld_withoutFloats (set : RouteSet) :
    set.withoutFloats.isHeld = set.isHeld :=
  rfl

/-- Route sets of one form have the same default state. -/
theorem defaultState_eq_of_form (same : left.withoutFloats = right.withoutFloats) :
    left.defaultState = right.defaultState := by
  rw [← left.defaultState_withoutFloats, same, defaultState_withoutFloats]

/-- Route sets of one form are held or not together. -/
theorem isHeld_eq_of_form (same : left.withoutFloats = right.withoutFloats) :
    left.isHeld = right.isHeld := by
  rw [← left.isHeld_withoutFloats, same, isHeld_withoutFloats]

end RouteSet

namespace RouteSets

/-- The ids of the live route sets that satisfy a condition, in order. -/
def liveIds (sets : RouteSets) (condition : String -> RouteSet -> Bool) : List String :=
  (sets.live.filter fun entry => condition entry.1 entry.2).map Prod.fst

/-- Whether a reset changes the state of a live route set to the given one. -/
def isTurned (sets : RouteSets) (active : Bool) (id : String) (set : RouteSet) : Bool :=
  (sets.afterReset id set).active == active && set.active != active

/-- A reset records the flags of the live route sets whose state it changes. -/
theorem mem_resetFlags_iff {sets : RouteSets} (distinct : (sets.map Item.id).Nodup) {id : String}
    {active : Bool} :
    (id, active) ∈ sets.resetFlags
      ↔ ∃ set, sets.liveSet? id = some set ∧ (sets.afterReset id set).active = active
        ∧ active ≠ set.active := by
  simp only [resetFlags, resetTargets_eq distinct, List.filter_map, List.map_map, List.mem_map,
    List.mem_filter, Function.comp_def, ResetTarget.changes, bne_iff_ne, Prod.mk.injEq]
  constructor
  · rintro ⟨⟨id, set⟩, ⟨live, changes⟩, rfl, rfl⟩
    exact ⟨set, (mem_live_iff distinct).mp live, rfl, changes⟩
  · rintro ⟨set, live, rfl, changes⟩
    exact ⟨(id, set), ⟨(mem_live_iff distinct).mpr live, changes⟩, rfl, rfl⟩

/-- The ids of the targets of a reset whose state changes to the given one. -/
theorem map_id_changes {sets : RouteSets} (distinct : (sets.map Item.id).Nodup) (active : Bool) :
    ((sets.resetTargets.filter ResetTarget.changes).filter fun target =>
        target.active == active).map ResetTarget.id
      = sets.liveIds (sets.isTurned active) := by
  simp only [resetTargets_eq distinct, List.filter_map, List.map_map, List.filter_filter, liveIds,
    Function.comp_def]
  refine congrArg _ (List.filter_congr fun entry _ => ?_)
  cases on : (sets.afterReset entry.1 entry.2).active <;> cases active <;>
    simp [ResetTarget.changes, isTurned, on]

end RouteSets

namespace Document.FlagsSet

variable {before after : Document Json}

/-- The route sets after the flags of a reset were set, when the values of live route sets are
objects. -/
theorem changed_of_reset
    (set : FlagsSet (RouteSets.ofDocument before).resetFlags before after)
    (objects : ∀ id, ((RouteSets.ofDocument before).liveSet? id).isSome ->
      (before.resolved.get? id).any Json.isObject) :
    RouteSets.Changed True (RouteSets.ofDocument before).afterReset (RouteSets.ofDocument before)
      (RouteSets.ofDocument after) := by
  have distinct := RouteSets.nodup_ids_ofDocument set.beforeCollection
  have alive := RouteSets.live_of_mem_resetFlags distinct
  refine .of_values (set.values?_of_change alive ?_ ?_ objects)
  · rintro ⟨id, active⟩ member routeSet live
    obtain ⟨old, oldLive, rfl, -⟩ := (RouteSets.mem_resetFlags_iff distinct).mp member
    obtain rfl := Option.some.inj (oldLive.symm.trans live)
    rfl
  · intro id unnamed routeSet live
    have same : ((RouteSets.ofDocument before).afterReset id routeSet).active
        = routeSet.active := by
      by_contra changes
      exact unnamed (List.mem_map_of_mem
        ((RouteSets.mem_resetFlags_iff distinct).mpr ⟨routeSet, live, rfl, changes⟩))
    calc (RouteSets.ofDocument before).afterReset id routeSet
        = { routeSet with
            active := ((RouteSets.ofDocument before).afterReset id routeSet).active } := rfl
      _ = routeSet := by rw [same]

/-- When the log that a reset plans is the same as the one before, no state changes. -/
theorem active_afterReset_of_same
    (set : FlagsSet (RouteSets.ofDocument before).resetFlags before after)
    (same : after.log.Same before.log)
    (objects : ∀ id, ((RouteSets.ofDocument before).liveSet? id).isSome ->
      (before.resolved.get? id).any Json.isObject) {id : String} {routeSet : RouteSet}
    (live : (RouteSets.ofDocument before).liveSet? id = some routeSet) :
    ((RouteSets.ofDocument before).afterReset id routeSet).active = routeSet.active := by
  have changed := ((set.of_same same).changed_of_reset objects).live_eq id
  rw [live, Option.map_some] at changed
  exact congrArg RouteSet.active (Option.some.inj changed).symm

end Document.FlagsSet

namespace Controller

variable {σ : Type} [DocumentStore σ]

/-- The owner's document after a reset that succeeds: one with the flags of the reset, as the store
has it, whether it was saved or was the same already. -/
theorem reset_kept [LawfulStore σ] (controller : Controller σ) {owner : String}
    {document : Document Json} {outcome : ResetOutcome}
    (stored : DocumentStore.load controller.store owner = .ok document)
    (collection : document.IsCollection)
    (succeeded : (controller.reset owner).1 = .ok outcome) :
    ∃ kept final, DocumentStore.load (controller.reset owner).2.store owner = .ok final
      ∧ Document.FlagsSet (RouteSets.ofDocument document).resetFlags document kept
      ∧ (RouteSets.ofDocument kept).Alike (RouteSets.ofDocument final)
      ∧ (LawfulStore.KeepsNumbers σ document -> final = kept)
      ∧ outcome.activated
        = (RouteSets.ofDocument document).liveIds ((RouteSets.ofDocument document).isTurned true)
      ∧ outcome.deactivated
        = (RouteSets.ofDocument document).liveIds ((RouteSets.ofDocument document).isTurned false)
      ∧ (outcome.committed ↔ ¬ (planReset document controller.supply).draft.log.Same
          document.log) := by
  have distinct := RouteSets.nodup_ids_ofDocument collection
  have handled := controller.reset_handled owner
  rw [succeeded] at handled
  obtain ⟨report, draft, committed, kept, final, ⟨rfl, rfl⟩, rfl, different, held, keeps, returned⟩
    := handled.exists_keeps (ResetPlans.recordsFlags _) stored
  rw [draft_planReset] at keeps
  have set := keeps.flagsSet collection (RouteSets.nodup_ids_resetFlags distinct)
  refine ⟨kept, final, held, set, returned.alike set.afterCollection,
    fun numbers => returned.eq (keeps.keepsNumbers numbers), ?_, ?_, different⟩
  · simpa [planReset] using RouteSets.map_id_changes distinct true
  · simpa [planReset] using RouteSets.map_id_changes distinct false

/-- After a reset that succeeds each live route set is in the state that the rule of resets
gives it and is otherwise as it was, and so are the ids and the defaults: up to binary64 numbers,
and exactly if those of the document come back from the store. The outcome tells which sets were
activated and which deactivated, in order, and a log was saved exactly when the state of some set
changes. -/
theorem reset_route_sets [LawfulStore σ] (controller : Controller σ) {owner : String}
    {document : Document Json} {outcome : ResetOutcome}
    (stored : DocumentStore.load controller.store owner = .ok document)
    (collection : document.IsCollection)
    (objects : ∀ id, ((RouteSets.ofDocument document).liveSet? id).isSome ->
      (document.resolved.get? id).any Json.isObject)
    (succeeded : (controller.reset owner).1 = .ok outcome) :
    (∃ sets, (controller.reset owner).2.routeSets owner = .ok sets
        ∧ RouteSets.Changed (LawfulStore.KeepsNumbers σ document)
            (RouteSets.ofDocument document).afterReset (RouteSets.ofDocument document) sets)
      ∧ outcome.activated
        = (RouteSets.ofDocument document).liveIds ((RouteSets.ofDocument document).isTurned true)
      ∧ outcome.deactivated
        = (RouteSets.ofDocument document).liveIds ((RouteSets.ofDocument document).isTurned false)
      ∧ (outcome.committed ↔ ∃ id set, (RouteSets.ofDocument document).liveSet? id = some set
          ∧ ((RouteSets.ofDocument document).afterReset id set).active ≠ set.active) := by
  obtain ⟨kept, final, held, set, alike, same, activated, deactivated, committed⟩ :=
    reset_kept controller stored collection succeeded
  refine ⟨⟨RouteSets.ofDocument final, by rw [routeSets, held], ?_⟩, activated, deactivated, ?_⟩
  · exact (set.changed_of_reset objects).of_alike alike fun numbers =>
      congrArg RouteSets.ofDocument (same numbers)
  rw [committed, draft_planReset]
  have planned := Document.FlagsSet.of_setFlags collection controller.supply
    (RouteSets.nodup_ids_resetFlags (RouteSets.nodup_ids_ofDocument collection))
  constructor
  · -- Without a change the planned log would be the one that is there.
    intro different
    cases flags : (RouteSets.ofDocument document).resetFlags with
    | nil =>
        rw [flags] at different
        exact absurd (Log.Same.refl document.log) different
    | cons flag rest =>
        have member : (flag.1, flag.2) ∈ (RouteSets.ofDocument document).resetFlags := by
          simp [flags]
        obtain ⟨routeSet, live, active, changes⟩ :=
          (RouteSets.mem_resetFlags_iff (RouteSets.nodup_ids_ofDocument collection)).mp member
        exact ⟨flag.1, routeSet, live, active ▸ changes⟩
  · rintro ⟨id, routeSet, live, changes⟩ same
    exact changes (planned.active_afterReset_of_same same objects live)

end Controller

/-! ## Both sides -/

/-- A collection of two active route sets of one group, as defaults without edits. -/
def Document.bothSides : Document Json where
  defaults := .object [
    ("left", .object [("name", .string "Left"), ("active", .bool true),
      ("exclusivityGroup", .string "side")]),
    ("right", .object [("name", .string "Right"), ("active", .bool true),
      ("exclusivityGroup", .string "side")])]
  log := []

theorem Document.isCollection_bothSides : Document.bothSides.IsCollection :=
  ⟨by decide, by decide, by decide⟩

theorem RouteSets.ofDocument_bothSides :
    ofDocument Document.bothSides
      = [
        { id := "left", computed := some leftSide, defaultValue := some leftSide, ops := [] },
        { id := "right", computed := some { rightSide with active := true },
          defaultValue := some { rightSide with active := true }, ops := [] }
      ] :=
  ofDocument_of_ordered (by decide +kernel) (by decide +kernel)

namespace Controller

/-- A controller of a store in service, in which one owner has both sides active. -/
def ofBothSides : Controller (MonitoredStore MemoryStore) :=
  { ofSides with store := MonitoredStore.ofStore ⟨[("stage", Document.bothSides)]⟩ }

/-- A reset of two active sides leaves the first one active. -/
theorem reset_route_sets_of_bothSides :
    ∃ sets, (ofBothSides.reset "stage").2.routeSets "stage" = .ok sets
      ∧ sets.liveSet? "left" = some RouteSets.leftSide
      ∧ sets.liveSet? "right" = some RouteSets.rightSide := by
  have stored : DocumentStore.load ofBothSides.store "stage" = .ok Document.bothSides := rfl
  have succeeded : (ofBothSides.reset "stage").1
      = .ok { activated := [], deactivated := ["right"], committed := true, logLength := 1 } := by
    have held : (ofBothSides.locks.request "stage").2.holds
        (ofBothSides.locks.request "stage").1 := holds_ofSides
    rw [reset_of_holds held]
    simp only [resetLocked, stored, planReset, RouteSets.ofDocument_bothSides]
    rfl
  obtain ⟨⟨sets, read, changed⟩, -⟩ := reset_route_sets _ stored Document.isCollection_bothSides
    (isObject_of_entries Document.isCollection_bothSides rfl (by decide)) succeeded
  have live := fun id => (changed.live id).same (Document.mapFloats_id Document.bothSides)
  rw [RouteSets.ofDocument_bothSides] at live
  exact ⟨sets, read, (live "left").trans (by decide), (live "right").trans (by decide)⟩

end Controller

end LayerRouting
