import LayerRouting.Proofs.Activation.Ordering
import LayerRouting.Proofs.Activation.Repetition

/-!
# Resets that are made again

A reset leaves every live route set in the state that a reset gives it (`RouteSets.afterReset`).
The state can hang on the present states, where a set has no default state and where an active one
is held, so a second reset starts from other states than the first. It comes to the same all the
same, if the sets are in the same order: in each group the member that won wins again
(`RouteSets.ResetFrom.resetWinner?_eq`). The order stays when the defaults have every live set and
the ranks come back from the store. Then a reset that is made again at once reports nothing and
saves nothing (`Controller.reset_again`).

What a reset does hangs on the forms of the live route sets and on their order, and on no binary64
number besides (`RouteSets.active_afterReset_eq`).
-/

namespace LayerRouting

/-! ## Live route sets in order -/

namespace RouteSets

/-- The live route set of an item, if no id is repeated. -/
theorem liveSet?_of_mem {sets : RouteSets} (distinct : (sets.map Item.id).Nodup)
    {item : Item RouteSet} (member : item ∈ sets) : sets.liveSet? item.id = item.computed := by
  obtain ⟨other, found⟩ : ∃ other, sets.find? (·.id = item.id) = some other :=
    Option.isSome_iff_exists.mp (List.find?_isSome.mpr ⟨item, member, by simp⟩)
  have named : other.id = item.id := by simpa using List.find?_some found
  obtain rfl := List.inj_on_of_nodup_map distinct (List.mem_of_find?_eq_some found) member named
  rw [liveSet?, found, Option.bind_some]

/-- The live route sets are in the order of the ids. -/
theorem live_eq_filterMap {sets : RouteSets} (distinct : (sets.map Item.id).Nodup) :
    sets.live = (sets.map Item.id).filterMap fun id =>
      (sets.liveSet? id).map fun set => (id, set) := by
  rw [live, List.filterMap_map]
  refine List.filterMap_congr fun item member => ?_
  rw [Function.comp_apply, liveSet?_of_mem distinct member]

/-- The live route sets after a change that leaves the order of the ids. -/
theorem Changed.live_eq_map {change : String -> RouteSet -> RouteSet} {before after : RouteSets}
    (changed : Changed True change before after) (distinct : (before.map Item.id).Nodup)
    (order : after.map Item.id = before.map Item.id) :
    RouteSets.live after
      = (RouteSets.live before).map fun entry => (entry.1, change entry.1 entry.2) := by
  rw [live_eq_filterMap distinct, live_eq_filterMap (order ▸ distinct), order, List.map_filterMap]
  refine List.filterMap_congr fun id _ => ?_
  rw [changed.live_eq id]
  cases before.liveSet? id <;> rfl

/-! ## Forms in order -/

/-- A live route set with its id, without binary64 numbers. -/
def formEntry (entry : String × RouteSet) : String × RouteSet :=
  (entry.1, entry.2.withoutFloats)

variable {left right : RouteSets}

/-- Route sets of the same forms in the same order have these forms in order. -/
theorem Alike.map_live (alike : left.Alike right) (distinct : (left.map Item.id).Nodup)
    (order : right.map Item.id = left.map Item.id) :
    (RouteSets.live right).map formEntry = (RouteSets.live left).map formEntry := by
  have forms (id : String) (set : Option RouteSet) :
      (set.map fun set => (id, set)).map formEntry
        = (set.map RouteSet.withoutFloats).map fun set => (id, set) := by
    cases set <;> rfl
  rw [live_eq_filterMap distinct, live_eq_filterMap (order ▸ distinct), order, List.map_filterMap,
    List.map_filterMap]
  refine List.filterMap_congr fun id _ => ?_
  rw [forms, forms, alike.live id]

/-- The first chosen member of a group, when what is chosen goes by forms. -/
theorem firstMember?_eq_forms (sets : RouteSets) (group : String) {chosen : RouteSet -> Bool}
    (blind : ∀ set, chosen set.withoutFloats = chosen set) :
    sets.firstMember? group chosen
      = (((sets.live.map formEntry).filter fun entry => entry.2.group? = some group).find?
          fun entry => chosen entry.2).map Prod.fst := by
  rw [List.filter_map, List.find?_map, Option.map_map]
  simp only [Function.comp_def, formEntry, blind]
  rfl

/-- The member that wins a group is determined by the forms in order. -/
theorem resetWinner?_eq_of_live
    (same : (RouteSets.live right).map formEntry = (RouteSets.live left).map formEntry)
    (group : String) : right.resetWinner? group = left.resetWinner? group := by
  have defaults : ∀ set : RouteSet, set.withoutFloats.defaultState = set.defaultState :=
    fun _ => rfl
  have holds : ∀ set : RouteSet, set.withoutFloats.isHeld = set.isHeld := fun _ => rfl
  rw [resetWinner?, resetWinner?, firstMember?_eq_forms _ _ defaults,
    firstMember?_eq_forms _ _ holds, firstMember?_eq_forms _ _ defaults,
    firstMember?_eq_forms _ _ holds, same]

/-- The state that a reset gives a route set is determined by the forms in order. -/
theorem active_afterReset_eq
    (same : (RouteSets.live right).map formEntry = (RouteSets.live left).map formEntry)
    (id : String) {set old : RouteSet} (form : set.withoutFloats = old.withoutFloats) :
    (right.afterReset id set).active = (left.afterReset id old).active := by
  simp only [afterReset, RouteSet.group?_eq_of_form form, RouteSet.defaultState_eq_of_form form,
    RouteSet.isHeld_eq_of_form form, resetWinner?_eq_of_live same]

end RouteSets

/-! ## The rule of resets a second time -/

namespace RouteSets

variable {sets : RouteSets}

/-- A live route set with its id, after a reset. -/
def resetEntry (sets : RouteSets) (entry : String × RouteSet) : String × RouteSet :=
  (entry.1, sets.afterReset entry.1 entry.2)

/-- Whether route sets are what a reset makes of others. -/
structure ResetFrom (before after : RouteSets) : Prop where
  distinct : (before.map Item.id).Nodup
  live : after.live = before.live.map before.resetEntry

/-- After a reset the members of a group are the same. -/
theorem ResetFrom.groupMembers_eq {before after : RouteSets} (reset : ResetFrom before after)
    (group : String) :
    after.groupMembers group = (before.groupMembers group).map before.resetEntry := by
  rw [groupMembers, groupMembers, reset.live, List.filter_map]
  rfl

theorem nodup_ids_groupMembers (distinct : (sets.map Item.id).Nodup) (group : String) :
    ((sets.groupMembers group).map Prod.fst).Nodup :=
  (nodup_ids_live distinct).sublist (List.filter_sublist.map _)

/-- A reset leaves the winner of a group active. -/
theorem active_afterReset_of_grouped {id group : String} {set : RouteSet}
    (grouped : set.group? = some group) :
    (sets.afterReset id set).active = decide (sets.resetWinner? group = some id) := by
  rw [afterReset, grouped]

/-- Outside groups a reset leaves a route set in its default state, or active if it is held. -/
theorem active_afterReset_of_ungrouped {id : String} {set : RouteSet}
    (ungrouped : set.group? = none) :
    (sets.afterReset id set).active = (set.defaultState || set.isHeld) := by
  rw [afterReset, ungrouped]

/-- The state of a member of a group after a reset. -/
theorem active_resetEntry {group : String} {entry : String × RouteSet}
    (member : entry ∈ sets.groupMembers group) :
    (sets.resetEntry entry).2.active = decide (sets.resetWinner? group = some entry.1) :=
  active_afterReset_of_grouped (of_decide_eq_true (List.mem_filter.mp member).2)

/-- The first chosen member of a group is chosen. -/
theorem chosen_of_firstMember? (distinct : (sets.map Item.id).Nodup) {group : String}
    {chosen : RouteSet -> Bool} {entry : String × RouteSet}
    (member : entry ∈ sets.groupMembers group)
    (first : sets.firstMember? group chosen = some entry.1) : chosen entry.2 := by
  obtain ⟨found, search, same⟩ := Option.map_eq_some_iff.mp first
  obtain rfl := List.inj_on_of_nodup_map (nodup_ids_groupMembers distinct group)
    (List.mem_of_find?_eq_some search) member same
  exact List.find?_some (p := fun entry : String × RouteSet => chosen entry.2) search

namespace ResetFrom

variable {before after : RouteSets} {group : String} {chosen : RouteSet -> Bool}

/-- No member of a group is chosen after a reset if none was and none becomes so. -/
theorem firstMember?_eq_none (reset : ResetFrom before after)
    (none : ∀ entry ∈ before.groupMembers group, ¬ chosen (before.resetEntry entry).2) :
    after.firstMember? group chosen = .none := by
  rw [firstMember?, reset.groupMembers_eq, Option.map_eq_none_iff, List.find?_eq_none,
    List.forall_mem_map]
  exact none

/-- The first chosen member of a group is the first one after a reset, if it stays chosen and the
reset makes no other member so. -/
theorem firstMember?_eq_some (reset : ResetFrom before after) {winner : String}
    (first : before.firstMember? group chosen = some winner)
    (kept : ∀ entry ∈ before.groupMembers group, entry.1 = winner -> chosen entry.2 ->
      chosen (before.resetEntry entry).2)
    (narrowed : ∀ entry ∈ before.groupMembers group, chosen (before.resetEntry entry).2 ->
      chosen entry.2 ∨ entry.1 = winner) :
    after.firstMember? group chosen = some winner := by
  have ids := nodup_ids_groupMembers reset.distinct group
  obtain ⟨found, search, rfl⟩ := Option.map_eq_some_iff.mp first
  obtain ⟨picked, earlier, later, split, passed⟩ := List.find?_eq_some_iff_append.mp search
  have member : found ∈ before.groupMembers group := List.mem_of_find?_eq_some search
  rw [split, List.map_append, List.map_cons] at ids
  -- The members in front of the winner are passed over again.
  have again : (before.groupMembers group).find? (fun entry => chosen (before.resetEntry entry).2)
      = some found := by
    refine List.find?_eq_some_iff_append.mpr
      ⟨kept found member rfl picked, earlier, later, split, fun entry front => ?_⟩
    have listed : entry ∈ before.groupMembers group := split ▸ List.mem_append_left _ front
    have different : entry.1 ≠ found.1 := fun same =>
      (List.nodup_append.mp ids).2.2 entry.1 (List.mem_map_of_mem front) found.1
        List.mem_cons_self same
    have unchosen : ¬ chosen entry.2 := by simpa using passed entry front
    have unchosenNow : ¬ chosen (before.resetEntry entry).2 := fun now =>
      (narrowed entry listed now).elim unchosen different
    simpa using unchosenNow
  rw [firstMember?, reset.groupMembers_eq, List.find?_map]
  exact (congrArg (fun found => (found.map before.resetEntry).map Prod.fst) again).trans rfl

/-- A member of a group whose default state is active after a reset had an active default state
before, or it has none and is the winner. -/
theorem defaultState_of_resetEntry {entry : String × RouteSet}
    (member : entry ∈ before.groupMembers group)
    (active : (before.resetEntry entry).2.defaultState) :
    entry.2.defaultState
      ∨ entry.2.defaultActive = none ∧ before.resetWinner? group = some entry.1 := by
  have state := active_resetEntry member
  have default : (before.resetEntry entry).2.defaultActive = entry.2.defaultActive := rfl
  rw [RouteSet.defaultState, default, state] at active
  rw [RouteSet.defaultState]
  cases known : entry.2.defaultActive with
  | none =>
      rw [known] at active
      exact .inr ⟨rfl, of_decide_eq_true active⟩
  | some default =>
      rw [known] at active
      exact .inl active

/-- The winner of a group has an active default state after a reset if it had one before. -/
theorem defaultState_resetEntry {entry : String × RouteSet}
    (member : entry ∈ before.groupMembers group)
    (wins : before.resetWinner? group = some entry.1) (active : entry.2.defaultState) :
    (before.resetEntry entry).2.defaultState := by
  have state := active_resetEntry member
  have default : (before.resetEntry entry).2.defaultActive = entry.2.defaultActive := rfl
  rw [RouteSet.defaultState] at active
  rw [RouteSet.defaultState, default, state, wins]
  cases known : entry.2.defaultActive with
  | none => simp
  | some default => rwa [known] at active

/-- A member of a group is held after a reset if it is the winner and only its group may deactivate
it. -/
theorem isHeld_resetEntry_iff {entry : String × RouteSet}
    (member : entry ∈ before.groupMembers group) :
    (before.resetEntry entry).2.isHeld
      ↔ entry.2.behavior = .activateOnly ∧ before.resetWinner? group = some entry.1 := by
  have behavior : (before.resetEntry entry).2.behavior = entry.2.behavior := rfl
  rw [RouteSet.isHeld, behavior, active_resetEntry member, Bool.and_eq_true, decide_eq_true_eq,
    decide_eq_true_eq]

/-- The member that wins a group wins it again. -/
theorem resetWinner?_eq (reset : ResetFrom before after) (group : String) :
    after.resetWinner? group = before.resetWinner? group := by
  cases first : before.firstMember? group RouteSet.defaultState with
  | some winner =>
      -- A candidate stays the first candidate.
      have wins : before.resetWinner? group = some winner := by
        rw [resetWinner?, first, Option.some_or]
      have again := reset.firstMember?_eq_some first
        (fun entry member same active => defaultState_resetEntry member (same ▸ wins) active)
        (fun entry member active => (defaultState_of_resetEntry member active).imp_right
          fun other => Option.some.inj (other.2.symm.trans wins))
      rw [wins, resetWinner?, again, Option.some_or]
  | none =>
      -- No member becomes a candidate: one that is active now was held before, and its default
      -- state would have been active.
      have wins : before.resetWinner? group = before.firstMember? group RouteSet.isHeld := by
        rw [resetWinner?, first, Option.none_or]
      have idle : ∀ entry ∈ before.groupMembers group, ¬ entry.2.defaultState :=
        List.find?_eq_none.mp (Option.map_eq_none_iff.mp first)
      have noCandidate : after.firstMember? group RouteSet.defaultState = .none := by
        refine reset.firstMember?_eq_none fun entry member active => idle entry member ?_
        rcases defaultState_of_resetEntry member active with before | ⟨noDefault, winner⟩
        · exact before
        · have held := chosen_of_firstMember? reset.distinct member (wins ▸ winner)
          rw [RouteSet.defaultState, noDefault]
          exact (Bool.and_eq_true_iff.mp held).2
      rw [resetWinner?, noCandidate, Option.none_or, wins]
      cases held : before.firstMember? group RouteSet.isHeld with
      | some winner =>
          rw [held] at wins
          exact reset.firstMember?_eq_some held
            (fun entry member same picked => (isHeld_resetEntry_iff member).mpr
              ⟨of_decide_eq_true (Bool.and_eq_true_iff.mp picked).1, same ▸ wins⟩)
            (fun entry member picked => .inr
              (Option.some.inj (((isHeld_resetEntry_iff member).mp picked).2.symm.trans wins)))
      | none =>
          rw [held] at wins
          refine reset.firstMember?_eq_none fun entry member picked => ?_
          have chosen := ((isHeld_resetEntry_iff member).mp picked).2
          rw [wins] at chosen
          cases chosen

/-- A route set is in the state that a second reset gives it. -/
theorem active_afterReset (reset : ResetFrom before after) {id : String} {set : RouteSet}
    (live : (id, set) ∈ after.live) : (after.afterReset id set).active = set.active := by
  rw [reset.live] at live
  obtain ⟨⟨id, old⟩, -, same⟩ := List.mem_map.mp live
  cases same
  have sameGroup : (before.afterReset id old).group? = old.group? := rfl
  have sameDefault : (before.afterReset id old).defaultActive = old.defaultActive := rfl
  have sameBehavior : (before.afterReset id old).behavior = old.behavior := rfl
  cases grouped : old.group? with
  | some group =>
      rw [active_afterReset_of_grouped (sameGroup.trans grouped), reset.resetWinner?_eq,
        active_afterReset_of_grouped grouped]
  | none =>
      have first : (before.afterReset id old).active = (old.defaultState || old.isHeld) :=
        active_afterReset_of_ungrouped grouped
      rw [active_afterReset_of_ungrouped (sameGroup.trans grouped), RouteSet.defaultState,
        RouteSet.isHeld, sameDefault, sameBehavior, first, RouteSet.defaultState, RouteSet.isHeld]
      cases old.defaultActive with
      | none => cases old.active <;> simp
      | some default => cases default <;> cases old.active <;> simp

/-- A second reset changes no state of route sets that have the same forms in the same order. -/
theorem resetTargets_filter_changes (reset : ResetFrom before after) {back : RouteSets}
    (same : (RouteSets.live back).map formEntry = (RouteSets.live after).map formEntry)
    (distinct : (back.map Item.id).Nodup) :
    back.resetTargets.filter ResetTarget.changes = [] := by
  rw [resetTargets_eq distinct, List.filter_eq_nil_iff, List.forall_mem_map]
  intro entry live
  obtain ⟨old, oldLive, sameEntry⟩ := List.mem_map.mp (same ▸ List.mem_map_of_mem live)
  obtain ⟨sameId, form⟩ : old.1 = entry.1 ∧ old.2.withoutFloats = entry.2.withoutFloats :=
    Prod.mk.inj sameEntry
  have state : (back.afterReset entry.1 entry.2).active = entry.2.active := by
    rw [active_afterReset_eq same entry.1 form.symm, ← sameId, reset.active_afterReset oldLive]
    exact RouteSet.active_eq_of_form form
  simp [ResetTarget.changes, state]

end ResetFrom

end RouteSets

/-! ## Resetting again -/

namespace Document

variable {document kept : Document Json} {supply : IdSupply}

/-- The route sets after a reset are what the reset makes of those before, if their values are
objects and the defaults have them. -/
theorem Keeps.resetFrom
    (keeps : document.Keeps (planReset document supply).draft kept)
    (collection : document.IsCollection)
    (objects : ∀ id, ((RouteSets.ofDocument document).liveSet? id).isSome ->
      (document.resolved.get? id).any Json.isObject)
    (defaulted : ∀ id, ((RouteSets.ofDocument document).liveSet? id).isSome ->
      (document.defaults.get? id).isSome) :
    RouteSets.ResetFrom (RouteSets.ofDocument document) (RouteSets.ofDocument kept) := by
  have distinct := RouteSets.nodup_ids_ofDocument collection
  have owned := RouteSets.ownsFlags_resetFlags distinct
  rw [draft_planReset] at keeps
  have order : (RouteSets.ofDocument kept).map Item.id
      = (RouteSets.ofDocument document).map Item.id := by
    rcases keeps.kept with rfl | rfl
    · rfl
    · exact map_id_withFlags collection supply owned fun flag member =>
        ⟨objects flag.1 (owned.live flag member), .inl (defaulted flag.1 (owned.live flag member))⟩
  have changed := (keeps.flagsSet collection owned.distinct).changed_of_reset objects
  exact ⟨distinct, changed.live_eq_map distinct order⟩

end Document

namespace Controller

variable {σ : Type} [DocumentStore σ]

/-- A reset that changes no state, where the owner's lock is free. -/
theorem reset_of_unchanged {controller : Controller σ} {owner : String}
    (held : (controller.locks.request owner).2.holds (controller.locks.request owner).1)
    {document : Document Json}
    (stored : DocumentStore.load controller.store owner = .ok document)
    (unchanged : (RouteSets.ofDocument document).resetTargets.filter ResetTarget.changes = []) :
    (controller.reset owner).1
        = .ok {
            activated := []
            deactivated := []
            committed := false
            logLength := document.log.length }
      ∧ (controller.reset owner).2.store = controller.store := by
  have planned : planReset document controller.supply
      = { activated := [], deactivated := [],
          draft := Draft.ofDocument document controller.supply } := by
    rw [planReset, unchanged]
    rfl
  have same : (Draft.ofDocument document controller.supply).log.Same document.log :=
    Log.Same.refl _
  have locked : (controller.inside owner).resetLocked owner
      = (.ok {
            activated := []
            deactivated := []
            committed := false
            logLength := document.log.length },
          controller.inside owner) := by
    simp only [resetLocked, inside, stored, planned, commit, if_pos same]
    rfl
  rw [reset_eq_of_holds held, locked]
  exact ⟨rfl, rfl⟩

/-- When a reset has succeeded and is made again at once, it succeeds, reports no route set, saves
nothing and leaves the store as it is, if the values of the live route sets are objects, the
defaults have them and the ranks come back from the store. -/
theorem reset_again [LawfulStore σ] (controller : Controller σ)
    (sound : controller.locks.IsSound) {owner : String} {document : Document Json}
    {outcome : ResetOutcome}
    (stored : DocumentStore.load controller.store owner = .ok document)
    (collection : document.IsCollection)
    (objects : ∀ id, ((RouteSets.ofDocument document).liveSet? id).isSome ->
      (document.resolved.get? id).any Json.isObject)
    (defaulted : ∀ id, ((RouteSets.ofDocument document).liveSet? id).isSome ->
      (document.defaults.get? id).isSome)
    (ranks : LawfulStore.KeepsRanks σ document)
    (succeeded : (controller.reset owner).1 = .ok outcome) :
    ((controller.reset owner).2.reset owner).1
        = .ok {
            activated := []
            deactivated := []
            committed := false
            logLength := outcome.logLength }
      ∧ ((controller.reset owner).2.reset owner).2.store = (controller.reset owner).2.store := by
  have held := holds_of_joined_withLock (fun locked => locked.resetLocked owner) succeeded
  have locks : (controller.reset owner).2.locks = controller.locks.passed owner := by
    rw [reset_eq_of_holds held]
  have handled := controller.reset_handled owner
  rw [succeeded] at handled
  obtain ⟨report, draft, committed, kept, final, ⟨rfl, rfl⟩, rfl, -, loaded, keeps, returned⟩ :=
    handled.exists_keeps (ResetPlans.recordsFlags _) stored
  have reset := keeps.resetFrom collection objects defaulted
  have owned := RouteSets.ownsFlags_resetFlags (RouteSets.nodup_ids_ofDocument collection)
  have set := (draft_planReset document controller.supply ▸ keeps).flagsSet collection
    owned.distinct
  have order : (RouteSets.ofDocument final).map Item.id = (RouteSets.ofDocument kept).map Item.id := by
    rcases returned with rfl | rfl
    · rfl
    · refine Document.map_id_mapFloats set.afterCollection (ranks.of_flagsSet set ?_)
      intro flag member
      obtain ⟨value, present, -⟩ :=
        (Option.any_eq_true _ _).mp (objects flag.1 (owned.live flag member))
      exact Option.isSome_of_mem present
  have forms := (returned.alike set.afterCollection).map_live
    (RouteSets.nodup_ids_ofDocument set.afterCollection) order
  have collectionNow := returned.isCollection set.afterCollection
  generalize (controller.reset owner).2 = after at locks loaded ⊢
  exact reset_of_unchanged (holds_after sound held locks) loaded
    (reset.resetTargets_filter_changes forms (RouteSets.nodup_ids_ofDocument collectionNow))

/-- A reset of two active sides that is made twice saves once. -/
theorem reset_again_of_bothSides :
    ((ofBothSides.reset "stage").2.reset "stage").1
        = .ok { activated := [], deactivated := [], committed := false, logLength := 1 }
      ∧ ((ofBothSides.reset "stage").2.reset "stage").2.store
        = (ofBothSides.reset "stage").2.store := by
  have stored : DocumentStore.load ofBothSides.store "stage" = .ok Document.bothSides := rfl
  have succeeded : (ofBothSides.reset "stage").1
      = .ok { activated := [], deactivated := ["right"], committed := true, logLength := 1 } := by
    have held : (ofBothSides.locks.request "stage").2.holds
        (ofBothSides.locks.request "stage").1 := holds_ofSides
    rw [reset_of_holds held]
    simp only [resetLocked, stored, planReset, RouteSets.ofDocument_bothSides]
    rfl
  have resolved : Document.bothSides.resolved = Document.bothSides.defaults := rfl
  refine reset_again ofBothSides LockTable.isSound_empty stored Document.isCollection_bothSides
    (isObject_of_entries Document.isCollection_bothSides rfl (by decide)) (fun id live => ?_)
    (fun id => congrArg (Document.rank? · id) (Document.mapFloats_id Document.bothSides)) succeeded
  obtain ⟨set, live⟩ := Option.isSome_iff_exists.mp live
  obtain ⟨-, value, held, -⟩ :=
    (RouteSets.liveSet?_ofDocument_iff Document.isCollection_bothSides).mp live
  rw [← resolved, held, Option.isSome_some]

end Controller

end LayerRouting
