import LayerRouting.Proofs.Activation.Switching
import LayerRouting.Proofs.Override.Recorded

/-!
# Requests that are made again

A request leaves a log that has nothing left to record for any of its flags, since the flags are
of different items (`Draft.records_setFlags`). So when it has succeeded and is made again at once,
it plans the log that is there: it succeeds, finds the target in the state that was asked for and
no other member of its group active, and saves nothing (`Controller.switch_again`).
-/

namespace LayerRouting

/-! ## Flags that need no more recording -/

/-- Whether a log has nothing left to record for a flag of an item. -/
def Log.RecordsFlag (log : Log) (defaults : Json) (flag : String × Bool) : Prop :=
  log.Records defaults (Path.item flag.1 ++ activeField) (.bool flag.2)

namespace Draft

variable {draft : Draft} {flags : List (String × Bool)}

/-- The flags of other items keep a flag recorded. -/
theorem recordsFlag_setFlags_other (collection : draft.document.IsCollection)
    {flag : String × Bool} (records : draft.log.RecordsFlag draft.defaults flag)
    (unnamed : flag.1 ∉ flags.map Prod.fst) :
    (draft.setFlags flags).log.RecordsFlag draft.defaults flag := by
  induction flags generalizing draft with
  | nil => exact records
  | cons other rest inductionHypothesis =>
      obtain ⟨distinct, later⟩ := not_or.mp (mt List.mem_cons.mpr unnamed)
      have defaults : (draft.setActive other.1 other.2).defaults = draft.defaults :=
        defaults_setPath draft _ _
      have kept : (draft.setActive other.1 other.2).log.RecordsFlag
          (draft.setActive other.1 other.2).defaults flag := by
        rw [defaults]
        exact records.setField_other collection.belowRoot distinct _ _
      rw [← defaults]
      exact inductionHypothesis (isCollection_setActive collection other.1 other.2) kept later

/-- After flags of different items were recorded, nothing is left to record for any of them. -/
theorem records_setFlags (collection : draft.document.IsCollection)
    (distinct : (flags.map Prod.fst).Nodup) :
    ∀ flag ∈ flags, (draft.setFlags flags).log.RecordsFlag draft.defaults flag := by
  induction flags generalizing draft with
  | nil => exact List.forall_mem_nil _
  | cons flag rest inductionHypothesis =>
      obtain ⟨fresh, others⟩ := List.nodup_cons.mp distinct
      have defaults : (draft.setActive flag.1 flag.2).defaults = draft.defaults :=
        defaults_setPath draft _ _
      have collectionNow := isCollection_setActive collection flag.1 flag.2
      have own : (draft.setActive flag.1 flag.2).log.RecordsFlag
          (draft.setActive flag.1 flag.2).defaults flag := by
        rw [defaults]
        exact draft.records_setPath _ _
      rw [← defaults]
      exact List.forall_mem_cons.mpr
        ⟨recordsFlag_setFlags_other collectionNow own fresh,
          inductionHypothesis collectionNow others⟩

/-- Recording flags for which nothing is left to record leaves the draft as it is. -/
theorem setFlags_of_records (records : ∀ flag ∈ flags, draft.log.RecordsFlag draft.defaults flag) :
    draft.setFlags flags = draft := by
  induction flags with
  | nil => rfl
  | cons flag rest inductionHypothesis =>
      obtain ⟨first, later⟩ := List.forall_mem_cons.mp records
      have same : draft.setActive flag.1 flag.2 = draft := setPath_of_records first
      rw [setFlags, List.foldl_cons, same]
      exact inductionHypothesis later

end Draft

/-! ## Documents after a request -/

namespace Document.Keeps

variable {document kept : Document Json} {supply : IdSupply} {flags : List (String × Bool)}

/-- Nothing is left to record for the flags. -/
theorem records (keeps : document.Keeps ((Draft.ofDocument document supply).setFlags flags) kept)
    (collection : document.IsCollection) (distinct : (flags.map Prod.fst).Nodup) :
    ∀ flag ∈ flags, kept.log.RecordsFlag kept.defaults flag := by
  have drafted : (Draft.ofDocument document supply).document.IsCollection := collection
  intro flag member
  rw [keeps.defaults]
  exact (Draft.records_setFlags drafted distinct flag member).of_same keeps.same

end Document.Keeps

/-- Nothing is left to record for a flag in what a store returns. -/
theorem LawfulStore.Returns.recordsFlag {σ : Type} [DocumentStore σ] [LawfulStore σ]
    {document returned : Document Json} (returns : LawfulStore.Returns σ document returned)
    {flag : String × Bool} (records : document.log.RecordsFlag document.defaults flag) :
    returned.log.RecordsFlag returned.defaults flag := by
  rcases returns with rfl | rfl
  · exact records
  · exact Log.Records.mapFloats records

namespace Controller

variable {σ : Type} [DocumentStore σ]

omit [DocumentStore σ] in
/-- After a request that got the lock the next one gets it as well. -/
theorem holds_after {controller : Controller σ} {owner : String}
    (sound : controller.locks.IsSound)
    (held : (controller.locks.request owner).2.holds (controller.locks.request owner).1)
    {after : Controller σ} (locks : after.locks = controller.locks.passed owner) :
    (after.locks.request owner).2.holds (after.locks.request owner).1 := by
  rw [locks]
  exact (sound.passed owner).holds_request (sound.isFree_passed held)

end Controller

/-! ## Switching again -/

namespace RouteSets.Alike

variable {left right : RouteSets} {id : String} {target back : RouteSet}

/-- The siblings of a route set are of the forms of those that it has among route sets of the same
forms. -/
theorem exists_sibling (alike : left.Alike right) (leftDistinct : (left.map Item.id).Nodup)
    (rightDistinct : (right.map Item.id).Nodup)
    (form : back.withoutFloats = target.withoutFloats) {entry : String × RouteSet}
    (sibling : entry ∈ right.siblings id back) :
    ∃ old, (entry.1, old) ∈ left.siblings id target
      ∧ entry.2.withoutFloats = old.withoutFloats := by
  obtain ⟨live, different, group, backGroup, inGroup⟩ :=
    (mem_siblings_iff rightDistinct).mp sibling
  obtain ⟨old, oldLive, oldForm⟩ := alike.exists_live live
  refine ⟨old, (mem_siblings_iff leftDistinct).mpr ⟨oldLive, different, group, ?_, ?_⟩, oldForm⟩
  · rw [← RouteSet.group?_eq_of_form form, backGroup]
  · rw [← RouteSet.group?_eq_of_form oldForm, inGroup]

/-- A request to switch a route set records the same flags among route sets of the same forms. -/
theorem switchFlags_subset (alike : left.Alike right) (leftDistinct : (left.map Item.id).Nodup)
    (rightDistinct : (right.map Item.id).Nodup)
    (form : back.withoutFloats = target.withoutFloats) (active : Bool) :
    right.switchFlags id back active ⊆ left.switchFlags id target active := by
  intro flag member
  rcases List.mem_cons.mp member with rfl | member
  · exact List.mem_cons_self
  · obtain ⟨entry, listed, rfl⟩ := List.mem_map.mp member
    cases active with
    | false => cases listed
    | true =>
        obtain ⟨old, sibling, -⟩ := alike.exists_sibling leftDistinct rightDistinct form listed
        exact List.mem_cons_of_mem _ (List.mem_map.mpr ⟨_, sibling, rfl⟩)

end RouteSets.Alike

namespace Document.FlagsSet

variable {before after : Document Json} {id : String} {target : RouteSet} {active : Bool}

/-- The flags of a request that is made again are among those that were set. -/
theorem switchFlags_subset
    (set : FlagsSet ((RouteSets.ofDocument before).switchFlags id target active) before after)
    (live : (RouteSets.ofDocument before).liveSet? id = some target) :
    (RouteSets.ofDocument after).switchFlags id { target with active } active
      ⊆ (RouteSets.ofDocument before).switchFlags id target active := by
  have distinct := RouteSets.nodup_ids_ofDocument set.beforeCollection
  intro flag member
  rcases List.mem_cons.mp member with rfl | member
  · exact List.mem_cons_self
  · obtain ⟨⟨other, routeSet⟩, listed, rfl⟩ := List.mem_map.mp member
    cases active with
    | false => cases listed
    | true =>
        have distinctAfter := RouteSets.nodup_ids_ofDocument set.afterCollection
        obtain ⟨otherLive, different, group, targetGroup, inGroup⟩ :=
          (RouteSets.mem_siblings_iff distinctAfter).mp listed
        obtain ⟨old, oldLive, origin⟩ :=
          set.exists_live (RouteSets.live_of_mem_switchFlags distinct live) otherLive
        have oldGroup : old.group? = some group := by
          rcases origin with ⟨_, -, rfl⟩ | ⟨-, rfl⟩ <;> exact inGroup
        have sibling := (RouteSets.mem_siblings_iff distinct).mpr
          ⟨oldLive, different, group, targetGroup, oldGroup⟩
        exact List.mem_cons_of_mem _ (List.mem_map.mpr ⟨_, sibling, rfl⟩)

/-- No other member of the group is active when the target was switched on. -/
theorem not_active_of_mem_siblings
    (set : FlagsSet ((RouteSets.ofDocument before).switchFlags id target true) before after)
    (live : (RouteSets.ofDocument before).liveSet? id = some target) {entry : String × RouteSet}
    (sibling : entry ∈ (RouteSets.ofDocument after).siblings id { target with active := true }) :
    ¬ entry.2.active := by
  have distinct := RouteSets.nodup_ids_ofDocument set.beforeCollection
  obtain ⟨entryLive, different, -⟩ :=
    (RouteSets.mem_siblings_iff (RouteSets.nodup_ids_ofDocument set.afterCollection)).mp sibling
  have flagged : (entry.1, false) ∈ (RouteSets.ofDocument before).switchFlags id target true :=
    set.switchFlags_subset live (List.mem_cons_of_mem _ (List.mem_map_of_mem sibling))
  obtain ⟨old, -, ⟨flag, member, same⟩ | ⟨unnamed, -⟩⟩ :=
    set.exists_live (RouteSets.live_of_mem_switchFlags distinct live) entryLive
  · cases flag with
    | false => simp [same]
    | true => exact absurd (RouteSets.eq_of_mem_switchFlags member).1 different
  · exact absurd (List.mem_map_of_mem flagged) unnamed

/-- A request that is made again plans the log that is there, from the state that was asked for and
without another active member of the group, also when the document has come back from a store. -/
theorem exists_planSwitch_again {final : Document Json}
    (set : FlagsSet ((RouteSets.ofDocument before).switchFlags id target active) before after)
    (live : (RouteSets.ofDocument before).liveSet? id = some target)
    (allowed : active = false -> target.behavior ≠ .activateOnly)
    (object : (before.resolved.get? id).any Json.isObject) (collection : final.IsCollection)
    (alike : (RouteSets.ofDocument after).Alike (RouteSets.ofDocument final))
    (records : ∀ flag ∈ (RouteSets.ofDocument before).switchFlags id target active,
      final.log.RecordsFlag final.defaults flag) (supply : IdSupply) :
    ∃ plan, planSwitch final supply id active = .ok plan ∧ plan.previouslyActive = active
      ∧ plan.deactivated = [] ∧ plan.draft = Draft.ofDocument final supply := by
  have distinct := RouteSets.nodup_ids_ofDocument set.afterCollection
  have finalDistinct := RouteSets.nodup_ids_ofDocument collection
  have liveAfter := set.liveSet?_of_isObject List.mem_cons_self live object
  obtain ⟨now, liveNow, form⟩ := alike.symm.exists_live liveAfter
  have behavior : now.behavior = target.behavior := (congrArg RouteSet.behavior form).symm
  cases planned : planSwitch final supply id active with
  | error refusal =>
      cases active <;> simp_all [planSwitch]
  | ok plan =>
      obtain ⟨again, liveAgain, previously, deactivated, drafted⟩ := planSwitch_eq_ok planned
      obtain rfl := Option.some.inj (liveNow.symm.trans liveAgain)
      refine ⟨plan, rfl, previously.trans (RouteSet.active_eq_of_form form).symm, ?_, ?_⟩
      · rw [deactivated, List.map_eq_nil_iff, List.filter_eq_nil_iff]
        cases active with
        | false => exact List.forall_mem_nil _
        | true =>
            intro entry listed
            obtain ⟨old, sibling, oldForm⟩ :=
              alike.exists_sibling distinct finalDistinct form.symm listed
            rw [RouteSet.active_eq_of_form oldForm]
            exact set.not_active_of_mem_siblings live sibling
      · rw [drafted]
        refine Draft.setFlags_of_records fun flag member => records flag ?_
        exact set.switchFlags_subset live
          (alike.switchFlags_subset distinct finalDistinct form.symm active member)

end Document.FlagsSet

namespace Controller

variable {σ : Type} [DocumentStore σ]

/-- A request that plans the log that is there, where the owner's lock is free. -/
theorem switch_of_unchanged {controller : Controller σ} {owner id : String} {active : Bool}
    (held : (controller.locks.request owner).2.holds (controller.locks.request owner).1)
    {document : Document Json}
    (stored : DocumentStore.load controller.store owner = .ok document) {plan : SwitchPlan}
    (planned : planSwitch document controller.supply id active = .ok plan)
    (same : plan.draft.log.Same document.log) :
    (controller.switch owner id active).1
        = .ok {
            routeSetId := id
            active
            previouslyActive := plan.previouslyActive
            deactivated := plan.deactivated
            committed := false
            logLength := document.log.length }
      ∧ (controller.switch owner id active).2.store = controller.store := by
  have locked : (controller.inside owner).switchLocked owner id active
      = (.ok {
            routeSetId := id
            active
            previouslyActive := plan.previouslyActive
            deactivated := plan.deactivated
            committed := false
            logLength := document.log.length },
          { controller.inside owner with supply := plan.draft.supply }) := by
    simp only [switchLocked, inside, stored, planned, commit, if_pos same]
    rfl
  rw [switch_eq_of_holds held, locked]
  exact ⟨rfl, rfl⟩

/-- When a request has succeeded and is made again at once, it succeeds, finds the route set in the
state that was asked for and no other member of its group active, saves nothing and leaves the
store as it is, with every op and its id. -/
theorem switch_again [LawfulStore σ] (controller : Controller σ)
    (sound : controller.locks.IsSound) {owner id : String} {active : Bool}
    {document : Document Json} {outcome : SwitchOutcome}
    (stored : DocumentStore.load controller.store owner = .ok document)
    (collection : document.IsCollection)
    (objects : ∀ other, ((RouteSets.ofDocument document).liveSet? other).isSome ->
      (document.resolved.get? other).any Json.isObject)
    (succeeded : (controller.switch owner id active).1 = .ok outcome) :
    ((controller.switch owner id active).2.switch owner id active).1
        = .ok {
            routeSetId := id
            active
            previouslyActive := active
            deactivated := []
            committed := false
            logLength := outcome.logLength }
      ∧ ((controller.switch owner id active).2.switch owner id active).2.store
        = (controller.switch owner id active).2.store := by
  have held :=
    holds_of_joined_withLock (fun locked => locked.switchLocked owner id active) succeeded
  have locks : (controller.switch owner id active).2.locks = controller.locks.passed owner := by
    rw [switch_eq_of_holds held]
  have handled := controller.switch_handled owner id active
  rw [succeeded] at handled
  obtain ⟨report, draft, committed, kept, final, ⟨plan, planned, rfl, rfl⟩, rfl, -, loaded, keeps,
    returned⟩ := handled.exists_keeps (SwitchPlans.recordsFlags _ id active) stored
  obtain ⟨target, live, -, -, drafted⟩ := planSwitch_eq_ok planned
  have distinct := RouteSets.nodup_ids_switchFlags (RouteSets.nodup_ids_ofDocument collection) id
    target active
  rw [drafted] at keeps
  have set := keeps.flagsSet collection distinct
  generalize (controller.switch owner id active).2 = after at locks loaded ⊢
  obtain ⟨again, plannedAgain, previously, deactivated, same⟩ :=
    set.exists_planSwitch_again live (behavior_ne_of_planSwitch planned live)
      (objects id (by simp [live])) (returned.isCollection set.afterCollection)
      (returned.alike set.afterCollection)
      (fun flag member => returned.recordsFlag (keeps.records collection distinct flag member))
      after.supply
  obtain ⟨answer, store⟩ := switch_of_unchanged (holds_after sound held locks) loaded plannedAgain
    (same ▸ Log.Same.refl _)
  exact ⟨by rw [answer, previously, deactivated], store⟩

/-- Switching the right side on twice saves once. -/
theorem switch_again_of_sides :
    ((ofSides.switch "stage" "right" true).2.switch "stage" "right" true).1
        = .ok { routeSetId := "right", active := true, previouslyActive := true,
                deactivated := [], committed := false, logLength := 2 }
      ∧ ((ofSides.switch "stage" "right" true).2.switch "stage" "right" true).2.store
        = (ofSides.switch "stage" "right" true).2.store := by
  have succeeded : (ofSides.switch "stage" "right" true).1
      = .ok { routeSetId := "right", active := true, previouslyActive := false,
              deactivated := ["left"], committed := true, logLength := 2 } := by
    rw [switch_of_holds holds_ofSides]
    simp only [switchLocked, load_ofSides, planSwitch, RouteSets.ofDocument_sides]
    rfl
  exact switch_again ofSides LockTable.isSound_empty load_ofSides Document.isCollection_sides
    isObject_sides succeeded

end Controller

end LayerRouting
