import LayerRouting.Proofs.Activation.Requests

/-!
# What a request to switch a route set changes

A request that succeeds gives the target the flag that was asked for and, when it switches
the target on, switches the other live members of its group off. Nothing else that is read
of any route set changes (`Controller.switch_route_sets`).
-/

namespace LayerRouting

namespace RouteSets

/-- Whether route sets come from others by a change of live ones, and by nothing else, up to
binary64 numbers if these do not come back exactly. -/
structure Changed (exact : Prop) (change : String -> RouteSet -> RouteSet)
    (before after : RouteSets) : Prop where
  ids : ∀ id, id ∈ after.map Item.id ↔ id ∈ before.map Item.id
  live : ∀ id, GivenBack (Option.map RouteSet.withoutFloats) exact
    ((before.liveSet? id).map (change id)) (after.liveSet? id)
  defaults : ∀ id, GivenBack (Option.map RouteSet.withoutFloats) exact
    (before.defaultSet? id) (after.defaultSet? id)

namespace Changed

variable {exact : Prop} {change : String -> RouteSet -> RouteSet} {before after : RouteSets}

/-- A change of the values of all items. -/
theorem of_values (values : ∀ id, after.values? id = (before.values? id).map fun values =>
    (values.1.map (change id), values.2)) : Changed exact change before after where
  ids id := by rw [mem_ids_iff, mem_ids_iff, values id, Option.isSome_map]
  live id := by
    rw [liveSet?_eq, liveSet?_eq, values id]
    cases before.values? id <;> exact .refl _ _ _
  defaults id := by
    rw [defaultSet?_eq, defaultSet?_eq, values id]
    cases before.values? id <;> exact .refl _ _ _

theorem live_eq (changed : Changed True change before after) (id : String) :
    after.liveSet? id = (before.liveSet? id).map (change id) :=
  (changed.live id).same trivial

/-- A change holds up to binary64 numbers of route sets of the same forms. -/
theorem of_alike (changed : Changed True change before after) {back : RouteSets}
    (alike : after.Alike back) (same : exact -> back = after) :
    Changed exact change before back where
  ids id := (alike.ids id).trans (changed.ids id)
  live id := by
    refine ⟨?_, fun exactly => ?_⟩
    · rw [alike.live id, changed.live_eq id]
    · rw [same exactly, changed.live_eq id]
  defaults id := by
    have kept := (changed.defaults id).same trivial
    refine ⟨?_, fun exactly => ?_⟩
    · rw [alike.defaults id, kept]
    · rw [same exactly, kept]

end Changed

/-- A live route set after a request to switch one on or off. -/
def afterSwitch (id : String) (target : RouteSet) (active : Bool) (other : String)
    (set : RouteSet) : RouteSet :=
  if other = id then { set with active }
  else if active ∧ target.group?.isSome ∧ set.group? = target.group? then
    { set with active := false }
  else set

/-- The ids of the other members of a route set's group that are live and active, in order. -/
def activeSiblings (sets : RouteSets) (id : String) (target : RouteSet) : List String :=
  (sets.live.filter fun entry =>
    entry.1 ≠ id ∧ entry.2.active ∧ target.group?.isSome ∧ entry.2.group? = target.group?).map
      Prod.fst

theorem filter_active_siblings (sets : RouteSets) (id : String) (target : RouteSet) :
    ((sets.siblings id target).filter fun entry => entry.2.active).map Prod.fst
      = sets.activeSiblings id target := by
  rw [siblings, activeSiblings]
  split
  · next ungrouped => simp [ungrouped]
  · next group grouped =>
      simp only [groupMembers, List.filter_filter, grouped, Option.isSome_some]
      congr 2
      funext entry
      grind

/-- A route set that is switched has its flag. -/
theorem afterSwitch_of_mem {sets : RouteSets} (distinct : (sets.map Item.id).Nodup)
    {id other : String} {target set : RouteSet} {active flag : Bool}
    (named : (other, flag) ∈ sets.switchFlags id target active)
    (live : sets.liveSet? other = some set) :
    afterSwitch id target active other set = { set with active := flag } := by
  rcases List.mem_cons.mp named with same | later
  · cases same
    simp [afterSwitch]
  · obtain ⟨⟨_, sibling⟩, listed, same⟩ := List.mem_map.mp later
    cases same
    cases active with
    | false => cases listed
    | true =>
        obtain ⟨siblingLive, different, group, targetGroup, inGroup⟩ :=
          (mem_siblings_iff distinct).mp listed
        obtain rfl : sibling = set := Option.some.inj (siblingLive.symm.trans live)
        simp [afterSwitch, different, targetGroup, inGroup]

/-- A live route set that is not switched stays as it is. -/
theorem afterSwitch_of_not_mem {sets : RouteSets} (distinct : (sets.map Item.id).Nodup)
    {id other : String} {target set : RouteSet} {active : Bool}
    (unnamed : other ∉ (sets.switchFlags id target active).map Prod.fst)
    (live : sets.liveSet? other = some set) :
    afterSwitch id target active other set = set := by
  have different : other ≠ id := by
    rintro rfl
    exact unnamed (by simp [switchFlags])
  rw [afterSwitch, if_neg different, if_neg]
  rintro ⟨rfl, grouped, same⟩
  obtain ⟨group, targetGroup⟩ := Option.isSome_iff_exists.mp grouped
  exact unnamed (mem_ids_switchFlags distinct targetGroup live (same.trans targetGroup))

end RouteSets

namespace Document.FlagsSet

variable {before after : Document Json} {id : String} {target : RouteSet} {active : Bool}

/-- The values of every item after the flags of a request were set, when the values of live
route sets are objects. -/
theorem values?_of_switch
    (set : FlagsSet ((RouteSets.ofDocument before).switchFlags id target active) before after)
    (live : (RouteSets.ofDocument before).liveSet? id = some target)
    (objects : ∀ other, ((RouteSets.ofDocument before).liveSet? other).isSome ->
      (before.resolved.get? other).any Json.isObject) (other : String) :
    (RouteSets.ofDocument after).values? other
      = ((RouteSets.ofDocument before).values? other).map fun values =>
          (values.1.map (RouteSets.afterSwitch id target active other), values.2) := by
  have distinct := RouteSets.nodup_ids_ofDocument set.beforeCollection
  refine set.values?_of_change (RouteSets.live_of_mem_switchFlags distinct live) ?_ ?_ objects other
  · intro flag member routeSet flagLive
    exact RouteSets.afterSwitch_of_mem distinct member flagLive
  · intro id unnamed routeSet idLive
    exact RouteSets.afterSwitch_of_not_mem distinct unnamed idLive

end Document.FlagsSet

namespace Controller

variable {σ : Type} [DocumentStore σ]

/-- The owner's document after a request that succeeds: one with the flags of the request, as the
store has it, whether it was saved or was the same already. -/
theorem switch_kept [LawfulStore σ] (controller : Controller σ) {owner id : String}
    {active : Bool} {document : Document Json} {outcome : SwitchOutcome}
    (stored : DocumentStore.load controller.store owner = .ok document)
    (collection : document.IsCollection)
    (succeeded : (controller.switch owner id active).1 = .ok outcome) :
    ∃ target kept final, (RouteSets.ofDocument document).liveSet? id = some target
      ∧ DocumentStore.load (controller.switch owner id active).2.store owner = .ok final
      ∧ Document.FlagsSet ((RouteSets.ofDocument document).switchFlags id target active)
          document kept
      ∧ (RouteSets.ofDocument kept).Alike (RouteSets.ofDocument final)
      ∧ (LawfulStore.KeepsNumbers σ document -> final = kept)
      ∧ outcome.previouslyActive = target.active
      ∧ outcome.deactivated
        = if active then (RouteSets.ofDocument document).activeSiblings id target else [] := by
  have handled := controller.switch_handled owner id active
  rw [succeeded] at handled
  obtain ⟨report, draft, committed, kept, final, ⟨plan, planned, rfl, rfl⟩, rfl, -, held,
    keeps, returned⟩ := handled.exists_keeps (SwitchPlans.recordsFlags _ id active) stored
  obtain ⟨target, live, previously, deactivated, drafted⟩ := planSwitch_eq_ok planned
  rw [drafted] at keeps
  have set := keeps.flagsSet collection (RouteSets.nodup_ids_switchFlags
    (RouteSets.nodup_ids_ofDocument collection) id target active)
  refine ⟨target, kept, final, live, held, set, returned.alike set.afterCollection,
    fun numbers => returned.eq (keeps.keepsNumbers numbers), previously, ?_⟩
  rw [deactivated]
  cases active with
  | false => rfl
  | true => exact RouteSets.filter_active_siblings _ id target

/-- The values of live route sets are objects when all members of the resolved tree are. -/
theorem isObject_of_entries {document : Document Json} (collection : document.IsCollection)
    {entries : List (String × Json)} (resolved : document.resolved = .object entries)
    (values : ∀ entry ∈ entries, entry.2.isObject) (other : String)
    (live : ((RouteSets.ofDocument document).liveSet? other).isSome) :
    (document.resolved.get? other).any Json.isObject := by
  obtain ⟨set, live⟩ := Option.isSome_iff_exists.mp live
  obtain ⟨-, value, held, -⟩ := (RouteSets.liveSet?_ofDocument_iff collection).mp live
  rw [held]
  rw [resolved] at held
  exact values _ (Entries.mem_of_get? held)

/-- The values of both sides are objects. -/
theorem isObject_sides (other : String)
    (live : ((RouteSets.ofDocument Document.sides).liveSet? other).isSome) :
    (Document.sides.resolved.get? other).any Json.isObject :=
  isObject_of_entries Document.isCollection_sides rfl (by decide) other live

/-- After a request that succeeds the collection has the same ids. Each live route set has
the flag that the request gives it and is otherwise as it was, and so are the defaults: up to
binary64 numbers, and exactly if those of the document come back from the store. The outcome tells
the old flag of the target and, when it is switched on, the other members of its group that were
active, in order. -/
theorem switch_route_sets [LawfulStore σ] (controller : Controller σ) {owner id : String}
    {active : Bool} {document : Document Json} {outcome : SwitchOutcome}
    (stored : DocumentStore.load controller.store owner = .ok document)
    (collection : document.IsCollection)
    (objects : ∀ other, ((RouteSets.ofDocument document).liveSet? other).isSome ->
      (document.resolved.get? other).any Json.isObject)
    (succeeded : (controller.switch owner id active).1 = .ok outcome) :
    ∃ target sets, (RouteSets.ofDocument document).liveSet? id = some target
      ∧ (controller.switch owner id active).2.routeSets owner = .ok sets
      ∧ RouteSets.Changed (LawfulStore.KeepsNumbers σ document)
          (RouteSets.afterSwitch id target active) (RouteSets.ofDocument document) sets
      ∧ outcome.previouslyActive = target.active
      ∧ outcome.deactivated
        = if active then (RouteSets.ofDocument document).activeSiblings id target else [] := by
  obtain ⟨target, kept, final, live, held, set, alike, same, previously, deactivated⟩ :=
    switch_kept controller stored collection succeeded
  refine ⟨target, RouteSets.ofDocument final, live, by rw [routeSets, held], ?_, previously,
    deactivated⟩
  have changed : RouteSets.Changed True (RouteSets.afterSwitch id target active)
      (RouteSets.ofDocument document) (RouteSets.ofDocument kept) :=
    .of_values (set.values?_of_switch live objects)
  exact changed.of_alike alike fun numbers => congrArg RouteSets.ofDocument (same numbers)

/-- Switching the right side on switches the left side off. -/
theorem switch_route_sets_of_sides :
    ∃ sets, (ofSides.switch "stage" "right" true).2.routeSets "stage" = .ok sets
      ∧ sets.liveSet? "left" = some { RouteSets.leftSide with active := false }
      ∧ sets.liveSet? "right" = some { RouteSets.rightSide with active := true } := by
  have succeeded : (ofSides.switch "stage" "right" true).1
      = .ok { routeSetId := "right", active := true, previouslyActive := false,
              deactivated := ["left"], committed := true, logLength := 2 } := by
    rw [switch_of_holds holds_ofSides]
    simp only [switchLocked, load_ofSides, planSwitch, RouteSets.ofDocument_sides]
    rfl
  obtain ⟨target, sets, live, read, changed, -⟩ :=
    switch_route_sets ofSides load_ofSides Document.isCollection_sides isObject_sides succeeded
  have lives := fun other => (changed.live other).same (Document.mapFloats_id Document.sides)
  rw [RouteSets.ofDocument_sides] at live lives
  obtain rfl : RouteSets.rightSide = target := Option.some.inj live
  exact ⟨sets, read, (lives "left").trans (by decide), (lives "right").trans (by decide)⟩

/-- A request that switches a route set off reports none of the other members of its group,
also when one of them is active, since it leaves them as they are. -/
theorem switch_off_reports_no_siblings :
    ∃ outcome target,
      DocumentStore.load ofSides.store "stage" = .ok Document.sides
        ∧ Document.sides.IsCollection
        ∧ (∀ other, ((RouteSets.ofDocument Document.sides).liveSet? other).isSome ->
            (Document.sides.resolved.get? other).any Json.isObject)
        ∧ (ofSides.switch "stage" "right" false).1 = .ok outcome
        ∧ (RouteSets.ofDocument Document.sides).liveSet? "right" = some target
        ∧ outcome.deactivated = []
        ∧ (RouteSets.ofDocument Document.sides).activeSiblings "right" target = ["left"] := by
  have succeeded : (ofSides.switch "stage" "right" false).1
      = .ok { routeSetId := "right", active := false, previouslyActive := false,
              deactivated := [], committed := true, logLength := 1 } := by
    rw [switch_of_holds holds_ofSides]
    simp only [switchLocked, load_ofSides, planSwitch, RouteSets.ofDocument_sides]
    rfl
  refine ⟨_, RouteSets.rightSide, load_ofSides, Document.isCollection_sides, isObject_sides,
    succeeded, ?_, rfl, ?_⟩
  · rw [RouteSets.ofDocument_sides]
    rfl
  · rw [RouteSets.ofDocument_sides]
    decide

end Controller

end LayerRouting
