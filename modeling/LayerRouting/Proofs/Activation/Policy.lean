import LayerRouting.Proofs.Activation.Resetting
import LayerRouting.Proofs.Activation.Runs

/-!
# Route sets that only their group deactivates

A route set that may be activated only is never deactivated by a request that names it. What
a request does to a document is one of a few things (`Document.Transition`), and by each of
them such a set is deactivated only when another member of its group is active afterwards
(`Document.Transition.keepsPolicy`). That holds for every step of every run
(`Controller.Reaches.activateOnly`).
-/

namespace LayerRouting

namespace RouteSets

/-- Whether another member of a route set's group is active. -/
def IsSucceeded (sets : RouteSets) (id : String) (set : RouteSet) : Prop :=
  ∃ group other otherSet, set.group? = some group ∧ other ≠ id
    ∧ sets.liveSet? other = some otherSet ∧ otherSet.Claims group

variable {sets : RouteSets}

/-- The winner of a group is a live member of it. -/
theorem exists_of_resetWinner? (distinct : (sets.map Item.id).Nodup) {group winner : String}
    (wins : sets.resetWinner? group = some winner) :
    ∃ set, sets.liveSet? winner = some set ∧ set.group? = some group := by
  have member : ∀ chosen, sets.firstMember? group chosen = some winner ->
      ∃ set, sets.liveSet? winner = some set ∧ set.group? = some group := by
    intro chosen first
    obtain ⟨⟨_, set⟩, found, rfl⟩ := Option.map_eq_some_iff.mp first
    obtain ⟨live, grouped⟩ := List.mem_filter.mp (List.mem_of_find?_eq_some found)
    exact ⟨set, (mem_live_iff distinct).mp live, of_decide_eq_true grouped⟩
  rcases Option.or_eq_some_iff.mp wins with first | ⟨-, first⟩
  · exact member _ first
  · exact member _ first

/-- A group with a held member has a winner. -/
theorem isSome_resetWinner? (distinct : (sets.map Item.id).Nodup) {id group : String}
    {set : RouteSet} (live : sets.liveSet? id = some set) (grouped : set.group? = some group)
    (held : set.isHeld) : (sets.resetWinner? group).isSome := by
  have member : (id, set) ∈ sets.groupMembers group :=
    List.mem_filter.mpr ⟨(mem_live_iff distinct).mpr live, decide_eq_true grouped⟩
  have found : (sets.firstMember? group RouteSet.isHeld).isSome := by
    rw [firstMember?, Option.isSome_map, List.find?_isSome]
    exact ⟨(id, set), member, held⟩
  rw [resetWinner?, Option.isSome_or, found, Bool.or_true]

/-- A held set that a request to switch one deactivates is succeeded by the one that is
switched on, since the request may not switch a held set off by itself. -/
theorem active_afterSwitch_or {after : RouteSets} {id other : String} {target set : RouteSet}
    {active : Bool} (changed : Changed True (afterSwitch id target active) sets after)
    (targetLive : sets.liveSet? id = some target)
    (allowed : active = false -> target.behavior ≠ .activateOnly)
    (live : sets.liveSet? other = some set) (held : set.isHeld) :
    (afterSwitch id target active other set).active ∨ after.IsSucceeded other set := by
  obtain ⟨behavior, on⟩ := Bool.and_eq_true_iff.mp held
  rw [afterSwitch]
  split
  · next same =>
      subst same
      obtain rfl := Option.some.inj (targetLive.symm.trans live)
      left
      by_contra off
      exact allowed (Bool.eq_false_of_not_eq_true off) (of_decide_eq_true behavior)
  · next different =>
      split
      · next sibling =>
          obtain ⟨rfl, grouped, sameGroup⟩ := sibling
          obtain ⟨group, targetGroup⟩ := Option.isSome_iff_exists.mp grouped
          have targetNow : after.liveSet? id = some { target with active := true } := by
            rw [changed.live_eq id, targetLive, Option.map_some, afterSwitch, if_pos rfl]
          exact .inr ⟨group, id, _, sameGroup.trans targetGroup, Ne.symm different, targetNow,
            rfl, targetGroup⟩
      · exact .inl on

/-- A held set that a reset deactivates is succeeded by the winner of its group. -/
theorem active_afterReset_or {after : RouteSets} (distinct : (sets.map Item.id).Nodup)
    (changed : Changed True sets.afterReset sets after) {id : String} {set : RouteSet}
    (live : sets.liveSet? id = some set) (held : set.isHeld) :
    (sets.afterReset id set).active ∨ after.IsSucceeded id set := by
  cases grouped : set.group? with
  | none =>
      left
      simp [afterReset, grouped, held]
  | some group =>
      obtain ⟨winner, wins⟩ :=
        Option.isSome_iff_exists.mp (isSome_resetWinner? distinct live grouped held)
      by_cases own : winner = id
      · left
        simp [afterReset, grouped, wins, own]
      · obtain ⟨winnerSet, winnerLive, winnerGroup⟩ := exists_of_resetWinner? distinct wins
        have winnerNow : after.liveSet? winner = some (sets.afterReset winner winnerSet) := by
          rw [changed.live_eq winner, winnerLive, Option.map_some]
        have winnerOn : (sets.afterReset winner winnerSet).active := by
          simp [afterReset, winnerGroup, wins]
        exact .inr ⟨group, winner, _, grouped, own, winnerNow, winnerOn, winnerGroup⟩

/-- Setting a flag is all that a request to switch a route set does to one. -/
theorem afterSwitch_eq (id : String) (target : RouteSet) (active : Bool) (other : String)
    (set : RouteSet) :
    afterSwitch id target active other set
      = { set with active := (afterSwitch id target active other set).active } := by
  simp only [afterSwitch]
  split
  · rfl
  · split <;> rfl

/-- A route set is succeeded among route sets of the same forms. -/
theorem IsSucceeded.of_alike {id : String} {set : RouteSet} (succeeded : sets.IsSucceeded id set)
    {back : RouteSets} (alike : sets.Alike back) : back.IsSucceeded id set := by
  obtain ⟨group, other, otherSet, grouped, different, live, claims⟩ := succeeded
  obtain ⟨backSet, backLive, form⟩ := alike.symm.exists_live live
  exact ⟨group, other, backSet, grouped, different, backLive,
    (RouteSet.claims_iff_of_form form).mp claims⟩

/-- What the policy asks of what comes after some route sets: a live set stays live with
another flag at most, and if it is held it stays active or is succeeded. -/
def KeepsPolicy (exact : Prop) (before after : RouteSets) : Prop :=
  ∀ ⦃id : String⦄ ⦃set : RouteSet⦄, before.liveSet? id = some set ->
    ∃ active, GivenBack (Option.map RouteSet.withoutFloats) exact (some { set with active })
        (after.liveSet? id)
      ∧ (set.isHeld -> active ∨ after.IsSucceeded id set)

/-- The policy is kept up to binary64 numbers by route sets of the same forms. -/
theorem KeepsPolicy.of_alike {exact : Prop} {before after back : RouteSets}
    (keeps : before.KeepsPolicy True after) (alike : after.Alike back)
    (same : exact -> back = after) : before.KeepsPolicy exact back := by
  intro id set live
  obtain ⟨active, given, policy⟩ := keeps live
  refine ⟨active, ⟨(alike.live id).trans given.form, fun exactly => ?_⟩, fun held =>
    (policy held).imp_right fun succeeded => succeeded.of_alike alike⟩
  rw [same exactly, given.same trivial]

end RouteSets

namespace Document

/-- Whether a document is a collection in which the values of live route sets are objects. -/
structure IsRegular (document : Document Json) : Prop where
  collection : document.IsCollection
  objects : ∀ id, ((RouteSets.ofDocument document).liveSet? id).isSome ->
    (document.resolved.get? id).any Json.isObject

/-- A regular document is regular with other binary64 numbers. -/
theorem IsRegular.mapFloats {document : Document Json} (regular : document.IsRegular)
    (change : Binary64 -> Binary64) : (document.mapFloats change).IsRegular where
  collection := regular.collection.mapFloats
  objects id live := by
    rw [(RouteSets.alike_mapFloats regular.collection change).isSome_liveSet? id] at live
    rw [resolved_mapFloats, Json.get?_mapFloats, Option.any_map]
    simpa [Function.comp_def] using regular.objects id live

/-- What a step does to a document: nothing, or what a request to switch a route set plans
that is not refused, or what a reset plans. -/
inductive Transition (before after : Document Json) : Prop where
  | unchanged (same : after = before)
  | switched {id : String} {target : RouteSet} {active : Bool}
      (live : (RouteSets.ofDocument before).liveSet? id = some target)
      (allowed : active = false -> target.behavior ≠ .activateOnly)
      (set : FlagsSet ((RouteSets.ofDocument before).switchFlags id target active) before after)
  | reset (set : FlagsSet (RouteSets.ofDocument before).resetFlags before after)

namespace FlagsSet

variable {flags : List (String × Bool)} {before after : Document Json}

/-- Flags of live route sets keep the values of live ones objects. -/
theorem isRegular (set : FlagsSet flags before after) (regular : before.IsRegular)
    (alive : ∀ flag ∈ flags, ((RouteSets.ofDocument before).liveSet? flag.1).isSome) :
    after.IsRegular where
  collection := set.afterCollection
  objects id live := by
    obtain ⟨routeSet, live⟩ := Option.isSome_iff_exists.mp live
    obtain ⟨old, oldLive, -⟩ := set.exists_live alive live
    obtain ⟨value, held, object⟩ :=
      (Option.any_eq_true _ _).mp (regular.objects id (Option.isSome_of_mem oldLive))
    by_cases named : id ∈ flags.map Prod.fst
    · obtain ⟨⟨id, active⟩, member, rfl⟩ := List.mem_map.mp named
      obtain ⟨flagged, found, flag, -⟩ := set.exists_flagged member held
      rw [found]
      have readable : (flagged.get? "active").isSome := by rw [flag, Option.isSome_some]
      exact Json.isObject_of_get? readable
    · rw [set.resolved.items id named, held]
      exact object

end FlagsSet

namespace Transition

variable {before after : Document Json}

/-- Every transition keeps to the policy, and leaves the values of live route sets objects. -/
theorem keepsPolicy (transition : Transition before after) (regular : before.IsRegular) :
    (RouteSets.ofDocument before).KeepsPolicy True (RouteSets.ofDocument after)
      ∧ after.IsRegular := by
  have distinct := RouteSets.nodup_ids_ofDocument regular.collection
  cases transition with
  | unchanged same =>
      subst same
      refine ⟨fun id set live => ⟨set.active, ?_, fun held => .inl ?_⟩, regular⟩
      · rw [live]
        exact .refl _ _ _
      · exact (Bool.and_eq_true_iff.mp held).2
  | @switched switchedId target active targetLive allowed set =>
      have changed : RouteSets.Changed True (RouteSets.afterSwitch switchedId target active)
          (RouteSets.ofDocument before) (RouteSets.ofDocument after) :=
        .of_values (set.values?_of_switch targetLive regular.objects)
      refine ⟨fun id routeSet live => ⟨_, ?_, RouteSets.active_afterSwitch_or changed targetLive
        allowed live⟩, set.isRegular regular ?_⟩
      · rw [changed.live_eq id, live, Option.map_some, ← RouteSets.afterSwitch_eq]
        exact .refl _ _ _
      · exact RouteSets.live_of_mem_switchFlags distinct targetLive
  | reset set =>
      have changed := set.changed_of_reset regular.objects
      refine ⟨fun id routeSet live => ⟨_, ?_, RouteSets.active_afterReset_or distinct changed
        live⟩, set.isRegular regular ?_⟩
      · rw [changed.live_eq id, live]
        exact .refl _ _ _
      · exact RouteSets.live_of_mem_resetFlags distinct

end Transition

end Document

/-! ## Runs -/

namespace Controller

variable {σ : Type} [DocumentStore σ]

/-- What a step does to an owner's document, which is then left as the store has it. If the numbers
of the document come back, so do those of the one that the step makes of it. -/
theorem Step.transition [LawfulStore σ] {before after : Controller σ} (step : Step before after)
    {owner : String} {document : Document Json}
    (stored : DocumentStore.load before.store owner = .ok document)
    (collection : document.IsCollection) :
    ∃ kept final, DocumentStore.load after.store owner = .ok final
      ∧ Document.Transition document kept ∧ LawfulStore.Returns σ kept final
      ∧ (LawfulStore.KeepsNumbers σ document -> LawfulStore.KeepsNumbers σ kept) := by
  have distinct := RouteSets.nodup_ids_ofDocument collection
  cases step with
  | switch requester id active =>
      obtain ⟨final, held, same | ⟨target, live, allowed, rfl⟩⟩ :=
        before.switch_exists_final stored requester id active
      · exact ⟨document, final, held, .unchanged rfl, .inl same, fun numbers => numbers⟩
      · exact ⟨_, _, held, .switched live allowed
          (.of_setFlags collection _ (RouteSets.nodup_ids_switchFlags distinct id target active)),
          .inr rfl, fun numbers => Document.mapFloats_withFlags_eq numbers _ _⟩
  | reset requester =>
      obtain ⟨final, held, same | rfl⟩ := before.reset_exists_final stored requester
      · exact ⟨document, final, held, .unchanged rfl, .inl same, fun numbers => numbers⟩
      · exact ⟨_, _, held,
          .reset (.of_setFlags collection _ (RouteSets.nodup_ids_resetFlags distinct)),
          .inr rfl, fun numbers => Document.mapFloats_withFlags_eq numbers _ _⟩
  | outside same =>
      exact ⟨document, document, (same owner).trans stored, .unchanged rfl, .inl rfl,
        fun numbers => numbers⟩

/-- A regular document of a run. If the numbers of the document at its start come back, so do
those of this one. -/
structure IsReached (σ : Type) [DocumentStore σ] [LawfulStore σ]
    (document current : Document Json) : Prop where
  regular : current.IsRegular
  numbers : LawfulStore.KeepsNumbers σ document -> LawfulStore.KeepsNumbers σ current

namespace IsReached

variable [LawfulStore σ] {document current : Document Json}

/-- Flags of live route sets that are recorded give another document of the run. -/
theorem withFlags (reached : IsReached σ document current) (supply : IdSupply)
    {flags : List (String × Bool)}
    (owned : (RouteSets.ofDocument current).OwnsFlags flags) :
    IsReached σ document (current.withFlags supply flags) where
  regular := by
    have set : Document.FlagsSet flags current (current.withFlags supply flags) :=
      .of_setFlags reached.regular.collection supply owned.distinct
    exact set.isRegular reached.regular owned.live
  numbers numbers := Document.mapFloats_withFlags_eq (reached.numbers numbers) supply flags

/-- What the store returns is another document of the run. -/
theorem of_returns (reached : IsReached σ document current) {returned : Document Json}
    (returns : LawfulStore.Returns σ current returned) : IsReached σ document returned where
  regular := by
    rcases returns with rfl | rfl
    · exact reached.regular
    · exact reached.regular.mapFloats _
  numbers numbers := by
    have kept := reached.numbers numbers
    rw [returns.eq kept]
    exact kept

end IsReached

/-- Every run keeps the values of an owner's live route sets objects. -/
theorem Reaches.isReached [LawfulStore σ] {start finish : Controller σ}
    (run : Reaches start finish) {owner : String} {document : Document Json}
    (stored : DocumentStore.load start.store owner = .ok document)
    (regular : document.IsRegular) :
    ∃ final, DocumentStore.load finish.store owner = .ok final ∧ IsReached σ document final :=
  run.keeps (fun _ reached supply _ owned => reached.withFlags supply
      (owned reached.regular.collection))
    (fun _ reached => reached.of_returns (.inr rfl)) stored ⟨regular, fun numbers => numbers⟩

/-- Every step of a run keeps to the policy, up to binary64 numbers if those of the document at the
start do not come back. -/
theorem Step.keepsPolicy [LawfulStore σ] {before after : Controller σ} (step : Step before after)
    {owner : String} {document current : Document Json}
    (stored : DocumentStore.load before.store owner = .ok current)
    (reached : IsReached σ document current) :
    ∃ final, DocumentStore.load after.store owner = .ok final ∧ IsReached σ document final
      ∧ (RouteSets.ofDocument current).KeepsPolicy (LawfulStore.KeepsNumbers σ document)
          (RouteSets.ofDocument final) := by
  obtain ⟨kept, final, held, transition, returned, numbers⟩ :=
    step.transition stored reached.regular.collection
  obtain ⟨keeps, regular⟩ := transition.keepsPolicy reached.regular
  have keptReached : IsReached σ document kept :=
    ⟨regular, fun original => numbers (reached.numbers original)⟩
  refine ⟨final, held, keptReached.of_returns returned,
    keeps.of_alike (returned.alike regular.collection) fun original => ?_⟩
  rw [returned.eq (keptReached.numbers original)]

/-- Every run leaves an active set outside groups as it is if only its group may deactivate
it. -/
theorem Reaches.liveSet?_givenBack [LawfulStore σ] {start finish : Controller σ}
    (run : Reaches start finish) {owner : String} {document current : Document Json}
    (stored : DocumentStore.load start.store owner = .ok current)
    (reached : IsReached σ document current) {id : String} {set : RouteSet}
    (live : (RouteSets.ofDocument current).liveSet? id = some set) (held : set.isHeld)
    (ungrouped : set.group? = none) :
    ∃ final, DocumentStore.load finish.store owner = .ok final ∧ IsReached σ document final
      ∧ GivenBack (Option.map RouteSet.withoutFloats) (LawfulStore.KeepsNumbers σ document)
          (some set) ((RouteSets.ofDocument final).liveSet? id) := by
  induction run with
  | refl => exact ⟨current, stored, reached, live ▸ .refl _ _ _⟩
  | step prior transition inductionHypothesis =>
      obtain ⟨middle, middleStored, middleReached, given⟩ := inductionHypothesis
      obtain ⟨final, finalStored, finalReached, keeps⟩ :=
        transition.keepsPolicy middleStored middleReached
      refine ⟨final, finalStored, finalReached, given.trans ?_⟩
      obtain ⟨middleSet, middleLive, form⟩ := Option.map_eq_some_iff.mp given.form
      have on : set.active := (Bool.and_eq_true_iff.mp held).2
      have middleOn : middleSet.active := (RouteSet.active_eq_of_form form).trans on
      have middleHeld : middleSet.isHeld := (RouteSet.isHeld_eq_of_form form).trans held
      obtain ⟨active, back, policy⟩ := keeps middleLive
      rcases policy middleHeld with stays | ⟨group, -, -, grouped, -⟩
      · have same : { middleSet with active := active } = middleSet := by rw [stays, ← middleOn]
        rw [same] at back
        rw [middleLive]
        exact back
      · rw [RouteSet.group?_eq_of_form form, ungrouped] at grouped
        cases grouped

/-- In every state of every run, no request to switch off a route set that may be activated
only succeeds. If the set is active, every step leaves it active or another member of its
group active, and outside groups it stays as it is in every later run: up to binary64 numbers, and
exactly if those of the document at the start come back from the store. -/
theorem Reaches.activateOnly [LawfulStore σ] {start middle : Controller σ}
    (run : Reaches start middle) {owner : String} {document : Document Json}
    (stored : DocumentStore.load start.store owner = .ok document)
    (collection : document.IsCollection)
    (objects : ∀ id, ((RouteSets.ofDocument document).liveSet? id).isSome ->
      (document.resolved.get? id).any Json.isObject) :
    ∃ sets, middle.routeSets owner = .ok sets
      ∧ ∀ id set, sets.liveSet? id = some set -> set.behavior = .activateOnly ->
        (∀ outcome, (middle.switch owner id false).1 ≠ .ok outcome)
          ∧ (set.active -> ∀ after, Step middle after -> ∃ later active,
              after.routeSets owner = .ok later
                ∧ GivenBack (Option.map RouteSet.withoutFloats)
                    (LawfulStore.KeepsNumbers σ document) (some { set with active })
                    (later.liveSet? id)
                ∧ (active ∨ later.IsSucceeded id set))
          ∧ (set.active -> set.group? = none -> ∀ finish, Reaches middle finish ->
              ∃ later, finish.routeSets owner = .ok later
                ∧ GivenBack (Option.map RouteSet.withoutFloats)
                    (LawfulStore.KeepsNumbers σ document) (some set) (later.liveSet? id)) := by
  obtain ⟨current, currentStored, reached⟩ := run.isReached stored ⟨collection, objects⟩
  refine ⟨RouteSets.ofDocument current, ?_, fun id set live behavior => ⟨?_, ?_, ?_⟩⟩
  · rw [routeSets, currentStored]
  · intro outcome succeeded
    have handled := middle.switch_handled owner id false
    rw [succeeded] at handled
    cases handled with
    | unchanged again plan | saved again plan =>
        obtain rfl := Except.ok.inj (currentStored.symm.trans again)
        obtain ⟨plan, planned, -, -⟩ := plan
        exact behavior_ne_of_planSwitch planned live rfl behavior
  · intro on after step
    have held : set.isHeld := Bool.and_eq_true_iff.mpr ⟨decide_eq_true behavior, on⟩
    obtain ⟨final, finalStored, -, keeps⟩ := step.keepsPolicy currentStored reached
    obtain ⟨active, given, policy⟩ := keeps live
    refine ⟨RouteSets.ofDocument final, active, ?_, given, policy held⟩
    rw [routeSets, finalStored]
  · intro on ungrouped finish later
    have held : set.isHeld := Bool.and_eq_true_iff.mpr ⟨decide_eq_true behavior, on⟩
    obtain ⟨final, finalStored, -, given⟩ :=
      later.liveSet?_givenBack currentStored reached live held ungrouped
    refine ⟨RouteSets.ofDocument final, ?_, given⟩
    rw [routeSets, finalStored]

end Controller

/-! ## A held side -/

/-- A collection of two route sets of one group that may be activated only, the left one of
which is active. -/
def Document.heldSides : Document Json where
  defaults := .object [
    ("left", .object [("name", .string "Left"), ("active", .bool true),
      ("behavior", .string "ACTIVATE_ONLY"), ("exclusivityGroup", .string "side")]),
    ("right", .object [("name", .string "Right"), ("behavior", .string "ACTIVATE_ONLY"),
      ("exclusivityGroup", .string "side")])]
  log := []

theorem Document.isCollection_heldSides : Document.heldSides.IsCollection :=
  ⟨by decide, by decide, by decide⟩

namespace Controller

/-- A controller of a store in service, in which one owner has a held side. -/
def ofHeldSides : Controller (MonitoredStore MemoryStore) :=
  { ofSides with store := MonitoredStore.ofStore ⟨[("stage", Document.heldSides)]⟩ }

/-- The left side cannot be switched off, and when the right side is switched on the left side
stays active or is succeeded. -/
theorem Reaches.activateOnly_of_heldSides :
    (∀ outcome, (ofHeldSides.switch "stage" "left" false).1 ≠ .ok outcome)
      ∧ ∃ later active, (ofHeldSides.switch "stage" "right" true).2.routeSets "stage" = .ok later
        ∧ later.liveSet? "left"
          = some { RouteSets.leftSide with behavior := .activateOnly, active := active }
        ∧ (active ∨ later.IsSucceeded "left"
            { RouteSets.leftSide with behavior := .activateOnly }) := by
  have stored : DocumentStore.load ofHeldSides.store "stage" = .ok Document.heldSides := rfl
  obtain ⟨sets, read, policy⟩ := Reaches.activateOnly (.refl ofHeldSides) stored
    Document.isCollection_heldSides
    (isObject_of_entries Document.isCollection_heldSides rfl (by decide))
  rw [routeSets, stored] at read
  have same : RouteSets.ofDocument Document.heldSides = sets := Except.ok.inj read
  have listed : RouteSets.ofDocument Document.heldSides
      = [
        { id := "left", computed := some { RouteSets.leftSide with behavior := .activateOnly },
          defaultValue := some { RouteSets.leftSide with behavior := .activateOnly }, ops := [] },
        { id := "right", computed := some { RouteSets.rightSide with behavior := .activateOnly },
          defaultValue := some { RouteSets.rightSide with behavior := .activateOnly }, ops := [] }
      ] :=
    RouteSets.ofDocument_of_ordered (by decide +kernel) (by decide +kernel)
  rw [listed] at same
  subst same
  obtain ⟨unswitched, steps, -⟩ := policy "left" _ rfl rfl
  obtain ⟨later, active, laterRead, given, succeeds⟩ :=
    steps rfl _ (.switch ofHeldSides "stage" "right" true)
  exact ⟨unswitched, later, active, laterRead, given.same (Document.mapFloats_id _), succeeds⟩

end Controller

end LayerRouting
