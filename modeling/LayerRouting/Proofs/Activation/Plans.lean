import LayerRouting.Proofs.Activation.Flags
import LayerRouting.Proofs.RouteSet.Exclusivity
import Mathlib.Data.List.Pairwise

/-!
# What plans do

A plan records flags of different live route sets (`RouteSets.ownsFlags_switchFlags`,
`RouteSets.ownsFlags_resetFlags`), and both kinds of plan keep groups exclusive. A request to
switch a route set on switches the other members of its group off
(`Document.FlagsSet.isExclusive_of_switch`). A reset lets one target of each group claim it
(`RouteSets.pairwise_apart_resetTargets`), and each live set then has the flag of its target
(`Document.FlagsSet.isExclusive_of_reset`).
-/

namespace LayerRouting

/-- Whether flags are of different live route sets. -/
structure RouteSets.OwnsFlags (sets : RouteSets) (flags : List (String × Bool)) : Prop where
  distinct : (flags.map Prod.fst).Nodup
  live : ∀ flag ∈ flags, (sets.liveSet? flag.1).isSome

/-- An active member of a group, after flags of live route sets were set: it was in the group
before, and was switched on or was on and left alone. -/
theorem Document.FlagsSet.exists_claim {flags : List (String × Bool)}
    {before after : Document Json} (set : FlagsSet flags before after)
    (named : ∀ flag ∈ flags, ((RouteSets.ofDocument before).liveSet? flag.1).isSome)
    {id group : String} {routeSet : RouteSet}
    (live : (RouteSets.ofDocument after).liveSet? id = some routeSet)
    (claims : routeSet.Claims group) :
    ∃ old, (RouteSets.ofDocument before).liveSet? id = some old ∧ old.group? = some group
      ∧ ((id, true) ∈ flags ∨ (id ∉ flags.map Prod.fst ∧ old.active)) := by
  obtain ⟨old, liveBefore, ⟨active, member, rfl⟩ | ⟨unnamed, rfl⟩⟩ := set.exists_live named live
  · obtain ⟨on, inGroup⟩ := claims
    obtain rfl : active = true := on
    exact ⟨old, liveBefore, inGroup, .inl member⟩
  · exact ⟨routeSet, liveBefore, claims.2, .inr ⟨unnamed, claims.1⟩⟩

/-! ## Switching -/

namespace RouteSets

/-- The flags that a request to switch a live route set records. -/
def switchFlags (sets : RouteSets) (id : String) (target : RouteSet) (active : Bool) :
    List (String × Bool) :=
  (id, active) :: (if active then sets.siblings id target else []).map fun entry => (entry.1, false)

/-- The siblings of a route set are the other live members of its group. -/
theorem mem_siblings_iff {sets : RouteSets} (distinct : (sets.map Item.id).Nodup)
    {id other : String} {target set : RouteSet} :
    (other, set) ∈ sets.siblings id target
      ↔ sets.liveSet? other = some set ∧ other ≠ id
        ∧ ∃ group, target.group? = some group ∧ set.group? = some group := by
  rw [siblings]
  split
  · next ungrouped => simp [ungrouped]
  · next group grouped =>
      simp only [groupMembers, List.mem_filter, mem_live_iff distinct, decide_eq_true_eq, grouped]
      grind

theorem nodup_ids_switchFlags {sets : RouteSets} (distinct : (sets.map Item.id).Nodup)
    (id : String) (target : RouteSet) (active : Bool) :
    ((sets.switchFlags id target active).map Prod.fst).Nodup := by
  have siblingIds : ((sets.siblings id target).map Prod.fst).Nodup := by
    rw [siblings]
    split
    · exact List.nodup_nil
    · exact (nodup_ids_live distinct).sublist
        ((List.filter_sublist.trans List.filter_sublist).map _)
  have others : id ∉ (sets.siblings id target).map Prod.fst := by
    rintro member
    obtain ⟨⟨_, set⟩, sibling, rfl⟩ := List.mem_map.mp member
    exact ((mem_siblings_iff distinct).mp sibling).2.1 rfl
  cases active with
  | false => simp [switchFlags]
  | true =>
      simp only [switchFlags, if_true, List.map_cons, List.map_map, Function.comp_def]
      exact List.nodup_cons.mpr ⟨others, siblingIds⟩

/-- Only live route sets are switched. -/
theorem live_of_mem_switchFlags {sets : RouteSets} (distinct : (sets.map Item.id).Nodup)
    {id : String} {target : RouteSet} (live : sets.liveSet? id = some target) {active : Bool} :
    ∀ flag ∈ sets.switchFlags id target active, (sets.liveSet? flag.1).isSome := by
  intro flag member
  rcases List.mem_cons.mp member with rfl | member
  · simp [live]
  · obtain ⟨⟨other, set⟩, sibling, rfl⟩ := List.mem_map.mp member
    split at sibling
    · simp [((mem_siblings_iff distinct).mp sibling).1]
    · cases sibling

/-- The flags of a request to switch a route set are of different live route sets. -/
theorem ownsFlags_switchFlags {sets : RouteSets} (distinct : (sets.map Item.id).Nodup)
    {id : String} {target : RouteSet} (live : sets.liveSet? id = some target) {active : Bool} :
    sets.OwnsFlags (sets.switchFlags id target active) :=
  ⟨nodup_ids_switchFlags distinct id target active, live_of_mem_switchFlags distinct live⟩

/-- Only the target is switched on. -/
theorem eq_of_mem_switchFlags {sets : RouteSets} {id other : String} {target : RouteSet}
    {active : Bool} (member : (other, true) ∈ sets.switchFlags id target active) :
    other = id ∧ active = true := by
  rcases List.mem_cons.mp member with same | member
  · cases same
    exact ⟨rfl, rfl⟩
  · obtain ⟨_, -, off⟩ := List.mem_map.mp member
    cases off

/-- A request to switch a route set on switches all live members of its group. -/
theorem mem_ids_switchFlags {sets : RouteSets} (distinct : (sets.map Item.id).Nodup)
    {id other group : String} {target set : RouteSet} (targetGroup : target.group? = some group)
    (live : sets.liveSet? other = some set) (inGroup : set.group? = some group) :
    other ∈ (sets.switchFlags id target true).map Prod.fst := by
  by_cases same : other = id
  · simp [switchFlags, same]
  · have sibling := (mem_siblings_iff distinct).mpr ⟨live, same, group, targetGroup, inGroup⟩
    simp only [switchFlags, if_true, List.map_cons, List.map_map, Function.comp_def]
    exact List.mem_cons_of_mem _ (List.mem_map_of_mem sibling)

end RouteSets

/-- A request to switch a route set plans to record the flags of the set and its siblings. -/
theorem planSwitch_eq_ok {document : Document Json} {supply : IdSupply} {id : String}
    {active : Bool} {plan : SwitchPlan}
    (planned : planSwitch document supply id active = .ok plan) :
    ∃ target, (RouteSets.ofDocument document).liveSet? id = some target
      ∧ plan.previouslyActive = target.active
      ∧ plan.deactivated
        = ((if active then (RouteSets.ofDocument document).siblings id target else []).filter
            fun entry => entry.2.active).map Prod.fst
      ∧ plan.draft = (Draft.ofDocument document supply).setFlags
          ((RouteSets.ofDocument document).switchFlags id target active) := by
  simp only [planSwitch] at planned
  split at planned
  · cases planned
  · next target live =>
      split at planned
      · cases planned
      · cases planned
        refine ⟨target, live, rfl, rfl, ?_⟩
        simp [Draft.setFlags, RouteSets.switchFlags, List.foldl_map]

/-- A request to switch a route set off is refused if only its group may deactivate it. -/
theorem behavior_ne_of_planSwitch {document : Document Json} {supply : IdSupply} {id : String}
    {active : Bool} {plan : SwitchPlan} {target : RouteSet}
    (planned : planSwitch document supply id active = .ok plan)
    (live : (RouteSets.ofDocument document).liveSet? id = some target) :
    active = false -> target.behavior ≠ .activateOnly := by
  rintro rfl behavior
  simp [planSwitch, live, behavior] at planned

/-- Switching keeps groups exclusive. -/
theorem Document.FlagsSet.isExclusive_of_switch {before after : Document Json} {id : String}
    {target : RouteSet} {active : Bool}
    (set : FlagsSet ((RouteSets.ofDocument before).switchFlags id target active) before after)
    (live : (RouteSets.ofDocument before).liveSet? id = some target)
    (exclusive : (RouteSets.ofDocument before).IsExclusive) :
    (RouteSets.ofDocument after).IsExclusive := by
  have distinct := RouteSets.nodup_ids_ofDocument set.beforeCollection
  have named : ∀ flag ∈ (RouteSets.ofDocument before).switchFlags id target active,
      ((RouteSets.ofDocument before).liveSet? flag.1).isSome :=
    RouteSets.live_of_mem_switchFlags distinct live
  -- When the target is switched on, all members of its group are switched.
  have alone : ∀ {other group : String} {old : RouteSet}, active = true ->
      target.group? = some group -> (RouteSets.ofDocument before).liveSet? other = some old ->
      old.group? = some group ->
      other ∈ ((RouteSets.ofDocument before).switchFlags id target active).map Prod.fst := by
    rintro other group old rfl targetGroup otherLive otherGroup
    exact RouteSets.mem_ids_switchFlags distinct targetGroup otherLive otherGroup
  intro first second firstSet secondSet group firstLive secondLive firstClaims secondClaims
  obtain ⟨firstOld, firstBefore, firstGroup, firstOn⟩ :=
    set.exists_claim named firstLive firstClaims
  obtain ⟨secondOld, secondBefore, secondGroup, secondOn⟩ :=
    set.exists_claim named secondLive secondClaims
  rcases firstOn with firstOn | ⟨firstUnnamed, firstOn⟩ <;>
    rcases secondOn with secondOn | ⟨secondUnnamed, secondOn⟩
  · rw [(RouteSets.eq_of_mem_switchFlags firstOn).1, (RouteSets.eq_of_mem_switchFlags secondOn).1]
  · obtain ⟨rfl, on⟩ := RouteSets.eq_of_mem_switchFlags firstOn
    rw [live] at firstBefore
    cases firstBefore
    exact absurd (alone on firstGroup secondBefore secondGroup) secondUnnamed
  · obtain ⟨rfl, on⟩ := RouteSets.eq_of_mem_switchFlags secondOn
    rw [live] at secondBefore
    cases secondBefore
    exact absurd (alone on secondGroup firstBefore firstGroup) firstUnnamed
  · exact exclusive firstBefore secondBefore ⟨firstOn, firstGroup⟩ ⟨secondOn, secondGroup⟩

/-! ## Resets -/

namespace ResetTarget

/-- Whether a target is an active member of a group. -/
def Claims (target : ResetTarget) (group : String) : Prop :=
  target.active ∧ target.set.group? = some group

/-- Whether two targets claim no group in common. -/
def Apart (left right : ResetTarget) : Prop :=
  ∀ group, left.Claims group -> ¬ right.Claims group

instance : Std.Symm Apart where
  symm _ _ apart group claims other := apart group other claims

/-- The route set of a target with its id. -/
def entry (target : ResetTarget) : String × RouteSet :=
  (target.id, target.set)

/-- The first pass changes flags alone. -/
theorem map_entry_claimGroups (claimed : List String) (targets : List ResetTarget) :
    (claimGroups claimed targets).1.map entry = targets.map entry := by
  fun_induction claimGroups claimed targets <;> simp_all [entry]

/-- The second pass changes flags alone. -/
theorem map_entry_keepUnsucceeded (claimed : List String) (targets : List ResetTarget) :
    (keepUnsucceeded claimed targets).map entry = targets.map entry := by
  fun_induction keepUnsucceeded claimed targets <;> simp_all [entry]

/-- Whether targets claim different groups, none that was claimed before, and groups lists
those claimed before and since. -/
structure Claiming (claimed : List String) (targets : List ResetTarget) (groups : List String) :
    Prop where
  apart : targets.Pairwise Apart
  fresh : ∀ target ∈ targets, ∀ group, target.Claims group -> group ∉ claimed
  listed : ∀ target ∈ targets, ∀ group, target.Claims group -> group ∈ groups
  grows : claimed ⊆ groups

namespace Claiming

variable {claimed groups : List String} {targets : List ResetTarget}

/-- A target that claims no group may come first. -/
theorem cons_idle (claiming : Claiming claimed targets groups) {target : ResetTarget}
    (idle : ∀ group, ¬ target.Claims group) : Claiming claimed (target :: targets) groups where
  apart := List.pairwise_cons.mpr
    ⟨fun _ _ group claims => absurd claims (idle group), claiming.apart⟩
  fresh := List.forall_mem_cons.mpr
    ⟨fun group claims => absurd claims (idle group), claiming.fresh⟩
  listed := List.forall_mem_cons.mpr
    ⟨fun group claims => absurd claims (idle group), claiming.listed⟩
  grows := claiming.grows

/-- A target that claims a new group may come first. -/
theorem cons_claim {target : ResetTarget} {group : String} (claims : target.Claims group)
    (new : group ∉ claimed) (claiming : Claiming (group :: claimed) targets groups) :
    Claiming claimed (target :: targets) groups := by
  have only : ∀ other, target.Claims other -> other = group := by
    intro other otherClaims
    exact Option.some.inj (otherClaims.2.symm.trans claims.2)
  constructor
  · refine List.pairwise_cons.mpr ⟨fun later member other first second => ?_, claiming.apart⟩
    exact claiming.fresh later member other second (by simp [only other first])
  · refine List.forall_mem_cons.mpr ⟨fun other first => by rwa [only other first], ?_⟩
    intro later member other second before
    exact claiming.fresh later member other second (List.mem_cons_of_mem _ before)
  · refine List.forall_mem_cons.mpr ⟨fun other first => ?_, claiming.listed⟩
    exact claiming.grows (by simp [only other first])
  · exact fun other before => claiming.grows (List.mem_cons_of_mem _ before)

end Claiming

/-- In the first pass each group is claimed by one target at most. -/
theorem claiming_claimGroups (claimed : List String) (targets : List ResetTarget) :
    Claiming claimed (claimGroups claimed targets).1 (claimGroups claimed targets).2 := by
  fun_induction claimGroups claimed targets with
  | case1 claimed =>
      exact ⟨List.Pairwise.nil, by simp, by simp, List.Subset.refl claimed⟩
  | case2 claimed target rest group inGroup on taken targets groups split inductionHypothesis =>
      rw [split] at inductionHypothesis
      exact inductionHypothesis.cons_idle fun other claims => Bool.false_ne_true claims.1
  | case3 claimed target rest group inGroup on new targets groups split inductionHypothesis =>
      rw [split] at inductionHypothesis
      exact .cons_claim ⟨on, inGroup⟩ new inductionHypothesis
  | case4 claimed target rest targets groups split idle inductionHypothesis =>
      rw [split] at inductionHypothesis
      exact inductionHypothesis.cons_idle fun other claims => idle other claims.1 claims.2

/-- Whether results claim different groups, only those that their sources claim and some that
were not claimed before. -/
structure Keeping (claimed : List String) (sources results : List ResetTarget) : Prop where
  apart : results.Pairwise Apart
  origin : ∀ result ∈ results, ∀ group, result.Claims group ->
    group ∉ claimed ∨ ∃ source ∈ sources, source.Claims group

namespace Keeping

variable {claimed : List String} {target result : ResetTarget} {rest results : List ResetTarget}

/-- A result that claims no more than its source may come first. -/
theorem cons_kept (keeping : Keeping claimed rest results)
    (inherits : ∀ group, result.Claims group -> target.Claims group)
    (known : ∀ group, target.Claims group -> group ∈ claimed)
    (apart : ∀ source ∈ rest, target.Apart source) :
    Keeping claimed (target :: rest) (result :: results) := by
  constructor
  · refine List.pairwise_cons.mpr ⟨fun later member group claims laterClaims => ?_, keeping.apart⟩
    have own := inherits group claims
    rcases keeping.origin later member group laterClaims with new | ⟨source, inRest, sourceClaims⟩
    · exact new (known group own)
    · exact apart source inRest group own sourceClaims
  · refine List.forall_mem_cons.mpr ⟨fun group claims => ?_, fun later member group claims => ?_⟩
    · exact .inr ⟨target, List.mem_cons_self, inherits group claims⟩
    · exact (keeping.origin later member group claims).imp_right
        fun ⟨source, inRest, sourceClaims⟩ => ⟨source, List.mem_cons_of_mem _ inRest, sourceClaims⟩

/-- A result that claims a new group may come first. -/
theorem cons_claim {group : String} (keeping : Keeping (group :: claimed) rest results)
    (inGroup : result.set.group? = some group) (new : group ∉ claimed)
    (known : ∀ source ∈ rest, ∀ group, source.Claims group -> group ∈ claimed) :
    Keeping claimed (target :: rest) (result :: results) := by
  have only : ∀ other, result.Claims other -> other = group := fun other claims =>
    Option.some.inj (claims.2.symm.trans inGroup)
  constructor
  · refine List.pairwise_cons.mpr ⟨fun later member other claims laterClaims => ?_, keeping.apart⟩
    obtain rfl := only other claims
    rcases keeping.origin later member other laterClaims with fresh | ⟨source, inRest, sourceClaims⟩
    · exact fresh List.mem_cons_self
    · exact new (known source inRest other sourceClaims)
  · refine List.forall_mem_cons.mpr ⟨fun other claims => ?_, fun later member other claims => ?_⟩
    · exact .inl (only other claims ▸ new)
    · exact (keeping.origin later member other claims).imp (mt (List.mem_cons_of_mem _))
        fun ⟨source, inRest, sourceClaims⟩ => ⟨source, List.mem_cons_of_mem _ inRest, sourceClaims⟩

end Keeping

/-- In the second pass only groups that nothing claimed are claimed in addition. -/
theorem keeping_keepUnsucceeded (claimed : List String) {targets : List ResetTarget}
    (apart : targets.Pairwise Apart)
    (known : ∀ target ∈ targets, ∀ group, target.Claims group -> group ∈ claimed) :
    Keeping claimed targets (keepUnsucceeded claimed targets) := by
  fun_induction keepUnsucceeded claimed targets with
  | case1 => exact ⟨List.Pairwise.nil, by simp⟩
  | case2 claimed target rest needs group inGroup taken inductionHypothesis =>
      obtain ⟨targetApart, restApart⟩ := List.pairwise_cons.mp apart
      obtain ⟨targetKnown, restKnown⟩ := List.forall_mem_cons.mp known
      exact (inductionHypothesis restApart restKnown).cons_kept (fun _ own => own)
        targetKnown targetApart
  | case3 claimed target rest needs group inGroup new inductionHypothesis =>
      obtain ⟨-, restApart⟩ := List.pairwise_cons.mp apart
      obtain ⟨-, restKnown⟩ := List.forall_mem_cons.mp known
      have later := inductionHypothesis restApart fun source member other claims =>
        List.mem_cons_of_mem _ (restKnown source member other claims)
      exact later.cons_claim inGroup new restKnown
  | case4 claimed target rest needs ungrouped inductionHypothesis =>
      obtain ⟨targetApart, restApart⟩ := List.pairwise_cons.mp apart
      obtain ⟨targetKnown, restKnown⟩ := List.forall_mem_cons.mp known
      refine (inductionHypothesis restApart restKnown).cons_kept (fun group claims => ?_)
        targetKnown targetApart
      rw [Claims, ungrouped] at claims
      cases claims.2
  | case5 claimed target rest stays inductionHypothesis =>
      obtain ⟨targetApart, restApart⟩ := List.pairwise_cons.mp apart
      obtain ⟨targetKnown, restKnown⟩ := List.forall_mem_cons.mp known
      exact (inductionHypothesis restApart restKnown).cons_kept (fun _ own => own)
        targetKnown targetApart

end ResetTarget

namespace RouteSets

/-- The targets of a reset are the live route sets. -/
theorem map_entry_resetTargets (sets : RouteSets) :
    sets.resetTargets.map ResetTarget.entry = sets.live := by
  rw [resetTargets, ResetTarget.map_entry_keepUnsucceeded, ResetTarget.map_entry_claimGroups,
    List.map_map]
  exact List.map_id _

/-- A reset activates one member of each group at most. -/
theorem pairwise_apart_resetTargets (sets : RouteSets) :
    sets.resetTargets.Pairwise ResetTarget.Apart := by
  have claiming := ResetTarget.claiming_claimGroups [] (sets.live.map ResetTarget.ofLive)
  exact (ResetTarget.keeping_keepUnsucceeded _ claiming.apart claiming.listed).apart

/-- The flags that a reset records. -/
def resetFlags (sets : RouteSets) : List (String × Bool) :=
  (sets.resetTargets.filter ResetTarget.changes).map fun target => (target.id, target.active)

theorem nodup_ids_resetFlags {sets : RouteSets} (distinct : (sets.map Item.id).Nodup) :
    (sets.resetFlags.map Prod.fst).Nodup := by
  have ids : (sets.resetTargets.map ResetTarget.id).Nodup := by
    have listed := nodup_ids_live distinct
    rwa [← map_entry_resetTargets, List.map_map] at listed
  rw [resetFlags, List.map_map]
  exact ids.sublist (List.filter_sublist.map _)

/-- Only live route sets are reset. -/
theorem live_of_mem_resetTargets {sets : RouteSets} (distinct : (sets.map Item.id).Nodup)
    {target : ResetTarget} (member : target ∈ sets.resetTargets) :
    sets.liveSet? target.id = some target.set := by
  have listed : target.entry ∈ sets.live := by
    rw [← map_entry_resetTargets]
    exact List.mem_map_of_mem member
  exact (mem_live_iff distinct).mp listed

/-- Only live route sets get flags from a reset. -/
theorem live_of_mem_resetFlags {sets : RouteSets} (distinct : (sets.map Item.id).Nodup) :
    ∀ flag ∈ sets.resetFlags, (sets.liveSet? flag.1).isSome := by
  intro flag member
  obtain ⟨target, kept, rfl⟩ := List.mem_map.mp member
  simp [live_of_mem_resetTargets distinct (List.mem_of_mem_filter kept)]

/-- The flags of a reset are of different live route sets. -/
theorem ownsFlags_resetFlags {sets : RouteSets} (distinct : (sets.map Item.id).Nodup) :
    sets.OwnsFlags sets.resetFlags :=
  ⟨nodup_ids_resetFlags distinct, live_of_mem_resetFlags distinct⟩

end RouteSets

theorem draft_planReset (document : Document Json) (supply : IdSupply) :
    (planReset document supply).draft
      = (Draft.ofDocument document supply).setFlags (RouteSets.ofDocument document).resetFlags := by
  simp [planReset, Draft.setFlags, RouteSets.resetFlags, List.foldl_map]

/-- A reset makes groups exclusive, whether or not they were. -/
theorem Document.FlagsSet.isExclusive_of_reset {before after : Document Json}
    (set : FlagsSet (RouteSets.ofDocument before).resetFlags before after) :
    (RouteSets.ofDocument after).IsExclusive := by
  have distinct := RouteSets.nodup_ids_ofDocument set.beforeCollection
  have named := RouteSets.live_of_mem_resetFlags distinct
  -- An active member of a group after the reset has a target that claims the group.
  have claimed : ∀ {id group : String} {routeSet : RouteSet},
      (RouteSets.ofDocument after).liveSet? id = some routeSet -> routeSet.Claims group ->
      ∃ target ∈ (RouteSets.ofDocument before).resetTargets, target.id = id
        ∧ target.Claims group := by
    intro id group routeSet live claims
    obtain ⟨old, liveBefore, inGroup, on | ⟨unnamed, on⟩⟩ := set.exists_claim named live claims
    · obtain ⟨target, kept, same⟩ := List.mem_map.mp on
      obtain ⟨rfl, active⟩ := Prod.mk.inj same
      have member := List.mem_of_mem_filter kept
      have held := RouteSets.live_of_mem_resetTargets distinct member
      obtain rfl : old = target.set := Option.some.inj (liveBefore.symm.trans held)
      exact ⟨target, member, rfl, active, inGroup⟩
    · have listed := (RouteSets.mem_live_iff distinct).mpr liveBefore
      rw [← RouteSets.map_entry_resetTargets] at listed
      obtain ⟨target, member, same⟩ := List.mem_map.mp listed
      obtain ⟨rfl, rfl⟩ := Prod.mk.inj same
      have unchanged : ¬ target.changes := fun changes => unnamed
        (List.mem_map.mpr ⟨_, List.mem_map_of_mem (List.mem_filter.mpr ⟨member, changes⟩), rfl⟩)
      refine ⟨target, member, rfl, ?_, inGroup⟩
      simpa [ResetTarget.changes, on] using unchanged
  intro first second firstSet secondSet group firstLive secondLive firstClaims secondClaims
  obtain ⟨firstTarget, firstMember, rfl, firstOn⟩ := claimed firstLive firstClaims
  obtain ⟨secondTarget, secondMember, rfl, secondOn⟩ := claimed secondLive secondClaims
  by_contra different
  have distinctTargets : firstTarget ≠ secondTarget := fun same => different (same ▸ rfl)
  exact (RouteSets.pairwise_apart_resetTargets _).forall firstMember secondMember distinctTargets
    group firstOn secondOn

end LayerRouting
