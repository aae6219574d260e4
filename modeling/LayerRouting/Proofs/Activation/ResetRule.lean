import LayerRouting.Proofs.Activation.Plans
import Mathlib.Data.List.Find

/-!
# The rule of resets

A reset goes over the live route sets twice with a list of claimed groups: first only the
first active target of each group stands, then some sets are kept that have no successor. In
each pass a target that is chosen prevails when it is the first one in its group
(`ResetTarget.claimGroups_eq`, `ResetTarget.keepUnsucceeded_eq`). Together they give each
route set a state that is told by its group alone (`RouteSets.resetTargets_eq`): the first
member whose default state is active wins the group, or else the first active one that only
its group may deactivate.
-/

namespace LayerRouting

/-! ## The rule -/

/-- The default state of a route set, or its present state if it has no default. -/
def RouteSet.defaultState (set : RouteSet) : Bool :=
  set.defaultActive.getD set.active

/-- Whether a route set is active and only its group may deactivate it. -/
def RouteSet.isHeld (set : RouteSet) : Bool :=
  set.behavior = .activateOnly && set.active

namespace RouteSets

/-- The first chosen member of a group. -/
def firstMember? (sets : RouteSets) (group : String) (chosen : RouteSet -> Bool) : Option String :=
  ((sets.groupMembers group).find? fun entry => chosen entry.2).map Prod.fst

/-- The member of a group that a reset leaves active: the first whose default state is active
or, if there is none, the first that is held. -/
def resetWinner? (sets : RouteSets) (group : String) : Option String :=
  (sets.firstMember? group RouteSet.defaultState).or (sets.firstMember? group RouteSet.isHeld)

/-- A live route set after a reset. Outside groups it is in its default state, and active if
it is held. -/
def afterReset (sets : RouteSets) (id : String) (set : RouteSet) : RouteSet :=
  let active :=
    match set.group? with
    | some group => decide (sets.resetWinner? group = some id)
    | none => set.defaultState || set.isHeld
  { set with active }

end RouteSets

/-! ## Passes -/

namespace ResetTarget

/-- The first chosen target in a group. -/
def firstIn? (chosen : ResetTarget -> Bool) (group : String) (targets : List ResetTarget) :
    Option String :=
  (targets.find? fun target => chosen target && target.set.group? = some group).map id

theorem firstIn?_cons (chosen : ResetTarget -> Bool) (group : String) (target : ResetTarget)
    (rest : List ResetTarget) :
    firstIn? chosen group (target :: rest)
      = if chosen target ∧ target.set.group? = some group then some target.id
        else firstIn? chosen group rest := by
  rw [firstIn?, List.find?_cons]
  by_cases found : chosen target ∧ target.set.group? = some group
  · simp [found]
  · have passed : (chosen target && target.set.group? = some group) = false := by simpa using found
    rw [passed, if_neg found, firstIn?]

/-- Whether a target may prevail among chosen ones: it is in no group, or its group has not
been claimed before and it is the first chosen one in it. -/
def Prevails (claimed : List String) (chosen : ResetTarget -> Bool) (targets : List ResetTarget)
    (target : ResetTarget) : Prop :=
  ∀ group ∈ target.set.group?, group ∉ claimed ∧ firstIn? chosen group targets = some target.id

instance (claimed : List String) (chosen : ResetTarget -> Bool) (targets : List ResetTarget)
    (target : ResetTarget) : Decidable (Prevails claimed chosen targets target) :=
  inferInstanceAs (Decidable (∀ group ∈ target.set.group?, _))

section Prevails

variable {claimed : List String} {chosen : ResetTarget -> Bool} {targets : List ResetTarget}
  {first target : ResetTarget}

/-- The first target of all prevails, if it is chosen, when its group has not been claimed. -/
theorem prevails_first_iff (picked : chosen first) :
    Prevails claimed chosen (first :: targets) first
      ↔ ∀ group ∈ first.set.group?, group ∉ claimed := by
  refine forall₂_congr fun group inGroup => and_iff_left ?_
  rw [firstIn?_cons, if_pos ⟨picked, inGroup⟩]

/-- A target that is not chosen or in no group does not keep others from prevailing. -/
theorem prevails_cons_idle (idle : ∀ group ∈ first.set.group?, ¬ chosen first) :
    Prevails claimed chosen (first :: targets) target ↔ Prevails claimed chosen targets target := by
  refine forall₂_congr fun group _ => ?_
  rw [firstIn?_cons, if_neg fun found => idle group found.2 found.1]

/-- A chosen target keeps the others of its group from prevailing, as if it had claimed the
group. -/
theorem prevails_cons_claim {group : String} (picked : chosen first)
    (grouped : first.set.group? = some group) (different : target.id ≠ first.id) :
    Prevails claimed chosen (first :: targets) target
      ↔ Prevails (group :: claimed) chosen targets target := by
  refine forall₂_congr fun other _ => ?_
  rw [firstIn?_cons, grouped]
  by_cases same : other = group
  · simp [same, picked, different.symm]
  · simp [same, Ne.symm same]

/-- A group that has been claimed may be claimed again. -/
theorem prevails_of_claimed {group : String} (taken : group ∈ claimed) :
    Prevails (group :: claimed) chosen targets target ↔ Prevails claimed chosen targets target := by
  refine forall₂_congr fun other _ => ?_
  have same : other ∈ group :: claimed ↔ other ∈ claimed := by
    rw [List.mem_cons, or_iff_right_iff_imp]
    rintro rfl
    exact taken
  rw [same]

end Prevails

/-- A target after the first pass. -/
def stood (claimed : List String) (targets : List ResetTarget) (target : ResetTarget) :
    ResetTarget :=
  { target with
    active := target.active && decide (Prevails claimed ResetTarget.active targets target) }

/-- A target after the second pass. -/
def kept (claimed : List String) (targets : List ResetTarget) (target : ResetTarget) :
    ResetTarget :=
  { target with
    active := target.active
      || target.needsSuccessor && decide (Prevails claimed needsSuccessor targets target) }

theorem different_of_mem {target : ResetTarget} {rest : List ResetTarget}
    (distinct : ((target :: rest).map id).Nodup) : ∀ later ∈ rest, later.id ≠ target.id := by
  intro later member same
  exact (List.nodup_cons.mp distinct).1 (same ▸ List.mem_map_of_mem member)

/-- In the first pass an active target stays active when it prevails among active ones. -/
theorem claimGroups_eq (claimed : List String) {targets : List ResetTarget}
    (distinct : (targets.map id).Nodup) :
    (claimGroups claimed targets).1 = targets.map (stood claimed targets) := by
  fun_induction claimGroups claimed targets with
  | case1 => rfl
  | case2 claimed target rest group grouped on taken results groups split inductionHypothesis =>
      rw [split] at inductionHypothesis
      obtain rfl : results = _ := inductionHypothesis distinct.of_cons
      refine congrArg₂ List.cons ?_ (List.map_congr_left fun other member => ?_)
      · simp [stood, prevails_first_iff on, grouped, taken]
      · have apart := different_of_mem distinct other member
        simp only [stood, prevails_cons_claim on grouped apart, prevails_of_claimed taken]
  | case3 claimed target rest group grouped on new results groups split inductionHypothesis =>
      rw [split] at inductionHypothesis
      obtain rfl : results = _ := inductionHypothesis distinct.of_cons
      refine congrArg₂ List.cons ?_ (List.map_congr_left fun other member => ?_)
      · simp [stood, prevails_first_iff on, grouped, new]
      · have apart := different_of_mem distinct other member
        simp only [stood, prevails_cons_claim on grouped apart]
  | case4 claimed target rest results groups split idle inductionHypothesis =>
      rw [split] at inductionHypothesis
      obtain rfl : results = _ := inductionHypothesis distinct.of_cons
      have free : ∀ group ∈ target.set.group?, ¬ target.active := fun group grouped on =>
        idle group on grouped
      refine congrArg₂ List.cons ?_ (List.map_congr_left fun other member => ?_)
      · have same : (target.active
            && decide (Prevails claimed ResetTarget.active (target :: rest) target))
              = target.active := by
          rw [Bool.and_eq_left_iff_imp, decide_eq_true_eq]
          intro on group grouped
          exact (idle group on grouped).elim
        rw [stood, same]
      · simp only [stood, prevails_cons_idle free]

/-- In the second pass a target that needs a successor is kept when it prevails among those
that need one. -/
theorem keepUnsucceeded_eq (claimed : List String) {targets : List ResetTarget}
    (distinct : (targets.map id).Nodup) :
    keepUnsucceeded claimed targets = targets.map (kept claimed targets) := by
  fun_induction keepUnsucceeded claimed targets with
  | case1 => rfl
  | case2 claimed target rest needs group grouped taken inductionHypothesis =>
      rw [inductionHypothesis distinct.of_cons, List.map_cons]
      refine congrArg₂ List.cons ?_ (List.map_congr_left fun other member => ?_)
      · simp [kept, prevails_first_iff needs, grouped, taken]
      · have apart := different_of_mem distinct other member
        simp only [kept, prevails_cons_claim needs grouped apart, prevails_of_claimed taken]
  | case3 claimed target rest needs group grouped new inductionHypothesis =>
      rw [inductionHypothesis distinct.of_cons, List.map_cons]
      refine congrArg₂ List.cons ?_ (List.map_congr_left fun other member => ?_)
      · simp [kept, prevails_first_iff needs, needs, grouped, new]
      · have apart := different_of_mem distinct other member
        simp only [kept, prevails_cons_claim needs grouped apart]
  | case4 claimed target rest needs ungrouped inductionHypothesis =>
      have free : ∀ group ∈ target.set.group?, ¬ target.needsSuccessor := by simp [ungrouped]
      rw [inductionHypothesis distinct.of_cons, List.map_cons]
      refine congrArg₂ List.cons ?_ (List.map_congr_left fun other member => ?_)
      · simp [kept, Prevails, needs, ungrouped]
      · simp only [kept, prevails_cons_idle free]
  | case5 claimed target rest stays inductionHypothesis =>
      rw [inductionHypothesis distinct.of_cons, List.map_cons]
      refine congrArg₂ List.cons ?_ (List.map_congr_left fun other member => ?_)
      · simp [kept, stays]
      · simp only [kept, prevails_cons_idle fun _ _ => stays]

/-- The first pass lists the groups that were claimed before and those of active targets. -/
theorem mem_claimed_claimGroups (claimed : List String) (targets : List ResetTarget)
    (group : String) :
    group ∈ (claimGroups claimed targets).2
      ↔ group ∈ claimed ∨ (firstIn? ResetTarget.active group targets).isSome := by
  fun_induction claimGroups claimed targets with
  | case1 => simp [firstIn?]
  | case2 claimed target rest own grouped on taken results groups split inductionHypothesis =>
      rw [split] at inductionHypothesis
      rw [inductionHypothesis, firstIn?_cons, grouped]
      by_cases same : own = group
      · subst same
        simp [on, taken]
      · simp [same]
  | case3 claimed target rest own grouped on new results groups split inductionHypothesis =>
      rw [split] at inductionHypothesis
      rw [inductionHypothesis, firstIn?_cons, grouped]
      by_cases same : own = group
      · subst same
        simp [on]
      · simp [same, Ne.symm same]
  | case4 claimed target rest results groups split idle inductionHypothesis =>
      rw [split] at inductionHypothesis
      rw [inductionHypothesis, firstIn?_cons, if_neg fun found => idle group found.1 found.2]

/-- A target that is the first chosen one in a group is chosen. -/
theorem chosen_of_firstIn? {chosen : ResetTarget -> Bool} {group : String}
    {targets : List ResetTarget} (distinct : (targets.map id).Nodup) {target : ResetTarget}
    (member : target ∈ targets) (first : firstIn? chosen group targets = some target.id) :
    chosen target := by
  obtain ⟨found, search, sameId⟩ := Option.map_eq_some_iff.mp first
  have listed := List.mem_of_find?_eq_some search
  obtain rfl := List.inj_on_of_nodup_map distinct listed member sameId
  have picked := List.find?_some search
  rw [Bool.and_eq_true] at picked
  exact picked.1

end ResetTarget

/-! ## Both passes -/

namespace RouteSets

open ResetTarget (firstIn? Prevails stood kept)

/-- The search for the first chosen target in a group is one among the group's members. -/
theorem firstIn?_map (sets : RouteSets) {chosen : ResetTarget -> Bool} {group : String}
    {target : String × RouteSet -> ResetTarget} {picks : RouteSet -> Bool}
    (sameEntry : ∀ entry, (target entry).entry = entry)
    (same : ∀ entry ∈ sets.live, entry.2.group? = some group ->
      chosen (target entry) = picks entry.2) :
    firstIn? chosen group (sets.live.map target) = sets.firstMember? group picks := by
  have sameId : ResetTarget.id ∘ target = Prod.fst :=
    funext fun entry => congrArg Prod.fst (sameEntry entry)
  have sameSet : ∀ entry, (target entry).set = entry.2 :=
    fun entry => congrArg Prod.snd (sameEntry entry)
  rw [firstIn?, firstMember?, List.find?_map, Option.map_map, sameId, groupMembers,
    List.find?_filter]
  refine congrArg _ (List.find?_congr fun entry member => ?_)
  by_cases grouped : entry.2.group? = some group
  · simp [sameSet, grouped, same entry member grouped]
  · simp [sameSet, grouped]

section Passes

variable {sets : RouteSets}

/-- A live route set after the first pass. -/
def standing (sets : RouteSets) (entry : String × RouteSet) : ResetTarget :=
  stood [] (sets.live.map ResetTarget.ofLive) (.ofLive entry)

theorem firstIn?_ofLive (sets : RouteSets) (group : String) :
    firstIn? ResetTarget.active group (sets.live.map ResetTarget.ofLive)
      = sets.firstMember? group RouteSet.defaultState :=
  firstIn?_map sets (fun _ => rfl) fun _ _ _ => rfl

theorem nodup_ids_ofLive (distinct : (sets.map Item.id).Nodup) :
    ((sets.live.map ResetTarget.ofLive).map ResetTarget.id).Nodup := by
  rw [List.map_map]
  exact nodup_ids_live distinct

/-- After the first pass a member of a group is active when it is the first one whose default
state is active. -/
theorem active_standing (distinct : (sets.map Item.id).Nodup) {entry : String × RouteSet}
    (live : entry ∈ sets.live) {group : String} (grouped : entry.2.group? = some group) :
    (sets.standing entry).active
      = decide (sets.firstMember? group RouteSet.defaultState = some entry.1) := by
  have member : ResetTarget.ofLive entry ∈ sets.live.map ResetTarget.ofLive :=
    List.mem_map_of_mem live
  have prevails : Prevails [] ResetTarget.active (sets.live.map ResetTarget.ofLive) (.ofLive entry)
      ↔ sets.firstMember? group RouteSet.defaultState = some entry.1 := by
    simp [Prevails, ResetTarget.ofLive, grouped, ← firstIn?_ofLive]
  have wants : sets.firstMember? group RouteSet.defaultState = some entry.1 ->
      (ResetTarget.ofLive entry).active := by
    rw [← firstIn?_ofLive]
    exact ResetTarget.chosen_of_firstIn? (nodup_ids_ofLive distinct) member
  rw [standing, stood, Bool.eq_iff_iff, Bool.and_eq_true, decide_eq_true_eq, decide_eq_true_eq,
    prevails]
  exact and_iff_right_of_imp wants

/-- Outside groups the first pass leaves a live route set in its default state. -/
theorem active_standing_of_ungrouped {entry : String × RouteSet}
    (ungrouped : entry.2.group? = none) :
    (sets.standing entry).active = entry.2.defaultState := by
  simp [standing, stood, Prevails, ResetTarget.ofLive, ungrouped, RouteSet.defaultState]

/-- The second pass gives a member of a group the state that the rule of resets gives it. -/
theorem active_kept (distinct : (sets.map Item.id).Nodup) {claimed : List String}
    (listed : ∀ group, group ∈ claimed ↔ (sets.firstMember? group RouteSet.defaultState).isSome)
    {entry : String × RouteSet} (live : entry ∈ sets.live) {group : String}
    (grouped : entry.2.group? = some group) :
    (kept claimed (sets.live.map sets.standing) (sets.standing entry)).active
      = decide (sets.resetWinner? group = some entry.1) := by
  have inGroup : (sets.standing entry).set.group? = some group := grouped
  cases candidate : sets.firstMember? group RouteSet.defaultState with
  | some winner =>
      have lost : ¬ Prevails claimed ResetTarget.needsSuccessor (sets.live.map sets.standing)
          (sets.standing entry) := by
        intro prevails
        exact (prevails group inGroup).1 ((listed group).mpr (by simp [candidate]))
      rw [kept, decide_eq_false lost, Bool.and_false, Bool.or_false,
        active_standing distinct live grouped, resetWinner?, candidate, Option.some_or]
  | none =>
      have idle : ∀ other ∈ sets.live, other.2.group? = some group ->
          (sets.standing other).active = false := by
        intro other otherLive otherGroup
        rw [active_standing distinct otherLive otherGroup, candidate]
        rfl
      have needs : ∀ other ∈ sets.live, other.2.group? = some group ->
          (sets.standing other).needsSuccessor = other.2.isHeld := by
        intro other otherLive otherGroup
        rw [ResetTarget.needsSuccessor, idle other otherLive otherGroup, Bool.not_false,
          Bool.and_true]
        rfl
      have search : firstIn? ResetTarget.needsSuccessor group (sets.live.map sets.standing)
          = sets.firstMember? group RouteSet.isHeld :=
        firstIn?_map sets (fun _ => rfl) needs
      have free : group ∉ claimed := by
        rw [listed, candidate]
        exact Bool.false_ne_true
      have prevails : Prevails claimed ResetTarget.needsSuccessor (sets.live.map sets.standing)
          (sets.standing entry) ↔ sets.firstMember? group RouteSet.isHeld = some entry.1 := by
        simp only [Prevails, inGroup, Option.mem_some_iff, forall_eq', free, search]
        exact and_iff_right not_false
      have picked : sets.firstMember? group RouteSet.isHeld = some entry.1 ->
          (sets.standing entry).needsSuccessor := by
        rw [← search]
        refine ResetTarget.chosen_of_firstIn? ?_ (List.mem_map_of_mem live)
        rw [List.map_map]
        exact nodup_ids_live distinct
      rw [kept, idle entry live grouped, Bool.false_or, resetWinner?, candidate, Option.none_or,
        Bool.eq_iff_iff, Bool.and_eq_true, decide_eq_true_eq, decide_eq_true_eq, prevails]
      exact and_iff_right_of_imp picked

/-- Outside groups the second pass keeps what is held. -/
theorem active_kept_of_ungrouped {claimed : List String} {entry : String × RouteSet}
    (ungrouped : entry.2.group? = none) :
    (kept claimed (sets.live.map sets.standing) (sets.standing entry)).active
      = (entry.2.defaultState || entry.2.isHeld) := by
  have sameSet : (sets.standing entry).set = entry.2 := rfl
  have prevails : Prevails claimed ResetTarget.needsSuccessor (sets.live.map sets.standing)
      (sets.standing entry) := by
    simp [Prevails, sameSet, ungrouped]
  rw [kept, decide_eq_true prevails, ResetTarget.needsSuccessor,
    active_standing_of_ungrouped ungrouped, sameSet]
  cases entry.2.defaultState <;> simp [RouteSet.isHeld]

/-- A reset gives every live route set the state that the rule of resets gives it. -/
theorem resetTargets_eq (distinct : (sets.map Item.id).Nodup) :
    sets.resetTargets = sets.live.map fun entry =>
      { id := entry.1, set := entry.2, active := (sets.afterReset entry.1 entry.2).active } := by
  have listed := ResetTarget.mem_claimed_claimGroups [] (sets.live.map ResetTarget.ofLive)
  simp only [List.not_mem_nil, false_or, firstIn?_ofLive] at listed
  have firstPass : (ResetTarget.claimGroups [] (sets.live.map ResetTarget.ofLive)).1
      = sets.live.map sets.standing := by
    rw [ResetTarget.claimGroups_eq [] (nodup_ids_ofLive distinct), List.map_map]
    rfl
  have standingIds : ((sets.live.map sets.standing).map ResetTarget.id).Nodup := by
    rw [List.map_map]
    exact nodup_ids_live distinct
  rw [resetTargets]
  generalize ResetTarget.claimGroups [] _ = passed at listed firstPass ⊢
  obtain ⟨targets, claimed⟩ := passed
  obtain rfl : targets = _ := firstPass
  simp only [ResetTarget.keepUnsucceeded_eq claimed standingIds, List.map_map]
  refine List.map_congr_left fun entry live => ?_
  have state : (kept claimed (sets.live.map sets.standing) (sets.standing entry)).active
      = (sets.afterReset entry.1 entry.2).active := by
    cases grouped : entry.2.group? with
    | none => rw [active_kept_of_ungrouped grouped, afterReset, grouped]
    | some group => rw [active_kept distinct listed live grouped, afterReset, grouped]
  rw [← state]
  rfl

end Passes

end RouteSets

end LayerRouting
