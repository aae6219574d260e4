import Mathlib.Data.Fintype.Defs
import Mathlib.Data.List.FinRange
import LayerRouting.Proofs.RouteSet.ActiveRoutes
import LayerRouting.Proofs.RouteSet.Exclusivity

/-!
# Which route sets contribute

A live route set that is active in a group claims the group, and of the claims on one group
the first one counts: the other route sets are ignored. `RouteSets.IsIgnored` says so of a
place in a collection, without the list of groups that the contribution of routes builds up,
and `RouteSets.contributing_eq` says that the sets that contribute are the active ones that
are not ignored.

The check of exclusivity collects the claims of each group in a pass of its own.
`RouteSets.agreesOnConflicts` says that the two passes agree.
-/

namespace LayerRouting

/-- The route set of an item, if it is live and active. -/
def Item.activeSet? (item : Item RouteSet) : Option RouteSet :=
  item.computed.filter RouteSet.active

/-- The group that an item claims: that of its route set, if it is live and active. -/
def Item.claim? (item : Item RouteSet) : Option String :=
  item.activeSet?.bind RouteSet.group?

namespace RouteSets

/-- The active live route sets, in order. -/
def activeSets (sets : RouteSets) : List RouteSet :=
  sets.filterMap Item.activeSet?

/-- The routes with an output layer that the active live route sets hold, in order. -/
def offeredRoutes (sets : RouteSets) : List Route :=
  (sets.activeSets.flatMap RouteSet.routes).filter fun route => route.output?.isSome

/-- The items that claim a group, in order. -/
def claimants (sets : RouteSets) (group : String) : RouteSets :=
  sets.filter fun item => item.claim? = some group

/-- Whether the route set at a place is ignored: it claims a group that an earlier one claims. -/
def IsIgnored (sets : RouteSets) (place : Fin sets.length) : Prop :=
  sets[place].claim?.isSome ∧ ∃ earlier, earlier < place ∧ sets[earlier].claim? = sets[place].claim?

instance (sets : RouteSets) (place : Fin sets.length) : Decidable (sets.IsIgnored place) :=
  inferInstanceAs (Decidable (_ ∧ _))

/-- The collection without the route sets that are ignored. -/
def unignored (sets : RouteSets) : RouteSets :=
  ((List.finRange sets.length).filter fun place => ¬ sets.IsIgnored place).map fun place =>
    sets[place]

/-! ## One pass with the groups that are claimed -/

/-- The collection without the route sets that are ignored, when some groups are claimed
before its first item. -/
def unclaimed (claimed : List String) (sets : RouteSets) : RouteSets :=
  ((List.finRange sets.length).filter fun place =>
    ¬ sets.IsIgnored place ∧ ∀ group ∈ claimed, sets[place].claim? ≠ some group).map fun place =>
      sets[place]

theorem unclaimed_nil (sets : RouteSets) : sets.unclaimed [] = sets.unignored := by
  simp [unclaimed, unignored]

theorem not_isIgnored_zero (item : Item RouteSet) (rest : RouteSets) :
    ¬ IsIgnored (item :: rest) (0 : Fin (rest.length + 1)) := by
  rintro ⟨-, earlier, before, -⟩
  exact absurd before (Fin.not_lt_zero earlier)

theorem isIgnored_succ (item : Item RouteSet) (rest : RouteSets) (place : Fin rest.length) :
    IsIgnored (item :: rest) place.succ
      ↔ rest.IsIgnored place ∨ rest[place].claim?.isSome ∧ item.claim? = rest[place].claim? := by
  have shifted : ∀ place : Fin rest.length, (item :: rest)[place.succ] = rest[place] :=
    fun _ => rfl
  simp only [IsIgnored, shifted]
  constructor
  · rintro ⟨claims, earlier, before, same⟩
    cases earlier using Fin.cases with
    | zero => exact .inr ⟨claims, same⟩
    | succ earlier => exact .inl ⟨claims, earlier, Fin.succ_lt_succ_iff.mp before, same⟩
  · rintro (⟨claims, earlier, before, same⟩ | ⟨claims, same⟩)
    · exact ⟨claims, earlier.succ, Fin.succ_lt_succ_iff.mpr before, same⟩
    · exact ⟨claims, 0, Fin.succ_pos place, same⟩

/-- Picking the items of a list by their places, the first one apart. -/
theorem map_filter_finRange_cons {α : Type} (item : α) (rest : List α)
    (keep : Fin (rest.length + 1) -> Bool) :
    ((List.finRange (item :: rest).length).filter keep).map (fun place => (item :: rest)[place])
      = (if keep 0 then [item] else [])
        ++ ((List.finRange rest.length).filter fun place => keep place.succ).map fun place =>
          rest[place] := by
  have places : List.finRange (item :: rest).length
      = 0 :: (List.finRange rest.length).map Fin.succ := List.finRange_succ
  rw [places, List.filter_cons, List.filter_map]
  by_cases head : keep 0
  · rw [if_pos head, if_pos head, List.map_cons, List.map_map]
    rfl
  · rw [if_neg head, if_neg head, List.map_map]
    rfl

/-- Only which groups are claimed matters, not how often. -/
theorem unclaimed_congr {claimed other : List String}
    (same : ∀ group, group ∈ claimed ↔ group ∈ other) (sets : RouteSets) :
    sets.unclaimed claimed = sets.unclaimed other := by
  simp only [unclaimed, same]

/-- An item whose group is not claimed stays, and claims its group for the items after it. -/
theorem unclaimed_cons (claimed : List String) (item : Item RouteSet) (rest : RouteSets) :
    unclaimed claimed (item :: rest)
      = if ∀ group ∈ claimed, item.claim? ≠ some group then
          item :: rest.unclaimed (item.claim?.toList ++ claimed)
        else rest.unclaimed claimed := by
  have first : (¬ IsIgnored (item :: rest) (0 : Fin (rest.length + 1))
        ∧ ∀ group ∈ claimed, item.claim? ≠ some group)
      ↔ ∀ group ∈ claimed, item.claim? ≠ some group :=
    and_iff_right (not_isIgnored_zero item rest)
  have later : ∀ place : Fin rest.length,
      (¬ IsIgnored (item :: rest) place.succ
          ∧ ∀ group ∈ claimed, rest[place].claim? ≠ some group)
        ↔ ¬ rest.IsIgnored place
          ∧ ∀ group ∈ item.claim?.toList ++ claimed, rest[place].claim? ≠ some group := by
    intro place
    rw [isIgnored_succ, not_or, and_assoc]
    refine and_congr_right fun _ => ?_
    generalize item.claim? = own, rest[place].claim? = claim
    cases own <;> cases claim <;> simp [or_imp, forall_and, eq_comm]
  have split : unclaimed claimed (item :: rest)
      = (if ∀ group ∈ claimed, item.claim? ≠ some group then [item] else [])
        ++ rest.unclaimed (item.claim?.toList ++ claimed) := by
    refine (map_filter_finRange_cons item rest _).trans ?_
    refine congrArg₂ _ (if_congr ?_ rfl rfl) (congrArg _ (List.filter_congr fun place _ => ?_))
    · exact decide_eq_true_iff.trans first
    · exact decide_eq_decide.mpr (later place)
  rw [split]
  by_cases new : ∀ group ∈ claimed, item.claim? ≠ some group
  · rw [if_pos new, if_pos new, List.singleton_append]
  · -- The group of the item was claimed before, so the item claims nothing new.
    have known : ∀ group, group ∈ item.claim?.toList ++ claimed ↔ group ∈ claimed := by
      push Not at new
      obtain ⟨own, taken, claim⟩ := new
      intro group
      rw [claim, Option.toList_some, List.singleton_append, List.mem_cons]
      exact or_iff_right_of_imp fun same => same ▸ taken
    rw [if_neg new, if_neg new, List.nil_append, unclaimed_congr known]

/-- What is left contains no further ignored route sets. -/
theorem unclaimed_unclaimed (claimed : List String) (sets : RouteSets) :
    (sets.unclaimed claimed).unclaimed claimed = sets.unclaimed claimed := by
  induction sets generalizing claimed with
  | nil => rfl
  | cons item rest inductionHypothesis =>
      rw [unclaimed_cons]
      split
      · next new => rw [unclaimed_cons, if_pos new, inductionHypothesis]
      · exact inductionHypothesis claimed

theorem claimants_cons (item : Item RouteSet) (rest : RouteSets) (group : String) :
    claimants (item :: rest) group
      = if item.claim? = some group then item :: rest.claimants group
        else rest.claimants group := by
  rw [claimants, List.filter_cons]
  simp only [decide_eq_true_eq]
  rfl

/-- Of the claims on a group the first one is left, unless the group was claimed before. -/
theorem claimants_unclaimed (claimed : List String) (sets : RouteSets) (group : String) :
    (sets.unclaimed claimed).claimants group
      = if group ∈ claimed then [] else (sets.claimants group).take 1 := by
  induction sets generalizing claimed with
  | nil => simp [unclaimed, claimants]
  | cons item rest inductionHypothesis =>
      rw [unclaimed_cons, claimants_cons]
      by_cases claims : item.claim? = some group
      · by_cases taken : group ∈ claimed
        · rw [if_neg fun new => new group taken claims, inductionHypothesis, if_pos taken,
            if_pos taken]
        · have new : ∀ other ∈ claimed, item.claim? ≠ some other := by
            intro other member same
            exact taken (Option.some.inj (claims.symm.trans same) ▸ member)
          rw [if_pos new, claimants_cons, if_pos claims, inductionHypothesis,
            if_pos (by simp [claims]), if_neg taken, if_pos claims]
          rfl
      · have known : group ∈ item.claim?.toList ++ claimed ↔ group ∈ claimed := by
          simp [claims]
        rw [if_neg claims]
        split
        · rw [claimants_cons, if_neg claims, inductionHypothesis, if_congr known rfl rfl]
        · exact inductionHypothesis claimed

/-! ## The route sets that contribute -/

theorem activeSets_cons (item : Item RouteSet) (rest : RouteSets) :
    activeSets (item :: rest) = item.activeSet?.toList ++ rest.activeSets := by
  rw [activeSets, List.filterMap_cons]
  cases item.activeSet? <;> rfl

/-- An item that is not active does not contribute. -/
theorem contributingAfter_live_of_none {item : Item RouteSet} (inactive : item.activeSet? = none)
    (claimed : List String) (rest : RouteSets) :
    contributingAfter claimed (live (item :: rest)) = contributingAfter claimed rest.live := by
  rw [live, List.filterMap_cons]
  cases computed : item.computed with
  | none => rfl
  | some set =>
      have off : ¬ set.active := by simpa [Item.activeSet?, computed] using inactive
      rw [Option.map_some, contributingAfter, if_neg off]
      rfl

/-- An active item contributes unless its group is claimed. -/
theorem contributingAfter_live_of_some {item : Item RouteSet} {set : RouteSet}
    (active : item.activeSet? = some set) (claimed : List String) (rest : RouteSets) :
    contributingAfter claimed (live (item :: rest))
      = if ∀ group ∈ claimed, item.claim? ≠ some group then
          set :: contributingAfter (item.claim?.toList ++ claimed) rest.live
        else contributingAfter claimed rest.live := by
  obtain ⟨computed, on⟩ := Option.filter_eq_some_iff.mp active
  have claim : item.claim? = set.group? := by rw [Item.claim?, active, Option.bind_some]
  rw [live, List.filterMap_cons, computed, Option.map_some, contributingAfter, if_pos on, claim]
  cases set.group? with
  | none => simp [live]
  | some group =>
      dsimp only
      by_cases taken : group ∈ claimed
      · rw [if_pos taken, if_neg fun new => new group taken rfl]
        rfl
      · have new : ∀ other ∈ claimed, some group ≠ some other := by
          rintro other member ⟨⟩
          exact taken member
        rw [if_neg taken, if_pos new]
        rfl

/-- The route sets that contribute when some groups are claimed are the active ones that are
left. -/
theorem contributingAfter_live (claimed : List String) (sets : RouteSets) :
    contributingAfter claimed sets.live = (sets.unclaimed claimed).activeSets := by
  induction sets generalizing claimed with
  | nil => rfl
  | cons item rest inductionHypothesis =>
      rw [unclaimed_cons]
      cases active : item.activeSet? with
      | none =>
          have claim : item.claim? = none := by rw [Item.claim?, active, Option.bind_none]
          rw [contributingAfter_live_of_none active, inductionHypothesis, if_pos (by simp [claim]),
            activeSets_cons, active, claim]
          rfl
      | some set =>
          rw [contributingAfter_live_of_some active, inductionHypothesis, inductionHypothesis]
          split
          · rw [activeSets_cons, active]
            rfl
          · rfl

/-- The route sets that contribute are the active ones that are not ignored. -/
theorem contributing_eq (sets : RouteSets) : sets.contributing = sets.unignored.activeSets := by
  rw [contributing, contributingAfter_live, unclaimed_nil]

/-- The routes that are contributed are those that the sets that are not ignored offer. -/
theorem contributedRoutes_eq (sets : RouteSets) :
    sets.contributedRoutes = sets.unignored.offeredRoutes := by
  rw [contributedRoutes, contributing_eq, offeredRoutes]

/-- Active routes hold the routes that the sets that are not ignored offer. -/
theorem holds_unignored (sets : RouteSets) :
    (ActiveRoutes.ofRouteSets sets).Holds sets.unignored.offeredRoutes :=
  contributedRoutes_eq sets ▸ ActiveRoutes.holds_ofRouteSets sets

theorem mem_of_mem_unignored {sets : RouteSets} {item : Item RouteSet}
    (member : item ∈ sets.unignored) : item ∈ sets := by
  obtain ⟨place, -, rfl⟩ := List.mem_map.mp member
  exact List.getElem_mem place.isLt

/-- Offered routes are routes of live route sets. -/
theorem exists_of_mem_offeredRoutes {sets : RouteSets} {route : Route}
    (member : route ∈ sets.offeredRoutes) :
    ∃ item ∈ sets, ∃ set ∈ item.computed, route ∈ set.routes := by
  obtain ⟨set, active, held⟩ := List.mem_flatMap.mp (List.mem_filter.mp member).1
  obtain ⟨item, listed, computed⟩ := List.mem_filterMap.mp active
  exact ⟨item, listed, set, (Option.filter_eq_some_iff.mp computed).1, held⟩

/-! ## The groups with several claims -/

/-- The active members of a group that the check collects are those that claim it. -/
theorem activeIn_live (group : String) (sets : RouteSets) :
    activeIn group sets.live = (sets.claimants group).map Item.id := by
  induction sets with
  | nil => rfl
  | cons item rest inductionHypothesis =>
      rw [claimants_cons, apply_ite (List.map Item.id), List.map_cons, ← inductionHypothesis, live,
        List.filterMap_cons]
      cases computed : item.computed with
      | none => simp [Item.claim?, Item.activeSet?, computed, live]
      | some set =>
          cases on : set.active <;>
            simp [Item.claim?, Item.activeSet?, Option.filter_some, computed, live, on, activeIn,
              RouteSet.Claims, List.filter_cons, apply_ite (List.map Prod.fst)]

/-- A list of no more than one element has no two of them. -/
theorem length_le_one_iff_pairwise {α : Type} {list : List α} :
    list.length ≤ 1 ↔ list.Pairwise fun _ _ => False := by
  match list with
  | [] | [_] => simp
  | _ :: second :: _ =>
      constructor
      · intro few
        simp at few
      · intro apart
        exact ((List.pairwise_cons.mp apart).1 second List.mem_cons_self).elim

/-- A group has several claims exactly if one of them is ignored. -/
theorem one_lt_length_claimants_iff {sets : RouteSets} {group : String} :
    1 < (sets.claimants group).length
      ↔ ∃ place, sets.IsIgnored place ∧ sets[place].claim? = some group := by
  rw [← not_iff_not, not_lt, length_le_one_iff_pairwise, claimants, List.pairwise_filter,
    List.pairwise_iff_getElem]
  simp only [decide_eq_true_eq]
  constructor
  · rintro apart ⟨place, ⟨-, earlier, before, same⟩, claims⟩
    exact apart earlier place earlier.isLt place.isLt before (same.trans claims) claims
  · intro unignored earlier place earlierInside inside before first second
    refine unignored ⟨⟨place, inside⟩, ⟨?_, ⟨earlier, earlierInside⟩, before, ?_⟩, second⟩
    · exact Option.isSome_iff_exists.mpr ⟨group, second⟩
    · exact first.trans second.symm

/-- Nothing is ignored when the check reports nothing. -/
theorem unignored_eq_self {sets : RouteSets} (unreported : sets.conflicts = []) :
    sets.unignored = sets := by
  have kept : ∀ place, ¬ sets.IsIgnored place := by
    intro place ignored
    obtain ⟨group, claims⟩ := Option.isSome_iff_exists.mp ignored.1
    have several := one_lt_length_claimants_iff.mpr ⟨place, ignored, claims⟩
    have few := conflicts_eq_nil_iff_length.mp unreported group
    rw [activeIn_live, List.length_map] at few
    omega
  rw [unignored, List.filter_eq_self.mpr (by simpa using kept)]
  exact List.map_get_finRange sets

/-! ## Agreement -/

/-- What it means that the check of exclusivity and the contribution of routes agree on a
collection. -/
structure AgreesOnConflicts (sets : RouteSets) : Prop where
  /-- The active routes are those of the active route sets that are not ignored. -/
  contributes : (ActiveRoutes.ofRouteSets sets).Holds sets.unignored.offeredRoutes
  /-- The groups are reported in order of their names, each once. -/
  ordered : (sets.conflicts.map ExclusivityConflict.group).Pairwise (· < ·)
  /-- The groups that are reported are those of ignored route sets. -/
  reported : ∀ group, group ∈ sets.conflicts.map ExclusivityConflict.group
    ↔ ∃ place, sets.IsIgnored place ∧ sets[place].claim? = some group
  /-- A report lists all active live members of its group, in order. -/
  listed : ∀ conflict ∈ sets.conflicts,
    conflict.active = (sets.claimants conflict.group).map Item.id
  /-- Only the first of them contributes. -/
  first : ∀ conflict ∈ sets.conflicts,
    sets.unignored.claimants conflict.group = (sets.claimants conflict.group).take 1
  /-- Without the ignored route sets the active routes are the same. -/
  removed : ActiveRoutes.ofRouteSets sets.unignored = ActiveRoutes.ofRouteSets sets
  /-- If nothing is reported, every active route set contributes all routes that have an output
  layer. -/
  complete : sets.conflicts = [] -> (ActiveRoutes.ofRouteSets sets).Holds sets.offeredRoutes

/-- The check of exclusivity reports exactly the groups of which routes are ignored, and what
is ignored makes no difference. -/
theorem agreesOnConflicts (sets : RouteSets) : sets.AgreesOnConflicts where
  contributes := sets.holds_unignored
  ordered := sets.ordered_conflicts
  reported := by
    intro group
    rw [← one_lt_length_claimants_iff, List.mem_map, ← List.length_map Item.id, ← activeIn_live]
    constructor
    · rintro ⟨conflict, member, rfl⟩
      exact (mem_conflicts_iff.mp member).1
    · intro several
      exact ⟨⟨group, activeIn group sets.live⟩, mem_conflicts_iff.mpr ⟨several, rfl⟩, rfl⟩
  listed := by
    intro conflict member
    rw [(mem_conflicts_iff.mp member).2, activeIn_live]
  first := by
    intro conflict _
    rw [← unclaimed_nil, claimants_unclaimed, if_neg List.not_mem_nil]
  removed := by
    rw [ActiveRoutes.ofRouteSets, contributedRoutes_eq, ← unclaimed_nil, ← unclaimed_nil,
      unclaimed_unclaimed, unclaimed_nil, ← contributedRoutes_eq]
    rfl
  complete := by
    intro unreported
    have held := sets.holds_unignored
    rwa [unignored_eq_self unreported] at held

end RouteSets

end LayerRouting
