import LayerRouting.Proofs.Json.Entries
import LayerRouting.Proofs.RouteSet.Live

/-!
# Exclusive groups

The check of exclusivity collects the active members of each group and reports the groups
that have several. `RouteSets.conflicts_eq_nil_iff` says what it means that nothing is
reported: no two live route sets of one group are active.
-/

namespace LayerRouting

namespace RouteSet

/-- Whether a route set is an active member of a group. -/
def Claims (set : RouteSet) (group : String) : Prop :=
  set.active ∧ set.group? = some group

instance (set : RouteSet) (group : String) : Decidable (set.Claims group) :=
  inferInstanceAs (Decidable (set.active ∧ set.group? = some group))

end RouteSet

namespace RouteSets

/-- Whether no group has two active live members. -/
def IsExclusive (sets : RouteSets) : Prop :=
  ∀ ⦃id other : String⦄ ⦃set otherSet : RouteSet⦄ ⦃group : String⦄,
    sets.liveSet? id = some set -> sets.liveSet? other = some otherSet ->
    set.Claims group -> otherSet.Claims group -> id = other

/-! ## The active members of each group -/

/-- Adds a live route set to the active members of its group. -/
def addActive (groups : List (String × List String)) (entry : String × RouteSet) :
    List (String × List String) :=
  match entry.2.active, entry.2.group? with
  | true, some group =>
      Entries.insertSorted group ((Entries.get? group groups).getD [] ++ [entry.1]) groups
  | _, _ => groups

theorem activeByGroup_eq (sets : RouteSets) :
    sets.activeByGroup = sets.live.foldl addActive [] :=
  rfl

/-- The ids of the active members of a group among live route sets. -/
def activeIn (group : String) (live : List (String × RouteSet)) : List String :=
  (live.filter fun entry => entry.2.Claims group).map Prod.fst

theorem ordered_addActive {groups : List (String × List String)}
    (ordered : Entries.Ordered groups) (entry : String × RouteSet) :
    Entries.Ordered (addActive groups entry) := by
  rw [addActive]
  split
  · exact ordered.insertSorted _ _
  · exact ordered

theorem getD_get?_addActive (groups : List (String × List String)) (entry : String × RouteSet)
    (group : String) :
    (Entries.get? group (addActive groups entry)).getD []
      = (Entries.get? group groups).getD [] ++ activeIn group [entry] := by
  simp only [addActive, activeIn, List.filter_cons, List.filter_nil, RouteSet.Claims]
  split
  · next own active claimed =>
      by_cases same : own = group
      · subst same
        simp [Entries.get?_insertSorted, active, claimed]
      · simp [Entries.get?_insertSorted, claimed, same]
  · next other =>
      have unclaimed : ¬ (entry.2.active = true ∧ entry.2.group? = some group) :=
        fun claims => other group claims.1 claims.2
      simp [unclaimed]

/-- The groups are listed in order, each with its active members. -/
theorem foldl_addActive (live : List (String × RouteSet)) {groups : List (String × List String)}
    (ordered : Entries.Ordered groups) :
    Entries.Ordered (live.foldl addActive groups)
      ∧ ∀ group, (Entries.get? group (live.foldl addActive groups)).getD []
          = (Entries.get? group groups).getD [] ++ activeIn group live := by
  induction live generalizing groups with
  | nil => exact ⟨ordered, fun group => by simp [activeIn]⟩
  | cons entry rest inductionHypothesis =>
      obtain ⟨restOrdered, restActive⟩ := inductionHypothesis (ordered_addActive ordered entry)
      refine ⟨restOrdered, fun group => ?_⟩
      have joined : activeIn group (entry :: rest)
          = activeIn group [entry] ++ activeIn group rest := by
        rw [activeIn, activeIn, activeIn, ← List.map_append, ← List.filter_append,
          List.singleton_append]
      rw [List.foldl_cons, restActive, getD_get?_addActive, joined, List.append_assoc]

/-- The groups are listed in order of their names. -/
theorem ordered_activeByGroup (sets : RouteSets) : Entries.Ordered sets.activeByGroup :=
  (foldl_addActive sets.live (List.Pairwise.nil : Entries.Ordered [])).1

/-- The active members that are collected for a group. -/
theorem getD_get?_activeByGroup (sets : RouteSets) (group : String) :
    (Entries.get? group sets.activeByGroup).getD [] = activeIn group sets.live := by
  rw [activeByGroup_eq, (foldl_addActive sets.live (List.Pairwise.nil : Entries.Ordered [])).2]
  rfl

/-- A conflict is reported exactly for each group with several active members, and lists them. -/
theorem mem_conflicts_iff {sets : RouteSets} {conflict : ExclusivityConflict} :
    conflict ∈ sets.conflicts
      ↔ 1 < (activeIn conflict.group sets.live).length
        ∧ conflict.active = activeIn conflict.group sets.live := by
  obtain ⟨group, active⟩ := conflict
  rw [conflicts, List.mem_filterMap, ← getD_get?_activeByGroup]
  constructor
  · rintro ⟨⟨name, members⟩, listed, reported⟩
    obtain ⟨several, same⟩ := Option.ite_none_right_eq_some.mp reported
    cases same
    rw [Entries.get?_of_mem sets.ordered_activeByGroup.nodup_keys listed, Option.getD_some]
    exact ⟨several, rfl⟩
  · rintro ⟨several, same⟩
    cases found : Entries.get? group sets.activeByGroup with
    | none => simp [found] at several
    | some members =>
        rw [found, Option.getD_some] at several same
        obtain rfl : active = members := same
        exact ⟨(group, active), Entries.mem_of_get? found, by simp [several]⟩

/-- Conflicts are reported in order of the groups' names. -/
theorem ordered_conflicts (sets : RouteSets) :
    (sets.conflicts.map ExclusivityConflict.group).Pairwise (· < ·) := by
  rw [conflicts, List.pairwise_map]
  refine sets.ordered_activeByGroup.filterMap _ ?_
  intro left right before first firstReported second secondReported
  obtain ⟨-, firstSame⟩ := Option.ite_none_right_eq_some.mp firstReported
  obtain ⟨-, secondSame⟩ := Option.ite_none_right_eq_some.mp secondReported
  cases firstSame
  cases secondSame
  exact before

/-- Nothing is reported exactly when no group has several active members. -/
theorem conflicts_eq_nil_iff_length {sets : RouteSets} :
    sets.conflicts = [] ↔ ∀ group, (activeIn group sets.live).length ≤ 1 := by
  simp only [List.eq_nil_iff_forall_not_mem, mem_conflicts_iff, ← not_lt]
  constructor
  · intro unreported group several
    exact unreported ⟨group, activeIn group sets.live⟩ ⟨several, rfl⟩
  · rintro few conflict ⟨several, -⟩
    exact few conflict.group several

/-- Nothing is reported exactly when no group has two active live members. -/
theorem conflicts_eq_nil_iff {sets : RouteSets} (distinct : (sets.map Item.id).Nodup) :
    sets.conflicts = [] ↔ sets.IsExclusive := by
  have mem_activeIn : ∀ {group id set}, sets.liveSet? id = some set -> set.Claims group ->
      id ∈ activeIn group sets.live := by
    intro group id set live claims
    exact List.mem_map.mpr ⟨(id, set),
      List.mem_filter.mpr ⟨(mem_live_iff distinct).mpr live, by simpa using claims⟩, rfl⟩
  rw [conflicts_eq_nil_iff_length]
  constructor
  · intro few id other set otherSet group live otherLive claims otherClaims
    have members := few group
    have first := mem_activeIn live claims
    have second := mem_activeIn otherLive otherClaims
    generalize activeIn group sets.live = active at members first second
    match active, members with
    | [], _ => cases first
    | [only], _ => rw [List.mem_singleton.mp first, List.mem_singleton.mp second]
  · intro exclusive group
    have apart : (activeIn group sets.live).Nodup :=
      (nodup_ids_live distinct).sublist (List.filter_sublist.map _)
    have claimed : ∀ id ∈ activeIn group sets.live, ∃ set, sets.liveSet? id = some set
        ∧ set.Claims group := by
      intro id member
      obtain ⟨⟨_, set⟩, kept, rfl⟩ := List.mem_map.mp member
      obtain ⟨listed, claims⟩ := List.mem_filter.mp kept
      exact ⟨set, (mem_live_iff distinct).mp listed, by simpa using claims⟩
    generalize activeIn group sets.live = active at apart claimed
    match active with
    | [] | [_] => simp
    | first :: second :: rest =>
        obtain ⟨set, live, claims⟩ := claimed first List.mem_cons_self
        obtain ⟨otherSet, otherLive, otherClaims⟩ := claimed second (by simp)
        have same := exclusive live otherLive claims otherClaims
        simp [same] at apart

end RouteSets

end LayerRouting
