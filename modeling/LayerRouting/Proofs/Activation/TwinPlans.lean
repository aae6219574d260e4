import LayerRouting.Proofs.Activation.Plans
import LayerRouting.Proofs.Override.TwinDrafts

/-!
# Twin plans

What is planned for a document goes by its route sets and not by the ids of its ops. So for
documents that are the same under other names the same is refused (`planSwitch_twin`), and the
plans report the same and have twin drafts (`planSwitch_twin`, `planReset_twin`).
-/

namespace LayerRouting

/-! ## Route sets -/

namespace RouteSets

/-- Route sets with the ids of their ops renamed. -/
def renamed (names : Equiv.Perm String) (sets : RouteSets) : RouteSets :=
  sets.map (Item.renamed names)

variable (names : Equiv.Perm String)

theorem ofDocument_renamed (document : Document Json) :
    ofDocument (document.renamed names) = (ofDocument document).renamed names := by
  rw [ofDocument, ofDocument, Document.items, Document.items, Document.defaults_renamed,
    Document.log_renamed, Item.all_renamed, ofItems, ofItems, renamed, List.filterMap_map,
    List.map_filterMap]
  exact List.filterMap_congr fun item _ => item.mapValues?_renamed names _

variable (sets : RouteSets)

theorem live_renamed : (sets.renamed names).live = sets.live := by
  rw [live, live, renamed, List.filterMap_map]
  rfl

theorem liveSet?_renamed (id : String) : (sets.renamed names).liveSet? id = sets.liveSet? id := by
  rw [liveSet?, liveSet?, renamed, List.find?_map, Option.bind_map]
  rfl

theorem siblings_renamed (id : String) (set : RouteSet) :
    (sets.renamed names).siblings id set = sets.siblings id set := by
  simp only [siblings, groupMembers, live_renamed]

theorem resetTargets_renamed : (sets.renamed names).resetTargets = sets.resetTargets := by
  simp only [resetTargets, live_renamed]

/-- The ops of a document's route sets are ops of the document. -/
theorem ops_subset_of_mem_ofDocument {document : Document Json} {item : Item RouteSet}
    (member : item ∈ ofDocument document) : item.ops ⊆ document.log := by
  obtain ⟨raw, rawMember, read⟩ := List.mem_filterMap.mp member
  simp only [Item.mapValues?, Option.bind_eq_bind, Option.bind_eq_some_iff] at read
  obtain ⟨_, -, _, -, same⟩ := read
  cases same
  exact Item.ops_subset_of_mem_items rawMember

end RouteSets

/-! ## Plans -/

variable {naming : Naming}

/-- Recording flags keeps twins. -/
theorem Draft.Twin.setFlags {first second : Draft} (twin : Twin naming first second)
    (flags : List (String × Bool)) :
    ∃ later, naming.Extends later ∧ Twin later (first.setFlags flags) (second.setFlags flags) := by
  induction flags generalizing naming first second with
  | nil => exact ⟨naming, .refl naming, twin⟩
  | cons flag rest inductionHypothesis =>
      obtain ⟨middle, start, set⟩ :=
        twin.setPath (Path.item flag.1 ++ activeField) (.bool flag.2)
      obtain ⟨later, more, done⟩ := inductionHypothesis set
      exact ⟨later, start.trans more, done⟩

/-- Plans to switch a route set that come to the same. -/
inductive TwinPlans (naming : Naming) : Except Refusal SwitchPlan -> Except Refusal SwitchPlan ->
    Prop where
  | refused (refusal : Refusal) : TwinPlans naming (.error refusal) (.error refusal)
  | planned {plan other : SwitchPlan} {later : Naming} (extended : naming.Extends later)
      (previouslyActive : other.previouslyActive = plan.previouslyActive)
      (deactivated : other.deactivated = plan.deactivated)
      (drafts : Draft.Twin later plan.draft other.draft) :
      TwinPlans naming (.ok plan) (.ok other)

variable {document : Document Json} {supply other : IdSupply}

/-- For twin documents plans to switch a route set come to the same. -/
theorem planSwitch_twin (twin : Draft.Twin naming (Draft.ofDocument document supply)
      (Draft.ofDocument (document.renamed naming.rename) other)) (id : String) (active : Bool) :
    TwinPlans naming (planSwitch document supply id active)
      (planSwitch (document.renamed naming.rename) other id active) := by
  simp only [planSwitch, RouteSets.ofDocument_renamed, RouteSets.liveSet?_renamed,
    RouteSets.siblings_renamed]
  cases (RouteSets.ofDocument document).liveSet? id with
  | none => exact .refused _
  | some target =>
      simp only
      split
      · exact .refused _
      · obtain ⟨later, extended, drafts⟩ := twin.setFlags
          ((RouteSets.ofDocument document).switchFlags id target active)
        refine .planned extended rfl rfl ?_
        simpa [Draft.setFlags, RouteSets.switchFlags, List.foldl_map] using drafts

/-- For twin documents resets come to the same. -/
theorem planReset_twin (twin : Draft.Twin naming (Draft.ofDocument document supply)
      (Draft.ofDocument (document.renamed naming.rename) other)) :
    (planReset (document.renamed naming.rename) other).activated
        = (planReset document supply).activated
      ∧ (planReset (document.renamed naming.rename) other).deactivated
        = (planReset document supply).deactivated
      ∧ ∃ later, naming.Extends later ∧ Draft.Twin later (planReset document supply).draft
        (planReset (document.renamed naming.rename) other).draft := by
  have targets : (RouteSets.ofDocument (document.renamed naming.rename)).resetTargets
      = (RouteSets.ofDocument document).resetTargets := by
    rw [RouteSets.ofDocument_renamed, RouteSets.resetTargets_renamed]
  refine ⟨by rw [planReset, planReset, targets], by rw [planReset, planReset, targets], ?_⟩
  rw [draft_planReset, draft_planReset, RouteSets.resetFlags, RouteSets.resetFlags, targets]
  exact twin.setFlags _

end LayerRouting
