import LayerRouting.Proofs.Override.Removal
import LayerRouting.Proofs.Override.SetOutcome

/-!
# Pruning

An op that finds nothing to do leaves the tree as it is, so without it every later op meets the
same tree and is judged as before. `Log.effective` keeps the ops that find something to do, and
that is what pruning keeps when no two ops have one id (`Draft.log_prune`). Then the resolved tree
is the same, no op is unused any more, and a second time there is nothing to drop
(`Draft.prunesUnused`).
-/

namespace LayerRouting

namespace Log

/-- The ops that find something to do when their turn comes. -/
def effective : Log -> Json -> Log
  | [], _ => []
  | op :: rest, tree =>
      let later := effective rest (op.apply tree)
      if op.isEffective tree then op :: later else later

variable {op : Op} {rest : Log} {tree : Json}

theorem effective_cons_of_isEffective (used : op.isEffective tree) :
    effective (op :: rest) tree = op :: effective rest (op.apply tree) :=
  if_pos used

theorem effective_cons_of_not_isEffective (unused : ¬ op.isEffective tree) :
    effective (op :: rest) tree = effective rest tree := by
  rw [effective, if_neg unused, Op.apply_of_not_isEffective unused]

theorem unusedIds_cons_of_isEffective (used : op.isEffective tree) :
    unusedIds (op :: rest) tree = unusedIds rest (op.apply tree) :=
  if_pos used

theorem unusedIds_cons_of_not_isEffective (unused : ¬ op.isEffective tree) :
    unusedIds (op :: rest) tree = op.id :: unusedIds rest tree := by
  rw [unusedIds, if_neg unused, Op.apply_of_not_isEffective unused]

/-- The ops that find something to do make the same tree without the others. -/
theorem resolve_effective (log : Log) (tree : Json) :
    (log.effective tree).resolve tree = log.resolve tree := by
  induction log generalizing tree with
  | nil => rfl
  | cons op rest inductionHypothesis =>
      by_cases used : op.isEffective tree
      · rw [effective_cons_of_isEffective used]
        exact inductionHypothesis (op.apply tree)
      · rw [effective_cons_of_not_isEffective used, inductionHypothesis, resolve, resolve,
          List.foldl_cons, Op.apply_of_not_isEffective used]

/-- Among the ops that find something to do, none is unused. -/
theorem unusedIds_effective (log : Log) (tree : Json) :
    (log.effective tree).unusedIds tree = [] := by
  induction log generalizing tree with
  | nil => rfl
  | cons op rest inductionHypothesis =>
      by_cases used : op.isEffective tree
      · rw [effective_cons_of_isEffective used, unusedIds_cons_of_isEffective used]
        exact inductionHypothesis (op.apply tree)
      · rw [effective_cons_of_not_isEffective used]
        exact inductionHypothesis tree

theorem unusedIds_subset (log : Log) (tree : Json) : log.unusedIds tree ⊆ log.map Op.id := by
  induction log generalizing tree with
  | nil => exact List.Subset.refl _
  | cons op rest inductionHypothesis =>
      by_cases used : op.isEffective tree
      · rw [unusedIds_cons_of_isEffective used]
        exact List.subset_cons_of_subset _ (inductionHypothesis _)
      · rw [unusedIds_cons_of_not_isEffective used]
        exact List.cons_subset_cons _ (inductionHypothesis tree)

/-- Where no two ops have one id, the ids of the unused ops tell exactly the unused ops. -/
theorem filter_not_mem_unusedIds {log : Log} (distinct : (log.map Op.id).Nodup) (tree : Json) :
    (log.filter fun op => op.id ∉ log.unusedIds tree) = log.effective tree := by
  induction log generalizing tree with
  | nil => rfl
  | cons op rest inductionHypothesis =>
      obtain ⟨new, restDistinct⟩ := List.nodup_cons.mp distinct
      by_cases used : op.isEffective tree
      · rw [unusedIds_cons_of_isEffective used, effective_cons_of_isEffective used,
          ← inductionHypothesis restDistinct]
        have kept : op.id ∉ unusedIds rest (op.apply tree) :=
          fun unused => new (unusedIds_subset _ _ unused)
        exact List.filter_cons_of_pos (by simpa using kept)
      · rw [unusedIds_cons_of_not_isEffective used, effective_cons_of_not_isEffective used,
          ← inductionHypothesis restDistinct, List.filter_cons_of_neg (by simp)]
        refine List.filter_congr fun other member => ?_
        have apart : other.id ≠ op.id := fun same => new (same ▸ List.mem_map_of_mem member)
        simp [apart]

end Log

namespace Draft

/-- Pruning keeps exactly the ops that find something to do. -/
theorem log_prune {draft : Draft} (distinct : (draft.log.map Op.id).Nodup) :
    draft.prune.log = draft.log.effective draft.defaults :=
  Log.filter_not_mem_unusedIds distinct draft.defaults

/-- What pruning promises of a draft. -/
structure PrunesUnused (draft : Draft) : Prop where
  /-- The resolved tree is the same, entry order included. -/
  resolved : draft.prune.resolved = draft.resolved
  /-- No op is unused any more. -/
  unused : draft.prune.log.unusedIds draft.prune.defaults = []
  /-- A second time there is nothing to drop. -/
  again : draft.prune.prune.log = draft.prune.log
  /-- The ops that are left are in their order. -/
  order : draft.prune.log.Sublist draft.log
  /-- Exactly the ops that find nothing to do are dropped. -/
  kept : draft.prune.log = draft.log.effective draft.defaults

/-- Pruning keeps its promises whatever the defaults are, when no two ops have one id. -/
theorem prunesUnused (draft : Draft) (distinct : (draft.log.map Op.id).Nodup) :
    draft.PrunesUnused := by
  have log := log_prune distinct
  have unused : draft.prune.log.unusedIds draft.prune.defaults = [] := by
    rw [log]
    exact Log.unusedIds_effective draft.log draft.defaults
  refine ⟨?_, unused, ?_, List.filter_sublist, log⟩
  · rw [resolved, log]
    exact Log.resolve_effective draft.log draft.defaults
  · refine List.filter_eq_self.mpr fun op _ => ?_
    rw [unused]
    simp

/-- A draft with a delete that finds nothing, one that does because of the op before it, and one
that is repeated. -/
def ofStrayDeletes : Draft where
  defaults := .object [("left", .object [("name", .string "Left")])]
  log := [.delete "o1" [.key "left", .key "rank"], .set "o2" [.key "left", .key "rank"] .null,
    .delete "o3" [.key "left", .key "rank"], .delete "o4" [.key "left", .key "rank"]]
  supply := ⟨0⟩

/-- The first delete and the repeated one are dropped, and the tree is the default still. -/
theorem prunesUnused_ofStrayDeletes :
    ofStrayDeletes.prune.log = [.set "o2" [.key "left", .key "rank"] .null,
        .delete "o3" [.key "left", .key "rank"]]
      ∧ ofStrayDeletes.prune.resolved = ofStrayDeletes.defaults := by
  have prunes := prunesUnused ofStrayDeletes (by decide)
  exact ⟨prunes.kept.trans (by decide), prunes.resolved.trans (by decide)⟩

end Draft

end LayerRouting
