import LayerRouting.Override.OpIndex
import LayerRouting.Proofs.Json.Entries
import Mathlib.Data.List.Nodup

/-!
# The index gives what a scan gives

`OpIndex` groups the ops of a log by item in one pass and merges the groups of an item by
position. `OpIndex.opsFor_ofLog` says that this gives the ops that touch the item, in log
order, as reading the whole log would.
-/

namespace LayerRouting

namespace OpIndex

/-- The ops of a log with their positions. -/
def placedOps (log : Log) : List PlacedOp :=
  log.zipIdx.map fun entry => (entry.2, entry.1)

/-- Whether a placed op is below an item. -/
def isOwn (id : String) (placed : PlacedOp) : Bool :=
  placed.2.path.firstKey? == some id

/-- Whether a placed op is on the root. -/
def isRoot (placed : PlacedOp) : Bool :=
  placed.2.path.firstKey?.isNone

theorem touches_eq (op : Op) (position : Nat) (id : String) :
    op.touches id = (isOwn id (position, op) || isRoot (position, op)) := by
  simp only [Op.touches, isOwn, isRoot]
  cases op.path.firstKey? <;> simp

/-! ## Grouping -/

theorem root_add (index : OpIndex) (placed : PlacedOp) :
    (index.add placed).root = index.root ++ [placed].filter isRoot := by
  simp only [add, isRoot, List.filter_singleton]
  cases placed.2.path.firstKey? <;> simp

theorem own_add (index : OpIndex) (placed : PlacedOp) (id : String) :
    (Entries.get? id (index.add placed).byItem).getD []
      = (Entries.get? id index.byItem).getD [] ++ [placed].filter (isOwn id) := by
  simp only [add, isOwn, List.filter_singleton]
  cases found : placed.2.path.firstKey? with
  | none => simp
  | some key =>
      by_cases same : key = id
      · simp [addTo, same]
      · have other : (key == id) = false := beq_false_of_ne same
        simp [addTo, Entries.get?_insert_of_ne same, other]

/-- Each group holds the placed ops that belong to it, in order. -/
theorem groups_foldl (placed : List PlacedOp) (index : OpIndex) (id : String) :
    (placed.foldl add index).root = index.root ++ placed.filter isRoot
      ∧ (Entries.get? id (placed.foldl add index).byItem).getD []
          = (Entries.get? id index.byItem).getD [] ++ placed.filter (isOwn id) := by
  induction placed generalizing index with
  | nil => simp
  | cons first rest inductionHypothesis =>
      obtain ⟨root, own⟩ := inductionHypothesis (index.add first)
      rw [List.foldl_cons, root, own, root_add, own_add, List.append_assoc, List.append_assoc,
        ← List.filter_append, ← List.filter_append]
      simp

theorem ofLog_eq_foldl (log : Log) : ofLog log = (placedOps log).foldl add ⟨[], []⟩ := by
  rw [ofLog, placedOps, List.foldl_map]

theorem root_ofLog (log : Log) : (ofLog log).root = (placedOps log).filter isRoot := by
  rw [ofLog_eq_foldl, (groups_foldl (placedOps log) ⟨[], []⟩ "").1, List.nil_append]

theorem map_snd_filter_placedOps (log : Log) (keep : Op -> Bool) :
    ((placedOps log).filter fun placed => keep placed.2).map Prod.snd = log.filter keep := by
  have positions : (placedOps log).map Prod.snd = log := by
    simp [placedOps, Function.comp_def]
  conv_rhs => rw [← positions, List.filter_map]
  rfl

/-- The root group is empty exactly when no op is on the root. -/
theorem isEmpty_root_ofLog_iff (log : Log) :
    (ofLog log).root.isEmpty ↔ ∀ op ∈ log, op.path ≠ [] := by
  have roots : (ofLog log).root.map Prod.snd = log.filter fun op => op.path.firstKey?.isNone := by
    rw [root_ofLog, ← map_snd_filter_placedOps]
    rfl
  rw [List.isEmpty_iff, ← List.map_eq_nil_iff, roots, List.filter_eq_nil_iff]
  simp [Path.firstKey?]

/-! ## Merging -/

/-- Two disjoint parts of a list in order of position merge to their union. -/
theorem merge_filter {placed : List PlacedOp}
    (increasing : placed.Pairwise fun left right => left.1 < right.1)
    {own root : PlacedOp -> Bool} (apart : ∀ entry, own entry -> root entry = false) :
    List.merge (placed.filter own) (placed.filter root) (fun left right => left.1 ≤ right.1)
      = placed.filter fun entry => own entry || root entry := by
  induction placed with
  | nil => simp
  | cons first rest inductionHypothesis =>
      obtain ⟨before, later⟩ := List.pairwise_cons.mp increasing
      have merged := inductionHypothesis later
      by_cases isOwn : own first
      · simp only [List.filter_cons, isOwn, if_true, apart first isOwn, Bool.true_or,
          Bool.false_eq_true, if_false, ← merged]
        cases roots : rest.filter root with
        | nil => simp
        | cons other others =>
            have listed : other ∈ rest.filter root := roots ▸ List.mem_cons_self
            have order := before other (List.mem_of_mem_filter listed)
            rw [List.cons_merge_cons_pos]
            simpa using order.le
      · by_cases isRoot : root first
        · simp only [List.filter_cons, isOwn, isRoot, if_true, Bool.or_true, if_false,
            Bool.false_eq_true, ← merged]
          cases owns : rest.filter own with
          | nil => simp
          | cons other others =>
              have listed : other ∈ rest.filter own := owns ▸ List.mem_cons_self
              have order := before other (List.mem_of_mem_filter listed)
              rw [List.cons_merge_cons_neg]
              simpa using order
        · simpa [List.filter_cons, isOwn, isRoot] using merged

theorem placedOps_increasing (log : Log) :
    (placedOps log).Pairwise fun left right => left.1 < right.1 := by
  rw [placedOps, List.pairwise_map, List.pairwise_iff_getElem]
  intro first second firstInside secondInside order
  simpa using order

/-- The index gives the ops that touch an item, in log order. -/
theorem opsFor_ofLog (log : Log) (id : String) :
    (ofLog log).opsFor id = log.filter fun op => op.touches id := by
  have own := (groups_foldl (placedOps log) ⟨[], []⟩ id).2
  rw [← ofLog_eq_foldl] at own
  have apart : ∀ entry, isOwn id entry -> isRoot entry = false := by
    intro entry owned
    simp only [isOwn, beq_iff_eq] at owned
    simp [isRoot, owned]
  simp only [opsFor, own, root_ofLog, Entries.get?, Option.getD_none, List.nil_append,
    merge_filter (placedOps_increasing log) apart, ← map_snd_filter_placedOps,
    touches_eq _ 0 id]
  rfl

/-! ## Touched items -/

/-- An item has a group as soon as an op belongs to it. -/
theorem isSome_own_foldl (placed : List PlacedOp) (index : OpIndex) (id : String) :
    (Entries.get? id (placed.foldl add index).byItem).isSome
      = ((Entries.get? id index.byItem).isSome || placed.any (isOwn id)) := by
  induction placed generalizing index with
  | nil => simp
  | cons first rest inductionHypothesis =>
      have added : (Entries.get? id (index.add first).byItem).isSome
          = ((Entries.get? id index.byItem).isSome || isOwn id first) := by
        simp only [add, isOwn]
        cases found : first.2.path.firstKey? with
        | none => simp
        | some key =>
            by_cases same : key = id
            · simp [addTo, same]
            · simp [addTo, Entries.get?_insert_of_ne same, same]
      rw [List.foldl_cons, inductionHypothesis, added, List.any_cons, Bool.or_assoc]

/-- An item is touched exactly if some op of the log touches it. -/
theorem isTouched_ofLog_iff (log : Log) (id : String) :
    (ofLog log).isTouched id ↔ ∃ op ∈ log, op.touches id := by
  have positions : log = (placedOps log).map Prod.snd := by
    simp [placedOps, Function.comp_def]
  have grouped := isSome_own_foldl (placedOps log) ⟨[], []⟩ id
  rw [← ofLog_eq_foldl, Entries.get?, Option.isSome_none, Bool.false_or] at grouped
  have split : ∀ placed : PlacedOp, placed.2.touches id ↔ isRoot placed ∨ isOwn id placed := by
    intro placed
    rw [touches_eq placed.2 placed.1 id, Bool.or_eq_true, or_comm]
  conv_rhs => rw [positions]
  simp only [isTouched, grouped, root_ofLog, Bool.or_eq_true, Bool.not_eq_true',
    List.isEmpty_eq_false_iff_exists_mem, List.mem_filter, List.any_eq_true, List.mem_map,
    exists_exists_and_eq_and, split]
  grind

end OpIndex

end LayerRouting
