import LayerRouting.Proofs.Override.Items
import LayerRouting.Proofs.Override.SetOutcome
import Mathlib.Logic.Equiv.Defs

/-!
# Renamed op ids

The id of an op tells it from other ops and does nothing else. When all op ids are renamed one to
one, a log makes the same tree (`Log.resolve_renamed`), the items are the same with their ops
renamed (`Item.all_renamed`), and logs are as equal as before (`Log.same_renamed_iff`).
-/

namespace LayerRouting

variable (names : Equiv.Perm String)

/-! ## Ops -/

namespace Op

/-- An op with its id renamed. -/
def renamed (names : Equiv.Perm String) : Op -> Op
  | .set id path value => .set (names id) path value
  | .delete id path => .delete (names id) path

@[simp]
theorem path_renamed (op : Op) : (op.renamed names).path = op.path := by
  cases op <;> rfl

@[simp]
theorem apply_renamed (op : Op) (tree : Json) : (op.renamed names).apply tree = op.apply tree := by
  cases op <;> rfl

@[simp]
theorem affects_renamed (op : Op) (path : Path) :
    (op.renamed names).affects path = op.affects path := by
  rw [affects, affects, path_renamed]

@[simp]
theorem touches_renamed (op : Op) (id : String) :
    (op.renamed names).touches id = op.touches id := by
  rw [touches, touches, path_renamed]

theorem renamed_refl (op : Op) : op.renamed (.refl String) = op := by
  cases op <;> rfl

/-- Ops whose ids have the same new names are renamed alike. -/
theorem renamed_congr {names others : Equiv.Perm String} {op : Op}
    (same : names op.id = others op.id) : op.renamed names = op.renamed others := by
  cases op <;> simpa [renamed, id] using same

/-- Renaming one to one makes no ops equal that were not. -/
theorem same_renamed_iff {left right : Op} :
    (left.renamed names).Same (right.renamed names) ↔ left.Same right := by
  cases left <;> cases right <;> simp [renamed, Same]

end Op

/-! ## Logs -/

namespace Log

/-- A log with the ids of its ops renamed. -/
def renamed (names : Equiv.Perm String) (log : Log) : Log :=
  log.map (Op.renamed names)

theorem renamed_refl (log : Log) : Log.renamed (.refl String) log = log := by
  rw [renamed, funext Op.renamed_refl, List.map_id']

theorem renamed_congr {names others : Equiv.Perm String} {log : Log}
    (same : ∀ op ∈ log, names op.id = others op.id) :
    Log.renamed names log = Log.renamed others log :=
  List.map_congr_left fun op member => Op.renamed_congr (same op member)

@[simp]
theorem length_renamed (log : Log) : (Log.renamed names log).length = log.length :=
  List.length_map _

theorem renamed_append (before after : Log) :
    Log.renamed names (before ++ after) = Log.renamed names before ++ Log.renamed names after :=
  List.map_append

/-- A log makes the same tree under all names. -/
theorem resolve_renamed (log : Log) (defaults : Json) :
    (Log.renamed names log).resolve defaults = log.resolve defaults := by
  simp only [resolve, renamed, List.foldl_map, Op.apply_renamed]

/-- What concerns no ids picks the same ops under all names. -/
theorem filter_renamed {keep : Op -> Bool} (blind : ∀ op, keep (op.renamed names) = keep op)
    (log : Log) : (Log.renamed names log).filter keep = Log.renamed names (log.filter keep) := by
  rw [renamed, List.filter_map]
  exact congrArg (List.map _) (List.filter_congr fun op _ => blind op)

theorem same_renamed_iff {left right : Log} :
    (Log.renamed names left).Same (Log.renamed names right) ↔ left.Same right := by
  induction left generalizing right with
  | nil => cases right <;> rfl
  | cons op rest inductionHypothesis =>
      cases right with
      | nil => rfl
      | cons other others => exact and_congr (Op.same_renamed_iff names) inductionHypothesis

end Log

namespace Document

/-- A document with the ids of its ops renamed. -/
def renamed (names : Equiv.Perm String) (document : Document Json) : Document Json :=
  { document with log := Log.renamed names document.log }

@[simp]
theorem defaults_renamed (document : Document Json) :
    (document.renamed names).defaults = document.defaults :=
  rfl

@[simp]
theorem log_renamed (document : Document Json) :
    (document.renamed names).log = Log.renamed names document.log :=
  rfl

theorem renamed_refl (document : Document Json) : document.renamed (.refl String) = document := by
  rw [renamed, Log.renamed_refl]

theorem renamed_congr {names others : Equiv.Perm String} {document : Document Json}
    (same : ∀ op ∈ document.log, names op.id = others op.id) :
    document.renamed names = document.renamed others := by
  rw [renamed, renamed, Log.renamed_congr same]

end Document

/-! ## Items -/

namespace Item

variable {α β : Type}

/-- An item with the ids of its ops renamed. -/
def renamed (names : Equiv.Perm String) (item : Item α) : Item α :=
  { item with ops := Log.renamed names item.ops }

theorem renamed_congr {names others : Equiv.Perm String} {item : Item α}
    (same : ∀ op ∈ item.ops, names op.id = others op.id) :
    item.renamed names = item.renamed others := by
  rw [renamed, renamed, Log.renamed_congr same]

theorem report?_renamed (defaults resolved : Json) (log : Log) (id : String) :
    report? defaults resolved (OpIndex.ofLog (Log.renamed names log)) id
      = (report? defaults resolved (OpIndex.ofLog log) id).map (renamed names) := by
  have ops : (OpIndex.ofLog (Log.renamed names log)).opsFor id
      = Log.renamed names ((OpIndex.ofLog log).opsFor id) := by
    rw [OpIndex.opsFor_ofLog, OpIndex.opsFor_ofLog]
    exact Log.filter_renamed names (fun op => op.touches_renamed names id) log
  simp only [report?, ops]
  split <;> rfl

/-- Items are ranked by their values. -/
theorem ranked_renamed (defaults : Json) (log : Log) :
    ranked defaults (Log.renamed names log)
      = (ranked defaults log).map fun entry => (entry.1, entry.2.renamed names) := by
  simp only [ranked, Log.resolve_renamed, report?_renamed, List.map_filterMap, Option.map_map]
  rfl

/-- All items of a collection are the same under all names. -/
theorem all_renamed (defaults : Json) (log : Log) :
    all defaults (Log.renamed names log) = (all defaults log).map (renamed names) := by
  have sorted : ((ranked defaults log).mergeSort fun left right =>
      left.1.orderKey ≤ right.1.orderKey).map (fun entry => (entry.1, entry.2.renamed names))
        = ((ranked defaults log).map fun entry => (entry.1, entry.2.renamed names)).mergeSort
            fun left right => left.1.orderKey ≤ right.1.orderKey :=
    List.map_mergeSort fun _ _ _ _ => rfl
  have unfolded : ∀ log, all defaults log
      = ((ranked defaults log).mergeSort fun left right =>
          left.1.orderKey ≤ right.1.orderKey).map Prod.snd := fun _ => rfl
  rw [unfolded, unfolded, ranked_renamed, ← sorted, List.map_map, List.map_map]
  rfl

theorem mapValues?_renamed (read? : α -> Option β) (item : Item α) :
    (item.renamed names).mapValues? read? = (item.mapValues? read?).map (renamed names) := by
  simp only [mapValues?, renamed]
  cases readOptional? read? item.computed <;> cases readOptional? read? item.defaultValue <;> rfl

/-- The ops of a document's items are ops of the document. -/
theorem ops_subset_of_mem_items {document : Document Json} {item : Item Json}
    (member : item ∈ document.items) : item.ops ⊆ document.log := by
  obtain ⟨entry, sorted, rfl⟩ := List.mem_map.mp member
  obtain ⟨⟨id, position⟩, -, reported⟩ := List.mem_filterMap.mp (List.mem_mergeSort.mp sorted)
  obtain ⟨item, report, rfl⟩ := Option.map_eq_some_iff.mp reported
  rw [report?] at report
  split at report
  · cases report
  · cases report
    rw [OpIndex.opsFor_ofLog]
    exact List.filter_subset_self _

end Item

/-! ## Drafts -/

namespace Draft

theorem alreadyRecords_renamed (log : Log) (path : Path) (value : Json) :
    alreadyRecords (Log.renamed names log) path value = alreadyRecords log path value := by
  have records : (recordsValue · path value) ∘ Op.renamed names = (recordsValue · path value) := by
    funext op
    cases op <;> rfl
  have last : (lastTouching? (Log.renamed names log) path).any (recordsValue · path value)
      = (lastTouching? log path).any (recordsValue · path value) := by
    simp only [lastTouching?, Log.renamed, ← List.map_reverse, List.find?_map, Function.comp_def,
      Op.affects_renamed, Option.any_map]
    exact congrArg (Option.any · _) records
  have within : ((Log.renamed names log).countP fun op => op.path.isWithin path)
      = log.countP fun op => op.path.isWithin path := by
    simp only [Log.renamed, List.countP_map, Function.comp_def, Op.path_renamed]
  simp only [alreadyRecords, last, within]

theorem dropWithin_renamed (path : Path) (log : Log) :
    dropWithin path (Log.renamed names log) = Log.renamed names (dropWithin path log) :=
  Log.filter_renamed names (fun op => by rw [Op.path_renamed]) log

theorem splitLast?_renamed (condition : Op -> Bool)
    (blind : ∀ op, condition (op.renamed names) = condition op) (log : Log) :
    splitLast? condition (Log.renamed names log)
      = (splitLast? condition log).map fun parts =>
          (Log.renamed names parts.1, parts.2.1.renamed names, Log.renamed names parts.2.2) := by
  induction log with
  | nil => rfl
  | cons op rest inductionHypothesis =>
      have unfolded : Log.renamed names (op :: rest) = op.renamed names :: Log.renamed names rest :=
        rfl
      rw [unfolded, splitLast?, splitLast?, inductionHypothesis, blind]
      cases splitLast? condition rest with
      | some parts => rfl
      | none =>
          by_cases met : condition op <;> simp [met, Log.renamed]

end Draft

end LayerRouting
