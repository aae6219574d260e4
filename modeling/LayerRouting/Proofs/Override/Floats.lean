import LayerRouting.Proofs.Json.Floats
import LayerRouting.Proofs.Override.Recorded

/-!
# Documents with other binary64 numbers

Edits do not look at binary64 numbers: what is looked up, set or deleted in a tree whose numbers
were changed is what is looked up, set or deleted in the tree, with its numbers changed. So a log
makes of changed defaults the changed tree (`Document.resolved_mapFloats`), and a flag that a log
records is recorded after the change as well (`Log.Records.mapFloats`).
-/

namespace LayerRouting

variable {change : Binary64 -> Binary64}

namespace Json

/-! ## One segment -/

theorem child?_mapFloats (tree : Json) (segment : Segment) :
    (tree.mapFloats change).child? segment = (tree.child? segment).map (mapFloats change) := by
  cases tree with
  | object entries => rw [mapFloats_object, child?, child?, Entries.get?_mapValues]
  | array items =>
      simp only [mapFloats_array, child?, List.getElem?_map]
      cases segment.asIndex? <;> rfl
  | null | bool | number | string => rfl

theorem containerFor_mapFloats (tree : Json) (segment : Segment) :
    (tree.mapFloats change).containerFor segment
      = (tree.containerFor segment).mapFloats change := by
  have empty : (emptyFor segment).mapFloats change = emptyFor segment := by cases segment <;> rfl
  cases tree with
  | object entries => rw [mapFloats_object, containerFor, containerFor, mapFloats_object]
  | array items =>
      rw [mapFloats_array, containerFor, containerFor]
      split
      · rw [mapFloats_array]
      · exact empty.symm
  | null | bool | number | string => exact empty.symm

theorem setItem_map (items : List Json) (position : Nat) (value : Json) :
    setItem (items.map (mapFloats change)) position (value.mapFloats change)
      = (setItem items position value).map (mapFloats change) := by
  simp [setItem, List.map_set, mapFloats]

theorem setChild_mapFloats (tree : Json) (segment : Segment) (value : Json) :
    (tree.mapFloats change).setChild segment (value.mapFloats change)
      = (tree.setChild segment value).mapFloats change := by
  cases tree with
  | object entries =>
      rw [mapFloats_object, setChild, setChild, mapFloats_object, Entries.insert_mapValues]
  | array items =>
      rw [mapFloats_array, setChild, setChild]
      cases segment.asIndex? with
      | none => exact (mapFloats_array change items).symm
      | some position => exact (congrArg array (setItem_map _ _ _)).trans (mapFloats_array _ _).symm
  | null | bool | number | string => rfl

theorem removeChild?_mapFloats (tree : Json) (segment : Segment) :
    (tree.mapFloats change).removeChild? segment
      = (tree.removeChild? segment).map (mapFloats change) := by
  cases tree with
  | object entries =>
      simp only [mapFloats_object, removeChild?, Entries.get?_mapValues, Option.isSome_map,
        Entries.erase_mapValues]
      split
      · rw [Option.map_some, mapFloats_object]
      · rfl
  | array items =>
      simp only [mapFloats_array, removeChild?, List.length_map]
      cases segment.asIndex? with
      | none => rfl
      | some position =>
          simp only
          split
          · rw [Option.map_some, mapFloats_array, List.eraseIdx_map]
          · rfl
  | null | bool | number | string => rfl

/-! ## Paths -/

theorem lookup?_mapFloats (tree : Json) (path : Path) :
    (tree.mapFloats change).lookup? path = (tree.lookup? path).map (mapFloats change) := by
  induction path generalizing tree with
  | nil => rfl
  | cons segment rest inductionHypothesis =>
      rw [lookup?_cons, lookup?_cons, child?_mapFloats]
      cases tree.child? segment with
      | none => rfl
      | some child => exact inductionHypothesis child

theorem setAt_mapFloats (tree : Json) (path : Path) (value : Json) :
    (tree.mapFloats change).setAt path (value.mapFloats change)
      = (tree.setAt path value).mapFloats change := by
  induction path generalizing tree with
  | nil => rfl
  | cons segment rest inductionHypothesis =>
      have child : ((tree.mapFloats change).child? segment).getD .null
          = ((tree.child? segment).getD .null).mapFloats change := by
        rw [child?_mapFloats]
        cases tree.child? segment <;> rfl
      rw [setAt_cons, setAt_cons, containerFor_mapFloats, child, inductionHypothesis,
        setChild_mapFloats]

theorem deleteAt?_mapFloats (tree : Json) (path : Path) :
    (tree.mapFloats change).deleteAt? path = (tree.deleteAt? path).map (mapFloats change) := by
  induction path generalizing tree with
  | nil => rfl
  | cons segment rest inductionHypothesis =>
      cases rest with
      | nil => exact removeChild?_mapFloats tree segment
      | cons next rest =>
          rw [deleteAt?_cons _ segment (by simp), deleteAt?_cons _ segment (by simp),
            child?_mapFloats]
          cases tree.child? segment with
          | none => rfl
          | some child =>
              rw [Option.map_some, Option.bind_some, Option.bind_some, inductionHypothesis,
                Option.map_map, Option.map_map]
              exact Option.map_congr fun changed _ => setChild_mapFloats tree segment changed

end Json

/-! ## Ops and logs -/

namespace Op

/-- The op with each binary64 number of its value changed. -/
def mapFloats (change : Binary64 -> Binary64) : Op -> Op
  | .set id path value => .set id path (value.mapFloats change)
  | .delete id path => .delete id path

@[simp]
theorem id_mapFloats (op : Op) : (op.mapFloats change).id = op.id := by
  cases op <;> rfl

@[simp]
theorem path_mapFloats (op : Op) : (op.mapFloats change).path = op.path := by
  cases op <;> rfl

theorem mapFloats_id (op : Op) : op.mapFloats (fun x => x) = op := by
  cases op with
  | set id path value => exact congrArg (set id path) value.mapFloats_id
  | delete id path => rfl

theorem apply_mapFloats (op : Op) (tree : Json) :
    (op.mapFloats change).apply (tree.mapFloats change) = (op.apply tree).mapFloats change := by
  cases op with
  | set id path value => exact Json.setAt_mapFloats tree path value
  | delete id path =>
      simp only [mapFloats, apply, Json.deleteAt?_mapFloats]
      cases tree.deleteAt? path <;> rfl

end Op

namespace Log

/-- The log with each binary64 number of its values changed. -/
def mapFloats (change : Binary64 -> Binary64) (log : Log) : Log :=
  log.map (Op.mapFloats change)

theorem length_mapFloats (log : Log) : (Log.mapFloats change log).length = log.length :=
  List.length_map _

theorem resolve_mapFloats (log : Log) (defaults : Json) :
    (Log.mapFloats change log).resolve (defaults.mapFloats change)
      = (log.resolve defaults).mapFloats change := by
  induction log generalizing defaults with
  | nil => rfl
  | cons op rest inductionHypothesis =>
      rw [mapFloats, List.map_cons, resolve_cons, resolve_cons, Op.apply_mapFloats]
      exact inductionHypothesis _

theorem opsAt_mapFloats (log : Log) (path : Path) :
    (Log.mapFloats change log).opsAt path = Log.mapFloats change (log.opsAt path) := by
  rw [mapFloats, mapFloats, opsAt, opsAt, List.filter_map]
  refine congrArg _ (List.filter_congr fun op _ => ?_)
  rw [Function.comp_apply, Op.affects, Op.affects, Op.path_mapFloats]

theorem opsOn_mapFloats (log : Log) (id : String) :
    (Log.mapFloats change log).opsOn id = Log.mapFloats change (log.opsOn id) := by
  rw [mapFloats, mapFloats, opsOn, opsOn, List.filter_map]
  refine congrArg _ (List.filter_congr fun op _ => ?_)
  rw [Function.comp_apply, Op.touches, Op.touches, Op.path_mapFloats]

/-- A flag that is recorded is recorded after the change. -/
theorem Records.mapFloats {log : Log} {defaults : Json} {path : Path} {flag : Bool}
    (records : log.Records defaults path (.bool flag)) :
    (Log.mapFloats change log).Records (defaults.mapFloats change) path (.bool flag) := by
  have flagged : ∀ {tree : Option Json}, Json.SameAt tree (some (.bool flag)) ->
      Json.SameAt (tree.map (Json.mapFloats change)) (some (.bool flag)) := fun same =>
    Json.sameAt_bool_iff.mpr (Json.map_mapFloats_eq_bool_iff.mpr (Json.sameAt_bool_iff.mp same))
  cases records with
  | default free same =>
      refine .default ?_ ?_
      · rw [opsAt_mapFloats, free]
        rfl
      · rw [Json.lookup?_mapFloats]
        exact flagged same
  | @op before id ancestor rest container ops apart below exact same =>
      have changed : (Log.mapFloats change log).opsAt path
          = Log.mapFloats change before ++ [.set id ancestor (container.mapFloats change)] := by
        rw [opsAt_mapFloats, ops, Log.mapFloats, List.map_append]
        rfl
      refine .op changed ?_ below exact ?_
      · refine List.forall_mem_map.mpr fun op member => ?_
        rw [Op.path_mapFloats]
        exact apart op member
      · rw [Json.lookup?_mapFloats]
        exact flagged same

end Log

/-! ## Items -/

namespace Item

/-- What an op makes of an item's value. -/
theorem afterOp_mapFloats (op : Op) (value : Option Json) :
    afterOp (op.mapFloats change) (value.map (Json.mapFloats change))
      = (afterOp op value).map (Json.mapFloats change) := by
  have applied (path : Path) (tree : Json) :
      ((op.mapFloats change).withPath path).apply (tree.mapFloats change)
        = ((op.withPath path).apply tree).mapFloats change := by
    rw [← Op.apply_mapFloats]
    cases op <;> rfl
  simp only [afterOp, Op.path_mapFloats]
  cases op.path.drop 1 with
  | nil => cases op <;> rfl
  | cons segment rest =>
      cases value with
      | some old => exact congrArg some (applied _ old)
      | none => cases op with
        | set id path installed => exact congrArg some (applied (segment :: rest) .null)
        | delete id path => rfl

/-- The op that made an item makes it still. -/
theorem maker?_mapFloats (ops : Log) (value : Option Json) :
    maker? (Log.mapFloats change ops) (value.map (Json.mapFloats change))
      = (maker? ops value).map (Op.mapFloats change) := by
  induction ops generalizing value with
  | nil => rfl
  | cons op rest inductionHypothesis =>
      rw [Log.mapFloats] at inductionHypothesis ⊢
      rw [List.map_cons, maker?, maker?, afterOp_mapFloats, inductionHypothesis]
      simp only [Option.isNone_map, Option.isSome_map, Option.map_or]
      split <;> rfl

end Item

/-! ## Documents -/

namespace Document

/-- The document with each binary64 number in it changed. -/
def mapFloats (change : Binary64 -> Binary64) (document : Document Json) : Document Json where
  defaults := document.defaults.mapFloats change
  log := Log.mapFloats change document.log

theorem mapFloats_id (document : Document Json) : document.mapFloats id = document := by
  rw [mapFloats, Json.mapFloats_id, Log.mapFloats, List.map_congr_left fun op _ => op.mapFloats_id,
    List.map_id']

theorem resolved_mapFloats (document : Document Json) :
    (document.mapFloats change).resolved = document.resolved.mapFloats change :=
  Log.resolve_mapFloats document.log document.defaults

/-- A document stays as it is exactly when its defaults and its ops do. -/
theorem mapFloats_eq_iff {document : Document Json} :
    document.mapFloats change = document
      ↔ document.defaults.mapFloats change = document.defaults
        ∧ ∀ op ∈ document.log, op.mapFloats change = op := by
  obtain ⟨defaults, log⟩ := document
  rw [mapFloats, Document.mk.injEq]
  refine and_congr_right fun _ => ?_
  rw [Log.mapFloats]
  exact ⟨fun same => List.map_inj_left.mp (same.trans (List.map_id' log).symm), fun same =>
    (List.map_congr_left same).trans (List.map_id' log)⟩

end Document

/-! ## Setting a flag -/

/-- A draft whose ops stay as they are has such ops after a flag was set. -/
theorem Draft.forall_mapFloats_eq_setPath {draft : Draft}
    (same : ∀ op ∈ draft.log, op.mapFloats change = op) (path : Path) (flag : Bool) :
    ∀ op ∈ (draft.setPath path (.bool flag)).log, op.mapFloats change = op := by
  refine forall_mem_setPath same (fun _ _ => rfl) fun id ancestor container rest member _ => ?_
  have held : container.mapFloats change = container := by
    have kept := same _ (mem_dropWithin.mp member).1
    simpa [Op.mapFloats] using kept
  rw [Op.mapFloats, ← Json.setAt_mapFloats, held]
  rfl

end LayerRouting
