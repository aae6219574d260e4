import LayerRouting.Proofs.Override.Independence
import LayerRouting.Proofs.Override.SetOutcome

/-!
# Editing the log refines editing the tree

Setting a field of an item changes the log, often in its middle: ops on the field are
dropped, or an earlier op is changed. `Draft.setField_refines_setAt` says that, without
arrays, the resolved tree changes as if the value were set in the tree itself.

The argument is that dropping ops on a path or below it keeps trees agreeing off the path
(`Log.agreeOff_dropWithin`), and that setting the path moves to the front of all ops that do
not affect it (`Log.setAt_resolve_same`).
-/

namespace LayerRouting

namespace Log

/-- Whether all ops are on paths of keys and set no arrays. -/
def isArrayFree (log : Log) : Bool :=
  log.all Op.isArrayFree

theorem isArrayFree_iff {log : Log} : log.isArrayFree ↔ ∀ op ∈ log, op.isArrayFree := by
  simp [isArrayFree]

theorem isArrayFree_resolve {log : Log} (logFree : log.isArrayFree) {tree : Json}
    (free : tree.isArrayFree) : (log.resolve tree).isArrayFree := by
  rw [isArrayFree_iff] at logFree
  induction log generalizing tree with
  | nil => exact free
  | cons op rest inductionHypothesis =>
      obtain ⟨opFree, restFree⟩ := List.forall_mem_cons.mp logFree
      exact inductionHypothesis restFree (Op.isArrayFree_apply opFree free)

theorem isArrayFree_dropWithin {log : Log} (logFree : log.isArrayFree) (path : Path) :
    (Draft.dropWithin path log).isArrayFree := by
  rw [isArrayFree_iff] at logFree ⊢
  exact fun op member => logFree op (Draft.mem_dropWithin.mp member).1

/-- Without the ops on a path and below it a log makes the same tree off the path. -/
theorem agreeOff_dropWithin {log : Log} (logFree : log.isArrayFree) {path : Path}
    (keys : path.isKeys) {left right : Json} (leftFree : left.isArrayFree)
    (rightFree : right.isArrayFree) (agree : Json.AgreeOff path left right) :
    Json.AgreeOff path (log.resolve left) (Log.resolve (Draft.dropWithin path log) right) := by
  rw [isArrayFree_iff] at logFree
  induction log generalizing left right with
  | nil => exact agree
  | cons op rest inductionHypothesis =>
      obtain ⟨opFree, restFree⟩ := List.forall_mem_cons.mp logFree
      have leftAfter := Op.isArrayFree_apply opFree leftFree
      rw [resolve_cons]
      by_cases within : op.path.isWithin path
      · rw [Draft.dropWithin_cons_of_within within]
        exact inductionHypothesis restFree leftAfter rightFree fun value =>
          (Op.setAt_apply_within opFree leftFree keys within value).trans (agree value)
      · rw [Draft.dropWithin_cons_of_not_within within, resolve_cons]
        exact inductionHypothesis restFree leftAfter (Op.isArrayFree_apply opFree rightFree)
          (Op.agreeOff_apply opFree keys leftFree rightFree agree)

/-- Setting a path after ops that do not affect it is setting it before them. -/
theorem setAt_resolve_same {log : Log} (logFree : log.isArrayFree) {path : Path}
    (keys : path.isKeys) (apart : ∀ op ∈ log, ¬ op.affects path) {tree : Json}
    (free : tree.isArrayFree) (value : Json) :
    ((log.resolve tree).setAt path value).Same (log.resolve (tree.setAt path value)) := by
  rw [isArrayFree_iff] at logFree
  induction log generalizing tree with
  | nil => exact Json.Same.refl _
  | cons op rest inductionHypothesis =>
      obtain ⟨opFree, restFree⟩ := List.forall_mem_cons.mp logFree
      obtain ⟨opApart, restApart⟩ := List.forall_mem_cons.mp apart
      exact (inductionHypothesis restFree restApart (Op.isArrayFree_apply opFree free)).trans
        ((Log.Same.refl rest).resolve (Op.setAt_apply_same opFree free keys opApart value))

end Log

namespace Draft

/-- Whether the defaults hold no array, and all ops are on paths of keys and set none. -/
def isArrayFree (draft : Draft) : Bool :=
  draft.defaults.isArrayFree && draft.log.isArrayFree

/-- Setting a path of keys in the log makes the tree that setting it in the tree makes. -/
theorem resolved_setPath_same {draft : Draft} (free : draft.isArrayFree) {path : Path}
    (keys : path.isKeys) (value : Json) :
    (draft.setPath path value).resolved.Same (draft.resolved.setAt path value) := by
  obtain ⟨defaultsFree, logFree⟩ := (Bool.and_eq_true _ _).mp free
  -- However the edit is recorded, the ops on the path may be dropped before it is set.
  have dropped : (draft.resolved.setAt path value).Same
      ((Log.resolve (dropWithin path draft.log) draft.defaults).setAt path value) :=
    Log.agreeOff_dropWithin logFree keys defaultsFree defaultsFree
      (fun _ => Json.Same.refl _) value
  have leftFree := Log.isArrayFree_dropWithin logFree path
  have outcome := draft.setOutcome path value
  generalize draft.setPath path value = edited at outcome ⊢
  cases outcome with
  | kept recorded =>
      obtain ⟨before, id, old, after, split, same, -, apart⟩ := split_of_alreadyRecords recorded
      simp only [resolved, split, Log.isArrayFree, List.all_append, List.all_cons,
        Bool.and_eq_true] at logFree ⊢
      have beforeFree := Log.isArrayFree_resolve logFree.1 defaultsFree
      have later := Log.setAt_resolve_same logFree.2.2 keys apart
        (Op.isArrayFree_apply logFree.2.1 beforeFree) value
      rw [Log.resolve_append, Log.resolve_cons]
      refine ((Log.Same.refl after).resolve ?_).trans later.symm
      rw [Op.apply, Json.setAt_setAt]
      exact (Json.Same.refl _).setAt same path
  | folded new split below last =>
      rename_i before after id ancestor rest container
      have member : ∀ op ∈ after, op ∈ dropWithin path draft.log := by
        intro op later
        rw [split]
        exact List.mem_append_right _ (List.mem_cons_of_mem _ later)
      have apart : ∀ op ∈ after, ¬ op.affects path := fun op later =>
        not_affects_of_mem_dropWithin (member op later) (last op later)
      rw [split] at dropped leftFree
      simp only [Log.isArrayFree, List.all_append, List.all_cons, Bool.and_eq_true] at leftFree
      have beforeFree := Log.isArrayFree_resolve leftFree.1 defaultsFree
      have ancestorKeys : ancestor.isKeys := Op.isKeys_path leftFree.2.1
      obtain rfl := Path.eq_append_of_relativeTo? keys ancestorKeys below
      refine Json.Same.symm (dropped.trans ?_)
      rw [resolved, Log.resolve_append, Log.resolve_append, Log.resolve_cons, Log.resolve_cons]
      refine (Log.setAt_resolve_same leftFree.2.2 keys apart
        (Op.isArrayFree_apply leftFree.2.1 beforeFree) value).trans ?_
      rw [Op.apply, Op.apply, Json.setAt_setAt_append]
  | restored | appended =>
      rw [resolved, log_appendSet, defaults_appendSet, Log.resolve_append]
      exact dropped.symm
  | elided new unowned found same =>
      have apart : ∀ op ∈ dropWithin path draft.log, ¬ op.affects path := fun op member =>
        not_affects_of_mem_dropWithin member (unowned op member)
      refine Json.Same.symm (dropped.trans
        ((Log.setAt_resolve_same leftFree keys apart defaultsFree value).trans ?_))
      refine (Log.Same.refl _).resolve ?_
      have unchanged := (Json.Same.refl draft.defaults).setAt same.symm path
      rwa [Json.setAt_of_lookup? found] at unchanged

/-- Without arrays, setting a field of an item in the log makes the tree that setting it in
the tree makes. So the field reads back as the value, and every path that is neither above
nor below it holds what it held. -/
theorem setField_refines_setAt (draft : Draft) (free : draft.isArrayFree) (id : String)
    (field : Path) (keys : field.isKeys) (value : Json) :
    (draft.setField id field value).resolved.Same
        (draft.resolved.setAt (Path.item id ++ field) value)
      ∧ Json.SameAt ((draft.setField id field value).resolved.lookup? (Path.item id ++ field))
          (some value)
      ∧ ∀ other : Path, ¬ other.isWithin (Path.item id ++ field) ->
          ¬ Path.isWithin (Path.item id ++ field) other ->
          Json.SameAt ((draft.setField id field value).resolved.lookup? other)
            (draft.resolved.lookup? other) := by
  have pathKeys : Path.isKeys (Path.item id ++ field) := by
    simpa [Path.isKeys, Path.item, Segment.isKey] using keys
  have refined := resolved_setPath_same free pathKeys value
  obtain ⟨defaultsFree, logFree⟩ := (Bool.and_eq_true _ _).mp free
  have resolvedFree : draft.resolved.isArrayFree := Log.isArrayFree_resolve logFree defaultsFree
  refine ⟨refined, ?_, ?_⟩
  · have found := refined.lookup? (Path.item id ++ field)
    rwa [Json.lookup?_setAt] at found
  · intro other notBelow notAbove
    have found := refined.lookup? other
    rwa [Json.lookup?_setAt_apart resolvedFree pathKeys notBelow notAbove] at found

/-- A field of a deleted item comes back alone: neither the op on the field that the delete
hides nor the other fields of the default show. -/
theorem setField_refines_setAt_after_delete :
    (setField
        { defaults := .object [("left", .object [("name", .string "L"), ("active", .bool false)])]
          log := [.set "1" [.key "left", .key "active"] .null, .delete "2" [.key "left"]]
          supply := ⟨0⟩ }
        "left" [.key "active"] (.bool true)).resolved.Same
      (.object [("left", .object [("active", .bool true)])]) := by
  have refined := setField_refines_setAt
    { defaults := .object [("left", .object [("name", .string "L"), ("active", .bool false)])]
      log := [.set "1" [.key "left", .key "active"] .null, .delete "2" [.key "left"]]
      supply := ⟨0⟩ } (by decide) "left" [.key "active"] (by decide) (.bool true)
  exact refined.1.trans (by decide)

end Draft

end LayerRouting
