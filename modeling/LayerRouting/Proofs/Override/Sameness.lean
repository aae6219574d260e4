import LayerRouting.Override.Resolution
import LayerRouting.Proofs.Override.Places
import Mathlib.Data.List.InsertIdx

/-!
# Resolution respects equality of values

Trees that are the same stay the same when the same is looked up, set or deleted in them,
so logs that are the same make trees that are the same of defaults that are the same
(`Log.Same.resolve`).
-/

namespace LayerRouting

namespace Json

/-! ## One segment -/

theorem same_array_getElem? {xs ys : List Json} (same : xs.map canonical = ys.map canonical)
    (position : Nat) : SameAt xs[position]? ys[position]? := by
  simp only [SameAt, ← List.getElem?_map, same]

theorem Same.child? {left right : Json} (same : left.Same right) (segment : Segment) :
    SameAt (left.child? segment) (right.child? segment) := by
  rcases same.shape with ⟨xs, ys, rfl, rfl⟩ | ⟨xs, ys, rfl, rfl⟩ | ⟨lo, la, ro, ra⟩
  · exact same_object_iff.mp same segment.asKey
  · simp only [Json.child?]
    cases segment.asIndex? with
    | none => exact SameAt.refl none
    | some position => exact same_array_getElem? (same_array_iff.mp same) position
  · cases left <;> cases right <;> simp_all [Json.child?]

theorem Same.containerFor {left right : Json} (same : left.Same right) (segment : Segment) :
    (left.containerFor segment).Same (right.containerFor segment) := by
  rcases same.shape with ⟨xs, ys, rfl, rfl⟩ | ⟨xs, ys, rfl, rfl⟩ | ⟨lo, la, ro, ra⟩
  · exact same
  · simp only [Json.containerFor]
    split
    · exact same
    · exact Same.refl _
  · cases left <;> cases right <;> simp_all [Json.containerFor, Same.refl]

theorem canonical_setItem (items : List Json) (position : Nat) (value : Json) :
    (setItem items position value).map canonical
      = setItem (items.map canonical) position value.canonical := by
  simp [setItem, List.map_set, canonical]

theorem Same.setChild {left right value value' : Json} (same : left.Same right)
    (sameValue : value.Same value') (segment : Segment) :
    (left.setChild segment value).Same (right.setChild segment value') := by
  rcases same.shape with ⟨xs, ys, rfl, rfl⟩ | ⟨xs, ys, rfl, rfl⟩ | ⟨lo, la, ro, ra⟩
  · refine same_object_iff.mpr fun key => ?_
    simp only [Entries.get?_insert]
    split
    · exact SameAt.some_some.mpr sameValue
    · exact same_object_iff.mp same key
  · simp only [Json.setChild]
    cases segment.asIndex? with
    | none => exact same
    | some position =>
        have canonicalValue : value.canonical = value'.canonical := sameValue
        refine same_array_iff.mpr ?_
        rw [canonical_setItem, canonical_setItem, same_array_iff.mp same, canonicalValue]
  · cases left <;> cases right <;> simp_all [Json.setChild]

theorem Same.removeChild? {left right : Json} (same : left.Same right) (segment : Segment) :
    SameAt (left.removeChild? segment) (right.removeChild? segment) := by
  rcases same.shape with ⟨xs, ys, rfl, rfl⟩ | ⟨xs, ys, rfl, rfl⟩ | ⟨lo, la, ro, ra⟩
  · have members := same_object_iff.mp same
    simp only [Json.removeChild?, (members segment.asKey).isSome_eq]
    split
    · refine SameAt.some_some.mpr (same_object_iff.mpr fun key => ?_)
      simp only [Entries.get?_erase]
      split
      · exact SameAt.refl none
      · exact members key
    · exact SameAt.refl none
  · have items := same_array_iff.mp same
    have lengths : xs.length = ys.length := by simpa using congrArg List.length items
    simp only [Json.removeChild?, lengths]
    cases segment.asIndex? with
    | none => exact SameAt.refl none
    | some position =>
        simp only
        split
        · refine SameAt.some_some.mpr (same_array_iff.mpr ?_)
          rw [← List.eraseIdx_map, ← List.eraseIdx_map, items]
        · exact SameAt.refl none
  · cases left <;> cases right <;> simp_all [Json.removeChild?]

/-! ## Paths -/

/-- The same is found at a path of trees that are the same. -/
theorem Same.lookup? {left right : Json} (same : left.Same right) (path : Path) :
    SameAt (left.lookup? path) (right.lookup? path) := by
  induction path generalizing left right with
  | nil => exact SameAt.some_some.mpr same
  | cons segment rest inductionHypothesis =>
      exact (same.child? segment).bind inductionHypothesis

/-- Setting values that are the same in trees that are the same. -/
theorem Same.setAt {left right value value' : Json} (same : left.Same right)
    (sameValue : value.Same value') (path : Path) :
    (left.setAt path value).Same (right.setAt path value') := by
  induction path generalizing left right with
  | nil => exact sameValue
  | cons segment rest inductionHypothesis =>
      rw [setAt_cons, setAt_cons]
      exact (same.containerFor segment).setChild
        (inductionHypothesis ((same.child? segment).getD .null)) segment

/-- Deleting at a path of trees that are the same. -/
theorem Same.deleteAt? {left right : Json} (same : left.Same right) (path : Path) :
    SameAt (left.deleteAt? path) (right.deleteAt? path) := by
  induction path generalizing left right with
  | nil => exact SameAt.refl _
  | cons segment rest inductionHypothesis =>
      cases rest with
      | nil => exact same.removeChild? segment
      | cons next rest =>
          rw [deleteAt?_cons left segment (by simp), deleteAt?_cons right segment (by simp)]
          exact (same.child? segment).bind fun sameChild =>
            (inductionHypothesis sameChild).map fun changed => same.setChild changed segment

end Json

/-! ## Ops and logs -/

/-- Ops that are the same make trees that are the same of trees that are the same. -/
theorem Op.Same.apply {op op' : Op} (same : op.Same op') {left right : Json}
    (sameTree : left.Same right) : (op.apply left).Same (op'.apply right) := by
  cases op with
  | set id path value =>
      cases op' with
      | set id' path' value' =>
          obtain ⟨-, rfl, sameValue⟩ := same
          exact sameTree.setAt sameValue path
      | delete id' path' => exact same.elim
  | delete id path =>
      cases op' with
      | set id' path' value' => exact same.elim
      | delete id' path' =>
          obtain ⟨-, rfl⟩ := same
          simp only [Op.apply]
          have changed := sameTree.deleteAt? path
          cases leftChanged : left.deleteAt? path <;> cases rightChanged : right.deleteAt? path
            <;> simp_all

theorem Op.Same.refl (op : Op) : op.Same op := by
  cases op with
  | set id path value => exact ⟨rfl, rfl, Json.Same.refl value⟩
  | delete id path => exact ⟨rfl, rfl⟩

theorem Log.Same.refl (log : Log) : log.Same log := by
  induction log with
  | nil => trivial
  | cons op rest inductionHypothesis => exact ⟨Op.Same.refl op, inductionHypothesis⟩

/-- Logs that are the same make trees that are the same. -/
theorem Log.Same.resolve {log log' : Log} (same : log.Same log') {left right : Json}
    (sameTree : left.Same right) : (log.resolve left).Same (log'.resolve right) := by
  induction log generalizing log' left right with
  | nil =>
      cases log' with
      | nil => exact sameTree
      | cons op' rest' => exact same.elim
  | cons op rest inductionHypothesis =>
      cases log' with
      | nil => exact same.elim
      | cons op' rest' => exact inductionHypothesis same.2 (same.1.apply sameTree)

end LayerRouting
