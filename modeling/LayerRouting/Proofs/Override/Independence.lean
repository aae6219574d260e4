import LayerRouting.Proofs.Override.ArrayFree

/-!
# Independent edits

In trees without arrays, an op that does not affect a path commutes with setting it
(`Op.setAt_apply_same`), and an op on the path or below it leaves no trace once the path is
set (`Op.setAt_apply_within`). Two trees that differ only at a path and below it are told
apart by nothing else: `Json.AgreeOff` is kept by every op (`Op.agreeOff_apply`).
-/

namespace LayerRouting

namespace Json

theorem deleteAt?_null {path : Path} (below : path ≠ []) : null.deleteAt? path = none := by
  obtain ⟨segment, rest, rfl⟩ := List.exists_cons_of_ne_nil below
  cases rest with
  | nil => rfl
  | cons next rest => simp [deleteAt?_cons, child?]

theorem isObject_setAt {tree : Json} (free : tree.isArrayFree) {segment : Segment}
    (key : segment.isKey) (rest : Path) (value : Json) :
    (tree.setAt (segment :: rest) value).isObject := by
  rw [setAt_cons, isObject_setChild]
  exact isObject_containerFor free key

/-- The members after setting at a path of keys. -/
theorem get?_setAt {tree : Json} (free : tree.isArrayFree) {segment : Segment}
    (key : segment.isKey) (rest : Path) (value : Json) (name : String) :
    (tree.setAt (segment :: rest) value).get? name
      = if segment.asKey = name then some (((tree.get? name).getD .null).setAt rest value)
        else tree.get? name := by
  split
  · next same => rw [← same, get?_setAt_self (isObject_containerFor free key)]
  · next distinct => rw [get?_setAt_of_ne tree distinct]

theorem isArrayFree_getD_get? {tree : Json} (free : tree.isArrayFree) (key : String) :
    ((tree.get? key).getD .null).isArrayFree := by
  cases found : tree.get? key with
  | none => rfl
  | some child => exact isArrayFree_get? free found

/-- A path that neither is nor contains nor lies below the one that is set keeps what it
holds. -/
theorem lookup?_setAt_apart {tree : Json} (free : tree.isArrayFree) {path other : Path}
    (keys : path.isKeys) (notBelow : ¬ other.isWithin path) (notAbove : ¬ path.isWithin other)
    (value : Json) : (tree.setAt path value).lookup? other = tree.lookup? other := by
  induction path generalizing tree other with
  | nil => exact absurd (Path.isWithin_nil other) notBelow
  | cons segment rest inductionHypothesis =>
      obtain ⟨key, restKeys⟩ := Path.isKeys_cons.mp keys
      cases other with
      | nil => exact absurd (Path.isWithin_nil _) notAbove
      | cons first others =>
          obtain ⟨entries, set⟩ := isObject_iff.mp (isObject_setAt free key rest value)
          have members := get?_setAt free key rest value first.asKey
          have child : (object entries).child? first = (object entries).get? first.asKey := rfl
          rw [lookup?_cons, lookup?_cons, child?_of_isArrayFree free, set, child, ← set, members]
          split
          · next same =>
              rw [Path.isWithin_cons_cons] at notBelow notAbove
              have below := fun within => notBelow ⟨same, within⟩
              have above := fun within => notAbove ⟨same.symm, within⟩
              rw [Option.bind_some, inductionHypothesis (isArrayFree_getD_get? free _) restKeys
                below above]
              cases tree.get? first.asKey with
              | some child => rfl
              | none =>
                  have further : others ≠ [] := by
                    rintro rfl
                    exact above (Path.isWithin_nil rest)
                  exact lookup?_null further
          · rfl

end Json

namespace Item

/-- An op below a member changes the member as the rest of the op would change it alone;
null stands for an absent member. -/
theorem getD_afterOp {op : Op} {segment : Segment} {rest : Path}
    (path : op.path = segment :: rest) (further : rest ≠ []) (value : Option Json) :
    (afterOp op value).getD .null = (op.withPath rest).apply (value.getD .null) := by
  cases op with
  | set id setPath installed =>
      obtain rfl : setPath = segment :: rest := path
      rw [afterOp_set]
      rfl
  | delete id deletePath =>
      obtain rfl : deletePath = segment :: rest := path
      rw [afterOp_delete, if_neg further]
      cases value with
      | none => simp [Op.withPath, Op.apply, Json.deleteAt?_null further]
      | some old => rfl

theorem afterOp_some {op : Op} {segment : Segment} {rest : Path}
    (path : op.path = segment :: rest) (further : rest ≠ []) (value : Json) :
    afterOp op (some value) = some ((op.withPath rest).apply value) := by
  cases op with
  | set id setPath installed =>
      obtain rfl : setPath = segment :: rest := path
      rw [afterOp_set]
      rfl
  | delete id deletePath =>
      obtain rfl : deletePath = segment :: rest := path
      rw [afterOp_delete, if_neg further]
      rfl

end Item

namespace Op

@[simp]
theorem path_withPath (op : Op) (path : Path) : (op.withPath path).path = path := by
  cases op <;> rfl

/-! ## Apart from a path -/

/-- An op that does not affect a path commutes with setting it. -/
theorem setAt_apply_same {op : Op} (opFree : op.isArrayFree) {tree : Json}
    (free : tree.isArrayFree) {path : Path} (keys : path.isKeys) (apart : ¬ op.affects path)
    (value : Json) :
    ((op.apply tree).setAt path value).Same (op.apply (tree.setAt path value)) := by
  induction path generalizing op tree with
  | nil => exact absurd (Path.isWithin_nil op.path) (not_affects_iff.mp apart).1
  | cons segment rest inductionHypothesis =>
      obtain ⟨key, restKeys⟩ := Path.isKeys_cons.mp keys
      obtain ⟨notBelow, notAbove⟩ := not_affects_iff.mp apart
      cases opPath : op.path with
      | nil =>
          rw [opPath] at notAbove
          exact absurd (Path.isWithin_nil _) notAbove
      | cons first others =>
          rw [opPath, Path.isWithin_cons_cons] at notBelow notAbove
          have changed : (op.apply tree).isArrayFree := isArrayFree_apply opFree free
          have below : op.path ≠ [] := by simp [opPath]
          have set := Json.isObject_setAt free key rest value
          refine Json.same_of_get? (Json.isObject_setAt changed key rest value)
            (isObject_apply below set) fun name => ?_
          rw [Json.get?_setAt changed key, get?_apply_of_isArrayFree opFree opPath free,
            get?_apply opPath (by rwa [Json.containerFor_of_isObject set]),
            Json.get?_setAt free key]
          by_cases here : segment.asKey = name
          · subst here
            by_cases same : first.asKey = segment.asKey
            · -- Both go on below one member, so the rest of the paths decides.
              have further : others ≠ [] := by
                rintro rfl
                exact notAbove ⟨same, Path.isWithin_nil rest⟩
              have opKeys := isKeys_path opFree
              rw [opPath, Path.isKeys_cons] at opKeys
              have inner := inductionHypothesis (isArrayFree_withPath opFree opKeys.2)
                (Json.isArrayFree_getD_get? free segment.asKey) restKeys
                (by
                  rw [not_affects_iff, path_withPath]
                  exact ⟨fun within => notBelow ⟨same.symm, within⟩,
                    fun within => notAbove ⟨same, within⟩⟩)
              rw [if_pos rfl, if_pos same, if_pos same, if_pos rfl,
                Item.getD_afterOp opPath further, Item.afterOp_some opPath further]
              exact Json.SameAt.some_some.mpr inner
            · simp [same]
          · simp [here]

/-! ## On a path and below it -/

/-- Where a path has been deleted nothing is found. -/
theorem lookup?_apply_delete (id : String) {tree : Json} (free : tree.isArrayFree) {path : Path}
    (keys : path.isKeys) (below : path ≠ []) :
    ((delete id path).apply tree).lookup? path = none := by
  induction path generalizing tree with
  | nil => exact absurd rfl below
  | cons segment rest inductionHypothesis =>
      obtain ⟨key, restKeys⟩ := Path.isKeys_cons.mp keys
      have opFree : (delete id (segment :: rest)).isArrayFree := keys
      rw [Json.lookup?_cons, Json.child?_of_isArrayFree (isArrayFree_apply opFree free),
        get?_apply_of_isArrayFree opFree rfl free, if_pos rfl, Item.afterOp_delete]
      split
      · rfl
      · next further =>
          cases found : tree.get? segment.asKey with
          | none => rfl
          | some child =>
              exact inductionHypothesis (Json.isArrayFree_get? free found) restKeys further

/-- A path that is set holds nothing of its own past, even if it was deleted; only its
place among other keys can change. -/
theorem setAt_apply_delete (id : String) {tree : Json} (free : tree.isArrayFree) {path : Path}
    (keys : path.isKeys) (value : Json) :
    (((delete id path).apply tree).setAt path value).Same (tree.setAt path value) := by
  induction path generalizing tree with
  | nil => exact Json.Same.refl value
  | cons segment rest inductionHypothesis =>
      obtain ⟨key, restKeys⟩ := Path.isKeys_cons.mp keys
      have opFree : (delete id (segment :: rest)).isArrayFree := keys
      have changed := isArrayFree_apply opFree free
      refine Json.same_of_get? (Json.isObject_setAt changed key rest value)
        (Json.isObject_setAt free key rest value) fun name => ?_
      rw [Json.get?_setAt changed key, Json.get?_setAt free key,
        get?_apply_of_isArrayFree opFree rfl free]
      by_cases here : segment.asKey = name
      · rw [if_pos here, if_pos here, if_pos here]
        refine Json.SameAt.some_some.mpr ?_
        by_cases further : rest = []
        · subst further
          exact Json.Same.refl value
        · rw [Item.getD_afterOp rfl further]
          exact inductionHypothesis (Json.isArrayFree_getD_get? free name) restKeys
      · simp [here]

/-- An op on a path or below it does not matter once the path is set. -/
theorem setAt_apply_within {op : Op} (opFree : op.isArrayFree) {tree : Json}
    (free : tree.isArrayFree) {path : Path} (keys : path.isKeys) (within : op.path.isWithin path)
    (value : Json) : ((op.apply tree).setAt path value).Same (tree.setAt path value) := by
  obtain ⟨rest, opPath⟩ := Path.exists_append_of_isWithin (isKeys_path opFree) keys within
  cases op with
  | set id setPath installed =>
      obtain rfl : setPath = path ++ rest := opPath
      rw [apply, Json.setAt_append_setAt]
  | delete id deletePath =>
      obtain rfl : deletePath = path ++ rest := opPath
      by_cases further : rest = []
      · subst further
        simpa using setAt_apply_delete id free keys value
      · rw [apply, Json.deleteAt?_append _ _ further]
        cases tree.lookup? path with
        | none => rfl
        | some inner =>
            cases left : inner.deleteAt? rest with
            | none => simp [left, Json.Same.refl]
            | some changed => simp [left, Json.setAt_setAt, Json.Same.refl]

end Op

/-! ## Trees that differ at a path only -/

/-- Whether two trees are the same but for what they hold at a path. -/
def Json.AgreeOff (path : Path) (left right : Json) : Prop :=
  ∀ value, (left.setAt path value).Same (right.setAt path value)

namespace Op

/-- Setting below the path of an op, after the op, is setting a value at that path, and the
same value for every tree. -/
theorem exists_setAt_apply {op : Op} (opFree : op.isArrayFree) (rest : Path) (value : Json) :
    ∃ installed, ∀ tree : Json, tree.isArrayFree ->
      ((op.apply tree).setAt (op.path ++ rest) value).Same (tree.setAt op.path installed) := by
  cases op with
  | set id path container =>
      refine ⟨container.setAt rest value, fun tree _ => ?_⟩
      rw [apply, Op.path, Json.setAt_setAt_append]
  | delete id path =>
      refine ⟨Json.null.setAt rest value, fun tree free => ?_⟩
      by_cases below : path = []
      · subst below
        exact Json.Same.refl _
      · rw [Op.path, Json.setAt_append, lookup?_apply_delete id free opFree below]
        exact setAt_apply_delete id free opFree _

/-- Every op keeps two trees agreeing off a path. -/
theorem agreeOff_apply {op : Op} (opFree : op.isArrayFree) {path : Path} (keys : path.isKeys)
    {left right : Json} (leftFree : left.isArrayFree) (rightFree : right.isArrayFree)
    (agree : Json.AgreeOff path left right) :
    Json.AgreeOff path (op.apply left) (op.apply right) := by
  intro value
  by_cases within : op.path.isWithin path
  · exact (setAt_apply_within opFree leftFree keys within value).trans
      ((agree value).trans (setAt_apply_within opFree rightFree keys within value).symm)
  · by_cases above : path.isWithin op.path
    · obtain ⟨rest, rfl⟩ := Path.exists_append_of_isWithin keys (isKeys_path opFree) above
      obtain ⟨installed, replaced⟩ := exists_setAt_apply opFree rest value
      have outer := (agree value).setAt (Json.Same.refl installed) op.path
      rw [Json.setAt_append_setAt, Json.setAt_append_setAt] at outer
      exact (replaced left leftFree).trans (outer.trans (replaced right rightFree).symm)
    · have apart : ¬ op.affects path := not_affects_iff.mpr ⟨within, above⟩
      exact (setAt_apply_same opFree leftFree keys apart value).trans
        (((Op.Same.refl op).apply (agree value)).trans
          (setAt_apply_same opFree rightFree keys apart value).symm)

end Op

end LayerRouting
