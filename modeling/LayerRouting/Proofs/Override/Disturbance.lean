import LayerRouting.Proofs.Override.Independence

/-!
# Trees that an op disturbs

An op changes what is found on its path, above it and below it. In trees without arrays that is all.
In an array it is not: two texts can be one index; deleting an element moves the ones behind it;
setting an element far behind the end makes the ones in front of it; and setting a name puts an
object in the array's place. `Op.disturbs` says in which trees one of this can happen at a path.
Where it cannot, the same value is found at the path before and after the op, or none both times
(`Op.lookup?_apply_of_not_disturbs`).
-/

namespace LayerRouting

/-! ## Where two ways meet and part -/

/-- Whether two segments are one index of arrays, whatever their texts. -/
def Segment.SharesIndex (left right : Segment) : Prop :=
  left.asIndex?.isSome ∧ left.asIndex? = right.asIndex?

instance (left right : Segment) : Decidable (left.SharesIndex right) :=
  inferInstanceAs (Decidable (_ ∧ _))

namespace Json

/-- The items of an array; a tree of another kind has none. -/
def items? : Json -> Option (List Json)
  | .array items => some items
  | _ => none

/-- The items among which an op finds the place of a segment: those of an array, or no items where
setting makes an array. -/
def itemsAt? (deletes : Bool) (segment : Segment) (tree : Json) : Option (List Json) :=
  if deletes then tree.items? else tree.items?.or (tree.containerFor segment).items?

/-- Whether two segments lead to one place of a tree, for an op at the first of them. -/
def Joins (deletes : Bool) (tree : Json) (first segment : Segment) : Prop :=
  first.Matches segment ∨ first.SharesIndex segment ∧ (tree.itemsAt? deletes first).isSome

instance (deletes : Bool) (tree : Json) (first segment : Segment) :
    Decidable (tree.Joins deletes first segment) :=
  inferInstanceAs (Decidable (_ ∨ _))

/-- Segments that lead to one place are one index, or none is. -/
theorem Joins.asIndex?_eq {deletes : Bool} {tree : Json} {first segment : Segment}
    (joined : tree.Joins deletes first segment) : first.asIndex? = segment.asIndex? :=
  joined.elim Segment.asIndex?_congr fun shared => shared.1.2

end Json

namespace Path

/-- Whether an edit of one element of an array, or below it, shows at another element or below it.
Deleting moves the elements behind the deleted one; setting makes the nulls in front of the one
that is set. -/
def disturbsElement (deletes : Bool) (others rest : Path) (edited position length : Nat) : Bool :=
  if deletes then others = [] && edited < position && position < length
  else rest = [] && length ≤ position && position < edited

/-- Whether setting or deleting at a place can change what is found at a path of a tree. -/
def disturbs (deletes : Bool) : Path -> Path -> Json -> Bool
  | first :: others, segment :: rest, tree =>
      if tree.Joins deletes first segment then
        disturbs deletes others rest ((tree.child? segment).getD .null)
      else
        match tree.itemsAt? deletes first, first.asIndex?, segment.asIndex? with
        | some items, some edited, some position =>
            disturbsElement deletes others rest edited position items.length
        | some items, none, some position => !deletes && position < items.length
        | _, _, _ => false
  | _, _, _ => true

variable {deletes : Bool} {first segment : Segment} {others rest : Path} {tree : Json}

theorem disturbs_cons_of_joins (joined : tree.Joins deletes first segment) :
    disturbs deletes (first :: others) (segment :: rest) tree
      = disturbs deletes others rest ((tree.child? segment).getD .null) :=
  if_pos joined

/-- Where no items are found, the texts decide. -/
theorem disturbs_cons_of_not_items (here : tree.itemsAt? deletes first = none)
    (distinct : ¬ first.Matches segment) :
    disturbs deletes (first :: others) (segment :: rest) tree = false := by
  rw [disturbs, if_neg, here]
  rintro (same | ⟨-, found⟩)
  · exact distinct same
  · simp [here] at found

/-- At a name of the path, the texts decide. -/
theorem disturbs_cons_of_name (name : segment.asIndex? = none)
    (distinct : ¬ first.Matches segment) :
    disturbs deletes (first :: others) (segment :: rest) tree = false := by
  rw [disturbs, if_neg, name]
  · cases tree.itemsAt? deletes first <;> cases first.asIndex? <;> rfl
  · rintro (same | ⟨⟨known, shared⟩, -⟩)
    · exact distinct same
    · simp [shared, name] at known

end Path

/-- Whether an op can change what is found at a path of a tree. -/
def Op.disturbs (op : Op) (path : Path) (tree : Json) : Bool :=
  Path.disturbs op.isDelete op.path path tree

/-! ## One segment -/

namespace Json

variable {deletes : Bool} {tree : Json} {first segment : Segment} {others rest : Path}
  {items : List Json}

/-- The child at a segment stands for what is found below it, null for no child. -/
theorem lookup?_cons_of_ne_nil (further : rest ≠ []) :
    tree.lookup? (segment :: rest) = ((tree.child? segment).getD .null).lookup? rest := by
  rw [lookup?_cons]
  cases tree.child? segment with
  | none => exact (lookup?_null further).symm
  | some child => rfl

theorem items?_of_isObject (object : tree.isObject) : tree.items? = none := by
  obtain ⟨entries, rfl⟩ := isObject_iff.mp object
  rfl

/-- Where no array is, a child is a member, and so is a child under a name. -/
theorem child?_eq_get? {segment : Segment} (plain : tree.items? = none ∨ segment.asIndex? = none) :
    tree.child? segment = tree.get? segment.asKey := by
  cases tree <;> simp_all [child?, Json.get?, items?]

/-- Segments that are one index lead to one child of any tree but an object. -/
theorem child?_eq_of_sharesIndex (other : ¬ tree.isObject) (shared : first.SharesIndex segment) :
    tree.child? first = tree.child? segment := by
  cases tree with
  | object entries => exact absurd rfl other
  | array items => rw [child?, child?, shared.2]
  | null | bool | number | string => rfl

/-- An object has no items. -/
theorem itemsAt?_of_isObject (object : tree.isObject) : tree.itemsAt? deletes first = none := by
  obtain ⟨entries, rfl⟩ := isObject_iff.mp object
  exact ite_self none

theorem itemsAt?_array : (array items).itemsAt? deletes first = some items := by
  cases deletes <;> rfl

theorem not_isObject_of_itemsAt? (here : tree.itemsAt? deletes first = some items) :
    ¬ tree.isObject := by
  intro object
  simp [itemsAt?_of_isObject object] at here

/-- The items for a set are those of the container that it fills, if the segment is an index. -/
theorem containerFor_of_itemsAt? (here : tree.itemsAt? false first = some items)
    (index : first.asIndex?.isSome) : tree.containerFor first = array items := by
  cases tree with
  | object entries => simp [itemsAt?, items?, containerFor] at here
  | array held => simp_all [itemsAt?, items?, containerFor]
  | null | bool | number | string =>
      cases first <;> simp_all [itemsAt?, items?, containerFor, emptyFor]

/-- Where no array is, a key finds no items. -/
theorem itemsAt?_of_isArrayFree (free : tree.isArrayFree) (key : first.isKey) :
    tree.itemsAt? deletes first = none := by
  have plain : tree.items? = none := by
    cases tree with
    | array held => cases free
    | object | null | bool | number | string => rfl
  rw [itemsAt?, plain, items?_of_isObject (isObject_containerFor free key)]
  exact ite_self none

/-- The items for a delete are those of an array. -/
theorem eq_array_of_itemsAt? (here : tree.itemsAt? true first = some items) :
    tree = array items := by
  cases tree <;> simp_all [itemsAt?, items?]

/-- What an op finds at a segment it finds among the items. -/
theorem child?_of_itemsAt? (here : tree.itemsAt? deletes first = some items) (segment : Segment) :
    tree.child? segment = (array items).child? segment := by
  cases tree with
  | object entries => exact absurd rfl (not_isObject_of_itemsAt? here)
  | array held => cases deletes <;> simp_all [itemsAt?, items?]
  | null | bool | number | string =>
      cases deletes <;> cases first <;>
        simp_all [itemsAt?, items?, containerFor, emptyFor, child?]

/-- Setting at a name makes an object of an array, in which nothing else is found. -/
theorem child?_setAt_of_name (name : first.asIndex? = none) (distinct : ¬ first.Matches segment)
    (other : ¬ tree.isObject) (new : Json) :
    (tree.setAt (first :: others) new).child? segment = none := by
  have replaced : (tree.setAt (first :: others) new).items? = none := by
    rw [setAt_cons]
    cases first with
    | index edited => cases name
    | key text => cases tree <;> simp_all [containerFor, emptyFor, setChild, items?]
  rw [child?_eq_get? (.inl replaced), get?_setAt_of_ne tree distinct, get?_of_not_isObject other]

end Json

namespace Op

variable {op : Op} {tree : Json} {first segment : Segment} {others rest path : Path}
  {items : List Json}

/-- The child that an op goes through, or that it sets. -/
theorem child?_apply (placed : op.path = first :: others) (further : op.isDelete -> others ≠ [])
    (tree : Json) : (op.apply tree).child? first = Item.afterOp op (tree.child? first) := by
  cases op with
  | set id place new =>
      obtain rfl : place = first :: others := placed
      rw [apply, Json.setAt_cons, Json.child?_setChild_containerFor, Item.afterOp_set]
  | delete id place =>
      obtain rfl : place = first :: others := placed
      rw [Item.afterOp_delete, if_neg (further rfl), apply, Json.deleteAt?_cons _ _ (further rfl)]
      cases here : tree.child? first with
      | none => simp [here]
      | some child =>
          cases deleted : child.deleteAt? others with
          | none => simp [here, deleted]
          | some left =>
              have shown := Json.child?_setChild_containerFor tree first left
              rw [Json.containerFor_of_child? here] at shown
              simp [deleted, shown]

/-- An op below the root leaves the members of other names alone, whatever the tree is. -/
theorem get?_apply_of_ne (placed : op.path = first :: others) {key : String}
    (distinct : first.asKey ≠ key) (tree : Json) : (op.apply tree).get? key = tree.get? key := by
  cases op with
  | set id place new =>
      obtain rfl : place = first :: others := placed
      exact Json.get?_setAt_of_ne tree distinct others new
  | delete id place =>
      obtain rfl : place = first :: others := placed
      rw [apply, Json.get?_deleteAt?, if_neg distinct]

/-- An op that finds no items at its segment leaves none. -/
theorem items?_apply (placed : op.path = first :: others)
    (here : tree.itemsAt? op.isDelete first = none) : (op.apply tree).items? = none := by
  cases op with
  | set id place new =>
      obtain rfl : place = first :: others := placed
      obtain ⟨-, made⟩ := Option.or_eq_none_iff.mp here
      rw [apply, Json.setAt_cons]
      revert made
      cases tree.containerFor first <;> simp [Json.items?, Json.setChild]
  | delete id place =>
      obtain rfl : place = first :: others := placed
      cases tree with
      | object entries =>
          refine Json.items?_of_isObject ?_
          rw [apply, Json.isObject_getD_deleteAt? _ (List.cons_ne_nil _ _)]
          rfl
      | array items => cases here
      | null | bool | number | string =>
          cases others <;> simp [apply, Json.deleteAt?, Json.removeChild?, Json.child?, Json.items?]

/-- An op that finds items at an index leaves no object. -/
theorem not_isObject_apply (placed : op.path = first :: others)
    (here : tree.itemsAt? op.isDelete first = some items) (index : first.asIndex?.isSome) :
    ¬ (op.apply tree).isObject := by
  cases op with
  | set id place new =>
      obtain rfl : place = first :: others := placed
      rw [apply, Json.setAt_cons, Json.isObject_setChild, Json.containerFor_of_itemsAt? here index]
      exact Bool.false_ne_true
  | delete id place =>
      obtain rfl : place = first :: others := placed
      rw [apply, Json.isObject_getD_deleteAt? tree (List.cons_ne_nil _ _)]
      exact Json.not_isObject_of_itemsAt? here

/-- Where two segments lead to one place, the op changes what the path goes through. -/
theorem child?_apply_of_joins (placed : op.path = first :: others)
    (further : op.isDelete -> others ≠ []) (joined : tree.Joins op.isDelete first segment) :
    (op.apply tree).child? segment = Item.afterOp op (tree.child? segment) := by
  obtain same | ⟨shared, inArray⟩ := joined
  · rw [← Json.child?_congr same, ← Json.child?_congr same, child?_apply placed further]
  · obtain ⟨items, here⟩ := Option.isSome_iff_exists.mp inArray
    rw [← Json.child?_eq_of_sharesIndex (Json.not_isObject_of_itemsAt? here) shared,
      ← Json.child?_eq_of_sharesIndex (not_isObject_apply placed here shared.1) shared,
      child?_apply placed further]

/-! ## Where the ways part -/

/-- Where an op finds no items, a path that parts from it leads to what it led to. -/
theorem child?_apply_of_not_items (placed : op.path = first :: others)
    (here : tree.itemsAt? op.isDelete first = none) (distinct : ¬ first.Matches segment) :
    (op.apply tree).child? segment = tree.child? segment := by
  have plain : tree.items? = none := by
    cases deletes : op.isDelete <;> simp_all [Json.itemsAt?]
  rw [Json.child?_eq_get? (.inl plain), Json.child?_eq_get? (.inl (items?_apply placed here)),
    get?_apply_of_ne placed distinct]

/-- A name of a path leads past all items, so an op at another place leaves what it leads to. -/
theorem child?_apply_of_name (placed : op.path = first :: others)
    (distinct : ¬ first.Matches segment) (name : segment.asIndex? = none) :
    (op.apply tree).child? segment = tree.child? segment := by
  rw [Json.child?_eq_get? (.inr name), Json.child?_eq_get? (.inr name),
    get?_apply_of_ne placed distinct]

/-- An op at a name among items leaves a path that leads behind them, and all of them if it
deletes. -/
theorem child?_apply_of_first_name (placed : op.path = first :: others)
    (here : tree.itemsAt? op.isDelete first = some items) (distinct : ¬ first.Matches segment)
    (name : first.asIndex? = none) {position : Nat} (index : segment.asIndex? = some position)
    (behind : op.isDelete ∨ items.length ≤ position) :
    (op.apply tree).child? segment = tree.child? segment := by
  cases op with
  | set id place new =>
      obtain rfl : place = first :: others := placed
      have vacant : tree.child? segment = none := by
        rw [Json.child?_of_itemsAt? here, Json.child?, index]
        exact List.getElem?_eq_none (by simpa [isDelete] using behind)
      rw [apply, Json.child?_setAt_of_name name distinct (Json.not_isObject_of_itemsAt? here),
        vacant]
  | delete id place =>
      obtain rfl : place = first :: others := placed
      obtain rfl := Json.eq_array_of_itemsAt? here
      cases others <;> simp [apply, Json.deleteAt?, Json.removeChild?, Json.child?, name]

/-- Setting an item shows at another only if it makes it, as null. -/
theorem lookup?_set_item (id : String) (new : Json)
    (here : tree.itemsAt? false first = some items) {edited position : Nat}
    (firstIndex : first.asIndex? = some edited) (index : segment.asIndex? = some position)
    (distinct : edited ≠ position)
    (calm : Path.disturbsElement false others rest edited position items.length = false) :
    ((set id (first :: others) new).apply tree).lookup? (segment :: rest)
      = tree.lookup? (segment :: rest) := by
  rw [Json.lookup?_cons, Json.lookup?_cons, Json.child?_of_itemsAt? here, apply, Json.setAt_cons,
    Json.containerFor_of_itemsAt? here (by simp [firstIndex])]
  simp only [Json.setChild, firstIndex, Json.child?, index, Option.bind_some,
    Json.setItem_getElem?, if_neg distinct.symm]
  by_cases inside : position < items.length
  · rw [if_pos inside]
  · have outside := Nat.le_of_not_lt inside
    rw [if_neg inside, List.getElem?_eq_none outside]
    split
    · next before =>
        have further : rest ≠ [] := by
          rintro rfl
          simp [Path.disturbsElement, before, outside] at calm
        exact Json.lookup?_null further
    · rfl

/-- Removing an item leaves the ones in front of it. -/
theorem child?_delete_item (id : String) {edited position : Nat}
    (firstIndex : first.asIndex? = some edited) (index : segment.asIndex? = some position)
    (before : position < edited ∨ items.length ≤ position) :
    ((delete id [first]).apply (.array items)).child? segment = items[position]? := by
  simp only [apply, Json.deleteAt?, Json.removeChild?, firstIndex]
  split
  · rw [Option.getD_some, Json.child?, index, Option.bind_some]
    obtain before | outside := before
    · exact List.getElem?_eraseIdx_of_lt before
    · rw [List.getElem?_eq_none outside]
      exact List.getElem?_eq_none ((List.length_eraseIdx_le items edited).trans outside)
  · rw [Option.getD_none, Json.child?, index, Option.bind_some]

/-- Deleting below an item leaves the other ones. -/
theorem child?_delete_below_item (id : String) (further : others ≠ []) {edited position : Nat}
    (firstIndex : first.asIndex? = some edited) (index : segment.asIndex? = some position)
    (distinct : edited ≠ position) :
    ((delete id (first :: others)).apply (.array items)).child? segment = items[position]? := by
  rw [apply, Json.deleteAt?_cons _ _ further, Json.child?, firstIndex, Option.bind_some]
  cases found : items[edited]? with
  | none => simp [Json.child?, index]
  | some child =>
      have inside := (List.getElem?_eq_some_iff.mp found).1
      cases deleted : child.deleteAt? others with
      | none => simp [deleted, Json.child?, index]
      | some left =>
          simp only [Option.bind_some, deleted, Option.map_some, Option.getD_some, Json.setChild,
            firstIndex, Json.child?, index, Json.setItem_getElem?, if_neg distinct.symm]
          split
          · rfl
          · rw [if_neg (by omega), List.getElem?_eq_none (by omega)]

/-- An edit of one item shows at another only if it moves it or makes it. -/
theorem lookup?_apply_of_not_disturbsElement (placed : op.path = first :: others)
    (here : tree.itemsAt? op.isDelete first = some items) {edited position : Nat}
    (firstIndex : first.asIndex? = some edited) (index : segment.asIndex? = some position)
    (distinct : edited ≠ position)
    (calm : Path.disturbsElement op.isDelete others rest edited position items.length = false) :
    (op.apply tree).lookup? (segment :: rest) = tree.lookup? (segment :: rest) := by
  cases op with
  | set id place new =>
      obtain rfl : place = first :: others := placed
      exact lookup?_set_item id new here firstIndex index distinct calm
  | delete id place =>
      obtain rfl : place = first :: others := placed
      obtain rfl := Json.eq_array_of_itemsAt? here
      have kept : ((delete id (first :: others)).apply (.array items)).child? segment
          = items[position]? := by
        by_cases last : others = []
        · subst last
          refine child?_delete_item id firstIndex index ?_
          simp [Path.disturbsElement, isDelete] at calm
          omega
        · exact child?_delete_below_item id last firstIndex index distinct
      rw [Json.lookup?_cons, Json.lookup?_cons, kept, Json.child?, index, Option.bind_some]

/-! ## Trees that an op does not disturb -/

@[simp]
theorem isDelete_withPath (op : Op) (path : Path) : (op.withPath path).isDelete = op.isDelete := by
  cases op <;> rfl

/-- Where two ways part and the op disturbs nothing, the path leads to what it led to. -/
theorem lookup?_apply_of_parted (placed : op.path = first :: others)
    (parted : ¬ tree.Joins op.isDelete first segment)
    (calm : op.disturbs (segment :: rest) tree = false) :
    (op.apply tree).lookup? (segment :: rest) = tree.lookup? (segment :: rest) := by
  have distinct : ¬ first.Matches segment := fun same => parted (.inl same)
  rw [disturbs, placed, Path.disturbs, if_neg parted] at calm
  cases here : tree.itemsAt? op.isDelete first with
  | none =>
      rw [Json.lookup?_cons, Json.lookup?_cons, child?_apply_of_not_items placed here distinct]
  | some items =>
      cases index : segment.asIndex? with
      | none =>
          rw [Json.lookup?_cons, Json.lookup?_cons, child?_apply_of_name placed distinct index]
      | some position =>
          cases firstIndex : first.asIndex? with
          | none =>
              have behind : op.isDelete ∨ items.length ≤ position := by
                cases deletes : op.isDelete <;> simp_all
              rw [Json.lookup?_cons, Json.lookup?_cons,
                child?_apply_of_first_name placed here distinct firstIndex index behind]
          | some edited =>
              have apart : edited ≠ position := by
                rintro rfl
                exact parted (.inr ⟨⟨by simp [firstIndex], firstIndex.trans index.symm⟩,
                  by simp [here]⟩)
              rw [here, firstIndex, index] at calm
              exact lookup?_apply_of_not_disturbsElement placed here firstIndex index apart calm

/-- In a tree in which an op does not disturb a path, the same is found at the path before and after
the op. -/
theorem lookup?_apply_of_not_disturbs (calm : op.disturbs path tree = false) :
    (op.apply tree).lookup? path = tree.lookup? path := by
  generalize placed : op.path = place
  induction place generalizing op path tree with
  | nil => simp [disturbs, placed, Path.disturbs] at calm
  | cons first others inductionHypothesis =>
      cases path with
      | nil => simp [disturbs, placed, Path.disturbs] at calm
      | cons segment rest =>
          by_cases joined : tree.Joins op.isDelete first segment
          · rw [disturbs, placed, Path.disturbs_cons_of_joins joined] at calm
            have further : others ≠ [] := by
              rintro rfl
              simp [Path.disturbs] at calm
            have restFurther : rest ≠ [] := by
              rintro rfl
              cases others <;> simp [Path.disturbs] at calm
            rw [Json.lookup?_cons_of_ne_nil restFurther, Json.lookup?_cons_of_ne_nil restFurther,
              child?_apply_of_joins placed (fun _ => further) joined,
              Item.getD_afterOp placed further]
            refine inductionHypothesis ?_ (path_withPath op others)
            rwa [disturbs, isDelete_withPath, path_withPath]
          · exact lookup?_apply_of_parted placed joined calm

/-- In a tree without arrays an op on a path of keys disturbs only the paths that it affects. -/
theorem not_disturbs_of_isArrayFree (keys : op.path.isKeys) (free : tree.isArrayFree)
    (apart : ¬ op.affects path) : op.disturbs path tree = false := by
  obtain ⟨notBelow, notAbove⟩ := not_affects_iff.mp apart
  clear apart
  rw [disturbs]
  generalize op.path = place at keys notBelow notAbove ⊢
  induction place generalizing path tree with
  | nil => exact absurd (Path.isWithin_nil path) notAbove
  | cons first others inductionHypothesis =>
      cases path with
      | nil => exact absurd (Path.isWithin_nil _) notBelow
      | cons segment rest =>
          rw [Path.isWithin_cons_cons] at notBelow notAbove
          obtain ⟨key, othersKeys⟩ := Path.isKeys_cons.mp keys
          by_cases same : first.asKey = segment.asKey
          · rw [Path.disturbs_cons_of_joins (.inl same)]
            exact inductionHypothesis (Json.isArrayFree_getD_child? free segment) othersKeys
              (fun within => notBelow ⟨same.symm, within⟩) (fun within => notAbove ⟨same, within⟩)
          · exact Path.disturbs_cons_of_not_items (Json.itemsAt?_of_isArrayFree free key) same

end Op

end LayerRouting
