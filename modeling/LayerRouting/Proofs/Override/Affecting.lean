import LayerRouting.Proofs.Override.Beside

/-!
# Paths that an op does not affect

`Op.affects` compares the texts of two paths, and so it can be false although the op changes what is
found at the path, in an array: `Op.lookup?_apply_shift` deletes the first of two elements, and the
second is gone from its place. `Op.concerns` compares the paths as arrays would read them. It holds
exactly if there is a tree in which the op changes what is found at the path, so it holds of every
path that the op affects (`Op.concerns_of_affects`) and of some more (`Op.Leaves`).
-/

namespace LayerRouting

/-- Whether there is a tree in which setting or deleting at a place changes what is found at a
path. -/
def Path.concerns (deletes : Bool) : Path -> Path -> Bool
  | first :: others, segment :: rest =>
      if first.Matches segment ∨ first.SharesIndex segment then Path.concerns deletes others rest
      else
        match first.asIndex?, segment.asIndex? with
        | some edited, some position =>
            if deletes then others = [] && edited < position else rest = [] && position < edited
        | none, some _ => !deletes
        | _, none => false
  | _, _ => true

/-- Whether there is a tree in which an op changes what is found at a path. -/
def Op.concerns (op : Op) (path : Path) : Bool :=
  Path.concerns op.isDelete op.path path

namespace Json

/-- Whatever is to be found at a path, some tree has something else there. -/
theorem exists_lookup?_ne (path : Path) (found : Option Json) :
    ∃ tree : Json, tree.lookup? path ≠ found := by
  by_cases isNull : found = some .null
  · refine ⟨Json.null.setAt path (.bool true), ?_⟩
    rw [lookup?_setAt, isNull]
    simp
  · refine ⟨Json.null.setAt path .null, ?_⟩
    rw [lookup?_setAt]
    exact Ne.symm isNull

/-- The last element of an array that was made for it. -/
theorem child?_array_setItem {segment : Segment} {position : Nat}
    (index : segment.asIndex? = some position) (child : Json) :
    (array (setItem [] position child)).child? segment = some child := by
  rw [child?, index, Option.bind_some, setItem_getElem?, if_pos rfl]

end Json

namespace Op

variable {op : Op} {tree : Json} {first segment : Segment} {others rest path : Path}

/-! ## Paths that an op concerns -/

/-- An op that disturbs a path of a tree concerns the path. -/
theorem concerns_of_disturbs (disturbed : op.disturbs path tree) : op.concerns path := by
  rw [disturbs] at disturbed
  rw [concerns]
  generalize op.path = place at disturbed ⊢
  induction place generalizing path tree with
  | nil => simp [Path.concerns]
  | cons first others inductionHypothesis =>
      cases path with
      | nil => simp [Path.concerns]
      | cons segment rest =>
          simp only [Path.disturbs] at disturbed
          simp only [Path.concerns]
          split at disturbed
          · next joined =>
              rw [if_pos (joined.imp_right And.left)]
              exact inductionHypothesis disturbed
          · next parted =>
              cases here : tree.itemsAt? op.isDelete first with
              | none => simp [here] at disturbed
              | some items =>
                  rw [if_neg fun joined => parted (joined.imp_right (⟨·, by simp [here]⟩))]
                  revert disturbed
                  rw [here]
                  cases first.asIndex? <;> cases segment.asIndex? <;>
                    simp [Path.disturbsElement] <;> grind

/-- An op changes something below a member that it goes through or that it replaces or removes. -/
theorem exists_afterOp_ne (placed : op.path = first :: others)
    (below : others ≠ [] ->
      ∃ child, ((op.withPath others).apply child).lookup? rest ≠ child.lookup? rest) :
    ∃ child : Json, ((Item.afterOp op (some child)).bind fun inner => inner.lookup? rest)
      ≠ child.lookup? rest := by
  by_cases last : others = []
  · subst last
    obtain ⟨child, changed⟩ := Json.exists_lookup?_ne rest
      ((Item.afterOp op none).bind fun inner => inner.lookup? rest)
    have constant : Item.afterOp op (some child) = Item.afterOp op none := by
      cases op with
      | set id place new =>
          obtain rfl : place = [first] := placed
          rfl
      | delete id place =>
          obtain rfl : place = [first] := placed
          rfl
    exact ⟨child, constant ▸ changed.symm⟩
  · obtain ⟨child, changed⟩ := below last
    exact ⟨child, by rwa [Item.afterOp_some placed last]⟩

/-- An op changes the member of an object that has no other. -/
theorem child?_apply_object (placed : op.path = first :: others) (same : first.Matches segment)
    (child : Json) :
    (op.apply (.object [(first.asKey, child)])).child? segment = Item.afterOp op (some child) := by
  have object : (op.apply (.object [(first.asKey, child)])).isObject :=
    isObject_apply (by simp [placed]) rfl
  rw [← Json.child?_congr same, Json.child?_eq_get? (.inl (Json.items?_of_isObject object)),
    get?_apply placed rfl, if_pos rfl]
  simp [Json.get?, Entries.get?]

/-- An array that ends with the element that is reached loses it when an element up to it is
deleted. -/
theorem child?_apply_array_delete (id : String) {edited position : Nat}
    (firstIndex : first.asIndex? = some edited) (index : segment.asIndex? = some position)
    (upTo : edited ≤ position) (child : Json) :
    ((delete id [first]).apply (.array (Json.setItem [] position child))).child? segment
      = none := by
  have long := Json.length_setItem [] position child
  rw [List.length_nil, Nat.zero_max] at long
  simp only [apply, Json.deleteAt?, Json.removeChild?, firstIndex]
  rw [if_pos (by omega), Option.getD_some, Json.child?, index, Option.bind_some]
  refine List.getElem?_eq_none ?_
  rw [List.length_eraseIdx_of_lt (by omega)]
  omega

/-- An op changes an element that an array ends with. -/
theorem child?_apply_array (placed : op.path = first :: others) {position : Nat}
    (firstIndex : first.asIndex? = some position) (index : segment.asIndex? = some position)
    (child : Json) :
    (op.apply (.array (Json.setItem [] position child))).child? segment
      = Item.afterOp op (some child) := by
  by_cases further : op.isDelete -> others ≠ []
  · have shared : first.SharesIndex segment := ⟨by simp [firstIndex], by rw [firstIndex, index]⟩
    rw [child?_apply_of_joins placed further (.inr ⟨shared, by simp [Json.itemsAt?_array]⟩),
      Json.child?_array_setItem index]
  · cases op with
    | set id place new => simp [isDelete] at further
    | delete id place =>
        obtain rfl : others = [] := by simpa [isDelete] using further
        obtain rfl : place = [first] := placed
        rw [child?_apply_array_delete id firstIndex index le_rfl]
        rfl

/-- What an op changes below a child, it changes in the tree. -/
theorem exists_lookup?_apply_cons_ne (placed : op.path = first :: others) (holder : Json -> Json)
    (here : ∀ child, (holder child).child? segment = some child)
    (after : ∀ child, (op.apply (holder child)).child? segment = Item.afterOp op (some child))
    (below : others ≠ [] ->
      ∃ child, ((op.withPath others).apply child).lookup? rest ≠ child.lookup? rest) :
    ∃ tree : Json, (op.apply tree).lookup? (segment :: rest) ≠ tree.lookup? (segment :: rest) := by
  obtain ⟨child, changed⟩ := exists_afterOp_ne placed below
  refine ⟨holder child, ?_⟩
  rw [Json.lookup?_cons, Json.lookup?_cons, after, here]
  exact changed

/-- Where two ways part among items, an op that concerns the path moves, makes or replaces what the
path leads to. -/
theorem exists_lookup?_apply_parted_ne (placed : op.path = first :: others)
    (distinct : ¬ first.Matches segment) {position : Nat}
    (index : segment.asIndex? = some position)
    (concerned : match first.asIndex? with
      | some edited =>
          if op.isDelete then others = [] ∧ edited < position else rest = [] ∧ position < edited
      | none => op.isDelete = false) :
    ∃ tree : Json, (op.apply tree).lookup? (segment :: rest) ≠ tree.lookup? (segment :: rest) := by
  -- An array that ends at the position shows that an element is moved away or replaced, the empty
  -- array that one is made.
  have present : ∀ after : Json, after.child? segment = none ->
      after.lookup? (segment :: rest)
        ≠ (Json.array (Json.setItem [] position (Json.null.setAt rest .null))).lookup?
            (segment :: rest) := fun after vacant => by
    rw [Json.lookup?_cons, Json.lookup?_cons, vacant, Json.child?_array_setItem index,
      Option.bind_some, Json.lookup?_setAt]
    simp
  cases firstIndex : first.asIndex? with
  | none =>
      rw [firstIndex] at concerned
      cases op with
      | delete id place => cases concerned
      | set id place new =>
          obtain rfl : place = first :: others := placed
          exact ⟨_, present _
            (Json.child?_setAt_of_name firstIndex distinct (by simp [Json.isObject]) new)⟩
  | some edited =>
      rw [firstIndex] at concerned
      cases op with
      | delete id place =>
          obtain ⟨rfl, before⟩ : others = [] ∧ edited < position := concerned
          obtain rfl : place = [first] := placed
          exact ⟨_, present _ (child?_apply_array_delete id firstIndex index before.le _)⟩
      | set id place new =>
          obtain ⟨rfl, before⟩ : rest = [] ∧ position < edited := concerned
          obtain rfl : place = first :: others := placed
          refine ⟨.array [], ?_⟩
          simp [apply, Json.setAt_cons, Json.containerFor, firstIndex, Json.setChild, Json.child?,
            index, Json.setItem_getElem?, before.ne, before]

/-- An op that concerns a path changes what is found there in some tree. -/
theorem exists_lookup?_apply_ne (concerned : op.concerns path) :
    ∃ tree : Json, (op.apply tree).lookup? path ≠ tree.lookup? path := by
  rw [concerns] at concerned
  generalize placed : op.path = place at concerned
  induction place generalizing op path with
  | nil =>
      obtain ⟨tree, differs⟩ := Json.exists_lookup?_ne path ((op.apply .null).lookup? path)
      have constant : op.apply tree = op.apply .null := by
        cases op <;> (obtain rfl := placed; rfl)
      exact ⟨tree, constant ▸ differs.symm⟩
  | cons first others inductionHypothesis =>
      have member : ∀ segment rest, first.Matches segment ->
          Path.concerns op.isDelete others rest ->
          ∃ tree : Json,
            (op.apply tree).lookup? (segment :: rest) ≠ tree.lookup? (segment :: rest) :=
        fun segment rest same further =>
          exists_lookup?_apply_cons_ne placed (fun child => .object [(first.asKey, child)])
            (fun child => by simp [Json.child?, Entries.get?, show first.asKey = _ from same])
            (child?_apply_object placed same)
            (fun _ => inductionHypothesis (path_withPath op others)
              (by rwa [isDelete_withPath]))
      cases path with
      | nil =>
          obtain ⟨tree, changed⟩ := member first [] rfl (by cases others <;> rfl)
          refine ⟨tree, fun same => changed ?_⟩
          rw [Option.some.inj same]
      | cons segment rest =>
          simp only [Path.concerns] at concerned
          split at concerned
          · next joined =>
              obtain same | ⟨known, shared⟩ := joined
              · exact member segment rest same concerned
              · obtain ⟨position, firstIndex⟩ := Option.isSome_iff_exists.mp known
                have index := shared.symm.trans firstIndex
                exact exists_lookup?_apply_cons_ne placed
                  (fun child => .array (Json.setItem [] position child))
                  (Json.child?_array_setItem index) (child?_apply_array placed firstIndex index)
                  (fun _ => inductionHypothesis (path_withPath op others)
                    (by rwa [isDelete_withPath]))
          · next parted =>
              cases index : segment.asIndex? with
              | none => cases firstIndex : first.asIndex? <;> simp [index, firstIndex] at concerned
              | some position =>
                  have distinct : ¬ first.Matches segment := fun same => parted (.inl same)
                  refine exists_lookup?_apply_parted_ne placed distinct index ?_
                  cases firstIndex : first.asIndex? <;> simp_all

/-- An op concerns every path that it affects. -/
theorem concerns_of_affects (affected : op.affects path) : op.concerns path := by
  rw [affects, Bool.or_eq_true] at affected
  rw [concerns]
  generalize op.path = place at affected ⊢
  induction place generalizing path with
  | nil => simp [Path.concerns]
  | cons first others inductionHypothesis =>
      cases path with
      | nil => simp [Path.concerns]
      | cons segment rest =>
          rw [Path.isWithin_cons_cons, Path.isWithin_cons_cons] at affected
          have same : first.Matches segment := affected.elim (·.1.symm) And.left
          rw [Path.concerns, if_pos (.inl same)]
          exact inductionHypothesis (affected.imp And.right And.right)

/-- How an op leaves a path alone. -/
structure Leaves (op : Op) (path : Path) : Prop where
  /-- At a path of names the same is found before and after the op, or nothing both times. -/
  names : (∀ segment ∈ path, segment.asIndex? = none) -> ∀ tree : Json,
    (op.apply tree).lookup? path = tree.lookup? path
  /-- So it is where no array is and the op makes none on its way. -/
  withoutArrays : op.path.isKeys -> ∀ tree : Json, tree.isArrayFree ->
    (op.apply tree).lookup? path = tree.lookup? path
  /-- So it is in every tree in which the op does not disturb the path. -/
  undisturbed : ∀ tree : Json, op.disturbs path tree = false ->
    (op.apply tree).lookup? path = tree.lookup? path
  /-- There is a tree in which it is not so exactly if the op concerns the path. -/
  concerned : (∃ tree : Json, (op.apply tree).lookup? path ≠ tree.lookup? path) ↔ op.concerns path

/-- How an op leaves a path alone that it does not affect. -/
theorem leaves_of_not_affects (apart : op.affects path = false) : op.Leaves path where
  names := fun names tree => by
    obtain ⟨notBelow, notAbove⟩ := not_affects_iff.mp (Bool.not_eq_true _ ▸ apart)
    have beside : Path.isBeside false op.path path :=
      Path.isBeside_of_names names notBelow notAbove
    exact lookup?_apply_of_isBeside Bool.noConfusion beside
  withoutArrays := fun keys tree free =>
    lookup?_apply_of_not_disturbs (not_disturbs_of_isArrayFree keys free (by simp [apart]))
  undisturbed := fun tree calm => lookup?_apply_of_not_disturbs calm
  concerned := by
    refine ⟨fun ⟨tree, changed⟩ => ?_, exists_lookup?_apply_ne⟩
    by_contra unconcerned
    refine changed (lookup?_apply_of_not_disturbs ?_)
    exact eq_false_of_ne_true fun disturbed => unconcerned (concerns_of_disturbs disturbed)

/-- A list of two elements under one name. -/
def ofPair : Json :=
  .object [("l", .array [.int (WordInt.ofUInt64 1), .int (WordInt.ofUInt64 2)])]

/-- Deleting the first element does not affect the second, but nothing is found there afterwards. -/
theorem lookup?_apply_shift :
    (delete "d1" [.key "l", .index 0]).affects [.key "l", .index 1] = false
      ∧ ofPair.lookup? [.key "l", .index 1] = some (.int (WordInt.ofUInt64 2))
      ∧ ((delete "d1" [.key "l", .index 0]).apply ofPair).lookup? [.key "l", .index 1] = none := by
  decide

/-- The first element is left alone when the second is deleted: no tree shows it. -/
theorem leaves_of_not_affects_behind :
    (delete "d1" [.key "l", .index 1]).affects [.key "l", .index 0] = false
      ∧ (delete "d1" [.key "l", .index 1]).Leaves [.key "l", .index 0]
      ∧ (delete "d1" [.key "l", .index 1]).concerns [.key "l", .index 0] = false :=
  ⟨by decide, leaves_of_not_affects (by decide), by decide⟩

/-- What else an op concerns: another text of its index, an element of an array that a name
replaces, and one in front of an element that is made. -/
example :
    (set "s1" [.key "l", .key "01"] .null).concerns [.key "l", .index 1]
      ∧ (set "s1" [.key "l", .key "x"] .null).concerns [.key "l", .index 1]
      ∧ (set "s1" [.key "l", .index 5] .null).concerns [.key "l", .index 1] := by
  decide

end Op

end LayerRouting
