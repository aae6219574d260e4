import LayerRouting.Override.Tree
import LayerRouting.Proofs.Json.Same
import LayerRouting.Proofs.Override.Paths
import LayerRouting.Proofs.Text.Digits

/-!
# Laws of places

Looking up and setting the value at a path obey the laws of a lens on every tree (`Json.isLens`),
and a path that is put together of two is set or deleted in two steps (`Json.setAt_append`,
`Json.deleteAt?_append`). Paths whose segments have the same texts lead to the same place,
whatever the kinds of the segments (`Json.lookup?_congr`).
-/

namespace LayerRouting

namespace Json

/-! ## One segment -/

/-- A tree that cannot hold a segment has nothing there, like the container made for it. -/
@[simp]
theorem child?_containerFor (tree : Json) (segment : Segment) :
    (tree.containerFor segment).child? segment = tree.child? segment := by
  have vacant : (emptyFor segment).child? segment = none := by
    cases segment <;> simp [emptyFor, child?, Entries.get?]
  cases tree with
  | object entries => rfl
  | array items =>
      simp only [containerFor]
      split
      · rfl
      · next absent =>
          rw [vacant]
          simp_all [child?]
  | null | bool | number | string => exact vacant

theorem setItem_getElem? (items : List Json) (position other : Nat) (value : Json) :
    (setItem items position value)[other]?
      = if other = position then some value
        else if other < items.length then items[other]?
        else if other < position then some null else none := by
  simp only [setItem, List.getElem?_set, List.getElem?_append, List.length_append,
    List.length_replicate, List.getElem?_replicate]
  grind

theorem length_setItem (items : List Json) (position : Nat) (value : Json) :
    (setItem items position value).length = max items.length (position + 1) := by
  simp only [setItem, List.length_set, List.length_append, List.length_replicate]
  omega

/-- What has been set at a segment of a fitting container is found there. -/
@[simp]
theorem child?_setChild_containerFor (tree : Json) (segment : Segment) (value : Json) :
    ((tree.containerFor segment).setChild segment value).child? segment = some value := by
  cases tree with
  | object entries => simp [containerFor, setChild, child?]
  | array items =>
      simp only [containerFor]
      cases index : segment.asIndex? with
      | some position => simp [setChild, child?, index, setItem_getElem?]
      | none =>
          cases segment with
          | key name => simp [emptyFor, setChild, child?]
          | index position => simp [Segment.asIndex?] at index
  | null | bool | number | string =>
      cases segment with
      | key name => simp [containerFor, emptyFor, setChild, child?]
      | index position =>
          simp [containerFor, emptyFor, setChild, child?, Segment.asIndex?, setItem_getElem?]

/-- A container in which a segment has been set holds that segment as it is. -/
@[simp]
theorem containerFor_setChild_containerFor (tree : Json) (segment : Segment) (value : Json) :
    ((tree.containerFor segment).setChild segment value).containerFor segment
      = (tree.containerFor segment).setChild segment value := by
  cases tree with
  | object entries => rfl
  | array items =>
      simp only [containerFor]
      cases index : segment.asIndex? with
      | some position => simp [setChild, index]
      | none =>
          cases segment with
          | key name => simp [emptyFor, setChild]
          | index position => simp [Segment.asIndex?] at index
  | null | bool | number | string =>
      cases segment <;> simp [containerFor, emptyFor, setChild, Segment.asIndex?]

theorem setItem_setItem (items : List Json) (position : Nat) (first second : Json) :
    setItem (setItem items position first) position second = setItem items position second := by
  apply List.ext_getElem?
  intro other
  simp only [setItem_getElem?, length_setItem]
  grind

/-- Of two values set at one segment the later one stays. -/
@[simp]
theorem setChild_setChild (tree : Json) (segment : Segment) (first second : Json) :
    (tree.setChild segment first).setChild segment second = tree.setChild segment second := by
  cases tree with
  | object entries => simp [setChild, Entries.insert_insert]
  | array items =>
      cases index : segment.asIndex? with
      | some position => simp [setChild, index, setItem_setItem]
      | none => simp [setChild, index]
  | null | bool | number | string => rfl

theorem setItem_of_getElem? {items : List Json} {position : Nat} {value : Json}
    (found : items[position]? = some value) : setItem items position value = items := by
  have inside : position < items.length := (List.getElem?_eq_some_iff.mp found).1
  apply List.ext_getElem?
  intro other
  rw [setItem_getElem?]
  grind

/-- A tree in which a segment is found holds that segment as it is. -/
theorem containerFor_of_child? {tree : Json} {segment : Segment} {value : Json}
    (found : tree.child? segment = some value) : tree.containerFor segment = tree := by
  cases tree with
  | object entries => rfl
  | array items =>
      cases index : segment.asIndex? with
      | some position => simp [containerFor, index]
      | none => simp [child?, index] at found
  | null | bool | number | string => simp [child?] at found

/-- Setting what is there already changes nothing. -/
theorem setChild_of_child? {tree : Json} {segment : Segment} {value : Json}
    (found : tree.child? segment = some value) : tree.setChild segment value = tree := by
  cases tree with
  | object entries => simpa [setChild] using Entries.insert_of_get? (by simpa [child?] using found)
  | array items =>
      cases index : segment.asIndex? with
      | some position =>
          simp only [child?, index, Option.bind_some] at found
          simp [setChild, index, setItem_of_getElem? found]
      | none => simp [child?, index] at found
  | null | bool | number | string => rfl

/-! ## Paths -/

@[simp]
theorem setAt_nil (tree value : Json) : tree.setAt [] value = value :=
  rfl

theorem setAt_cons (tree : Json) (segment : Segment) (rest : Path) (value : Json) :
    tree.setAt (segment :: rest) value
      = (tree.containerFor segment).setChild segment
          (((tree.child? segment).getD .null).setAt rest value) := by
  simp [setAt]

@[simp]
theorem lookup?_nil (tree : Json) : tree.lookup? [] = some tree :=
  rfl

@[simp]
theorem lookup?_cons (tree : Json) (segment : Segment) (rest : Path) :
    tree.lookup? (segment :: rest)
      = (tree.child? segment).bind fun child => child.lookup? rest :=
  rfl

/-- Null holds nothing below itself. -/
theorem lookup?_null {path : Path} (below : path ≠ []) : null.lookup? path = none := by
  cases path with
  | nil => exact absurd rfl below
  | cons segment rest => simp [child?]

/-- What is set at a path is found there. -/
theorem lookup?_setAt (tree : Json) (path : Path) (value : Json) :
    (tree.setAt path value).lookup? path = some value := by
  induction path generalizing tree with
  | nil => rfl
  | cons segment rest inductionHypothesis =>
      simp [setAt_cons, inductionHypothesis]

/-- Of two values set at one path the later one stays. -/
theorem setAt_setAt (tree : Json) (path : Path) (first second : Json) :
    (tree.setAt path first).setAt path second = tree.setAt path second := by
  induction path generalizing tree with
  | nil => rfl
  | cons segment rest inductionHypothesis =>
      simp [setAt_cons, inductionHypothesis]

/-- Setting what is there already changes nothing. -/
theorem setAt_of_lookup? {tree : Json} {path : Path} {value : Json}
    (found : tree.lookup? path = some value) : tree.setAt path value = tree := by
  induction path generalizing tree with
  | nil => exact (Option.some.inj found).symm
  | cons segment rest inductionHypothesis =>
      obtain ⟨child, here, below⟩ := Option.bind_eq_some_iff.mp found
      rw [setAt_cons, containerFor_of_child? here, here, Option.getD_some,
        inductionHypothesis below, setChild_of_child? here]

/-- The laws of a lens for the value at a path, which need not be there and for which setting makes
the containers. -/
structure IsLens (path : Path) : Prop where
  /-- What is set is found. -/
  lookup?_setAt (tree value : Json) : (tree.setAt path value).lookup? path = some value
  /-- Setting what is found leaves the tree as it is, the order of entries included. -/
  setAt_of_lookup? {tree value : Json} (found : tree.lookup? path = some value) :
    tree.setAt path value = tree
  /-- Of two values the later one counts, and nothing is left of the earlier one. -/
  setAt_setAt (tree first second : Json) :
    (tree.setAt path first).setAt path second = tree.setAt path second

/-- Looking up and setting at a path is a lens on every tree, whatever the kinds of the segments and
whatever stands in their way. -/
theorem isLens (path : Path) : IsLens path where
  lookup?_setAt tree value := lookup?_setAt tree path value
  setAt_of_lookup? found := setAt_of_lookup? found
  setAt_setAt tree first second := setAt_setAt tree path first second

/-- Setting below a path is setting the changed value at it. -/
theorem setAt_append (tree : Json) (path rest : Path) (value : Json) :
    tree.setAt (path ++ rest) value
      = tree.setAt path (((tree.lookup? path).getD .null).setAt rest value) := by
  induction path generalizing tree with
  | nil => rfl
  | cons segment path inductionHypothesis =>
      rw [List.cons_append, setAt_cons, setAt_cons, inductionHypothesis, lookup?_cons]
      cases tree.child? segment with
      | some child => rfl
      | none =>
          cases path with
          | nil => rfl
          | cons next path => rw [Option.getD_none, lookup?_null (by simp)]; rfl

/-- A value set at a path covers what was set below it before. -/
theorem setAt_append_setAt (tree : Json) (path rest : Path) (first second : Json) :
    (tree.setAt (path ++ rest) first).setAt path second = tree.setAt path second := by
  rw [setAt_append, setAt_setAt]

/-- Setting below a value that has just been set changes that value. -/
theorem setAt_setAt_append (tree : Json) (path rest : Path) (first second : Json) :
    (tree.setAt path first).setAt (path ++ rest) second
      = tree.setAt path (first.setAt rest second) := by
  rw [setAt_append, lookup?_setAt, Option.getD_some, setAt_setAt]

/-- Deleting further down than one segment changes the child at that segment. -/
theorem deleteAt?_cons (tree : Json) (segment : Segment) {rest : Path} (further : rest ≠ []) :
    tree.deleteAt? (segment :: rest)
      = (tree.child? segment).bind fun child =>
          (child.deleteAt? rest).map (tree.setChild segment) := by
  cases rest with
  | nil => exact absurd rfl further
  | cons next rest =>
      rw [deleteAt?]
      · cases tree.child? segment <;> rfl
      · simp

/-- Deleting below a path is setting the changed value at it. -/
theorem deleteAt?_append (tree : Json) (path : Path) {rest : Path} (below : rest ≠ []) :
    tree.deleteAt? (path ++ rest)
      = (tree.lookup? path).bind fun inner => (inner.deleteAt? rest).map (tree.setAt path) := by
  induction path generalizing tree with
  | nil => cases found : tree.deleteAt? rest <;> simp [found]
  | cons segment path inductionHypothesis =>
      rw [List.cons_append, deleteAt?_cons tree segment (by simp [below]), lookup?_cons]
      cases here : tree.child? segment with
      | none => rfl
      | some child =>
          simp only [inductionHypothesis, Option.bind_some]
          cases child.lookup? path with
          | none => rfl
          | some inner =>
              cases left : inner.deleteAt? rest with
              | none => simp [left]
              | some changed => simp [left, setAt_cons, containerFor_of_child? here, here]

end Json

/-! ## Segments with one text -/

namespace Segment

/-- As an index a segment is what its text reads as, whatever its kind. -/
theorem asIndex?_eq (segment : Segment) :
    segment.asIndex? = Text.unsigned? indexLimit segment.asKey.toList := by
  cases segment with
  | key name => rfl
  | index position =>
      rw [asIndex?, asKey, String.toList_ofList]
      exact (Text.unsigned?_decimalDigits position.toNat_lt).symm

theorem asIndex?_congr {left right : Segment} (same : left.asKey = right.asKey) :
    left.asIndex? = right.asIndex? := by
  rw [asIndex?_eq, asIndex?_eq, same]

end Segment

namespace Json

/-- Segments with one text lead to the same child. -/
theorem child?_congr {left right : Segment} (same : left.asKey = right.asKey) (tree : Json) :
    tree.child? left = tree.child? right := by
  cases tree with
  | array items => rw [child?, child?, Segment.asIndex?_congr same]
  | object entries => simp only [child?, same]
  | null | bool | number | string => rfl

/-- Paths with the same keys lead to the same place. -/
theorem lookup?_congr {left right : Path} (same : left.keys = right.keys) (tree : Json) :
    tree.lookup? left = tree.lookup? right := by
  induction left generalizing right tree with
  | nil =>
      obtain rfl : right = [] := by simpa [Path.keys, eq_comm] using same
      rfl
  | cons segment left inductionHypothesis =>
      cases right with
      | nil => simp [Path.keys] at same
      | cons first right =>
          obtain ⟨key, keys⟩ := List.cons.inj same
          simp only [lookup?_cons, child?_congr key, inductionHypothesis keys]

/-- What is found at a path that is put together of two. -/
theorem lookup?_append (tree : Json) (path rest : Path) :
    tree.lookup? (path ++ rest) = (tree.lookup? path).bind fun inner => inner.lookup? rest := by
  induction path generalizing tree with
  | nil => rfl
  | cons segment path inductionHypothesis =>
      rw [List.cons_append, lookup?_cons, lookup?_cons, Option.bind_assoc]
      simp only [inductionHypothesis]

/-- What is found at a path is found below its ancestor, whatever the kinds of the segments. -/
theorem lookup?_of_relativeTo? {path ancestor rest : Path}
    (below : path.relativeTo? ancestor = some rest) (tree : Json) :
    tree.lookup? path = (tree.lookup? ancestor).bind fun inner => inner.lookup? rest := by
  rw [← lookup?_append, lookup?_congr (Path.keys_append_of_relativeTo? below)]

/-- What is set below an ancestor is found at every path with these keys. -/
theorem lookup?_setAt_relative {path ancestor rest : Path}
    (below : path.relativeTo? ancestor = some rest) (tree container value : Json) :
    (tree.setAt ancestor (container.setAt rest value)).lookup? path = some value := by
  rw [lookup?_of_relativeTo? below, lookup?_setAt, Option.bind_some, lookup?_setAt]

end Json

end LayerRouting
