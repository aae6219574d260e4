import LayerRouting.Override.Resolution
import LayerRouting.Proofs.Override.Places

/-!
# What a delete removes

A delete finds something to do exactly if something is found at its path, and then one value goes
and all else stays. `Json.ChangesAt` relates two trees that differ at one path only, and
`Json.Loses` a container to what it is without the value at one segment; both say where every
entry and element stands. Setting at a path where something is found changes a tree there and
nowhere else (`Json.changesAt_iff`). A delete below the root changes it at the container of the
value, which loses the value (`Json.deleteAt?_concat_eq_some_iff`, `Op.deletesOne`).
-/

namespace LayerRouting

namespace Json

/-! ## Trees that differ at one path -/

/-- The trees before and after a change of the value at a path. All else is the same and stands in
the same order. -/
inductive ChangesAt (old new : Json) : Path -> Json -> Json -> Prop where
  /-- The root is the value itself. -/
  | root : ChangesAt old new [] old new
  /-- In an object the change is below the first entry of the segment's key. -/
  | member {segment : Segment} {rest : Path} {earlier later : List (String × Json)}
      {before after : Json} (first : segment.asKey ∉ Entries.keys earlier)
      (below : ChangesAt old new rest before after) :
      ChangesAt old new (segment :: rest)
        (.object (earlier ++ (segment.asKey, before) :: later))
        (.object (earlier ++ (segment.asKey, after) :: later))
  /-- In an array the change is below the element at the segment's index. -/
  | element {segment : Segment} {rest : Path} {earlier later : List Json} {before after : Json}
      (index : segment.asIndex? = some earlier.length)
      (below : ChangesAt old new rest before after) :
      ChangesAt old new (segment :: rest) (.array (earlier ++ before :: later))
        (.array (earlier ++ after :: later))

/-- An element of a list divides it. -/
theorem exists_append_of_getElem? {items : List Json} {position : Nat} {item : Json}
    (found : items[position]? = some item) :
    ∃ earlier later, items = earlier ++ item :: later ∧ earlier.length = position := by
  obtain ⟨inside, here⟩ := List.getElem?_eq_some_iff.mp found
  refine ⟨items.take position, items.drop (position + 1), ?_, ?_⟩
  · rw [← here, ← List.drop_eq_getElem_cons inside, List.take_append_drop]
  · rw [List.length_take]
    omega

/-- Setting an element replaces it at its place. -/
theorem setItem_append_cons (earlier later : List Json) (item value : Json) :
    setItem (earlier ++ item :: later) earlier.length value = earlier ++ value :: later := by
  have long : earlier.length + 1 - (earlier ++ item :: later).length = 0 := by
    simp
  rw [setItem, long, List.replicate_zero, List.append_nil, List.set_append_right _ _ le_rfl,
    Nat.sub_self, List.set_cons_zero]

/-- A change finds the old value at its path and makes what setting the new one makes. -/
theorem ChangesAt.eq_setAt {old new before after : Json} {path : Path}
    (changed : ChangesAt old new path before after) :
    before.lookup? path = some old ∧ after = before.setAt path new := by
  induction changed with
  | root => exact ⟨rfl, rfl⟩
  | member first below inductionHypothesis =>
      obtain ⟨found, rfl⟩ := inductionHypothesis
      constructor
      · rw [lookup?_cons, child?, Entries.get?_append_cons first]
        exact found
      · rw [setAt_cons, containerFor, child?, Entries.get?_append_cons first, Option.getD_some,
          setChild, Entries.insert_append_cons first]
  | element index below inductionHypothesis =>
      obtain ⟨found, rfl⟩ := inductionHypothesis
      constructor
      · rw [lookup?_cons, child?, index]
        simpa using found
      · rw [setAt_cons, containerFor, index, child?, index]
        simp [setChild, index, setItem_append_cons]

/-- Setting at a path where something is found changes the tree there. -/
theorem changesAt_setAt {tree old : Json} {path : Path} (found : tree.lookup? path = some old)
    (new : Json) : ChangesAt old new path tree (tree.setAt path new) := by
  induction path generalizing tree with
  | nil =>
      obtain rfl := Option.some.inj found
      exact .root
  | cons segment rest inductionHypothesis =>
      obtain ⟨child, here, below⟩ := Option.bind_eq_some_iff.mp found
      rw [setAt_cons, containerFor_of_child? here, here, Option.getD_some]
      cases tree with
      | object entries =>
          obtain ⟨earlier, later, rfl, first⟩ := Entries.exists_append_of_get? here
          rw [setChild, Entries.insert_append_cons first]
          exact .member first (inductionHypothesis below)
      | array items =>
          obtain ⟨position, index, element⟩ := Option.bind_eq_some_iff.mp here
          obtain ⟨earlier, later, rfl, rfl⟩ := exists_append_of_getElem? element
          simp only [setChild, index, setItem_append_cons]
          exact .element index (inductionHypothesis below)
      | null | bool | number | string => cases here

/-- A change at a path is what setting the new value there makes of a tree with the old one. -/
theorem changesAt_iff {old new before after : Json} {path : Path} :
    ChangesAt old new path before after
      ↔ before.lookup? path = some old ∧ after = before.setAt path new := by
  constructor
  · exact ChangesAt.eq_setAt
  · rintro ⟨found, rfl⟩
    exact changesAt_setAt found new

/-! ## Containers that lose a value -/

/-- A container and what is left of it without the value at a segment. -/
inductive Loses (segment : Segment) : Json -> Json -> Prop where
  /-- An object loses its entry of the segment's key, and if more entries have the key, these. -/
  | member {earlier later : List (String × Json)} {value : Json}
      (first : segment.asKey ∉ Entries.keys earlier) :
      Loses segment (.object (earlier ++ (segment.asKey, value) :: later))
        (.object (earlier ++ Entries.erase segment.asKey later))
  /-- An array loses the element at the segment's index, and the later ones move down by one. -/
  | element {earlier later : List Json} {value : Json}
      (index : segment.asIndex? = some earlier.length) :
      Loses segment (.array (earlier ++ value :: later)) (.array (earlier ++ later))

/-- Removing a child that is there takes it out of the container. -/
theorem loses_of_removeChild? {container left : Json} {segment : Segment}
    (removed : container.removeChild? segment = some left) : Loses segment container left := by
  cases container with
  | object entries =>
      rw [removeChild?] at removed
      split at removed
      · next present =>
          obtain ⟨value, found⟩ := Option.isSome_iff_exists.mp present
          obtain ⟨earlier, later, rfl, first⟩ := Entries.exists_append_of_get? found
          rw [Entries.erase_append_cons first] at removed
          obtain rfl := Option.some.inj removed
          exact .member first
      · cases removed
  | array items =>
      rw [removeChild?] at removed
      split at removed
      · next position index =>
          split at removed
          · next inside =>
              have present : items[position]?.isSome := by simpa using inside
              obtain ⟨item, found⟩ := Option.isSome_iff_exists.mp present
              obtain ⟨earlier, later, rfl, rfl⟩ := exists_append_of_getElem? found
              obtain rfl := Option.some.inj removed
              rw [List.eraseIdx_append_of_length_le le_rfl, Nat.sub_self, List.eraseIdx_zero,
                List.tail_cons]
              exact .element index
          · cases removed
      · cases removed
  | null | bool | number | string => cases removed

/-- A child is removed exactly if there is one. -/
theorem isSome_removeChild? (container : Json) (segment : Segment) :
    (container.removeChild? segment).isSome = (container.child? segment).isSome := by
  cases container with
  | object entries =>
      rw [removeChild?, child?]
      cases Entries.get? segment.asKey entries <;> rfl
  | array items =>
      rw [removeChild?, child?]
      cases segment.asIndex? with
      | none => rfl
      | some position =>
          by_cases inside : position < items.length
          · simp [inside]
          · simp [inside, Option.bind_some]
  | null | bool | number | string => rfl

/-- A container is left without a value in one way only. -/
theorem Loses.removeChild? {container left : Json} {segment : Segment}
    (loses : Loses segment container left) : container.removeChild? segment = some left := by
  cases loses with
  | member first =>
      rw [Json.removeChild?, Entries.get?_append_cons first, Option.isSome_some, if_pos rfl,
        Entries.erase_append_cons first]
  | element index =>
      rw [Json.removeChild?, index]
      simp [List.eraseIdx_append_of_length_le]

theorem removeChild?_eq_some_iff {container left : Json} {segment : Segment} :
    container.removeChild? segment = some left ↔ Loses segment container left :=
  ⟨loses_of_removeChild?, Loses.removeChild?⟩

/-! ## Deleting at a path -/

/-- Deleting below the root removes a child of the container that the path ends in. -/
theorem deleteAt?_concat (tree : Json) (parents : Path) (last : Segment) :
    tree.deleteAt? (parents ++ [last])
      = (tree.lookup? parents).bind fun container =>
          (container.removeChild? last).map (tree.setAt parents) :=
  deleteAt?_append tree parents (List.cons_ne_nil last [])

/-- Something is deleted exactly if something is found at the path. -/
theorem isSome_deleteAt? (tree : Json) (path : Path) :
    (tree.deleteAt? path).isSome = (tree.lookup? path).isSome := by
  obtain rfl | ⟨parents, last, rfl⟩ := List.eq_nil_or_concat' path
  · rfl
  · rw [deleteAt?_concat, lookup?_append]
    cases tree.lookup? parents with
    | none => rfl
    | some container =>
        rw [Option.bind_some, Option.bind_some, Option.isSome_map, isSome_removeChild?, lookup?_cons]
        cases container.child? last <;> rfl

/-- What is left after deleting below the root: the tree changed at the container, which has lost
the value. -/
theorem deleteAt?_concat_eq_some_iff {tree left : Json} {parents : Path} {last : Segment} :
    tree.deleteAt? (parents ++ [last]) = some left
      ↔ ∃ container smaller,
        ChangesAt container smaller parents tree left ∧ Loses last container smaller := by
  simp only [deleteAt?_concat, Option.bind_eq_some_iff, Option.map_eq_some_iff,
    removeChild?_eq_some_iff, changesAt_iff]
  constructor
  · rintro ⟨container, found, smaller, loses, rfl⟩
    exact ⟨container, smaller, ⟨found, rfl⟩, loses⟩
  · rintro ⟨container, smaller, ⟨found, rfl⟩, loses⟩
    exact ⟨container, found, smaller, loses, rfl⟩

end Json

namespace Op

/-- An op that finds nothing to do leaves the tree as it is. -/
theorem apply_of_not_isEffective {op : Op} {tree : Json} (unused : ¬ op.isEffective tree) :
    op.apply tree = tree := by
  cases op with
  | set id path value => exact absurd rfl unused
  | delete id path =>
      have missing : tree.deleteAt? path = none := by simpa [isEffective] using unused
      rw [apply, missing, Option.getD_none]

/-- What a delete does to a tree. -/
structure DeletesOne (op : Op) (tree : Json) : Prop where
  /-- It finds something to do exactly if something is found at its path. -/
  isEffective_iff : op.isEffective tree ↔ (tree.lookup? op.path).isSome
  /-- If not, it leaves the tree as it is, the order of entries included. -/
  unused (unused : ¬ op.isEffective tree) : op.apply tree = tree
  /-- At the root it makes the tree null. -/
  whole (root : op.path = []) : op.apply tree = .null
  /-- Below the root the tree changes at one container, which loses the value at the last segment
  and is the same otherwise. -/
  below {parents : Path} {last : Segment} (path : op.path = parents ++ [last])
    (used : op.isEffective tree) :
    ∃ container smaller,
      Json.ChangesAt container smaller parents tree (op.apply tree)
        ∧ Json.Loses last container smaller
  /-- That is one entry if the container is an object that repeats no key. -/
  single {parents : Path} {last : Segment} {entries : List (String × Json)}
    (path : op.path = parents ++ [last]) (used : op.isEffective tree)
    (object : tree.lookup? parents = some (.object entries))
    (distinct : (Entries.keys entries).Nodup) :
    ∃ earlier value later,
      entries = earlier ++ (last.asKey, value) :: later
        ∧ (op.apply tree).lookup? parents = some (.object (earlier ++ later))

/-- A delete removes the value at its path and nothing else, and reports whether there was one. -/
theorem deletesOne (id : String) (path : Path) (tree : Json) : (delete id path).DeletesOne tree := by
  have changes : ∀ {parents : Path} {last : Segment}, path = parents ++ [last] ->
      (delete id path).isEffective tree ->
      ∃ container smaller,
        Json.ChangesAt container smaller parents tree ((delete id path).apply tree)
          ∧ Json.Loses last container smaller := by
    rintro parents last rfl used
    obtain ⟨left, deleted⟩ := Option.isSome_iff_exists.mp used
    rw [apply, deleted, Option.getD_some]
    exact Json.deleteAt?_concat_eq_some_iff.mp deleted
  refine ⟨?_, apply_of_not_isEffective, ?_, changes, ?_⟩
  · rw [isEffective, Json.isSome_deleteAt?]
    rfl
  · rintro rfl
    rfl
  · intro parents last entries path used object distinct
    obtain ⟨container, smaller, changed, loses⟩ := changes path used
    obtain ⟨found, after⟩ := Json.changesAt_iff.mp changed
    rw [object] at found
    obtain rfl := Option.some.inj found
    cases loses with
    | member first =>
        rename_i earlier later value
        have absent : last.asKey ∉ Entries.keys later := by
          rw [Entries.keys, List.map_append, List.map_cons] at distinct
          exact (List.nodup_cons.mp distinct.of_append_right).1
        rw [Entries.erase_of_not_mem absent] at after
        exact ⟨earlier, value, later, rfl, by rw [after, Json.lookup?_setAt]⟩

end Op

end LayerRouting
