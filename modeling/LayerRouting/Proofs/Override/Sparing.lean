import LayerRouting.Proofs.Override.Disturbance
import LayerRouting.Proofs.Override.SetOutcome

/-!
# What later ops do to a field that was set

Setting a field of an item records the value in the last op above the field, in a new op at the
end, or not at all where the default is the value already. Right after that point of the log the
field has the value (`Draft.exists_settled_setField`). The ops that follow are neither on the
field nor above or below it, but that is said of paths. In an array an op also moves the elements
behind the one that it deletes, and a name that is set replaces the array. `Path.spares` says of
a place and a tree that this does not happen; then the field keeps its value
(`Log.lookup?_resolve_of_spares`). Without arrays it never happens (`Op.spares_of_isArrayFree`),
with them it can: `Draft.setField_before_shift` reads another value than the one that was set.
-/

namespace LayerRouting

/-! ## Places that leave a path alone -/

namespace Path

/-- Whether setting or deleting at a place leaves alone what a path leads to. Their ways must
part; where they part in an array, no element before the path's is removed and the array is not
replaced for a name. -/
def spares (deletes : Bool) : Path -> Path -> Json -> Bool
  | first :: others, segment :: rest, .array items =>
      match first.asIndex?, segment.asIndex? with
      | some edited, some position =>
          if edited = position then items[position]?.all (spares deletes others rest)
          else !(deletes && others.isEmpty) || position < edited
      | none, _ => deletes
      | _, none => true
  | first :: others, segment :: rest, tree =>
      first.asKey ≠ segment.asKey || (tree.child? segment).all (spares deletes others rest)
  | _, _, _ => false

end Path

/-- Whether an op leaves alone what a path of a tree leads to. -/
def Op.spares (op : Op) (path : Path) (tree : Json) : Bool :=
  Path.spares op.isDelete op.path path tree

/-- Whether every op of a log leaves alone what a path leads to when its turn comes. -/
def Log.spares : Log -> Path -> Json -> Bool
  | [], _, _ => true
  | op :: rest, path, tree => op.spares path tree && Log.spares rest path (op.apply tree)

/-- Where two ways part in an array, a place that spares a path moves, makes and replaces nothing
that the path leads to. -/
theorem Path.not_disturbs_array_of_spares {deletes : Bool} {first segment : Segment}
    {others rest : Path} {items : List Json} {position : Nat}
    (index : segment.asIndex? = some position) (inside : position < items.length)
    (parted : first.asIndex? ≠ some position)
    (spared : spares deletes (first :: others) (segment :: rest) (.array items)) :
    disturbs deletes (first :: others) (segment :: rest) (.array items) = false := by
  rw [disturbs, if_neg fun joined => parted (joined.asIndex?_eq.trans index), Json.itemsAt?_array,
    index]
  cases firstIndex : first.asIndex? with
  | none =>
      have deleted : deletes = true := by simpa [spares, firstIndex] using spared
      simp [deleted]
  | some edited =>
      have apart : edited ≠ position := by simpa [firstIndex] using parted
      simp only [spares, firstIndex, index, if_neg apart] at spared
      cases deletes with
      | false => simp [disturbsElement, inside]
      | true =>
          have behind : others = [] -> position < edited := by
            rintro rfl
            simpa using spared
          simp only [disturbsElement, if_true, Bool.and_eq_false_imp, Bool.and_eq_true,
            decide_eq_true_eq, decide_eq_false_iff_not]
          exact fun shown => absurd shown.2 (behind shown.1).le.not_gt

/-- An op at a place that spares a path does not disturb it where something is found there. -/
theorem Path.not_disturbs_of_spares {deletes : Bool} {place path : Path} {tree value : Json}
    (spared : spares deletes place path tree) (found : tree.lookup? path = some value) :
    disturbs deletes place path tree = false := by
  induction place generalizing path tree with
  | nil => cases path <;> simp [spares] at spared
  | cons first others inductionHypothesis =>
      cases path with
      | nil => simp [spares] at spared
      | cons segment rest =>
          obtain ⟨child, here, below⟩ := Option.bind_eq_some_iff.mp found
          cases tree with
          | object entries =>
              by_cases same : first.asKey = segment.asKey
              · rw [disturbs_cons_of_joins (.inl same), here]
                simp only [spares, same, here, ne_eq, not_true_eq_false, decide_false,
                  Bool.false_or, Option.all_some] at spared
                exact inductionHypothesis spared below
              · exact disturbs_cons_of_not_items (Json.itemsAt?_of_isObject rfl) same
          | array items =>
              obtain ⟨position, index, element⟩ := Option.bind_eq_some_iff.mp here
              have inside := (List.getElem?_eq_some_iff.mp element).1
              by_cases shared : first.asIndex? = some position
              · rw [disturbs_cons_of_joins (.inr ⟨⟨by simp [shared], by rw [shared, index]⟩,
                  by simp [Json.itemsAt?_array]⟩), here]
                simp only [spares, shared, index, if_true, element, Option.all_some] at spared
                exact inductionHypothesis spared below
              · exact not_disturbs_array_of_spares index inside shared spared
          | null | bool | number | string => cases here

/-- What is found at a path stays there under an op that spares it. -/
theorem Op.lookup?_apply_of_spares {op : Op} {path : Path} {tree value : Json}
    (spared : op.spares path tree) (found : tree.lookup? path = some value) :
    (op.apply tree).lookup? path = some value :=
  (lookup?_apply_of_not_disturbs (Path.not_disturbs_of_spares spared found)).trans found

/-- What is found at a path stays there under a log that spares it. -/
theorem Log.lookup?_resolve_of_spares {log : Log} {path : Path} {tree value : Json}
    (spared : Log.spares log path tree) (found : tree.lookup? path = some value) :
    (log.resolve tree).lookup? path = some value := by
  induction log generalizing tree with
  | nil => exact found
  | cons op rest inductionHypothesis =>
      obtain ⟨first, later⟩ := (Bool.and_eq_true _ _).mp spared
      exact inductionHypothesis later (Op.lookup?_apply_of_spares first found)

/-- Where no array is, an op spares every path that it does not affect. -/
theorem Op.spares_of_isArrayFree {op : Op} {path : Path} {tree : Json} (free : tree.isArrayFree)
    (apart : ¬ op.affects path) : op.spares path tree := by
  obtain ⟨notBelow, notAbove⟩ := not_affects_iff.mp apart
  clear apart
  rw [spares]
  generalize op.isDelete = deletes
  generalize op.path = place at notBelow notAbove
  induction place generalizing path tree with
  | nil => exact absurd (Path.isWithin_nil path) notAbove
  | cons first others inductionHypothesis =>
      cases path with
      | nil => exact absurd (Path.isWithin_nil _) notBelow
      | cons segment rest =>
          rw [Path.isWithin_cons_cons] at notBelow notAbove
          have children : ∀ child, tree.child? segment = some child -> child.isArrayFree := by
            intro child here
            rw [Json.child?_of_isArrayFree free] at here
            exact Json.isArrayFree_get? free here
          rw [Path.spares]
          · by_cases same : first.asKey = segment.asKey
            · simp only [same, ne_eq, not_true_eq_false, decide_false, Bool.false_or,
                Option.all_eq_true]
              intro child here
              exact inductionHypothesis (children child here)
                (fun within => notBelow ⟨same.symm, within⟩)
                (fun within => notAbove ⟨same, within⟩)
            · simp [same]
          · rintro items rfl
            cases free

/-! ## Fields that were set -/

namespace Draft

/-- How a draft says that a path has a value. -/
structure Settles (draft : Draft) (path : Path) (value : Json) (settled later : Log) : Prop where
  /-- The log comes in two parts. -/
  log : draft.log = settled ++ later
  /-- The first part ends with an op on the path or above it, or there is none. -/
  ends : settled = [] ∨ ∃ earlier op, settled = earlier ++ [op] ∧ path.isWithin op.path
  /-- The tree of the first part has the value. -/
  value : Json.SameAt ((settled.resolve draft.defaults).lookup? path) (some value)
  /-- The ops of the other part are neither on the path nor above or below it. -/
  apart : ∀ op ∈ later, ¬ op.affects path

/-- What is settled at a path is found there if the ops after it spare the path. -/
theorem Settles.lookup?_resolved {draft : Draft} {path : Path} {value : Json} {settled later : Log}
    (settles : draft.Settles path value settled later)
    (spared : Log.spares later path (settled.resolve draft.defaults)) :
    Json.SameAt (draft.resolved.lookup? path) (some value) := by
  have there := settles.value
  rw [resolved, settles.log, Log.resolve_append]
  cases found : (settled.resolve draft.defaults).lookup? path with
  | none =>
      rw [found] at there
      exact absurd there Json.SameAt.none_some
  | some held =>
      rw [found] at there
      rw [Log.lookup?_resolve_of_spares spared found]
      exact there

/-- Setting a path settles its value, by the op that records it or by the default. -/
theorem exists_settled_setPath (draft : Draft) (path : Path) (value : Json) :
    ∃ settled later, (draft.setPath path value).Settles path value settled later := by
  have outcome := draft.setOutcome path value
  generalize draft.setPath path value = edited at outcome ⊢
  cases outcome with
  | kept recorded =>
      obtain ⟨before, id, old, after, split, same, -, apart⟩ := split_of_alreadyRecords recorded
      refine ⟨before ++ [.set id path old], after, ?_,
        .inr ⟨before, .set id path old, rfl, Path.isWithin_refl path⟩, ?_, apart⟩
      · rw [split, List.append_assoc, List.singleton_append]
      · rw [Log.resolve_concat, Op.apply, Json.lookup?_setAt]
        exact Json.SameAt.some_some.mpr same
  | folded new split below last =>
      rename_i before after id ancestor rest container
      refine ⟨before ++ [.set id ancestor (container.setAt rest value)], after, by simp,
        .inr ⟨before, _, rfl, ?_⟩, ?_, fun op member => ?_⟩
      · exact Option.isSome_iff_exists.mpr ⟨rest, below⟩
      · rw [Log.resolve_concat, Op.apply, Json.lookup?_setAt_relative below]
      · have dropped : op ∈ dropWithin path draft.log := by
          rw [split]
          exact List.mem_append_right _ (List.mem_cons_of_mem _ member)
        exact not_affects_of_mem_dropWithin dropped (last op member)
  | restored | appended =>
      refine ⟨dropWithin path draft.log ++ [.set (opIdOf draft.supply.next) path value], [],
        by simp, .inr ⟨_, .set _ path value, rfl, Path.isWithin_refl path⟩, ?_,
        List.forall_mem_nil _⟩
      rw [defaults_appendSet, Log.resolve_concat, Op.apply, Json.lookup?_setAt]
  | elided new free found same =>
      refine ⟨[], dropWithin path draft.log, rfl, .inl rfl, ?_, fun op member =>
        not_affects_of_mem_dropWithin member (free op member)⟩
      exact found ▸ Json.SameAt.some_some.mpr same

/-- Setting a field of an item settles its value, and the field reads back as the value if the
ops after that spare it. -/
theorem exists_settled_setField (draft : Draft) (id : String) (field : Path) (value : Json) :
    ∃ settled later,
      (draft.setField id field value).Settles (Path.item id ++ field) value settled later
        ∧ (Log.spares later (Path.item id ++ field) (settled.resolve draft.defaults) ->
          Json.SameAt ((draft.setField id field value).resolved.lookup? (Path.item id ++ field))
            (some value)) := by
  obtain ⟨settled, later, settles⟩ :=
    draft.exists_settled_setPath (Path.item id ++ field) value
  refine ⟨settled, later, settles, fun spared => settles.lookup?_resolved ?_⟩
  rw [defaults_setPath]
  exact spared

/-- A draft whose only item has a list, of which one element is deleted. -/
def ofShift (deleted : UInt64) : Draft where
  defaults := .object []
  log := [
    .set "o1" [.key "a"] (.object [("list", .array [.int (WordInt.ofUInt64 1),
      .int (WordInt.ofUInt64 2), .int (WordInt.ofUInt64 3)])]),
    .delete "o2" [.key "a", .key "list", .index deleted]]
  supply := ⟨0⟩

/-- An element that is set in the op before a delete of the element in front of it moves: the place
reads as the element behind, which nobody set. -/
theorem setField_before_shift :
    ((ofShift 0).setField "a" [.key "list", .index 1] (.int (WordInt.ofUInt64 9))).resolved.lookup?
        [.key "a", .key "list", .index 1]
      = some (.int (WordInt.ofUInt64 3)) := by
  decide

/-- It stays where it is if the element behind it is deleted. -/
example :
    ((ofShift 2).setField "a" [.key "list", .index 1] (.int (WordInt.ofUInt64 9))).resolved.lookup?
        [.key "a", .key "list", .index 1]
      = some (.int (WordInt.ofUInt64 9)) := by
  decide

end Draft

end LayerRouting
