import LayerRouting.Proofs.Override.Beside
import LayerRouting.Proofs.Override.Differences

/-!
# Clearing a field

Clearing a field drops the ops on it and below it, but no op above it. So the field reads as the
last op above it says, a set of a container that may hold a value there or a delete of the item,
and as its default only if no op is above it (`Draft.clearsField`). `Log.lastWord?` is what a log
says in this sense; the ops beside the field, which are left too, have no part in it.
-/

namespace LayerRouting

namespace Op

/-- What an op says of a path that it is on or above: what the container that it sets has there, or
nothing if it deletes. -/
def word? (op : Op) (path : Path) : Option Json :=
  match op with
  | .set _ ancestor container => (path.relativeTo? ancestor).bind container.lookup?
  | .delete _ _ => none

/-- After an op above a field of an item the field is as the op says. -/
theorem lookup?_apply_of_isWithin {op : Op} {defaults tree : Json} {compared : Prop} {id : String}
    {field : Path} (edit : op.IsEdit defaults compared) (object : tree.isObject)
    (within : Path.isWithin (Path.item id ++ field) op.path) :
    (op.apply tree).lookup? (Path.item id ++ field) = op.word? (Path.item id ++ field) := by
  have left := isObject_apply edit.belowRoot object
  cases op with
  | set opId ancestor container =>
      have above : Path.isWithin (Path.item id ++ field) ancestor := within
      obtain ⟨rest, below⟩ := Option.isSome_iff_exists.mp above
      rw [apply, Json.lookup?_of_relativeTo? below, Json.lookup?_setAt, word?, below]
      rfl
  | delete opId place =>
      obtain ⟨item, rfl, -⟩ := edit.deletes rfl
      obtain rfl : item = id := (Path.isWithin_cons_cons.mp within).1
      have named : (Segment.key item).asKey = item := rfl
      rw [Json.lookup?_append, Json.lookup?_item left, apply, Path.item, Json.get?_deleteAt?,
        if_pos named, if_pos rfl]
      rfl

end Op

namespace Log

/-- What a log says of a path: what its last op on the path, above it or below it says, and the
default if there is no such op. -/
def lastWord? (log : Log) (defaults : Json) (path : Path) : Option Json :=
  match Draft.lastTouching? log path with
  | none => defaults.lookup? path
  | some op => op.word? path

variable {log : Log} {op : Op} {defaults : Json} {path : Path}

theorem lastWord?_of_free (free : ∀ op ∈ log, ¬ op.affects path) :
    log.lastWord? defaults path = defaults.lookup? path := by
  have none : Draft.lastTouching? log path = none :=
    List.find?_eq_none.mpr fun op member => free op (List.mem_reverse.mp member)
  rw [lastWord?, none]

theorem lastWord?_concat_of_affects (affects : op.affects path) :
    lastWord? (log ++ [op]) defaults path = op.word? path := by
  have last : Draft.lastTouching? (log ++ [op]) path = some op := by
    rw [Draft.lastTouching?, List.reverse_concat]
    exact List.find?_cons_of_pos affects
  rw [lastWord?, last]

theorem lastWord?_concat_of_not_affects (apart : ¬ op.affects path) :
    lastWord? (log ++ [op]) defaults path = log.lastWord? defaults path := by
  have last : Draft.lastTouching? (log ++ [op]) path = Draft.lastTouching? log path := by
    rw [Draft.lastTouching?, List.reverse_concat]
    exact List.find?_cons_of_neg apart
  rw [lastWord?, last, lastWord?]

/-- What is found at a field of an item is what the log says of it, if the ops of the log are above
the field or beside it. -/
theorem lookup?_resolve_eq_lastWord? {compared : Prop} {id : String} {field : Path}
    (object : defaults.isObject) (edits : ∀ op ∈ log, op.IsEdit defaults compared)
    (above : ∀ op ∈ log, ¬ op.path.isWithin (Path.item id ++ field))
    (beside : ∀ op ∈ log, Path.isWithin (Path.item id ++ field) op.path
      ∨ Path.isBeside true op.path (Path.item id ++ field)) :
    (log.resolve defaults).lookup? (Path.item id ++ field)
      = log.lastWord? defaults (Path.item id ++ field) := by
  induction log using List.reverseRecOn with
  | nil => rfl
  | append_singleton earlier op inductionHypothesis =>
      simp only [List.forall_mem_append, List.forall_mem_singleton] at edits above beside
      have belowRoot : IsBelowRoot earlier := fun other member => (edits.1 other member).belowRoot
      have keyed := isObject_resolve belowRoot object
      rw [resolve_concat]
      by_cases within : Path.isWithin (Path.item id ++ field) op.path
      · rw [lastWord?_concat_of_affects (Bool.or_eq_true_iff.mpr (.inr within))]
        exact Op.lookup?_apply_of_isWithin edits.2 keyed within
      · rw [lastWord?_concat_of_not_affects (Op.not_affects_iff.mpr ⟨above.2, within⟩),
          Op.lookup?_apply_of_isBeside (fun _ => keyed) (beside.2.resolve_left within)]
        exact inductionHypothesis edits.1 above.1 beside.1

end Log

namespace Draft

/-- What clearing a field of an item promises of a draft. -/
structure ClearsField (draft : Draft) (id : String) (field : Path) : Prop where
  /-- The field reads as the last op above it that is left says, and as its default if none is left,
  when all other ops that are left are beside it. -/
  reads : (∀ op ∈ (draft.clearField id field).log, Path.isWithin (Path.item id ++ field) op.path
      ∨ Path.isBeside true op.path (Path.item id ++ field)) ->
    (draft.clearField id field).resolved.lookup? (Path.item id ++ field)
      = (draft.clearField id field).log.lastWord? draft.defaults (Path.item id ++ field)
  /-- A field of names always does. -/
  names : (∀ segment ∈ field, segment.asIndex? = none) ->
    (draft.clearField id field).resolved.lookup? (Path.item id ++ field)
      = (draft.clearField id field).log.lastWord? draft.defaults (Path.item id ++ field)
  /-- So it has its default again when no op above it is left. -/
  restores : (∀ segment ∈ field, segment.asIndex? = none) ->
    (∀ op ∈ (draft.clearField id field).log, ¬ Path.isWithin (Path.item id ++ field) op.path) ->
    (draft.clearField id field).resolved.lookup? (Path.item id ++ field)
      = draft.defaults.lookup? (Path.item id ++ field)
  /-- A default in an array is back if no op that is left is above it, moves it or replaces the
  array. -/
  spared : ∀ value, draft.defaults.lookup? (Path.item id ++ field) = some value ->
    Log.spares (draft.clearField id field).log (Path.item id ++ field) draft.defaults ->
    (draft.clearField id field).resolved.lookup? (Path.item id ++ field) = some value
  /-- The other items stay as they are. -/
  others : LeavesOthers [id] draft (draft.clearField id field)

namespace IsEdited

variable {draft : Draft} {defaults : Json} {compared : Prop}

/-- Clearing a field keeps its promises when the log holds ops of edits only. -/
theorem clearField (edited : draft.IsEdited defaults compared) (object : defaults.isObject)
    (id : String) (field : Path) : draft.ClearsField id field := by
  obtain rfl := edited.unchanged
  have edits : ∀ op ∈ (draft.clearField id field).log, op.IsEdit draft.defaults compared :=
    fun op member => edited.ops op (mem_dropWithin.mp member).1
  have left : ∀ op ∈ (draft.clearField id field).log,
      ¬ op.path.isWithin (Path.item id ++ field) :=
    fun op member => (mem_dropWithin.mp member).2
  have reads := Log.lookup?_resolve_eq_lastWord? object edits left
  have names : (∀ segment ∈ field, segment.asIndex? = none) ->
      (draft.clearField id field).resolved.lookup? (Path.item id ++ field)
        = (draft.clearField id field).log.lastWord? draft.defaults (Path.item id ++ field) := by
    intro named
    refine reads fun op member => or_iff_not_imp_left.mpr fun within => ?_
    exact Path.isBeside_item_of_names named (left op member) within
  refine ⟨reads, names, fun named free => ?_,
    fun value default spared => Log.lookup?_resolve_of_spares spared default,
    (keepsOps_clearField draft id field).leavesOthers object edited.belowRoot⟩
  rw [names named, Log.lastWord?_of_free]
  exact fun op member => Op.not_affects_iff.mpr ⟨left op member, free op member⟩

end IsEdited

/-- After every batch of intents on an empty log a field that is cleared reads as the last op above
it says, and as its default if no op is above it. -/
theorem clearsField {defaults : Json} (object : defaults.isObject) (supply : IdSupply)
    (intents : List Intent) (id : String) (field : Path) :
    ((ofDocument ⟨defaults, []⟩ supply).performAll intents).ClearsField id field := by
  have start : (ofDocument ⟨defaults, []⟩ supply).IsEdited defaults True :=
    ⟨rfl, List.forall_mem_nil _⟩
  exact (start.performAll object intents).clearField object id field

/-- A level that was set as a field is the default again when it is cleared; one that came with the
item, which was replaced as a whole, is not. -/
theorem clearsField_of_levelDefaults :
    (((ofDocument ⟨levelDefaults, []⟩ ⟨0⟩).performAll
          [.set "left" [.key "level"] (.int (WordInt.ofUInt64 2))]).clearField "left"
        [.key "level"]).resolved.lookup? [.key "left", .key "level"]
      = some (.int (WordInt.ofUInt64 1))
    ∧ (((ofDocument ⟨levelDefaults, []⟩ ⟨0⟩).performAll
          [.set "left" [] (.object [("level", .int (WordInt.ofUInt64 2))])]).clearField "left"
        [.key "level"]).resolved.lookup? [.key "left", .key "level"]
      = some (.int (WordInt.ofUInt64 2)) := by
  have clears : ∀ intents, ((ofDocument ⟨levelDefaults, []⟩ ⟨0⟩).performAll intents).ClearsField
      "left" [.key "level"] := fun intents => clearsField rfl ⟨0⟩ intents "left" _
  have names : ∀ segment ∈ [Segment.key "level"], segment.asIndex? = none := by decide
  exact ⟨(clears _).restores names (by decide), ((clears _).names names).trans (by decide)⟩

end Draft

end LayerRouting
