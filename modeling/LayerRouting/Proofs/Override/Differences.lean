import LayerRouting.Proofs.Override.Sparing
import LayerRouting.Proofs.Override.WholeItems

/-!
# Items that differ from their defaults

An edit that sets a default is elided, so an item with ops should differ from its default. A draft
compares an edit with the default only where no op is above the edited path, and it moves the ops
of an inserted item without comparing them. `Intent.RecordsDefault` says when an intent passes a
default by in this way. As long as none does, no op gives back the default at its path
(`Draft.IsEdited.performAll`), and only an item whose last op does can be the same as its default
(`Draft.IsEdited.exists_last`).
-/

namespace LayerRouting

/-! ## Ops -/

namespace Op

/-- Whether an op sets what the defaults have at its path. -/
def RestoresDefault (defaults : Json) : Op -> Prop
  | .set _ path value => Json.SameAt (defaults.lookup? path) (some value)
  | .delete _ _ => False

/-- Whether an op is one that edits of items leave, and gives no default back if it was compared
with it. -/
structure IsEdit (defaults : Json) (compared : Prop) (op : Op) : Prop where
  belowRoot : op.path ≠ []
  /-- Only items of the defaults are deleted, as a whole. -/
  deletes : op.isDelete -> ∃ id, op.path = Path.item id
    ∧ (defaults.lookup? (Path.item id)).isSome
  differs : compared -> ¬ op.RestoresDefault defaults

variable {defaults : Json} {compared stricter : Prop} {op : Op}

theorem IsEdit.mono (edit : op.IsEdit defaults compared) (weaker : stricter -> compared) :
    op.IsEdit defaults stricter :=
  ⟨edit.belowRoot, edit.deletes, fun holds => edit.differs (weaker holds)⟩

theorem isEdit_set {id : String} {path : Path} {value : Json} (below : path ≠ [])
    (differs : compared -> ¬ Json.SameAt (defaults.lookup? path) (some value)) :
    (Op.set id path value).IsEdit defaults compared :=
  ⟨below, nofun, differs⟩

theorem isEdit_delete {opId id : String} (defaulted : (defaults.lookup? (Path.item id)).isSome) :
    (Op.delete opId (Path.item id)).IsEdit defaults compared :=
  ⟨List.cons_ne_nil _ _, fun _ => ⟨id, rfl, defaulted⟩, fun _ => not_false⟩

/-- An op that leaves an item as it is in the defaults sets the default at its path. -/
theorem IsEdit.restoresDefault (edit : op.IsEdit defaults compared) (object : defaults.isObject)
    {id : String} (touched : op.touches id) {value : Option Json}
    (same : Json.SameAt (Item.afterOp op value) (defaults.get? id)) :
    op.RestoresDefault defaults := by
  cases op with
  | set opId path installed =>
      obtain ⟨segment, rest, rfl⟩ := List.exists_cons_of_ne_nil edit.belowRoot
      have own : segment.asKey = id := (touches_iff rfl id).mp touched
      have child : defaults.child? segment = defaults.get? id := by
        obtain ⟨entries, rfl⟩ := Json.isObject_iff.mp object
        rw [Json.child?, own, Json.get?]
      rw [Item.afterOp_set] at same
      have inner := same.symm.bind fun sameItem => sameItem.lookup? rest
      rwa [Option.bind_some, Json.lookup?_setAt, ← child] at inner
  | delete opId path =>
      obtain ⟨item, rfl, defaulted⟩ := edit.deletes rfl
      have whole : (Op.delete opId (Path.item item)).path = Path.item item := rfl
      obtain rfl : item = id := (touches_iff whole id).mp touched
      rw [Json.lookup?_item object, ← same.isSome_eq] at defaulted
      cases defaulted

end Op

namespace Draft

variable {draft : Draft} {defaults : Json} {compared stricter : Prop}

/-- Whether a draft has these defaults and only ops that edits of items leave. -/
structure IsEdited (defaults : Json) (compared : Prop) (draft : Draft) : Prop where
  unchanged : draft.defaults = defaults
  ops : ∀ op ∈ draft.log, op.IsEdit defaults compared

/-- Whether setting a path to a value is setting the default under an op above the path: there the
value is recorded without a comparison. -/
def RecordsDefaultAt (draft : Draft) (path : Path) (value : Json) : Prop :=
  Json.SameAt (draft.defaults.lookup? path) (some value)
    ∧ ∃ op ∈ draft.log, path.isWithin op.path ∧ ¬ op.path.isWithin path

end Draft

/-- Whether an intent may leave an op that gives a default back. -/
def Intent.RecordsDefault (draft : Draft) : Intent -> Prop
  | .set id field value => draft.RecordsDefaultAt (Path.item id ++ field) value
  | .move id place => ∃ entry ∈ draft.newPlaces id place, ¬ Draft.hasRank entry.1.2 entry.2
      ∧ draft.RecordsDefaultAt [.key entry.1.1, .key Item.rankField] (Json.ofNat entry.2)
  | .rename id newId => draft.defaults.get? id = none
      ∧ ∃ op ∈ draft.log.opsOn id, (Draft.withItem id newId op).RestoresDefault draft.defaults
  | .clear _ _ | .reset _ | .insert _ _ | .remove _ | .prune => False

namespace Draft

variable {draft : Draft} {defaults : Json} {compared stricter : Prop}

/-- Whether one of the intents of a batch may leave an op that gives a default back. -/
def EverRecordsDefault (draft : Draft) (intents : List Intent) : Prop :=
  ∃ before intent after, intents = before ++ intent :: after
    ∧ intent.RecordsDefault (draft.performAll before)

namespace IsEdited

/-! ## Edits of one item -/

theorem belowRoot (edited : draft.IsEdited defaults compared) : draft.log.IsBelowRoot :=
  fun op member => (edited.ops op member).belowRoot

theorem mono (edited : draft.IsEdited defaults compared) (weaker : stricter -> compared) :
    draft.IsEdited defaults stricter :=
  ⟨edited.unchanged, fun op member => (edited.ops op member).mono weaker⟩

/-- Dropping ops leaves only ops of edits. -/
theorem drop (edited : draft.IsEdited defaults compared) {part : Log} (dropped : part ⊆ draft.log) :
    IsEdited defaults compared { draft with log := part } :=
  ⟨edited.unchanged, fun op member => edited.ops op (dropped member)⟩

/-- One more op of an edit may come last. -/
theorem concat (edited : draft.IsEdited defaults compared) {op : Op}
    (edit : op.IsEdit defaults compared) (supply : IdSupply) :
    IsEdited defaults compared { draft with log := draft.log ++ [op], supply } :=
  ⟨edited.unchanged, List.forall_mem_append.mpr ⟨edited.ops, List.forall_mem_singleton.mpr edit⟩⟩

theorem resetItem (edited : draft.IsEdited defaults compared) (id : String) :
    (draft.resetItem id).IsEdited defaults compared :=
  edited.drop (List.filter_subset_self _)

/-- Setting a path leaves a default only where it is set under an op above the path. -/
theorem setPath (edited : draft.IsEdited defaults compared) {path : Path} (below : path ≠ [])
    (value : Json) :
    (draft.setPath path value).IsEdited defaults
      (compared ∧ ¬ draft.RecordsDefaultAt path value) := by
  refine ⟨(defaults_setPath draft path value).trans edited.unchanged, ?_⟩
  -- A default that is left stands under an op above the path.
  have escapes : ∀ op ∈ dropWithin path draft.log, path.isWithin op.path ->
      Json.SameAt (defaults.lookup? path) (some value) -> draft.RecordsDefaultAt path value := by
    intro op member above same
    obtain ⟨old, strict⟩ := mem_dropWithin.mp member
    exact ⟨edited.unchanged ▸ same, op, old, above, strict⟩
  refine forall_mem_setPath (fun op member => (edited.ops op member).mono And.left) ?_ ?_
  · rintro id covered
    refine Op.isEdit_set below fun holds same => holds.2 ?_
    cases found : defaults.lookup? path with
    | none => exact absurd (found ▸ same) Json.SameAt.none_some
    | some default =>
        rw [found] at same
        obtain ⟨op, member, above⟩ :=
          covered default (edited.unchanged ▸ found) (Json.SameAt.some_some.mp same)
        exact escapes op member above (found ▸ same)
  · intro id ancestor container rest member relative
    have old := edited.ops _ (mem_dropWithin.mp member).1
    refine Op.isEdit_set old.belowRoot fun holds same => holds.2 ?_
    refine escapes _ member (Option.isSome_iff_exists.mpr ⟨rest, relative⟩) ?_
    have inner := same.bind fun sameItem => sameItem.lookup? rest
    rwa [Option.bind_some, Json.lookup?_setAt, ← Json.lookup?_of_relativeTo? relative] at inner

theorem insertItem (edited : draft.IsEdited defaults compared) (id : String) (value : Json) :
    (draft.insertItem id value).IsEdited defaults compared := by
  by_cases same : Json.SameAt (draft.defaults.lookup? (Path.item id)) (some value)
  · rw [insertItem_of_same same]
    exact edited.resetItem id
  · rw [insertItem_of_different same]
    refine (edited.resetItem id).concat (Op.isEdit_set (List.cons_ne_nil _ _) fun _ => ?_) _
    exact edited.unchanged ▸ same

theorem removeItem (edited : draft.IsEdited defaults compared) (id : String) :
    (draft.removeItem id).IsEdited defaults compared := by
  by_cases defaulted : (draft.defaults.lookup? (Path.item id)).isSome
  · rw [removeItem_of_defaulted defaulted]
    exact (edited.resetItem id).concat (Op.isEdit_delete (edited.unchanged ▸ defaulted)) _
  · rw [removeItem_of_undefaulted (by simpa using defaulted)]
    exact edited.resetItem id

end IsEdited

/-! ## Edits of several items -/

/-- Whether the ops of a draft are on paths of old ops or on ranks. -/
def AddsRanks (before after : Draft) : Prop :=
  ∀ op ∈ after.log, (∃ old ∈ before.log, old.path = op.path)
    ∨ ∃ item, op.path = [.key item, .key Item.rankField]

/-- Ops on ranks are above no other rank. -/
theorem RecordsDefaultAt.of_addsRanks {before after : Draft} (adds : AddsRanks before after)
    (unchanged : after.defaults = before.defaults) {item : String} {value : Json}
    (records : after.RecordsDefaultAt [.key item, .key Item.rankField] value) :
    before.RecordsDefaultAt [.key item, .key Item.rankField] value := by
  obtain ⟨same, op, member, above, strict⟩ := records
  refine ⟨unchanged ▸ same, ?_⟩
  obtain ⟨old, held, path⟩ | ⟨other, path⟩ := adds op member
  · exact ⟨old, held, path ▸ above, path ▸ strict⟩
  · rw [path, Path.isWithin_cons_cons] at above strict
    exact absurd ⟨above.1.symm, Path.isWithin_refl _⟩ strict

theorem AddsRanks.setField {before after : Draft} (adds : AddsRanks before after) (item : String)
    (value : Json) : AddsRanks before (after.setField item [.key Item.rankField] value) :=
  forall_mem_setPath adds (fun _ _ => .inr ⟨item, rfl⟩)
    fun id ancestor container _ member _ =>
      adds (.set id ancestor container) (mem_dropWithin.mp member).1

/-- An op that comes under another id is compared with the default there by no one. An inserted item
has only ops that set. -/
theorem isEdit_withItem {op : Op} (edit : op.IsEdit defaults compared) {id : String}
    (inserted : defaults.lookup? (Path.item id) = none) (newId : String) :
    (withItem id newId op).IsEdit defaults
      (compared ∧ ¬ (op.touches id ∧ (withItem id newId op).RestoresDefault defaults)) := by
  by_cases own : op.touches id
  · obtain ⟨segment, rest, path⟩ := List.exists_cons_of_ne_nil edit.belowRoot
    obtain rfl := (Op.touches_iff path id).mp own
    have moved := path_withItem path newId
    refine ⟨moved ▸ List.cons_ne_nil _ _, fun deletes => ?_, fun holds restores =>
      holds.2 ⟨own, restores⟩⟩
    rw [isDelete_withItem] at deletes
    obtain ⟨item, whole, defaulted⟩ := edit.deletes deletes
    obtain rfl : item = segment.asKey := (Op.touches_iff whole _).mp own
    rw [inserted] at defaulted
    cases defaulted
  · rw [withItem_of_not_touches own]
    exact edit.mono And.left

namespace IsEdited

/-- Moving an item leaves a default only where a new rank is recorded as one. -/
theorem moveItem (edited : draft.IsEdited defaults compared) (id : String) (place : Nat) :
    (draft.moveItem id place).IsEdited defaults
      (compared ∧ ¬ (Intent.move id place).RecordsDefault draft) := by
  rw [moveItem_eq_foldl]
  -- A rank that is set in the course of the move has no op above it that was not there before.
  refine And.left (List.foldlRecOn (motive := fun current => current.IsEdited defaults
    (compared ∧ ¬ (Intent.move id place).RecordsDefault draft) ∧ AddsRanks draft current)
    _ _ ⟨edited.mono And.left, fun op member => .inl ⟨op, member, rfl⟩⟩ ?_)
  rintro current ⟨currentEdited, adds⟩ entry member
  split
  · exact ⟨currentEdited, adds⟩
  · next unheld =>
      have unchanged := currentEdited.unchanged.trans edited.unchanged.symm
      refine ⟨(currentEdited.setPath (List.cons_ne_nil _ _) _).mono fun holds => ?_,
        adds.setField entry.1.1 _⟩
      exact ⟨holds, fun records =>
        holds.2 ⟨entry, member, unheld, RecordsDefaultAt.of_addsRanks adds unchanged records⟩⟩

theorem renameItem (edited : draft.IsEdited defaults compared) (object : defaults.isObject)
    (id newId : String) :
    (draft.renameItem id newId).IsEdited defaults
      (compared ∧ ¬ (Intent.rename id newId).RecordsDefault draft) := by
  by_cases distinct : id = newId
  · rw [Draft.renameItem, if_pos distinct]
    exact edited.mono And.left
  have keyed : draft.defaults.isObject := edited.unchanged ▸ object
  cases live : draft.resolved.get? id with
  | none =>
      rw [renameItem_of_absent keyed edited.belowRoot live]
      exact edited.mono And.left
  | some value =>
      by_cases defaulted : (draft.defaults.get? id).isSome
      · rw [renameItem_of_defaulted keyed edited.belowRoot distinct live defaulted]
        exact (((edited.resetItem newId).removeItem id).insertItem newId value).mono And.left
      · have inserted : draft.defaults.get? id = none := by simpa using defaulted
        rw [renameItem_of_inserted keyed edited.belowRoot distinct live inserted]
        refine ⟨edited.unchanged, List.forall_mem_map.mpr fun op member => ?_⟩
        have lacking : defaults.lookup? (Path.item id) = none := by
          rw [Json.lookup?_item object, ← edited.unchanged, inserted]
        refine (isEdit_withItem ((edited.resetItem newId).ops op member) lacking newId).mono ?_
        refine fun holds => ⟨holds.1, fun escaped => holds.2 ⟨inserted, op, ?_, ?_⟩⟩
        · exact List.mem_filter.mpr ⟨(mem_dropWithin.mp member).1, escaped.1⟩
        · exact edited.unchanged ▸ escaped.2

/-! ## Intents -/

/-- Every intent leaves ops of edits, and a default only where it records one. -/
theorem perform (edited : draft.IsEdited defaults compared) (object : defaults.isObject)
    (intent : Intent) :
    (draft.perform intent).IsEdited defaults (compared ∧ ¬ intent.RecordsDefault draft) := by
  cases intent with
  | set id field value => exact edited.setPath (List.cons_ne_nil _ _) value
  | clear | reset | prune => exact (edited.drop (List.filter_subset_self _)).mono And.left
  | insert id value => exact (edited.insertItem id value).mono And.left
  | remove id => exact (edited.removeItem id).mono And.left
  | move id place => exact edited.moveItem id place
  | rename id newId => exact edited.renameItem object id newId

/-- Every batch of intents leaves ops of edits, and a default only where an intent records one. -/
theorem performAll (edited : draft.IsEdited defaults compared) (object : defaults.isObject)
    (intents : List Intent) :
    (draft.performAll intents).IsEdited defaults
      (compared ∧ ¬ draft.EverRecordsDefault intents) := by
  induction intents using List.reverseRecOn with
  | nil => exact edited.mono And.left
  | append_singleton before intent inductionHypothesis =>
      rw [Draft.performAll, List.foldl_concat]
      refine (inductionHypothesis.perform object intent).mono fun holds => ⟨⟨holds.1, ?_⟩, ?_⟩
      · rintro ⟨earlier, recording, after, rfl, records⟩
        exact holds.2 ⟨earlier, recording, after ++ [intent], by simp, records⟩
      · exact fun records => holds.2 ⟨before, intent, [], rfl, records⟩

/-- If an item with ops is the same as its default, its last op sets the default at its path. -/
theorem exists_last (edited : draft.IsEdited defaults compared) (object : defaults.isObject)
    {item : Item Json} (member : item ∈ Item.all defaults draft.log)
    (overridden : item.isOverridden) (same : Json.SameAt item.computed item.defaultValue) :
    ∃ last, item.ops.getLast? = some last ∧ last ∈ draft.log
      ∧ last.RestoresDefault defaults := by
  obtain ⟨shape, -⟩ := (Item.mem_all_iff object edited.belowRoot).mp member
  have ops : item.ops = draft.log.opsOn item.id := by
    rw [shape, OpIndex.opsFor_ofLog]
    rfl
  have computed : item.computed = Item.replay item.ops (defaults.get? item.id) := by
    rw [ops, shape]
    exact Log.get?_resolve edited.belowRoot object item.id
  have default : item.defaultValue = defaults.get? item.id := by rw [shape]
  obtain none | ⟨initial, last, split⟩ := List.eq_nil_or_concat item.ops
  · simp [Item.isOverridden, none] at overridden
  · rw [List.concat_eq_append] at split
    have touching : last ∈ draft.log.opsOn item.id := by simp [← ops, split]
    obtain ⟨held, touched⟩ := List.mem_filter.mp touching
    rw [computed, split, Item.replay_concat, default] at same
    exact ⟨last, by simp [split], held, (edited.ops last held).restoresDefault object touched same⟩

end IsEdited

/-- After every batch of intents on an empty log an item with ops differs from its default, unless
its last op sets the default at its path and an intent of the batch recorded a default. -/
theorem restoresDefault_of_isOverridden {defaults : Json} (object : defaults.isObject)
    (supply : IdSupply) (intents : List Intent) {item : Item Json}
    (member : item ∈ Item.all defaults ((ofDocument ⟨defaults, []⟩ supply).performAll intents).log)
    (overridden : item.isOverridden) (same : Json.SameAt item.computed item.defaultValue) :
    (∃ last, item.ops.getLast? = some last ∧ last.RestoresDefault defaults)
      ∧ (ofDocument ⟨defaults, []⟩ supply).EverRecordsDefault intents := by
  have start : (ofDocument ⟨defaults, []⟩ supply).IsEdited defaults True :=
    ⟨rfl, List.forall_mem_nil _⟩
  have edited := start.performAll object intents
  obtain ⟨last, ends, held, restores⟩ := edited.exists_last object member overridden same
  refine ⟨⟨last, ends, restores⟩, ?_⟩
  by_contra never
  exact (edited.ops last held).differs ⟨trivial, never⟩ restores

/-- Defaults with an item that has a level. -/
def levelDefaults : Json :=
  .object [("left", .object [("level", .int (WordInt.ofUInt64 1))])]

/-- The item is replaced by one with another level, which is then set to the default level. -/
def levelIntents : List Intent :=
  [.set "left" [] (.object [("level", .int (WordInt.ofUInt64 2))]),
    .set "left" [.key "level"] (.int (WordInt.ofUInt64 1))]

/-- The default level is recorded in the op on the item, so the item has an op and is the same as
its default. -/
theorem restoresDefault_of_levelIntents :
    ∃ item ∈ Item.all levelDefaults
        ((ofDocument ⟨levelDefaults, []⟩ ⟨0⟩).performAll levelIntents).log,
      item.isOverridden ∧ Json.SameAt item.computed item.defaultValue
        ∧ (∃ last, item.ops.getLast? = some last ∧ last.RestoresDefault levelDefaults)
        ∧ (ofDocument ⟨levelDefaults, []⟩ ⟨0⟩).EverRecordsDefault levelIntents := by
  have log : ((ofDocument ⟨levelDefaults, []⟩ ⟨0⟩).performAll levelIntents).log
      = [.set (opIdOf 0) [.key "left"] (.object [("level", .int (WordInt.ofUInt64 1))])] := by
    rfl
  have object : levelDefaults.isObject := rfl
  let item : Item Json :=
    { id := "left", computed := levelDefaults.get? "left",
      defaultValue := levelDefaults.get? "left",
      ops := [.set (opIdOf 0) [.key "left"] (.object [("level", .int (WordInt.ofUInt64 1))])] }
  have member : item ∈ Item.all levelDefaults
      ((ofDocument ⟨levelDefaults, []⟩ ⟨0⟩).performAll levelIntents).log := by
    rw [log, Item.mem_all_iff object (by simp [Log.IsBelowRoot, Op.path]), OpIndex.opsFor_ofLog]
    exact ⟨rfl, .inl rfl⟩
  have same : Json.SameAt item.computed item.defaultValue := .refl _
  exact ⟨item, member, rfl, same, restoresDefault_of_isOverridden object ⟨0⟩ levelIntents member rfl
    same⟩

end Draft

end LayerRouting
