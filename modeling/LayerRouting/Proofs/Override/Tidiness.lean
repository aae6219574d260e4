import LayerRouting.Proofs.Override.OpIds
import LayerRouting.Proofs.Override.SetOutcome
import Mathlib.Data.List.Nodup

/-!
# Tidy logs

A log is tidy when no two of its ops have one id and none is superseded: on the path of a
later op or below it. Every edit of items keeps a log tidy, as long as the ids of new ops are
new (`Draft.IsTidy.perform`), and so does every batch of edits (`Draft.IsTidy.performAll`).
An edit drops ops, changes the value that an op sets, adds an op after dropping those that
it supersedes, or moves the ops of one item to an id that no op touches. No edit gives back
ids that were taken (`Draft.Advances.performAll`).
-/

namespace LayerRouting

/-- Whether no two ops of a log have one id and no op is superseded by a later one. -/
structure Log.IsTidy (log : Log) : Prop where
  distinct : (log.map Op.id).Nodup
  unsuperseded : log.Pairwise fun earlier later => ¬ earlier.path.isWithin later.path

namespace Log.IsTidy

variable {log : Log}

/-- A log from which ops were dropped is tidy. -/
theorem sublist (tidy : log.IsTidy) {part : Log} (dropped : part.Sublist log) : part.IsTidy where
  distinct := tidy.distinct.sublist (dropped.map Op.id)
  unsuperseded := tidy.unsuperseded.sublist dropped

/-- A new op may come last when it supersedes no op. -/
theorem append (tidy : log.IsTidy) {op : Op} (new : op.id ∉ log.map Op.id)
    (free : ∀ earlier ∈ log, ¬ earlier.path.isWithin op.path) : (log ++ [op]).IsTidy where
  distinct := by
    rw [List.map_append, List.map_singleton, List.nodup_append]
    refine ⟨tidy.distinct, List.nodup_singleton _, fun id member last added => ?_⟩
    rw [List.mem_singleton.mp added]
    rintro rfl
    exact new member
  unsuperseded := by
    refine List.pairwise_append.mpr ⟨tidy.unsuperseded, List.pairwise_singleton _ _, ?_⟩
    intro earlier member later last
    rw [List.mem_singleton.mp last]
    exact free earlier member

/-- A log whose ops get other paths is tidy when those paths supersede each other no more
than the old ones. -/
theorem map (tidy : log.IsTidy) {change : Op -> Op}
    (sameIds : (log.map change).map Op.id = log.map Op.id)
    (keeps : ∀ earlier ∈ log, ∀ later ∈ log, (change earlier).path.isWithin (change later).path ->
      earlier.path.isWithin later.path) : Log.IsTidy (log.map change) where
  distinct := by
    rw [sameIds]
    exact tidy.distinct
  unsuperseded := by
    refine List.pairwise_map.mpr (tidy.unsuperseded.imp_of_mem ?_)
    intro earlier later earlierMember laterMember apart within
    exact apart (keeps earlier earlierMember later laterMember within)

/-- Only the ids of the ops and their paths matter. -/
theorem of_map_eq (tidy : log.IsTidy) {other : Log}
    (same : other.map (fun op => (op.id, op.path)) = log.map fun op => (op.id, op.path)) :
    other.IsTidy where
  distinct := by
    have ids : other.map Op.id = log.map Op.id := by
      simpa [Function.comp_def] using congrArg (List.map Prod.fst) same
    exact ids ▸ tidy.distinct
  unsuperseded := by
    have paths : other.map Op.path = log.map Op.path := by
      simpa [Function.comp_def] using congrArg (List.map Prod.snd) same
    have apart : (log.map Op.path).Pairwise fun earlier later => ¬ earlier.isWithin later :=
      List.pairwise_map.mpr tidy.unsuperseded
    exact List.pairwise_map.mp (paths ▸ apart)

/-- What an op sets does not matter. -/
theorem replaceValue {before after : Log} {id : String} {path : Path} {old : Json}
    (tidy : Log.IsTidy (before ++ .set id path old :: after)) (value : Json) :
    Log.IsTidy (before ++ .set id path value :: after) :=
  tidy.of_map_eq (by simp [Op.id, Op.path])

end Log.IsTidy

namespace Draft

/-- Whether the log of a draft is tidy and the ids of its new ops will be new. -/
structure IsTidy (draft : Draft) : Prop where
  log : draft.log.IsTidy
  new : draft.supply.IsNewFor draft.log

namespace IsTidy

variable {draft : Draft}

/-! ## Dropping and adding ops -/

/-- Dropping ops keeps a draft tidy. -/
theorem drop (tidy : draft.IsTidy) {part : Log} (dropped : part.Sublist draft.log) :
    IsTidy { draft with log := part } where
  log := tidy.log.sublist dropped
  new := tidy.new.mono le_rfl (dropped.map Op.id).subset

theorem dropWithin (tidy : draft.IsTidy) (path : Path) :
    IsTidy { draft with log := Draft.dropWithin path draft.log } :=
  tidy.drop List.filter_sublist

/-- Adding an op that sets keeps a draft tidy when no op is on its path or below it. -/
theorem appendSet (tidy : draft.IsTidy) {path : Path}
    (free : ∀ op ∈ draft.log, ¬ op.path.isWithin path) (value : Json) :
    (draft.appendSet path value).IsTidy where
  log := tidy.log.append (tidy.new _ le_rfl) free
  new := tidy.new.append rfl

/-- Adding an op that deletes keeps a draft tidy when no op is on its path or below it. -/
theorem appendDelete (tidy : draft.IsTidy) {path : Path}
    (free : ∀ op ∈ draft.log, ¬ op.path.isWithin path) : (draft.appendDelete path).IsTidy where
  log := tidy.log.append (tidy.new _ le_rfl) free
  new := tidy.new.append rfl

/-- What an op sets does not matter. -/
theorem replaceValue {before after : Log} {id : String} {path : Path} {old : Json}
    (tidy : IsTidy { draft with log := before ++ .set id path old :: after }) (value : Json) :
    IsTidy { draft with log := before ++ .set id path value :: after } where
  log := tidy.log.replaceValue value
  new := tidy.new.mono le_rfl (by simp [Op.id])

theorem not_isWithin_of_mem_dropWithin {path : Path} {log : Log} :
    ∀ op ∈ Draft.dropWithin path log, ¬ op.path.isWithin path :=
  fun _ member => (mem_dropWithin.mp member).2

/-! ## Edits of one item -/

theorem setPath (tidy : draft.IsTidy) (path : Path) (value : Json) :
    (draft.setPath path value).IsTidy := by
  have cleared := tidy.dropWithin path
  have outcome := draft.setOutcome path value
  generalize draft.setPath path value = set at outcome ⊢
  cases outcome with
  | kept => exact tidy
  | elided => exact cleared
  | restored | appended => exact cleared.appendSet not_isWithin_of_mem_dropWithin value
  | folded new split below last =>
      rw [split] at cleared
      exact cleared.replaceValue _

theorem setField (tidy : draft.IsTidy) (id : String) (field : Path) (value : Json) :
    (draft.setField id field value).IsTidy :=
  tidy.setPath _ value

theorem clearField (tidy : draft.IsTidy) (id : String) (field : Path) :
    (draft.clearField id field).IsTidy :=
  tidy.dropWithin _

theorem resetItem (tidy : draft.IsTidy) (id : String) : (draft.resetItem id).IsTidy :=
  tidy.clearField id []

/-- After an item was reset no op is on it or below it. -/
theorem not_isWithin_of_mem_resetItem {id : String} :
    ∀ op ∈ (draft.resetItem id).log, ¬ op.path.isWithin (Path.item id) := by
  intro op member
  have cleared : ¬ op.path.isWithin (Path.item id ++ []) := not_isWithin_of_mem_dropWithin op member
  simpa using cleared

theorem insertItem (tidy : draft.IsTidy) (id : String) (value : Json) :
    (draft.insertItem id value).IsTidy := by
  rw [Draft.insertItem]
  split
  · exact tidy.resetItem id
  · exact (tidy.resetItem id).appendSet not_isWithin_of_mem_resetItem value

theorem removeItem (tidy : draft.IsTidy) (id : String) : (draft.removeItem id).IsTidy := by
  rw [Draft.removeItem]
  split
  · exact (tidy.resetItem id).appendDelete not_isWithin_of_mem_resetItem
  · exact tidy.resetItem id

end IsTidy

/-! ## Edits of several items -/

/-- The live items with the places that they have after an item was moved among them; none if the
item is not live. -/
def newPlaces (draft : Draft) (id : String) (place : Nat) :
    List ((String × Option Binary64) × Nat) :=
  match draft.liveRanks.find? fun entry => entry.1 = id with
  | none => []
  | some moved =>
      let others := draft.liveRanks.eraseP fun entry => entry.1 = id
      (others.insertIdx (min place others.length) moved).zipIdx

/-- Moving an item sets the rank of every live item that does not hold its new place. -/
theorem moveItem_eq_foldl (draft : Draft) (id : String) (place : Nat) :
    draft.moveItem id place
      = (draft.newPlaces id place).foldl (fun current entry =>
          if hasRank entry.1.2 entry.2 then current
          else current.setField entry.1.1 [.key Item.rankField] (Json.ofNat entry.2)) draft := by
  rw [moveItem, newPlaces]
  cases draft.liveRanks.find? fun entry => entry.1 = id with
  | none => rfl
  | some moved => rfl

/-- The op at its place under another id, if it touches the item with the old one. -/
def withItem (id newId : String) (op : Op) : Op :=
  if op.path.firstKey? = some id then op.withPath (op.path.withFirst (.key newId)) else op

theorem map_id_withItem (id newId : String) (log : Log) :
    (log.map (withItem id newId)).map Op.id = log.map Op.id := by
  have sameId : ∀ op, (withItem id newId op).id = op.id := by
    intro op
    rw [withItem]
    split
    · cases op <;> rfl
    · rfl
  rw [List.map_map]
  exact List.map_congr_left fun op _ => sameId op

/-- The keys of a path under another id. -/
theorem keys_path_withItem (id newId : String) (op : Op) :
    (withItem id newId op).path.keys
      = match op.path.keys with
        | [] => []
        | key :: rest => (if key = id then newId else key) :: rest := by
  have moved : ∀ path, (op.withPath path).path = path := by cases op <;> exact fun _ => rfl
  have newKey : (Segment.key newId).asKey = newId := rfl
  cases path : op.path with
  | nil => simp [withItem, path, Path.firstKey?, Path.keys]
  | cons segment rest =>
      by_cases own : segment.asKey = id
      · simp [withItem, path, Path.firstKey?, Path.keys, Path.withFirst, own, moved, newKey]
      · simp [withItem, path, Path.firstKey?, Path.keys, own]

/-- Ops that are moved to an unused id come to lie within each other only if they did. -/
theorem isWithin_of_isWithin_withItem {id newId : String} {earlier later : Op}
    (earlierFree : ¬ earlier.path.isWithin (Path.item newId))
    (laterFree : ¬ later.path.isWithin (Path.item newId))
    (within : (withItem id newId earlier).path.isWithin (withItem id newId later).path) :
    earlier.path.isWithin later.path := by
  have itemKeys : (Path.item newId).keys = [newId] := rfl
  rw [Path.isWithin_iff] at earlierFree laterFree within ⊢
  rw [keys_path_withItem, keys_path_withItem] at within
  rw [itemKeys] at earlierFree laterFree
  generalize earlier.path.keys = inner at earlierFree within ⊢
  generalize later.path.keys = outer at laterFree within ⊢
  cases outer with
  | nil => exact List.nil_prefix
  | cons outerKey outerRest =>
      cases inner with
      | nil => simp at within
      | cons innerKey innerRest =>
          simp only [List.cons_prefix_cons, List.nil_prefix, and_true]
            at within earlierFree laterFree ⊢
          obtain ⟨first, rest⟩ := within
          refine ⟨?_, rest⟩
          -- Neither key is the new id, so equal keys after the move were equal before it.
          split at first <;> split at first <;> simp_all

namespace IsTidy

variable {draft : Draft}

theorem moveItem (tidy : draft.IsTidy) (id : String) (place : Nat) :
    (draft.moveItem id place).IsTidy := by
  rw [moveItem_eq_foldl]
  refine List.foldlRecOn _ _ tidy fun current currentTidy entry _ => ?_
  split
  · exact currentTidy
  · exact currentTidy.setField _ _ _

/-- Moving the ops of an item to an id that no op touches supersedes no op. -/
theorem moveOps (tidy : draft.IsTidy) (id : String) {newId : String}
    (free : ∀ op ∈ draft.log, ¬ op.path.isWithin (Path.item newId)) :
    IsTidy { draft with log := draft.log.map (withItem id newId) } where
  log := tidy.log.map (map_id_withItem id newId draft.log)
    fun earlier earlierMember later laterMember =>
      isWithin_of_isWithin_withItem (free earlier earlierMember) (free later laterMember)
  new := tidy.new.mono le_rfl (map_id_withItem id newId draft.log ▸ List.Subset.refl _)

theorem renameItem (tidy : draft.IsTidy) (id newId : String) :
    (draft.renameItem id newId).IsTidy := by
  have cleared := tidy.resetItem newId
  rw [Draft.renameItem]
  split
  · exact tidy
  · split
    · split
      · exact cleared.moveOps id not_isWithin_of_mem_resetItem
      · exact (cleared.removeItem id).insertItem newId _
    · exact tidy

theorem prune (tidy : draft.IsTidy) : draft.prune.IsTidy :=
  tidy.drop List.filter_sublist

/-! ## Intents -/

/-- Every intent keeps a draft tidy. -/
theorem perform (tidy : draft.IsTidy) (intent : Intent) : (draft.perform intent).IsTidy := by
  cases intent with
  | set id field value => exact tidy.setField id field value
  | clear id field => exact tidy.clearField id field
  | reset id => exact tidy.resetItem id
  | insert id value => exact tidy.insertItem id value
  | remove id => exact tidy.removeItem id
  | move id place => exact tidy.moveItem id place
  | rename id newId => exact tidy.renameItem id newId
  | prune => exact tidy.prune

/-- Every batch of intents keeps a draft tidy. -/
theorem performAll (tidy : draft.IsTidy) (intents : List Intent) :
    (draft.performAll intents).IsTidy :=
  List.foldlRecOn _ _ tidy fun _ current intent _ => current.perform intent

end IsTidy

/-! ## Supplies of drafts -/

/-- Whether no id that one draft has given away is still to be given by another. -/
def Advances (before after : Draft) : Prop :=
  before.supply.next ≤ after.supply.next

namespace Advances

variable {before middle after : Draft}

theorem refl (draft : Draft) : draft.Advances draft :=
  le_rfl

theorem trans (first : before.Advances middle) (second : middle.Advances after) :
    before.Advances after :=
  le_trans first second

theorem setPath (draft : Draft) (path : Path) (value : Json) :
    draft.Advances (draft.setPath path value) := by
  have outcome := draft.setOutcome path value
  generalize draft.setPath path value = set at outcome ⊢
  cases outcome with
  | kept | elided | folded => exact le_rfl
  | restored | appended => exact Nat.le_succ _

theorem insertItem (draft : Draft) (id : String) (value : Json) :
    draft.Advances (draft.insertItem id value) := by
  rw [Draft.insertItem]
  split
  · exact le_rfl
  · exact Nat.le_succ _

theorem removeItem (draft : Draft) (id : String) : draft.Advances (draft.removeItem id) := by
  rw [Draft.removeItem]
  split
  · exact Nat.le_succ _
  · exact le_rfl

theorem moveItem (draft : Draft) (id : String) (place : Nat) :
    draft.Advances (draft.moveItem id place) := by
  rw [moveItem_eq_foldl]
  refine List.foldlRecOn _ _ (refl draft) fun current advanced entry _ => ?_
  split
  · exact advanced
  · exact advanced.trans (setPath current _ _)

theorem renameItem (draft : Draft) (id newId : String) :
    draft.Advances (draft.renameItem id newId) := by
  rw [Draft.renameItem]
  split
  · exact refl draft
  · split
    · split
      · exact le_rfl
      · exact (removeItem (draft.resetItem newId) id).trans (insertItem _ newId _)
    · exact refl draft

/-- No intent gives ids back. -/
theorem perform (draft : Draft) (intent : Intent) : draft.Advances (draft.perform intent) := by
  cases intent with
  | set id field value => exact setPath draft _ value
  | clear | reset | prune => exact le_rfl
  | insert id value => exact insertItem draft id value
  | remove id => exact removeItem draft id
  | move id place => exact moveItem draft id place
  | rename id newId => exact renameItem draft id newId

/-- No batch of intents gives ids back. -/
theorem performAll (draft : Draft) (intents : List Intent) :
    draft.Advances (draft.performAll intents) :=
  List.foldlRecOn _ _ (refl draft) fun current advanced intent _ =>
    advanced.trans (perform current intent)

end Advances

end Draft

end LayerRouting
