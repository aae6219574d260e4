import LayerRouting.Proofs.Override.Members
import LayerRouting.Proofs.Override.SetOutcome
import LayerRouting.Proofs.Override.Sameness

/-!
# Setting a field of an item

In a collection whose log has no op on the root, setting a named field of an item gives the
field its value and leaves every other item and every other named field of the item as they
were (`Draft.fieldSet_setField`). This holds of every log, also of logs that go through arrays:
a name is a key that is never read as an index, so an array holds nothing under it and gives way
to an object when it is set.
-/

namespace LayerRouting

namespace Segment

/-- Whether a key is the name of members only: no segment with this key is an index. -/
def IsName (name : String) : Prop :=
  ∀ segment : Segment, segment.asKey = name -> segment.asIndex? = none

/-- A key that begins with neither a digit nor a plus sign is a name. -/
theorem isName_of_head {name : String} {first : Char} {rest : List Char}
    (text : name.toList = first :: rest) (noDigit : Text.digit? first = none)
    (noSign : first ≠ '+') : IsName name := by
  intro segment same
  cases segment with
  | key other =>
      obtain rfl : other = name := same
      rw [asIndex?, text, Text.unsigned?]
      · simp [Text.natural?, noDigit]
      · rintro others signed
        cases signed
        exact noSign rfl
  | index position =>
      have digits : decimalDigits position.toNat = first :: rest := by
        rw [← text, ← same, asKey, String.toList_ofList]
      have isDigit : first.isDigit :=
        Nat.isDigit_of_mem_toDigits (by decide) (by decide)
          (digits ▸ List.mem_cons_self : first ∈ decimalDigits position.toNat)
      simp only [Char.isDigit, Bool.and_eq_true, decide_eq_true_eq] at isDigit
      simp only [Text.digit?, ite_eq_right_iff, reduceCtorEq, imp_false] at noDigit
      exact absurd isDigit noDigit

/-- A name meets an object, or makes one. -/
theorem IsName.isObject_containerFor {segment : Segment} (named : IsName segment.asKey)
    (tree : Json) : (tree.containerFor segment).isObject := by
  have unread := named segment rfl
  cases segment with
  | index position => cases unread
  | key name => cases tree <;> simp [Json.containerFor, Json.emptyFor, Json.isObject, unread]

end Segment

open Segment (IsName)

namespace Json

/-- The value of a field of an item. -/
def field? (tree : Json) (id field : String) : Option Json :=
  (tree.get? id).bind fun item => item.get? field

end Json

/-! ## One op -/

namespace Op

/-- The value of a field of an item after an op that touches the item. -/
def fieldAfter (op : Op) (field : String) (value : Option Json) : Option Json :=
  match op.path.drop 1, op with
  | [], .set _ _ installed => installed.get? field
  | [], .delete _ _ => none
  | next :: rest, _ =>
      if next.asKey = field then Item.afterOp (op.withPath (next :: rest)) value else value

/-- The value under a name after an op below the root, whatever the tree is. -/
theorem get?_apply_name {op : Op} {segment : Segment} {rest : Path}
    (path : op.path = segment :: rest) {name : String} (named : IsName name) (tree : Json) :
    (op.apply tree).get? name
      = if segment.asKey = name then Item.afterOp op (tree.get? name) else tree.get? name := by
  by_cases same : segment.asKey = name
  · subst same
    rw [get?_apply path (named.isObject_containerFor tree)]
  · cases op with
    | set id setPath value =>
        obtain rfl : setPath = segment :: rest := path
        rw [apply, Json.get?_setAt_of_ne tree same, if_neg same]
    | delete id deletePath =>
        obtain rfl : deletePath = segment :: rest := path
        rw [apply, Json.get?_deleteAt?, if_neg same, if_neg same]

/-- The value under a name of an item's value, after an op that touches the item. -/
theorem get?_afterOp {op : Op} (below : op.path ≠ []) {name : String} (named : IsName name)
    (value : Option Json) :
    ((Item.afterOp op value).bind fun item => item.get? name)
      = op.fieldAfter name (value.bind fun item => item.get? name) := by
  obtain ⟨segment, rest, path⟩ := List.exists_cons_of_ne_nil below
  cases rest with
  | nil => cases op <;> simp_all [Op.path, Item.afterOp, fieldAfter]
  | cons next rest =>
      have inner : (op.withPath (next :: rest)).path = next :: rest := by cases op <;> rfl
      have present : ∀ old : Json, ((Item.afterOp op (some old)).bind fun item => item.get? name)
          = op.fieldAfter name (old.get? name) := by
        intro old
        simp [Item.afterOp, fieldAfter, path, get?_apply_name inner named]
      cases value with
      | some old => exact present old
      | none =>
          cases op with
          | set id setPath installed =>
              -- An absent item is set like null, which has no fields either.
              have created : Item.afterOp (.set id setPath installed) none
                  = Item.afterOp (.set id setPath installed) (some .null) := by
                obtain rfl : setPath = segment :: next :: rest := path
                rfl
              rw [created, present .null]
              rfl
          | delete id deletePath =>
              obtain rfl : deletePath = segment :: next :: rest := path
              simp [fieldAfter, Op.path, withPath, Item.afterOp_delete]

/-- The value of a named field after an op that is not on the root. -/
theorem field?_apply {op : Op} (below : op.path ≠ []) {tree : Json} (object : tree.isObject)
    (id : String) {name : String} (named : IsName name) :
    (op.apply tree).field? id name
      = if op.touches id then op.fieldAfter name (tree.field? id name)
        else tree.field? id name := by
  rw [Json.field?, get?_apply_of_isObject below object]
  split
  · exact get?_afterOp below named _
  · rfl

/-- An op of an item that does not affect a field leaves what the item has there. -/
theorem fieldAfter_of_apart {op : Op} {segment : Segment} {rest : Path}
    (path : op.path = segment :: rest) {field : String}
    (apart : ¬ op.affects [.key segment.asKey, .key field]) (value : Option Json) :
    op.fieldAfter field value = value := by
  obtain ⟨notBelow, notAbove⟩ := not_affects_iff.mp apart
  rw [path] at notBelow notAbove
  cases rest with
  | nil => exact absurd (Path.isWithin_cons_cons.mpr ⟨rfl, Path.isWithin_nil _⟩) notAbove
  | cons next rest =>
      have elsewhere : next.asKey ≠ field := by
        rintro rfl
        exact notBelow (by simp [Path.isWithin_cons_cons, Segment.asKey])
      simp [fieldAfter, path, elsewhere]

/-- An op that does not affect a field of an item leaves the field as it is. -/
theorem field?_apply_of_apart {op : Op} (below : op.path ≠ []) {tree : Json}
    (object : tree.isObject) {id field : String} (named : IsName field)
    (apart : ¬ op.affects [.key id, .key field]) :
    (op.apply tree).field? id field = tree.field? id field := by
  rw [field?_apply below object id named]
  split
  · next touched =>
      obtain ⟨segment, rest, path⟩ := List.exists_cons_of_ne_nil below
      obtain rfl := (touches_iff path id).mp touched
      exact fieldAfter_of_apart path apart _
  · rfl

end Op

/-- Ops that do not affect a field of an item leave the field as it is. -/
theorem Log.field?_resolve_of_apart {log : Log} (belowRoot : log.IsBelowRoot) {tree : Json}
    (object : tree.isObject) {id field : String} (named : IsName field)
    (apart : ∀ op ∈ log, ¬ op.affects [.key id, .key field]) :
    (log.resolve tree).field? id field = tree.field? id field := by
  induction log generalizing tree with
  | nil => rfl
  | cons op rest inductionHypothesis =>
      obtain ⟨below, later⟩ := List.forall_mem_cons.mp belowRoot
      obtain ⟨first, others⟩ := List.forall_mem_cons.mp apart
      rw [resolve_cons, inductionHypothesis later (Op.isObject_apply below object) others,
        Op.field?_apply_of_apart below object named first]

/-! ## Agreement off a field -/

/-- Whether two collections agree on all other items, and on all other named fields of the
item. -/
structure Json.AgreeOffField (id field : String) (left right : Json) : Prop where
  leftObject : left.isObject
  rightObject : right.isObject
  items : ∀ other, other ≠ id -> left.get? other = right.get? other
  fields : ∀ name, IsName name -> name ≠ field -> left.field? id name = right.field? id name

namespace Json.AgreeOffField

variable {id field : String} {left right : Json}

theorem refl (id field : String) {tree : Json} (object : tree.isObject) :
    AgreeOffField id field tree tree :=
  ⟨object, object, fun _ _ => rfl, fun _ _ _ => rfl⟩

/-- An op below the root that applies to both sides keeps them agreeing. -/
theorem apply (agree : AgreeOffField id field left right) {op : Op} (below : op.path ≠ []) :
    AgreeOffField id field (op.apply left) (op.apply right) where
  leftObject := Op.isObject_apply below agree.leftObject
  rightObject := Op.isObject_apply below agree.rightObject
  items other distinct := by
    rw [Op.get?_apply_of_isObject below agree.leftObject,
      Op.get?_apply_of_isObject below agree.rightObject, agree.items other distinct]
  fields name named distinct := by
    rw [Op.field?_apply below agree.leftObject id named,
      Op.field?_apply below agree.rightObject id named, agree.fields name named distinct]

theorem symm (agree : AgreeOffField id field left right) : AgreeOffField id field right left :=
  ⟨agree.rightObject, agree.leftObject, fun other distinct => (agree.items other distinct).symm,
    fun name named distinct => (agree.fields name named distinct).symm⟩

theorem trans {third : Json} (one : AgreeOffField id field left right)
    (two : AgreeOffField id field right third) : AgreeOffField id field left third :=
  ⟨one.leftObject, two.rightObject,
    fun other distinct => (one.items other distinct).trans (two.items other distinct),
    fun name named distinct =>
      (one.fields name named distinct).trans (two.fields name named distinct)⟩

/-- An op on the field or below it shows on no side off the field. -/
theorem apply_left (agree : AgreeOffField id field left right) {op : Op}
    (within : op.path.isWithin [.key id, .key field]) :
    AgreeOffField id field (op.apply left) right := by
  obtain ⟨segment, next, rest, path, rfl, rfl⟩ : ∃ segment next rest,
      op.path = segment :: next :: rest ∧ segment.asKey = id ∧ next.asKey = field := by
    rw [Path.isWithin_iff] at within
    obtain ⟨rest, keys⟩ := within
    simp only [Path.keys, List.map_cons, List.map_nil, Segment.asKey, List.cons_append,
      List.nil_append, eq_comm (b := List.map _ _), List.map_eq_cons_iff] at keys
    obtain ⟨segment, others, path, first, next, rest, rfl, second, -⟩ := keys
    exact ⟨segment, next, rest, path, first, second⟩
  have below : op.path ≠ [] := by simp [path]
  have concerns : ∀ other, op.touches other ↔ segment.asKey = other := Op.touches_iff path
  constructor
  · exact Op.isObject_apply below agree.leftObject
  · exact agree.rightObject
  · intro other distinct
    rw [Op.get?_apply_of_isObject below agree.leftObject,
      if_neg (mt (concerns other).mp distinct.symm), agree.items other distinct]
  · intro name named distinct
    rw [Op.field?_apply below agree.leftObject _ named, if_pos ((concerns _).mpr rfl),
      ← agree.fields name named distinct]
    simp [Op.fieldAfter, path, distinct.symm]

/-- A log without ops on the root keeps the sides agreeing. -/
theorem resolve (agree : AgreeOffField id field left right) {log : Log}
    (belowRoot : log.IsBelowRoot) :
    AgreeOffField id field (log.resolve left) (log.resolve right) := by
  induction log generalizing left right with
  | nil => exact agree
  | cons op rest inductionHypothesis =>
      obtain ⟨below, later⟩ := List.forall_mem_cons.mp belowRoot
      exact inductionHypothesis (agree.apply below) later

/-- Without the ops on the field and below it the log makes the same tree off the field. -/
theorem resolve_dropWithin (agree : AgreeOffField id field left right) {log : Log}
    (belowRoot : log.IsBelowRoot) :
    AgreeOffField id field (log.resolve left)
      (Log.resolve (Draft.dropWithin [.key id, .key field] log) right) := by
  induction log generalizing left right with
  | nil => exact agree
  | cons op rest inductionHypothesis =>
      obtain ⟨below, later⟩ := List.forall_mem_cons.mp belowRoot
      rw [Log.resolve_cons]
      by_cases within : op.path.isWithin [.key id, .key field]
      · rw [Draft.dropWithin_cons_of_within within]
        exact inductionHypothesis (agree.apply_left within) later
      · rw [Draft.dropWithin_cons_of_not_within within, Log.resolve_cons]
        exact inductionHypothesis (agree.apply below) later

end Json.AgreeOffField

/-! ## Setting a field -/

/-- Whether a collection comes from another by giving a field of an item a value, and by
nothing else that shows in items or named fields. -/
structure Json.FieldSet (id field : String) (value : Json) (before after : Json) : Prop where
  reads : SameAt (after.field? id field) (some value)
  agree : AgreeOffField id field before after

namespace Json

/-- A named field is what its path finds. -/
theorem lookup?_field {tree : Json} (object : tree.isObject) (id : String) {field : String}
    (named : IsName field) : tree.lookup? [.key id, .key field] = tree.field? id field := by
  obtain ⟨entries, rfl⟩ := isObject_iff.mp object
  simp only [lookup?_cons, field?, child?, Json.get?, Segment.asKey]
  have unread := named (.key field) rfl
  congr 1
  funext item
  cases item <;> simp [unread]

/-- Setting a named field in the tree gives it the value and shows nowhere else. -/
theorem fieldSet_setAt {tree : Json} (object : tree.isObject) {id field : String}
    (named : IsName field) (segment : Segment) (item : segment.asKey = id) (value : Json) :
    FieldSet id field value tree (tree.setAt [segment, .key field] value) := by
  have below : (Op.set "" [segment, .key field] value).path ≠ [] := by simp [Op.path]
  have within : (Op.set "" [segment, .key field] value).path.isWithin [.key id, .key field] :=
    Path.isWithin_cons_cons.mpr ⟨item.symm, by simp⟩
  have applied := Op.field?_apply below object id named
  rw [if_pos ((Op.touches_iff rfl id).mpr item)] at applied
  constructor
  · rw [Op.apply] at applied
    simp [applied, Op.fieldAfter, Op.path, Op.withPath, Item.afterOp_set, Segment.asKey]
  · exact ((AgreeOffField.refl id field object).apply_left within).symm

/-- A field that is set stays set through ops that do not affect it. -/
theorem FieldSet.resolve {id field : String} {value before after : Json}
    (set : FieldSet id field value before after) (named : IsName field) {log : Log}
    (belowRoot : log.IsBelowRoot) (apart : ∀ op ∈ log, ¬ op.affects [.key id, .key field]) :
    FieldSet id field value (log.resolve before) (log.resolve after) where
  reads := by
    rw [Log.field?_resolve_of_apart belowRoot set.agree.rightObject named apart]
    exact set.reads
  agree := set.agree.resolve belowRoot

end Json

/-- An ancestor of a field that is neither the root nor the field is the item. -/
theorem Path.eq_of_relativeTo?_field {ancestor rest : Path} {id field : String}
    (notRoot : ancestor ≠ []) (notWithin : ¬ ancestor.isWithin [.key id, .key field])
    (below : Path.relativeTo? [.key id, .key field] ancestor = some rest) :
    ∃ segment : Segment, ancestor = [segment] ∧ segment.asKey = id ∧ rest = [.key field] := by
  obtain ⟨segment, others, rfl⟩ := List.exists_cons_of_ne_nil notRoot
  obtain ⟨above, rfl⟩ := Path.relativeTo?_eq_some_iff.mp below
  cases others with
  | nil =>
      have item : segment.asKey = id := by simpa [Path.keys, Segment.asKey] using above
      exact ⟨segment, rfl, item, rfl⟩
  | cons next others =>
      simp only [Path.keys, List.map_cons, List.map_nil, Segment.asKey, List.cons_prefix_cons]
        at above
      obtain ⟨first, second, -⟩ := above
      exact absurd (by simp [Path.isWithin_cons_cons, Segment.asKey, first, second]) notWithin

namespace Draft

variable {draft : Draft}

theorem isBelowRoot_dropWithin {log : Log} (belowRoot : log.IsBelowRoot) (path : Path) :
    (dropWithin path log).IsBelowRoot :=
  fun op member => belowRoot op (mem_dropWithin.mp member).1

/-- Setting below the root leaves a log without ops on the root. -/
theorem isBelowRoot_setPath (belowRoot : draft.log.IsBelowRoot) {path : Path} (below : path ≠ [])
    (value : Json) : (draft.setPath path value).log.IsBelowRoot :=
  forall_mem_setPath belowRoot (fun _ _ => below) fun id ancestor container _ member _ =>
    belowRoot (.set id ancestor container) (mem_dropWithin.mp member).1

/-- Setting a named field of an item in the log gives the field its value in the resolved
tree, and changes no other item and no other named field of the item. -/
theorem fieldSet_setField (object : draft.defaults.isObject) (belowRoot : draft.log.IsBelowRoot)
    (id : String) {field : String} (named : IsName field) (value : Json) :
    Json.FieldSet id field value draft.resolved
      (draft.setField id [.key field] value).resolved := by
  have leftBelow := isBelowRoot_dropWithin belowRoot [.key id, .key field]
  have dropped : Json.AgreeOffField id field draft.resolved
      (Log.resolve (dropWithin [.key id, .key field] draft.log) draft.defaults) :=
    (Json.AgreeOffField.refl id field object).resolve_dropWithin belowRoot
  have outcome := draft.setOutcome [.key id, .key field] value
  change Json.FieldSet _ _ _ _ (draft.setPath [.key id, .key field] value).resolved
  generalize draft.setPath [.key id, .key field] value = edited at outcome ⊢
  cases outcome with
  | kept recorded =>
      obtain ⟨before, opId, old, after, split, same, -, apart⟩ := split_of_alreadyRecords recorded
      refine ⟨?_, .refl id field (Log.isObject_resolve belowRoot object)⟩
      rw [Draft.resolved, split, Log.resolve_append]
      simp only [split, Log.IsBelowRoot, List.forall_mem_append, List.forall_mem_cons] at belowRoot
      have recordedSet := Json.fieldSet_setAt (Log.isObject_resolve belowRoot.1 object) named
        (.key id) rfl old
      have later := (recordedSet.resolve named belowRoot.2.2 apart).reads
      exact later.trans (Json.SameAt.some_some.mpr same)
  | folded new split above last =>
      rename_i before after opId ancestor rest container
      have member : ∀ op, op = .set opId ancestor container ∨ op ∈ after ->
          op ∈ dropWithin [.key id, .key field] draft.log := by
        intro op later
        rw [split]
        exact List.mem_append_right _ (List.mem_cons.mpr later)
      obtain ⟨segment, rfl, item, rfl⟩ := Path.eq_of_relativeTo?_field
        (leftBelow _ (member _ (.inl rfl))) (mem_dropWithin.mp (member _ (.inl rfl))).2 above
      have apart : ∀ op ∈ after, ¬ op.affects [.key id, .key field] := fun op later =>
        not_affects_of_mem_dropWithin (member op (.inr later)) (last op later)
      rw [split, Log.resolve_append, Log.resolve_cons] at dropped
      simp only [split, Log.IsBelowRoot, List.forall_mem_append, List.forall_mem_cons] at leftBelow
      have installed := Op.isObject_apply leftBelow.2.1 (Log.isObject_resolve leftBelow.1 object)
      have set := (Json.fieldSet_setAt installed named segment item value).resolve named
        leftBelow.2.2 apart
      -- Setting the field in the container is setting it after the container.
      have nested := Json.setAt_setAt_append (before.resolve draft.defaults) [segment]
        [.key field] container value
      simp only [Draft.resolved, Log.resolve_append, Log.resolve_cons, Op.apply, ← nested]
      exact ⟨set.reads, dropped.trans set.agree⟩
  | restored | appended =>
      have set := Json.fieldSet_setAt dropped.rightObject named (.key id) rfl value
      simp only [Draft.resolved, log_appendSet, defaults_appendSet, Log.resolve_append]
      exact ⟨set.reads, dropped.trans set.agree⟩
  | elided new unowned found same =>
      have apart := fun op member => not_affects_of_mem_dropWithin member (unowned op member)
      refine ⟨?_, dropped⟩
      rw [Json.lookup?_field object id named] at found
      simp only [Draft.resolved, Log.field?_resolve_of_apart leftBelow object named apart, found]
      exact Json.SameAt.some_some.mpr same

end Draft

end LayerRouting
