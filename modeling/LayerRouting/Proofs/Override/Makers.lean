import LayerRouting.Proofs.Override.FieldEdit

/-!
# The op that made an item

The ops of an item are those of the log that touch it, and one of them made the item if the
defaults lack it: the last one that found no value and left one (`Item.maker?`). Setting a field
of an item leaves the ops of the other items as they are (`Draft.opsOn_setField`), and so the
ops that made them.
-/

namespace LayerRouting

namespace Log

/-- The ops of a log that touch an item. -/
def opsOn (log : Log) (id : String) : Log :=
  log.filter fun op => op.touches id

theorem opsOn_cons_of_touches {op : Op} {id : String} (touched : op.touches id) (rest : Log) :
    opsOn (op :: rest) id = op :: rest.opsOn id :=
  List.filter_cons_of_pos touched

theorem opsOn_cons_of_not_touches {op : Op} {id : String} (apart : ¬ op.touches id) (rest : Log) :
    opsOn (op :: rest) id = rest.opsOn id :=
  List.filter_cons_of_neg apart

theorem opsOn_append (first second : Log) (id : String) :
    opsOn (first ++ second) id = first.opsOn id ++ second.opsOn id :=
  List.filter_append ..

end Log

namespace Item

/-! ## The op that made an item -/

/-- The op that made an item, when the ops that touch it are replayed on its default: the last
one that finds no value and leaves one. -/
def maker? : Log -> Option Json -> Option Op
  | [], _ => none
  | op :: rest, value =>
      (maker? rest (afterOp op value)).or
        (if value.isNone ∧ (afterOp op value).isSome then some op else none)

section Makers

variable {op : Op} {rest : Log} {value : Option Json}

/-- The op that makes an item later is the one that makes it. -/
theorem maker?_cons_of_later {maker : Op} (later : maker? rest (afterOp op value) = some maker) :
    maker? (op :: rest) value = some maker := by
  rw [maker?, later, Option.some_or]

/-- An op makes an item that was absent if no later one does. -/
theorem maker?_cons_of_made (alone : maker? rest (afterOp op value) = none)
    (absent : value = none) (made : (afterOp op value).isSome) :
    maker? (op :: rest) value = some op := by
  rw [maker?, alone, Option.none_or, if_pos ⟨Option.isNone_iff_eq_none.mpr absent, made⟩]

/-- An op does not make an item that was there, nor one that it leaves absent. -/
theorem maker?_cons_of_not_made (alone : maker? rest (afterOp op value) = none)
    (old : value = none -> ¬ (afterOp op value).isSome) : maker? (op :: rest) value = none := by
  rw [maker?, alone, Option.none_or, if_neg]
  rintro ⟨absent, made⟩
  exact old (Option.isNone_iff_eq_none.mp absent) made

/-- The op that made an item is one of those that touch it. -/
theorem mem_of_maker? {ops : Log} {maker : Op} (made : maker? ops value = some maker) :
    maker ∈ ops := by
  induction ops generalizing value with
  | nil => cases made
  | cons op rest inductionHypothesis =>
      rw [maker?, Option.or_eq_some_iff] at made
      rcases made with later | ⟨-, here⟩
      · exact List.mem_cons_of_mem _ (inductionHypothesis later)
      · split at here
        · cases here
          exact List.mem_cons_self
        · cases here

/-- An op that comes last does not make an item that is there. -/
theorem maker?_append_of_present {ops : Log}
    (present : (ops.foldl (fun value op => afterOp op value) value).isSome) (last : Op) :
    maker? (ops ++ [last]) value = maker? ops value := by
  induction ops generalizing value with
  | nil =>
      refine maker?_cons_of_not_made rfl fun absent => ?_
      rw [absent] at present
      cases present
  | cons op rest inductionHypothesis =>
      rw [List.cons_append, maker?, maker?, inductionHypothesis present]

end Makers

/-- An op leaves a value if it sets, or if it deletes below a value that is there. -/
theorem isSome_afterOp {op : Op} {segment : Segment} {rest : Path}
    (path : op.path = segment :: rest) (value : Option Json) :
    (afterOp op value).isSome ↔ op.isDelete = false ∨ (rest ≠ [] ∧ value.isSome) := by
  cases op with
  | set id setPath installed =>
      obtain rfl : setPath = segment :: rest := path
      simp [afterOp_set, Op.isDelete]
  | delete id deletePath =>
      obtain rfl : deletePath = segment :: rest := path
      rw [afterOp_delete]
      split <;> simp_all [Op.isDelete]

/-- An op leaves a value wherever it leaves one when there is less. -/
theorem isSome_afterOp_mono {op : Op} (below : op.path ≠ []) {left right : Option Json}
    (present : right.isSome -> left.isSome) (after : (afterOp op right).isSome) :
    (afterOp op left).isSome := by
  obtain ⟨segment, rest, path⟩ := List.exists_cons_of_ne_nil below
  rw [isSome_afterOp path] at after ⊢
  exact after.imp_right fun ⟨further, held⟩ => ⟨further, present held⟩

/-- Whether an op leaves a value depends only on whether there was one. -/
theorem isSome_afterOp_congr {op : Op} (below : op.path ≠ []) {left right : Option Json}
    (same : left.isSome ↔ right.isSome) :
    (afterOp op left).isSome = (afterOp op right).isSome :=
  Bool.eq_iff_iff.mpr ⟨isSome_afterOp_mono below same.mp, isSome_afterOp_mono below same.mpr⟩

end Item

/-! ## Setting a field -/

/-- An op below the root that affects a path of an item touches no other item. -/
theorem Op.not_touches_of_affects {op : Op} (below : op.path ≠ []) {id other : String}
    (distinct : other ≠ id) {field : Path} (affected : op.affects (Path.item id ++ field)) :
    ¬ op.touches other := by
  obtain ⟨segment, rest, path⟩ := List.exists_cons_of_ne_nil below
  rw [affects, path, Bool.or_eq_true] at affected
  have own : segment.asKey = id := by
    rcases affected with within | above
    · exact (Path.isWithin_cons_cons.mp within).1.symm
    · exact (Path.isWithin_cons_cons.mp above).1
  rw [touches_iff path, own]
  exact distinct.symm

namespace Draft

variable {draft : Draft} {id : String}

/-- Dropping the ops on a path of an item and below it leaves the ops of the other items. -/
theorem opsOn_dropWithin {other : String} (distinct : other ≠ id) (field : Path) {log : Log}
    (belowRoot : log.IsBelowRoot) :
    Log.opsOn (dropWithin (Path.item id ++ field) log) other = log.opsOn other := by
  induction log with
  | nil => rfl
  | cons op rest inductionHypothesis =>
      obtain ⟨below, later⟩ := List.forall_mem_cons.mp belowRoot
      by_cases within : op.path.isWithin (Path.item id ++ field)
      · have apart : ¬ op.touches other :=
          Op.not_touches_of_affects below distinct (Bool.or_eq_true_iff.mpr (.inl within))
        rw [dropWithin_cons_of_within within, inductionHypothesis later,
          Log.opsOn_cons_of_not_touches apart]
      · rw [dropWithin_cons_of_not_within within]
        by_cases touched : op.touches other
        · rw [Log.opsOn_cons_of_touches touched, Log.opsOn_cons_of_touches touched,
            inductionHypothesis later]
        · rw [Log.opsOn_cons_of_not_touches touched, Log.opsOn_cons_of_not_touches touched,
            inductionHypothesis later]

/-- Setting a field of an item leaves the ops of the other items. -/
theorem opsOn_setField (belowRoot : draft.log.IsBelowRoot) {other : String}
    (distinct : other ≠ id) (field : Path) (value : Json) :
    (draft.setField id field value).log.opsOn other = draft.log.opsOn other := by
  have dropped := opsOn_dropWithin distinct field belowRoot
  have outcome := draft.setOutcome (Path.item id ++ field) value
  change (draft.setPath (Path.item id ++ field) value).log.opsOn other = _
  generalize draft.setPath (Path.item id ++ field) value = edited at outcome ⊢
  cases outcome with
  | kept => rfl
  | elided => exact dropped
  | folded new split above last =>
      rename_i before after opId ancestor rest container
      -- The op that changes is on the item itself.
      have leftBelow := isBelowRoot_dropWithin belowRoot (Path.item id ++ field)
      rw [split] at leftBelow
      obtain ⟨below, -⟩ := List.forall_mem_cons.mp (List.forall_mem_append.mp leftBelow).2
      have within : Path.isWithin (Path.item id ++ field) ancestor :=
        Option.isSome_iff_exists.mpr ⟨rest, above⟩
      have apart : ∀ value, ¬ (Op.set opId ancestor value).touches other := fun _ =>
        Op.not_touches_of_affects below distinct (Bool.or_eq_true_iff.mpr (.inr within))
      rw [← dropped, split, Log.opsOn_append, Log.opsOn_append,
        Log.opsOn_cons_of_not_touches (apart _), Log.opsOn_cons_of_not_touches (apart _)]
  | restored | appended =>
      have apart : ∀ opId, ¬ (Op.set opId (Path.item id ++ field) value).touches other := by
        intro opId
        rw [Op.touches_iff rfl]
        exact distinct.symm
      rw [log_appendSet, Log.opsOn_append, Log.opsOn_cons_of_not_touches (apart _)]
      exact (List.append_nil _).trans dropped

end Draft

end LayerRouting
