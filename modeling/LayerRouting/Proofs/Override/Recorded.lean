import LayerRouting.Proofs.Override.Makers

/-!
# Values that need no more recording

After a path was set, the log has nothing left to record for it (`Draft.records_setPath`): either
no op affects the path and the default is the value, or the last op that affects it sets the value
there or inside a container above it, and no other op is on the path or below it. Setting a flag
again then leaves the draft as it is, down to the ids of its ops (`Draft.setPath_of_records`), and
so does setting any value a second time (`Draft.setField_again`).

Whether a log records a value depends only on the ops that affect the path (`Log.opsAt`), and so
edits of other items keep what is recorded (`Log.Records.setField_other`).
-/

namespace LayerRouting

/-! ## Logs that are the same -/

namespace Log.Same

/-- A log that is the same as one with an op at its end has such an op as well. -/
theorem exists_concat {before log : Log} {op : Op} (same : Log.Same (before ++ [op]) log) :
    ∃ before' op', log = before' ++ [op'] ∧ before.Same before' ∧ op.Same op' := by
  induction before generalizing log with
  | nil =>
      match log, same with
      | [other], ⟨sameOp, _⟩ => exact ⟨[], other, rfl, trivial, sameOp⟩
  | cons first before inductionHypothesis =>
      match log, same with
      | other :: log, ⟨sameFirst, sameRest⟩ =>
          obtain ⟨before', op', rfl, sameBefore, sameOp⟩ := inductionHypothesis sameRest
          exact ⟨other :: before', op', rfl, ⟨sameFirst, sameBefore⟩, sameOp⟩

end Log.Same

theorem Op.Same.path_eq {op op' : Op} (same : op.Same op') : op'.path = op.path := by
  cases op <;> cases op' <;> simp_all [Op.Same, Op.path]

/-- What holds of the paths of all ops holds of a log that is the same. -/
theorem Log.Same.forall_path {log log' : Log} (same : log.Same log') (property : Path -> Prop)
    (holds : ∀ op ∈ log, property op.path) : ∀ op ∈ log', property op.path := by
  induction log generalizing log' with
  | nil =>
      match log', same with
      | [], _ => exact List.forall_mem_nil _
  | cons first rest inductionHypothesis =>
      match log', same with
      | other :: rest', ⟨sameFirst, sameRest⟩ =>
          obtain ⟨here, later⟩ := List.forall_mem_cons.mp holds
          exact List.forall_mem_cons.mpr
            ⟨sameFirst.path_eq ▸ here, inductionHypothesis sameRest later⟩

/-! ## Ops at a path -/

namespace Log

/-- The ops on a path, above it or below it. -/
def opsAt (log : Log) (path : Path) : Log :=
  log.filter fun op => op.affects path

theorem opsAt_append (first second : Log) (path : Path) :
    opsAt (first ++ second) path = first.opsAt path ++ second.opsAt path :=
  List.filter_append first second

theorem opsAt_of_not_affects {log : Log} {path : Path} (apart : ∀ op ∈ log, ¬ op.affects path) :
    log.opsAt path = [] :=
  List.filter_eq_nil_iff.mpr apart

/-- The ops at a path are those at the path among the ops that end with the last one. -/
theorem opsAt_split {log before after : Log} {op : Op} {path : Path}
    (split : log = before ++ op :: after) (affects : op.affects path)
    (apart : ∀ op ∈ after, ¬ op.affects path) :
    log.opsAt path = before.opsAt path ++ [op] := by
  have last : opsAt (op :: after) path = op :: after.opsAt path :=
    List.filter_cons_of_pos (p := fun op : Op => op.affects path) affects
  rw [split, opsAt_append, last, opsAt_of_not_affects apart]

/-- Logs that are the same have the same at a path. -/
theorem Same.opsAt {log log' : Log} (same : log.Same log') (path : Path) :
    (log.opsAt path).Same (log'.opsAt path) := by
  induction log generalizing log' with
  | nil =>
      match log', same with
      | [], _ => trivial
  | cons first rest inductionHypothesis =>
      match log', same with
      | other :: rest', ⟨sameFirst, sameRest⟩ =>
          have affected : other.affects path = first.affects path := by
            rw [Op.affects, Op.affects, sameFirst.path_eq]
          simp only [Log.opsAt, List.filter_cons, affected]
          split
          · exact ⟨sameFirst, inductionHypothesis sameRest⟩
          · exact inductionHypothesis sameRest

/-- The ops at a path of an item are among the ops that touch the item. -/
theorem opsAt_opsOn (log : Log) (id : String) (field : Path) :
    (log.opsOn id).opsAt (Path.item id ++ field) = log.opsAt (Path.item id ++ field) := by
  have touches : ∀ op : Op, op.affects (Path.item id ++ field) -> op.touches id := by
    intro op affected
    cases path : op.path with
    | nil => exact Op.touches_iff_root_or.mpr (.inl path)
    | cons segment rest =>
        refine (Op.touches_iff path id).mpr ?_
        rw [Op.affects, path, Bool.or_eq_true] at affected
        rcases affected with within | above
        · exact (Path.isWithin_cons_cons.mp within).1.symm
        · exact (Path.isWithin_cons_cons.mp above).1
  rw [opsAt, opsAt, opsOn, List.filter_filter]
  refine List.filter_congr fun op _ => ?_
  cases affected : op.affects (Path.item id ++ field) with
  | false => rfl
  | true => simp [touches op affected]

end Log

/-! ## Recorded values -/

/-- Whether a log has nothing left to record for a value at a path. -/
inductive Log.Records (log : Log) (defaults : Json) (path : Path) (value : Json) : Prop where
  /-- No op affects the path, and the default is the value. -/
  | default (free : log.opsAt path = [])
      (same : Json.SameAt (defaults.lookup? path) (some value))
  /-- The last op that affects the path sets the value there, or a container above that has it,
  and no other op is on the path or below it. -/
  | op {before : Log} {id : String} {ancestor rest : Path} {container : Json}
      (ops : log.opsAt path = before ++ [.set id ancestor container])
      (apart : ∀ op ∈ before, ¬ op.path.isWithin path)
      (below : path.relativeTo? ancestor = some rest)
      (exact : ancestor.isWithin path -> ancestor = path)
      (same : Json.SameAt (container.lookup? rest) (some value))

namespace Log.Records

variable {log : Log} {defaults : Json} {path : Path} {value : Json}

/-- What a log records is told by its ops at the path. -/
theorem of_opsAt {log' : Log} (records : log.Records defaults path value)
    (same : log'.opsAt path = log.opsAt path) : log'.Records defaults path value := by
  cases records with
  | default free held => exact .default (same.trans free) held
  | op ops apart below exact held => exact .op (same.trans ops) apart below exact held

/-- A log that is the same records the same. -/
theorem of_same {log' : Log} (records : log.Records defaults path value)
    (same : log.Same log') : log'.Records defaults path value := by
  have sameOps := same.opsAt path
  cases records with
  | default free held =>
      rw [free] at sameOps
      match ops : log'.opsAt path, sameOps with
      | [], _ => exact .default ops held
  | op ops apart below exact held =>
      rw [ops] at sameOps
      obtain ⟨before', op', ops', sameBefore, sameOp⟩ := sameOps.exists_concat
      match op', sameOp with
      | .set _ _ container', ⟨rfl, rfl, sameContainer⟩ =>
          exact .op ops' (sameBefore.forall_path (fun place => ¬ place.isWithin path) apart) below
            exact ((sameContainer.lookup? _).symm.trans held)

/-- A log whose last op at the path is a set on the path or above it. -/
theorem of_split {before after : Log} {id : String} {ancestor rest : Path} {container : Json}
    (split : log = before ++ .set id ancestor container :: after)
    (apart : ∀ op ∈ before, ¬ op.path.isWithin path)
    (below : path.relativeTo? ancestor = some rest)
    (exact : ancestor.isWithin path -> ancestor = path)
    (later : ∀ op ∈ after, ¬ op.affects path)
    (same : Json.SameAt (container.lookup? rest) (some value)) :
    log.Records defaults path value := by
  have affects : (Op.set id ancestor container).affects path :=
    Bool.or_eq_true_iff.mpr (.inr (Option.isSome_iff_exists.mpr ⟨rest, below⟩))
  exact .op (opsAt_split split affects later)
    (fun op member => apart op (List.mem_of_mem_filter member)) below exact same

/-- Setting a field of another item keeps what is recorded. -/
theorem setField_other {draft : Draft} {id other : String} {field : Path}
    (records : draft.log.Records defaults (Path.item id ++ field) value)
    (belowRoot : draft.log.IsBelowRoot) (distinct : id ≠ other) (otherField : Path)
    (otherValue : Json) :
    (draft.setField other otherField otherValue).log.Records defaults (Path.item id ++ field)
      value := by
  refine records.of_opsAt ?_
  rw [← opsAt_opsOn, Draft.opsOn_setField belowRoot distinct, opsAt_opsOn]

end Log.Records

/-- Nothing is left of a path below itself. -/
theorem Path.relativeTo?_self (path : Path) : path.relativeTo? path = some [] :=
  relativeTo?_eq_some_iff.mpr ⟨List.prefix_rfl, by simp⟩

namespace Draft

variable {path : Path}

/-- After a path was set, nothing is left to record for it. -/
theorem records_setPath (draft : Draft) (path : Path) (value : Json) :
    (draft.setPath path value).log.Records draft.defaults path value := by
  have dropped : ∀ op ∈ dropWithin path draft.log, ¬ op.path.isWithin path :=
    fun op member => (mem_dropWithin.mp member).2
  have outcome := draft.setOutcome path value
  generalize draft.setPath path value = edited at outcome ⊢
  cases outcome with
  | kept recorded =>
      obtain ⟨before, id, old, after, split, same, apart, later⟩ := split_of_alreadyRecords recorded
      exact .of_split split apart (Path.relativeTo?_self path) (fun _ => rfl) later
        (Json.SameAt.some_some.mpr same)
  | folded new split below last =>
      rw [split] at dropped
      obtain ⟨apart, own, later⟩ := List.forall_mem_append.mp dropped |>.imp_right
        List.forall_mem_cons.mp
      refine .of_split rfl apart below (fun within => absurd within own)
        (fun op member => Op.not_affects_iff.mpr ⟨later op member, last op member⟩) ?_
      rw [Json.lookup?_setAt]
  | restored | appended =>
      exact .of_split (log_appendSet _ _ _) dropped (Path.relativeTo?_self path) (fun _ => rfl)
        (List.forall_mem_nil _) (Json.SameAt.refl _)
  | elided new free found same =>
      refine .default (Log.opsAt_of_not_affects fun op member =>
        Op.not_affects_iff.mpr ⟨dropped op member, free op member⟩) ?_
      exact found ▸ Json.SameAt.some_some.mpr same

/-- A value that stands in the last op at a path, and nowhere else on it or below it, is recorded
already. -/
theorem alreadyRecords_of_opsAt {log before : Log} {id : String} {value old : Json}
    (ops : log.opsAt path = before ++ [.set id path old])
    (apart : ∀ op ∈ before, ¬ op.path.isWithin path) (same : old.Same value) :
    alreadyRecords log path value := by
  have last : lastTouching? log path = some (.set id path old) := by
    rw [lastTouching?, ← List.head?_filter, List.filter_reverse]
    exact (congrArg (fun ops : Log => ops.reverse.head?) ops).trans (by simp)
  have once : (log.countP fun op => op.path.isWithin path) = 1 := by
    have counted : (log.countP fun op => op.path.isWithin path)
        = (log.opsAt path).countP fun op => op.path.isWithin path := by
      rw [Log.opsAt, List.countP_filter]
      refine List.countP_congr fun op _ => ?_
      simp only [Op.affects, Bool.and_eq_true, Bool.or_eq_true]
      exact ⟨fun within => ⟨within, .inl within⟩, And.left⟩
    have none : (before.countP fun op => op.path.isWithin path) = 0 :=
      List.countP_eq_zero.mpr apart
    rw [counted, ops, List.countP_append, none]
    simp [Op.path]
  rw [alreadyRecords, last, once]
  simp [recordsValue, same]

/-- Where no op is on a path or below it, none is dropped. -/
theorem dropWithin_eq_self {log : Log} (apart : ∀ op ∈ log, ¬ op.path.isWithin path) :
    dropWithin path log = log :=
  List.filter_eq_self.mpr fun op member => by simpa using apart op member

/-- The ops that are dropped are among those at the path. -/
theorem not_isWithin_of_opsAt {log : Log}
    (apart : ∀ op ∈ log.opsAt path, ¬ op.path.isWithin path) :
    ∀ op ∈ log, ¬ op.path.isWithin path := by
  intro op member within
  exact apart op (List.mem_filter.mpr ⟨member, Bool.or_eq_true_iff.mpr (.inl within)⟩) within

/-! ## Nothing left to record -/

variable {draft : Draft} {value : Json}

/-- Setting what is recorded already leaves the draft as it is. -/
theorem setPath_of_alreadyRecords (recorded : alreadyRecords draft.log path value) :
    draft.setPath path value = draft :=
  if_pos recorded

/-- The last op above a path is the last one at the path, if no op is on the path or below it. -/
theorem opsAt_of_split {before after : Log} {last : Op}
    (apart : ∀ op ∈ draft.log.opsAt path, ¬ op.path.isWithin path)
    (split : dropWithin path draft.log = before ++ last :: after)
    (above : path.isWithin last.path) (later : ∀ op ∈ after, ¬ path.isWithin op.path) :
    draft.log = before ++ last :: after ∧ draft.log.opsAt path = before.opsAt path ++ [last] := by
  have whole := dropWithin_eq_self (not_isWithin_of_opsAt apart)
  have free : ∀ op ∈ after, ¬ op.affects path := fun op member =>
    not_affects_of_mem_dropWithin
      (split ▸ List.mem_append_right _ (List.mem_cons_of_mem _ member)) (later op member)
  rw [whole] at split
  exact ⟨split, Log.opsAt_split split (Bool.or_eq_true_iff.mpr (.inr above)) free⟩

/-- Setting the default where no op is at the path leaves the draft as it is. -/
theorem setPath_of_opsAt_nil (free : draft.log.opsAt path = [])
    (same : Json.SameAt (draft.defaults.lookup? path) (some value)) :
    draft.setPath path value = draft := by
  have apart : ∀ op ∈ draft.log.opsAt path, ¬ op.path.isWithin path :=
    free ▸ List.forall_mem_nil _
  have whole := dropWithin_eq_self (not_isWithin_of_opsAt apart)
  have none : ∀ {before : Log} {last : Op},
      draft.log.opsAt path ≠ before.opsAt path ++ [last] := by simp [free]
  have outcome := draft.setOutcome path value
  generalize draft.setPath path value = edited at outcome ⊢
  cases outcome with
  | kept => rfl
  | folded new split below later =>
      exact absurd (opsAt_of_split apart split (Option.isSome_iff_exists.mpr ⟨_, below⟩) later).2
        none
  | restored new split above later =>
      exact absurd (opsAt_of_split apart split above later).2 none
  | elided => rw [whole]
  | appended new untouched different =>
      cases found : draft.defaults.lookup? path with
      | none => exact absurd (found ▸ same) Json.SameAt.none_some
      | some default =>
          exact absurd (Json.SameAt.some_some.mp (found ▸ same)) (different default found)

/-- Setting a value in a container that has it leaves the draft as it is, if the op that sets the
container is the last one at the path and no other is on the path or below it. -/
theorem setPath_of_opsAt_concat {before : Log} {id : String} {ancestor rest : Path}
    {container : Json} (ops : draft.log.opsAt path = before ++ [.set id ancestor container])
    (apart : ∀ op ∈ before, ¬ op.path.isWithin path) (strict : ¬ ancestor.isWithin path)
    (below : path.relativeTo? ancestor = some rest)
    (held : container.setAt rest value = container) :
    draft.setPath path value = draft := by
  have all : ∀ op ∈ draft.log.opsAt path, ¬ op.path.isWithin path := by
    rw [ops, List.forall_mem_append, List.forall_mem_singleton]
    exact ⟨apart, strict⟩
  have whole := dropWithin_eq_self (not_isWithin_of_opsAt all)
  have member : .set id ancestor container ∈ draft.log :=
    List.mem_of_mem_filter (ops ▸ List.mem_append_right _ List.mem_cons_self)
  have above : path.isWithin ancestor := Option.isSome_iff_exists.mpr ⟨rest, below⟩
  have outcome := draft.setOutcome path value
  generalize draft.setPath path value = edited at outcome ⊢
  cases outcome with
  | kept => rfl
  | folded new split relative later =>
      obtain ⟨log, atPath⟩ :=
        opsAt_of_split all split (Option.isSome_iff_exists.mpr ⟨_, relative⟩) later
      obtain ⟨-, same⟩ := List.append_inj' (atPath.symm.trans ops) rfl
      cases same
      obtain rfl := Option.some.inj (relative.symm.trans below)
      rw [held, ← log]
  | restored new split above later =>
      obtain ⟨-, same⟩ :=
        List.append_inj' ((opsAt_of_split all split above later).2.symm.trans ops) rfl
      cases same
  | elided => rw [whole]
  | appended new free different =>
      exact absurd above (free (.set id ancestor container) (whole.symm ▸ member))

/-- Setting a flag for which nothing is left to record leaves the draft as it is. -/
theorem setPath_of_records {draft : Draft} {value : Bool}
    (records : draft.log.Records draft.defaults path (.bool value)) :
    draft.setPath path (.bool value) = draft := by
  cases records with
  | default free same => exact setPath_of_opsAt_nil free same
  | @op before id ancestor rest container ops apart below exact same =>
      by_cases within : ancestor.isWithin path
      · obtain rfl := exact within
        obtain rfl := Option.some.inj ((Path.relativeTo?_self _).symm.trans below)
        exact setPath_of_alreadyRecords
          (alreadyRecords_of_opsAt ops apart (Json.SameAt.some_some.mp same))
      · exact setPath_of_opsAt_concat ops apart within below
          (Json.setAt_of_lookup? (Json.sameAt_bool_iff.mp same))

/-- Once a path was set, setting it to the same value changes nothing, whatever ids new ops would
get. -/
theorem setPath_setPath (draft : Draft) (path : Path) (value : Json) (supply : IdSupply) :
    (ofDocument ⟨draft.defaults, (draft.setPath path value).log⟩ supply).setPath path value
      = ofDocument ⟨draft.defaults, (draft.setPath path value).log⟩ supply := by
  have dropped : ∀ op ∈ dropWithin path draft.log, ¬ op.path.isWithin path :=
    fun op member => (mem_dropWithin.mp member).2
  have outcome := draft.setOutcome path value
  generalize draft.setPath path value = edited at outcome ⊢
  cases outcome with
  | kept recorded => exact setPath_of_alreadyRecords recorded
  | @folded before after id ancestor rest container new split below last =>
      rw [split, List.forall_mem_append, List.forall_mem_cons] at dropped
      obtain ⟨early, strict, late⟩ := dropped
      have ops : Log.opsAt (before ++ .set id ancestor (container.setAt rest value) :: after) path
          = before.opsAt path ++ [.set id ancestor (container.setAt rest value)] :=
        Log.opsAt_split rfl
          (Bool.or_eq_true_iff.mpr (.inr (Option.isSome_iff_exists.mpr ⟨rest, below⟩)))
          fun op member => Op.not_affects_iff.mpr ⟨late op member, last op member⟩
      exact setPath_of_opsAt_concat ops (fun op member => early op (List.mem_of_mem_filter member))
        strict below (Json.setAt_setAt container rest value value)
  | restored | appended =>
      have ops := Log.opsAt_split (log_appendSet { draft with log := dropWithin path draft.log }
        path value) (Bool.or_eq_true_iff.mpr (.inl (Path.isWithin_refl path)))
        (List.forall_mem_nil _)
      exact setPath_of_alreadyRecords (alreadyRecords_of_opsAt ops
        (fun op member => dropped op (List.mem_of_mem_filter member)) (Json.Same.refl value))
  | elided new free found same =>
      refine setPath_of_opsAt_nil (Log.opsAt_of_not_affects fun op member =>
        Op.not_affects_iff.mpr ⟨dropped op member, free op member⟩) ?_
      exact found ▸ Json.SameAt.some_some.mpr same

/-- Setting a field of an item a second time to the same value, on the log that the first time
left, leaves that log as it is. -/
theorem setField_again (draft : Draft) (id : String) (field : Path) (value : Json)
    (supply : IdSupply) :
    ((ofDocument ⟨draft.defaults, (draft.setField id field value).log⟩ supply).setField id field
        value).log
      = (draft.setField id field value).log := by
  rw [setField, setField, setPath_setPath]
  rfl

end Draft

end LayerRouting
