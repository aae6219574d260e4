import LayerRouting.Override.Draft
import LayerRouting.Proofs.Override.Paths

/-!
# What setting a path does to a log

`Draft.setPath` ends in one of five ways. `Draft.SetOutcome` names them, each with what must
hold of the log for it, and `Draft.setOutcome` says that these are all. Proofs about
setting go by cases on the outcome and do not open the definition.
-/

namespace LayerRouting

namespace Draft

/-- The tree that a draft's log makes of its defaults. -/
def resolved (draft : Draft) : Json :=
  draft.log.resolve draft.defaults

/-! ## The last op of a kind -/

/-- Without a split no op satisfies the condition. -/
theorem splitLast?_eq_none {condition : Op -> Bool} {log : Log}
    (absent : splitLast? condition log = none) : ∀ op ∈ log, ¬ condition op := by
  induction log with
  | nil => simp
  | cons op rest inductionHypothesis =>
      simp only [splitLast?] at absent
      split at absent
      · cases absent
      · next later =>
          split at absent
          · cases absent
          · next unmet => exact List.forall_mem_cons.mpr ⟨unmet, inductionHypothesis later⟩

/-- A split at the last op that satisfies a condition. -/
theorem splitLast?_eq_some {condition : Op -> Bool} {log before after : Log} {found : Op}
    (split : splitLast? condition log = some (before, found, after)) :
    log = before ++ found :: after ∧ condition found ∧ ∀ op ∈ after, ¬ condition op := by
  induction log generalizing before with
  | nil => cases split
  | cons op rest inductionHypothesis =>
      simp only [splitLast?] at split
      split at split
      · next inner later =>
          cases split
          obtain ⟨rfl, met, last⟩ := inductionHypothesis later
          exact ⟨rfl, met, last⟩
      · next absent =>
          split at split
          · next met =>
              cases split
              exact ⟨rfl, met, splitLast?_eq_none absent⟩
          · cases split

/-! ## Values that are recorded already -/

/-- A recorded value stands in the only op on its path or below it, and no later op
affects the path. -/
theorem split_of_alreadyRecords {log : Log} {path : Path} {value : Json}
    (recorded : alreadyRecords log path value) :
    ∃ before id old after, log = before ++ .set id path old :: after ∧ old.Same value
      ∧ (∀ op ∈ before, ¬ op.path.isWithin path) ∧ ∀ op ∈ after, ¬ op.affects path := by
  obtain ⟨same, once⟩ := (Bool.and_eq_true _ _).mp recorded
  obtain ⟨op, last, records⟩ := (Option.any_eq_true _ _).mp same
  obtain ⟨-, later, earlier, reversed, untouched⟩ := List.find?_eq_some_iff_append.mp last
  have split : log = earlier.reverse ++ op :: later.reverse := by
    simpa using congrArg List.reverse reversed
  cases op with
  | delete id old => simp [recordsValue] at records
  | set id place old =>
      simp only [recordsValue, Bool.decide_and, Bool.and_eq_true, decide_eq_true_eq] at records
      obtain ⟨rfl, sameValue⟩ := records
      have onlyOne : (earlier.countP fun op => op.path.isWithin place) = 0 := by
        rw [beq_iff_eq, split, List.countP_append, List.countP_cons_of_pos (by simp [Op.path]),
          List.countP_reverse] at once
        omega
      refine ⟨earlier.reverse, id, old, later.reverse, split, sameValue, ?_, ?_⟩
      · simpa using List.countP_eq_zero.mp onlyOne
      · simpa using untouched

/-! ## Outcomes -/

/-- The ways in which setting a path ends, with the draft that each leaves. -/
inductive SetOutcome (draft : Draft) (path : Path) (value : Json) : Draft -> Prop where
  /-- The log says so already. -/
  | kept (recorded : alreadyRecords draft.log path value) : SetOutcome draft path value draft
  /-- The last op above the path sets a container, in which the value is set. -/
  | folded {before after : Log} {id : String} {ancestor rest : Path} {container : Json}
      (new : ¬ alreadyRecords draft.log path value)
      (split : dropWithin path draft.log = before ++ .set id ancestor container :: after)
      (below : path.relativeTo? ancestor = some rest)
      (last : ∀ op ∈ after, ¬ path.isWithin op.path) :
      SetOutcome draft path value
        { draft with log := before ++ .set id ancestor (container.setAt rest value) :: after }
  /-- The last op above the path deletes, and a new op is added after it. -/
  | restored {before after : Log} {id : String} {ancestor : Path}
      (new : ¬ alreadyRecords draft.log path value)
      (split : dropWithin path draft.log = before ++ .delete id ancestor :: after)
      (below : path.isWithin ancestor) (last : ∀ op ∈ after, ¬ path.isWithin op.path) :
      SetOutcome draft path value
        ({ draft with log := dropWithin path draft.log }.appendSet path value)
  /-- No op is above the path, and the default is the value. -/
  | elided {default : Json} (new : ¬ alreadyRecords draft.log path value)
      (free : ∀ op ∈ dropWithin path draft.log, ¬ path.isWithin op.path)
      (found : draft.defaults.lookup? path = some default) (same : default.Same value) :
      SetOutcome draft path value { draft with log := dropWithin path draft.log }
  /-- No op is above the path, and the default is something else. -/
  | appended (new : ¬ alreadyRecords draft.log path value)
      (free : ∀ op ∈ dropWithin path draft.log, ¬ path.isWithin op.path)
      (different : ∀ default, draft.defaults.lookup? path = some default ->
        ¬ default.Same value) :
      SetOutcome draft path value
        ({ draft with log := dropWithin path draft.log }.appendSet path value)

/-- Setting a path ends in one of these ways. -/
theorem setOutcome (draft : Draft) (path : Path) (value : Json) :
    SetOutcome draft path value (draft.setPath path value) := by
  rw [setPath]
  split
  · next recorded => exact .kept recorded
  · next new =>
      simp only [recordUnderAncestor?]
      cases found : splitLast? (fun op => path.isWithin op.path) (dropWithin path draft.log) with
      | none =>
          have free := splitLast?_eq_none found
          simp only
          split
          · next same =>
              obtain ⟨default, held, equal⟩ := (Option.any_eq_true _ _).mp same
              exact .elided new free held (by simpa using equal)
          · next different =>
              refine .appended new free fun default held equal => different ?_
              simp [held, equal]
      | some parts =>
          obtain ⟨before, op, after⟩ := parts
          obtain ⟨split, below, last⟩ := splitLast?_eq_some found
          cases op with
          | set id ancestor container =>
              obtain ⟨rest, relative⟩ : ∃ rest, path.relativeTo? ancestor = some rest :=
                Option.isSome_iff_exists.mp below
              have outcome := SetOutcome.folded new split relative last
              simpa [relative] using outcome
          | delete id ancestor => exact .restored new split below last

/-! ## What stays -/

@[simp]
theorem log_appendSet (draft : Draft) (path : Path) (value : Json) :
    (draft.appendSet path value).log = draft.log ++ [.set (opIdOf draft.supply.next) path value] :=
  rfl

@[simp]
theorem defaults_appendSet (draft : Draft) (path : Path) (value : Json) :
    (draft.appendSet path value).defaults = draft.defaults :=
  rfl

/-- Setting never touches the defaults. -/
theorem defaults_setPath (draft : Draft) (path : Path) (value : Json) :
    (draft.setPath path value).defaults = draft.defaults := by
  have outcome := draft.setOutcome path value
  generalize draft.setPath path value = set at outcome ⊢
  cases outcome <;> rfl

theorem mem_dropWithin {path : Path} {log : Log} {op : Op} :
    op ∈ dropWithin path log ↔ op ∈ log ∧ ¬ op.path.isWithin path := by
  simp [dropWithin]

theorem dropWithin_cons_of_within {path : Path} {op : Op} (within : op.path.isWithin path)
    (rest : Log) : dropWithin path (op :: rest) = dropWithin path rest := by
  simp [dropWithin, within]

theorem dropWithin_cons_of_not_within {path : Path} {op : Op} (apart : ¬ op.path.isWithin path)
    (rest : Log) : dropWithin path (op :: rest) = op :: dropWithin path rest := by
  simp [dropWithin, apart]

/-- Where no op is above the path, the ops that are left do not affect it. -/
theorem not_affects_of_mem_dropWithin {path : Path} {log : Log} {op : Op}
    (member : op ∈ dropWithin path log) (notAbove : ¬ path.isWithin op.path) :
    ¬ op.affects path :=
  Op.not_affects_iff.mpr ⟨(mem_dropWithin.mp member).2, notAbove⟩

/-- What holds of all ops after a path was set: it holds of the old ones, of the op that may be
added, and of the one above the path in which the value may be set. An op that adds the default
follows an op above the path. -/
theorem forall_mem_setPath {draft : Draft} {path : Path} {value : Json} {holds : Op -> Prop}
    (old : ∀ op ∈ draft.log, holds op)
    (added : ∀ id, (∀ default, draft.defaults.lookup? path = some default -> default.Same value ->
      ∃ op ∈ dropWithin path draft.log, path.isWithin op.path) -> holds (.set id path value))
    (folded : ∀ id ancestor container rest,
      .set id ancestor container ∈ dropWithin path draft.log ->
      path.relativeTo? ancestor = some rest ->
      holds (.set id ancestor (container.setAt rest value))) :
    ∀ op ∈ (draft.setPath path value).log, holds op := by
  have kept : ∀ op ∈ dropWithin path draft.log, holds op :=
    fun op member => old op (mem_dropWithin.mp member).1
  have outcome := draft.setOutcome path value
  generalize draft.setPath path value = set at outcome ⊢
  cases outcome with
  | kept => exact old
  | elided => exact kept
  | @restored before after id ancestor new split below last =>
      refine List.forall_mem_append.mpr ⟨kept, List.forall_mem_singleton.mpr (added _ ?_)⟩
      have above : .delete id ancestor ∈ dropWithin path draft.log :=
        split ▸ List.mem_append_right _ List.mem_cons_self
      exact fun _ _ _ => ⟨_, above, below⟩
  | appended new free different =>
      refine List.forall_mem_append.mpr ⟨kept, List.forall_mem_singleton.mpr (added _ ?_)⟩
      exact fun default found same => absurd same (different default found)
  | folded new split below last =>
      have changed := folded _ _ _ _ (split ▸ List.mem_append_right _ List.mem_cons_self) below
      rw [split, List.forall_mem_append, List.forall_mem_cons] at kept
      exact List.forall_mem_append.mpr ⟨kept.1, List.forall_mem_cons.mpr ⟨changed, kept.2.2⟩⟩

end Draft

end LayerRouting
