import LayerRouting.Lock.Owner
import LayerRouting.Proofs.Lock.Exclusion

/-!
# Free locks and idle tables

A call finds the lock of its owner free when no other call of the owner runs its body
(`LockTable.IsSound.holds_request`), and when it has given the lock back, the next call finds it
free again (`LockTable.IsSound.isFree_passed`). A table is idle when all of its calls have
returned. Then all locks are free (`LockTable.IsIdle.holds_request`), and after the call the table
is idle again (`LockTable.IsIdle.passed`).
-/

namespace LayerRouting

namespace LockTable

variable {table : LockTable}

/-! ## The last call -/

section

variable {before : List LockCall} {owner : String} {mutex : Nat} {phase : CallPhase}

/-- The last call moves on. -/
theorem calls_setPhase_last (last : table.calls = before ++ [⟨owner, mutex, phase⟩])
    (next : CallPhase) :
    (table.setPhase before.length next).calls = before ++ [⟨owner, mutex, next⟩] := by
  simp [setPhase, last, List.modify_eq_take_cons_drop]

/-- The last call gives its lock back and returns. -/
theorem calls_release_last (last : table.calls = before ++ [⟨owner, mutex, .inside⟩]) :
    (table.release before.length).calls = before ++ [⟨owner, mutex, .returned .finished⟩] := by
  have place : ∀ {table : LockTable} {phase : CallPhase},
      table.calls = before ++ [⟨owner, mutex, phase⟩] ->
        table.calls[before.length]? = some ⟨owner, mutex, phase⟩ :=
    fun last => last ▸ List.getElem?_concat_length
  have left := calls_setPhase_last last (.leaving .finished)
  have dropped := calls_setPhase_last left (.sweeping .finished)
  simp only [release, afterAll, List.foldl_cons, List.foldl_nil, after?, place last, place left,
    place dropped, Option.bind_eq_bind, Option.bind_some, if_true, Option.getD_some]
  exact calls_setPhase_last dropped (.returned .finished)

end

/-! ## Free locks -/

/-- Whether no call of an owner runs its body. -/
def IsFree (table : LockTable) (owner : String) : Prop :=
  ∀ call ∈ table.calls, call.owner = owner -> ¬ call.isInside

/-- The table after a call of an owner has taken its lock and given it back. -/
def passed (table : LockTable) (owner : String) : LockTable :=
  (table.request owner).2.release (table.request owner).1

/-- A call that gets its lock stands at the end of the calls with its body running. -/
theorem exists_calls_request {owner : String}
    (held : (table.request owner).2.holds (table.request owner).1) :
    ∃ mutex, (table.request owner).2.calls = table.calls ++ [⟨owner, mutex, .inside⟩] := by
  obtain ⟨mutex, calls, -, -⟩ := table.exists_entered owner
  have own : (table.enter owner).calls[table.calls.length]? = some ⟨owner, mutex, .waiting⟩ := by
    rw [calls, List.getElem?_concat_length]
  have requested : (table.request owner).2
      = (table.enter owner).tryLock table.calls.length ⟨owner, mutex, .waiting⟩ := by
    simp [request, afterAll, after?, own]
  have position : (table.request owner).1 = table.calls.length := rfl
  rw [requested, position, tryLock] at held
  rw [requested, tryLock]
  split at held
  · rw [holds, own] at held
    cases held
  · next free =>
      rw [if_neg free]
      exact ⟨mutex, calls_setPhase_last calls .inside⟩

/-- When the call has given its lock back, it has returned. -/
theorem exists_calls_passed {owner : String}
    (held : (table.request owner).2.holds (table.request owner).1) :
    ∃ mutex, (table.passed owner).calls
      = table.calls ++ [⟨owner, mutex, .returned .finished⟩] := by
  obtain ⟨mutex, calls⟩ := exists_calls_request held
  exact ⟨mutex, calls_release_last calls⟩

namespace IsSound

variable {owner : String}

/-- A call finds the lock of its owner free if no other call of the owner runs its body. -/
theorem holds_request (sound : table.IsSound) (free : table.IsFree owner) :
    (table.request owner).2.holds (table.request owner).1 := by
  obtain ⟨mutex, calls, -, -⟩ := table.exists_entered owner
  have own : (table.enter owner).calls[table.calls.length]? = some ⟨owner, mutex, .waiting⟩ := by
    rw [calls, List.getElem?_concat_length]
  have outside : (table.enter owner).IsFree owner := by
    intro other member theirs
    rw [calls] at member
    rcases List.mem_append.mp member with old | new
    · exact free other old theirs
    · simp [List.mem_singleton.mp new, LockCall.isInside]
  have taken := (sound.enter owner).exclusion.unrefused own rfl outside
  have entered : table.after? (.enter owner) = some (table.enter owner) := rfl
  have requested : (table.request owner).2
      = (table.enter owner).setPhase table.calls.length .inside := by
    simp only [request, afterAll, List.foldl_cons, List.foldl_nil, entered, Option.getD_some, taken]
  have position : (table.request owner).1 = table.calls.length := rfl
  rw [holds, position, requested, calls_setPhase_last calls .inside, List.getElem?_concat_length]
  rfl

/-- A call that has taken its lock and given it back leaves a table sound. -/
theorem passed (sound : table.IsSound) (owner : String) : (table.passed owner).IsSound :=
  (reaches_afterAll _ _).isSound ((reaches_afterAll table _).isSound sound)

/-- A call that has taken its lock and given it back leaves the lock free. -/
theorem isFree_passed (sound : table.IsSound)
    (held : (table.request owner).2.holds (table.request owner).1) :
    (table.passed owner).IsFree owner := by
  obtain ⟨mutex, calls⟩ := exists_calls_request held
  have requested : (table.request owner).2.IsSound := (reaches_afterAll table _).isSound sound
  obtain ⟨_, returned⟩ := exists_calls_passed held
  rw [IsFree, returned, List.forall_mem_append, List.forall_mem_singleton]
  refine ⟨fun call member own inside => ?_, fun _ => by simp [LockCall.isInside]⟩
  -- The call would have been inside together with the last one.
  obtain ⟨place, found⟩ := List.mem_iff_getElem?.mp member
  have before : place < table.calls.length := (List.getElem?_eq_some_iff.mp found).1
  have earlier : (table.request owner).2.calls[place]? = some call := by
    rw [calls, List.getElem?_append_left before, found]
  have last : (table.request owner).2.calls[table.calls.length]?
      = some ⟨owner, mutex, .inside⟩ := by
    rw [calls, List.getElem?_concat_length]
  exact absurd (requested.exclusive earlier last own inside rfl) (Nat.ne_of_lt before)

end IsSound

/-! ## Idle tables -/

/-- Whether a table is sound and all of its calls have returned. -/
structure IsIdle (table : LockTable) : Prop where
  sound : table.IsSound
  returned : ∀ call ∈ table.calls, ∃ how, call.phase = .returned how

theorem isIdle_empty : empty.IsIdle :=
  ⟨isSound_empty, fun _ member => nomatch member⟩

namespace IsIdle

/-- A call finds the lock of its owner free. -/
theorem holds_request (idle : table.IsIdle) (owner : String) :
    (table.request owner).2.holds (table.request owner).1 := by
  refine idle.sound.holds_request fun call member _ => ?_
  obtain ⟨how, phase⟩ := idle.returned call member
  simp [LockCall.isInside, phase]

/-- When the call has returned, the table is idle again. -/
theorem passed (idle : table.IsIdle) (owner : String) : (table.passed owner).IsIdle := by
  obtain ⟨mutex, calls⟩ := exists_calls_passed (idle.holds_request owner)
  refine ⟨idle.sound.passed owner, ?_⟩
  rw [calls, List.forall_mem_append, List.forall_mem_singleton]
  exact ⟨idle.returned, _, rfl⟩

end IsIdle

end LockTable

end LayerRouting
