import LayerRouting.Lock.Table
import LayerRouting.Proofs.Json.Entries

/-!
# Exclusion by the lock table

The mutex of an owner is made when a call needs it and forgotten when nobody does, and between
the two steps by which a call gives it back other calls may take it up again.
`LockTable.IsSound` is what holds all the same: whoever has a clone for an owner has the mutex
that stands in the owner's entry, and an entry stands only as long as some call has still to
look after it. Every event keeps a table sound (`LockTable.IsSound.after`). So in every run one
call of an owner at most runs its body, calls of different owners do not get in each other's
way, and a table whose calls have all returned is empty (`LockTable.Reaches.isExclusive`).
-/

namespace LayerRouting

namespace LockCall

/-- Whether the call has looked after its owner's entry and returned. A call whose body
panicked never does. -/
def hasSwept (call : LockCall) : Bool :=
  match call.phase with
  | .returned .finished | .returned .timedOut => true
  | _ => false

theorem holdsClone_of_isInside {call : LockCall} (inside : call.isInside) : call.holdsClone := by
  rw [isInside, decide_eq_true_eq] at inside
  rw [holdsClone, inside]

/-- A call that has still its clone has not looked after the entry. -/
theorem not_hasSwept_of_holdsClone {call : LockCall} (clone : call.holdsClone) :
    ¬ call.hasSwept := by
  rw [holdsClone] at clone
  rw [hasSwept]
  split at clone <;> simp_all

end LockCall

namespace LockTable

variable {table next : LockTable}

/-! ## Calls after a change -/

theorem getElem?_calls_setPhase (table : LockTable) (position : Nat) (phase : CallPhase)
    (place : Nat) :
    (table.setPhase position phase).calls[place]?
      = (table.calls[place]?).map fun call =>
          if place = position then { call with phase } else call := by
  rw [setPhase, List.getElem?_modify]
  by_cases here : position = place
  · simp [here]
  · simp [here, Ne.symm here]

/-- A call of a table in which one call has moved on was in the table before, maybe in another
phase. -/
theorem exists_of_mem_calls_setPhase {position : Nat} {phase : CallPhase} {call : LockCall}
    (member : call ∈ (table.setPhase position phase).calls) :
    ∃ place old, table.calls[place]? = some old
      ∧ call = if place = position then { old with phase } else old := by
  obtain ⟨place, found⟩ := List.mem_iff_getElem?.mp member
  rw [getElem?_calls_setPhase, Option.map_eq_some_iff] at found
  obtain ⟨old, held, same⟩ := found
  exact ⟨place, old, held, same.symm⟩

theorem mem_calls_setPhase_of_ne {position place : Nat} {call : LockCall}
    (found : table.calls[place]? = some call) (other : place ≠ position) (phase : CallPhase) :
    call ∈ (table.setPhase position phase).calls := by
  refine List.mem_iff_getElem?.mpr ⟨place, ?_⟩
  rw [getElem?_calls_setPhase, found, Option.map_some, if_neg other]

theorem mem_calls_setPhase_self {position : Nat} {call : LockCall}
    (found : table.calls[position]? = some call) (phase : CallPhase) :
    { call with phase } ∈ (table.setPhase position phase).calls := by
  refine List.mem_iff_getElem?.mpr ⟨position, ?_⟩
  rw [getElem?_calls_setPhase, found, Option.map_some, if_pos rfl]

/-- Whether a table is another one after a call of an owner has started, which takes up the mutex in
its owner's entry, a new one if the owner has none. -/
structure Entered (table entered : LockTable) (owner : String) (mutex : Nat) : Prop where
  calls : entered.calls = table.calls ++ [⟨owner, mutex, .waiting⟩]
  entry : ∀ other, Entries.get? other entered.entries
    = if other = owner then some mutex else Entries.get? other table.entries
  known : Entries.get? owner table.entries = some mutex ∧ entered.nextMutex = table.nextMutex
    ∨ Entries.get? owner table.entries = none ∧ mutex = table.nextMutex
      ∧ entered.nextMutex = table.nextMutex + 1

/-- So it is when a call starts. -/
theorem exists_entered (table : LockTable) (owner : String) :
    ∃ mutex, Entered table (table.enter owner) owner mutex := by
  rw [enter]
  split
  · next mutex entry =>
      refine ⟨mutex, rfl, fun other => ?_, .inl ⟨entry, rfl⟩⟩
      split
      · next own => rw [own, entry]
      · rfl
  · next absent =>
      refine ⟨table.nextMutex, rfl, fun other => ?_, .inr ⟨absent, rfl, rfl⟩⟩
      rw [Entries.get?_append]
      by_cases own : other = owner
      · simp [own, absent, Entries.get?]
      · simp [Entries.get?, own, Ne.symm own]

/-- A call that looks after its owner's entry removes it unless a clone of its mutex is held. -/
theorem get?_entries_sweep_iff (table : LockTable) (position : Nat) (call : LockCall)
    (how : CallEnd) {owner : String} {mutex : Nat} :
    Entries.get? owner (table.sweep position call how).entries = some mutex
      ↔ Entries.get? owner table.entries = some mutex
        ∧ (owner = call.owner -> table.isCloned mutex) := by
  simp only [sweep, setPhase]
  cases entry : Entries.get? call.owner table.entries with
  | none =>
      simp only [Bool.false_eq_true, if_false, iff_self_and]
      rintro found rfl
      rw [entry] at found
      cases found
  | some held =>
      by_cases cloned : table.isCloned held
      · simp only [cloned, Bool.not_true, Bool.false_eq_true, if_false, iff_self_and]
        rintro found rfl
        rw [entry] at found
        exact Option.some.inj found ▸ cloned
      · simp only [cloned, Bool.not_false, if_true, Entries.get?_erase]
        by_cases own : call.owner = owner
        · subst own
          simp only [if_true, entry, reduceCtorEq, false_iff, true_imp_iff, not_and]
          rintro ⟨⟩
          exact cloned
        · simp [own, Ne.symm own]

/-- A call that runs its body is not one that has just started. -/
theorem getElem?_of_isInside {calls : List LockCall} {owner : String} {mutex place : Nat}
    {call : LockCall} (found : (calls ++ [⟨owner, mutex, .waiting⟩])[place]? = some call)
    (inside : call.isInside) : calls[place]? = some call := by
  rw [List.getElem?_append] at found
  split at found
  · exact found
  · obtain rfl := List.mem_singleton.mp (List.mem_of_getElem? found)
    cases inside

theorem isLocked_iff {mutex : Nat} :
    table.isLocked mutex ↔ ∃ call ∈ table.calls, call.isInside ∧ call.mutex = mutex := by
  simp [isLocked]

theorem isCloned_iff {mutex : Nat} :
    table.isCloned mutex ↔ ∃ call ∈ table.calls, call.holdsClone ∧ call.mutex = mutex := by
  simp [isCloned]

/-! ## What an event can do -/

/-- The ways in which an event changes a table. -/
inductive Change (table : LockTable) : LockTable -> Prop where
  /-- A new call stands at the end of the calls. -/
  | entered (owner : String) : Change table (table.enter owner)
  /-- A call does not get its mutex, which another one holds. -/
  | refused : Change table table
  /-- A call moves on without looking after its owner's entry. It gets no clone by that, and it
  goes inside only if its mutex is free. -/
  | moved {position : Nat} {call : LockCall} {phase : CallPhase}
      (found : table.calls[position]? = some call)
      (clone : LockCall.holdsClone { call with phase } -> call.holdsClone)
      (free : LockCall.isInside { call with phase } -> ¬ table.isLocked call.mutex)
      (unswept : ¬ LockCall.hasSwept { call with phase }) :
      Change table (table.setPhase position phase)
  /-- A call without a clone looks after its owner's entry and returns. -/
  | swept {position : Nat} {call : LockCall} {how : CallEnd}
      (found : table.calls[position]? = some call) (done : ¬ call.holdsClone) :
      Change table (table.sweep position call how)

/-- These are all. -/
theorem change_of_after? {event : LockEvent} (after : table.after? event = some next) :
    Change table next := by
  cases event with
  | enter owner =>
      cases after
      exact .entered owner
  | tryLock position =>
      obtain ⟨call, found, ready⟩ := Option.bind_eq_some_iff.mp after
      split at ready
      · next waiting =>
          cases ready
          rw [tryLock]
          split
          · exact .refused
          · next free =>
              exact .moved found (fun _ => by simp [LockCall.holdsClone, waiting])
                (fun _ => free) (by simp [LockCall.hasSwept])
      · cases ready
  | giveUp position =>
      obtain ⟨call, found, ready⟩ := Option.bind_eq_some_iff.mp after
      split at ready
      · next waiting =>
          cases ready
          exact .moved found (fun _ => by simp [LockCall.holdsClone, waiting])
            (by simp [LockCall.isInside]) (by simp [LockCall.hasSwept])
      · cases ready
  | finish position =>
      obtain ⟨call, found, ready⟩ := Option.bind_eq_some_iff.mp after
      split at ready
      · next inside =>
          cases ready
          exact .moved found (fun _ => by simp [LockCall.holdsClone, inside])
            (by simp [LockCall.isInside]) (by simp [LockCall.hasSwept])
      · cases ready
  | dropClone position =>
      obtain ⟨call, found, ready⟩ := Option.bind_eq_some_iff.mp after
      split at ready
      · cases ready
        exact .moved found (by simp [LockCall.holdsClone]) (by simp [LockCall.isInside])
          (by simp [LockCall.hasSwept])
      · cases ready
  | sweep position =>
      obtain ⟨call, found, ready⟩ := Option.bind_eq_some_iff.mp after
      split at ready
      · next sweeping =>
          cases ready
          exact .swept found (by simp [LockCall.holdsClone, sweeping])
      · cases ready
  | panic position =>
      obtain ⟨call, found, ready⟩ := Option.bind_eq_some_iff.mp after
      split at ready
      · cases ready
        exact .moved found (by simp [LockCall.holdsClone]) (by simp [LockCall.isInside])
          (by simp [LockCall.hasSwept])
      · cases ready

/-! ## Soundness -/

/-- What holds of a table between any two events. -/
structure IsSound (table : LockTable) : Prop where
  /-- Mutexes that are still to be made stand in no entry. -/
  numbered : ∀ {owner mutex}, Entries.get? owner table.entries = some mutex ->
    mutex < table.nextMutex
  /-- Different owners have different mutexes. -/
  apart : ∀ {owner other mutex}, Entries.get? owner table.entries = some mutex ->
    Entries.get? other table.entries = some mutex -> owner = other
  /-- A clone is one of the mutex in its owner's entry. -/
  cloned : ∀ call ∈ table.calls, call.holdsClone ->
    Entries.get? call.owner table.entries = some call.mutex
  /-- Of an owner's calls one at most runs its body. -/
  exclusive : ∀ {first second : Nat} {call other : LockCall},
    table.calls[first]? = some call -> table.calls[second]? = some other ->
      call.owner = other.owner -> call.isInside -> other.isInside -> first = second
  /-- Some call has not yet looked after an entry that stands. -/
  attended : ∀ {owner mutex}, Entries.get? owner table.entries = some mutex ->
    ∃ call ∈ table.calls, call.owner = owner ∧ ¬ call.hasSwept

theorem isSound_empty : IsSound empty where
  numbered := nofun
  apart := nofun
  cloned := nofun
  exclusive := nofun
  attended := nofun

namespace IsSound

/-- A mutex that stands in an entry is held by calls of the entry's owner only. -/
theorem owner_eq (sound : table.IsSound) {owner : String} {call : LockCall}
    (member : call ∈ table.calls) (clone : call.holdsClone)
    (entry : Entries.get? owner table.entries = some call.mutex) : call.owner = owner :=
  sound.apart (sound.cloned call member clone) entry

/-- A mutex is free when no call of its owner runs its body. -/
theorem not_isLocked (sound : table.IsSound) {call : LockCall} (member : call ∈ table.calls)
    (clone : call.holdsClone)
    (outside : ∀ other ∈ table.calls, other.owner = call.owner -> ¬ other.isInside) :
    ¬ table.isLocked call.mutex := by
  intro locked
  obtain ⟨other, otherMember, inside, same⟩ := isLocked_iff.mp locked
  have entry := sound.cloned call member clone
  rw [← same] at entry
  exact outside other otherMember
    (sound.owner_eq otherMember (LockCall.holdsClone_of_isInside inside) entry) inside

/-! ### Calls that start -/

section Enter

variable {owner : String} {mutex : Nat}

/-- A mutex that a call takes up as it starts stands in no entry of another owner. -/
theorem owner_eq_of_entered (sound : table.IsSound) (entered : table.Entered next owner mutex)
    {other : String} (found : Entries.get? other table.entries = some mutex) : other = owner := by
  obtain ⟨old, -⟩ | ⟨-, rfl, -⟩ := entered.known
  · exact sound.apart found old
  · exact absurd (sound.numbered found) (Nat.lt_irrefl _)

theorem numbered_of_entered (sound : table.IsSound) (entered : table.Entered next owner mutex)
    {other : String} {held : Nat} (found : Entries.get? other next.entries = some held) :
    held < next.nextMutex := by
  rw [entered.entry] at found
  split at found
  · cases found
    obtain ⟨old, same⟩ | ⟨-, rfl, more⟩ := entered.known
    · exact same ▸ sound.numbered old
    · omega
  · have below := sound.numbered found
    obtain ⟨-, same⟩ | ⟨-, -, more⟩ := entered.known <;> omega

theorem apart_of_entered (sound : table.IsSound) (entered : table.Entered next owner mutex)
    {first second : String} {held : Nat} (found : Entries.get? first next.entries = some held)
    (otherFound : Entries.get? second next.entries = some held) : first = second := by
  rw [entered.entry] at found otherFound
  split at found <;> split at otherFound
  · next one two => exact one.trans two.symm
  · next one _ =>
      cases found
      exact one.trans (sound.owner_eq_of_entered entered otherFound).symm
  · next _ two =>
      cases otherFound
      exact (sound.owner_eq_of_entered entered found).trans two.symm
  · exact sound.apart found otherFound

theorem cloned_of_entered (sound : table.IsSound) (entered : table.Entered next owner mutex)
    {call : LockCall} (member : call ∈ next.calls) (clone : call.holdsClone) :
    Entries.get? call.owner next.entries = some call.mutex := by
  rw [entered.entry]
  rw [entered.calls] at member
  rcases List.mem_append.mp member with old | new
  · have held := sound.cloned call old clone
    split
    · next own =>
        rw [own] at held
        obtain ⟨known, -⟩ | ⟨absent, -⟩ := entered.known
        · rw [← held, known]
        · rw [absent] at held
          cases held
    · exact held
  · rw [List.mem_singleton.mp new, if_pos rfl]

theorem attended_of_entered (sound : table.IsSound) (entered : table.Entered next owner mutex)
    {other : String} {held : Nat} (found : Entries.get? other next.entries = some held) :
    ∃ call ∈ next.calls, call.owner = other ∧ ¬ call.hasSwept := by
  rw [entered.entry] at found
  rw [entered.calls]
  split at found
  · next own =>
      exact ⟨_, List.mem_append_right _ List.mem_cons_self, own.symm, Bool.false_ne_true⟩
  · obtain ⟨call, member, own, unswept⟩ := sound.attended found
    exact ⟨call, List.mem_append_left _ member, own, unswept⟩

end Enter

/-- A call that starts keeps a table sound. -/
theorem enter (sound : table.IsSound) (owner : String) : (table.enter owner).IsSound := by
  obtain ⟨mutex, entered⟩ := table.exists_entered owner
  refine {
    numbered := sound.numbered_of_entered entered
    apart := sound.apart_of_entered entered
    cloned := fun _ member clone => sound.cloned_of_entered entered member clone
    exclusive := ?exclusive
    attended := sound.attended_of_entered entered }
  -- The call that starts is waiting, so whoever runs its body was there before.
  intro first second call other found otherFound same inside otherInside
  rw [entered.calls] at found otherFound
  exact sound.exclusive (getElem?_of_isInside found inside)
    (getElem?_of_isInside otherFound otherInside) same inside otherInside

/-! ### Calls that move on -/

/-- A call that moves on keeps what holds of clones and bodies, whether or not it has looked
after an entry. -/
theorem exclusive_setPhase (sound : table.IsSound) {position : Nat} {call : LockCall}
    {phase : CallPhase} (found : table.calls[position]? = some call)
    (clone : LockCall.holdsClone { call with phase } -> call.holdsClone)
    (free : LockCall.isInside { call with phase } -> ¬ table.isLocked call.mutex)
    {first second : Nat} {one other : LockCall}
    (oneFound : (table.setPhase position phase).calls[first]? = some one)
    (otherFound : (table.setPhase position phase).calls[second]? = some other)
    (same : one.owner = other.owner) (inside : one.isInside) (otherInside : other.isInside) :
    first = second := by
  -- A call that goes inside finds no other call of its owner there.
  have alone : ∀ {place : Nat} {old : LockCall}, table.calls[place]? = some old ->
      old.owner = call.owner -> old.isInside -> ¬ LockCall.isInside { call with phase } := by
    intro place old held own oldInside goes
    have entry := sound.cloned call (List.mem_of_getElem? found)
      (clone (LockCall.holdsClone_of_isInside goes))
    have oldEntry := sound.cloned old (List.mem_of_getElem? held)
      (LockCall.holdsClone_of_isInside oldInside)
    rw [own, entry] at oldEntry
    exact free goes (isLocked_iff.mpr
      ⟨old, List.mem_of_getElem? held, oldInside, (Option.some.inj oldEntry).symm⟩)
  rw [getElem?_calls_setPhase, Option.map_eq_some_iff] at oneFound otherFound
  obtain ⟨oldOne, oneHeld, rfl⟩ := oneFound
  obtain ⟨oldOther, otherHeld, rfl⟩ := otherFound
  split at inside <;> split at otherInside
  · next one two => exact one.trans two.symm
  · next here elsewhere =>
      subst here
      obtain rfl := Option.some.inj (found.symm.trans oneHeld)
      rw [if_pos rfl, if_neg elsewhere] at same
      exact absurd inside (alone otherHeld same.symm otherInside)
  · next elsewhere here =>
      subst here
      obtain rfl := Option.some.inj (found.symm.trans otherHeld)
      rw [if_pos rfl, if_neg elsewhere] at same
      exact absurd otherInside (alone oneHeld same inside)
  · next one two =>
      rw [if_neg one, if_neg two] at same
      exact sound.exclusive oneHeld otherHeld same inside otherInside

theorem cloned_setPhase (sound : table.IsSound) {position : Nat} {call : LockCall}
    {phase : CallPhase} (found : table.calls[position]? = some call)
    (clone : LockCall.holdsClone { call with phase } -> call.holdsClone) :
    ∀ other ∈ (table.setPhase position phase).calls, other.holdsClone ->
      Entries.get? other.owner table.entries = some other.mutex := by
  intro other member held
  obtain ⟨place, old, oldFound, rfl⟩ := exists_of_mem_calls_setPhase member
  split at held
  · next here =>
      subst here
      obtain rfl := Option.some.inj (found.symm.trans oldFound)
      rw [if_pos rfl]
      exact sound.cloned call (List.mem_of_getElem? found) (clone held)
  · next elsewhere =>
      rw [if_neg elsewhere]
      exact sound.cloned old (List.mem_of_getElem? oldFound) held

/-- A call that moves on without looking after its owner's entry keeps a table sound. -/
theorem setPhase (sound : table.IsSound) {position : Nat} {call : LockCall} {phase : CallPhase}
    (found : table.calls[position]? = some call)
    (clone : LockCall.holdsClone { call with phase } -> call.holdsClone)
    (free : LockCall.isInside { call with phase } -> ¬ table.isLocked call.mutex)
    (unswept : ¬ LockCall.hasSwept { call with phase }) :
    (table.setPhase position phase).IsSound where
  numbered := sound.numbered
  apart := sound.apart
  cloned := sound.cloned_setPhase found clone
  exclusive := sound.exclusive_setPhase found clone free
  attended entry := by
    obtain ⟨other, member, own, waits⟩ := sound.attended entry
    obtain ⟨place, held⟩ := List.mem_iff_getElem?.mp member
    by_cases here : place = position
    · subst here
      obtain rfl := Option.some.inj (found.symm.trans held)
      exact ⟨_, mem_calls_setPhase_self found phase, own, unswept⟩
    · exact ⟨other, mem_calls_setPhase_of_ne held here phase, own, waits⟩

/-- An entry that stays when a call has looked after it is attended by another call: for the
call's own owner by one that has a clone, else by whoever attended it before. -/
theorem exists_attending_sweep (sound : table.IsSound) {position : Nat} {call : LockCall}
    {how : CallEnd} (done : ¬ call.holdsClone) {owner : String} {mutex : Nat}
    (entry : Entries.get? owner (table.sweep position call how).entries = some mutex) :
    ∃ other ∈ table.calls, other.owner = owner ∧ ¬ other.hasSwept ∧ other ≠ call := by
  obtain ⟨stood, needed⟩ := (table.get?_entries_sweep_iff position call how).mp entry
  by_cases own : owner = call.owner
  · obtain ⟨other, member, clone, rfl⟩ := isCloned_iff.mp (needed own)
    exact ⟨other, member, sound.owner_eq member clone stood,
      LockCall.not_hasSwept_of_holdsClone clone, fun same => done (same ▸ clone)⟩
  · obtain ⟨other, member, theirs, waits⟩ := sound.attended stood
    exact ⟨other, member, theirs, waits, fun same => own (same ▸ theirs.symm)⟩

/-- A call that looks after its owner's entry keeps a table sound: the entry stays if another
call has a clone, and that call has still to look after it. -/
theorem sweep (sound : table.IsSound) {position : Nat} {call : LockCall} {how : CallEnd}
    (found : table.calls[position]? = some call) (done : ¬ call.holdsClone) :
    (table.sweep position call how).IsSound := by
  have returned : ¬ LockCall.holdsClone { call with phase := .returned how } :=
    Bool.false_ne_true
  have outside : ¬ LockCall.isInside { call with phase := .returned how } := by
    simp [LockCall.isInside]
  have kept : ∀ {owner mutex},
      Entries.get? owner (table.sweep position call how).entries = some mutex ->
        Entries.get? owner table.entries = some mutex :=
    fun found => ((table.get?_entries_sweep_iff position call how).mp found).1
  refine {
    numbered := fun found => sound.numbered (kept found)
    apart := fun found otherFound => sound.apart (kept found) (kept otherFound)
    cloned := ?cloned
    exclusive := ?exclusive
    attended := ?attended }
  case cloned =>
    intro other member clone
    have entry := sound.cloned_setPhase found (fun clone => absurd clone returned)
      other member clone
    refine (table.get?_entries_sweep_iff position call how).mpr ⟨entry, fun _ => ?_⟩
    obtain ⟨place, old, held, rfl⟩ := exists_of_mem_calls_setPhase member
    split at clone
    · exact absurd clone returned
    · next elsewhere =>
        rw [if_neg elsewhere]
        exact isCloned_iff.mpr ⟨old, List.mem_of_getElem? held, clone, rfl⟩
  case exclusive =>
    exact fun oneFound otherFound =>
      sound.exclusive_setPhase found (fun clone => absurd clone returned)
        (fun inside => absurd inside outside) oneFound otherFound
  case attended =>
    intro owner mutex entry
    obtain ⟨other, member, own, waits, elsewhere⟩ := sound.exists_attending_sweep done entry
    obtain ⟨place, held⟩ := List.mem_iff_getElem?.mp member
    have apart : place ≠ position := by
      rintro rfl
      exact elsewhere (Option.some.inj (held.symm.trans found))
    exact ⟨other, mem_calls_setPhase_of_ne held apart _, own, waits⟩

/-- Every event keeps a table sound. -/
theorem after (sound : table.IsSound) {event : LockEvent}
    (transition : table.after? event = some next) : next.IsSound := by
  cases change_of_after? transition with
  | entered owner => exact sound.enter owner
  | refused => exact sound
  | moved found clone free unswept => exact sound.setPhase found clone free unswept
  | swept found done => exact sound.sweep found done

end IsSound

/-- Events that no call is ready for change nothing, so any events make a run. -/
theorem reaches_afterAll (table : LockTable) (events : List LockEvent) :
    Reaches table (table.afterAll events) := by
  refine List.foldlRecOn events _ (.refl table) fun middle run event _ => ?_
  cases after : middle.after? event with
  | none => exact run
  | some next => exact run.step event after

/-- Every run of events keeps a table sound. -/
theorem Reaches.isSound (run : Reaches table next) (sound : table.IsSound) : next.IsSound := by
  induction run with
  | refl => exact sound
  | step event prior transition inductionHypothesis => exact inductionHypothesis.after transition

/-! ## Exclusion -/

/-- What a table of locks promises at any time. -/
structure IsExclusive (table : LockTable) : Prop where
  /-- Of an owner's calls one at most runs its body. -/
  oneInside : ∀ {first second : Nat} {call other : LockCall},
    table.calls[first]? = some call -> table.calls[second]? = some other ->
      call.owner = other.owner -> call.isInside -> other.isInside -> first = second
  /-- Calls that hold clones hold the same mutex exactly if they are calls of one owner. -/
  oneMutex : ∀ call ∈ table.calls, ∀ other ∈ table.calls, call.holdsClone -> other.holdsClone ->
    (call.mutex = other.mutex ↔ call.owner = other.owner)
  /-- A call that tries to take its mutex gets it, whatever the calls of other owners do, unless
  another call of its owner runs its body. -/
  unrefused : ∀ {position : Nat} {call : LockCall}, table.calls[position]? = some call ->
    call.phase = .waiting -> (∀ other ∈ table.calls, other.owner = call.owner -> ¬ other.isInside) ->
      table.after? (.tryLock position) = some (table.setPhase position .inside)
  /-- When every call has returned, no body having panicked, the table is empty. -/
  forgotten : (∀ call ∈ table.calls,
    call.phase = .returned .finished ∨ call.phase = .returned .timedOut) -> table.entries = []

theorem IsSound.exclusion (sound : table.IsSound) : table.IsExclusive where
  oneInside := sound.exclusive
  oneMutex call member other otherMember clone otherClone := by
    have entry := sound.cloned call member clone
    have otherEntry := sound.cloned other otherMember otherClone
    constructor
    · intro same
      rw [← same] at otherEntry
      exact sound.apart entry otherEntry
    · intro same
      rw [← same, entry] at otherEntry
      exact Option.some.inj otherEntry
  unrefused {position call} found waiting outside := by
    have clone : call.holdsClone := by simp [LockCall.holdsClone, waiting]
    have free := sound.not_isLocked (List.mem_of_getElem? found) clone outside
    simp [after?, found, waiting, tryLock, free]
  forgotten returned := by
    cases entries : table.entries with
    | nil => rfl
    | cons entry rest =>
        have stands : Entries.get? entry.1 table.entries = some entry.2 := by
          simp [entries, Entries.get?]
        obtain ⟨call, member, -, unswept⟩ := sound.attended stands
        refine absurd ?_ unswept
        rcases returned call member with phase | phase <;> rw [LockCall.hasSwept, phase]

/-- In every run of calls, however their steps interleave, the table of locks excludes calls of
one owner from each other and no others, and forgets the owners of whom no call is left. -/
theorem Reaches.isExclusive (run : Reaches empty table) : table.IsExclusive :=
  (run.isSound isSound_empty).exclusion

/-- Calls of two owners, of which one gives up and another takes up the mutex while its last
holder is giving it back. -/
def contendingEvents : List LockEvent :=
  [.enter "stage", .enter "hall", .enter "stage", .tryLock 0, .tryLock 1, .tryLock 2, .giveUp 2,
    .finish 0, .dropClone 0, .enter "stage", .sweep 0, .dropClone 2, .tryLock 3, .sweep 2,
    .finish 3, .dropClone 3, .sweep 3, .finish 1, .dropClone 1, .sweep 1]

/-- When these calls have returned, the table is empty. -/
theorem Reaches.isExclusive_of_contendingEvents :
    ((empty.afterAll contendingEvents).calls.map LockCall.phase
        = [.returned .finished, .returned .finished, .returned .timedOut, .returned .finished])
      ∧ (empty.afterAll contendingEvents).IsExclusive
      ∧ (empty.afterAll contendingEvents).entries = [] := by
  have exclusive := Reaches.isExclusive (reaches_afterAll empty contendingEvents)
  exact ⟨by decide, exclusive, exclusive.forgotten (by decide)⟩

end LockTable

end LayerRouting
