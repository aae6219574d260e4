import LayerRouting.Override.Op
import Mathlib.Data.Nat.Digits.Defs

/-!
# New op ids

A supply gives every id once: the counter can be read back off the id that spells it
(`opIdOf_injective`). So a supply whose later ids are not in a log (`IdSupply.IsNewFor`) stays
one for that log after it gave the next id away, and also for the log with that id.
-/

namespace LayerRouting

/-! ## Spelling -/

/-- The value of a digit of base thirty-two. -/
def base32Value (digit : Char) : Nat :=
  base32Alphabet.idxOf digit

theorem base32Value_base32Digit {value : Nat} (digit : value < 32) :
    base32Value (base32Digit value) = value := by
  revert value
  decide

/-- The digits of a number spell it. -/
theorem ofDigits_base32Reversed (value : Nat) :
    Nat.ofDigits 32 ((base32Reversed value).map base32Value) = value := by
  fun_induction base32Reversed value with
  | case1 value more inductionHypothesis =>
      have last : base32Value (base32Digit (value % 32)) = value % 32 :=
        base32Value_base32Digit (by omega)
      rw [List.map_cons, Nat.ofDigits_cons, inductionHypothesis, last]
      omega
  | case2 value few =>
      rw [List.map_singleton, Nat.ofDigits_singleton, base32Value_base32Digit (by omega)]

/-- The counter that an id spells. -/
def opIdCounter (id : String) : Nat :=
  Nat.ofDigits 32 (id.toList.reverse.map base32Value)

theorem opIdCounter_opIdOf (counter : Nat) : opIdCounter (opIdOf counter) = counter := by
  have zero : base32Value '0' = 0 := by decide
  simp only [opIdCounter, opIdOf, String.toList_ofList, List.reverse_append, List.reverse_reverse,
    List.reverse_replicate, List.map_append, List.map_replicate, zero,
    Nat.ofDigits_append_replicate_zero]
  exact ofDigits_base32Reversed counter

/-- Different counters have different ids. -/
theorem opIdOf_injective : Function.Injective opIdOf :=
  Function.LeftInverse.injective opIdCounter_opIdOf

/-! ## Supplies -/

namespace IdSupply

/-- Whether no id that the supply has still to give is in a log. -/
def IsNewFor (supply : IdSupply) (log : Log) : Prop :=
  ∀ counter, supply.next ≤ counter -> opIdOf counter ∉ log.map Op.id

variable {supply : IdSupply} {log : Log}

/-- The ids of part of a log are ids of the log, and later ids are still to be given. -/
theorem IsNewFor.mono (new : supply.IsNewFor log) {later : IdSupply} {part : Log}
    (advanced : supply.next ≤ later.next) (ids : part.map Op.id ⊆ log.map Op.id) :
    later.IsNewFor part := by
  intro counter ahead given
  exact new counter (advanced.trans ahead) (ids given)

/-- After an op with the next id was added, the ids that are left are new. -/
theorem IsNewFor.append (new : supply.IsNewFor log) {op : Op}
    (next : op.id = opIdOf supply.next) : supply.take.2.IsNewFor (log ++ [op]) := by
  intro counter ahead given
  have advanced : supply.next < counter := ahead
  rw [List.map_append, List.mem_append] at given
  rcases given with old | added
  · exact new counter advanced.le old
  · rw [List.map_singleton, List.mem_singleton, next] at added
    have same := opIdOf_injective added
    omega

end IdSupply

end LayerRouting
