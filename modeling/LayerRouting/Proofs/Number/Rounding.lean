import LayerRouting.Number.Numeral
import Mathlib.Algebra.Order.Field.Power
import Mathlib.Tactic.Positivity
import Mathlib.Tactic.Linarith
import Mathlib.Tactic.NormNum
import Mathlib.Tactic.Ring
import Mathlib.Data.Rat.Cast.Order

/-!
# Rounding within range

Rounding a quotient to a binary64 number gives a finite number below the limit of the range
(`Binary64.exists_ofRatio?`), and adds no more than one part in `2 ^ 53` to a quotient that is
at least one (`Binary64.magnitude_ofRatio?_le`). A word that is scaled by a power of ten is
rounded three times, so it is finite if it keeps that far from the limit
(`Binary64.exists_multiplyByTens?`).
-/

namespace LayerRouting

namespace Binary64

/-! ## Rounding to a natural number -/

theorem roundHalfEven_le (num den : Nat) : roundHalfEven num den ≤ num / den + 1 := by
  simp only [roundHalfEven]
  split
  · omega
  · split <;> omega

theorem div_le_roundHalfEven (num den : Nat) : num / den ≤ roundHalfEven num den := by
  simp only [roundHalfEven]
  split
  · omega
  · split <;> omega

/-- Rounding adds at most a half. -/
theorem two_mul_roundHalfEven_le (num : Nat) {den : Nat} (positive : 0 < den) :
    2 * (roundHalfEven num den * den) ≤ 2 * num + den := by
  have split := Nat.div_add_mod num den
  have left := Nat.mod_lt num positive
  simp only [roundHalfEven]
  generalize num / den = floor at *
  generalize num % den = rest at *
  have floors : floor * den = den * floor := Nat.mul_comm _ _
  have next : (floor + 1) * den = den * floor + den := by ring
  split
  · omega
  · split
    · omega
    · rcases Nat.mod_two_eq_zero_or_one floor with even | odd
      · rw [even, Nat.add_zero]
        omega
      · rw [odd]
        omega

/-! ## Places -/

/-- The absolute value as a number. -/
def magnitude (x : Binary64) : ℚ :=
  x.units / unitsPerOne

theorem unitsPerOne_pos : 0 < unitsPerOne := by decide

theorem magnitude_nonneg (x : Binary64) : 0 ≤ x.magnitude :=
  div_nonneg (Nat.cast_nonneg _) (Nat.cast_nonneg _)

/-- A place within a doubling: so many steps of the doubling's spacing. -/
theorem doublings_of_place {place shift steps : Nat}
    (same : place = shift * placesPerDoubling + steps)
    (least : placesPerDoubling ≤ steps) (most : steps < 2 * placesPerDoubling) :
    doublings place = shift := by
  simp only [doublings, placesPerDoubling] at *
  omega

/-- The units of a place are its steps of the spacing; a step beyond the last one is the first
of the next doubling. -/
theorem units_of_place {x : Binary64} {shift steps : Nat}
    (same : x.place = shift * placesPerDoubling + steps) (least : placesPerDoubling ≤ steps)
    (most : steps ≤ 2 * placesPerDoubling) : x.units = steps * 2 ^ shift := by
  rw [units, Nat.shiftLeft_eq]
  rcases Nat.lt_or_eq_of_le most with within | last
  · rw [doublings_of_place same least within, same, Nat.add_sub_cancel_left]
  · have next : x.place = (shift + 1) * placesPerDoubling + placesPerDoubling := by
      rw [same, last]
      ring
    rw [doublings_of_place next le_rfl (by decide), next, Nat.add_sub_cancel_left, last, pow_succ]
    ring

/-- The place that a quotient rounds to, as the spacing and the steps of it. The spacing is the
one at the quotient. -/
theorem exists_nearestPlace {num den : Nat} (positive : 0 < den)
    (normal : 2 * placesPerDoubling ≤ num * unitsPerOne / den) :
    ∃ shift steps, nearestPlace num den = shift * placesPerDoubling + steps
      ∧ placesPerDoubling ≤ steps ∧ steps ≤ 2 * placesPerDoubling
      ∧ 2 * (steps * (den * 2 ^ shift)) ≤ 2 * (num * unitsPerOne) + den * 2 ^ shift
      ∧ placesPerDoubling * (den * 2 ^ shift) ≤ num * unitsPerOne := by
  have nonzero : num * unitsPerOne / den ≠ 0 := by
    have : 0 < placesPerDoubling := by decide
    omega
  have logBound : 53 ≤ Nat.log2 (num * unitsPerOne / den) :=
    (Nat.le_log2 nonzero).mpr normal
  obtain ⟨shift, log⟩ : ∃ shift, Nat.log2 (num * unitsPerOne / den) = 52 + shift :=
    ⟨_, (Nat.add_sub_of_le (by omega)).symm⟩
  have least : 2 ^ (52 + shift) ≤ num * unitsPerOne / den := log ▸ Nat.log2_self_le nonzero
  have most : num * unitsPerOne / den < 2 ^ (52 + shift + 1) := log ▸ Nat.lt_log2_self
  have powerPositive : 0 < 2 ^ shift := Nat.pow_pos (by decide)
  have spacing : 0 < den * 2 ^ shift := Nat.mul_pos positive powerPositive
  have quotient : num * unitsPerOne / (den * 2 ^ shift) = num * unitsPerOne / den / 2 ^ shift :=
    (Nat.div_div_eq_div_mul _ _ _).symm
  have first : placesPerDoubling ≤ num * unitsPerOne / (den * 2 ^ shift) := by
    rw [quotient, Nat.le_div_iff_mul_le powerPositive]
    rw [pow_add] at least
    exact least
  have last : num * unitsPerOne / (den * 2 ^ shift) < 2 * placesPerDoubling := by
    rw [quotient, Nat.div_lt_iff_lt_mul powerPositive]
    rw [show 52 + shift + 1 = 53 + shift by ring, pow_add] at most
    exact most
  refine ⟨shift, roundHalfEven (num * unitsPerOne) (den * 2 ^ shift), ?_, ?_, ?_, ?_, ?_⟩
  · rw [nearestPlace, if_neg (not_lt.mpr normal), log, Nat.add_sub_cancel_left, Nat.shiftLeft_eq]
  · exact first.trans (div_le_roundHalfEven _ _)
  · exact (roundHalfEven_le _ _).trans last
  · exact two_mul_roundHalfEven_le _ spacing
  · exact (Nat.le_div_iff_mul_le spacing).mp first

/-- The place of a small quotient is the natural number that its units round to. -/
theorem nearestPlace_of_lt {num den : Nat}
    (small : num * unitsPerOne / den < 2 * placesPerDoubling) :
    nearestPlace num den = roundHalfEven (num * unitsPerOne) den := by
  rw [nearestPlace, if_pos small, Nat.zero_mul, Nat.zero_add, Nat.shiftLeft_zero]

/-! ## Range -/

/-- A quotient that is less than half a step above the last step of a doubling has a place
before the next doubling. -/
theorem nearestPlace_lt_of_scaled {num den top : Nat} (positive : 0 < den)
    (within : num * unitsPerOne < 2 ^ top * den * (4 * placesPerDoubling - 1)) :
    nearestPlace num den < (top + 3) * placesPerDoubling := by
  by_cases small : num * unitsPerOne / den < 2 * placesPerDoubling
  · rw [nearestPlace_of_lt small]
    have rounded := roundHalfEven_le (num * unitsPerOne) den
    simp only [placesPerDoubling] at small ⊢
    omega
  · obtain ⟨shift, steps, place, least, most, half, spacing⟩ :=
      exists_nearestPlace positive (not_lt.mp small)
    have few : shift ≤ top + 1 := by
      by_contra more
      have coarse : 4 * (2 ^ top * den) ≤ den * 2 ^ shift := by
        calc 4 * (2 ^ top * den) = den * 2 ^ (top + 2) := by ring
          _ ≤ den * 2 ^ shift :=
            Nat.mul_le_mul_left _ (Nat.pow_le_pow_right (by decide) (by omega))
      simp only [placesPerDoubling] at spacing within
      omega
    rw [place]
    rcases Nat.lt_or_eq_of_le few with less | last
    · simp only [placesPerDoubling] at most ⊢
      omega
    · have double : den * 2 ^ shift = 2 * (2 ^ top * den) := by
        rw [last]
        ring
      have unit : 0 < 2 ^ top * den := Nat.mul_pos (Nat.pow_pos (by decide)) positive
      rw [double] at half
      have bound : steps < 2 * placesPerDoubling := by
        refine Nat.lt_of_mul_lt_mul_right (a := 4 * (2 ^ top * den)) ?_
        calc steps * (4 * (2 ^ top * den)) = 2 * (steps * (2 * (2 ^ top * den))) := by ring
          _ ≤ 2 * (num * unitsPerOne) + 2 * (2 ^ top * den) := half
          _ < 2 * placesPerDoubling * (4 * (2 ^ top * den)) := by
            simp only [placesPerDoubling] at within ⊢
            omega
      simp only [placesPerDoubling] at bound ⊢
      omega

/-- Half of the greatest spacing within the finite range. -/
def halfStep : Nat := 1 <<< 970

/-- The least number that rounds to infinity. -/
def rangeLimit : Nat := halfStep * (4 * placesPerDoubling - 1)

/-- A quotient below the limit of the range rounds to a finite number. -/
theorem exists_ofRatio? (negative : Bool) {num den : Nat} (positive : 0 < den)
    (within : num < rangeLimit * den) : ∃ x, ofRatio? negative num den = some x := by
  have finite : nearestPlace num den < (2044 + 3) * placesPerDoubling := by
    refine nearestPlace_lt_of_scaled positive ?_
    have units : 2 ^ 2044 = halfStep * unitsPerOne := by decide +kernel
    rw [units]
    calc num * unitsPerOne < rangeLimit * den * unitsPerOne :=
          Nat.mul_lt_mul_of_pos_right within unitsPerOne_pos
      _ = halfStep * unitsPerOne * den * (4 * placesPerDoubling - 1) := by
        rw [rangeLimit]
        ring
  exact ⟨_, dif_pos finite⟩

/-- How much rounding may add to a number that is not subnormal. -/
def roundingFactor : ℚ := 1 + 1 / 2 ^ 53

/-- A quotient that is at least one grows by no more than the rounding factor. -/
theorem magnitude_ofRatio?_le {negative : Bool} {num den : Nat} {x : Binary64} (positive : 0 < den)
    (normal : den ≤ num) (rounded : ofRatio? negative num den = some x) :
    x.magnitude ≤ roundingFactor * (num / den) := by
  have large : 2 * placesPerDoubling ≤ num * unitsPerOne / den := by
    have many : 2 * placesPerDoubling ≤ unitsPerOne := by decide +kernel
    rw [Nat.le_div_iff_mul_le positive, Nat.mul_comm num]
    exact Nat.mul_le_mul many normal
  obtain ⟨shift, steps, place, least, most, half, spacing⟩ := exists_nearestPlace positive large
  have same : x.place = nearestPlace num den := by
    simp only [ofRatio?] at rounded
    split at rounded
    · cases rounded
      rfl
    · cases rounded
  have dens : (0 : ℚ) < den := by exact_mod_cast positive
  have ones : (0 : ℚ) < unitsPerOne := by exact_mod_cast unitsPerOne_pos
  have error : (2 * (steps * (den * 2 ^ shift)) : ℚ)
      ≤ 2 * (num * unitsPerOne) + den * 2 ^ shift := by
    exact_mod_cast half
  have step : (2 ^ 52 * (den * 2 ^ shift) : ℚ) ≤ num * unitsPerOne := by
    exact_mod_cast spacing
  rw [magnitude, units_of_place (same.trans place) least most, roundingFactor, ← mul_div_assoc,
    div_le_div_iff₀ ones dens]
  push_cast
  linarith

/-! ## Scaling by powers of ten -/

/-- A product below the limit of the range is finite. -/
theorem exists_mul? {x y : Binary64} (within : x.magnitude * y.magnitude < rangeLimit) :
    ∃ product, x.mul? y = some product := by
  refine exists_ofRatio? _ (by decide) ?_
  have ones : (0 : ℚ) < unitsPerOne := by exact_mod_cast unitsPerOne_pos
  rw [magnitude, magnitude, div_mul_div_comm, div_lt_iff₀ (mul_pos ones ones)] at within
  exact_mod_cast within

/-- A word scaled by a power of ten is finite when it stays below the limit of the range by
what three roundings may add. -/
theorem exists_multiplyByTens? {word exponent : Nat} (positive : 0 < word)
    (within : roundingFactor ^ 2 * (word * 10 ^ exponent) < rangeLimit) :
    ∃ x, ((ofRatio? false word 1).getD zero).multiplyByTens? exponent = some x := by
  have factor : (1 : ℚ) ≤ roundingFactor ^ 2 := by
    rw [roundingFactor]
    norm_num
  have wordOne : (1 : ℚ) ≤ word := by exact_mod_cast positive
  have powerOne : (1 : ℚ) ≤ 10 ^ exponent := one_le_pow₀ (by norm_num)
  have product : (word * 10 ^ exponent : ℚ) < rangeLimit :=
    (le_mul_of_one_le_left (by positivity) factor).trans_lt within
  have wordWithin : word < rangeLimit * 1 := by
    have cast : (word : ℚ) < rangeLimit :=
      (le_mul_of_one_le_right (by positivity) powerOne).trans_lt product
    rw [Nat.mul_one]
    exact_mod_cast cast
  have powerWithin : 10 ^ exponent < rangeLimit := by
    have cast : (10 : ℚ) ^ exponent < rangeLimit :=
      (le_mul_of_one_le_left (by positivity) wordOne).trans_lt product
    exact_mod_cast cast
  have small : exponent < greatestPowerOfTen + 1 := by
    have limit : rangeLimit ≤ 10 ^ (greatestPowerOfTen + 1) := by decide +kernel
    exact (Nat.pow_lt_pow_iff_right (by decide)).mp (powerWithin.trans_le limit)
  obtain ⟨x, xRounded⟩ := exists_ofRatio? false Nat.one_pos wordWithin
  obtain ⟨y, yRounded⟩ : ∃ y, ofRatio? false (Nat.pow 10 exponent) 1 = some y :=
    exists_ofRatio? false Nat.one_pos (by rwa [Nat.mul_one])
  have xMost := magnitude_ofRatio?_le Nat.one_pos positive xRounded
  have yMost := magnitude_ofRatio?_le Nat.one_pos (Nat.pow_pos (by decide)) yRounded
  rw [xRounded, Option.getD_some, multiplyByTens?, if_pos (Nat.le_of_lt_succ small), powerOfTen,
    yRounded, Option.getD_some]
  refine exists_mul? (lt_of_le_of_lt ?_ within)
  have factorPositive : 0 ≤ roundingFactor := by
    rw [roundingFactor]
    norm_num
  rw [Nat.cast_one, div_one] at xMost yMost
  calc x.magnitude * y.magnitude
      ≤ roundingFactor * word * (roundingFactor * (10 ^ exponent : Nat)) :=
        mul_le_mul xMost yMost y.magnitude_nonneg (by positivity)
    _ = roundingFactor ^ 2 * (word * 10 ^ exponent) := by
        push_cast
        ring

end Binary64

end LayerRouting
