import LayerRouting.Number.Shortest
import LayerRouting.Proofs.Number.Rounding

/-!
# Shortest decimals within range

The shortest decimal of a binary64 number has at most seventeen digits, is zero with exponent
zero only, and does not lie above what rounds to the number (`Binary64.isNear_shortest`).
-/

namespace LayerRouting

namespace Decimal

/-- The number that a decimal denotes. -/
def value (decimal : Decimal) : ℚ :=
  decimal.significand * (10 : ℚ) ^ decimal.exponent

/-- Stripping zeros keeps the value of a decimal. -/
theorem value_stripZeros (significand : Nat) (exponent : Int) :
    (stripZeros significand exponent).value = significand * (10 : ℚ) ^ exponent := by
  induction significand, exponent using stripZeros.induct with
  | case1 significand exponent divides inductionHypothesis =>
      rw [stripZeros, dif_pos divides, inductionHypothesis]
      have tenth : (significand : ℚ) = (significand / 10 : Nat) * 10 := by
        exact_mod_cast (by omega : significand = significand / 10 * 10)
      rw [zpow_add_one₀ (by norm_num), tenth]
      ring
  | case2 significand exponent done => rw [stripZeros, dif_neg done, value]

theorem significand_stripZeros_le (significand : Nat) (exponent : Int) :
    (stripZeros significand exponent).significand ≤ significand := by
  induction significand, exponent using stripZeros.induct with
  | case1 significand exponent divides inductionHypothesis =>
      rw [stripZeros, dif_pos divides]
      omega
  | case2 significand exponent done => rw [stripZeros, dif_neg done]

theorem significand_stripZeros_pos {significand : Nat} (positive : 0 < significand)
    (exponent : Int) : 0 < (stripZeros significand exponent).significand := by
  induction significand, exponent using stripZeros.induct with
  | case1 significand exponent divides inductionHypothesis =>
      rw [stripZeros, dif_pos divides]
      exact inductionHypothesis (by omega)
  | case2 significand exponent done => rwa [stripZeros, dif_neg done]

end Decimal

/-! ## The leading digit -/

/-- A positive quotient lies between the power of ten of its decimal exponent and the next. -/
theorem decimalExponent_bounds {num den : Nat} (positive : 0 < num) (denPositive : 0 < den) :
    (10 : ℚ) ^ decimalExponent num den ≤ num / den
      ∧ (num / den : ℚ) < (10 : ℚ) ^ (decimalExponent num den + 1) := by
  have dens : (0 : ℚ) < den := by exact_mod_cast denPositive
  induction num using decimalExponent.induct den with
  | case1 num large =>
      rw [decimalExponent, if_pos large]
      have quotient : 1 ≤ num / den := (Nat.one_le_div_iff denPositive).mpr large
      obtain ⟨length, same⟩ : ∃ length, (Nat.toDigits 10 (num / den)).length = length + 1 :=
        ⟨_, (Nat.succ_pred_eq_of_pos (List.length_pos_iff.mpr Nat.toDigits_ne_nil)).symm⟩
      have most : num / den < 10 ^ (length + 1) :=
        (Nat.length_toDigits_le_iff (by decide) (Nat.succ_pos _)).mp same.le
      have least : 10 ^ length ≤ num / den := by
        rcases Nat.eq_zero_or_pos length with rfl | longer
        · exact quotient
        · by_contra less
          have shorter := (Nat.length_toDigits_le_iff (by decide) longer).mpr (not_le.mp less)
          omega
      have exponent : ((Nat.toDigits 10 (num / den)).length : Int) - 1 = length := by
        rw [same]
        omega
      rw [exponent, zpow_natCast, le_div_iff₀ dens, div_lt_iff₀ dens]
      constructor
      · exact_mod_cast (Nat.le_div_iff_mul_le denPositive).mp least
      · exact_mod_cast (Nat.div_lt_iff_lt_mul denPositive).mp most
  | case2 num small _ inductionHypothesis =>
      rw [decimalExponent, if_neg small, dif_pos positive]
      obtain ⟨least, most⟩ := inductionHypothesis (by omega)
      have ten : ((num * 10 : Nat) / den : ℚ) = num / den * 10 := by
        push_cast
        ring
      rw [ten] at least most
      rw [sub_add_cancel, zpow_sub_one₀ (by norm_num)]
      rw [zpow_add_one₀ (by norm_num)] at most
      constructor <;> linarith
  | case3 num small zero => exact absurd positive zero

namespace Binary64

/-! ## Points of a grid -/

/-- A point that is found on a grid is one of the two around the number, and it does not lie
above what rounds to the number. -/
theorem nearestOnGrid?_bounds {x : Binary64} {exponent : Int} {point : Nat}
    (found : x.nearestOnGrid? exponent = some point) :
    let step := Nat.pow 10 exponent.toNat * quartersPerOne
    let parts := Nat.pow 10 (-exponent).toNat
    let below := 4 * x.units * parts / step
    below ≤ point ∧ point ≤ below + 1 ∧ point * step ≤ x.upperBound * parts := by
  intro step parts below
  have within : ∀ count, x.roundsFrom count parts = true -> count ≤ x.upperBound * parts := by
    intro count rounds
    rw [roundsFrom] at rounds
    split at rounds <;> simp only [decide_eq_true_eq] at rounds <;> omega
  have isBelow : x.roundsFrom (below * step) parts = true -> point = below ->
      below ≤ point ∧ point ≤ below + 1 ∧ point * step ≤ x.upperBound * parts := by
    rintro rounds rfl
    exact ⟨le_rfl, Nat.le_succ _, within _ rounds⟩
  have isAbove : x.roundsFrom ((below + 1) * step) parts = true -> point = below + 1 ->
      below ≤ point ∧ point ≤ below + 1 ∧ point * step ≤ x.upperBound * parts := by
    rintro rounds rfl
    exact ⟨Nat.le_succ _, le_rfl, within _ rounds⟩
  simp only [nearestOnGrid?] at found
  split at found
  · cases found
  · next first _ => exact isBelow first (Option.some.inj found).symm
  · next _ second => exact isAbove second (Option.some.inj found).symm
  · next first second =>
      split at found
      · exact isBelow first (Option.some.inj found).symm
      · split at found
        · exact isAbove second (Option.some.inj found).symm
        · have same : below + below % 2 = point := Option.some.inj found
          rcases Nat.mod_two_eq_zero_or_one below with even | odd
          · exact isBelow first (by omega)
          · exact isAbove second (by omega)

theorem quartersPerOne_pos : (0 : ℚ) < quartersPerOne := by
  exact_mod_cast (by decide : 0 < quartersPerOne)

/-- The magnitude counted in quarter units. -/
theorem magnitude_eq (x : Binary64) : x.magnitude = 4 * x.units / quartersPerOne := by
  rw [magnitude, quartersPerOne, Nat.cast_mul, Nat.cast_ofNat, mul_div_mul_left _ _ (by norm_num)]

/-- A power of ten as a quotient of natural numbers. -/
theorem pow_toNat_eq (exponent : Int) :
    ((Nat.pow 10 exponent.toNat : Nat) : ℚ)
      = (10 : ℚ) ^ exponent * (Nat.pow 10 (-exponent).toNat : Nat) := by
  have split : (exponent.toNat : Int) = exponent + ((-exponent).toNat : Int) := by omega
  have ten : (10 : ℚ) ≠ 0 := by norm_num
  simp only [Nat.pow_eq, Nat.cast_pow, Nat.cast_ofNat]
  rw [← zpow_natCast, ← zpow_natCast, ← zpow_add₀ ten, ← split]

/-- A point that is found on a grid is less than a step from the number, and it does not lie
above what rounds to the number. -/
theorem nearestOnGrid?_value {x : Binary64} {exponent : Int} {point : Nat}
    (found : x.nearestOnGrid? exponent = some point) :
    x.magnitude < (point + 1) * (10 : ℚ) ^ exponent
      ∧ (point - 1) * (10 : ℚ) ^ exponent ≤ x.magnitude
      ∧ point * (10 : ℚ) ^ exponent ≤ x.upperBound / quartersPerOne := by
  obtain ⟨below, above, bound⟩ := nearestOnGrid?_bounds found
  have stepPositive : 0 < Nat.pow 10 exponent.toNat * quartersPerOne :=
    Nat.mul_pos (Nat.pow_pos (by decide)) (by decide)
  have exceeds := Nat.lt_mul_of_div_lt (Nat.lt_succ_of_le below) stepPositive
  have reaches := (Nat.mul_le_mul_right _ (Nat.sub_le_iff_le_add.mpr above)).trans
    (Nat.div_mul_le_self (4 * x.units * Nat.pow 10 (-exponent).toNat) _)
  have step := pow_toNat_eq exponent
  have partsPositive : (0 : ℚ) < (Nat.pow 10 (-exponent).toNat : Nat) := by
    exact_mod_cast (Nat.pow_pos (by decide) : 0 < Nat.pow 10 (-exponent).toNat)
  generalize Nat.pow 10 exponent.toNat = raised at *
  generalize Nat.pow 10 (-exponent).toNat = parts at *
  have quarters := quartersPerOne_pos
  -- The three bounds hold of the counts of quarter units and are cleared of `parts`.
  have clear : ∀ {left right : ℚ}, left * quartersPerOne * parts ≤ right * parts ->
      left ≤ right / quartersPerOne := by
    intro left right most
    rw [le_div_iff₀ quarters]
    exact le_of_mul_le_mul_right most partsPositive
  rw [magnitude_eq]
  refine ⟨?_, clear ?_, clear ?_⟩
  · rw [div_lt_iff₀ quarters]
    refine lt_of_mul_lt_mul_right ?_ partsPositive.le
    have cast : ((4 * x.units * parts : Nat) : ℚ)
        < ((point + 1) * (raised * quartersPerOne) : Nat) := by
      exact_mod_cast exceeds
    push_cast [step] at cast
    linarith
  · have cast : (((point - 1 : Nat) * (raised * quartersPerOne) : Nat) : ℚ)
        ≤ (4 * x.units * parts : Nat) := by exact_mod_cast reaches
    push_cast [step] at cast
    have less : (point : ℚ) - 1 ≤ (point - 1 : Nat) := by
      have same : point ≤ (point - 1) + 1 := by omega
      have cast : (point : ℚ) ≤ (point - 1 : Nat) + 1 := by exact_mod_cast same
      linarith
    have power : (0 : ℚ) ≤ (10 : ℚ) ^ exponent * parts * quartersPerOne :=
      (mul_pos (mul_pos (zpow_pos (by norm_num) _) partsPositive) quarters).le
    have smaller := mul_le_mul_of_nonneg_right less power
    linarith
  · have cast : ((point * (raised * quartersPerOne) : Nat) : ℚ) ≤ (x.upperBound * parts : Nat) := by
      exact_mod_cast bound
    push_cast [step] at cast
    linarith

/-! ## The shortest decimal -/

/-- What a shortest decimal keeps to: it has at most seventeen digits, its exponent is zero if
it is, and it does not lie above what rounds to the number. -/
structure IsNear (x : Binary64) (decimal : Decimal) : Prop where
  few : decimal.significand ≤ 10 ^ sufficientDigits
  zero : decimal.significand = 0 -> decimal.exponent = 0
  most : decimal.value ≤ x.upperBound / quartersPerOne

/-- A point of a grid no coarser than the leading digit is near the number. -/
theorem isNear_of_nearestOnGrid? {x : Binary64} (nonzero : 0 < x.units) {digits : Nat}
    (one : 0 < digits) (few : digits ≤ sufficientDigits) {point : Nat}
    (found : x.nearestOnGrid? (decimalExponent x.units unitsPerOne + 1 - digits) = some point) :
    x.IsNear (Decimal.stripZeros point (decimalExponent x.units unitsPerOne + 1 - digits)) := by
  obtain ⟨least, most⟩ := decimalExponent_bounds nonzero unitsPerOne_pos
  obtain ⟨above, below, bound⟩ := nearestOnGrid?_value found
  have coarse : (10 : ℚ) ^ (decimalExponent x.units unitsPerOne + 1 - digits) ≤ x.magnitude :=
    (zpow_le_zpow_right₀ (by norm_num) (by omega)).trans least
  have fine : x.magnitude
      < 10 ^ digits * (10 : ℚ) ^ (decimalExponent x.units unitsPerOne + 1 - digits) := by
    rw [← zpow_natCast, ← zpow_add₀ (by norm_num), add_sub_cancel]
    exact most
  generalize decimalExponent x.units unitsPerOne + 1 - (digits : Int) = exponent at *
  have power : (0 : ℚ) < (10 : ℚ) ^ exponent := by positivity
  have positive : 0 < point := by
    have cast : (1 : ℚ) < point + 1 := by
      refine lt_of_mul_lt_mul_right ?_ power.le
      linarith
    have cast : (0 : ℚ) < point := by linarith
    exact_mod_cast cast
  have last : point ≤ 10 ^ digits := by
    have cast : (point : ℚ) - 1 < 10 ^ digits :=
      lt_of_mul_lt_mul_right (below.trans_lt fine) power.le
    have cast : (point : ℚ) < (10 ^ digits + 1 : Nat) := by
      push_cast
      linarith
    exact Nat.le_of_lt_succ (by exact_mod_cast cast)
  refine ⟨?_, ?_, ?_⟩
  · exact (Decimal.significand_stripZeros_le _ _).trans
      (last.trans (Nat.pow_le_pow_right (by decide) few))
  · intro zero
    have left := Decimal.significand_stripZeros_pos positive exponent
    omega
  · rw [Decimal.value_stripZeros]
    exact bound

theorem isNear_zero (x : Binary64) : x.IsNear ⟨0, 0⟩ where
  few := Nat.zero_le _
  zero := fun _ => rfl
  most := by
    rw [Decimal.value]
    simp only [Nat.cast_zero, zero_mul]
    positivity

/-- Only zero has no units. -/
theorem place_eq_zero_of_units_eq_zero {x : Binary64} (zero : x.units = 0) : x.place = 0 := by
  rw [units, Nat.shiftLeft_eq, Nat.mul_eq_zero] at zero
  rcases zero with zero | zero
  · simp only [doublings, placesPerDoubling] at zero
    omega
  · exact absurd zero (Nat.pow_pos (by decide)).ne'

theorem shortest_of_units_eq_zero {x : Binary64} (zero : x.units = 0) : x.shortest = ⟨0, 0⟩ := by
  have least := place_eq_zero_of_units_eq_zero zero
  obtain ⟨negative, place, finite⟩ := x
  cases least
  revert finite
  cases negative <;> decide +kernel

/-- The shortest decimal of a number is near it. -/
theorem isNear_shortest (x : Binary64) : x.IsNear x.shortest := by
  rcases Nat.eq_zero_or_pos x.units with zero | nonzero
  · rw [shortest_of_units_eq_zero zero]
    exact x.isNear_zero
  · rw [shortest]
    simp only
    cases found : List.findSome? _ _ with
    | none => exact x.isNear_zero
    | some decimal =>
        obtain ⟨digits, member, onGrid⟩ := List.exists_of_findSome?_eq_some found
        obtain ⟨point, point?, rfl⟩ := Option.map_eq_some_iff.mp onGrid
        rw [List.mem_range'_1] at member
        exact isNear_of_nearestOnGrid? nonzero (by omega) (by omega) point?

/-! ## Scaling back -/

/-- How often the spacing has doubled at the greatest numbers. -/
def greatestDoublings : Nat := 2045

/-- What rounds to a number that is not among the last three ends some steps before the limit
of the range. -/
theorem upperBound_le {x : Binary64} (room : x.place < 0x7FF0000000000000 - 3) :
    x.upperBound ≤ halfStep * (4 * placesPerDoubling - 7) * quartersPerOne := by
  have shape : x.upperBound
      = (4 * (x.place - doublings x.place * placesPerDoubling) + 2) * 2 ^ doublings x.place := by
    rw [upperBound, units, Nat.shiftLeft_eq, Nat.shiftLeft_eq]
    ring
  have most : halfStep * (4 * placesPerDoubling - 7) * quartersPerOne
      = (8 * placesPerDoubling - 14) * 2 ^ greatestDoublings := by decide +kernel
  rw [shape, most]
  have few : doublings x.place ≤ greatestDoublings := by
    simp only [doublings, placesPerDoubling, greatestDoublings]
    omega
  have steps : x.place - doublings x.place * placesPerDoubling < 2 * placesPerDoubling := by
    simp only [doublings, placesPerDoubling]
    omega
  rcases Nat.lt_or_eq_of_le few with less | last
  · have power : 2 ^ doublings x.place * 2 ≤ 2 ^ greatestDoublings := by
      rw [← pow_succ]
      exact Nat.pow_le_pow_right (by decide) less
    calc (4 * (x.place - doublings x.place * placesPerDoubling) + 2) * 2 ^ doublings x.place
        ≤ (4 * placesPerDoubling - 1) * 2 * 2 ^ doublings x.place := by
          refine Nat.mul_le_mul_right _ ?_
          simp only [placesPerDoubling] at steps ⊢
          omega
      _ = (4 * placesPerDoubling - 1) * (2 ^ doublings x.place * 2) := by ring
      _ ≤ (4 * placesPerDoubling - 1) * 2 ^ greatestDoublings := Nat.mul_le_mul_left _ power
      _ ≤ (8 * placesPerDoubling - 14) * 2 ^ greatestDoublings := Nat.mul_le_mul_right _ (by decide)
  · rw [last] at steps ⊢
    refine Nat.mul_le_mul_right _ ?_
    simp only [placesPerDoubling, greatestDoublings]
    omega

/-- The shortest decimal of a number that is not among the last three is finite when its
significand is scaled by its exponent. -/
theorem IsNear.exists_multiplyByTens? {x : Binary64} {decimal : Decimal} (near : x.IsNear decimal)
    (room : x.place < 0x7FF0000000000000 - 3) (positive : 0 < decimal.significand)
    {exponent : Nat} (same : decimal.exponent = exponent) :
    ∃ y, ((ofRatio? false decimal.significand 1).getD .zero).multiplyByTens? exponent = some y := by
  refine Binary64.exists_multiplyByTens? positive ?_
  have most : (decimal.significand * 10 ^ exponent : ℚ)
      ≤ (halfStep * (4 * placesPerDoubling - 7) : Nat) := by
    have bound : (x.upperBound : ℚ)
        ≤ (halfStep * (4 * placesPerDoubling - 7) : Nat) * (quartersPerOne : ℚ) := by
      exact_mod_cast upperBound_le room
    have below := near.most
    rw [Decimal.value, same, zpow_natCast] at below
    exact below.trans ((div_le_iff₀ quartersPerOne_pos).mpr bound)
  have positiveStep : (0 : ℚ) < halfStep := by exact_mod_cast (by decide : 0 < halfStep)
  have factor : roundingFactor ^ 2 * (4 * placesPerDoubling - 7 : Nat)
      < (4 * placesPerDoubling - 1 : Nat) := by
    simp only [roundingFactor, placesPerDoubling]
    norm_num
  calc roundingFactor ^ 2 * (decimal.significand * 10 ^ exponent)
      ≤ roundingFactor ^ 2 * (halfStep * (4 * placesPerDoubling - 7) : Nat) :=
        mul_le_mul_of_nonneg_left most (sq_nonneg _)
    _ = halfStep * (roundingFactor ^ 2 * (4 * placesPerDoubling - 7 : Nat)) := by
        push_cast
        ring
    _ < halfStep * (4 * placesPerDoubling - 1 : Nat) := mul_lt_mul_of_pos_left factor positiveStep
    _ = rangeLimit := by rw [rangeLimit, Nat.cast_mul]

end Binary64

end LayerRouting
