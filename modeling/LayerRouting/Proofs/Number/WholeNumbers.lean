import LayerRouting.Proofs.Number.Rounding

/-!
# Whole numbers

A whole number below `2 ^ 53` fits the significand, so its nearest binary64 number is the number
itself (`Binary64.exists_ofInt?_of_lt`). Greater places hold no smaller values, so numbers of
different values have places in the order of the values (`Binary64.place_lt_of_magnitude_lt`).
The total order agrees with the places of positive numbers (`Binary64.orderKey_of_positive`), and
orders numbers by their values (`Binary64.precedes_of_orderKey_le`).
-/

namespace LayerRouting

namespace Binary64

/-! ## Exact whole numbers -/

/-- A multiple of the denominator is not rounded. -/
theorem roundHalfEven_mul (steps : Nat) {den : Nat} (positive : 0 < den) :
    roundHalfEven (steps * den) den = steps := by
  rw [roundHalfEven, Nat.mul_mod_left, Nat.mul_div_cancel steps positive, Nat.mul_zero,
    if_pos positive]

/-- A whole number that fits the significand has a place of its own: the spacing there divides
one. -/
theorem nearestPlace_of_whole {whole : Nat} (positive : 0 < whole) (fits : whole < 2 ^ 53) :
    ∃ shift steps, nearestPlace whole 1 = shift * placesPerDoubling + steps
      ∧ shift ≤ 1074 ∧ placesPerDoubling ≤ steps ∧ steps ≤ 2 * placesPerDoubling
      ∧ steps * 2 ^ shift = whole * unitsPerOne := by
  obtain ⟨length, log⟩ : ∃ length, Nat.log2 whole = length := ⟨_, rfl⟩
  have least : 2 ^ length ≤ whole := log ▸ Nat.log2_self_le positive.ne'
  have most : whole < 2 ^ (length + 1) := log ▸ Nat.lt_log2_self
  have short : length ≤ 52 := by
    have power : 2 ^ length < 2 ^ 53 := least.trans_lt fits
    exact Nat.lt_succ_iff.mp ((Nat.pow_lt_pow_iff_right (by decide)).mp power)
  have ones : unitsPerOne = 2 ^ 1074 := Nat.one_shiftLeft 1074
  have scaledLog : Nat.log2 (whole * unitsPerOne) = length + 1074 := by
    rw [ones, Nat.log2_eq_iff (Nat.mul_pos positive (Nat.two_pow_pos _)).ne']
    constructor
    · rw [pow_add]
      exact Nat.mul_le_mul_right _ least
    · rw [show length + 1074 + 1 = length + 1 + 1074 by omega, pow_add]
      exact Nat.mul_lt_mul_of_pos_right most (Nat.two_pow_pos _)
  have normal : ¬ whole * unitsPerOne / 1 < 2 * placesPerDoubling := by
    have many : 2 * placesPerDoubling ≤ unitsPerOne := by decide +kernel
    rw [Nat.div_one, not_lt]
    exact many.trans (Nat.le_mul_of_pos_left _ positive)
  have split : whole * unitsPerOne = whole * 2 ^ (52 - length) * 2 ^ (length + 1022) := by
    rw [ones, Nat.mul_assoc, ← pow_add, show 52 - length + (length + 1022) = 1074 by omega]
  have doubling : placesPerDoubling = 2 ^ length * 2 ^ (52 - length) := by
    rw [← pow_add, Nat.add_sub_of_le short]
    rfl
  refine ⟨length + 1022, whole * 2 ^ (52 - length), ?_, by omega, ?_, ?_, split.symm⟩
  · rw [nearestPlace, if_neg normal, Nat.div_one, scaledLog, Nat.shiftLeft_eq, Nat.one_mul,
      show length + 1074 - 52 = length + 1022 by omega, split,
      roundHalfEven_mul _ (Nat.two_pow_pos _)]
  · rw [doubling]
    exact Nat.mul_le_mul_right _ least
  · rw [doubling, ← Nat.mul_assoc, ← pow_succ']
    exact Nat.mul_le_mul_right _ most.le

/-- A whole number that fits the significand is a number of the format. -/
theorem exists_ofInt?_of_lt {whole : Nat} (fits : whole < 2 ^ 53) :
    ∃ x, ofInt? whole = some x ∧ x.magnitude = whole := by
  have same : ofInt? whole = ofRatio? false whole 1 := by
    rw [ofInt?, Int.natAbs_natCast, decide_eq_false (by omega)]
  rcases Nat.eq_zero_or_pos whole with rfl | positive
  · exact ⟨zero, by decide +kernel, by norm_num [magnitude, show zero.units = 0 by decide]⟩
  · obtain ⟨shift, steps, place, few, least, most, units⟩ := nearestPlace_of_whole positive fits
    have finite : nearestPlace whole 1 < 0x7FF0000000000000 := by
      simp only [placesPerDoubling] at place most
      omega
    refine ⟨⟨false, nearestPlace whole 1, finite⟩, by rw [same, ofRatio?, dif_pos finite], ?_⟩
    have ones : (unitsPerOne : ℚ) ≠ 0 := by exact_mod_cast unitsPerOne_pos.ne'
    rw [magnitude, units_of_place place least most, units, Nat.cast_mul,
      mul_div_cancel_right₀ _ ones]

/-! ## The order of places -/

/-- A further place holds no smaller value. -/
theorem units_le_of_place_le {x y : Binary64} (order : x.place ≤ y.place) : x.units ≤ y.units := by
  have doublingsLe : doublings x.place ≤ doublings y.place :=
    Nat.sub_le_sub_right (Nat.div_le_div_right order) 1
  have last : x.place - doublings x.place * placesPerDoubling ≤ 2 * placesPerDoubling := by
    simp only [doublings, placesPerDoubling]
    omega
  rw [units, units, Nat.shiftLeft_eq, Nat.shiftLeft_eq]
  rcases Nat.lt_or_eq_of_le doublingsLe with less | same
  · have first : placesPerDoubling ≤ y.place - doublings y.place * placesPerDoubling := by
      simp only [doublings, placesPerDoubling] at less ⊢
      omega
    calc (x.place - doublings x.place * placesPerDoubling) * 2 ^ doublings x.place
        ≤ 2 * placesPerDoubling * 2 ^ doublings x.place := Nat.mul_le_mul_right _ last
      _ = placesPerDoubling * 2 ^ (doublings x.place + 1) := by ring
      _ ≤ placesPerDoubling * 2 ^ doublings y.place :=
        Nat.mul_le_mul_left _ (Nat.pow_le_pow_right (by decide) less)
      _ ≤ (y.place - doublings y.place * placesPerDoubling) * 2 ^ doublings y.place :=
        Nat.mul_le_mul_right _ first
  · rw [same]
    exact Nat.mul_le_mul_right _ (Nat.sub_le_sub_right order _)

/-- The smaller of two numbers has the earlier place. -/
theorem place_lt_of_magnitude_lt {x y : Binary64} (less : x.magnitude < y.magnitude) :
    x.place < y.place := by
  by_contra order
  have units : (y.units : ℚ) ≤ x.units := by exact_mod_cast units_le_of_place_le (not_lt.mp order)
  exact absurd less (not_lt.mpr (div_le_div_of_nonneg_right units (Nat.cast_nonneg _)))

theorem place_unsignedZero (x : Binary64) : x.unsignedZero.place = x.place := by
  rw [unsignedZero]
  split
  · next isZero => exact (beq_iff_eq.mp isZero).symm
  · rfl

theorem orderKey_le_place (x : Binary64) : x.orderKey ≤ x.place := by
  rw [orderKey]
  split <;> omega

/-- A number that is numerically a positive one has its place as its key. -/
theorem orderKey_of_positive {x y : Binary64} (same : x.unsignedZero = y.unsignedZero)
    (positive : y.negative = false) (nonzero : 0 < y.place) : x.orderKey = y.place := by
  have place : x.place = y.place := by
    rw [← place_unsignedZero x, same, place_unsignedZero]
  have notZero : ∀ {z : Binary64}, 0 < z.place -> z.unsignedZero = z := fun {z} later =>
    if_neg (by simpa [isZero] using later.ne')
  rw [notZero nonzero, notZero (place ▸ nonzero)] at same
  rw [same, orderKey, positive]
  rfl

/-- The number itself. -/
def value (x : Binary64) : ℚ :=
  if x.negative then -x.magnitude else x.magnitude

/-- The total order of numbers: by value, with negative zero below positive zero. -/
def Precedes (x y : Binary64) : Prop :=
  x.value < y.value ∨ x.value = y.value ∧ (y.negative -> x.negative)

/-- Numbers with their keys in order are in order. -/
theorem precedes_of_orderKey_le {x y : Binary64} (order : x.orderKey ≤ y.orderKey) :
    x.Precedes y := by
  have magnitudes : ∀ {left right : Binary64}, left.place ≤ right.place ->
      left.magnitude ≤ right.magnitude := fun {left right} le =>
    not_lt.mp fun less => absurd (place_lt_of_magnitude_lt less) (not_lt.mpr le)
  have atMost : x.value ≤ y.value ∧ (y.negative -> x.negative) := by
    rw [value, value]
    rw [orderKey, orderKey] at order
    cases xSign : x.negative <;> cases ySign : y.negative
    · simp only [xSign, ySign, Bool.false_eq_true, if_false] at order ⊢
      exact ⟨magnitudes (by omega), id⟩
    · simp only [xSign, ySign, Bool.false_eq_true, if_true, if_false] at order
      omega
    · simp only [Bool.false_eq_true, if_true, if_false]
      exact ⟨(neg_nonpos.mpr x.magnitude_nonneg).trans y.magnitude_nonneg, nofun⟩
    · simp only [xSign, ySign, if_true] at order ⊢
      exact ⟨neg_le_neg (magnitudes (by omega)), id⟩
  exact (lt_or_eq_of_le atMost.1).imp_right fun same => ⟨same, atMost.2⟩

/-! ## Sorting by key -/

section Sorting

variable {α : Type} (rank : α -> Binary64)

theorem decide_orderKey_le_trans (first second third : α)
    (lower : decide ((rank first).orderKey ≤ (rank second).orderKey) = true)
    (upper : decide ((rank second).orderKey ≤ (rank third).orderKey) = true) :
    decide ((rank first).orderKey ≤ (rank third).orderKey) = true :=
  decide_eq_true ((of_decide_eq_true lower).trans (of_decide_eq_true upper))

theorem decide_orderKey_le_total (left right : α) :
    (decide ((rank left).orderKey ≤ (rank right).orderKey)
      || decide ((rank right).orderKey ≤ (rank left).orderKey)) = true := by
  simpa using Int.le_total (rank left).orderKey (rank right).orderKey

end Sorting

end Binary64

end LayerRouting
