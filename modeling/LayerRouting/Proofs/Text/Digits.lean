import Mathlib.Algebra.Group.Nat.Defs
import Mathlib.Data.List.Induction
import LayerRouting.Number.Layout
import LayerRouting.Text.Basic

/-!
# Digits read back

The decimal text of a natural number reads as the number (`Text.natural?_decimalDigits`),
also when it is padded with zeros. It is made of ASCII digits and starts with a zero for
zero only.
-/

namespace LayerRouting

/-! ## Lists read item by item -/

section

variable {α β : Type} {read? : α -> Option β}

/-- A list of which every item reads is read as a whole. -/
theorem mapM_eq_some_map {value : α -> β} {items : List α}
    (read : ∀ item ∈ items, read? item = some (value item)) :
    items.mapM read? = some (items.map value) := by
  induction items with
  | nil => rfl
  | cons item rest inductionHypothesis =>
      obtain ⟨first, others⟩ := List.forall_mem_cons.mp read
      simp [List.mapM_cons, first, inductionHypothesis others]

/-- What is read from a list is read from one of its items. -/
theorem exists_of_mem_mapM {items : List α} {values : List β}
    (read : items.mapM read? = some values) :
    ∀ value ∈ values, ∃ item ∈ items, read? item = some value := by
  induction items generalizing values with
  | nil =>
      cases read
      exact List.forall_mem_nil _
  | cons item rest inductionHypothesis =>
      simp only [List.mapM_cons, Option.bind_eq_bind, Option.bind_eq_some_iff] at read
      obtain ⟨first, found, others, later, same⟩ := read
      cases same
      refine List.forall_mem_cons.mpr ⟨⟨item, List.mem_cons_self, found⟩, ?_⟩
      intro value member
      obtain ⟨source, held, known⟩ := inductionHypothesis later value member
      exact ⟨source, List.mem_cons_of_mem _ held, known⟩

/-- A list is read as a whole exactly when every item of it reads. -/
theorem isSome_mapM_iff {items : List α} :
    (items.mapM read?).isSome ↔ ∀ item ∈ items, (read? item).isSome := by
  induction items with
  | nil => simp
  | cons item rest inductionHypothesis =>
      rw [List.forall_mem_cons, ← inductionHypothesis, List.mapM_cons]
      cases read? item <;> cases rest.mapM read? <;> simp

end

/-! ## Numbers of digits -/

/-- One more digit at the end. -/
theorem ofDigits_append_singleton (digits : List Nat) (digit : Nat) :
    ofDigits (digits ++ [digit]) = ofDigits digits * 10 + digit := by
  simp [ofDigits, ofDigitsIn]

/-- Leading zeros do not matter. -/
theorem ofDigits_replicate_zero_append (count : Nat) (digits : List Nat) :
    ofDigits (List.replicate count 0 ++ digits) = ofDigits digits := by
  induction count with
  | zero => rfl
  | succ count inductionHypothesis =>
      rw [List.replicate_succ, List.cons_append, ← inductionHypothesis]
      rfl

theorem ofDigits_append (first second : List Nat) :
    ofDigits (first ++ second) = ofDigits first * 10 ^ second.length + ofDigits second := by
  induction second using List.reverseRecOn with
  | nil => simp [ofDigits, ofDigitsIn]
  | append_singleton before last inductionHypothesis =>
      rw [← List.append_assoc, ofDigits_append_singleton, inductionHypothesis,
        ofDigits_append_singleton, List.length_append, List.length_singleton, pow_succ,
        Nat.add_mul, Nat.mul_assoc, Nat.add_assoc]

/-- Further digits do not make a number less. -/
theorem ofDigits_le_append (first second : List Nat) :
    ofDigits first ≤ ofDigits (first ++ second) := by
  rw [ofDigits_append]
  exact Nat.le_add_right_of_le (Nat.le_mul_of_pos_right _ (Nat.pow_pos (by decide)))

/-- A number is less than the power of ten of its count of digits. -/
theorem ofDigits_lt {digits : List Nat} (small : ∀ digit ∈ digits, digit < 10) :
    ofDigits digits < 10 ^ digits.length := by
  induction digits using List.reverseRecOn with
  | nil => exact Nat.one_pos
  | append_singleton before last inductionHypothesis =>
      have beforeSmall := inductionHypothesis fun digit member =>
        small digit (List.mem_append_left _ member)
      have lastSmall := small last (by simp)
      rw [ofDigits_append_singleton, List.length_append, List.length_singleton, pow_succ]
      omega

namespace Text

theorem digit?_digitChar {value : Nat} (digit : value < 10) :
    digit? value.digitChar = some value := by
  revert value
  decide

/-- The value of an ASCII digit, and zero of any other character. -/
def digitValue (char : Char) : Nat :=
  (digit? char).getD 0

/-- The values of the digits of a number. -/
def digitValues (value : Nat) : List Nat :=
  (decimalDigits value).map digitValue

/-- The digits of a number are those of its tenth and the last one. -/
theorem decimalDigits_of_le {value : Nat} (many : 10 ≤ value) :
    decimalDigits value = decimalDigits (value / 10) ++ [(value % 10).digitChar] :=
  Nat.toDigits_of_base_le (by decide) many

theorem decimalDigits_of_lt {value : Nat} (digit : value < 10) :
    decimalDigits value = [value.digitChar] :=
  Nat.toDigits_of_lt_base digit

/-- The text of a number is made of digits. -/
theorem exists_of_mem_decimalDigits {value : Nat} :
    ∀ char ∈ decimalDigits value, ∃ digit < 10, char = digit.digitChar := by
  induction value using Nat.strongRecOn with
  | ind value inductionHypothesis =>
      intro char member
      by_cases small : value < 10
      · rw [decimalDigits_of_lt small, List.mem_singleton] at member
        exact ⟨value, small, member⟩
      · rw [decimalDigits_of_le (by omega), List.mem_append, List.mem_singleton] at member
        rcases member with before | last
        · exact inductionHypothesis (value / 10) (by omega) char before
        · exact ⟨value % 10, by omega, last⟩

theorem digitValue_digitChar {value : Nat} (digit : value < 10) :
    digitValue value.digitChar = value := by
  rw [digitValue, digit?_digitChar digit]
  rfl

theorem digit?_of_mem_decimalDigits (value : Nat) :
    ∀ char ∈ decimalDigits value, digit? char = some (digitValue char) := by
  intro char member
  obtain ⟨digit, small, rfl⟩ := exists_of_mem_decimalDigits char member
  rw [digitValue_digitChar small, digit?_digitChar small]

/-- The text of a number is made of ASCII digits. -/
theorem isDigit_of_mem_decimalDigits {value : Nat} {char : Char}
    (member : char ∈ decimalDigits value) : isDigit char := by
  rw [isDigit, digit?_of_mem_decimalDigits value char member, Option.isSome_some]

/-- The text of a number starts with nothing else, no sign in particular. -/
theorem decimalDigits_ne_cons {char : Char} (other : ¬ isDigit char) (value : Nat)
    (rest : List Char) : decimalDigits value ≠ char :: rest :=
  fun text => other (isDigit_of_mem_decimalDigits (text ▸ List.mem_cons_self))

/-- The digits of a number denote it. -/
theorem ofDigits_digitValues (value : Nat) : ofDigits (digitValues value) = value := by
  induction value using Nat.strongRecOn with
  | ind value inductionHypothesis =>
      by_cases digit : value < 10
      · rw [digitValues, decimalDigits_of_lt digit, List.map_singleton, digitValue_digitChar digit]
        exact Nat.zero_add value
      · have before := inductionHypothesis (value / 10) (by omega)
        rw [digitValues] at before ⊢
        rw [decimalDigits_of_le (by omega), List.map_append, List.map_singleton,
          ofDigits_append_singleton, before, digitValue_digitChar (by omega)]
        omega

/-- The text of a number starts with a zero for zero only. -/
theorem head_digitValues_ne_zero {value : Nat} (positive : 0 < value) :
    ∃ digit rest, digitValues value = digit :: rest ∧ digit ≠ 0 := by
  induction value using Nat.strongRecOn with
  | ind value inductionHypothesis =>
      by_cases small : value < 10
      · refine ⟨value, [], ?_, by omega⟩
        rw [digitValues, decimalDigits_of_lt small, List.map_singleton, digitValue_digitChar small]
      · obtain ⟨digit, rest, found, nonzero⟩ :=
          inductionHypothesis (value / 10) (by omega) (by omega)
        refine ⟨digit, rest ++ [digitValue (value % 10).digitChar], ?_, nonzero⟩
        rw [digitValues] at found ⊢
        rw [decimalDigits_of_le (by omega), List.map_append, found]
        rfl

theorem decimalDigits_ne_nil (value : Nat) : decimalDigits value ≠ [] :=
  Nat.toDigits_ne_nil

/-- The text of a number that is below a power of ten is no longer than its exponent. -/
theorem length_decimalDigits_le {value width : Nat} (positive : 0 < width)
    (small : value < 10 ^ width) : (decimalDigits value).length ≤ width :=
  (Nat.length_toDigits_le_iff (by decide) positive).mpr small

/-! ## Reading -/

/-- The text of a number reads as the number. -/
theorem natural?_decimalDigits (value : Nat) : natural? (decimalDigits value) = some value := by
  rw [natural?, if_neg (decimalDigits_ne_nil value),
    mapM_eq_some_map (digit?_of_mem_decimalDigits value), Option.map_some]
  exact congrArg some (ofDigits_digitValues value)

/-- The text of a number below a limit reads as the number. -/
theorem unsigned?_decimalDigits {limit value : Nat} (small : value < limit) :
    unsigned? limit (decimalDigits value) = some value := by
  rw [unsigned?]
  · rw [natural?_decimalDigits, Option.filter_some, if_pos (by simpa using small)]
  · exact decimalDigits_ne_cons (by decide) value

/-- The text of a whole number, with its sign if it is negative, reads as the number. -/
theorem signed?_integerText (value : Int) : signed? (integerText value) = some value := by
  rw [integerText]
  split
  · next negative =>
      rw [signed?, natural?_decimalDigits, Option.map_some, Int.ofNat_eq_natCast,
        Int.ofNat_natAbs_of_nonpos (Int.le_of_lt negative), Int.neg_neg]
  · next nonnegative =>
      rw [signed?]
      · rw [natural?_decimalDigits, Option.map_some, Int.ofNat_eq_natCast,
          Int.natAbs_of_nonneg (Int.not_lt.mp nonnegative)]
      · exact decimalDigits_ne_cons (by decide) value.natAbs
      · exact decimalDigits_ne_cons (by decide) value.natAbs

/-- What a text that reads as a natural number is: digits, which denote the number. -/
theorem natural?_eq_some_iff {text : List Char} {value : Nat} :
    natural? text = some value
      ↔ text ≠ [] ∧ (∀ char ∈ text, isDigit char) ∧ ofDigits (text.map digitValue) = value := by
  by_cases empty : text = []
  · simp [natural?, empty]
  · rw [natural?, if_neg empty, and_iff_right empty]
    by_cases digits : ∀ char ∈ text, isDigit char
    · have read : ∀ char ∈ text, digit? char = some (digitValue char) := by
        intro char member
        obtain ⟨digit, known⟩ := Option.isSome_iff_exists.mp (digits char member)
        rw [digitValue, known, Option.getD_some]
      rw [mapM_eq_some_map read, Option.map_some, Option.some_inj, and_iff_right digits]
    · have unread : text.mapM digit? = none := by
        rwa [← Option.not_isSome_iff_eq_none, isSome_mapM_iff]
      simp [unread, digits]

end Text

end LayerRouting
