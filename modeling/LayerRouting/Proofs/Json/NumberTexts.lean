import LayerRouting.Proofs.Json.Numerals
import LayerRouting.Proofs.Number.Shortest

/-!
# Numbers as they are read again

A number is written as a numeral, whole numbers by their digits and binary64 numbers by their
shortest decimal (`Decimal.exists_writtenAs`). Reading the numeral always gives a number
(`Number.exists_reread?`): the text of a finite number is within range, although three
roundings stand between the text and what is read. That number is `Number.reread`.
-/

namespace LayerRouting

/-! ## Numerals within range -/

/-- Digits whose number fits into a word are all taken into it. -/
theorem absorbDigits_of_fits {before digits : List Nat}
    (fits : ofDigits (before ++ digits) ≤ greatestWord) :
    absorbDigits (ofDigits before) digits = (ofDigits (before ++ digits), digits.length) := by
  induction digits generalizing before with
  | nil =>
      rw [List.append_nil]
      rfl
  | cons digit rest inductionHypothesis =>
      rw [← List.singleton_append, ← List.append_assoc] at fits ⊢
      have first : ofDigits before * 10 + digit ≤ greatestWord := by
        rw [← ofDigits_append_singleton]
        exact (ofDigits_le_append _ _).trans fits
      rw [List.singleton_append, absorbDigits, if_pos first, ← ofDigits_append_singleton,
        inductionHypothesis fits]
      rfl

namespace Numeral

namespace AreDigits

variable {digits more : List Nat}

theorem append (are : AreDigits digits) (small : ∀ digit ∈ more, digit < 10) :
    AreDigits (digits ++ more) :=
  ⟨List.append_ne_nil_of_left_ne_nil are.some _, List.forall_mem_append.mpr ⟨are.small, small⟩⟩

theorem prepend (are : AreDigits digits) (small : ∀ digit ∈ more, digit < 10) :
    AreDigits (more ++ digits) :=
  ⟨List.append_ne_nil_of_right_ne_nil _ are.some, List.forall_mem_append.mpr ⟨small, are.small⟩⟩

theorem take (are : AreDigits digits) {count : Nat} (positive : 0 < count) :
    AreDigits (digits.take count) :=
  ⟨fun none => (List.take_eq_nil_iff.mp none).elim positive.ne' are.some,
    fun digit member => are.small digit (List.mem_of_mem_take member)⟩

theorem drop (are : AreDigits digits) {count : Nat} (left : count < digits.length) :
    AreDigits (digits.drop count) :=
  ⟨fun none => absurd (List.drop_eq_nil_iff.mp none) (not_le.mpr left),
    fun digit member => are.small digit (List.mem_of_mem_drop member)⟩

end AreDigits

theorem areDigits_zero : AreDigits [0] :=
  ⟨List.cons_ne_nil _ _, by decide⟩

/-- The digits before and after the point of a numeral. -/
def significant (numeral : Numeral) : List Nat :=
  numeral.whole ++ numeral.fraction.getD []

/-- The power of ten that the last digit of a numeral counts. -/
def lastExponent (numeral : Numeral) : Int :=
  numeral.writtenExponent - (numeral.fraction.getD []).length

/-- A numeral of not too many digits is its digits scaled by a power of ten. -/
theorem binary64?_of_fits {numeral : Numeral} (fits : ofDigits numeral.significant ≤ greatestWord) :
    numeral.binary64? = (Binary64.scaleWord? (ofDigits numeral.significant) numeral.lastExponent).map
      (·.withSign numeral.negative) := by
  have whole : ofDigits ([] ++ numeral.whole) ≤ greatestWord :=
    (ofDigits_le_append _ _).trans fits
  have wholeTaken : absorbDigits 0 numeral.whole = (ofDigits numeral.whole, numeral.whole.length) :=
    absorbDigits_of_fits whole
  have exponent : ((numeral.whole.length : Int) - numeral.whole.length
      - (numeral.fraction.getD []).length + numeral.writtenExponent) = numeral.lastExponent := by
    rw [lastExponent]
    omega
  rw [significant] at fits ⊢
  simp only [binary64?, wholeTaken, absorbDigits_of_fits fits, exponent]

/-- A numeral with a fraction or an exponent is not a whole number. -/
theorem value?_of_binary64 {numeral : Numeral}
    (inexact : numeral.fraction ≠ none ∨ numeral.exponent ≠ none) :
    numeral.value? = numeral.binary64?.map .float := by
  have whole : numeral.wholeNumber? = none := by
    rw [wholeNumber?]
    split
    · next fraction exponent => simp [fraction, exponent] at inexact
    · rfl
  rw [value?, whole]

end Numeral

/-! ## Texts of decimals -/

namespace Decimal

/-- What the text of a decimal is: a numeral that is not written like a whole number. Either
it shows digits after the point, or it is the significand with the exponent. -/
structure WrittenAs (decimal : Decimal) (text : List Char) (numeral : Numeral) : Prop where
  chars : numeral.unsignedChars = text
  formed : numeral.IsWellFormed
  inexact : numeral.fraction ≠ none ∨ numeral.exponent ≠ none
  few : ofDigits numeral.significant ≤ greatestWord
  scaled : numeral.lastExponent < 0
    ∨ 0 < decimal.significand ∧ ofDigits numeral.significant = decimal.significand
      ∧ numeral.lastExponent = decimal.exponent

variable {decimal : Decimal}

open Numeral

theorem lt_ten_of_mem_replicate {count digit : Nat} (member : digit ∈ List.replicate count 0) :
    digit < 10 := by
  rw [List.eq_of_mem_replicate member]
  decide

theorem digitChars_replicate_zero (count : Nat) :
    digitChars (List.replicate count 0) = List.replicate count '0' :=
  List.map_replicate

theorem digitChars_append (first second : List Nat) :
    digitChars (first ++ second) = digitChars first ++ digitChars second :=
  List.map_append

theorem length_digitValues (value : Nat) :
    (Text.digitValues value).length = (decimalDigits value).length :=
  List.length_map _

/-- The exponent of the first digit of a decimal. -/
def leading (decimal : Decimal) : Int :=
  decimal.exponent + (decimalDigits decimal.significand).length - 1

/-- A decimal below one has zeros after the point. -/
theorem writtenAs_below (few : decimal.significand ≤ greatestWord) (below : decimal.leading < 0)
    (negative : Bool) :
    decimal.WrittenAs
      (Layout.standard.positional (decimalDigits decimal.significand) (decimal.leading + 1))
      { negative, whole := [0], exponent := none
        fraction := some (List.replicate (-(decimal.leading + 1)).toNat 0
          ++ Text.digitValues decimal.significand) } where
  chars := by
    rw [Layout.positional, if_pos (by omega), unsignedChars, fractionChars, exponentChars,
      digitChars_append, digitChars_replicate_zero, Text.digitChars_digitValues, List.append_nil]
    rfl
  formed := {
    whole := areDigits_zero
    leading := by simp
    fraction := by
      rintro digits ⟨⟩
      exact (Text.areDigits_digitValues _).prepend fun digit => lt_ten_of_mem_replicate
    exponent := nofun }
  inexact := .inl (Option.some_ne_none _)
  few := by
    have zeros : ∀ digits, ofDigits ([0] ++ digits) = ofDigits digits :=
      ofDigits_replicate_zero_append 1
    rw [significant, Option.getD_some, zeros, ofDigits_replicate_zero_append,
      Text.ofDigits_digitValues]
    exact few
  scaled := by
    left
    have some := List.length_pos_iff.mpr (Text.decimalDigits_ne_nil decimal.significand)
    rw [lastExponent, Option.getD_some, List.length_append, length_digitValues]
    simp only [writtenExponent]
    omega

/-- A whole number shows a zero after the point. -/
theorem writtenAs_whole (zero : decimal.significand = 0 -> decimal.exponent = 0)
    (whole : (decimalDigits decimal.significand).length ≤ decimal.leading + 1)
    (most : decimal.leading ≤ 15) (negative : Bool) :
    decimal.WrittenAs
      (Layout.standard.positional (decimalDigits decimal.significand) (decimal.leading + 1))
      { negative, exponent := none, fraction := some [0]
        whole := Text.digitValues decimal.significand ++ List.replicate
          ((decimal.leading + 1).toNat - (decimalDigits decimal.significand).length) 0 } where
  chars := by
    have some := List.length_pos_iff.mpr (Text.decimalDigits_ne_nil decimal.significand)
    rw [Layout.positional, if_neg (by omega), if_pos whole, unsignedChars, fractionChars,
      exponentChars, digitChars_append, digitChars_replicate_zero, Text.digitChars_digitValues,
      List.append_nil]
    rfl
  formed := {
    whole := (Text.areDigits_digitValues _).append fun digit => lt_ten_of_mem_replicate
    leading := by
      intro rest same
      obtain ⟨none, -⟩ | ⟨others, digits, rfl⟩ := List.append_eq_cons_iff.mp same
      · exact absurd none (Text.areDigits_digitValues _).some
      · have none := Text.eq_zero_of_digitValues digits
        have single : decimal.leading = 0 := by
          rw [leading, zero none, none]
          rfl
        rw [Text.eq_nil_of_digitValues others digits, single, none]
        rfl
    fraction := by
      rintro digits ⟨⟩
      exact areDigits_zero
    exponent := nofun }
  inexact := .inl (Option.some_ne_none _)
  few := by
    have limit : 10 ^ 17 ≤ greatestWord := by decide
    refine ((ofDigits_lt ?_).trans_le (Nat.pow_le_pow_right (by decide) ?_)).le.trans limit
    · exact (((Text.areDigits_digitValues _).append fun digit => lt_ten_of_mem_replicate).append
        areDigits_zero.small).small
    · rw [significant, Option.getD_some, List.length_append, List.length_append,
        List.length_replicate, List.length_singleton, length_digitValues]
      omega
  scaled := .inl (by simp [lastExponent, writtenExponent])

/-- A decimal whose point stands within its digits. -/
theorem writtenAs_split (few : decimal.significand ≤ greatestWord) (least : 0 ≤ decimal.leading)
    (within : decimal.leading + 1 < (decimalDigits decimal.significand).length)
    (negative : Bool) :
    decimal.WrittenAs
      (Layout.standard.positional (decimalDigits decimal.significand) (decimal.leading + 1))
      { negative, exponent := none
        whole := (Text.digitValues decimal.significand).take (decimal.leading + 1).toNat
        fraction := some ((Text.digitValues decimal.significand).drop
          (decimal.leading + 1).toNat) } where
  chars := by
    rw [Layout.positional, if_neg (by omega), if_neg (by omega), unsignedChars, fractionChars,
      exponentChars, List.append_nil]
    rw [← Text.digitChars_digitValues, digitChars, digitChars, digitChars, List.map_take,
      List.map_drop]
  formed := {
    whole := (Text.areDigits_digitValues _).take (by omega)
    leading := by
      intro rest same
      have digits := List.take_append_drop (decimal.leading + 1).toNat
        (Text.digitValues decimal.significand)
      rw [show List.take _ _ = 0 :: rest from same] at digits
      rw [Text.eq_zero_of_digitValues digits.symm] at within
      have one : (decimalDigits 0).length = 1 := rfl
      omega
    fraction := by
      rintro digits ⟨⟩
      refine (Text.areDigits_digitValues _).drop ?_
      rw [length_digitValues]
      omega
    exponent := nofun }
  inexact := .inl (Option.some_ne_none _)
  few := by
    rw [significant, Option.getD_some, List.take_append_drop, Text.ofDigits_digitValues]
    exact few
  scaled := by
    left
    rw [lastExponent, Option.getD_some, List.length_drop, length_digitValues]
    simp only [writtenExponent]
    omega

/-- The digits after the first one, if there are more. -/
def further? (digits : List Nat) : Option (List Nat) :=
  if digits = [] then none else some digits

theorem getD_further? (digits : List Nat) : (further? digits).getD [] = digits := by
  rw [further?]
  split
  · next none => exact none.symm
  · rfl

/-- A decimal with an exponent has a point after the first digit if there are more. -/
theorem writtenAs_scientific (few : decimal.significand ≤ greatestWord)
    (positive : 0 < decimal.significand) (negative : Bool) {first : Nat} {rest : List Nat}
    (digits : Text.digitValues decimal.significand = first :: rest) :
    decimal.WrittenAs
      (Layout.standard.scientific (decimalDigits decimal.significand) decimal.leading)
      { negative, whole := [first], fraction := further? rest
        exponent := some (decide (decimal.leading < 0),
          Text.digitValues decimal.leading.natAbs) } where
  chars := by
    rw [← Text.digitChars_digitValues, digits]
    cases rest <;> by_cases below : decimal.leading < 0 <;>
      simp [unsignedChars, further?, Layout.scientific, digitChars, fractionChars, exponentChars,
        below, Layout.standard, ← Text.digitChars_digitValues]
  formed := {
    whole := by
      have take := (Text.areDigits_digitValues decimal.significand).take Nat.one_pos
      rwa [digits] at take
    leading := by simp
    fraction := by
      intro others same
      simp only [further?] at same
      split at same
      · cases same
      · next some =>
          cases same
          have drop := (Text.areDigits_digitValues decimal.significand).small
          rw [digits] at drop
          exact ⟨some, (List.forall_mem_cons.mp drop).2⟩
    exponent := by
      rintro negative digits ⟨⟩
      exact Text.areDigits_digitValues _ }
  inexact := .inr (Option.some_ne_none _)
  few := by
    rw [significant, getD_further?, List.singleton_append, ← digits, Text.ofDigits_digitValues]
    exact few
  scaled := by
    right
    have length : (decimalDigits decimal.significand).length = rest.length + 1 := by
      rw [← length_digitValues, digits, List.length_cons]
    refine ⟨positive, ?_, ?_⟩
    · rw [significant, getD_further?, List.singleton_append, ← digits, Text.ofDigits_digitValues]
    · have shown : writtenExponent ⟨negative, [first], further? rest,
          some (decide (decimal.leading < 0), Text.digitValues decimal.leading.natAbs)⟩
            = decimal.leading := by
        by_cases below : decimal.leading < 0
        · simp only [writtenExponent, decide_eq_true below, Text.ofDigits_digitValues]
          omega
        · simp only [writtenExponent, decide_eq_false below, Text.ofDigits_digitValues]
          omega
      rw [lastExponent, getD_further?, shown, leading]
      omega

/-- The text of a decimal is a numeral, with either sign. -/
theorem exists_writtenAs (few : decimal.significand ≤ greatestWord)
    (zero : decimal.significand = 0 -> decimal.exponent = 0) (negative : Bool) :
    ∃ numeral, numeral.negative = negative
      ∧ decimal.WrittenAs (Layout.standard.decimal decimal) numeral := by
  have text : Layout.standard.decimal decimal
      = if -5 ≤ decimal.leading ∧ decimal.leading ≤ 15 then
          Layout.standard.positional (decimalDigits decimal.significand) (decimal.leading + 1)
        else Layout.standard.scientific (decimalDigits decimal.significand) decimal.leading := rfl
  rw [text]
  split
  · next window =>
      by_cases below : decimal.leading < 0
      · exact ⟨_, rfl, writtenAs_below few below negative⟩
      · by_cases whole : (decimalDigits decimal.significand).length ≤ decimal.leading + 1
        · exact ⟨_, rfl, writtenAs_whole zero whole window.2 negative⟩
        · exact ⟨_, rfl, writtenAs_split few (by omega) (by omega) negative⟩
  · next window =>
      have positive : 0 < decimal.significand := by
        by_contra none
        have none : decimal.significand = 0 := by omega
        refine window ?_
        rw [leading, zero none, none]
        decide
      obtain ⟨first, rest, digits, -⟩ := Text.head_digitValues_ne_zero positive
      exact ⟨_, rfl, writtenAs_scientific few positive negative digits⟩

end Decimal

/-! ## Reading numbers again -/

namespace Number

/-- The number that the text of a number reads as. -/
def reread? (number : Number) : Option Number :=
  match Written.readNumeral (Content.ofChars (Json.numberText number)) with
  | some (numeral, []) => numeral.value?
  | _ => none

theorem reread?_eq_some_iff {number value : Number} :
    number.reread? = some value ↔ ∃ numeral,
      Written.readNumeral (Content.ofChars (Json.numberText number)) = some (numeral, [])
        ∧ numeral.value? = some value := by
  rw [reread?]
  split
  · next numeral found => simp [found]
  · next other =>
      constructor
      · nofun
      · rintro ⟨numeral, found, -⟩
        exact absurd found (other numeral)

/-- The text of a binary64 number that is not among the last three reads as one. -/
theorem exists_reread?_of_room {x : Binary64} (room : x.place < 0x7FF0000000000000 - 3) :
    ∃ y, reread? (.float x) = some (.float y) := by
  have near := x.isNear_shortest
  have few : x.shortest.significand ≤ greatestWord := near.few.trans (by decide)
  obtain ⟨numeral, sign, writes⟩ := Decimal.exists_writtenAs few near.zero x.negative
  have text : Json.numberText (.float x) = numeral.chars := by
    rw [Json.numberText, Layout.binary64, Numeral.chars, writes.chars, sign]
  have scaled : ∃ y, Binary64.scaleWord? (ofDigits numeral.significant) numeral.lastExponent
      = some y := by
    rw [Binary64.scaleWord?]
    obtain small | ⟨positive, significand, exponent⟩ := writes.scaled
    · exact ⟨_, if_neg (by omega)⟩
    · split
      · next natural =>
          obtain ⟨raised, same⟩ := Int.eq_ofNat_of_zero_le natural
          rw [same] at exponent ⊢
          rw [significand]
          exact near.exists_multiplyByTens? room positive exponent.symm
      · exact ⟨_, rfl⟩
  obtain ⟨y, found⟩ := scaled
  refine ⟨y.withSign numeral.negative, reread?_eq_some_iff.mpr ⟨numeral, ?_, ?_⟩⟩
  · rw [text, Written.readNumeral_chars writes.formed]
  · rw [Numeral.value?_of_binary64 writes.inexact, Numeral.binary64?_of_fits writes.few, found]
    rfl

/-- The binary64 number that a number is. -/
def float? : Number -> Option Binary64
  | .int _ => none
  | .float x => some x

/-- The three greatest numbers leave no room for what three roundings may add, but their texts
read as binary64 numbers as well. -/
theorem exists_reread?_greatest (negative : Bool) {place : Nat}
    (few : 0x7FF0000000000000 - 3 ≤ place) (finite : place < 0x7FF0000000000000) :
    ∃ y, reread? (.float { negative, place, finite }) = some (.float y) := by
  have read : ((reread? (.float { negative, place, finite })).bind float?).isSome := by
    obtain rfl | rfl | rfl : place = 0x7FEFFFFFFFFFFFFD ∨ place = 0x7FEFFFFFFFFFFFFE
        ∨ place = 0x7FEFFFFFFFFFFFFF := by omega
    all_goals revert finite; cases negative <;> decide +kernel
  obtain ⟨y, found⟩ := Option.isSome_iff_exists.mp read
  obtain ⟨value, value?, same⟩ := Option.bind_eq_some_iff.mp found
  cases value with
  | int => cases same
  | float => exact ⟨_, value?⟩

/-- The text of a binary64 number reads as a binary64 number. -/
theorem exists_reread?_float (x : Binary64) : ∃ y, reread? (.float x) = some (.float y) := by
  by_cases room : x.place < 0x7FF0000000000000 - 3
  · exact exists_reread?_of_room room
  · exact exists_reread?_greatest x.negative (by omega) x.finite

/-- The text of a number reads as a number. -/
theorem exists_reread? (number : Number) : ∃ value, number.reread? = some value := by
  cases number with
  | int value => exact ⟨_, reread?_eq_some_iff.mpr (readsBack_int value)⟩
  | float x =>
      obtain ⟨y, read⟩ := exists_reread?_float x
      exact ⟨_, read⟩

/-- The number that a number becomes when it is written and read again. -/
def reread (number : Number) : Number :=
  number.reread?.getD number

/-- The text of a number is a numeral of the number that it becomes. -/
theorem exists_readNumeral (number : Number) :
    ∃ numeral, Written.readNumeral (Content.ofChars (Json.numberText number)) = some (numeral, [])
      ∧ numeral.value? = some number.reread := by
  obtain ⟨value, found⟩ := number.exists_reread?
  rw [reread, found, Option.getD_some]
  exact reread?_eq_some_iff.mp found

/-- A number reads back when it becomes itself. -/
theorem readsBack_iff_reread_eq {number : Number} : number.ReadsBack ↔ number.reread = number := by
  obtain ⟨value, found⟩ := number.exists_reread?
  rw [ReadsBack, ← reread?_eq_some_iff, reread, found, Option.getD_some, Option.some_inj]

end Number

end LayerRouting
