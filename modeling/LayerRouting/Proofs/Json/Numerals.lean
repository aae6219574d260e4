import LayerRouting.Json.Parser
import LayerRouting.Json.Printer
import LayerRouting.Proofs.Text.Digits
import Mathlib.Tactic.ByContra

/-!
# Numbers read back

A number that stands before something else reads as it would alone, as long as what follows
does not go on with the number (`Written.readNumeral_append`). The text of a whole number
always reads back. The text of a binary64 number is read with more than one rounding, so it
need not; `Number.ReadsBack` says of a number that it does.
-/

namespace LayerRouting

namespace Written

theorem ofChars_append (first second : List Char) :
    Content.ofChars (first ++ second) = Content.ofChars first ++ Content.ofChars second :=
  List.map_append

theorem ofChars_cons (char : Char) (rest : List Char) :
    Content.ofChars (char :: rest) = .char char :: Content.ofChars rest :=
  rfl

/-! ## What follows a number -/

/-- Whether contents do not go on with a number that stands before them. -/
def EndsNumber (content : Content) : Prop :=
  ∀ unit ∈ content.head?, digit? unit = none ∧ unit ≠ .char '.' ∧ unit ≠ .char 'e'
    ∧ unit ≠ .char 'E'

theorem endsNumber_nil : EndsNumber [] :=
  nofun

theorem endsNumber_cons {char : Char} {rest : Content}
    (other : Text.digit? char = none ∧ char ≠ '.' ∧ char ≠ 'e' ∧ char ≠ 'E') :
    EndsNumber (.char char :: rest) := by
  rintro unit same
  cases same
  simpa [digit?, TextUnit.char?] using other

variable {content rest : Content}

/-- Whether contents do not go on with digits that stand before them. -/
def EndsDigits (content : Content) : Prop :=
  ∀ unit ∈ content.head?, digit? unit = none

theorem EndsNumber.endsDigits (ends : EndsNumber rest) : EndsDigits rest :=
  fun unit first => (ends unit first).1

theorem endsDigits_cons {char : Char} (other : Text.digit? char = none) :
    EndsDigits (.char char :: rest) := by
  rintro unit same
  cases same
  simpa [digit?, TextUnit.char?] using other

theorem readDigits_of_endsDigits (ends : EndsDigits rest) : readDigits rest = ([], rest) := by
  cases rest with
  | nil => rfl
  | cons unit rest =>
      have other : digit? unit = none := ends unit rfl
      simp [readDigits, other]

/-- Digits end where the contents do that they stand in. -/
theorem readDigits_append (ends : EndsDigits rest) (content : Content) :
    readDigits (content ++ rest) = ((readDigits content).1, (readDigits content).2 ++ rest) := by
  induction content with
  | nil => exact readDigits_of_endsDigits ends
  | cons unit others inductionHypothesis =>
      rw [List.cons_append, readDigits, readDigits, inductionHypothesis]
      cases digit? unit <;> rfl

/-- Digits of which there must be one. -/
def someDigits? (found : List Nat × Content) : Option (List Nat × Content) :=
  if found.1 = [] then none else some found

theorem someDigits?_append {digits : List Nat} {after : Content}
    (ends : EndsDigits rest) (read : someDigits? (readDigits content) = some (digits, after)) :
    someDigits? (readDigits (content ++ rest)) = some (digits, after ++ rest) := by
  rw [someDigits?] at read
  split at read
  · cases read
  · next found =>
      have same := Option.some.inj read
      rw [readDigits_append ends, someDigits?, same, if_neg]
      rwa [same] at found

theorem readWhole_of_ne {unit : TextUnit} (nonzero : unit ≠ .char '0') (others : Content) :
    readWhole (unit :: others) = someDigits? (readDigits (unit :: others)) := by
  rw [readWhole, someDigits?]
  · split
    · next found => simp [found]
    · next found =>
        rw [if_neg]
        rintro none
        exact found _ (Prod.ext none rfl)
  · rintro rest same
    exact nonzero (List.cons.inj same).1

theorem readWhole_append (ends : EndsDigits rest) {digits : List Nat} {after : Content}
    (read : readWhole content = some (digits, after)) :
    readWhole (content ++ rest) = some (digits, after ++ rest) := by
  cases content with
  | nil => simp [readWhole, readDigits] at read
  | cons unit others =>
      by_cases zero : unit = .char '0'
      · subst zero
        simp only [readWhole, Option.some.injEq, Prod.mk.injEq] at read
        obtain ⟨rfl, rfl⟩ := read
        rfl
      · rw [readWhole_of_ne zero] at read
        rw [List.cons_append, readWhole_of_ne zero]
        exact someDigits?_append ends read

theorem readFraction_point (others : Content) :
    readFraction (.char '.' :: others)
      = (someDigits? (readDigits others)).map fun (digits, after) => (some digits, after) := by
  rw [readFraction, someDigits?]
  split
  · next found => simp [found]
  · next digits after unread found =>
      rw [found, if_neg unread]
      rfl

theorem readFraction_of_ne (plain : ∀ unit ∈ content.head?, unit ≠ .char '.') :
    readFraction content = some (none, content) := by
  rw [readFraction]
  rintro rest rfl
  exact plain _ rfl rfl

theorem readFraction_append (ends : EndsNumber rest) {digits : Option (List Nat)} {after : Content}
    (read : readFraction content = some (digits, after)) :
    readFraction (content ++ rest) = some (digits, after ++ rest) := by
  cases content with
  | nil =>
      cases read
      exact readFraction_of_ne fun unit first => (ends unit first).2.1
  | cons unit others =>
      by_cases point : unit = .char '.'
      · subst point
        rw [readFraction_point, Option.map_eq_some_iff] at read
        obtain ⟨⟨found, left⟩, read, same⟩ := read
        cases same
        rw [List.cons_append, readFraction_point, someDigits?_append ends.endsDigits read]
        rfl
      · have plain : ∀ others, readFraction (unit :: others) = some (none, unit :: others) := by
          intro others
          refine readFraction_of_ne ?_
          rintro _ ⟨⟩
          exact point
        rw [plain] at read
        cases read
        exact plain _

/-- The mark of an exponent. -/
def IsExponentMark (unit : TextUnit) : Prop :=
  unit = .char 'e' ∨ unit = .char 'E'

theorem readExponent_mark {mark : TextUnit} (isMark : IsExponentMark mark) (others : Content) :
    readExponent (mark :: others)
      = (someDigits? (readDigits (readExponentSign others).2)).map fun (digits, after) =>
          (some ((readExponentSign others).1, digits), after) := by
  rcases found : readDigits (readExponentSign others).2 with ⟨_ | ⟨digit, digits⟩, after⟩
  · rcases isMark with rfl | rfl <;> simp [readExponent, someDigits?, found]
  · rcases isMark with rfl | rfl <;> simp [readExponent, someDigits?, found]

theorem readExponent_of_ne (plain : ∀ unit ∈ content.head?, ¬ IsExponentMark unit) :
    readExponent content = some (none, content) := by
  rw [readExponent]
  · rintro rest rfl
    exact plain _ rfl (.inl rfl)
  · rintro rest rfl
    exact plain _ rfl (.inr rfl)

theorem readExponentSign_append (unit : TextUnit) (others rest : Content) :
    readExponentSign (unit :: others ++ rest)
      = ((readExponentSign (unit :: others)).1, (readExponentSign (unit :: others)).2 ++ rest) := by
  by_cases minus : unit = .char '-'
  · subst minus
    rfl
  · by_cases plus : unit = .char '+'
    · subst plus
      rfl
    · simp [readExponentSign, minus, plus]

theorem readExponent_append (ends : EndsNumber rest) {exponent : Option (Bool × List Nat)}
    {after : Content} (read : readExponent content = some (exponent, after)) :
    readExponent (content ++ rest) = some (exponent, after ++ rest) := by
  cases content with
  | nil =>
      cases read
      refine readExponent_of_ne fun unit first mark => ?_
      obtain ⟨-, -, small, capital⟩ := ends unit first
      exact mark.elim small capital
  | cons unit others =>
      by_cases mark : IsExponentMark unit
      · rw [readExponent_mark mark, Option.map_eq_some_iff] at read
        obtain ⟨⟨found, left⟩, read, same⟩ := read
        cases same
        rw [List.cons_append, readExponent_mark mark]
        cases others with
        | nil => simp [readExponentSign, readDigits, someDigits?] at read
        | cons sign digits =>
            rw [readExponentSign_append, someDigits?_append ends.endsDigits read]
            rfl
      · have plain : ∀ others, readExponent (unit :: others) = some (none, unit :: others) := by
          intro others
          refine readExponent_of_ne ?_
          rintro _ ⟨⟩
          exact mark
        rw [plain] at read
        cases read
        exact plain _

theorem readUnsigned_append (ends : EndsNumber rest) {negative : Bool} {numeral : Numeral}
    {after : Content} (read : readUnsigned negative content = some (numeral, after)) :
    readUnsigned negative (content ++ rest) = some (numeral, after ++ rest) := by
  simp only [readUnsigned, Option.bind_eq_bind, Option.bind_eq_some_iff] at read
  obtain ⟨⟨whole, afterWhole⟩, readsWhole, ⟨fraction, afterFraction⟩, readsFraction,
    ⟨exponent, last⟩, readsExponent, same⟩ := read
  cases same
  simp [readUnsigned, readWhole_append ends.endsDigits readsWhole,
    readFraction_append ends readsFraction, readExponent_append ends readsExponent]

/-- A number that starts with no minus sign. -/
theorem readNumeral_of_ne {unit : TextUnit} (plain : unit ≠ .char '-') (others : Content) :
    readNumeral (unit :: others) = readUnsigned false (unit :: others) := by
  rw [readNumeral]
  rintro rest same
  exact plain (List.cons.inj same).1

/-- A number reads the same before something that does not go on with it. -/
theorem readNumeral_append (ends : EndsNumber rest) {numeral : Numeral} {after : Content}
    (read : readNumeral content = some (numeral, after)) :
    readNumeral (content ++ rest) = some (numeral, after ++ rest) := by
  cases content with
  | nil => simp [readNumeral, readUnsigned, readWhole, readDigits] at read
  | cons unit others =>
      by_cases minus : unit = .char '-'
      · subst minus
        exact readUnsigned_append ends read
      · rw [readNumeral_of_ne minus] at read
        rw [List.cons_append, readNumeral_of_ne minus]
        exact readUnsigned_append ends read

/-- A number starts with a minus sign or a digit. -/
theorem exists_head_of_readNumeral {found : Numeral × Content}
    (read : readNumeral content = some found) :
    ∃ char others, content = .char char :: others ∧ (char = '-' ∨ Text.isDigit char) := by
  cases content with
  | nil => simp [readNumeral, readUnsigned, readWhole, readDigits] at read
  | cons unit others =>
      by_cases minus : unit = .char '-'
      · exact ⟨'-', others, by rw [minus], .inl rfl⟩
      · have digit : (digit? unit).isSome := by
          by_contra other
          have nonzero : unit ≠ .char '0' := by
            rintro rfl
            exact other (by decide)
          simp [readNumeral_of_ne minus, readUnsigned, readWhole_of_ne nonzero, readDigits,
            someDigits?, Option.not_isSome_iff_eq_none.mp other] at read
        cases unit with
        | char char => exact ⟨char, others, rfl, .inr digit⟩
        | stray byte => cases digit

end Written

/-! ## Numerals as text -/

namespace Numeral

/-- The digits of a part of a numeral, of which there is one. -/
structure AreDigits (digits : List Nat) : Prop where
  some : digits ≠ []
  small : ∀ digit ∈ digits, digit < 10

/-- Whether a numeral is in the form in which numbers are written: no part is empty, and only
a single zero starts with a zero. -/
structure IsWellFormed (numeral : Numeral) : Prop where
  whole : AreDigits numeral.whole
  leading : ∀ rest, numeral.whole = 0 :: rest -> rest = []
  fraction : ∀ digits, numeral.fraction = some digits -> AreDigits digits
  exponent : ∀ negative digits, numeral.exponent = some (negative, digits) -> AreDigits digits

/-- Digits as text. -/
def digitChars (digits : List Nat) : List Char :=
  digits.map Nat.digitChar

/-- The text of a fraction. -/
def fractionChars : Option (List Nat) -> List Char
  | none => []
  | some digits => '.' :: digitChars digits

/-- The text of an exponent, which always has a sign. -/
def exponentChars : Option (Bool × List Nat) -> List Char
  | none => []
  | some (negative, digits) => 'e' :: (if negative then '-' else '+') :: digitChars digits

/-- The text of a numeral without its sign. -/
def unsignedChars (numeral : Numeral) : List Char :=
  digitChars numeral.whole ++ (fractionChars numeral.fraction ++ exponentChars numeral.exponent)

/-- The text of a numeral. -/
def chars (numeral : Numeral) : List Char :=
  if numeral.negative then '-' :: numeral.unsignedChars else numeral.unsignedChars

end Numeral

namespace Written

open Numeral

variable {rest : Content} {digits : List Nat}

theorem readDigits_digitChars (ends : EndsDigits rest) (are : AreDigits digits) :
    readDigits (Content.ofChars (digitChars digits) ++ rest) = (digits, rest) := by
  have read : readDigits (Content.ofChars (digitChars digits)) = (digits, []) := by
    have small := are.small
    clear are
    induction digits with
    | nil => rfl
    | cons digit others inductionHypothesis =>
        obtain ⟨first, later⟩ := List.forall_mem_cons.mp small
        have char : digit? (.char digit.digitChar) = some digit := Text.digit?_digitChar first
        rw [digitChars, List.map_cons, ofChars_cons, readDigits, char, ← digitChars,
          inductionHypothesis later]
  rw [readDigits_append ends, read]
  rfl

theorem someDigits?_digitChars (ends : EndsDigits rest) (are : AreDigits digits) :
    someDigits? (readDigits (Content.ofChars (digitChars digits) ++ rest))
      = some (digits, rest) := by
  rw [readDigits_digitChars ends are, someDigits?, if_neg are.some]

theorem readWhole_digitChars (ends : EndsDigits rest) (are : AreDigits digits)
    (leading : ∀ others, digits = 0 :: others -> others = []) :
    readWhole (Content.ofChars (digitChars digits) ++ rest) = some (digits, rest) := by
  cases digits with
  | nil => exact absurd rfl are.some
  | cons digit others =>
      by_cases zero : digit = 0
      · subst zero
        rw [leading others rfl]
        rfl
      · have first : TextUnit.char digit.digitChar ≠ .char '0' := by
          intro same
          have digitZero := Text.digit?_digitChar (are.small digit List.mem_cons_self)
          rw [TextUnit.char.inj same] at digitZero
          exact zero (Option.some.inj digitZero).symm
        exact (readWhole_of_ne first _).trans (someDigits?_digitChars ends are)

/-- What may follow a fraction ends its digits and is no point. -/
theorem readFraction_fractionChars (ends : EndsDigits rest)
    (plain : ∀ unit ∈ rest.head?, unit ≠ .char '.') {fraction : Option (List Nat)}
    (are : ∀ digits, fraction = some digits -> AreDigits digits) :
    readFraction (Content.ofChars (fractionChars fraction) ++ rest) = some (fraction, rest) := by
  cases fraction with
  | none => exact readFraction_of_ne plain
  | some digits =>
      refine (readFraction_point _).trans ?_
      exact congrArg (Option.map _) (someDigits?_digitChars ends (are digits rfl))

theorem readExponent_exponentChars {exponent : Option (Bool × List Nat)}
    (are : ∀ negative digits, exponent = some (negative, digits) -> AreDigits digits) :
    readExponent (Content.ofChars (exponentChars exponent)) = some (exponent, []) := by
  match exponent with
  | none => rfl
  | some (negative, digits) =>
      have read : someDigits? (readDigits (Content.ofChars (digitChars digits) ++ []))
          = some (digits, []) := someDigits?_digitChars nofun (are negative digits rfl)
      rw [List.append_nil] at read
      have sign : readExponentSign (Content.ofChars ((if negative then '-' else '+')
          :: digitChars digits)) = (negative, Content.ofChars (digitChars digits)) := by
        cases negative <;> rfl
      rw [exponentChars, ofChars_cons, readExponent_mark (.inl rfl), sign, read]
      rfl

/-- The text of an exponent starts with its mark. -/
theorem head_exponentChars {exponent : Option (Bool × List Nat)} :
    ∀ unit ∈ (Content.ofChars (exponentChars exponent)).head?, unit = .char 'e' := by
  match exponent with
  | none => nofun
  | some (_, _) =>
      rintro _ ⟨⟩
      rfl

/-- What stands after the whole part of a numeral starts with a point or with the mark of an
exponent. -/
theorem endsDigits_fractionChars {fraction : Option (List Nat)}
    {exponent : Option (Bool × List Nat)} :
    EndsDigits (Content.ofChars (fractionChars fraction)
      ++ Content.ofChars (exponentChars exponent)) := by
  cases fraction with
  | none =>
      intro unit first
      rw [head_exponentChars unit first]
      rfl
  | some digits => exact endsDigits_cons (by decide)

theorem readUnsigned_unsignedChars {numeral : Numeral} (formed : numeral.IsWellFormed) :
    readUnsigned numeral.negative (Content.ofChars numeral.unsignedChars)
      = some (numeral, []) := by
  have endsFraction : EndsDigits (Content.ofChars (exponentChars numeral.exponent)) := by
    intro unit first
    rw [head_exponentChars unit first]
    rfl
  have noPoint : ∀ unit ∈ (Content.ofChars (exponentChars numeral.exponent)).head?,
      unit ≠ .char '.' := by
    intro unit first
    rw [head_exponentChars unit first]
    decide
  simp only [readUnsigned, unsignedChars, ofChars_append, Option.bind_eq_bind,
    readWhole_digitChars endsDigits_fractionChars formed.whole formed.leading, Option.bind_some,
    readFraction_fractionChars endsFraction noPoint formed.fraction,
    readExponent_exponentChars formed.exponent]

/-- The text of a numeral reads as the numeral. -/
theorem readNumeral_chars {numeral : Numeral} (formed : numeral.IsWellFormed) :
    readNumeral (Content.ofChars numeral.chars) = some (numeral, []) := by
  have unsigned := readUnsigned_unsignedChars formed
  rw [chars]
  cases negative : numeral.negative with
  | true =>
      rw [negative] at unsigned
      exact unsigned
  | false =>
      rw [negative] at unsigned
      cases whole : numeral.whole with
      | nil => exact absurd whole formed.whole.some
      | cons digit others =>
          have small : digit < 10 := formed.whole.small digit (by simp [whole])
          have plain : TextUnit.char digit.digitChar ≠ .char '-' := by
            intro minus
            have read := Text.digit?_digitChar small
            rw [TextUnit.char.inj minus] at read
            cases read
          rw [unsignedChars, whole] at unsigned ⊢
          exact (readNumeral_of_ne plain _).trans unsigned

end Written

/-! ## Whole numbers -/

namespace Text

/-- The values of a number's digits are digits. -/
theorem areDigits_digitValues (value : Nat) : Numeral.AreDigits (digitValues value) where
  some := fun none => decimalDigits_ne_nil value (List.map_eq_nil_iff.mp none)
  small := by
    intro value member
    obtain ⟨char, held, rfl⟩ := List.mem_map.mp member
    obtain ⟨digit, small, rfl⟩ := exists_of_mem_decimalDigits char held
    rwa [digitValue_digitChar small]

/-- Only zero is written with a zero in front. -/
theorem eq_zero_of_digitValues {value : Nat} {rest : List Nat}
    (same : digitValues value = 0 :: rest) : value = 0 := by
  by_contra nonzero
  obtain ⟨digit, others, found, other⟩ := head_digitValues_ne_zero (Nat.pos_of_ne_zero nonzero)
  rw [found] at same
  exact other (List.cons.inj same).1

theorem eq_nil_of_digitValues {value : Nat} :
    ∀ rest, digitValues value = 0 :: rest -> rest = [] := by
  intro rest same
  obtain rfl := eq_zero_of_digitValues same
  exact (List.cons.inj same).2.symm

/-- The text of a number is that of its digits. -/
theorem digitChars_digitValues (value : Nat) :
    Numeral.digitChars (digitValues value) = decimalDigits value := by
  rw [Numeral.digitChars, digitValues, List.map_map]
  refine (List.map_congr_left (g := id) ?_).trans (List.map_id _)
  intro char member
  obtain ⟨digit, small, rfl⟩ := exists_of_mem_decimalDigits char member
  rw [Function.comp_apply, digitValue_digitChar small, id]

end Text

/-- The numeral that a whole number is written as. -/
def Numeral.ofInt (value : Int) : Numeral where
  negative := decide (value < 0)
  whole := Text.digitValues value.natAbs
  fraction := none
  exponent := none

theorem Numeral.isWellFormed_ofInt (value : Int) : (ofInt value).IsWellFormed where
  whole := Text.areDigits_digitValues _
  leading := Text.eq_nil_of_digitValues
  fraction := nofun
  exponent := nofun

theorem Numeral.chars_ofInt (value : Int) : (ofInt value).chars = integerText value := by
  simp only [chars, unsignedChars, ofInt, Text.digitChars_digitValues, fractionChars,
    exponentChars, List.append_nil, decide_eq_true_eq, integerText]

/-- The text of a whole number is a numeral of its digits. -/
theorem Written.readNumeral_integerText (value : Int) :
    readNumeral (Content.ofChars (integerText value)) = some (.ofInt value, []) := by
  rw [← Numeral.chars_ofInt, readNumeral_chars (Numeral.isWellFormed_ofInt value)]

namespace Number

/-- Whether the text of a number reads as the number. -/
def ReadsBack (number : Number) : Prop :=
  ∃ numeral, Written.readNumeral (Content.ofChars (Json.numberText number)) = some (numeral, [])
    ∧ numeral.value? = some number

/-- Every whole number reads back. -/
theorem readsBack_int (value : WordInt) : ReadsBack (.int value) := by
  refine ⟨_, Written.readNumeral_integerText value.val, ?_⟩
  have fits : WordInt.ofInt? value.val = some value := by
    rw [WordInt.ofInt?, dif_pos value.fits]
  simp only [Numeral.value?, Numeral.wholeNumber?, Numeral.ofInt, Text.ofDigits_digitValues]
  by_cases negative : value.val < 0
  · have nonzero : value.val.natAbs ≠ 0 := by omega
    have same : -(value.val.natAbs : Int) = value.val := by omega
    rw [if_pos (decide_eq_true negative), if_neg nonzero, same, fits]
  · have same : (value.val.natAbs : Int) = value.val := by omega
    rw [if_neg (by simpa using negative), same, fits]

/-- Not every binary64 number reads back: this one reads as the number before it. -/
theorem not_readsBack_float :
    ¬ ReadsBack (.float ⟨false, 4247835366853742248, by decide⟩) := by
  rintro ⟨numeral, read, same⟩
  have text : Written.readNumeral (Content.ofChars (Json.numberText
      (.float ⟨false, 4247835366853742248, by decide⟩)))
        = some (⟨false, [1], some [0, 0, 0, 0, 0, 0, 0, 0, 0, 0, 0, 0, 0, 0, 0, 1],
            some (true, [2, 4])⟩, []) := by
    decide +kernel
  rw [text] at read
  cases read
  revert same
  decide +kernel

end Number

end LayerRouting
