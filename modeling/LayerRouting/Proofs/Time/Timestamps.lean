import LayerRouting.Proofs.Text.Digits
import LayerRouting.Proofs.Time.Calendar
import LayerRouting.Time.Reading

/-!
# Timestamps read back

The text of a timestamp reads as the timestamp (`Timestamp.ofText?_text`). This concerns the
times that a clock gives (`Timestamp.IsRegular`): in the years that a timestamp can lie in,
and not within a leap second. Every part of the text is digits up to a mark that is none, so
each is read by itself, whatever comes after the mark.
-/

namespace LayerRouting

/-! ## Padded numbers -/

namespace Text

/-- A digit is no blank. -/
theorem not_isBlank_of_digit {char : Char} {value : Nat} (digit : digit? char = some value) :
    isBlank char = false := by
  have range : '0' ≤ char ∧ char ≤ '9' := by
    rw [digit?] at digit
    split at digit
    · next range => exact range
    · cases digit
  have low : 48 ≤ char.toNat := range.1
  have high : char.toNat ≤ 57 := range.2
  simp only [isBlank, blankRanges, List.any_cons, List.any_nil, Bool.or_false, Bool.or_eq_false_iff,
    Bool.and_eq_false_iff, decide_eq_false_iff_not]
  omega

theorem trimStart_of_not_isBlank {char : Char} (solid : isBlank char = false) (rest : List Char) :
    trimStart (char :: rest) = char :: rest := by
  simp [trimStart, solid]

end Text

namespace Timestamp

open Text

/-- A padded number is made of digits. -/
theorem digit?_of_mem_padded {width value : Nat} :
    ∀ char ∈ padded width value, digit? char = some (digitValue char) := by
  intro char member
  rcases List.mem_append.mp member with zero | digit
  · rw [List.eq_of_mem_replicate zero]
    rfl
  · exact digit?_of_mem_decimalDigits value char digit

/-- A padded number reads as the number. -/
theorem natural?_padded (width value : Nat) : natural? (padded width value) = some value := by
  have nonempty : padded width value ≠ [] := by
    simp [padded, decimalDigits_ne_nil]
  have values : (padded width value).map digitValue
      = List.replicate (width - (decimalDigits value).length) 0 ++ digitValues value := by
    simp [padded, digitValues, digitValue, digit?]
  rw [natural?, if_neg nonempty, mapM_eq_some_map digit?_of_mem_padded, values,
    Option.map_some, ofDigits_replicate_zero_append, ofDigits_digitValues]

/-- A number that fits takes its width. -/
theorem length_padded {width value : Nat} (positive : 0 < width) (small : value < 10 ^ width) :
    (padded width value).length = width := by
  have := length_decimalDigits_le positive small
  simp only [padded, List.length_append, List.length_replicate]
  omega

/-- A padded number starts with a digit. -/
theorem exists_head_padded (width value : Nat) :
    ∃ char rest, padded width value = char :: rest ∧ digit? char = some (digitValue char) := by
  cases text : padded width value with
  | nil => simp [padded, decimalDigits_ne_nil] at text
  | cons char rest =>
      exact ⟨char, rest, rfl, digit?_of_mem_padded char (text ▸ List.mem_cons_self)⟩

/-! ## Parts of a text -/

/-- Digits before a mark are taken if they are not too many. -/
theorem takeDigits_append {digits : List Char} (known : ∀ char ∈ digits, isDigit char) {most : Nat}
    (few : digits.length ≤ most) {mark : Char} (other : isDigit mark = false) (rest : List Char) :
    takeDigits most (digits ++ mark :: rest) = (digits, mark :: rest) := by
  have taken : ((digits ++ mark :: rest).take most).takeWhile isDigit = digits := by
    rw [List.take_append, List.take_of_length_le few, List.takeWhile_append_of_pos known]
    cases most - digits.length with
    | zero => simp
    | succ more => simp [other]
  rw [takeDigits, taken, List.drop_left]

theorem isDigit_of_mem_padded {width value : Nat} : ∀ char ∈ padded width value, isDigit char := by
  intro char member
  rw [isDigit, digit?_of_mem_padded char member]
  rfl

/-- A padded number before a mark. -/
theorem readNumber_padded {width value most : Nat} (few : (padded width value).length ≤ most)
    {mark : Char} (other : isDigit mark = false) (rest : List Char) :
    readNumber most (padded width value ++ mark :: rest) = some (value, mark :: rest) := by
  rw [readNumber, takeDigits_append isDigit_of_mem_padded few other]
  simp only [natural?_padded, Option.map_some]

theorem trimStart_padded (width value : Nat) (rest : List Char) :
    trimStart (padded width value ++ rest) = padded width value ++ rest := by
  obtain ⟨char, others, text, digit⟩ := exists_head_padded width value
  rw [text, List.cons_append, trimStart_of_not_isBlank (not_isBlank_of_digit digit)]

/-- A number of two digits before a mark. -/
theorem readField_padded {value : Nat} (small : value < 100) {mark : Char}
    (other : isDigit mark = false) (rest : List Char) :
    readField (padded 2 value ++ mark :: rest) = some (value, mark :: rest) := by
  have length := length_padded (by decide : 0 < 2) small
  rw [readField, trimStart_padded, readNumber_padded (by omega) other]

/-- A year before the dash that follows it. -/
theorem readYear_yearText (year : Int) (rest : List Char) :
    readYear (yearText year ++ '-' :: rest) = some (year, '-' :: rest) := by
  have dash : isDigit '-' = false := by decide
  rw [yearText]
  split
  · next small =>
      have length := length_padded (by decide : 0 < 4) (by omega : year.toNat < 10 ^ 4)
      have reads := readNumber_padded (Nat.le_of_eq length) dash rest
      obtain ⟨char, others, text, digit⟩ := exists_head_padded 4 year.toNat
      have unsigned : char ≠ '-' ∧ char ≠ '+' := by
        constructor <;> rintro rfl <;> cases digit
      rw [readYear, trimStart_padded, text, List.cons_append]
      rw [text, List.cons_append] at reads
      split
      · next first => exact absurd (List.cons.inj first).1 unsigned.1
      · next first => exact absurd (List.cons.inj first).1 unsigned.2
      · simp only [reads, Option.map_some]
        congr 2
        omega
  · next large =>
      have few : (padded 4 year.natAbs).length
          ≤ (padded 4 year.natAbs ++ '-' :: rest).length := by simp
      have reads := readNumber_padded few dash rest
      by_cases negative : year < 0
      · rw [if_pos negative, readYear, List.cons_append, trimStart_of_not_isBlank (by decide)]
        simp only [reads, Option.map_some]
        congr 2
        omega
      · rw [if_neg negative, readYear, List.cons_append, trimStart_of_not_isBlank (by decide)]
        simp only [reads, Option.map_some]
        congr 2
        omega

theorem readMark_cons {mark : Char} (solid : isBlank mark = false) (rest : List Char) :
    readMark mark (mark :: rest) = some rest := by
  rw [readMark, trimStart_of_not_isBlank solid]
  simp [after?]

/-- A fraction of a second before the letter at the end. -/
theorem readFraction_fractionText {nanos : Nat} (small : nanos < nanosPerSecond) :
    readFraction (fractionText nanos ++ ['Z']) = some (nanos, ['Z']) := by
  have digits : ∀ width value, 0 < width -> width ≤ 9 -> value < 10 ^ width ->
      readFraction ('.' :: padded width value ++ ['Z']) = some (value * 10 ^ (9 - width), ['Z']) := by
    intro width value positive few fits
    have length := length_padded positive fits
    rw [List.cons_append, readFraction,
      takeDigits_append isDigit_of_mem_padded (by omega) (by decide)]
    simp only [natural?_padded, length, Option.map_some]
    rfl
  simp only [nanosPerSecond] at small
  rw [fractionText]
  split
  · next none => rw [none]; rfl
  · split
    · rw [digits 3 _ (by decide) (by decide) (by omega)]
      congr 2
      omega
    · split
      · rw [digits 6 _ (by decide) (by decide) (by omega)]
        congr 2
        omega
      · rw [digits 9 _ (by decide) (by decide) (by omega)]
        congr 2
        omega

/-! ## Timestamps -/

/-- Whether a timestamp is a time that a clock gives. -/
structure IsRegular (timestamp : Timestamp) : Prop where
  nanos : timestamp.nanos < nanosPerSecond
  year : yearInRange (CalendarDay.ofDays (timestamp.seconds.fdiv secondsPerDay)).year

/-- A month and a day take two digits. -/
theorem monthAndDay_lt (days : Int) :
    (CalendarDay.ofDays days).month < 100 ∧ (CalendarDay.ofDays days).day < 100 := by
  have valid := CalendarDay.valid?_ofDays days
  rw [CalendarDay.valid?] at valid
  split at valid
  · next bounds =>
      have : CalendarDay.daysInMonth (CalendarDay.ofDays days).year (CalendarDay.ofDays days).month
          ≤ 31 := by
        rw [CalendarDay.daysInMonth]
        split
        · split <;> omega
        · split <;> omega
      omega
  · cases valid

/-- The seconds are followed by a point or by the letter at the end. -/
theorem exists_head_fractionText (nanos : Nat) :
    ∃ mark rest, fractionText nanos ++ ['Z'] = mark :: rest ∧ isDigit mark = false := by
  rw [fractionText]
  split
  · exact ⟨'Z', [], rfl, by decide⟩
  · split
    · exact ⟨'.', _, rfl, by decide⟩
    · split <;> exact ⟨'.', _, rfl, by decide⟩

/-- Seconds are those of whole days and those of a day. -/
theorem exists_secondOfDay (seconds : Int) :
    ∃ secondOfDay : Nat, seconds = seconds.fdiv secondsPerDay * secondsPerDay + secondOfDay
      ∧ secondOfDay < 86400 := by
  refine ⟨(seconds - seconds.fdiv secondsPerDay * secondsPerDay).toNat, ?_⟩
  rw [Int.fdiv_eq_ediv_of_nonneg _ (by decide)]
  simp only [secondsPerDay]
  omega

/-- A timestamp is at its second of its day in UTC. -/
theorem ofLocal?_ofDays {seconds : Int} {secondOfDay nanos : Nat}
    (split : seconds = seconds.fdiv secondsPerDay * secondsPerDay + secondOfDay)
    (inRange : yearInRange (CalendarDay.ofDays (seconds.fdiv secondsPerDay)).year) :
    ofLocal? (CalendarDay.ofDays (seconds.fdiv secondsPerDay)) secondOfDay nanos 0
      = some ⟨seconds, nanos⟩ := by
  have whole : seconds.fdiv secondsPerDay * secondsPerDay + secondOfDay - 0 = seconds := by omega
  simp only [ofLocal?, CalendarDay.toDays_ofDays, whole, inRange, if_true]

/-- The text of a day and a time of the day reads as the point in time of the two. -/
theorem ofText?_parts {date : CalendarDay} {secondOfDay nanos : Nat} {timestamp : Timestamp}
    (point : ofLocal? date secondOfDay nanos 0 = some timestamp)
    (valid : CalendarDay.valid? date.year date.month date.day = some date)
    (inRange : yearInRange date.year) (month : date.month < 100) (day : date.day < 100)
    (within : secondOfDay < 86400) (small : nanos < nanosPerSecond) :
    ofText? (String.ofList (yearText date.year ++ '-' :: (padded 2 date.month
        ++ '-' :: (padded 2 date.day ++ 'T' :: (padded 2 (secondOfDay / 3600)
        ++ ':' :: (padded 2 (secondOfDay / 60 % 60)
        ++ ':' :: (padded 2 (secondOfDay % 60) ++ fractionText nanos ++ ['Z'])))))))
      = some timestamp := by
  have second : readField (padded 2 (secondOfDay % 60) ++ (fractionText nanos ++ ['Z']))
      = some (secondOfDay % 60, fractionText nanos ++ ['Z']) := by
    obtain ⟨mark, rest, text, other⟩ := exists_head_fractionText nanos
    rw [text, readField_padded (by omega) other]
  have dash : isDigit '-' = false := by decide
  have colon : isDigit ':' = false := by decide
  have letter : isDigit 'T' = false := by decide
  have solidDash : isBlank '-' = false := by decide
  have solidColon : isBlank ':' = false := by decide
  have hour : secondOfDay / 3600 < 100 := by omega
  have minute : secondOfDay / 60 % 60 < 100 := by omega
  have noLeap : secondOfDay % 60 ≠ 60 := by omega
  have ofParts : ((secondOfDay / 3600 : Nat) : Int) * 3600
      + ((secondOfDay / 60 % 60 : Nat) : Int) * 60 + ((secondOfDay % 60 : Nat) : Int)
        = secondOfDay := by omega
  rw [ofText?, String.toList_ofList, List.append_assoc (padded 2 (secondOfDay % 60))]
  -- One step for each part of the text, in order.
  refine Option.bind_eq_some_iff.mpr ⟨_, readYear_yearText date.year _, ?_⟩
  refine Option.bind_eq_some_iff.mpr ⟨_, readMark_cons solidDash _, ?_⟩
  refine Option.bind_eq_some_iff.mpr ⟨_, readField_padded month dash _, ?_⟩
  refine Option.bind_eq_some_iff.mpr ⟨_, readMark_cons solidDash _, ?_⟩
  refine Option.bind_eq_some_iff.mpr ⟨_, readField_padded day letter _, ?_⟩
  refine Option.bind_eq_some_iff.mpr ⟨_, rfl, ?_⟩
  refine Option.bind_eq_some_iff.mpr ⟨_, readField_padded hour colon _, ?_⟩
  refine Option.bind_eq_some_iff.mpr ⟨_, readMark_cons solidColon _, ?_⟩
  refine Option.bind_eq_some_iff.mpr ⟨_, readField_padded minute colon _, ?_⟩
  refine Option.bind_eq_some_iff.mpr ⟨_, readMark_cons solidColon _, ?_⟩
  refine Option.bind_eq_some_iff.mpr ⟨_, second, ?_⟩
  refine Option.bind_eq_some_iff.mpr ⟨_, readFraction_fractionText small, ?_⟩
  refine Option.bind_eq_some_iff.mpr ⟨(0, []), by decide, ?_⟩
  refine Option.bind_eq_some_iff.mpr ⟨_, valid, ?_⟩
  rw [if_pos ⟨rfl, inRange, by omega, by omega, by omega⟩]
  simp only [noLeap, if_false, ofParts, point]

/-- The text of a timestamp reads as the timestamp. -/
theorem ofText?_text {timestamp : Timestamp} (regular : timestamp.IsRegular) :
    ofText? timestamp.text = some timestamp := by
  obtain ⟨seconds, nanos⟩ := timestamp
  obtain ⟨small, inRange⟩ := regular
  simp only at small inRange
  obtain ⟨secondOfDay, split, within⟩ := exists_secondOfDay seconds
  have ofDay : (seconds - seconds.fdiv secondsPerDay * secondsPerDay).toNat = secondOfDay := by
    omega
  have usual : ¬ nanosPerSecond ≤ nanos := by omega
  obtain ⟨month, day⟩ := monthAndDay_lt (seconds.fdiv secondsPerDay)
  simp only [text, ofDay, usual, if_false, Nat.add_zero]
  exact ofText?_parts (ofLocal?_ofDays split inRange) (CalendarDay.valid?_ofDays _) inRange month
    day within small

end Timestamp

end LayerRouting
