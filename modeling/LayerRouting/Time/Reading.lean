import LayerRouting.Text.Basic
import LayerRouting.Time.Timestamp

/-!
# Reading timestamps

A timestamp is read from a day, a separator, a time of day and an offset from UTC, with
blanks allowed between most of the parts. Numbers need no leading zeros, a year with a
sign may have any number of digits, and digits of a fraction after the ninth are dropped.
-/

namespace LayerRouting

namespace Timestamp

/-- Up to `most` leading digits, and the text after them. -/
def takeDigits (most : Nat) (text : List Char) : List Char × List Char :=
  let digits := (text.take most).takeWhile Text.isDigit
  (digits, text.drop digits.length)

/-- A number of one to `most` digits. -/
def readNumber (most : Nat) (text : List Char) : Option (Nat × List Char) :=
  let (digits, rest) := takeDigits most text
  (Text.natural? digits).map fun value => (value, rest)

/-- A number of one or two digits after blanks. -/
def readField (text : List Char) : Option (Nat × List Char) :=
  readNumber 2 (Text.trimStart text)

/-- A year after blanks: up to four digits, or any number of digits after a sign. -/
def readYear (text : List Char) : Option (Int × List Char) :=
  match Text.trimStart text with
  | '-' :: rest => (readNumber rest.length rest).map fun (value, after) => (-(value : Int), after)
  | '+' :: rest => (readNumber rest.length rest).map fun (value, after) => ((value : Int), after)
  | unsigned => (readNumber 4 unsigned).map fun (value, after) => ((value : Int), after)

/-- The text after a mark that stands after blanks. -/
def readMark (mark : Char) (text : List Char) : Option (List Char) :=
  Text.after? [mark] (Text.trimStart text)

/-- What separates the time of day from the day. -/
def readSeparator : List Char -> Option (List Char)
  | 'T' :: rest => some rest
  | 't' :: rest => some rest
  | ' ' :: rest => some rest
  | _ => none

/-- A fraction of a second in nanoseconds, zero if there is none. -/
def readFraction : List Char -> Option (Nat × List Char)
  | '.' :: rest =>
      let (digits, after) := takeDigits 9 rest
      (Text.natural? digits).map fun value =>
        (value * Nat.pow 10 (9 - digits.length), after.dropWhile Text.isDigit)
  | text => some (0, text)

/-- Two digits, of which the first is at most `tens`. -/
def readTwoDigits (tens : Nat) : List Char -> Option (Nat × List Char)
  | first :: second :: rest => do
      let ten ← Text.digit? first
      let one ← Text.digit? second
      if ten ≤ tens then some (ten * 10 + one, rest) else none
  | _ => none

/-- Seconds east of UTC from hours and minutes after a sign; colons and blanks may stand
between them. -/
def readHoursAndMinutes (west : Bool) (text : List Char) : Option (Int × List Char) := do
  let (hours, afterHours) ← readTwoDigits 9 text
  let separated := afterHours.dropWhile fun char => char == ':' || Text.isBlank char
  let (minutes, rest) ← readTwoDigits 5 separated
  let seconds : Int := hours * 3600 + minutes * 60
  if seconds < secondsPerDay then some (if west then -seconds else seconds, rest) else none

/-- An offset from UTC in seconds: the name of UTC, a Z, or hours and minutes after a sign,
which may be the mathematical minus. -/
def readOffset (text : List Char) : Option (Int × List Char) :=
  if (text.take 3).map Char.toUpper = ['U', 'T', 'C'] then some (0, text.drop 3)
  else
    match text with
    | 'Z' :: rest => some (0, rest)
    | 'z' :: rest => some (0, rest)
    | '+' :: rest => readHoursAndMinutes false rest
    | '-' :: rest => readHoursAndMinutes true rest
    | '\u2212' :: rest => readHoursAndMinutes true rest
    | _ => none

/-- The timestamp that a text is. The second 60 is a leap second. -/
def ofText? (text : String) : Option Timestamp := do
  let (year, rest) ← readYear text.toList
  let (month, rest) ← readField (← readMark '-' rest)
  let (day, rest) ← readField (← readMark '-' rest)
  let (hour, rest) ← readField (← readSeparator rest)
  let (minute, rest) ← readField (← readMark ':' rest)
  let (second, rest) ← readField (← readMark ':' rest)
  let (fraction, rest) ← readFraction rest
  let (offset, rest) ← readOffset (Text.trimStart rest)
  let date ← CalendarDay.valid? year month day
  if Text.trimStart rest = [] ∧ yearInRange year ∧ hour ≤ 23 ∧ minute ≤ 59 ∧ second ≤ 60 then
    let leap := second = 60
    let secondOfDay : Int := hour * 3600 + minute * 60 + if leap then 59 else second
    ofLocal? date secondOfDay (if leap then nanosPerSecond + fraction else fraction) offset
  else none

end Timestamp

end LayerRouting
