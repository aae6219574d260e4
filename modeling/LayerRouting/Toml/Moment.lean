import LayerRouting.Json.Basic
import LayerRouting.Text.Basic
import LayerRouting.Time.Calendar

/-!
# Dates and times in trees

A date or time is kept in a tree as an object with one member that holds its text. Below
the top of a text, a table whose first key is the key of that member is taken for a date
or time as well: the key must hold a text in the form of one, and what else is in the
table is dropped.
-/

namespace LayerRouting

namespace Toml

/-- The key under which the text of a date or time is kept. -/
def momentKey : String := "$__toml_private_datetime"

/-- The tree of a date or time, by its text. -/
def ofMoment (text : String) : Json :=
  .object [(momentKey, .string text)]

/-! ## The form of a date or time -/

/-- A number of exactly so many decimal digits. -/
def readFixed (digits : Nat) (text : List Char) : Option (Nat × List Char) := do
  let values ← (text.take digits).mapM Text.digit?
  if values.length = digits then some (ofDigits values, text.drop digits) else none

/-- The text after a date. -/
def readDate (text : List Char) : Option (List Char) := do
  let (year, rest) ← readFixed 4 text
  let (month, rest) ← readFixed 2 (← Text.after? ['-'] rest)
  let (day, rest) ← readFixed 2 (← Text.after? ['-'] rest)
  let _date ← CalendarDay.valid? year month day
  some rest

/-- The text after an hour and a minute. -/
def readHourMinute (text : List Char) : Option (List Char) := do
  let (hour, rest) ← readFixed 2 text
  let (minute, rest) ← readFixed 2 (← Text.after? [':'] rest)
  if hour ≤ 23 ∧ minute ≤ 59 then some rest else none

/-- The text after a time of day, whose seconds may have a fraction. A point belongs to the
time only if a digit comes after it. -/
def readTime (text : List Char) : Option (List Char) := do
  let rest ← readHourMinute text
  let (second, rest) ← readFixed 2 (← Text.after? [':'] rest)
  if second ≤ 60 then
    match rest with
    | '.' :: fraction =>
        let after := fraction.dropWhile Text.isDigit
        some (if after.length < fraction.length then after else rest)
    | _ => some rest
  else none

/-- The text after an offset from UTC, if one comes next. -/
def skipOffset (text : List Char) : List Char :=
  match text with
  | 'Z' :: rest => rest
  | 'z' :: rest => rest
  | '+' :: rest => (readHourMinute rest).getD text
  | '-' :: rest => (readHourMinute rest).getD text
  | _ => text

/-- The text after a time of day with its offset, if a separator and a time come next. -/
def skipTimeOfDate (text : List Char) : List Char :=
  match text with
  | separator :: rest =>
      if separator ∈ ['T', 't', ' '] then
        match readTime rest with
        | some after => skipOffset after
        | none => text
      else text
  | [] => text

/-- The text after a date, a time of day, or both. -/
def skipMoment? (text : List Char) : Option (List Char) :=
  ((readDate text).map skipTimeOfDate).or (readTime text)

/-- Whether all of a text is a date, a time of day, or both. -/
def isMoment (text : List Char) : Bool :=
  skipMoment? text == some []

/-! ## Tables that are dates or times -/

mutual

/-- The tree in which each table that starts with the key of a date or time has become
one; none if the text of one has another form. -/
def withMoments? : Json -> Option Json
  | .array items => (itemsWithMoments? items).map .array
  | .object ((key, value) :: rest) =>
      if key = momentKey then
        match value with
        | .string text => if isMoment text.toList then some (ofMoment text) else none
        | _ => none
      else do
        let first ← withMoments? value
        let others ← entriesWithMoments? rest
        some (.object ((key, first) :: others))
  | tree => some tree

/-- The items of a list, each with its dates and times. -/
def itemsWithMoments? : List Json -> Option (List Json)
  | [] => some []
  | item :: rest => do
      let first ← withMoments? item
      let others ← itemsWithMoments? rest
      some (first :: others)

/-- The entries of a table, each with its dates and times. -/
def entriesWithMoments? : List (String × Json) -> Option (List (String × Json))
  | [] => some []
  | (key, value) :: rest => do
      let first ← withMoments? value
      let others ← entriesWithMoments? rest
      some ((key, first) :: others)

end

end Toml

end LayerRouting
