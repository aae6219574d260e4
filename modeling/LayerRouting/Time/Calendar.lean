/-!
# Calendar

The Gregorian calendar extended to all years. Days are counted from 1 January 1970. The
calendar repeats every 400 years; within such an era the years are taken to start in
March, which puts the leap day at the end of a year.
-/

namespace LayerRouting

/-- A day of the Gregorian calendar. -/
structure CalendarDay where
  year : Int
  month : Nat
  day : Nat
  deriving DecidableEq, Repr

namespace CalendarDay

/-- Whether a year has a leap day. -/
def isLeapYear (year : Int) : Bool :=
  year % 4 == 0 && (year % 100 != 0 || year % 400 == 0)

/-- The number of days of a month. -/
def daysInMonth (year : Int) (month : Nat) : Nat :=
  if month = 2 then if isLeapYear year then 29 else 28
  else if month ∈ [4, 6, 9, 11] then 30
  else 31

/-- The number of days of an era of 400 years. -/
def daysPerEra : Int := 146097

/-- The number of days from 1 March of year 0 to 1 January 1970. -/
def epochOffset : Int := 719468

/-- The calendar day, if the month has it. -/
def valid? (year : Int) (month day : Nat) : Option CalendarDay :=
  if 1 ≤ month ∧ month ≤ 12 ∧ 1 ≤ day ∧ day ≤ daysInMonth year month then
    some { year, month, day }
  else none

/-- The number of days from 1 January 1970 to a day. -/
def toDays (date : CalendarDay) : Int :=
  let marchYear := if date.month ≤ 2 then date.year - 1 else date.year
  let era := marchYear.fdiv 400
  let yearOfEra := marchYear - era * 400
  let marchMonth : Int := (date.month + 9) % 12
  let dayOfYear := (153 * marchMonth + 2) / 5 + date.day - 1
  let dayOfEra := yearOfEra * 365 + yearOfEra / 4 - yearOfEra / 100 + dayOfYear
  era * daysPerEra + dayOfEra - epochOffset

/-- The day that is a number of days after 1 January 1970. -/
def ofDays (days : Int) : CalendarDay :=
  let shifted := days + epochOffset
  let era := shifted.fdiv daysPerEra
  let dayOfEra := shifted - era * daysPerEra
  let yearOfEra := (dayOfEra - dayOfEra / 1460 + dayOfEra / 36524 - dayOfEra / 146096) / 365
  let dayOfYear := dayOfEra - (365 * yearOfEra + yearOfEra / 4 - yearOfEra / 100)
  let marchMonth := (5 * dayOfYear + 2) / 153
  let day := dayOfYear - (153 * marchMonth + 2) / 5 + 1
  let month := if marchMonth < 10 then marchMonth + 3 else marchMonth - 9
  let year := yearOfEra + era * 400 + if month ≤ 2 then 1 else 0
  { year, month := month.toNat, day := day.toNat }

end CalendarDay

end LayerRouting
