import LayerRouting.Number.Layout
import LayerRouting.Time.Calendar

/-!
# Timestamps

A point in time in UTC with nanoseconds. Within a leap second the nanoseconds of the
second before it go on beyond one billion. The text of a timestamp has the fraction that
it needs: none, or three, six or nine digits.
-/

namespace LayerRouting

/-- A point in time in UTC. -/
structure Timestamp where
  /-- Seconds since the start of 1970, leap seconds not counted. -/
  seconds : Int
  /-- Nanoseconds within the second; from one billion on within a leap second. -/
  nanos : Nat
  deriving DecidableEq, Repr

namespace Timestamp

/-- The number of seconds of a day. -/
def secondsPerDay : Int := 86400

/-- The number of nanoseconds of a second. -/
def nanosPerSecond : Nat := 1000000000

/-- The years that a timestamp can lie in. -/
def yearInRange (year : Int) : Bool :=
  -262143 ≤ year && year ≤ 262142

/-- The point in time of a local day and time of day, `offset` seconds east of UTC; none
if it lies out of range in UTC. -/
def ofLocal? (date : CalendarDay) (secondOfDay : Int) (nanos : Nat) (offset : Int) :
    Option Timestamp :=
  let seconds := date.toDays * secondsPerDay + secondOfDay - offset
  if yearInRange (CalendarDay.ofDays (seconds.fdiv secondsPerDay)).year then
    some { seconds, nanos }
  else none

/-- Digits padded with zeros to a width. -/
def padded (width value : Nat) : List Char :=
  let digits := decimalDigits value
  List.replicate (width - digits.length) '0' ++ digits

/-- The text of a year: four digits, with a sign outside of the years 0 to 9999. -/
def yearText (year : Int) : List Char :=
  if 0 ≤ year ∧ year ≤ 9999 then padded 4 year.toNat
  else (if year < 0 then '-' else '+') :: padded 4 year.natAbs

/-- The text of a fraction of a second. -/
def fractionText (nanos : Nat) : List Char :=
  if nanos = 0 then []
  else if nanos % 1000000 = 0 then '.' :: padded 3 (nanos / 1000000)
  else if nanos % 1000 = 0 then '.' :: padded 6 (nanos / 1000)
  else '.' :: padded 9 nanos

/-- The text of a timestamp; the second after 59 is 60 within a leap second. -/
def text (timestamp : Timestamp) : String :=
  let days := timestamp.seconds.fdiv secondsPerDay
  let secondOfDay := (timestamp.seconds - days * secondsPerDay).toNat
  let date := CalendarDay.ofDays days
  let leap := nanosPerSecond ≤ timestamp.nanos
  let second := secondOfDay % 60 + if leap then 1 else 0
  let nanos := if leap then timestamp.nanos - nanosPerSecond else timestamp.nanos
  String.ofList (yearText date.year ++ '-' :: (padded 2 date.month ++ '-' :: (padded 2 date.day
    ++ 'T' :: (padded 2 (secondOfDay / 3600) ++ ':' :: (padded 2 (secondOfDay / 60 % 60)
    ++ ':' :: (padded 2 second ++ fractionText nanos ++ ['Z']))))))

end Timestamp

end LayerRouting
