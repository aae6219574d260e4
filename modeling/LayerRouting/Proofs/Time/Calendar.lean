import LayerRouting.Time.Calendar

/-!
# Days and calendar days

Counting days and naming them by the calendar undo each other
(`CalendarDay.toDays_ofDays`), and the calendar names every day by a day that its month has
(`CalendarDay.valid?_ofDays`). An era of 400 years has four centuries of 25 cycles of four
years; only the last century ends with a leap day. `CalendarDay.EraDay` is a day in this
division, from which the corrections in the definitions can be read off.
-/

namespace LayerRouting

namespace CalendarDay

/-! ## Days of an era -/

/-- A day of an era: its century, the cycle of four years in the century, the year of the
cycle and the day of the year, all counted from zero. -/
structure EraDay where
  century : Int
  cycle : Int
  year : Int
  dayOfYear : Int
  centuryBounds : 0 ≤ century ∧ century ≤ 3
  cycleBounds : 0 ≤ cycle ∧ cycle ≤ 24
  yearBounds : 0 ≤ year ∧ year ≤ 3
  dayBounds : 0 ≤ dayOfYear ∧ dayOfYear ≤ 365
  /-- Only the last year of a cycle has a leap day, and of the last cycles of the centuries
  only that of the era. -/
  leapDay : dayOfYear = 365 -> year = 3 ∧ (cycle ≤ 23 ∨ century = 3)

namespace EraDay

/-- The number of the day in its era. -/
def dayOfEra (place : EraDay) : Int :=
  36524 * place.century + 1461 * place.cycle + 365 * place.year + place.dayOfYear

/-- The number of the day's year in its era. -/
def yearOfEra (place : EraDay) : Int :=
  100 * place.century + 4 * place.cycle + place.year

end EraDay

/-- Every day of an era has a place in its division. -/
theorem exists_dayOfEra {dayOfEra : Int} (low : 0 ≤ dayOfEra) (high : dayOfEra < daysPerEra) :
    ∃ place : EraDay, place.dayOfEra = dayOfEra := by
  simp only [daysPerEra] at high
  obtain ⟨century, dayOfCentury, splitEra, centuryBounds, dayOfCenturyBounds, lastDay⟩ :
      ∃ century dayOfCentury : Int, dayOfEra = 36524 * century + dayOfCentury
        ∧ (0 ≤ century ∧ century ≤ 3) ∧ (0 ≤ dayOfCentury ∧ dayOfCentury ≤ 36524)
        ∧ (dayOfCentury = 36524 -> century = 3) :=
    ⟨min 3 (dayOfEra / 36524), dayOfEra - 36524 * min 3 (dayOfEra / 36524), by omega, by omega,
      by omega, by omega⟩
  obtain ⟨year, dayOfYear, splitCycle, yearBounds, dayBounds, leapDay⟩ :
      ∃ year dayOfYear : Int, dayOfCentury % 1461 = 365 * year + dayOfYear
        ∧ (0 ≤ year ∧ year ≤ 3) ∧ (0 ≤ dayOfYear ∧ dayOfYear ≤ 365)
        ∧ (dayOfYear = 365 -> year = 3) :=
    ⟨min 3 (dayOfCentury % 1461 / 365),
      dayOfCentury % 1461 - 365 * min 3 (dayOfCentury % 1461 / 365), by omega, by omega,
      by omega, by omega⟩
  refine ⟨⟨century, dayOfCentury / 1461, year, dayOfYear, centuryBounds, by omega, yearBounds,
    dayBounds, by omega⟩, ?_⟩
  simp only [EraDay.dayOfEra]
  omega

/-- Taking the leap days off a day of an era leaves its year in days of common years. -/
theorem EraDay.yearOfEra_eq (place : EraDay) :
    (place.dayOfEra - place.dayOfEra / 1460 + place.dayOfEra / 36524
      - place.dayOfEra / 146096) / 365 = place.yearOfEra := by
  obtain ⟨century, cycle, year, dayOfYear, centuryBounds, cycleBounds, yearBounds, dayBounds,
    leapDay⟩ := place
  simp only [dayOfEra, EraDay.yearOfEra]
  generalize days : 36524 * century + 1461 * cycle + 365 * year + dayOfYear = dayOfEra
  have cycles : dayOfEra / 1460 = 25 * century + cycle
      ∨ dayOfEra / 1460 = 25 * century + cycle + 1 ∧ year = 3 := by omega
  have centuries : dayOfEra / 36524 = century
      ∨ dayOfEra / 36524 = century + 1 ∧ dayOfEra = 146096 := by omega
  have eras : dayOfEra / 146096 = 0 ∨ dayOfEra / 146096 = 1 ∧ dayOfEra = 146096 := by omega
  omega

/-- Taking the years before off a day of an era leaves the day of its year. -/
theorem EraDay.dayOfYear_eq (place : EraDay) :
    place.dayOfEra - (365 * place.yearOfEra + place.yearOfEra / 4 - place.yearOfEra / 100)
      = place.dayOfYear := by
  obtain ⟨century, cycle, year, dayOfYear, centuryBounds, cycleBounds, yearBounds, dayBounds,
    leapDay⟩ := place
  simp only [dayOfEra, EraDay.yearOfEra]
  omega

/-! ## Months -/

namespace EraDay

/-- The month of the day, counted from March. -/
def marchMonth (place : EraDay) : Int :=
  (5 * place.dayOfYear + 2) / 153

/-- The month of the day. -/
def month (place : EraDay) : Int :=
  if place.marchMonth < 10 then place.marchMonth + 3 else place.marchMonth - 9

/-- The day of its month. -/
def day (place : EraDay) : Int :=
  place.dayOfYear - (153 * place.marchMonth + 2) / 5 + 1

theorem marchMonth_bounds (place : EraDay) : 0 ≤ place.marchMonth ∧ place.marchMonth ≤ 11 := by
  have := place.dayBounds
  simp only [marchMonth]
  omega

theorem yearOfEra_bounds (place : EraDay) : 0 ≤ place.yearOfEra ∧ place.yearOfEra < 400 := by
  have := place.centuryBounds
  have := place.cycleBounds
  have := place.yearBounds
  simp only [yearOfEra]
  omega

/-- The calendar year of the day in an era. -/
def calendarYear (place : EraDay) (era : Int) : Int :=
  place.yearOfEra + era * 400 + if place.month ≤ 2 then 1 else 0

theorem dayOfEra_bounds (place : EraDay) :
    0 ≤ place.dayOfEra ∧ place.dayOfEra < daysPerEra := by
  obtain ⟨century, cycle, year, dayOfYear, centuryBounds, cycleBounds, yearBounds, dayBounds,
    leapDay⟩ := place
  simp only [dayOfEra, daysPerEra]
  omega

end EraDay

/-! ## The calendar -/

/-- Every day lies in an era. -/
theorem exists_era (days : Int) :
    ∃ era, ∃ place : EraDay, days = era * daysPerEra + place.dayOfEra - epochOffset := by
  obtain ⟨place, found⟩ := exists_dayOfEra (Int.emod_nonneg (days + epochOffset) (by decide))
    (Int.emod_lt_of_pos (days + epochOffset) (by decide))
  refine ⟨(days + epochOffset) / daysPerEra, place, ?_⟩
  have := Int.mul_ediv_add_emod (days + epochOffset) daysPerEra
  rw [found, Int.mul_comm]
  omega

/-- The calendar day of a day of an era. -/
theorem ofDays_era (era : Int) (place : EraDay) :
    ofDays (era * daysPerEra + place.dayOfEra - epochOffset)
      = ⟨place.calendarYear era, place.month.toNat, place.day.toNat⟩ := by
  have eraOf : (era * daysPerEra + place.dayOfEra).fdiv daysPerEra = era := by
    have := place.dayOfEra_bounds
    rw [Int.fdiv_eq_ediv_of_nonneg _ (by decide)]
    simp only [daysPerEra] at this ⊢
    omega
  have dayOf : era * daysPerEra + place.dayOfEra - era * daysPerEra = place.dayOfEra := by omega
  simp only [ofDays, Int.sub_add_cancel, eraOf, dayOf, place.yearOfEra_eq, place.dayOfYear_eq]
  rfl

/-- Counting the days to the day that is a number of days away gives that number. -/
theorem toDays_ofDays (days : Int) : (ofDays days).toDays = days := by
  obtain ⟨era, place, rfl⟩ := exists_era days
  have yearBounds := place.yearOfEra_bounds
  have monthBounds := place.marchMonth_bounds
  have dayOf := place.dayOfYear_eq
  have dayBounds := place.dayBounds
  have marchYear : (if place.month.toNat ≤ 2 then place.calendarYear era - 1
      else place.calendarYear era) = place.yearOfEra + era * 400 := by
    simp only [EraDay.calendarYear]
    split <;> split <;> omega
  have eraOf : (place.yearOfEra + era * 400).fdiv 400 = era := by
    rw [Int.fdiv_eq_ediv_of_nonneg _ (by decide)]
    omega
  have marchMonth : ((place.month.toNat : Int) + 9) % 12 = place.marchMonth := by
    simp only [EraDay.month]
    omega
  have dayOfYear : (153 * place.marchMonth + 2) / 5 + (place.day.toNat : Int) - 1
      = place.dayOfYear := by
    simp only [EraDay.day, EraDay.marchMonth]
    omega
  rw [ofDays_era]
  simp only [toDays, marchYear, eraOf, marchMonth, dayOfYear]
  omega

theorem isLeapYear_iff (year : Int) :
    isLeapYear year ↔ year % 4 = 0 ∧ (year % 100 ≠ 0 ∨ year % 400 = 0) := by
  simp [isLeapYear]

/-- A leap day ends a year in March of a leap year. -/
theorem EraDay.isLeapYear_of_leapDay {place : EraDay} (leap : place.dayOfYear = 365) (era : Int) :
    isLeapYear (place.yearOfEra + era * 400 + 1) := by
  obtain ⟨century, cycle, year, dayOfYear, centuryBounds, cycleBounds, yearBounds, dayBounds,
    leapDay⟩ := place
  have last := leapDay leap
  rw [isLeapYear_iff]
  simp only [yearOfEra]
  omega

/-- The day is one of its month. -/
theorem EraDay.day_le_daysInMonth (place : EraDay) (era : Int) :
    place.day.toNat ≤ daysInMonth (place.calendarYear era) place.month.toNat := by
  have dayBounds := place.dayBounds
  have monthBounds := place.marchMonth_bounds
  have dayOf : place.day = place.dayOfYear - (153 * place.marchMonth + 2) / 5 + 1 := rfl
  have monthOf : place.marchMonth = (5 * place.dayOfYear + 2) / 153 := rfl
  by_cases february : place.marchMonth = 11
  · have month : place.month = 2 := by
      rw [EraDay.month, february, if_neg (by decide)]
      rfl
    have year : place.calendarYear era = place.yearOfEra + era * 400 + 1 := by
      rw [EraDay.calendarYear, month, if_pos (by decide)]
    rw [daysInMonth, month, year, if_pos (by decide)]
    by_cases leap : place.dayOfYear = 365
    · rw [if_pos (isLeapYear_of_leapDay leap era)]
      omega
    · split <;> omega
  · have month : place.month.toNat ≠ 2 := by
      simp only [EraDay.month]
      omega
    rw [daysInMonth, if_neg month]
    simp only [List.mem_cons, List.not_mem_nil, or_false, EraDay.month]
    split <;> split <;> omega

/-- The day that is a number of days away is a day of its month. -/
theorem valid?_ofDays (days : Int) :
    valid? (ofDays days).year (ofDays days).month (ofDays days).day = some (ofDays days) := by
  obtain ⟨era, place, rfl⟩ := exists_era days
  have monthBounds := place.marchMonth_bounds
  rw [ofDays_era, valid?, if_pos]
  refine ⟨?_, ?_, ?_, ?_⟩
  · simp only [EraDay.month]
    omega
  · simp only [EraDay.month]
    omega
  · have := place.dayBounds
    simp only [EraDay.day, EraDay.marchMonth]
    omega
  · exact place.day_le_daysInMonth era

end CalendarDay

end LayerRouting
