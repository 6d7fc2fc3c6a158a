import Mathlib.Tactic.Common

/-!
# The proleptic Gregorian calendar

Dates and day numbers, with day 0 at 1 January 1970. Years are counted from March, so that
the leap day is the last day of a year, and a number of days is taken apart into cycles of
400, 100 and 4 years and single years (`Cycles`).

* `dayNumber`: the number of a date.
* `ofDayNumber`: the date with a number.
* `dayNumber_ofDayNumber`, `valid_ofDayNumber`: it is a date, and it has that number.
-/

namespace DataLoader.Calendar

/-- A year, a month and a day of the month, counted as in the calendar. -/
structure Date where
  year : Int
  month : Int
  day : Int
  deriving DecidableEq, Repr

/-- A year with a 29 February. -/
def isLeap (y : Int) : Prop := y % 4 = 0 ∧ (y % 100 ≠ 0 ∨ y % 400 = 0)

instance (y : Int) : Decidable (isLeap y) := inferInstanceAs (Decidable (_ ∧ _))

/-- The number of days of a month. -/
def daysIn (month year : Int) : Int :=
  if month = 2 then if isLeap year then 29 else 28
  else if month = 4 ∨ month = 6 ∨ month = 9 ∨ month = 11 then 30
  else 31

/-- The date is in the calendar. -/
def Date.Valid (d : Date) : Prop :=
  1 ≤ d.month ∧ d.month ≤ 12 ∧ 1 ≤ d.day ∧ d.day ≤ daysIn d.month d.year

instance (d : Date) : Decidable d.Valid := inferInstanceAs (Decidable (_ ∧ _))

/-- The days before the month with number `m` of a year that begins in March. -/
def monthStart (m : Int) : Int := (153 * m + 2) / 5

/-- The days before the March of year `y`, counted from the March of year 0. -/
def yearStart (y : Int) : Int := 365 * y + y / 4 - y / 100 + y / 400

/-- The number of a date. 719468 days lie between 1 March of year 0 and the epoch. -/
def dayNumber (d : Date) : Int :=
  let y := if d.month ≤ 2 then d.year - 1 else d.year
  let m := if d.month ≤ 2 then d.month + 9 else d.month - 3
  yearStart y + monthStart m + d.day - 1 - 719468

/-- A number of days since 1 March of year 0 as whole cycles and the rest. The last
    century of an era and the last year of a cycle of four have one day more. -/
structure Cycles where
  era : Int
  century : Int
  four : Int
  year : Int
  day : Int

def cycles (z : Int) : Cycles :=
  let doe := z % 146097
  let century := min 3 (doe / 36524)
  let r := doe - 36524 * century
  let year := min 3 (r % 1461 / 365)
  { era := z / 146097, century, four := r / 1461, year, day := r % 1461 - 365 * year }

/-- The year of the calendar in which the March year begins. -/
def Cycles.marchYear (c : Cycles) : Int := 400 * c.era + 100 * c.century + 4 * c.four + c.year

/-- The number of the month, counted from March. -/
def Cycles.month (c : Cycles) : Int := (5 * c.day + 2) / 153

/-- The date: January and February are in the next year of the calendar. -/
def Cycles.date (c : Cycles) : Date :=
  if c.month < 10 then ⟨c.marchYear, c.month + 3, c.day - monthStart c.month + 1⟩
  else ⟨c.marchYear + 1, c.month - 9, c.day - monthStart c.month + 1⟩

/-- The date with a number. -/
def ofDayNumber (n : Int) : Date := (cycles (n + 719468)).date

/-- What the numbers of a decomposition are bounded by. The 366th day of a March year is
    only there if the next year is a leap year. -/
structure Cycles.Bounded (c : Cycles) : Prop where
  century : 0 ≤ c.century ∧ c.century ≤ 3
  four : 0 ≤ c.four ∧ c.four ≤ 24
  year : 0 ≤ c.year ∧ c.year ≤ 3
  day : 0 ≤ c.day ∧ c.day ≤ 365
  leap : c.day = 365 → c.year = 3 ∧ (c.four = 24 → c.century = 3)

theorem cycles_bounded (z : Int) : (cycles z).Bounded := by
  constructor <;> simp only [cycles] <;> omega

/-- The parts add up. -/
theorem cycles_sum (z : Int) : 146097 * (cycles z).era + 36524 * (cycles z).century +
    1461 * (cycles z).four + 365 * (cycles z).year + (cycles z).day = z := by
  simp only [cycles]
  omega

namespace Cycles.Bounded

variable {c : Cycles} (h : c.Bounded)
include h

theorem yearStart_marchYear : yearStart c.marchYear =
    146097 * c.era + 36524 * c.century + 1461 * c.four + 365 * c.year := by
  obtain ⟨hc, hf, hy, -, -⟩ := h
  unfold yearStart marchYear
  omega

/-- A March year with 366 days ends in a leap year. -/
theorem isLeap_next (hday : c.day = 365) : isLeap (c.marchYear + 1) := by
  obtain ⟨hc, hf, -, -, hleap⟩ := h
  obtain ⟨hy, hcentury⟩ := hleap hday
  unfold isLeap marchYear
  omega

theorem month_le : 0 ≤ c.month ∧ c.month ≤ 11 := by
  have hday := h.day
  unfold month
  omega

theorem dayNumber_date : dayNumber c.date = yearStart c.marchYear + c.day - 719468 := by
  have hm := h.month_le
  by_cases hlt : c.month < 10
  · simp only [date, if_pos hlt, dayNumber]
    rw [if_neg (by omega), if_neg (by omega), Int.add_sub_cancel]
    omega
  · simp only [date, if_neg hlt, dayNumber]
    rw [if_pos (by omega), if_pos (by omega), Int.add_sub_cancel, Int.sub_add_cancel]
    omega

theorem valid_date : c.date.Valid := by
  have hday := h.day
  have hlast := h.isLeap_next
  by_cases hlt : c.month < 10
  · -- March to December
    simp only [date, if_pos hlt, Date.Valid, daysIn]
    unfold month monthStart at *
    rw [if_neg (by omega)]
    split_ifs <;> omega
  · simp only [date, if_neg hlt, Date.Valid, daysIn]
    unfold month monthStart at *
    by_cases hjan : (5 * c.day + 2) / 153 = 10
    · rw [if_neg (by omega), if_neg (by omega)]
      omega
    · -- February ends the March year, and has its 29th day if the year has 366
      rw [if_pos (by omega)]
      split_ifs with hleap
      · omega
      · have hne : c.day ≠ 365 := fun heq => hleap (hlast heq)
        omega

end Cycles.Bounded

theorem dayNumber_ofDayNumber (n : Int) : dayNumber (ofDayNumber n) = n := by
  have hb := cycles_bounded (n + 719468)
  have hsum := cycles_sum (n + 719468)
  rw [ofDayNumber, hb.dayNumber_date, hb.yearStart_marchYear]
  omega

theorem valid_ofDayNumber (n : Int) : (ofDayNumber n).Valid :=
  (cycles_bounded (n + 719468)).valid_date

example : dayNumber ⟨1970, 1, 1⟩ = 0 := by decide

example : ofDayNumber 11016 = ⟨2000, 2, 29⟩ := by decide

end DataLoader.Calendar
