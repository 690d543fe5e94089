import Mathlib.Order.Nat
import Mathlib.Order.Monotone.Basic
import Mathlib.Data.Nat.Find
import Mathlib.Tactic.IntervalCases
import Mathlib.Algebra.Ring.Int.Defs
import Mathlib.Algebra.Ring.Nat

/-!
# The proleptic Gregorian calendar

Dates are counted in days from the first of January of year 1, which is day
number zero. `Date` carries the proof that its month and day exist, so a date
is exactly a day number: `Date.ofDayNumber` and `Date.dayNumber` are mutually
inverse. Years may be zero or negative.
-/

namespace Gregorian

/-- Leap years of the proleptic Gregorian calendar. -/
def isLeap (year : ℤ) : Bool :=
  year % 4 = 0 && (year % 100 ≠ 0 || year % 400 = 0)

/-- The length of the twenty-ninth of February: one day in leap years. -/
def leapDay (year : ℤ) : ℤ :=
  if isLeap year then 1 else 0

/-- Days between the first of January of year 1 and that of `year`. -/
def daysBeforeYear (year : ℤ) : ℤ :=
  365 * (year - 1) + (year - 1) / 4 - (year - 1) / 100 + (year - 1) / 400

/-- The length of a month; numbers that name no month have length zero. -/
def daysInMonth (year : ℤ) : ℕ → ℤ
  | 2 => 28 + leapDay year
  | 4 | 6 | 9 | 11 => 30
  | 1 | 3 | 5 | 7 | 8 | 10 | 12 => 31
  | _ => 0

/-- Days of `year` before its given month; month 13 gives the length of the year. -/
def daysBeforeMonth (year : ℤ) : ℕ → ℤ
  | 0 => 0
  | month + 1 => daysBeforeMonth year month + daysInMonth year month

/-- An existing calendar date. -/
@[ext]
structure Date where
  /-- The year, possibly zero or negative. -/
  year : ℤ
  /-- The month, from 1 to 12. -/
  month : ℕ
  /-- The day of the month, from 1. -/
  day : ℕ
  month_pos : 1 ≤ month
  month_le : month ≤ 12
  day_pos : 1 ≤ day
  day_le : (day : ℤ) ≤ daysInMonth year month

theorem leapDay_nonneg (year : ℤ) : 0 ≤ leapDay year := by
  unfold leapDay
  split <;> decide

theorem leapDay_le_one (year : ℤ) : leapDay year ≤ 1 := by
  unfold leapDay
  split <;> decide

theorem daysBeforeYear_succ (year : ℤ) :
    daysBeforeYear (year + 1) = daysBeforeYear year + 365 + leapDay year := by
  unfold daysBeforeYear leapDay isLeap
  split
  · rename_i leap
    simp only [ne_eq, decide_not, Bool.and_eq_true, decide_eq_true_eq, Bool.or_eq_true,
      Bool.not_eq_true', decide_eq_false_iff_not] at leap
    omega
  · rename_i common
    simp only [ne_eq, decide_not, Bool.and_eq_true, decide_eq_true_eq, Bool.or_eq_true,
      Bool.not_eq_true', decide_eq_false_iff_not] at common
    omega

theorem daysBeforeYear_mono {first second : ℤ} (le : first ≤ second) :
    daysBeforeYear first ≤ daysBeforeYear second := by
  unfold daysBeforeYear
  omega

/-- The year of a day number: a proportional guess, off by at most one. -/
def yearOf (number : ℤ) : ℤ :=
  let guess := number * 400 / 146097 + 1
  if daysBeforeYear (guess + 1) ≤ number then guess + 1
  else if number < daysBeforeYear guess then guess - 1
  else guess

theorem daysBeforeYear_yearOf_le (number : ℤ) : daysBeforeYear (yearOf number) ≤ number := by
  simp only [yearOf]
  split
  · assumption
  · split
    · unfold daysBeforeYear
      omega
    · omega

theorem lt_daysBeforeYear_yearOf_succ (number : ℤ) :
    number < daysBeforeYear (yearOf number + 1) := by
  simp only [yearOf]
  split
  · unfold daysBeforeYear
    omega
  · split
    · rw [show number * 400 / 146097 + 1 - 1 + 1 = number * 400 / 146097 + 1 by omega]
      assumption
    · omega

theorem daysInMonth_nonneg (year : ℤ) (month : ℕ) : 0 ≤ daysInMonth year month := by
  have := leapDay_nonneg year
  unfold daysInMonth
  split <;> omega

theorem one_le_daysInMonth (year : ℤ) {month : ℕ} (pos : 1 ≤ month) (le : month ≤ 12) :
    1 ≤ daysInMonth year month := by
  have := leapDay_nonneg year
  interval_cases month <;> simp only [daysInMonth] <;> omega

theorem daysBeforeMonth_mono (year : ℤ) {first second : ℕ} (le : first ≤ second) :
    daysBeforeMonth year first ≤ daysBeforeMonth year second := by
  refine monotone_nat_of_le_succ (fun month => ?_) le
  have := daysInMonth_nonneg year month
  simp only [daysBeforeMonth]
  omega

theorem daysBeforeMonth_thirteen (year : ℤ) :
    daysBeforeMonth year 13 = 365 + leapDay year := by
  simp only [daysBeforeMonth, daysInMonth]
  omega

/-- The month of a zero-based day of the year: the last one begun by then. -/
def monthOf (year ordinal : ℤ) : ℕ :=
  Nat.findGreatest (fun month => daysBeforeMonth year month ≤ ordinal) 12

theorem one_le_monthOf {year ordinal : ℤ} (nonneg : 0 ≤ ordinal) : 1 ≤ monthOf year ordinal :=
  Nat.le_findGreatest (by decide) (by simpa [daysBeforeMonth, daysInMonth] using nonneg)

theorem monthOf_le (year ordinal : ℤ) : monthOf year ordinal ≤ 12 :=
  Nat.findGreatest_le 12

theorem daysBeforeMonth_monthOf_le (year : ℤ) {ordinal : ℤ} (nonneg : 0 ≤ ordinal) :
    daysBeforeMonth year (monthOf year ordinal) ≤ ordinal :=
  Nat.findGreatest_spec (P := fun month => daysBeforeMonth year month ≤ ordinal)
    (Nat.zero_le 12) (by simpa [daysBeforeMonth] using nonneg)

theorem lt_daysBeforeMonth_monthOf_succ {year ordinal : ℤ}
    (inYear : ordinal < 365 + leapDay year) :
    ordinal < daysBeforeMonth year (monthOf year ordinal + 1) := by
  by_contra exceeds
  rcases Nat.lt_or_ge (monthOf year ordinal) 12 with early | last
  · exact Nat.findGreatest_is_greatest (Nat.lt_succ_self _) early (not_lt.mp exceeds)
  · have december : monthOf year ordinal = 12 := le_antisymm (monthOf_le year ordinal) last
    rw [december, daysBeforeMonth_thirteen] at exceeds
    exact exceeds inYear

/-- The zero-based day of the year of a day number. -/
def ordinalOf (number : ℤ) : ℤ :=
  number - daysBeforeYear (yearOf number)

theorem ordinalOf_nonneg (number : ℤ) : 0 ≤ ordinalOf number := by
  have := daysBeforeYear_yearOf_le number
  unfold ordinalOf
  omega

theorem ordinalOf_lt (number : ℤ) : ordinalOf number < 365 + leapDay (yearOf number) := by
  have notOver := lt_daysBeforeYear_yearOf_succ number
  rw [daysBeforeYear_succ] at notOver
  unfold ordinalOf
  omega

namespace Date

/-- Days from the first of January of year 1. -/
def dayNumber (date : Date) : ℤ :=
  daysBeforeYear date.year + daysBeforeMonth date.year date.month + (date.day - 1)

/-- The date with the given year, month and day, when it exists. -/
def ofYmd? (year : ℤ) (month day : ℕ) : Option Date :=
  if valid : 1 ≤ month ∧ month ≤ 12 ∧ 1 ≤ day ∧ (day : ℤ) ≤ daysInMonth year month then
    some ⟨year, month, day, valid.1, valid.2.1, valid.2.2.1, valid.2.2.2⟩
  else none

@[simp]
theorem ofYmd?_self (date : Date) : ofYmd? date.year date.month date.day = some date := by
  simp [ofYmd?, date.month_pos, date.month_le, date.day_pos, date.day_le]

theorem ordinal_nonneg (date : Date) :
    0 ≤ daysBeforeMonth date.year date.month + (date.day - 1) := by
  have begun := daysBeforeMonth_mono date.year (Nat.zero_le date.month)
  have := date.day_pos
  simp only [daysBeforeMonth] at begun
  omega

theorem ordinal_lt (date : Date) :
    daysBeforeMonth date.year date.month + (date.day - 1) < 365 + leapDay date.year := by
  have yearLength := daysBeforeMonth_mono date.year
    (show date.month + 1 ≤ 13 by have := date.month_le; omega)
  rw [daysBeforeMonth_thirteen] at yearLength
  have := date.day_le
  simp only [daysBeforeMonth] at yearLength
  omega

theorem daysBeforeYear_le_dayNumber (date : Date) :
    daysBeforeYear date.year ≤ date.dayNumber := by
  have := date.ordinal_nonneg
  unfold dayNumber
  omega

theorem dayNumber_lt_daysBeforeYear_succ (date : Date) :
    date.dayNumber < daysBeforeYear (date.year + 1) := by
  have := date.ordinal_lt
  rw [daysBeforeYear_succ]
  unfold dayNumber
  omega

def ofDayNumber (number : ℤ) : Date where
  year := yearOf number
  month := monthOf (yearOf number) (ordinalOf number)
  day := (ordinalOf number
    - daysBeforeMonth (yearOf number) (monthOf (yearOf number) (ordinalOf number)) + 1).toNat
  month_pos := one_le_monthOf (ordinalOf_nonneg number)
  month_le := monthOf_le _ _
  day_pos := by
    have := daysBeforeMonth_monthOf_le (yearOf number) (ordinalOf_nonneg number)
    omega
  day_le := by
    have begun := daysBeforeMonth_monthOf_le (yearOf number) (ordinalOf_nonneg number)
    have notOver := lt_daysBeforeMonth_monthOf_succ (ordinalOf_lt number)
    simp only [daysBeforeMonth] at notOver
    omega

@[simp]
theorem dayNumber_ofDayNumber (number : ℤ) : (ofDayNumber number).dayNumber = number := by
  have begun := daysBeforeMonth_monthOf_le (yearOf number) (ordinalOf_nonneg number)
  simp only [dayNumber, ofDayNumber]
  unfold ordinalOf at *
  omega

/-- Months counted from January of year zero. -/
def monthIndex (date : Date) : ℤ :=
  12 * date.year + (date.month - 1)

theorem year_month_eq_of_monthIndex_eq {first second : Date}
    (equal : first.monthIndex = second.monthIndex) :
    first.year = second.year ∧ first.month = second.month := by
  have := first.month_pos
  have := first.month_le
  have := second.month_pos
  have := second.month_le
  unfold monthIndex at equal
  omega

/-- The day number of the first day after the date's month. -/
def monthEnd (date : Date) : ℤ :=
  daysBeforeYear date.year + daysBeforeMonth date.year (date.month + 1)

theorem dayNumber_lt_monthEnd (date : Date) : date.dayNumber < date.monthEnd := by
  have := date.day_le
  simp only [dayNumber, monthEnd, daysBeforeMonth]
  omega

theorem daysInMonth_le (year : ℤ) (month : ℕ) : daysInMonth year month ≤ 31 := by
  have := leapDay_le_one year
  unfold daysInMonth
  split <;> omega

theorem monthEnd_le (date : Date) : date.monthEnd ≤ date.dayNumber + 31 := by
  have := daysInMonth_le date.year date.month
  have := date.day_pos
  simp only [dayNumber, monthEnd, daysBeforeMonth]
  omega

theorem monthEnd_congr {first second : Date} (equal : first.monthIndex = second.monthIndex) :
    first.monthEnd = second.monthEnd := by
  have ⟨sameYear, sameMonth⟩ := year_month_eq_of_monthIndex_eq equal
  simp only [monthEnd, sameYear, sameMonth]

theorem monthEnd_le_daysBeforeYear (date : Date) :
    date.monthEnd ≤ daysBeforeYear (date.year + 1) := by
  have inYear := daysBeforeMonth_mono date.year
    (show date.month + 1 ≤ 13 by have := date.month_le; omega)
  rw [daysBeforeMonth_thirteen] at inYear
  rw [daysBeforeYear_succ]
  unfold monthEnd
  omega

/-- A month that comes later starts at or after the end of the earlier one. -/
theorem monthEnd_le_dayNumber {first second : Date}
    (later : first.monthIndex < second.monthIndex) : first.monthEnd ≤ second.dayNumber := by
  have := first.month_le
  have := second.month_pos
  have := second.month_le
  have := first.month_pos
  have := second.day_pos
  have yearOrder : first.year ≤ second.year := by
    unfold monthIndex at later
    omega
  rcases yearOrder.lt_or_eq with earlierYear | sameYear
  · have := daysBeforeYear_mono (show first.year + 1 ≤ second.year by omega)
    have := first.monthEnd_le_daysBeforeYear
    have := second.daysBeforeYear_le_dayNumber
    omega
  · have monthOrder : first.month + 1 ≤ second.month := by
      unfold monthIndex at later
      omega
    have := daysBeforeMonth_mono second.year monthOrder
    unfold monthEnd dayNumber
    rw [sameYear]
    omega

theorem monthIndex_mono {first second : Date} (le : first.dayNumber ≤ second.dayNumber) :
    first.monthIndex ≤ second.monthIndex := by
  by_contra later
  have := monthEnd_le_dayNumber (not_le.mp later)
  have := second.dayNumber_lt_monthEnd
  omega

/-- The day number of the first day of the date's month. -/
def monthStart (date : Date) : ℤ :=
  daysBeforeYear date.year + daysBeforeMonth date.year date.month

theorem monthStart_le_dayNumber (date : Date) : date.monthStart ≤ date.dayNumber := by
  have := date.day_pos
  simp only [monthStart, dayNumber]
  omega

theorem monthEnd_sub_monthStart (date : Date) :
    date.monthEnd - date.monthStart = daysInMonth date.year date.month := by
  simp only [monthEnd, monthStart, daysBeforeMonth]
  omega

/-- Months follow each other without overlap. -/
theorem monthEnd_le_monthStart {first second : Date}
    (later : first.monthIndex < second.monthIndex) : first.monthEnd ≤ second.monthStart := by
  have firstDay := @monthEnd_le_dayNumber first ⟨second.year, second.month, 1,
    second.month_pos, second.month_le, le_refl 1,
    one_le_daysInMonth second.year second.month_pos second.month_le⟩ later
  simp only [dayNumber] at firstDay
  simp only [monthStart]
  omega

/-- The dates of a month are those from its first day to before its end. -/
theorem monthIndex_eq_iff {first second : Date} :
    first.monthIndex = second.monthIndex ↔
      second.monthStart ≤ first.dayNumber ∧ first.dayNumber < second.monthEnd := by
  constructor
  · intro same
    have ⟨sameYear, sameMonth⟩ := year_month_eq_of_monthIndex_eq same
    have sameStart : first.monthStart = second.monthStart := by
      simp only [monthStart, sameYear, sameMonth]
    have := first.monthStart_le_dayNumber
    have := first.dayNumber_lt_monthEnd
    have := monthEnd_congr same
    omega
  · rintro ⟨begun, notOver⟩
    rcases lt_trichotomy first.monthIndex second.monthIndex with earlier | same | later
    · have := monthEnd_le_monthStart earlier
      have := first.dayNumber_lt_monthEnd
      omega
    · exact same
    · have := monthEnd_le_dayNumber later
      omega

/-- Dates are ordered by month, then by day. -/
theorem lt_cases {first second : Date} (less : first.dayNumber < second.dayNumber) :
    first.monthIndex < second.monthIndex ∨
      first.monthIndex = second.monthIndex ∧ first.day < second.day := by
  rcases (monthIndex_mono (Int.le_of_lt less)).lt_or_eq with earlier | same
  · exact Or.inl earlier
  · have ⟨sameYear, sameMonth⟩ := year_month_eq_of_monthIndex_eq same
    simp only [dayNumber, sameYear, sameMonth] at less
    exact Or.inr ⟨same, by omega⟩

/-- A day that is no later than the next new year belongs to this year or to the next one. -/
theorem year_le_succ {date : Date} {year : ℤ} (le : date.dayNumber ≤ daysBeforeYear (year + 1)) :
    date.year ≤ year + 1 := by
  by_contra later
  have := daysBeforeYear_mono (show year + 1 + 1 ≤ date.year by omega)
  have := daysBeforeYear_succ (year + 1)
  have := leapDay_nonneg (year + 1)
  have := date.daysBeforeYear_le_dayNumber
  omega

end Date

end Gregorian
