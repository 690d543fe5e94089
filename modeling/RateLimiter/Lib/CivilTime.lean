import RateLimiter.Lib.Gregorian

/-!
# Civil time on the UTC time line

Instants are integers: nanoseconds from 1970-01-01T00:00:00Z, without leap
seconds. The
calendar fields of an instant are read from its day number and its offset in
the day, and `ofYmdHms?` builds the instant with given fields.
-/

namespace CivilTime

open Gregorian

/-- The day number of 1970-01-01. -/
def epochDay : ℤ := 719162

def date (instant : ℤ) : Date :=
  Date.ofDayNumber (instant / 86400000000000 + epochDay)

/-- The hour of the day, from 0 to 23. -/
def hour (instant : ℤ) : ℕ :=
  (instant / 3600000000000 % 24).toNat

/-- The minute of the hour, from 0 to 59. -/
def minute (instant : ℤ) : ℕ :=
  (instant / 60000000000 % 60).toNat

/-- Midnight at the start of a day number. -/
def midnight (dayNumber : ℤ) : ℤ :=
  (dayNumber - epochDay) * 86400000000000

/-- The instant with the given civil fields, when they exist. -/
def ofYmdHms? (year : ℤ) (month day hour minute second : ℕ) : Option ℤ :=
  if hour < 24 ∧ minute < 60 ∧ second < 60 then
    (Date.ofYmd? year month day).map fun date =>
      midnight date.dayNumber + (hour * 3600 + minute * 60 + second) * 1000000000
  else none

theorem hour_lt (instant : ℤ) : hour instant < 24 := by
  unfold hour
  omega

theorem minute_lt (instant : ℤ) : minute instant < 60 := by
  unfold minute
  omega

theorem month_lt (instant : ℤ) : (date instant).month < 10 ^ 2 := by
  have := (date instant).month_le
  omega

theorem day_lt (instant : ℤ) : (date instant).day < 10 ^ 2 := by
  have short := (date instant).day_le
  have := leapDay_le_one (date instant).year
  unfold daysInMonth at short
  split at short <;> omega

theorem hour_lt_hundred (instant : ℤ) : hour instant < 10 ^ 2 := by
  have := hour_lt instant
  omega

theorem minute_lt_hundred (instant : ℤ) : minute instant < 10 ^ 2 := by
  have := minute_lt instant
  omega

theorem dayNumber_date (instant : ℤ) :
    (date instant).dayNumber = instant / 86400000000000 + epochDay :=
  Date.dayNumber_ofDayNumber _

theorem midnight_le_iff (dayNumber : ℤ) (instant : ℤ) :
    midnight dayNumber ≤ instant ↔ dayNumber ≤ (date instant).dayNumber := by
  rw [dayNumber_date]
  unfold midnight
  omega

theorem lt_midnight_iff (dayNumber : ℤ) (instant : ℤ) :
    instant < midnight dayNumber ↔ (date instant).dayNumber < dayNumber := by
  rw [← not_le, midnight_le_iff, not_le]

theorem ofYmdHms?_minute (instant : ℤ) :
    ofYmdHms? (date instant).year (date instant).month (date instant).day (hour instant)
        (minute instant) 0 =
      some (instant / 60000000000 * 60000000000) := by
  simp only [ofYmdHms?, hour_lt, minute_lt, Nat.zero_lt_succ, and_self, if_true,
    Date.ofYmd?_self, Option.map_some, Option.some.injEq, dayNumber_date, midnight]
  unfold hour minute
  omega

theorem ofYmdHms?_second (instant : ℤ) :
    ofYmdHms? (date instant).year (date instant).month (date instant).day (hour instant)
        (minute instant) (instant / 1000000000 % 60).toNat =
      some (instant / 1000000000 * 1000000000) := by
  have inMinute : (instant / 1000000000 % 60).toNat < 60 := by omega
  simp only [ofYmdHms?, hour_lt, minute_lt, inMinute, and_self, if_true, Date.ofYmd?_self,
    Option.map_some, Option.some.injEq, dayNumber_date, midnight]
  unfold hour minute
  omega

theorem ofYmdHms?_day (instant : ℤ) :
    ofYmdHms? (date instant).year (date instant).month (date instant).day 0 0 0 =
      some (instant / 86400000000000 * 86400000000000) := by
  simp only [ofYmdHms?, Nat.zero_lt_succ, and_self, if_true, Date.ofYmd?_self,
    Option.map_some, Option.some.injEq, dayNumber_date, midnight]
  omega

/-- The first of the month after `earlier`'s, at midnight. -/
theorem ofYmdHms?_nextMonth (earlier : Date) :
    (if earlier.month = 12 then ofYmdHms? (earlier.year + 1) 1 1 0 0 0
      else ofYmdHms? earlier.year (earlier.month + 1) 1 0 0 0) =
      some (midnight earlier.monthEnd) := by
  have := earlier.month_le
  have := earlier.month_pos
  split
  · rename_i december
    have newYear : daysBeforeYear (earlier.year + 1) = earlier.monthEnd := by
      rw [daysBeforeYear_succ, Date.monthEnd, december, daysBeforeMonth_thirteen, Int.add_assoc]
    simp [ofYmdHms?, Date.ofYmd?, Date.dayNumber, newYear, daysInMonth, daysBeforeMonth]
  · rename_i notDecember
    have room := one_le_daysInMonth earlier.year (show 1 ≤ earlier.month + 1 by omega)
      (show earlier.month + 1 ≤ 12 by omega)
    simp [ofYmdHms?, Date.ofYmd?, Date.dayNumber, Date.monthEnd, room]
    omega

theorem ofYmdHms?_month (instant : ℤ) :
    ofYmdHms? (date instant).year (date instant).month 1 0 0 0 =
      some (midnight (date instant).monthStart) := by
  have room := one_le_daysInMonth (date instant).year (date instant).month_pos
    (date instant).month_le
  simp [ofYmdHms?, Date.ofYmd?, Date.dayNumber, Date.monthStart, (date instant).month_pos,
    (date instant).month_le, room]

/-- The minute, day and month of civil fields determine them back. -/
theorem div_minute_eq_of_fields {first second : ℤ}
    (sameDate : date first = date second) (sameHour : hour first = hour second)
    (sameMinute : minute first = minute second) :
    first / 60000000000 = second / 60000000000 := by
  have sameDay := congrArg Date.dayNumber sameDate
  simp only [dayNumber_date] at sameDay
  unfold hour at sameHour
  unfold minute at sameMinute
  omega

theorem fields_eq_of_div_minute {first second : ℤ}
    (same : first / 60000000000 = second / 60000000000) :
    date first = date second ∧ hour first = hour second ∧ minute first = minute second := by
  have sameDay : first / 86400000000000 = second / 86400000000000 := by omega
  have sameHour : first / 3600000000000 = second / 3600000000000 := by omega
  simp only [date, hour, minute, sameDay, sameHour, same, and_self]

theorem date_eq_iff {first second : ℤ} :
    date first = date second ↔ first / 86400000000000 = second / 86400000000000 := by
  constructor
  · intro sameDate
    have sameDay := congrArg Date.dayNumber sameDate
    simp only [dayNumber_date] at sameDay
    omega
  · intro same
    simp only [date, same]

theorem dayNumber_date_mono {first second : ℤ} (le : first ≤ second) :
    (date first).dayNumber ≤ (date second).dayNumber := by
  simp only [dayNumber_date]
  omega

/-- Calendar periods that tile the time line. -/
inductive Period where
  | minute
  | day
  | month
deriving DecidableEq

namespace Period

/-- The number of the period that contains an instant. -/
def index (period : Period) (instant : ℤ) : ℤ :=
  match period with
  | .minute => instant / 60000000000
  | .day => instant / 86400000000000
  | .month => (date instant).monthIndex

/-- The first instant after the period that contains an instant. -/
def finish (period : Period) (instant : ℤ) : ℤ :=
  match period with
  | .minute => instant / 60000000000 * 60000000000 + 60000000000
  | .day => instant / 86400000000000 * 86400000000000 + 86400000000000
  | .month => midnight (date instant).monthEnd

theorem index_mono (period : Period) {first second : ℤ} (le : first ≤ second) :
    period.index first ≤ period.index second := by
  cases period with
  | minute =>
      simp only [index]
      omega
  | day =>
      simp only [index]
      omega
  | month => exact Date.monthIndex_mono (dayNumber_date_mono le)

theorem lt_finish (period : Period) (instant : ℤ) : instant < period.finish instant := by
  cases period with
  | minute =>
      simp only [finish]
      omega
  | day =>
      simp only [finish]
      omega
  | month => exact (lt_midnight_iff _ _).mpr (date instant).dayNumber_lt_monthEnd

theorem finish_le (period : Period) (instant : ℤ) :
    period.finish instant ≤ instant + 31 * 86400000000000 := by
  cases period with
  | minute =>
      simp only [finish]
      omega
  | day =>
      simp only [finish]
      omega
  | month =>
      have := (date instant).monthEnd_le
      have := dayNumber_date instant
      simp only [finish, midnight]
      omega

theorem finish_congr (period : Period) {first second : ℤ}
    (same : period.index first = period.index second) :
    period.finish first = period.finish second := by
  cases period with
  | minute =>
      simp only [index] at same
      simp only [finish, same]
  | day =>
      simp only [index] at same
      simp only [finish, same]
  | month =>
      simp only [index] at same
      simp only [finish, Date.monthEnd_congr same]

/-- Every period of a year is over when a later year begins. -/
theorem finish_le_of_year_lt (period : Period) {first second : ℤ}
    (later : (date first).year < (date second).year) : period.finish first ≤ second := by
  have firstYear := (date first).dayNumber_lt_daysBeforeYear_succ
  have secondYear := (date second).daysBeforeYear_le_dayNumber
  have years := daysBeforeYear_mono (show (date first).year + 1 ≤ (date second).year by omega)
  have firstDay := dayNumber_date first
  have secondDay := dayNumber_date second
  cases period with
  | minute =>
      simp only [finish]
      omega
  | day =>
      simp only [finish]
      omega
  | month =>
      apply (midnight_le_iff _ _).mpr
      have := (date first).monthEnd_le_daysBeforeYear
      omega

/-- The first instant of the period that contains an instant. -/
def start (period : Period) (instant : ℤ) : ℤ :=
  match period with
  | .minute => instant / 60000000000 * 60000000000
  | .day => instant / 86400000000000 * 86400000000000
  | .month => midnight (date instant).monthStart

/-- The length of the period that contains an instant. -/
def length (period : Period) (instant : ℤ) : ℤ :=
  match period with
  | .minute => 60000000000
  | .day => 86400000000000
  | .month => daysInMonth (date instant).year (date instant).month * 86400000000000

theorem finish_sub_start (period : Period) (instant : ℤ) :
    period.finish instant - period.start instant = period.length instant := by
  cases period with
  | minute =>
      simp only [finish, start, length]
      omega
  | day =>
      simp only [finish, start, length]
      omega
  | month =>
      have := (date instant).monthEnd_sub_monthStart
      simp only [finish, start, length, midnight]
      omega

/-- The instants of a period are those from its start to before its finish. -/
theorem index_eq_iff (period : Period) {first second : ℤ} :
    period.index first = period.index second ↔
      period.start second ≤ first ∧ first < period.finish second := by
  cases period with
  | minute =>
      simp only [index, start, finish]
      omega
  | day =>
      simp only [index, start, finish]
      omega
  | month =>
      apply Date.monthIndex_eq_iff.trans
      exact and_congr (midnight_le_iff _ _).symm (lt_midnight_iff _ _).symm

theorem start_le (period : Period) (instant : ℤ) : period.start instant ≤ instant :=
  (period.index_eq_iff.mp rfl).1

theorem index_finish_sub_one (period : Period) (instant : ℤ) :
    period.index (period.finish instant - 1) = period.index instant := by
  have begun := period.start_le instant
  have notOver := period.lt_finish instant
  apply period.index_eq_iff.mpr
  omega

/-- The next period starts where the current one finishes. -/
theorem start_finish (period : Period) (instant : ℤ) :
    period.start (period.finish instant) = period.finish instant := by
  have notLater := period.start_le (period.finish instant)
  have next := period.lt_finish (period.finish instant)
  have here := period.index_finish_sub_one instant
  by_contra different
  -- the last instant of the period would belong to the next one, too
  have there : period.index (period.finish instant - 1) = period.index (period.finish instant) :=
    period.index_eq_iff.mpr ⟨by omega, by omega⟩
  have := (period.index_eq_iff.mp (there.symm.trans here)).2
  omega

theorem index_lt_index_finish (period : Period) (instant : ℤ) :
    period.index instant < period.index (period.finish instant) := by
  have later := period.index_mono (Int.le_of_lt (period.lt_finish instant))
  apply lt_of_le_of_ne later
  intro same
  have := (period.index_eq_iff.mp same.symm).2
  omega

/-- Periods with the same finish are the same. -/
theorem index_eq_of_finish_eq (period : Period) {first second : ℤ}
    (same : period.finish first = period.finish second) :
    period.index first = period.index second := by
  rw [← period.index_finish_sub_one first, same, period.index_finish_sub_one]

theorem year_eq_of_index_eq (period : Period) {first second : ℤ}
    (same : period.index first = period.index second) :
    (date first).year = (date second).year := by
  cases period with
  | minute => rw [(fields_eq_of_div_minute same).1]
  | day => rw [date_eq_iff.mpr same]
  | month => exact (Date.year_month_eq_of_monthIndex_eq same).1

/-- A period ends in the year in which it begins, or as the next one begins. -/
theorem year_finish_le (period : Period) (instant : ℤ) :
    (date (period.finish instant)).year ≤ (date instant).year + 1 := by
  apply Date.year_le_succ
  have inYear := (date instant).dayNumber_lt_daysBeforeYear_succ
  have today := dayNumber_date instant
  rw [dayNumber_date]
  cases period with
  | minute =>
      simp only [finish]
      omega
  | day =>
      simp only [finish]
      omega
  | month =>
      have := (date instant).monthEnd_le_daysBeforeYear
      simp only [finish, midnight]
      omega

theorem year_le_year_finish (period : Period) (instant : ℤ) :
    (date instant).year ≤ (date (period.finish instant)).year := by
  by_contra earlier
  have := period.finish_le_of_year_lt (not_le.mp earlier)
  have := period.lt_finish (period.finish instant)
  have := period.lt_finish instant
  omega

end Period

end CivilTime
