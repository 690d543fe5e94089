import RateLimiter.Common
import RateLimiter.Lib.CivilTime
import RateLimiter.Lib.Encoding

/-!
# Fixed windows and their jittered time to live

The boundary computation of `window.rs`. `computeWindow` follows the source
case by case; `computeWindow_eq` states it in terms of the calendar periods of
`CivilTime`, and the window ids of two instants are compared through
`windowId_eq_iff`. Instants are nanoseconds, durations whole seconds.
-/

namespace RateLimiter.Enforcer

open CivilTime Gregorian Encoding

/-- The fixed window a limit falls into at some instant. -/
structure Window where
  /-- Boundary-aligned id embedded in the counter key. -/
  windowId : String
  /-- Instant at which the window closes. -/
  resetAt : ℤ
  /-- Whole seconds left until `resetAt`. -/
  remainingSecs : ℤ
deriving DecidableEq

/-- `Utc.with_ymd_and_hms(..).single()`, defined on the years chrono can represent. -/
def withYmdAndHms (year : ℤ) (month day hour minute second : ℕ) : Option ℤ :=
  if -262143 ≤ year ∧ year ≤ 262142 then ofYmdHms? year month day hour minute second else none

def windowId (now : ℤ) : TimeUnit → String
  | .minute =>
      zeroPadInt 4 (date now).year ++ zeroPad 2 (date now).month ++ zeroPad 2 (date now).day ++
        zeroPad 2 (hour now) ++ zeroPad 2 (minute now)
  | .day =>
      zeroPadInt 4 (date now).year ++ zeroPad 2 (date now).month ++ zeroPad 2 (date now).day
  | .month => zeroPadInt 4 (date now).year ++ zeroPad 2 (date now).month
  | .unspecified => ""

def resetAt? (now : ℤ) : TimeUnit → Option ℤ
  | .minute => do
      let start ← withYmdAndHms (date now).year (date now).month (date now).day (hour now)
        (minute now) 0
      pure (start + 60 * 1000000000)
  | .day => do
      let start ← withYmdAndHms (date now).year (date now).month (date now).day 0 0 0
      pure (start + 86400 * 1000000000)
  | .month =>
      if (date now).month = 12 then withYmdAndHms ((date now).year + 1) 1 1 0 0 0
      else withYmdAndHms (date now).year ((date now).month + 1) 1 0 0 0
  | .unspecified => none

/-- Computes the window of `now`, aligned to the UTC boundary. -/
def computeWindow (now : ℤ) (unit : TimeUnit) : Option Window := do
  let resetAt ← resetAt? now unit
  pure {
    windowId := windowId now unit
    resetAt := resetAt
    -- a chrono duration in whole seconds is truncated towards zero
    remainingSecs := max ((resetAt - now).tdiv 1000000000) 0 }

/-- The time to live of a new counter; `draw` is the random 64-bit number. -/
def jitteredTtl (remainingSecs graceSecs jitterMaxSecs : ℤ) (draw : ℕ) : ℤ :=
  let jitter : ℤ := if 0 < jitterMaxSecs then (draw : ℤ) % (jitterMaxSecs + 1) else 0
  max (remainingSecs + graceSecs + jitter) 1

def jitterCapSecs : TimeUnit → ℤ
  | .minute => 30
  | .day | .month => 300
  | .unspecified => 0

/-- The instant lies in a year that prints with four digits. -/
def FourDigitYear (instant : ℤ) : Prop :=
  0 ≤ (date instant).year ∧ (date instant).year ≤ 9999

instance (instant : ℤ) : Decidable (FourDigitYear instant) :=
  inferInstanceAs (Decidable (_ ∧ _))

/-- The window of the instant and its end lie in the years chrono can represent. -/
def Representable (instant : ℤ) : Prop :=
  -262143 ≤ (date instant).year ∧ (date instant).year < 262142

instance (instant : ℤ) : Decidable (Representable instant) :=
  inferInstanceAs (Decidable (_ ∧ _))

theorem FourDigitYear.representable {instant : ℤ} (inRange : FourDigitYear instant) :
    Representable instant := by
  rcases inRange with ⟨lower, upper⟩
  exact ⟨by omega, by omega⟩

def period? : TimeUnit → Option Period
  | .minute => some .minute
  | .day => some .day
  | .month => some .month
  | .unspecified => none

section Calendar

variable {now : ℤ} {unit : TimeUnit} {period : Period}

theorem resetAt?_eq (inRange : Representable now) (units : period? unit = some period) :
    resetAt? now unit = some (period.finish now) := by
  rcases inRange with ⟨yearLower, yearUpper⟩
  have inYears : -262143 ≤ (date now).year ∧ (date now).year ≤ 262142 := by omega
  cases unit with
  | unspecified => simp [period?] at units
  | minute =>
      simp only [period?, Option.some.injEq] at units
      subst period
      simp [resetAt?, withYmdAndHms, inYears, ofYmdHms?_minute, Period.finish]
  | day =>
      simp only [period?, Option.some.injEq] at units
      subst period
      simp [resetAt?, withYmdAndHms, inYears, ofYmdHms?_day, Period.finish]
  | month =>
      simp only [period?, Option.some.injEq] at units
      subst period
      have nextYear : -262143 ≤ (date now).year + 1 ∧ (date now).year + 1 ≤ 262142 := by omega
      simp only [resetAt?, withYmdAndHms, inYears, nextYear, and_self, if_true,
        ofYmdHms?_nextMonth, Period.finish]

theorem computeWindow_eq (inRange : Representable now) (units : period? unit = some period) :
    computeWindow now unit =
      some ⟨windowId now unit, period.finish now, (period.finish now - now) / 1000000000⟩ := by
  have := period.lt_finish now
  simp only [computeWindow, resetAt?_eq inRange units, Option.bind_eq_bind, Option.bind_some,
    Option.pure_def, Option.some.injEq, Window.mk.injEq, true_and]
  rw [Int.tdiv_eq_ediv_of_nonneg (by omega)]
  omega

theorem ofYmdHms?_of_withYmdAndHms {year : ℤ} {month day hour minute second : ℕ} {instant : ℤ}
    (built : withYmdAndHms year month day hour minute second = some instant) :
    ofYmdHms? year month day hour minute second = some instant := by
  simp only [withYmdAndHms] at built
  split at built
  · exact built
  · simp at built

/-- A reset that is computed at all is the end of the calendar period. -/
theorem resetAt?_eq_some {resetAt : ℤ} (computed : resetAt? now unit = some resetAt) :
    ∃ period, period? unit = some period ∧ resetAt = period.finish now := by
  cases unit with
  | unspecified => simp [resetAt?] at computed
  | minute =>
      simp only [resetAt?, Option.bind_eq_bind, Option.bind_eq_some_iff, Option.pure_def,
        Option.some.injEq] at computed
      rcases computed with ⟨start, built, rfl⟩
      have isStart := ofYmdHms?_of_withYmdAndHms built
      rw [ofYmdHms?_minute, Option.some.injEq] at isStart
      exact ⟨.minute, rfl, by simp only [Period.finish, isStart]; rfl⟩
  | day =>
      simp only [resetAt?, Option.bind_eq_bind, Option.bind_eq_some_iff, Option.pure_def,
        Option.some.injEq] at computed
      rcases computed with ⟨start, built, rfl⟩
      have isStart := ofYmdHms?_of_withYmdAndHms built
      rw [ofYmdHms?_day, Option.some.injEq] at isStart
      exact ⟨.day, rfl, by simp only [Period.finish, isStart]; rfl⟩
  | month =>
      have nextMonth := ofYmdHms?_nextMonth (date now)
      simp only [resetAt?] at computed
      refine ⟨.month, rfl, ?_⟩
      split at computed
      · rename_i december
        rw [if_pos december, ofYmdHms?_of_withYmdAndHms computed, Option.some.injEq] at nextMonth
        exact nextMonth
      · rename_i notDecember
        rw [if_neg notDecember, ofYmdHms?_of_withYmdAndHms computed, Option.some.injEq]
          at nextMonth
        exact nextMonth

theorem computeWindow_eq_some {window : Window} (computed : computeWindow now unit = some window) :
    ∃ period, period? unit = some period ∧
      window = ⟨windowId now unit, period.finish now,
        (period.finish now - now) / 1000000000⟩ := by
  simp only [computeWindow, Option.bind_eq_bind, Option.bind_eq_some_iff, Option.pure_def,
    Option.some.injEq] at computed
  rcases computed with ⟨resetAt, isReset, rfl⟩
  rcases resetAt?_eq_some isReset with ⟨period, units, rfl⟩
  have := period.lt_finish now
  refine ⟨period, units, ?_⟩
  simp only [Window.mk.injEq, true_and]
  rw [Int.tdiv_eq_ediv_of_nonneg (by omega)]
  omega

theorem year_toNat_lt (inRange : FourDigitYear now) : (date now).year.toNat < 10 ^ 4 := by
  have := inRange.2
  omega

/-- The length of a window id tells its unit. -/
def windowIdLength : Period → ℕ
  | .minute => 12
  | .day => 8
  | .month => 6

theorem length_windowId (inRange : FourDigitYear now) (units : period? unit = some period) :
    (windowId now unit).toList.length = windowIdLength period := by
  have years := length_zeroPad (by decide) (year_toNat_lt inRange)
  have months := length_zeroPad (by decide) (month_lt now)
  have days := length_zeroPad (by decide) (day_lt now)
  have hours := length_zeroPad (by decide) (hour_lt_hundred now)
  have minutes := length_zeroPad (by decide) (minute_lt_hundred now)
  cases unit <;> simp only [period?, Option.some.injEq, reduceCtorEq] at units <;> subst period <;>
    simp only [windowId, zeroPadInt_of_nonneg 4 inRange.1, String.toList_append,
      List.length_append, years, months, days, hours, minutes, windowIdLength]

theorem isDigit_of_mem_windowId (inRange : FourDigitYear now) {char : Char}
    (mem : char ∈ (windowId now unit).toList) : char.isDigit := by
  cases unit <;> simp only [windowId, zeroPadInt_of_nonneg 4 inRange.1, String.toList_append,
    List.mem_append] at mem
  · simp at mem
  · rcases mem with (((digit | digit) | digit) | digit) | digit <;>
      exact isDigit_of_mem_zeroPad digit
  · rcases mem with (digit | digit) | digit <;> exact isDigit_of_mem_zeroPad digit
  · rcases mem with digit | digit <;> exact isDigit_of_mem_zeroPad digit

/-- Before the common era the id carries a sign. -/
theorem sign_mem_windowId (negative : (date now).year < 0) (units : period? unit = some period) :
    '-' ∈ (windowId now unit).toList := by
  cases unit <;> simp [period?, windowId, zeroPadInt, negative] at units ⊢

theorem colon_notMem_windowId (now : ℤ) (unit : TimeUnit) : ':' ∉ (windowId now unit).toList := by
  have numeral : ∀ width number, ':' ∉ (zeroPad width number).toList := by
    intro width number mem
    exact absurd (isDigit_of_mem_zeroPad mem) (by decide)
  have year : ':' ∉ (zeroPadInt 4 (date now).year).toList := by
    simp only [zeroPadInt]
    split
    · simp [numeral]
    · exact numeral _ _
  cases unit <;> simp [windowId, numeral, year]

end Calendar

section Identity

variable {first second : ℤ}

/-- The numerals of a window id, read back from the right. -/
theorem yearMonth_eq_of_append
    (equal : zeroPadInt 4 (date first).year ++ zeroPad 2 (date first).month =
      zeroPadInt 4 (date second).year ++ zeroPad 2 (date second).month) :
    (date first).year = (date second).year ∧ (date first).month = (date second).month := by
  rcases append_zeroPad_inj (by decide) (month_lt first) (month_lt second) equal with
    ⟨years, months⟩
  exact ⟨zeroPadInt_injective 4 years, months⟩

theorem date_eq_of_append
    (equal : zeroPadInt 4 (date first).year ++ zeroPad 2 (date first).month ++
        zeroPad 2 (date first).day =
      zeroPadInt 4 (date second).year ++ zeroPad 2 (date second).month ++
        zeroPad 2 (date second).day) : date first = date second := by
  rcases append_zeroPad_inj (by decide) (day_lt first) (day_lt second) equal with
    ⟨beforeDay, days⟩
  rcases yearMonth_eq_of_append beforeDay with ⟨years, months⟩
  exact Date.ext years months days

/-- Within one unit, the id tells the window apart from every other one. -/
theorem index_eq_of_windowId_eq {unit : TimeUnit} {period : Period}
    (units : period? unit = some period)
    (equal : windowId first unit = windowId second unit) :
    period.index first = period.index second := by
  cases unit with
  | unspecified => simp [period?] at units
  | minute =>
      simp only [period?, Option.some.injEq] at units
      subst period
      rcases append_zeroPad_inj (by decide) (minute_lt_hundred first) (minute_lt_hundred second)
        equal with ⟨beforeMinute, minutes⟩
      rcases append_zeroPad_inj (by decide) (hour_lt_hundred first) (hour_lt_hundred second)
        beforeMinute with ⟨beforeHour, hours⟩
      exact div_minute_eq_of_fields (date_eq_of_append beforeHour) hours minutes
  | day =>
      simp only [period?, Option.some.injEq] at units
      subst period
      exact date_eq_iff.mp (date_eq_of_append equal)
  | month =>
      simp only [period?, Option.some.injEq] at units
      subst period
      rcases yearMonth_eq_of_append equal with ⟨years, months⟩
      simp only [Period.index, Date.monthIndex, years, months]

theorem windowId_congr {unit : TimeUnit} {period : Period} (units : period? unit = some period)
    (same : period.index first = period.index second) :
    windowId first unit = windowId second unit := by
  cases unit with
  | unspecified => simp [period?] at units
  | minute =>
      simp only [period?, Option.some.injEq] at units
      subst period
      rcases fields_eq_of_div_minute same with ⟨dates, hours, minutes⟩
      simp only [windowId, dates, hours, minutes]
  | day =>
      simp only [period?, Option.some.injEq] at units
      subst period
      simp only [windowId, date_eq_iff.mpr same]
  | month =>
      simp only [period?, Option.some.injEq] at units
      subst period
      rcases Date.year_month_eq_of_monthIndex_eq same with ⟨years, months⟩
      simp only [windowId, years, months]

theorem period?_injective {firstUnit secondUnit : TimeUnit} {period : Period}
    (firstUnits : period? firstUnit = some period)
    (secondUnits : period? secondUnit = some period) : firstUnit = secondUnit := by
  rw [← secondUnits] at firstUnits
  cases firstUnit <;> cases secondUnit <;> simp [period?] at firstUnits secondUnits ⊢

theorem windowIdLength_injective : Function.Injective windowIdLength := by
  intro first second
  cases first <;> cases second <;> simp [windowIdLength]

/-- Window ids are equal exactly for the same unit and the same calendar period. -/
theorem windowId_eq_iff {firstUnit secondUnit : TimeUnit} {firstPeriod secondPeriod : Period}
    (firstRange : FourDigitYear first) (secondRange : FourDigitYear second)
    (firstUnits : period? firstUnit = some firstPeriod)
    (secondUnits : period? secondUnit = some secondPeriod) :
    windowId first firstUnit = windowId second secondUnit ↔
      firstUnit = secondUnit ∧ firstPeriod.index first = firstPeriod.index second := by
  constructor
  · intro equal
    have lengths := congrArg (fun text => text.toList.length) equal
    simp only [length_windowId firstRange firstUnits,
      length_windowId secondRange secondUnits] at lengths
    have samePeriod := windowIdLength_injective lengths
    subst secondPeriod
    have sameUnit := period?_injective firstUnits secondUnits
    subst secondUnit
    exact ⟨rfl, index_eq_of_windowId_eq firstUnits equal⟩
  · rintro ⟨rfl, same⟩
    exact windowId_congr firstUnits same

end Identity

theorem le_jitteredTtl {remainingSecs graceSecs jitterMaxSecs : ℤ} (draw : ℕ) :
    remainingSecs + graceSecs ≤ jitteredTtl remainingSecs graceSecs jitterMaxSecs draw := by
  simp only [jitteredTtl]
  split
  · have := Int.emod_nonneg (draw : ℤ) (show jitterMaxSecs + 1 ≠ 0 by omega)
    omega
  · omega

theorem one_le_jitteredTtl (remainingSecs graceSecs jitterMaxSecs : ℤ) (draw : ℕ) :
    1 ≤ jitteredTtl remainingSecs graceSecs jitterMaxSecs draw :=
  le_max_right _ _

end RateLimiter.Enforcer
