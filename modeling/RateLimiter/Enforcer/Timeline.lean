import RateLimiter.Enforcer.Store
import RateLimiter.Enforcer.Window

/-!
# The windows of the time line and the keys of their counters

`computeWindow` cuts the time line at the boundaries of the calendar: its
windows follow each other without gap or overlap, and their ids are ordered as
texts in the order of time. A counter key names one limit and one window, and
the part of it that a cluster hashes names the limit only.
-/

namespace RateLimiter.Enforcer

open CivilTime Gregorian Encoding

/-- The number that a window id spells. -/
def windowNumber (now : ℤ) : Period → ℕ
  | .minute =>
      100 * (100 * (100 * (100 * (date now).year.toNat + (date now).month) + (date now).day) +
        hour now) + minute now
  | .day => 100 * (100 * (date now).year.toNat + (date now).month) + (date now).day
  | .month => 100 * (date now).year.toNat + (date now).month

section Order

variable {first second now : ℤ} {unit : TimeUnit} {period : Period}

theorem ofDigitChars_windowId (inRange : FourDigitYear now)
    (units : period? unit = some period) :
    Nat.ofDigitChars 10 (windowId now unit).toList 0 = windowNumber now period := by
  have years := ofDigitChars_zeroPad (by decide) (year_toNat_lt inRange)
  have months := ofDigitChars_zeroPad (by decide) (month_lt now)
  have days := ofDigitChars_zeroPad (by decide) (day_lt now)
  have hours := ofDigitChars_zeroPad (by decide) (hour_lt_hundred now)
  have minutes := ofDigitChars_zeroPad (by decide) (minute_lt_hundred now)
  cases unit <;> simp only [period?, Option.some.injEq, reduceCtorEq] at units <;> subst period <;>
    simp [windowId, zeroPadInt_of_nonneg 4 inRange.1, String.toList_append,
      Nat.ofDigitChars_append, years, months, days, hours, minutes, windowNumber]

theorem monthNumber_lt (firstRange : FourDigitYear first)
    (later : (date first).monthIndex < (date second).monthIndex) :
    windowNumber first .month < windowNumber second .month := by
  have := firstRange.1
  have := (date first).month_pos
  have := (date first).month_le
  have := (date second).month_pos
  have := (date second).month_le
  simp only [Date.monthIndex] at later
  simp only [windowNumber]
  omega

theorem dayNumber_lt (firstRange : FourDigitYear first)
    (later : (date first).dayNumber < (date second).dayNumber) :
    windowNumber first .day < windowNumber second .day := by
  have firstDay := day_lt first
  rcases Date.lt_cases later with earlier | ⟨same, less⟩
  · have months := monthNumber_lt firstRange earlier
    simp only [windowNumber] at months ⊢
    omega
  · have ⟨sameYear, sameMonth⟩ := Date.year_month_eq_of_monthIndex_eq same
    simp only [windowNumber, sameYear, sameMonth]
    omega

/-- A later window spells a larger number. -/
theorem windowNumber_lt (firstRange : FourDigitYear first)
    (later : period.index first < period.index second) :
    windowNumber first period < windowNumber second period := by
  cases period with
  | month => exact monthNumber_lt firstRange later
  | day =>
      apply dayNumber_lt firstRange
      simp only [Period.index] at later
      simp only [dayNumber_date]
      omega
  | minute =>
      simp only [Period.index] at later
      by_cases sameDay : first / 86400000000000 = second / 86400000000000
      · simp only [windowNumber, date_eq_iff.mpr sameDay]
        unfold hour minute
        omega
      · have days : windowNumber first .day < windowNumber second .day := by
          apply dayNumber_lt firstRange
          simp only [dayNumber_date]
          omega
        have := hour_lt first
        have := minute_lt first
        simp only [windowNumber] at days ⊢
        omega

/-- The ids of the windows of one unit are in lexicographic order. -/
theorem windowId_lt (firstRange : FourDigitYear first) (secondRange : FourDigitYear second)
    (units : period? unit = some period) (later : period.index first < period.index second) :
    windowId first unit < windowId second unit := by
  apply lt_of_ofDigitChars_lt
  · rw [length_windowId firstRange units, length_windowId secondRange units]
  · exact fun char => isDigit_of_mem_windowId firstRange
  · exact fun char => isDigit_of_mem_windowId secondRange
  · rw [ofDigitChars_windowId firstRange units, ofDigitChars_windowId secondRange units]
    exact windowNumber_lt firstRange later

end Order

/-- The beginning of the calendar minute, day or month of `now`. -/
def calendarStart? (now : ℤ) : TimeUnit → Option ℤ
  | .minute =>
      ofYmdHms? (date now).year (date now).month (date now).day (hour now) (minute now) 0
  | .day => ofYmdHms? (date now).year (date now).month (date now).day 0 0 0
  | .month => ofYmdHms? (date now).year (date now).month 1 0 0 0
  | .unspecified => none

theorem calendarStart?_eq {unit : TimeUnit} {period : Period} (now : ℤ)
    (units : period? unit = some period) : calendarStart? now unit = some (period.start now) := by
  cases unit with
  | unspecified => simp [period?] at units
  | minute =>
      simp only [period?, Option.some.injEq] at units
      subst period
      exact ofYmdHms?_minute now
  | day =>
      simp only [period?, Option.some.injEq] at units
      subst period
      exact ofYmdHms?_day now
  | month =>
      simp only [period?, Option.some.injEq] at units
      subst period
      exact ofYmdHms?_month now

/-- The windows of a unit tile the time line: the window of `now` is its calendar minute, day or
month, its id is that of no other window, and the next one follows it in time and as a text. -/
theorem computeWindow_partitions (now : ℤ) (unit : TimeUnit) (period : Period)
    (units : period? unit = some period) (yearPos : 1 ≤ (date now).year)
    (yearLe : (date now).year ≤ 9998) :
    ∃ start window, calendarStart? now unit = some start ∧
      computeWindow now unit = some window ∧
      start ≤ now ∧ now < window.resetAt ∧
      window.resetAt - start = period.length now ∧
      (∀ instant, start ≤ instant → instant < window.resetAt →
        ∃ same, computeWindow instant unit = some same ∧ same.windowId = window.windowId ∧
          same.resetAt = window.resetAt) ∧
      (∀ instant other, instant < start ∨ window.resetAt ≤ instant →
        computeWindow instant unit = some other → other.windowId ≠ window.windowId) ∧
      (∃ next, computeWindow window.resetAt unit = some next ∧
        calendarStart? window.resetAt unit = some window.resetAt ∧
        window.windowId < next.windowId) ∧
      0 ≤ window.remainingSecs ∧
      window.remainingSecs * 1000000000 ≤ window.resetAt - now ∧
      window.resetAt - now < (window.remainingSecs + 1) * 1000000000 := by
  have inRange : FourDigitYear now := ⟨by omega, by omega⟩
  have nextRange : FourDigitYear (period.finish now) := by
    have := period.year_le_year_finish now
    have := period.year_finish_le now
    exact ⟨by omega, by omega⟩
  have nextStart := calendarStart?_eq (period.finish now) units
  rw [period.start_finish] at nextStart
  have notOver := period.lt_finish now
  refine ⟨period.start now, _, calendarStart?_eq now units,
    computeWindow_eq inRange.representable units, period.start_le now, notOver,
    period.finish_sub_start now, ?_, ?_,
    ⟨_, computeWindow_eq nextRange.representable units, nextStart,
      windowId_lt inRange nextRange units (period.index_lt_index_finish now)⟩, ?_, ?_, ?_⟩
  · intro instant begun notOver
    have same : period.index instant = period.index now := period.index_eq_iff.mpr ⟨begun, notOver⟩
    have inSameYear : FourDigitYear instant := by
      rw [FourDigitYear, period.year_eq_of_index_eq same]
      exact inRange
    exact ⟨_, computeWindow_eq inSameYear.representable units, windowId_congr units same,
      period.finish_congr same⟩
  · intro instant other outside computed sameId
    rcases computeWindow_eq_some computed with ⟨otherPeriod, _, rfl⟩
    have same := period.index_eq_iff.mp (index_eq_of_windowId_eq units sameId)
    dsimp only at outside
    omega
  · dsimp only
    omega
  · dsimp only
    omega
  · dsimp only
    omega

/-- The noon of 15 February 2028, in a leap year: the window has 29 days. -/
theorem computeWindow_partitions_leapFebruary :
    ∃ start window, calendarStart? 1834228800000000000 .month = some start ∧
      computeWindow 1834228800000000000 .month = some window ∧
      window.resetAt - start = 29 * 86400000000000 := by
  rcases computeWindow_partitions 1834228800000000000 .month .month rfl (by decide +kernel)
    (by decide +kernel) with ⟨start, window, isStart, isWindow, _, _, isLength, _⟩
  exact ⟨start, window, isStart, isWindow, isLength.trans (by decide +kernel)⟩

section Keys

/-- Two counter keys are equal exactly for the same limit, unit and calendar period. -/
theorem counterKey_windowId_eq_iff {first second : LimitKey} {firstUnit secondUnit : TimeUnit}
    {firstPeriod secondPeriod : Period} {firstNow secondNow : ℤ}
    (firstNames : Grammatical first) (secondNames : Grammatical second)
    (firstRange : FourDigitYear firstNow) (secondRange : FourDigitYear secondNow)
    (firstUnits : period? firstUnit = some firstPeriod)
    (secondUnits : period? secondUnit = some secondPeriod) :
    counterKey first (windowId firstNow firstUnit) =
        counterKey second (windowId secondNow secondUnit) ↔
      first = second ∧ firstUnit = secondUnit ∧
        firstPeriod.index firstNow = firstPeriod.index secondNow := by
  constructor
  · intro equal
    rcases counterKey_inj firstNames secondNames (colon_notMem_windowId _ _)
      (colon_notMem_windowId _ _) equal with ⟨keys, ids⟩
    exact ⟨keys, (windowId_eq_iff firstRange secondRange firstUnits secondUnits).mp ids⟩
  · rintro ⟨rfl, rfl, sameIndex⟩
    rw [windowId_congr firstUnits sameIndex]

/-- What a cluster hashes of a counter key ends at a closing brace before the window id. -/
theorem hashTag_counterKey {key : LimitKey} (names : Grammatical key) (windowId : String) :
    Redis.hashTag (counterKey key windowId) =
      String.ofList ((key.serviceName.toList ++ '|' :: (key.customerId.toList ++
        '|' :: key.rateLimitId.toList)).takeWhile (· ≠ '}')) := by
  have opened : ((counterKey key windowId).toList.dropWhile (· ≠ '{')).drop 1 =
      (key.serviceName.toList ++ '|' :: (key.customerId.toList ++ '|' :: key.rateLimitId.toList)) ++
        '}' :: (":cnt".toList ++ ':' :: windowId.toList) := by
    rw [toList_counterKey]
    simp
  have tagged := @takeWhile_append_cons Char '}' (fun char => char ≠ '}') (by decide)
    (key.serviceName.toList ++ '|' :: (key.customerId.toList ++ '|' :: key.rateLimitId.toList))
    (":cnt".toList ++ ':' :: windowId.toList)
  have nonempty : (key.serviceName.toList ++ '|' :: (key.customerId.toList ++
      '|' :: key.rateLimitId.toList)).takeWhile (· ≠ '}') ≠ [] := by
    have free := (Management.LimitValidator.notMem_of_validateServiceName names.1).2
    cases service : key.serviceName.toList with
    | nil => simp
    | cons char rest =>
        rw [service] at free
        have different : char ≠ '}' := fun isBrace => free (isBrace ▸ List.mem_cons_self)
        simp [different]
  simp only [Redis.hashTag, opened, tagged]
  rw [if_pos ⟨nonempty, by simp⟩]

/-- Counter keys of grammatical names collide for no two limits or windows, whatever the customer
ids contain, and all windows of a limit are hashed to the same slot. -/
theorem counterKey_collision_free (first second : LimitKey) (firstUnit secondUnit : TimeUnit)
    (firstNow secondNow : ℤ) (firstWindow secondWindow : Window)
    (firstNames : Grammatical first) (secondNames : Grammatical second)
    (firstRange : FourDigitYear firstNow) (secondRange : FourDigitYear secondNow)
    (firstComputed : computeWindow firstNow firstUnit = some firstWindow)
    (secondComputed : computeWindow secondNow secondUnit = some secondWindow) :
    (counterKey first firstWindow.windowId = counterKey second secondWindow.windowId ↔
      first = second ∧
        (firstUnit, firstWindow.resetAt) = (secondUnit, secondWindow.resetAt)) ∧
    Redis.hashTag (counterKey first firstWindow.windowId) =
      Redis.hashTag (counterKey first secondWindow.windowId) := by
  constructor
  · rcases computeWindow_eq_some firstComputed with ⟨firstPeriod, firstUnits, rfl⟩
    rcases computeWindow_eq_some secondComputed with ⟨secondPeriod, secondUnits, rfl⟩
    apply (counterKey_windowId_eq_iff firstNames secondNames firstRange secondRange firstUnits
      secondUnits).trans
    simp only [Prod.mk.injEq]
    apply and_congr_right
    intro _
    apply and_congr_right
    rintro rfl
    rw [firstUnits, Option.some.injEq] at secondUnits
    subst secondPeriod
    exact ⟨firstPeriod.finish_congr, firstPeriod.index_eq_of_finish_eq⟩
  · rw [hashTag_counterKey firstNames, hashTag_counterKey firstNames]

/-- A customer id that imitates the end of another key, in a minute and in a day window. -/
theorem counterKey_collision_free_sample :
    counterKey ⟨"search", "acme|query\x7d:cnt:20260314", "query"⟩ "202603140926" ≠
        counterKey ⟨"search", "acme", "query"⟩ "20260314" ∧
      Redis.hashTag
          (counterKey ⟨"search", "acme|query\x7d:cnt:20260314", "query"⟩ "202603140926") =
        Redis.hashTag
          (counterKey ⟨"search", "acme|query\x7d:cnt:20260314", "query"⟩ "20260314") := by
  have free := counterKey_collision_free ⟨"search", "acme|query\x7d:cnt:20260314", "query"⟩
    ⟨"search", "acme", "query"⟩ .minute .day 1773480360000000000 1773480360000000000
    ⟨"202603140926", 1773480420000000000, 60⟩ ⟨"20260314", 1773532800000000000, 52440⟩
    ⟨rfl, rfl⟩ ⟨rfl, rfl⟩ (by decide +kernel) (by decide +kernel) (by decide +kernel)
    (by decide +kernel)
  exact ⟨fun equal => absurd (free.1.mp equal).1 (by decide), free.2⟩

end Keys

end RateLimiter.Enforcer
