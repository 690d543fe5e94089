import RateLimiter.Lib.JavaScript

/-!
# The date time string format

`toISOString` prints an instant in the date time string format, and
`Date.parse` has to read every text of that format. `parseIso?` reads the
form that `toISOString` prints, and gives back the instant.
-/

namespace JavaScript

open CivilTime Gregorian Encoding

/-- The number that the first digits of a text denote, and the text behind them. -/
def numeral? (width : ℕ) (text : List Char) : Option (ℕ × List Char) :=
  let digits := text.take width
  if digits.length = width ∧ digits.all Char.isDigit then
    some (Nat.ofDigitChars 10 digits 0, text.drop width)
  else none

/-- A separator and the numeral behind it. -/
def field? (separator : Char) (width : ℕ) (text : List Char) : Option (ℕ × List Char) :=
  match text with
  | [] => none
  | char :: rest => if char = separator then numeral? width rest else none

/-- Four digits, or a sign and six of them; there is no negative zero. -/
def year? (text : List Char) : Option (ℤ × List Char) :=
  match text with
  | '+' :: rest => (numeral? 6 rest).map (Prod.map Nat.cast id)
  | '-' :: rest =>
      (numeral? 6 rest).bind fun (year, rest) =>
        if year = 0 then none else some (-(year : ℤ), rest)
  | rest => (numeral? 4 rest).map (Prod.map Nat.cast id)

/-- The time that `YYYY-MM-DDTHH:mm:ss.sssZ` denotes, in milliseconds; the years outside 0 to 9999
have a sign and six digits. -/
def parseIso? (text : String) : Option ℤ := do
  let (year, rest) ← year? text.toList
  let (month, rest) ← field? '-' 2 rest
  let (day, rest) ← field? '-' 2 rest
  let (hour, rest) ← field? 'T' 2 rest
  let (minute, rest) ← field? ':' 2 rest
  let (second, rest) ← field? ':' 2 rest
  let (milli, rest) ← field? '.' 3 rest
  if rest = ['Z'] then
    let instant ← ofYmdHms? year month day hour minute second
    let millis := instant / 1000000 + milli
    if -8640000000000000 ≤ millis ∧ millis ≤ 8640000000000000 then some millis else none
  else none

section Numerals

variable {width number : ℕ} (pos : 0 < width) (fits : number < 10 ^ width)

include pos fits

theorem numeral?_zeroPad (rest : List Char) :
    numeral? width ((zeroPad width number).toList ++ rest) = some (number, rest) := by
  have isWidth := length_zeroPad pos fits
  have digits : (zeroPad width number).toList.all Char.isDigit = true :=
    List.all_eq_true.mpr fun char mem => isDigit_of_mem_zeroPad mem
  have value := ofDigitChars_zeroPad pos fits 0
  simp only [numeral?, List.take_left' isWidth, List.drop_left' isWidth, isWidth, digits, value,
    Nat.mul_zero, Nat.zero_add, and_self, if_true]

theorem field?_zeroPad (separator : Char) (rest : List Char) :
    field? separator width (separator :: ((zeroPad width number).toList ++ rest)) =
      some (number, rest) := by
  simp only [field?, if_true, numeral?_zeroPad pos fits]

end Numerals

section Years

/-- A year as `toISOString` prints it. -/
def yearText (year : ℤ) : String :=
  if 0 ≤ year ∧ year ≤ 9999 then zeroPad 4 year.toNat
  else (if year < 0 then "-" else "+") ++ zeroPad 6 year.natAbs

/-- A year without a sign has four digits. -/
theorem year?_of_isDigit {char : Char} (digit : char.isDigit = true) (rest : List Char) :
    year? (char :: rest) = (numeral? 4 (char :: rest)).map (Prod.map Nat.cast id) := by
  unfold year?
  split
  · rename_i signed
    rw [(List.cons.inj signed).1] at digit
    exact absurd digit (by decide)
  · rename_i signed
    rw [(List.cons.inj signed).1] at digit
    exact absurd digit (by decide)
  · rfl

theorem year?_yearText {year : ℤ} (lower : -1000000 < year) (upper : year < 1000000)
    (rest : List Char) : year? ((yearText year).toList ++ rest) = some (year, rest) := by
  have sixFits : year.natAbs < 10 ^ 6 := by omega
  have six := numeral?_zeroPad (by decide) sixFits rest
  unfold yearText
  split
  · rename_i plain
    have fits : year.toNat < 10 ^ 4 := by omega
    have four := numeral?_zeroPad (by decide) fits rest
    have isYear : (year.toNat : ℤ) = year := Int.toNat_of_nonneg plain.1
    have nonempty := length_zeroPad (by decide) fits
    cases chars : (zeroPad 4 year.toNat).toList with
    | nil => simp [chars] at nonempty
    | cons char tail =>
        have digit : char.isDigit = true := isDigit_of_mem_zeroPad (chars ▸ List.mem_cons_self)
        rw [chars, List.cons_append] at four
        rw [List.cons_append, year?_of_isDigit digit, four]
        simp [isYear]
  · rename_i signed
    split
    · rename_i negative
      have isYear : -(year.natAbs : ℤ) = year := by omega
      have nonzero : year.natAbs ≠ 0 := by omega
      simp only [String.toList_append, show "-".toList = ['-'] from rfl, List.cons_append,
        List.nil_append, year?, six, Option.bind_some, nonzero, if_false, isYear]
    · rename_i positive
      have isYear : (year.natAbs : ℤ) = year := by omega
      simp only [String.toList_append, show "+".toList = ['+'] from rfl, List.cons_append,
        List.nil_append, year?, six, Option.map_some, Prod.map, id, isYear]

end Years

/-- The years of the instants that a `Date` can hold have at most six digits. -/
theorem year_bounds {millis : ℤ} (lower : -8640000000000000 ≤ millis)
    (upper : millis ≤ 8640000000000000) :
    -1000000 < (date (millis * 1000000)).year ∧ (date (millis * 1000000)).year < 1000000 := by
  have begun := (date (millis * 1000000)).daysBeforeYear_le_dayNumber
  have notOver := (date (millis * 1000000)).dayNumber_lt_daysBeforeYear_succ
  rw [dayNumber_date, epochDay] at begun notOver
  unfold daysBeforeYear at begun notOver
  omega

/-- The characters of a printed instant, field by field. -/
theorem toList_of_toIsoString {millis : ℤ} {text : String}
    (printed : toIsoString millis = some text) :
    text.toList = (yearText (date (millis * 1000000)).year).toList ++
      '-' :: ((zeroPad 2 (date (millis * 1000000)).month).toList ++
      '-' :: ((zeroPad 2 (date (millis * 1000000)).day).toList ++
      'T' :: ((zeroPad 2 (hour (millis * 1000000))).toList ++
      ':' :: ((zeroPad 2 (minute (millis * 1000000))).toList ++
      ':' :: ((zeroPad 2 (millis / 1000 % 60).toNat).toList ++
      '.' :: ((zeroPad 3 (millis % 1000).toNat).toList ++ ['Z'])))))) := by
  unfold toIsoString at printed
  split at printed
  · cases printed
  · rw [← Option.some.inj printed, yearText]
    simp only [String.toList_append, List.append_assoc, show "-".toList = ['-'] from rfl,
      show "T".toList = ['T'] from rfl, show ":".toList = [':'] from rfl,
      show ".".toList = ['.'] from rfl, show "Z".toList = ['Z'] from rfl, List.cons_append,
      List.nil_append]

theorem inRange_of_toIsoString {millis : ℤ} {text : String}
    (printed : toIsoString millis = some text) :
    -8640000000000000 ≤ millis ∧ millis ≤ 8640000000000000 := by
  unfold toIsoString at printed
  split at printed
  · cases printed
  · omega

/-- What is printed is read back. -/
theorem parseIso?_toIsoString {millis : ℤ} {text : String}
    (printed : toIsoString millis = some text) : parseIso? text = some millis := by
  have inRange := inRange_of_toIsoString printed
  have years := year_bounds inRange.1 inRange.2
  have secondFits : (millis / 1000 % 60).toNat < 10 ^ 2 := by omega
  have milliFits : (millis % 1000).toNat < 10 ^ 3 := by omega
  have sameSecond : millis * 1000000 / 1000000000 = millis / 1000 := by omega
  have instant := ofYmdHms?_second (millis * 1000000)
  rw [sameSecond] at instant
  have isMillis : millis / 1000 * 1000000000 / 1000000 + ((millis % 1000).toNat : ℤ) = millis := by
    omega
  simp only [parseIso?, toList_of_toIsoString printed, bind, year?_yearText years.1 years.2,
    Option.bind_some, field?_zeroPad (by decide) (month_lt (millis * 1000000)),
    field?_zeroPad (by decide) (day_lt (millis * 1000000)),
    field?_zeroPad (by decide) (hour_lt_hundred (millis * 1000000)),
    field?_zeroPad (by decide) (minute_lt_hundred (millis * 1000000)),
    field?_zeroPad (by decide) secondFits, field?_zeroPad (by decide) milliFits, if_true,
    instant, isMillis, inRange, and_self]

end JavaScript
