import Mathlib.Data.Rat.Floor
import Mathlib.Tactic.FieldSimp
import Mathlib.Tactic.NormNum
import RateLimiter.Lib.CivilTime
import RateLimiter.Lib.Double
import RateLimiter.Lib.Encoding

/-!
# JavaScript values

The values that `JSON.parse` and query strings produce, and the conversions
`Number(x)`, `String(x)`, `Boolean(x)` and `toISOString` on them. Numbers are
IEEE doubles: `Number.round` takes a rational to the nearest one, ties to the
even significand. The two zeros are one here, since no conversion to text or
comparison tells them apart.
-/

namespace JavaScript

inductive Number where
  | nan
  | infinity (negative : Bool)
  | finite (value : ℚ)
deriving DecidableEq

namespace Number

/-- The largest `exponent` with `2 ^ exponent ≤ numerator / denominator`. -/
def floorLog2 (numerator denominator : ℕ) : ℤ :=
  let estimate : ℤ := numerator.log2 - denominator.log2
  if (2 : ℚ) ^ estimate ≤ numerator / denominator then estimate else estimate - 1

def roundHalfEven (value : ℚ) : ℤ :=
  let lower := ⌊value⌋
  let rest := value - lower
  if rest < 1 / 2 ∨ rest = 1 / 2 ∧ lower % 2 = 0 then lower else lower + 1

def round (value : ℚ) : Number :=
  if value = 0 then .finite 0
  else
    let unit : ℚ := 2 ^ max (floorLog2 value.num.natAbs value.den - 52) (-1074)
    let magnitude := roundHalfEven (|value| / unit) * unit
    if 2 ^ 1024 ≤ magnitude then .infinity (value < 0)
    else .finite (if value < 0 then -magnitude else magnitude)

def ofInt (value : ℤ) : Number := round value

def isFinite : Number → Bool
  | .finite _ => true
  | _ => false

def isInteger : Number → Bool
  | .finite value => value.den = 1
  | _ => false

/-- `first < second` -/
def lt : Number → Number → Bool
  | .finite first, .finite second => first < second
  | .finite _, .infinity negative => !negative
  | .infinity negative, .finite _ => negative
  | .infinity first, .infinity second => first && !second
  | _, _ => false

/-- `Math.max(number, 0)` -/
def maxZero (number : Number) : Number :=
  if number.lt (.finite 0) then .finite 0 else number

def isSpace (char : Char) : Bool :=
  [0x09, 0x0A, 0x0B, 0x0C, 0x0D, 0x20, 0xA0, 0x1680, 0x2028, 0x2029, 0x202F, 0x205F, 0x3000,
    0xFEFF].contains char.toNat || (0x2000 ≤ char.toNat && char.toNat ≤ 0x200A)

def trim (text : List Char) : List Char :=
  ((text.dropWhile isSpace).reverse.dropWhile isSpace).reverse

def digit? (radix : ℕ) (char : Char) : Option ℕ :=
  let value :=
    if '0' ≤ char ∧ char ≤ '9' then char.toNat - '0'.toNat
    else if 'a' ≤ char ∧ char ≤ 'z' then char.toNat - 'a'.toNat + 10
    else if 'A' ≤ char ∧ char ≤ 'Z' then char.toNat - 'A'.toNat + 10
    else radix
  if value < radix then some value else none

def digits? (radix : ℕ) (text : List Char) : Option ℕ :=
  text.foldl (fun value char => do return (← value) * radix + (← digit? radix char)) (some 0)

def exponent? (text : List Char) : Option ℤ :=
  match text with
  | '-' :: rest => if rest = [] then none else (digits? 10 rest).map fun value => -(value : ℤ)
  | '+' :: rest => if rest = [] then none else (digits? 10 rest).map Int.ofNat
  | rest => if rest = [] then none else (digits? 10 rest).map Int.ofNat

def decimal? (text : List Char) : Option ℚ := do
  let (mantissa, rest) := text.span fun char => char ≠ 'e' ∧ char ≠ 'E'
  let exponent ←
    match rest with
    | [] => some 0
    | _ :: exponent => exponent? exponent
  let (whole, rest) := mantissa.span (· ≠ '.')
  let fraction := rest.drop 1
  if whole = [] ∧ fraction = [] then none
  else do
    let number ← digits? 10 (whole ++ fraction)
    return number * (10 : ℚ) ^ (exponent - fraction.length)

def unsigned? (text : List Char) : Option Number :=
  if text = "Infinity".toList then some (.infinity false) else (decimal? text).map round

def negate : Number → Number
  | .nan => .nan
  | .infinity negative => .infinity !negative
  | .finite value => .finite (-value)

/-- `Number(text)` -/
def ofText (text : String) : Number :=
  let radix (radix : ℕ) (text : List Char) : Number :=
    if text = [] then .nan else ((digits? radix text).map fun value => round value).getD .nan
  match trim text.toList with
  | [] => .finite 0
  | '0' :: 'x' :: rest => radix 16 rest
  | '0' :: 'X' :: rest => radix 16 rest
  | '0' :: 'o' :: rest => radix 8 rest
  | '0' :: 'O' :: rest => radix 8 rest
  | '0' :: 'b' :: rest => radix 2 rest
  | '0' :: 'B' :: rest => radix 2 rest
  | '-' :: rest => ((unsigned? rest).map negate).getD .nan
  | '+' :: rest => (unsigned? rest).getD .nan
  | rest => (unsigned? rest).getD .nan

/-- The exact value of a numeric text, which `Number` rounds; absent where there is none. -/
def literal? (text : String) : Option ℚ :=
  let radix (radix : ℕ) (text : List Char) : Option ℚ :=
    if text = [] then none else (digits? radix text).map Nat.cast
  match trim text.toList with
  | [] => some 0
  | '0' :: 'x' :: rest => radix 16 rest
  | '0' :: 'X' :: rest => radix 16 rest
  | '0' :: 'o' :: rest => radix 8 rest
  | '0' :: 'O' :: rest => radix 8 rest
  | '0' :: 'b' :: rest => radix 2 rest
  | '0' :: 'B' :: rest => radix 2 rest
  | '-' :: rest => (decimal? rest).map Neg.neg
  | '+' :: rest => decimal? rest
  | rest => decimal? rest

/-- The number of decimal digits before the point, negative when zeros follow it. -/
def decimalExponent (value : ℚ) : ℤ :=
  if 1 ≤ value then (Nat.toDigits 10 ⌊value⌋.toNat).length
  else -(((List.range 324).find? fun zeros => 1 ≤ value * 10 ^ (zeros + 1)).getD 0 : ℕ)

/-- The shortest digits that denote a positive double, the nearest of them, and how many of them
stand before the point. -/
def shortestDigits (value : ℚ) : List Char × ℤ :=
  let exponent := decimalExponent value
  let denotes (count digits : ℤ) : Bool :=
    round (digits * (10 : ℚ) ^ (exponent - count)) = .finite value
  let attempt (count : ℕ) : Option (ℤ × ℤ) :=
    let scaled := value * (10 : ℚ) ^ (count - exponent)
    let nearest := roundHalfEven scaled
    let other := if nearest ≤ scaled then nearest + 1 else nearest - 1
    ([nearest, other].find? fun digits => 10 ^ (count - 1) ≤ digits ∧ denotes count digits).map
      fun digits => if digits = 10 ^ count then (1, exponent + 1) else (digits, exponent)
  let (digits, exponent) :=
    ((List.range 17).findSome? fun count => attempt (count + 1)).getD (0, exponent)
  (Nat.toDigits 10 digits.toNat, exponent)

/-- `String(number)` of a positive double. -/
def positiveText (value : ℚ) : List Char :=
  let (digits, exponent) := shortestDigits value
  let count : ℤ := digits.length
  if count ≤ exponent ∧ exponent ≤ 21 then
    digits ++ List.replicate (exponent - count).toNat '0'
  else if 0 < exponent ∧ exponent ≤ 21 then
    digits.take exponent.toNat ++ '.' :: digits.drop exponent.toNat
  else if -6 < exponent ∧ exponent ≤ 0 then
    '0' :: '.' :: List.replicate (-exponent).toNat '0' ++ digits
  else
    let power := exponent - 1
    let scale := 'e' :: (if power < 0 then '-' else '+') :: Nat.toDigits 10 power.natAbs
    if count = 1 then digits ++ scale else digits.take 1 ++ '.' :: digits.drop 1 ++ scale

/-- `String(number)` -/
def toText : Number → String
  | .nan => "NaN"
  | .infinity negative => if negative then "-Infinity" else "Infinity"
  | .finite value =>
      if value = 0 then "0"
      else if value < 0 then String.ofList ('-' :: positiveText (-value))
      else String.ofList (positiveText value)

def truncate (value : ℚ) : ℤ :=
  if value < 0 then -⌊-value⌋ else ⌊value⌋

/-- What a number becomes in a field of 64 bits: it saturates. -/
def toInt64 : Number → ℤ
  | .nan => 0
  | .infinity negative => if negative then -2 ^ 63 else 2 ^ 63 - 1
  | .finite value => max (-2 ^ 63) (min (2 ^ 63 - 1) (truncate value))

/-- What a number becomes in a field of 32 bits: `number | 0`. -/
def toInt32 : Number → ℤ
  | .finite value => (truncate value).bmod (2 ^ 32)
  | _ => 0

theorem roundHalfEven_natCast (value : ℕ) : roundHalfEven value = value := by
  simp [roundHalfEven]

/-- Rounding a quotient looks at the remainder. -/
theorem roundHalfEven_div (number : ℕ) {unit : ℕ} (positive : 0 < unit) :
    roundHalfEven (number / unit : ℚ) =
      if 2 * (number % unit) < unit ∨ 2 * (number % unit) = unit ∧ number / unit % 2 = 0 then
        (number / unit : ℕ)
      else (number / unit + 1 : ℕ) := by
  have floor : ⌊(number / unit : ℚ)⌋ = (number / unit : ℕ) := by
    exact_mod_cast Rat.floor_natCast_div_natCast number unit
  have isUnit : (0 : ℚ) < unit := by exact_mod_cast positive
  have split : (number : ℚ) = unit * (number / unit : ℕ) + (number % unit : ℕ) := by
    exact_mod_cast (Nat.div_add_mod number unit).symm
  have rest : (number / unit : ℚ) - ((number / unit : ℕ) : ℤ) = (number % unit : ℕ) / unit := by
    rw [Int.cast_natCast, div_sub' isUnit.ne', div_left_inj' isUnit.ne']
    linarith
  have below : ((number % unit : ℕ) / unit : ℚ) < 1 / 2 ↔ 2 * (number % unit) < unit := by
    rw [div_lt_div_iff₀ isUnit two_pos, one_mul, mul_comm]
    exact_mod_cast Iff.rfl
  have tie : ((number % unit : ℕ) / unit : ℚ) = 1 / 2 ↔ 2 * (number % unit) = unit := by
    rw [div_eq_div_iff isUnit.ne' two_ne_zero, one_mul, mul_comm]
    exact_mod_cast Iff.rfl
  have even : ((number / unit : ℕ) : ℤ) % 2 = 0 ↔ number / unit % 2 = 0 := by omega
  simp only [roundHalfEven, floor, rest, below, tie, even]
  split <;> push_cast <;> rfl

theorem floorLog2_natCast {number : ℕ} (nonzero : number ≠ 0) :
    floorLog2 number 1 = number.log2 := by
  have lower : (2 : ℚ) ^ number.log2 ≤ number := by
    exact_mod_cast Nat.log2_self_le nonzero
  have isOne : Nat.log2 1 = 0 := by decide
  simp [floorLog2, isOne, lower]

/-- The significand of an integer, in units of its last place. -/
theorem roundNat_eq_scaled {number : ℕ} (nonzero : number ≠ 0) :
    (Double.roundNat number : ℚ) =
      roundHalfEven (number / 2 ^ ((number.log2 : ℤ) - 52)) * 2 ^ ((number.log2 : ℤ) - 52) := by
  rcases Nat.lt_or_ge number (2 ^ 53) with short | long
  · have shortLog := (Nat.log2_lt nonzero).mpr short
    have scaled : (number : ℚ) / 2 ^ ((number.log2 : ℤ) - 52) =
        (number * 2 ^ (52 - number.log2) : ℕ) := by
      rw [show (number.log2 : ℤ) - 52 = -((52 - number.log2 : ℕ) : ℤ) by omega, zpow_neg,
        zpow_natCast]
      push_cast
      field_simp
    rw [scaled, roundHalfEven_natCast, Int.cast_natCast, ← scaled,
      div_mul_cancel₀ _ (zpow_ne_zero _ two_ne_zero), Double.roundNat, if_pos short.le]
  · have wide : 53 ≤ number.log2 := (Nat.le_log2 nonzero).mpr long
    have isUnit : (2 : ℚ) ^ ((number.log2 : ℤ) - 52) = (2 ^ (number.log2 - 52) : ℕ) := by
      rw [show (number.log2 : ℤ) - 52 = ((number.log2 - 52 : ℕ) : ℤ) by omega, zpow_natCast]
      push_cast
      rfl
    rw [isUnit, roundHalfEven_div number (Nat.two_pow_pos _)]
    rcases Nat.eq_or_lt_of_le long with rfl | large
    · rw [show Nat.log2 (2 ^ 53) = 53 by decide, if_pos (by decide)]
      norm_num [Double.roundNat]
    · rw [Double.roundNat, if_neg (Nat.not_le.mpr large)]
      dsimp only
      split <;> push_cast <;> rfl

/-- An integer is rounded, unless it is too large for a double. -/
theorem ofInt_eq {value : ℤ} (nonneg : 0 ≤ value) :
    ofInt value =
      if (2 : ℚ) ^ 1024 ≤ Double.roundInt value then .infinity false
      else .finite (Double.roundInt value) := by
  rcases Int.eq_ofNat_of_zero_le nonneg with ⟨number, rfl⟩
  by_cases isZero : number = 0
  · subst isZero
    simp [ofInt, round, Double.roundInt, Double.roundNat]
  have isRound : (Double.roundInt (number : ℤ) : ℚ) = Double.roundNat number := by
    exact_mod_cast Double.roundInt_natCast number
  have isUnit : max ((number.log2 : ℤ) - 52) (-1074) = (number.log2 : ℤ) - 52 := by omega
  have nonzero : (number : ℚ) ≠ 0 := by exact_mod_cast isZero
  have positive : ¬(number : ℚ) < 0 := by simp
  rw [isRound, roundNat_eq_scaled isZero]
  simp only [ofInt, round, Int.cast_natCast, Rat.num_natCast, Rat.den_natCast,
    Int.natAbs_natCast, floorLog2_natCast isZero, isUnit, Nat.abs_cast, nonzero, positive,
    if_false, decide_false]

/-- An integer of at most 53 bits is a double. -/
theorem ofInt_eq_finite {value : ℤ} (nonneg : 0 ≤ value) (short : value < 2 ^ 53) :
    ofInt value = .finite value := by
  have small : ¬(2 : ℚ) ^ 1024 ≤ value := by
    have bounded : (value : ℚ) < 2 ^ 53 := by exact_mod_cast short
    have larger : (2 : ℚ) ^ 53 ≤ 2 ^ 1024 := by gcongr <;> norm_num
    exact not_le.mpr (lt_of_lt_of_le bounded larger)
  rw [ofInt_eq nonneg, Double.roundInt_eq_self (by omega) (by omega), if_neg small]

theorem toInt64_ofInt {value : ℤ} (nonneg : 0 ≤ value) :
    (ofInt value).toInt64 = min (2 ^ 63 - 1) (Double.roundInt value) := by
  have rounded := Double.roundInt_nonneg nonneg
  rw [ofInt_eq nonneg]
  split
  · rename_i large
    have larger : (2 : ℚ) ^ 63 ≤ 2 ^ 1024 := by gcongr <;> norm_num
    have beyond : (2 : ℤ) ^ 63 ≤ Double.roundInt value := by exact_mod_cast larger.trans large
    simp only [toInt64, Bool.false_eq_true, if_false]
    omega
  · have notNegative : ¬(Double.roundInt value : ℚ) < 0 := by exact_mod_cast rounded.not_gt
    simp only [toInt64, truncate, notNegative, if_false, Int.floor_intCast]
    omega

theorem round_neg (value : ℚ) : round (-value) = (round value).negate := by
  by_cases isZero : value = 0
  · simp [isZero, round, negate]
  simp only [round, neg_eq_zero, isZero, if_false, Rat.num_neg_eq_neg_num, Int.natAbs_neg,
    Rat.den_neg_eq_den, abs_neg]
  rcases lt_or_gt_of_ne isZero with negative | positive
  · have opposite : ¬-value < 0 := by linarith
    split <;> simp [negate, negative, opposite]
  · have opposite : -value < 0 := by linarith
    split <;> simp [negate, positive.not_gt, opposite]

theorem ofText_eq_round {text : String} {value : ℚ} (isValue : literal? text = some value) :
    ofText text = round value := by
  have unsigned {rest : List Char} {value : ℚ} (isValue : decimal? rest = some value) :
      unsigned? rest = some (round value) := by
    rw [unsigned?, if_neg, isValue, Option.map_some]
    rintro rfl
    rw [show decimal? "Infinity".toList = none by decide] at isValue
    simp at isValue
  have based {radix : ℕ} {rest : List Char}
      (isValue : (if rest = [] then none else (digits? radix rest).map Nat.cast) = some value) :
      (if rest = [] then nan else ((digits? radix rest).map fun digits => round digits).getD nan) =
        round value := by
    by_cases empty : rest = []
    · simp [empty] at isValue
    · rw [if_neg empty, Option.map_eq_some_iff] at isValue
      rcases isValue with ⟨digits, isDigits, rfl⟩
      simp [empty, isDigits]
  simp only [literal?] at isValue
  simp only [ofText]
  split at isValue
  · rw [← Option.some.inj isValue]
    rfl
  · exact based isValue
  · exact based isValue
  · exact based isValue
  · exact based isValue
  · exact based isValue
  · exact based isValue
  · rcases Option.map_eq_some_iff.mp isValue with ⟨opposite, isOpposite, rfl⟩
    rw [unsigned isOpposite, Option.map_some, Option.getD_some, round_neg]
  · rw [unsigned isValue, Option.getD_some]
  · rw [unsigned isValue, Option.getD_some]

/-- A text that denotes a positive integer is not sent as zero. -/
theorem toInt64_ofText_pos {text : String} {number : ℤ} (isNumber : literal? text = some number)
    (positive : 0 < number) : 0 < (ofText text).toInt64 := by
  have rounded := Double.roundInt_pos positive
  have sent := toInt64_ofInt positive.le
  rw [ofText_eq_round isNumber, ← ofInt]
  omega

theorem toInt64_finite {value : ℤ} (nonneg : 0 ≤ value) (short : value < 2 ^ 53) :
    (Number.finite value).toInt64 = value := by
  simp [toInt64, truncate]
  omega

end Number

inductive Value where
  | undefined
  | null
  | boolean (value : Bool)
  | number (value : Number)
  | string (value : String)
  | array (items : List Value)
  | object (fields : List (String × Value))

namespace Value

/-- `Boolean(value)` -/
def truthy : Value → Bool
  | .undefined => false
  | .null => false
  | .boolean value => value
  | .number value => value ≠ .nan ∧ value ≠ .finite 0
  | .string value => value ≠ ""
  | .array _ => true
  | .object _ => true

/-- The property of an object, undefined when there is none. -/
def property (fields : List (String × Value)) (name : String) : Value :=
  ((fields.find? fun field => field.1 = name).map Prod.snd).getD .undefined

mutual

/-- `String(value)`; absent where an object without a usable `toString` makes it throw. -/
def toText : Value → Option String
  | .undefined => some "undefined"
  | .null => some "null"
  | .boolean value => some (if value then "true" else "false")
  | .number value => some value.toText
  | .string value => some value
  | .array items => (itemTexts items).map (String.intercalate ",")
  | .object fields =>
      if fields.any fun field => field.1 = "toString" then none else some "[object Object]"

/-- The texts that `join` puts together. -/
def itemTexts : List Value → Option (List String)
  | [] => some []
  | .undefined :: rest => (itemTexts rest).map ("" :: ·)
  | .null :: rest => (itemTexts rest).map ("" :: ·)
  | item :: rest => do return (← toText item) :: (← itemTexts rest)

end

/-- `Number(value)`; absent where it throws. -/
def toNumber : Value → Option Number
  | .undefined => some .nan
  | .null => some (.finite 0)
  | .boolean value => some (.finite (if value then 1 else 0))
  | .number value => some value
  | value => value.toText.map Number.ofText

end Value

/-- The capitals of a character. Those outside ASCII that are not listed here have capitals
outside ASCII and are left alone. -/
def upperCase (char : Char) : List Char :=
  match char with
  | 'ı' => ['I']
  | 'ſ' => ['S']
  | 'ß' => ['S', 'S']
  | 'ﬀ' => ['F', 'F']
  | 'ﬁ' => ['F', 'I']
  | 'ﬂ' => ['F', 'L']
  | 'ﬃ' => ['F', 'F', 'I']
  | 'ﬄ' => ['F', 'F', 'L']
  | 'ﬅ' => ['S', 'T']
  | 'ﬆ' => ['S', 'T']
  | char => [char.toUpper]

/-- `text.toUpperCase()` -/
def toUpperCase (text : String) : String :=
  String.ofList (text.toList.flatMap upperCase)

/-- A `Map` whose keys are texts, in the order of insertion. -/
abbrev Map (Item : Type) := List (String × Item)

namespace Map

variable {Item : Type}

def get (map : Map Item) (key : String) : Option Item :=
  (map.find? fun entry => entry.1 = key).map Prod.snd

/-- An entry that exists keeps its place. -/
def set (map : Map Item) (key : String) (item : Item) : Map Item :=
  if map.any fun entry => entry.1 = key then
    map.map fun entry => if entry.1 = key then (key, item) else entry
  else map ++ [(key, item)]

def delete (map : Map Item) (key : String) : Map Item :=
  map.filter fun entry => entry.1 ≠ key

theorem get_set (map : Map Item) (key : String) (item : Item) :
    (map.set key item).get key = some item := by
  simp only [get, set]
  split
  · rename_i present
    induction map with
    | nil => simp at present
    | cons entry rest ih =>
        by_cases isKey : entry.1 = key
        · simp [isKey]
        · simp only [List.any_cons, isKey, decide_false, Bool.false_or] at present
          simp only [List.map_cons, isKey, if_false, List.find?_cons, decide_false]
          exact ih present
  · rename_i absent
    simp only [List.any_eq_true, decide_eq_true_eq, not_exists, not_and] at absent
    rw [List.find?_append, List.find?_eq_none.mpr (by simpa using absent)]
    simp

theorem get_set_of_ne (map : Map Item) {key other : String} (item : Item) (ne : other ≠ key) :
    (map.set key item).get other = map.get other := by
  simp only [get, set]
  split
  · rw [List.find?_map, Option.map_map]
    have same : (fun entry : String × Item => decide (entry.1 = other)) ∘
        (fun entry => if entry.1 = key then (key, item) else entry) =
        fun entry => decide (entry.1 = other) := by
      funext entry
      by_cases isKey : entry.1 = key
      · simp [isKey]
      · simp [isKey]
    rw [same]
    cases found : map.find? fun entry => entry.1 = other with
    | none => rfl
    | some entry =>
        have isOther : entry.1 = other := by simpa using List.find?_some found
        have notKey : entry.1 ≠ key := isOther ▸ ne
        simp [notKey]
  · rw [List.find?_append]
    cases map.find? fun entry => entry.1 = other with
    | none => simp [ne.symm]
    | some entry => rfl

theorem get_delete (map : Map Item) (key : String) : (map.delete key).get key = none := by
  simp [get, delete]

theorem get_delete_of_ne (map : Map Item) {key other : String} (ne : other ≠ key) :
    (map.delete key).get other = map.get other := by
  simp only [get, delete, List.find?_filter]
  congr 2
  funext entry
  by_cases isOther : entry.1 = other
  · simp [isOther, ne]
  · simp [isOther]

/-- Keys that differ name their items. -/
theorem get_eq_some_iff {map : Map Item} (distinct : (map.map Prod.fst).Nodup) {key : String}
    {item : Item} : map.get key = some item ↔ (key, item) ∈ map := by
  induction map with
  | nil => simp [get]
  | cons entry rest ih =>
      rcases List.nodup_cons.mp distinct with ⟨absent, restDistinct⟩
      by_cases isKey : entry.1 = key
      · have notRest : (key, item) ∉ rest :=
          fun mem => absent (isKey ▸ List.mem_map.mpr ⟨_, mem, rfl⟩)
        rcases entry with ⟨name, first⟩
        simp only at isKey
        subst name
        simp [get, notRest, eq_comm]
      · have notHead : (key, item) ≠ entry := fun same => isKey (same ▸ rfl)
        rw [List.mem_cons, or_iff_right notHead, ← ih restDistinct]
        simp [get, isKey]

theorem set_eq_append {map : Map Item} {key : String} (fresh : key ∉ map.map Prod.fst)
    (item : Item) : map.set key item = map ++ [(key, item)] := by
  rw [set, if_neg]
  rintro present
  rcases List.any_eq_true.mp present with ⟨entry, mem, isKey⟩
  exact fresh (List.mem_map.mpr ⟨entry, mem, of_decide_eq_true isKey⟩)

end Map

section Assignment

variable {Item : Type}

/-- `object[name] = item`; for the name `__proto__` this sets the prototype and no property. -/
def assign (object : Map Item) (property : String × Item) : Map Item :=
  if property.1 = "__proto__" then object else object.set property.1 property.2

/-- The object that is assigned the given properties in turn. -/
def objectOf (properties : Map Item) : Map Item :=
  properties.foldl assign []

theorem foldl_assign {object properties : Map Item}
    (ordinary : ∀ property ∈ properties, property.1 ≠ "__proto__")
    (distinct : ((object ++ properties).map Prod.fst).Nodup) :
    properties.foldl assign object = object ++ properties := by
  induction properties generalizing object with
  | nil => simp
  | cons property rest ih =>
      have fresh : property.1 ∉ object.map Prod.fst := by
        rw [List.map_append, List.map_cons] at distinct
        exact fun mem => (List.nodup_append.mp distinct).2.2 _ mem _ List.mem_cons_self rfl
      rw [List.foldl_cons, assign, if_neg (ordinary property List.mem_cons_self),
        Map.set_eq_append fresh, ih (fun other mem => ordinary other (List.mem_cons_of_mem _ mem))]
      · simp
      · simpa using distinct

/-- An object with the properties of another one is equal to it. -/
theorem objectOf_eq_self {properties : Map Item}
    (ordinary : ∀ property ∈ properties, property.1 ≠ "__proto__")
    (distinct : (properties.map Prod.fst).Nodup) : objectOf properties = properties :=
  foldl_assign ordinary distinct

end Assignment

open CivilTime Encoding in
/-- `new Date(millis).toISOString()`; absent where it throws. -/
def toIsoString (millis : ℤ) : Option String :=
  if millis < -8640000000000000 ∨ 8640000000000000 < millis then none
  else
    let instant := millis * 1000000
    let date := date instant
    let year :=
      if 0 ≤ date.year ∧ date.year ≤ 9999 then zeroPad 4 date.year.toNat
      else (if date.year < 0 then "-" else "+") ++ zeroPad 6 date.year.natAbs
    some (year ++ "-" ++ zeroPad 2 date.month ++ "-" ++ zeroPad 2 date.day ++ "T" ++
      zeroPad 2 (hour instant) ++ ":" ++ zeroPad 2 (minute instant) ++ ":" ++
      zeroPad 2 (millis / 1000 % 60).toNat ++ "." ++ zeroPad 3 (millis % 1000).toNat ++ "Z")

end JavaScript
