import RateLimiter.Lib.Bytes
import RateLimiter.Lib.Encoding
import RateLimiter.Management.LimitValidator

/-!
# Keyset pagination cursors

`PageToken.java`: a cursor is the last key of a page, printed and encoded in
base64. Decoding follows `Long.parseLong`, which reads every decimal digit of
the basic plane, not only the ASCII ones.
-/

namespace RateLimiter.Management

structure Page (α : Type) where
  items : List α
  nextPageToken : String
deriving DecidableEq

namespace PageToken

/-- The zeros of the decimal digits that `Character.digit(char, 10)` knows. -/
def digitZeros : List ℕ :=
  [0x0030, 0x0660, 0x06F0, 0x07C0, 0x0966, 0x09E6, 0x0A66, 0x0AE6, 0x0B66, 0x0BE6, 0x0C66,
    0x0CE6, 0x0D66, 0x0DE6, 0x0E50, 0x0ED0, 0x0F20, 0x1040, 0x1090, 0x17E0, 0x1810, 0x1946,
    0x19D0, 0x1A80, 0x1A90, 0x1B50, 0x1BB0, 0x1C40, 0x1C50, 0xA620, 0xA8D0, 0xA900, 0xA9D0,
    0xA9F0, 0xAA50, 0xABF0, 0xFF10]

/-- `Character.digit(char, 10)` -/
def digit? (char : Char) : Option ℕ :=
  (digitZeros.find? fun first => first ≤ char.toNat && char.toNat < first + 10).map
    (char.toNat - ·)

def parseDigits? (chars : List Char) : Option ℕ :=
  if chars = [] then none
  else chars.foldl (fun value char => do return (← value) * 10 + (← digit? char)) (some 0)

/-- `Long.parseLong`; absent where it throws. -/
def parseLong? (text : List Char) : Option ℤ := do
  let number ←
    match text with
    | '-' :: digits => (parseDigits? digits).map fun value => -(value : ℤ)
    | '+' :: digits => (parseDigits? digits).map Int.ofNat
    | digits => (parseDigits? digits).map Int.ofNat
  if -2 ^ 63 ≤ number ∧ number < 2 ^ 63 then some number else none

/-- `Long.toString` -/
def printLong (number : ℤ) : List Char :=
  if number < 0 then '-' :: Nat.toDigits 10 number.natAbs else Nat.toDigits 10 number.toNat

def malformed : AppException :=
  .invalidArgument "page_token" "malformed page_token"

def encode (cursor : List Char) : String :=
  String.ofList (Bytes.base64Encode (Bytes.utf8Encode cursor))

def encodeLong (cursor : ℤ) : String :=
  encode (printLong cursor)

/-- Decodes a text cursor; the empty token means from the start. -/
def decode (token : String) : Except AppException (Option (List Char)) :=
  if token = "" then .ok none
  else
    match Bytes.base64Decode? token.toList with
    | some bytes => .ok (some (Bytes.utf8Decode bytes))
    | none => .error malformed

/-- Decodes a numeric cursor; the empty token means the default. -/
def decodeLong (token : String) (defaultValue : ℤ) : Except AppException ℤ := do
  match ← decode token with
  | none => .ok defaultValue
  | some text =>
      match parseLong? text with
      | some cursor => .ok cursor
      | none => .error malformed

section RoundTrip

theorem base64Decode?_encode (cursor : List Char) :
    Bytes.base64Decode? (encode cursor).toList = some (Bytes.utf8Encode cursor) := by
  rw [encode, String.toList_ofList]
  exact Bytes.base64Decode?_base64Encode fun byte => Bytes.lt_of_mem_utf8Encode

theorem encode_ne_empty {cursor : List Char} (nonempty : cursor ≠ []) : encode cursor ≠ "" := by
  intro isEmpty
  have noBytes := base64Decode?_encode cursor
  rw [isEmpty] at noBytes
  have read := Bytes.utf8Decode_utf8Encode cursor
  rw [← Option.some.inj noBytes] at read
  exact nonempty read.symm

/-- The token of a cursor stands for that cursor. -/
theorem decode_encode {cursor : List Char} (nonempty : cursor ≠ []) :
    decode (encode cursor) = .ok (some cursor) := by
  simp only [decode, encode_ne_empty nonempty, if_false, base64Decode?_encode,
    Bytes.utf8Decode_utf8Encode]

theorem digit?_of_isDigit {char : Char} (isDigit : char.isDigit = true) :
    digit? char = some (char.toNat - '0'.toNat) := by
  have bounds := Encoding.toNat_of_isDigit isDigit
  have zero : '0'.toNat = 0x30 := rfl
  have first : (0x30 ≤ char.toNat && char.toNat < 0x30 + 10) = true := by
    simp only [Bool.and_eq_true, decide_eq_true_eq]
    omega
  simp only [digit?, digitZeros, List.find?_cons, first, Option.map_some, zero]

theorem foldl_digit? {chars : List Char} (digits : ∀ char ∈ chars, char.isDigit = true)
    (head : ℕ) :
    chars.foldl (fun value char => do return (← value) * 10 + (← digit? char)) (some head) =
      some (Nat.ofDigitChars 10 chars head) := by
  induction chars generalizing head with
  | nil => rfl
  | cons char rest ih =>
      rw [List.foldl_cons, Nat.ofDigitChars_cons, Nat.mul_comm 10 head,
        ← ih (fun char mem => digits char (List.mem_cons_of_mem _ mem))]
      rw [digit?_of_isDigit (digits char List.mem_cons_self)]
      rfl

theorem parseDigits?_toDigits (number : ℕ) :
    parseDigits? (Nat.toDigits 10 number) = some number := by
  have nonempty : Nat.toDigits 10 number ≠ [] := Nat.toDigits_ne_nil
  rw [parseDigits?, if_neg nonempty,
    foldl_digit? (fun char => Nat.isDigit_of_mem_toDigits (by decide) (by decide)),
    Nat.ofDigitChars_ten_toDigits]

/-- The cursors are identities, which are not negative. -/
theorem parseLong?_printLong {number : ℤ} (nonneg : 0 ≤ number) (upper : number < 2 ^ 63) :
    parseLong? (printLong number) = some number := by
  have digits : ∀ char ∈ Nat.toDigits 10 number.toNat, char.isDigit = true :=
    fun char => Nat.isDigit_of_mem_toDigits (by decide) (by decide)
  have value : Int.ofNat number.toNat = number := Int.toNat_of_nonneg nonneg
  have inRange : -2 ^ 63 ≤ number ∧ number < 2 ^ 63 := by omega
  simp only [printLong, Int.not_lt.mpr nonneg, if_false, parseLong?]
  split
  · rename_i signed
    exact absurd (digits '-' (signed ▸ List.mem_cons_self)) (by decide)
  · rename_i signed
    exact absurd (digits '+' (signed ▸ List.mem_cons_self)) (by decide)
  · rw [parseDigits?_toDigits, Option.map_some, value]
    exact if_pos inRange

theorem decodeLong_encodeLong {cursor : ℤ} (nonneg : 0 ≤ cursor) (upper : cursor < 2 ^ 63)
    (defaultValue : ℤ) : decodeLong (encodeLong cursor) defaultValue = .ok cursor := by
  have nonempty : printLong cursor ≠ [] := by
    simp only [printLong, Int.not_lt.mpr nonneg, if_false]
    exact Nat.toDigits_ne_nil
  simp only [decodeLong, encodeLong, decode_encode nonempty, bind, Except.bind,
    parseLong?_printLong nonneg upper]

theorem encodeLong_ne_empty {cursor : ℤ} (nonneg : 0 ≤ cursor) : encodeLong cursor ≠ "" := by
  apply encode_ne_empty
  simp only [printLong, Int.not_lt.mpr nonneg, if_false]
  exact Nat.toDigits_ne_nil

end RoundTrip

end PageToken

end RateLimiter.Management
