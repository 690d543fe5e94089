import Mathlib.Algebra.Ring.Nat

/-!
# Texts as bytes

The URL-safe base64 alphabet, written without padding and read with or without
it, and UTF-8 with the lossy reading of `new String(bytes, UTF_8)`: every
malformed sequence becomes one replacement character. Bytes are numbers below
256; what is read is always built from numbers, so the functions are total.
-/

namespace Bytes

def base64Char (sextet : ℕ) : Char :=
  if sextet < 26 then Char.ofNat ('A'.toNat + sextet)
  else if sextet < 52 then Char.ofNat ('a'.toNat + (sextet - 26))
  else if sextet < 62 then Char.ofNat ('0'.toNat + (sextet - 52))
  else if sextet = 62 then '-'
  else '_'

def sextet? (char : Char) : Option ℕ :=
  if 'A' ≤ char ∧ char ≤ 'Z' then some (char.toNat - 'A'.toNat)
  else if 'a' ≤ char ∧ char ≤ 'z' then some (char.toNat - 'a'.toNat + 26)
  else if '0' ≤ char ∧ char ≤ '9' then some (char.toNat - '0'.toNat + 52)
  else if char = '-' then some 62
  else if char = '_' then some 63
  else none

/-- `Base64.getUrlEncoder().withoutPadding()` -/
def base64Encode : List ℕ → List Char
  | first :: second :: third :: rest =>
      base64Char (first / 4) :: base64Char (first % 4 * 16 + second / 16) ::
        base64Char (second % 16 * 4 + third / 64) :: base64Char (third % 64) :: base64Encode rest
  | [first, second] =>
      [base64Char (first / 4), base64Char (first % 4 * 16 + second / 16),
        base64Char (second % 16 * 4)]
  | [first] => [base64Char (first / 4), base64Char (first % 4 * 16)]
  | [] => []

/-- `Base64.getUrlDecoder()`: the padding of the last unit may be absent, but not incomplete. -/
def base64Decode? : List Char → Option (List ℕ)
  | [] => some []
  | [_] => none
  | [first, second] => do
      let a ← sextet? first
      let b ← sextet? second
      pure [a * 4 + b / 16]
  | [first, second, third] => do
      let a ← sextet? first
      let b ← sextet? second
      let c ← sextet? third
      pure [a * 4 + b / 16, b % 16 * 16 + c / 4]
  | first :: second :: third :: fourth :: rest => do
      let a ← sextet? first
      let b ← sextet? second
      match sextet? third, sextet? fourth with
      | some c, some d =>
          let bytes ← base64Decode? rest
          pure ((a * 4 + b / 16) :: (b % 16 * 16 + c / 4) :: (c % 4 * 64 + d) :: bytes)
      | some c, none =>
          if fourth = '=' ∧ rest = [] then pure [a * 4 + b / 16, b % 16 * 16 + c / 4] else none
      | none, _ =>
          if third = '=' ∧ fourth = '=' ∧ rest = [] then pure [a * 4 + b / 16] else none

def utf8EncodeChar (char : Char) : List ℕ :=
  let code := char.toNat
  if code < 0x80 then [code]
  else if code < 0x800 then [0xC0 + code / 64, 0x80 + code % 64]
  else if code < 0x10000 then
    [0xE0 + code / 4096, 0x80 + code / 64 % 64, 0x80 + code % 64]
  else
    [0xF0 + code / 262144, 0x80 + code / 4096 % 64, 0x80 + code / 64 % 64, 0x80 + code % 64]

/-- `text.getBytes(UTF_8)` -/
def utf8Encode (text : List Char) : List ℕ :=
  text.flatMap utf8EncodeChar

def replacement : Char := Char.ofNat 0xFFFD

def isContinuation (byte : ℕ) : Bool :=
  0x80 ≤ byte && byte < 0xC0

/-- A second byte that cannot follow a three-byte lead. -/
def malformedThree (lead second : ℕ) : Bool :=
  (lead = 0xE0 && second < 0xA0) || !isContinuation second

/-- A second byte that cannot follow a four-byte lead. -/
def malformedFour (lead second : ℕ) : Bool :=
  0xF4 < lead || (lead = 0xF0 && second < 0x90) || (lead = 0xF4 && 0x90 ≤ second) ||
    !isContinuation second

/-- One step of the lossy reading: a character and the number of bytes after the lead it uses. -/
def utf8Next (lead : ℕ) (rest : List ℕ) : Char × ℕ :=
  if lead < 0x80 then (Char.ofNat lead, 0)
  else if 0xC2 ≤ lead ∧ lead < 0xE0 then
    match rest with
    | second :: _ =>
        if isContinuation second then
          (Char.ofNat ((lead - 0xC0) * 64 + (second - 0x80)), 1)
        else (replacement, 0)
    | [] => (replacement, 0)
  else if 0xE0 ≤ lead ∧ lead < 0xF0 then
    match rest with
    | second :: third :: _ =>
        if malformedThree lead second then (replacement, 0)
        else if isContinuation third then
          let code := (lead - 0xE0) * 4096 + (second - 0x80) * 64 + (third - 0x80)
          -- an encoded surrogate is replaced as a whole
          if 0xD800 ≤ code ∧ code < 0xE000 then (replacement, 2) else (Char.ofNat code, 2)
        else (replacement, 1)
    | [second] => if malformedThree lead second then (replacement, 0) else (replacement, 1)
    | [] => (replacement, 0)
  else if 0xF0 ≤ lead ∧ lead < 0xF8 then
    match rest with
    | second :: third :: fourth :: _ =>
        if malformedFour lead second then (replacement, 0)
        else if !isContinuation third then (replacement, 1)
        else if !isContinuation fourth then (replacement, 2)
        else
          (Char.ofNat ((lead - 0xF0) * 262144 + (second - 0x80) * 4096 + (third - 0x80) * 64 +
            (fourth - 0x80)), 3)
    | [second, third] =>
        if malformedFour lead second then (replacement, 0)
        else if isContinuation third then (replacement, 2)
        else (replacement, 1)
    | [second] => if malformedFour lead second then (replacement, 0) else (replacement, 1)
    | [] => (replacement, 0)
  else (replacement, 0)

/-- The lossy reading, with enough fuel for one character a byte. -/
def utf8DecodeFuel : ℕ → List ℕ → List Char
  | 0, _ => []
  | _ + 1, [] => []
  | fuel + 1, lead :: rest =>
      (utf8Next lead rest).1 :: utf8DecodeFuel fuel (rest.drop (utf8Next lead rest).2)

/-- `new String(bytes, UTF_8)` -/
def utf8Decode (bytes : List ℕ) : List Char :=
  utf8DecodeFuel bytes.length bytes

theorem sextet?_base64Char {sextet : ℕ} (lt : sextet < 64) :
    sextet? (base64Char sextet) = some sextet := by
  revert sextet
  decide

/-- What was written in base64 is read back. -/
theorem base64Decode?_base64Encode {bytes : List ℕ} (valid : ∀ byte ∈ bytes, byte < 256) :
    base64Decode? (base64Encode bytes) = some bytes := by
  fun_induction base64Encode bytes with
  | case1 first second third rest ih =>
      simp only [List.forall_mem_cons] at valid
      rcases valid with ⟨firstLt, secondLt, thirdLt, restValid⟩
      simp only [base64Decode?, sextet?_base64Char (show first / 4 < 64 by omega),
        sextet?_base64Char (show first % 4 * 16 + second / 16 < 64 by omega),
        sextet?_base64Char (show second % 16 * 4 + third / 64 < 64 by omega),
        sextet?_base64Char (show third % 64 < 64 by omega), ih restValid]
      simp
      omega
  | case2 first second =>
      simp only [List.forall_mem_cons] at valid
      rcases valid with ⟨firstLt, secondLt, _⟩
      simp only [base64Decode?, sextet?_base64Char (show first / 4 < 64 by omega),
        sextet?_base64Char (show first % 4 * 16 + second / 16 < 64 by omega),
        sextet?_base64Char (show second % 16 * 4 < 64 by omega)]
      simp
      omega
  | case3 first =>
      simp only [List.forall_mem_cons] at valid
      simp only [base64Decode?, sextet?_base64Char (show first / 4 < 64 by omega),
        sextet?_base64Char (show first % 4 * 16 < 64 by omega)]
      simp
      omega
  | case4 => rfl

section Reading

variable {char : Char}

theorem isContinuation_add_mod (number : ℕ) : isContinuation (0x80 + number % 64) = true := by
  simp only [isContinuation, Bool.and_eq_true, decide_eq_true_eq]
  omega

theorem utf8Next_two (lower : 0x80 ≤ char.toNat) (upper : char.toNat < 0x800) (rest : List ℕ) :
    utf8Next (0xC0 + char.toNat / 64) ((0x80 + char.toNat % 64) :: rest) = (char, 1) := by
  have code : (0xC0 + char.toNat / 64 - 0xC0) * 64 + (0x80 + char.toNat % 64 - 0x80) =
      char.toNat := by
    omega
  simp only [utf8Next, show ¬ 0xC0 + char.toNat / 64 < 0x80 by omega,
    show 0xC2 ≤ 0xC0 + char.toNat / 64 ∧ 0xC0 + char.toNat / 64 < 0xE0 by omega,
    isContinuation_add_mod, code, Char.ofNat_toNat, and_self, if_true, if_false]

theorem utf8Next_three (lower : 0x800 ≤ char.toNat) (upper : char.toNat < 0x10000)
    (rest : List ℕ) :
    utf8Next (0xE0 + char.toNat / 4096)
      ((0x80 + char.toNat / 64 % 64) :: (0x80 + char.toNat % 64) :: rest) = (char, 2) := by
  have valid : char.toNat < 0xD800 ∨ 0xDFFF < char.toNat ∧ char.toNat < 0x110000 := char.valid
  have code : (0xE0 + char.toNat / 4096 - 0xE0) * 4096 + (0x80 + char.toNat / 64 % 64 - 0x80) * 64 +
      (0x80 + char.toNat % 64 - 0x80) = char.toNat := by
    omega
  have wellFormed : malformedThree (0xE0 + char.toNat / 4096) (0x80 + char.toNat / 64 % 64) =
      false := by
    simp only [malformedThree, isContinuation_add_mod, Bool.not_true, Bool.or_false,
      Bool.and_eq_false_iff, decide_eq_false_iff_not]
    omega
  simp only [utf8Next, show ¬ 0xE0 + char.toNat / 4096 < 0x80 by omega,
    show ¬ (0xC2 ≤ 0xE0 + char.toNat / 4096 ∧ 0xE0 + char.toNat / 4096 < 0xE0) by omega,
    show 0xE0 ≤ 0xE0 + char.toNat / 4096 ∧ 0xE0 + char.toNat / 4096 < 0xF0 by omega,
    wellFormed, isContinuation_add_mod, code,
    show ¬ (0xD800 ≤ char.toNat ∧ char.toNat < 0xE000) by omega, Char.ofNat_toNat, and_self,
    if_true, if_false, Bool.false_eq_true]

theorem utf8Next_four (lower : 0x10000 ≤ char.toNat) (rest : List ℕ) :
    utf8Next (0xF0 + char.toNat / 262144)
      ((0x80 + char.toNat / 4096 % 64) :: (0x80 + char.toNat / 64 % 64) ::
        (0x80 + char.toNat % 64) :: rest) = (char, 3) := by
  have valid : char.toNat < 0xD800 ∨ 0xDFFF < char.toNat ∧ char.toNat < 0x110000 := char.valid
  have code : (0xF0 + char.toNat / 262144 - 0xF0) * 262144 +
      (0x80 + char.toNat / 4096 % 64 - 0x80) * 4096 + (0x80 + char.toNat / 64 % 64 - 0x80) * 64 +
      (0x80 + char.toNat % 64 - 0x80) = char.toNat := by
    omega
  have wellFormed : malformedFour (0xF0 + char.toNat / 262144) (0x80 + char.toNat / 4096 % 64) =
      false := by
    simp only [malformedFour, isContinuation_add_mod, Bool.not_true, Bool.or_false,
      Bool.or_eq_false_iff, Bool.and_eq_false_iff, decide_eq_false_iff_not]
    omega
  simp only [utf8Next, show ¬ 0xF0 + char.toNat / 262144 < 0x80 by omega,
    show ¬ (0xC2 ≤ 0xF0 + char.toNat / 262144 ∧ 0xF0 + char.toNat / 262144 < 0xE0) by omega,
    show ¬ (0xE0 ≤ 0xF0 + char.toNat / 262144 ∧ 0xF0 + char.toNat / 262144 < 0xF0) by omega,
    show 0xF0 ≤ 0xF0 + char.toNat / 262144 ∧ 0xF0 + char.toNat / 262144 < 0xF8 by omega,
    wellFormed, isContinuation_add_mod, code, Char.ofNat_toNat, and_self, if_true, if_false,
    Bool.false_eq_true, Bool.not_true]

/-- One step reads one encoded character, whatever follows it. -/
theorem utf8Next_utf8EncodeChar (char : Char) (rest : List ℕ) :
    ∃ lead tail, utf8EncodeChar char = lead :: tail ∧
      utf8Next lead (tail ++ rest) = (char, tail.length) := by
  by_cases one : char.toNat < 0x80
  · exact ⟨char.toNat, [], by simp [utf8EncodeChar, one], by simp [utf8Next, one]⟩
  · by_cases two : char.toNat < 0x800
    · exact ⟨_, _, by simp only [utf8EncodeChar, one, two, if_true, if_false]; rfl,
        utf8Next_two (Nat.le_of_not_lt one) two rest⟩
    · by_cases three : char.toNat < 0x10000
      · exact ⟨_, _, by simp only [utf8EncodeChar, one, two, three, if_true, if_false]; rfl,
          utf8Next_three (Nat.le_of_not_lt two) three rest⟩
      · exact ⟨_, _, by simp only [utf8EncodeChar, one, two, three, if_false]; rfl,
          utf8Next_four (Nat.le_of_not_lt three) rest⟩

theorem utf8DecodeFuel_utf8Encode (text : List Char) {fuel : ℕ}
    (enough : (utf8Encode text).length ≤ fuel) : utf8DecodeFuel fuel (utf8Encode text) = text := by
  induction text generalizing fuel with
  | nil => cases fuel <;> rfl
  | cons char text ih =>
      rcases utf8Next_utf8EncodeChar char (utf8Encode text) with ⟨lead, tail, isChar, reads⟩
      have encoded : utf8Encode (char :: text) = lead :: (tail ++ utf8Encode text) := by
        simp only [utf8Encode, List.flatMap_cons, isChar, List.cons_append]
      rw [encoded] at enough ⊢
      simp only [List.length_cons, List.length_append] at enough
      cases fuel with
      | zero => omega
      | succ fuel =>
          simp only [utf8DecodeFuel, reads, List.drop_left]
          rw [ih (by omega)]

/-- What was written as UTF-8 is read back. -/
theorem utf8Decode_utf8Encode (text : List Char) : utf8Decode (utf8Encode text) = text :=
  utf8DecodeFuel_utf8Encode text (Nat.le_refl _)

theorem lt_of_mem_utf8Encode {text : List Char} {byte : ℕ} (mem : byte ∈ utf8Encode text) :
    byte < 256 := by
  rcases List.mem_flatMap.mp mem with ⟨char, _, inChar⟩
  have valid : char.toNat < 0xD800 ∨ 0xDFFF < char.toNat ∧ char.toNat < 0x110000 := char.valid
  simp only [utf8EncodeChar] at inChar
  split at inChar
  · simp only [List.mem_singleton] at inChar
    omega
  · split at inChar
    · simp only [List.mem_cons, List.not_mem_nil, or_false] at inChar
      omega
    · split at inChar
      · simp only [List.mem_cons, List.not_mem_nil, or_false] at inChar
        omega
      · simp only [List.mem_cons, List.not_mem_nil, or_false] at inChar
        omega

end Reading

end Bytes
