import RateLimiter.Common

/-!
# Input validation of the control plane

`LimitValidator.java` and the typed errors it throws. Every check names the
offending field; `validateKey` and `validateLimitWrite` stop at the first one.
-/

namespace RateLimiter.Management

/-- A typed failure: its gRPC code, the offending field if any, and its message. -/
structure AppException where
  code : StatusCode
  field : Option String
  message : String
deriving DecidableEq

namespace AppException

def of (code : StatusCode) (message : String) : AppException :=
  ⟨code, none, message⟩

def invalidArgument (field message : String) : AppException :=
  ⟨.invalidArgument, some field, message⟩

/-- What `handle` answers for any other exception. -/
def unexpected : AppException :=
  .of .internal "internal error"

end AppException

/-- A time unit as received: a protobuf enum field may hold an unknown number. -/
inductive WireTimeUnit where
  | known (unit : TimeUnit)
  | unrecognized
deriving DecidableEq

/-- The number of UTF-16 code units, which is what `String.length()` counts. -/
def utf16Length (text : String) : ℕ :=
  (text.toList.map fun char => if char.toNat < 0x10000 then 1 else 2).sum

namespace LimitValidator

def isLowerAlphanumeric (char : Char) : Bool :=
  ('a' ≤ char && char ≤ 'z') || ('0' ≤ char && char ≤ '9')

/-- A pattern `^[a-z0-9][a-z0-9…]{0,most}$`, with the extra characters of the tail. -/
def matchesIdentifier (extra : List Char) (most : ℕ) (text : String) : Bool :=
  match text.toList with
  | [] => false
  | first :: rest =>
      isLowerAlphanumeric first && rest.length ≤ most &&
        rest.all fun char => isLowerAlphanumeric char || extra.contains char

/-- `^[a-z0-9][a-z0-9-]{0,62}$` -/
def matchesServiceName : String → Bool :=
  matchesIdentifier ['-'] 62

/-- `^[a-z0-9][a-z0-9._-]{0,127}$` -/
def matchesRateLimitId : String → Bool :=
  matchesIdentifier ['.', '_', '-'] 127

def customerIdMax : ℕ := 128

def pageSizeMax : ℤ := 1000

def pageSizeDefault : ℤ := 100

/-- A required text field: it must be present, and satisfy a further condition. -/
def validateText (field : String) (accepts : String → Bool) (explanation text : String) :
    Except AppException Unit :=
  if text = "" then .error (.invalidArgument field (field ++ " is required"))
  else if accepts text then .ok ()
  else .error (.invalidArgument field explanation)

def validateServiceName : String → Except AppException Unit :=
  validateText "service_name" matchesServiceName
    "service_name must match ^[a-z0-9][a-z0-9-]\x7b0,62\x7d$"

/-- The default marker is accepted without counting its characters. -/
def validateCustomerId : String → Except AppException Unit :=
  validateText "customer_id"
    (fun text => text = defaultCustomer || utf16Length text ≤ customerIdMax)
    "customer_id must be <= 128 characters"

def validateRateLimitId : String → Except AppException Unit :=
  validateText "rate_limit_id" matchesRateLimitId
    "rate_limit_id must match ^[a-z0-9][a-z0-9._-]\x7b0,127\x7d$"

def validateLimitValue (limitValue : ℤ) : Except AppException Unit :=
  if limitValue < 0 then .error (.invalidArgument "limit_value" "limit_value must be >= 0")
  else .ok ()

def validateTimeUnit : WireTimeUnit → Except AppException Unit
  | .known .unspecified | .unrecognized =>
      .error (.invalidArgument "time_unit" "time_unit must be one of MINUTE, DAY, MONTH")
  | .known _ => .ok ()

def validateKey (key : LimitKey) : Except AppException Unit := do
  validateServiceName key.serviceName
  validateCustomerId key.customerId
  validateRateLimitId key.rateLimitId

/-- Validates a limit-write payload: key, value and time unit. -/
def validateLimitWrite (key : LimitKey) (limitValue : ℤ) (timeUnit : WireTimeUnit) :
    Except AppException Unit := do
  validateKey key
  validateLimitValue limitValue
  validateTimeUnit timeUnit

/-- Clamps a requested page size into `[1, 1000]`; zero and below mean 100. -/
def clampPageSize (requested : ℤ) : ℤ :=
  if requested ≤ 0 then pageSizeDefault else min requested pageSizeMax

theorem validateText_eq_ok_iff {field explanation text : String} {accepts : String → Bool} :
    validateText field accepts explanation text = .ok () ↔ text ≠ "" ∧ accepts text = true := by
  unfold validateText
  split
  · simp_all
  · split <;> simp_all

theorem validateKey_eq_ok_iff {key : LimitKey} :
    validateKey key = .ok () ↔
      validateServiceName key.serviceName = .ok () ∧
        validateCustomerId key.customerId = .ok () ∧
        validateRateLimitId key.rateLimitId = .ok () := by
  simp only [validateKey, bind, Except.bind]
  cases validateServiceName key.serviceName with
  | error exception => simp
  | ok _ =>
      cases validateCustomerId key.customerId with
      | error exception => simp
      | ok _ => simp

theorem validateLimitWrite_eq_ok_iff {key : LimitKey} {limitValue : ℤ}
    {timeUnit : WireTimeUnit} :
    validateLimitWrite key limitValue timeUnit = .ok () ↔
      validateKey key = .ok () ∧ 0 ≤ limitValue ∧ validateTimeUnit timeUnit = .ok () := by
  simp only [validateLimitWrite, bind, Except.bind]
  cases validateKey key with
  | error exception => simp
  | ok _ =>
      by_cases negative : limitValue < 0
      · simp [validateLimitValue, negative, Int.not_le.mpr negative]
      · simp [validateLimitValue, negative, Int.not_lt.mp negative]

/-- A character of an accepted identifier is alphanumeric or one of the extra ones. -/
theorem mem_of_matchesIdentifier {extra : List Char} {most : ℕ} {text : String} {char : Char}
    (accepted : matchesIdentifier extra most text = true) (mem : char ∈ text.toList) :
    isLowerAlphanumeric char = true ∨ char ∈ extra := by
  unfold matchesIdentifier at accepted
  cases chars : text.toList with
  | nil => simp [chars] at mem
  | cons first rest =>
      simp only [chars, Bool.and_eq_true, List.all_eq_true, Bool.or_eq_true,
        List.contains_iff_mem] at accepted
      simp only [chars, List.mem_cons] at mem
      rcases mem with rfl | inRest
      · exact Or.inl accepted.1.1
      · exact accepted.2 char inRest

theorem notMem_of_matchesIdentifier {extra : List Char} {most : ℕ} {text : String} {char : Char}
    (accepted : matchesIdentifier extra most text = true)
    (foreign : isLowerAlphanumeric char = false ∧ char ∉ extra) : char ∉ text.toList := by
  intro mem
  rcases mem_of_matchesIdentifier accepted mem with alphanumeric | isExtra
  · rw [foreign.1] at alphanumeric
    simp at alphanumeric
  · exact foreign.2 isExtra

/-- Neither grammar admits the separators of the counter key. -/
theorem notMem_of_validateServiceName {text : String}
    (accepted : validateServiceName text = .ok ()) :
    '|' ∉ text.toList ∧ '}' ∉ text.toList := by
  have grammar := (validateText_eq_ok_iff.mp accepted).2
  exact ⟨notMem_of_matchesIdentifier grammar (by decide),
    notMem_of_matchesIdentifier grammar (by decide)⟩

theorem notMem_of_validateRateLimitId {text : String}
    (accepted : validateRateLimitId text = .ok ()) :
    '|' ∉ text.toList ∧ '}' ∉ text.toList := by
  have grammar := (validateText_eq_ok_iff.mp accepted).2
  exact ⟨notMem_of_matchesIdentifier grammar (by decide),
    notMem_of_matchesIdentifier grammar (by decide)⟩

end LimitValidator

end RateLimiter.Management
