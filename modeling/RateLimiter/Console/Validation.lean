import RateLimiter.Common
import RateLimiter.Lib.JavaScript

/-!
# Validation and review policy of the console

`validation.ts`, the body check of `routes/services.ts`, and `policy.ts`. The
fields of a body may hold any JSON value.
-/

namespace RateLimiter.Console

open JavaScript

/-- The fields of a JSON body or of a query string. -/
abbrev Fields := List (String × Value)

def nonEmptyString? : Value → Option String
  | .string text => if text = "" then none else some text
  | _ => none

structure ValidatedLimit where
  key : LimitKey
  limitValue : Number
  timeUnit : TimeUnitLabel
deriving DecidableEq

/-- Texts that are not blank are read as numbers. -/
def numeric (raw : Value) : Value :=
  match raw with
  | .string text => if Number.trim text.toList = [] then raw else .number (.ofText text)
  | _ => raw

/-- The value of a limit, or what is wrong with it. -/
def checkLimitValue (raw : Value) : Except String Number :=
  match numeric raw with
  | .number value =>
      if !value.isFinite then .error "limit_value must be a number"
      else if !value.isInteger then .error "limit_value must be an integer"
      else if value.lt (.finite 0) then .error "limit_value must be >= 0"
      else .ok value
  | _ => .error "limit_value must be a number"

def timeUnit? : Value → Option TimeUnitLabel
  | .string text => TimeUnitLabel.ofText? text
  | _ => none

def missing {α : Type} (found : Option α) (message : String) : List String :=
  if found.isSome then [] else [message]

def validateLimit (body : Fields) : Except (List String) ValidatedLimit :=
  let serviceName := nonEmptyString? (Value.property body "service_name")
  let customerId := nonEmptyString? (Value.property body "customer_id")
  let rateLimitId := nonEmptyString? (Value.property body "rate_limit_id")
  let limitValue := checkLimitValue (Value.property body "limit_value")
  let timeUnit := timeUnit? (Value.property body "time_unit")
  match serviceName, customerId, rateLimitId, limitValue, timeUnit with
  | some serviceName, some customerId, some rateLimitId, .ok limitValue, some timeUnit =>
      .ok ⟨⟨serviceName, customerId, rateLimitId⟩, limitValue, timeUnit⟩
  | _, _, _, _, _ =>
      .error (missing serviceName "service_name is required" ++
        missing customerId "customer_id is required ('*' for the default)" ++
        missing rateLimitId "rate_limit_id is required" ++
        (match limitValue with
          | .ok _ => []
          | .error message => [message]) ++
        missing timeUnit "time_unit must be one of MINUTE, DAY, MONTH")

def validateKey (body : Fields) : Except (List String) LimitKey :=
  let serviceName := nonEmptyString? (Value.property body "service_name")
  let customerId := nonEmptyString? (Value.property body "customer_id")
  let rateLimitId := nonEmptyString? (Value.property body "rate_limit_id")
  match serviceName, customerId, rateLimitId with
  | some serviceName, some customerId, some rateLimitId =>
      .ok ⟨serviceName, customerId, rateLimitId⟩
  | _, _, _ =>
      .error (missing serviceName "service_name is required" ++
        missing customerId "customer_id is required" ++
        missing rateLimitId "rate_limit_id is required")

/-- The bound on a single manual operation. -/
def amountCap : ℚ := 1000000000

def validateAmount (raw : Value) : Except String Number :=
  match numeric raw with
  | .number value =>
      if !value.isFinite || !value.isInteger then .error "amount must be an integer"
      else if !(Number.finite 0).lt value then .error "amount must be > 0"
      else if (Number.finite amountCap).lt value then .error "amount exceeds cap (1000000000)"
      else .ok value
  | _ => .error "amount must be an integer"

structure ServiceInfo where
  serviceName : String
  displayName : String
  owner : String
deriving DecidableEq

def validateServiceBody (body : Fields) : Except (List String) ServiceInfo :=
  let serviceName := nonEmptyString? (Value.property body "service_name")
  let displayName := nonEmptyString? (Value.property body "display_name")
  let owner := nonEmptyString? (Value.property body "owner")
  match serviceName, displayName, owner with
  | some serviceName, some displayName, some owner => .ok ⟨serviceName, displayName, owner⟩
  | _, _, _ =>
      .error (missing serviceName "service_name is required" ++
        missing displayName "display_name is required" ++ missing owner "owner is required")

/-- The mutation that a review applies once it is approved. -/
inductive PendingOp where
  | limitUpdate (limit : ValidatedLimit)
  | limitDelete (key : LimitKey)
  | opRefund (key : LimitKey) (amount : Number)
  | opReset (key : LimitKey)
deriving DecidableEq

def PendingOp.key : PendingOp → LimitKey
  | .limitUpdate limit => limit.key
  | .limitDelete key => key
  | .opRefund key _ => key
  | .opReset key => key

structure ReviewPolicy where
  reviewDefaultChanges : Bool
  reviewWindowResets : Bool
  refundReviewThreshold : Number
deriving DecidableEq

def ReviewPolicy.default : ReviewPolicy := ⟨true, true, .finite 100000⟩

def defaultChangeReason (key : LimitKey) (policy : ReviewPolicy) : Option String :=
  if policy.reviewDefaultChanges && key.customerId = defaultCustomer then
    some ("changes a '*' default for " ++ key.serviceName ++ "/" ++ key.rateLimitId ++
      " (affects all customers without an override)")
  else none

/-- Why a mutation needs a second person, if it does. -/
def reviewReason (op : PendingOp) (policy : ReviewPolicy) : Option String :=
  match op with
  | .limitUpdate limit => defaultChangeReason limit.key policy
  | .limitDelete key => defaultChangeReason key policy
  | .opReset _ => if policy.reviewWindowResets then some "resets a customer's window" else none
  | .opRefund _ amount =>
      if policy.refundReviewThreshold.lt amount then
        some ("large refund (" ++ amount.toText ++ " > " ++ policy.refundReviewThreshold.toText ++
          ")")
      else none

end RateLimiter.Console
