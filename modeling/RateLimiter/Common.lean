import Mathlib.Algebra.Ring.Int.Defs
import Mathlib.Algebra.Ring.Nat

/-!
# Types shared by the data plane and the control plane

The messages of `quota/common/v1/common.proto`, the gRPC status codes and the
rows of `schema/postgres.sql` that both components read.
-/

namespace RateLimiter

/-- Reset-window unit of a fixed-window limit. -/
inductive TimeUnit where
  | unspecified
  | minute
  | day
  | month
deriving DecidableEq, Repr

@[ext]
structure LimitKey where
  serviceName : String
  customerId : String
  rateLimitId : String
deriving DecidableEq, Repr

/-- The customer id of a per-(service, rate limit) default row. -/
def defaultCustomer : String := "*"

inductive StatusCode where
  | cancelled
  | unknown
  | invalidArgument
  | deadlineExceeded
  | notFound
  | alreadyExists
  | permissionDenied
  | resourceExhausted
  | failedPrecondition
  | aborted
  | outOfRange
  | unimplemented
  | internal
  | unavailable
  | dataLoss
  | unauthenticated
deriving DecidableEq, Repr

/-- The labels of the Postgres enum `time_unit`. -/
inductive TimeUnitLabel where
  | minute
  | day
  | month
deriving DecidableEq, Repr

namespace TimeUnitLabel

/-- `time_unit::text`. -/
def text : TimeUnitLabel → String
  | .minute => "MINUTE"
  | .day => "DAY"
  | .month => "MONTH"

/-- `?::time_unit`, undefined on texts that are no label. -/
def ofText? (text : String) : Option TimeUnitLabel :=
  if text = "MINUTE" then some .minute
  else if text = "DAY" then some .day
  else if text = "MONTH" then some .month
  else none

end TimeUnitLabel

/-- Postgres has no text with the character U+0000. -/
def isPostgresText (text : String) : Bool :=
  !text.toList.contains (Char.ofNat 0)

/-- A row of `limit_config`. -/
@[ext]
structure LimitRow where
  /-- The identity column `id`. -/
  configId : ℤ
  serviceName : String
  customerId : String
  rateLimitId : String
  limitValue : ℤ
  timeUnit : TimeUnitLabel
deriving DecidableEq, Repr

namespace LimitRow

def key (row : LimitRow) : LimitKey :=
  ⟨row.serviceName, row.customerId, row.rateLimitId⟩

def isDefault (row : LimitRow) : Bool :=
  row.customerId = defaultCustomer

end LimitRow

end RateLimiter
