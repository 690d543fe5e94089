import RateLimiter.Console.Validation

/-!
# The calls of the console to its backends

The messages that the routes pass to `call` in `rpc.ts`, the replies as
proto-loader decodes them, and the conversions of replies to JSON. Integers of
64 bits arrive as decimal texts and go through `Number`.
-/

namespace RateLimiter.Console

open JavaScript

/-- A `google.protobuf.Timestamp` as decoded. -/
structure WireTimestamp where
  seconds : ℤ
  nanos : ℤ
deriving DecidableEq

/-- The methods of `LimitAdmin` and `RateLimiter` that the console calls, with their messages. -/
inductive Rpc where
  | createLimit (key : LimitKey) (limitValue : Number) (timeUnit : TimeUnitLabel)
  | updateLimit (key : LimitKey) (limitValue : Number) (timeUnit : TimeUnitLabel)
      (createIfAbsent : Bool)
  | deleteLimit (key : LimitKey) (allowMissing : Bool)
  | registerService (service : ServiceInfo)
  | refund (key : LimitKey) (amount : Number) (requestId : String)
  | getLimit (key : LimitKey) (resolve : Bool)
  | listLimits (serviceName customerId rateLimitId : String) (pageSize : Number)
      (pageToken : String)
  | getService (serviceName : String)
  | listServices (pageSize : Number) (pageToken : String)
  | listAuditEntries (serviceName : String) (key : Option LimitKey) (configId : Number)
      (since : Option WireTimestamp) (pageSize : Number) (pageToken : String)
  | getUsage (key : LimitKey)
deriving DecidableEq

namespace Rpc

def isMutation : Rpc → Bool
  | .createLimit _ _ _ | .updateLimit _ _ _ _ | .deleteLimit _ _ | .registerService _
  | .refund _ _ _ => true
  | _ => false

def serviceName : Rpc → String
  | .createLimit key _ _ | .updateLimit key _ _ _ | .deleteLimit key _ | .refund key _ _
  | .getLimit key _ | .getUsage key => key.serviceName
  | .registerService service => service.serviceName
  | .listLimits serviceName _ _ _ _ | .getService serviceName
  | .listAuditEntries serviceName _ _ _ _ _ => serviceName
  | .listServices _ _ => ""

end Rpc

/-- A call with its `x-actor` metadata, if any. -/
structure Call where
  rpc : Rpc
  actor : Option String
deriving DecidableEq

/-- The Struct wire form, one constructor for each `kind`. -/
inductive StructValue where
  | nullValue
  | numberValue (value : Number)
  | stringValue (value : String)
  | boolValue (value : Bool)
  | structValue (fields : List (String × StructValue))
  | listValue (values : List StructValue)
  | unset

structure RawLimit where
  key : LimitKey
  limitValue : ℤ
  timeUnit : String
  configId : ℤ
deriving DecidableEq

structure RawUsage where
  consumed : ℤ
  remaining : ℤ
  limit : ℤ
  resetAt : Option WireTimestamp
  configured : Bool
deriving DecidableEq

structure RawAudit where
  auditId : ℤ
  configId : ℤ
  operation : String
  oldRow : Option (List (String × StructValue))
  newRow : Option (List (String × StructValue))
  changedBy : String
  changedAt : Option WireTimestamp

inductive Message where
  | limit (limit : RawLimit)
  | deleted
  | resolvedLimit (limit : RawLimit) (isDefault : Bool)
  | limits (limits : List RawLimit) (nextPageToken : String)
  | service (service : ServiceInfo)
  | services (services : List ServiceInfo) (nextPageToken : String)
  | auditEntries (entries : List RawAudit) (nextPageToken : String)
  | refunded (remaining limit : ℤ) (resetAt : Option WireTimestamp)
  | usage (usage : RawUsage)

structure ServiceError where
  code : StatusCode
  details : String
  message : String
deriving DecidableEq

abbrev Reply := Except ServiceError Message

inductive Thrown where
  | rpcError (httpStatus : ℕ) (message : String) (code : StatusCode)
  | error (message : String)
deriving DecidableEq

def grpcToHttp : StatusCode → ℕ
  | .invalidArgument | .failedPrecondition | .outOfRange => 400
  | .notFound => 404
  | .alreadyExists => 409
  | .permissionDenied => 403
  | .unauthenticated => 401
  | .unimplemented => 501
  | .deadlineExceeded | .unavailable => 503
  | _ => 502

def grpcCode : StatusCode → ℕ
  | .cancelled => 1
  | .unknown => 2
  | .invalidArgument => 3
  | .deadlineExceeded => 4
  | .notFound => 5
  | .alreadyExists => 6
  | .permissionDenied => 7
  | .resourceExhausted => 8
  | .failedPrecondition => 9
  | .aborted => 10
  | .outOfRange => 11
  | .unimplemented => 12
  | .internal => 13
  | .unavailable => 14
  | .dataLoss => 15
  | .unauthenticated => 16

/-- The name that the client library prints for a status. -/
def statusName : StatusCode → String
  | .cancelled => "CANCELLED"
  | .unknown => "UNKNOWN"
  | .invalidArgument => "INVALID_ARGUMENT"
  | .deadlineExceeded => "DEADLINE_EXCEEDED"
  | .notFound => "NOT_FOUND"
  | .alreadyExists => "ALREADY_EXISTS"
  | .permissionDenied => "PERMISSION_DENIED"
  | .resourceExhausted => "RESOURCE_EXHAUSTED"
  | .failedPrecondition => "FAILED_PRECONDITION"
  | .aborted => "ABORTED"
  | .outOfRange => "OUT_OF_RANGE"
  | .unimplemented => "UNIMPLEMENTED"
  | .internal => "INTERNAL"
  | .unavailable => "UNAVAILABLE"
  | .dataLoss => "DATA_LOSS"
  | .unauthenticated => "UNAUTHENTICATED"

/-- A status as the client library makes it an error. -/
def ServiceError.ofStatus (code : StatusCode) (details : String) : ServiceError :=
  ⟨code, details, toString (grpcCode code) ++ " " ++ statusName code ++ ": " ++ details⟩

/-- `new RpcError(grpcToHttp(err.code), err.details || err.message, err.code)` -/
def rpcError (failure : ServiceError) : Thrown :=
  .rpcError (grpcToHttp failure.code)
    (if failure.details = "" then failure.message else failure.details) failure.code

/-- A reply of another method than the one called; no backend sends it. -/
def unexpectedReply : Thrown := .error "unexpected reply"

/-- `Number` of the decimal text of a 64-bit integer. -/
def num (value : ℤ) : Value := .number (.ofInt value)

def timestampToIso (timestamp : Option WireTimestamp) : Except Thrown Value :=
  match timestamp with
  | none => .ok .null
  | some timestamp =>
      match toIsoString (timestamp.seconds * 1000 + timestamp.nanos / 1000000) with
      | some text => .ok (.string text)
      | none => .error (.error "Invalid time value")

def keyFields (key : LimitKey) : Fields :=
  [("service_name", .string key.serviceName), ("customer_id", .string key.customerId),
    ("rate_limit_id", .string key.rateLimitId)]

def toLimitView (limit : RawLimit) (isDefaultOverride : Option Bool) : Fields :=
  [("config_id", num limit.configId)] ++ keyFields limit.key ++
    [("limit_value", num limit.limitValue), ("time_unit", .string limit.timeUnit),
      ("is_default",
        .boolean (isDefaultOverride.getD (limit.key.customerId = defaultCustomer)))]

def toServiceView (service : ServiceInfo) : Value :=
  .object [("service_name", .string service.serviceName),
    ("display_name", .string service.displayName), ("owner", .string service.owner)]

def toUsageView (key : LimitKey) (usage : RawUsage) (fetchedAt : String) :
    Except Thrown Value := do
  let resetAt ← timestampToIso usage.resetAt
  return .object (keyFields key ++
    [("configured", .boolean usage.configured),
      ("limit", if usage.configured then num usage.limit else .null),
      ("consumed", num usage.consumed), ("remaining", num usage.remaining),
      ("reset_at", resetAt), ("fetched_at", .string fetchedAt)])

mutual

def valueToJs : StructValue → Value
  | .nullValue => .null
  | .numberValue value => .number value
  | .stringValue value => .string value
  | .boolValue value => .boolean value
  | .structValue fields => .object (objectOf (fieldsToJs fields))
  | .listValue values => .array (valuesToJs values)
  | .unset => .null

def fieldsToJs : List (String × StructValue) → Fields
  | [] => []
  | (name, value) :: rest => (name, valueToJs value) :: fieldsToJs rest

def valuesToJs : List StructValue → List Value
  | [] => []
  | value :: rest => valueToJs value :: valuesToJs rest

end

def structToObject (struct : Option (List (String × StructValue))) : Value :=
  match struct with
  | none => .null
  | some fields => .object (objectOf (fieldsToJs fields))

/-- An audit entry as the browser sees it, with the fields that are filtered on. -/
structure AuditView where
  operation : String
  changedBy : String
  json : Value

def toAuditView (entry : RawAudit) : Except Thrown AuditView := do
  let changedAt ← timestampToIso entry.changedAt
  return ⟨entry.operation, entry.changedBy,
    .object [("audit_id", num entry.auditId), ("config_id", num entry.configId),
      ("operation", .string entry.operation), ("old_row", structToObject entry.oldRow),
      ("new_row", structToObject entry.newRow), ("changed_by", .string entry.changedBy),
      ("changed_at", changedAt)]⟩

end RateLimiter.Console
