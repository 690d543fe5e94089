import RateLimiter.Lib.Double
import RateLimiter.Management.Auth
import RateLimiter.Management.Repository

/-!
# The `LimitAdmin` service

The RPCs of `LimitAdminService.java` and the conversions of `ProtoMappers.java`.
Each RPC validates, authorises, and delegates to a repository. `serve` runs one
call: the interceptor authenticates it, and a write borrows a connection of the
shared pool.
-/

namespace RateLimiter.Management

structure Limit where
  key : LimitKey
  limitValue : ℤ
  timeUnit : TimeUnit
  configId : ℤ
deriving DecidableEq

/-- A value of `google.protobuf.Struct`; its numbers are doubles. -/
inductive StructValue where
  | null
  | number (value : ℤ)
  | text (value : String)
deriving DecidableEq

structure Timestamp where
  seconds : ℤ
  nanos : ℤ
deriving DecidableEq

structure AuditEntry where
  auditId : ℤ
  configId : ℤ
  operation : String
  oldRow : Option (List (String × StructValue))
  newRow : Option (List (String × StructValue))
  changedBy : String
  changedAt : Timestamp
deriving DecidableEq

namespace ProtoMappers

def toTimeUnit (label : String) : Except AppException TimeUnit :=
  if label = "MINUTE" then .ok .minute
  else if label = "DAY" then .ok .day
  else if label = "MONTH" then .ok .month
  else .error (.of .internal ("unknown time_unit label from database: " ++ label))

/-- `unit.name()` -/
def toTimeUnitLabel : WireTimeUnit → String
  | .known .unspecified => "TIME_UNIT_UNSPECIFIED"
  | .known .minute => "MINUTE"
  | .known .day => "DAY"
  | .known .month => "MONTH"
  | .unrecognized => "UNRECOGNIZED"

def toLimit (row : LimitRow) : Except AppException Limit := do
  let timeUnit ← toTimeUnit row.timeUnit.text
  pure ⟨row.key, row.limitValue, timeUnit, row.configId⟩

def jsonToStruct (object : Jsonb) : List (String × StructValue) :=
  object.map fun field =>
    (field.1, match field.2 with
      | .null => .null
      | .number value => .number (Double.roundInt value)
      | .text value => .text value)

def toAuditEntry (row : AuditRow) : AuditEntry :=
  ⟨row.auditId, row.configId, row.operation.text, row.oldRow.map jsonToStruct,
    row.newRow.map jsonToStruct, row.changedBy,
    ⟨row.changedAt / 1000000, row.changedAt % 1000000 * 1000⟩⟩

end ProtoMappers

inductive WriteRequest where
  | createLimit (key : LimitKey) (limitValue : ℤ) (timeUnit : WireTimeUnit)
  | updateLimit (key : LimitKey) (limitValue : ℤ) (timeUnit : WireTimeUnit)
      (createIfAbsent : Bool)
  | deleteLimit (key : LimitKey) (allowMissing : Bool)
  | registerService (service : ServiceRow)
deriving DecidableEq

inductive ReadRequest where
  | getLimit (key : LimitKey) (resolve : Bool)
  | listLimits (serviceName customerId rateLimitId : String) (pageSize : ℤ) (pageToken : String)
  | getService (serviceName : String)
  | listServices (pageSize : ℤ) (pageToken : String)
  | listAuditEntries (serviceName : String) (key : Option LimitKey) (configId : ℤ)
      (since : Option Timestamp) (pageSize : ℤ) (pageToken : String)
deriving DecidableEq

inductive AdminRequest where
  | write (request : WriteRequest)
  | read (request : ReadRequest)
deriving DecidableEq

inductive AdminResponse where
  | limit (limit : Limit)
  | deleted
  | resolvedLimit (limit : Limit) (isDefault : Bool)
  | limits (limits : List Limit) (nextPageToken : String)
  | service (service : ServiceRow)
  | services (services : List ServiceRow) (nextPageToken : String)
  | auditEntries (entries : List AuditEntry) (nextPageToken : String)
deriving DecidableEq

namespace LimitAdminService

def requireNonEmpty (field value : String) : Except AppException Unit :=
  if value = "" then .error (.invalidArgument field (field ++ " is required")) else .ok ()

section Writes

variable (principal : Principal) (conditions : Conditions) (connection : Connection)
  (database : Database)

/-- Runs a write once the request is valid and authorised. -/
def guarded {α : Type} (admitted : Except AppException Unit)
    (action : Except AppException α × Connection × Database)
    (respond : α → Except AppException AdminResponse) :
    Except AppException AdminResponse × Connection × Database :=
  match admitted with
  | .error error => (.error error, connection, database)
  | .ok () =>
      match action with
      | (.error error, rest) => (.error error, rest)
      | (.ok value, rest) => (respond value, rest)

def createLimit (key : LimitKey) (limitValue : ℤ) (timeUnit : WireTimeUnit) :
    Except AppException AdminResponse × Connection × Database :=
  guarded connection database
    (do LimitValidator.validateLimitWrite key limitValue timeUnit
        Authorizer.requireEditor principal key.serviceName)
    (LimitRepository.create conditions principal.name key limitValue
      (ProtoMappers.toTimeUnitLabel timeUnit) connection database)
    fun row => (ProtoMappers.toLimit row).map .limit

def updateLimit (key : LimitKey) (limitValue : ℤ) (timeUnit : WireTimeUnit)
    (createIfAbsent : Bool) : Except AppException AdminResponse × Connection × Database :=
  guarded connection database
    (do LimitValidator.validateLimitWrite key limitValue timeUnit
        Authorizer.requireEditor principal key.serviceName)
    (LimitRepository.update conditions principal.name key limitValue
      (ProtoMappers.toTimeUnitLabel timeUnit) createIfAbsent connection database)
    fun row => (ProtoMappers.toLimit row).map .limit

def deleteLimit (key : LimitKey) (allowMissing : Bool) :
    Except AppException AdminResponse × Connection × Database :=
  guarded connection database
    (do LimitValidator.validateKey key
        Authorizer.requireEditor principal key.serviceName)
    (LimitRepository.delete conditions principal.name key allowMissing connection database)
    fun _ => .ok .deleted

/-- Authorisation comes before validation here, and the write is not audited. -/
def registerService (service : ServiceRow) :
    Except AppException AdminResponse × Connection × Database :=
  guarded connection database
    (do Authorizer.requirePlatformAdmin principal
        LimitValidator.validateServiceName service.serviceName
        requireNonEmpty "display_name" service.displayName
        requireNonEmpty "owner" service.owner)
    ((ServiceRepository.register conditions service database).map id fun rest =>
      (connection, rest))
    fun row => .ok (.service row)

def write : WriteRequest → Except AppException AdminResponse × Connection × Database
  | .createLimit key limitValue timeUnit =>
      createLimit principal conditions connection database key limitValue timeUnit
  | .updateLimit key limitValue timeUnit createIfAbsent =>
      updateLimit principal conditions connection database key limitValue timeUnit createIfAbsent
  | .deleteLimit key allowMissing =>
      deleteLimit principal conditions connection database key allowMissing
  | .registerService service =>
      registerService principal conditions connection database service

end Writes

section Reads

variable (backend : Backend) (principal : Principal) (conditions : Conditions)
  (database : Database)

def getLimit (key : LimitKey) (resolve : Bool) : Except AppException AdminResponse := do
  LimitValidator.validateKey key
  Authorizer.requireViewer principal key.serviceName
  let found ←
    if resolve then LimitRepository.resolve conditions key database
    else LimitRepository.getExact conditions key database
  match found with
  | none => .error (.of .notFound
      ("no limit for " ++ tuple key ++ if resolve then " (exact or default)" else ""))
  | some row => do
      let limit ← ProtoMappers.toLimit row
      pure (.resolvedLimit limit row.isDefault)

def listLimits (serviceName customerId rateLimitId : String) (pageSize : ℤ)
    (pageToken : String) : Except AppException AdminResponse := do
  LimitValidator.validateServiceName serviceName
  Authorizer.requireViewer principal serviceName
  let page ← LimitRepository.list conditions serviceName customerId rateLimitId
    (LimitValidator.clampPageSize pageSize).toNat pageToken database
  let limits ← page.items.mapM ProtoMappers.toLimit
  pure (.limits limits page.nextPageToken)

def getService (serviceName : String) : Except AppException AdminResponse := do
  LimitValidator.validateServiceName serviceName
  Authorizer.requireViewer principal serviceName
  match ← ServiceRepository.get conditions serviceName database with
  | none => .error (.of .notFound ("service '" ++ serviceName ++ "' is not registered"))
  | some row => pure (.service row)

def listServices (pageSize : ℤ) (pageToken : String) : Except AppException AdminResponse := do
  let page ← ServiceRepository.list backend conditions
    (LimitValidator.clampPageSize pageSize).toNat pageToken principal.viewableServices
    principal.platformAdmin database
  pure (.services page.items page.nextPageToken)

/-- `Instant.ofEpochSecond`, which throws outside its range. -/
def instantOf (since : Option Timestamp) : Except AppException (Option (ℤ × ℤ)) :=
  match since with
  | none => .ok none
  | some ⟨seconds, nanos⟩ =>
      let whole := seconds + nanos / 1000000000
      if -31557014167219200 ≤ whole ∧ whole ≤ 31556889864403199 then
        .ok (some (whole, nanos % 1000000000))
      else .error .unexpected

def listAuditEntries (serviceName : String) (key : Option LimitKey) (configId : ℤ)
    (since : Option Timestamp) (pageSize : ℤ) (pageToken : String) :
    Except AppException AdminResponse := do
  LimitValidator.validateServiceName serviceName
  Authorizer.requireViewer principal serviceName
  let instant ← instantOf since
  let page ← AuditRepository.list backend conditions serviceName key
    (if configId = 0 then none else some configId) instant
    (LimitValidator.clampPageSize pageSize).toNat pageToken database
  pure (.auditEntries (page.items.map ProtoMappers.toAuditEntry) page.nextPageToken)

def read : ReadRequest → Except AppException AdminResponse
  | .getLimit key resolve => getLimit principal conditions database key resolve
  | .listLimits serviceName customerId rateLimitId pageSize pageToken =>
      listLimits principal conditions database serviceName customerId rateLimitId pageSize
        pageToken
  | .getService serviceName => getService principal conditions database serviceName
  | .listServices pageSize pageToken =>
      listServices backend principal conditions database pageSize pageToken
  | .listAuditEntries serviceName key configId since pageSize pageToken =>
      listAuditEntries backend principal conditions database serviceName key configId since
        pageSize pageToken

end Reads

end LimitAdminService

/-- One call as it arrives, with the connection it will borrow and the faults it will meet. -/
structure AdminCall where
  header : Option String
  authorizer : Authorizer
  connection : ℕ
  conditions : Conditions
  request : AdminRequest

structure ControlPlane where
  pool : ℕ → Connection
  database : Database

def serve (backend : Backend) (plane : ControlPlane) (call : AdminCall) :
    Except AppException AdminResponse × ControlPlane :=
  match authenticateCall call.authorizer call.header with
  | .error error => (.error error, plane)
  | .ok principal =>
      match call.request with
      | .read request =>
          (LimitAdminService.read backend principal call.conditions plane.database request, plane)
      | .write request =>
          match LimitAdminService.write principal call.conditions (plane.pool call.connection)
            plane.database request with
          | (result, connection, database) =>
              (result, ⟨Function.update plane.pool call.connection connection, database⟩)

end RateLimiter.Management
