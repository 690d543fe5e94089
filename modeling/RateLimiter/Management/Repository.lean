import RateLimiter.Management.Database
import RateLimiter.Management.PageToken

/-!
# The repositories

`LimitRepository.java`, `ServiceRepository.java`, `AuditRepository.java` and
`SqlErrors.java`. Every write to `limit_config` runs in a transaction that sets
`app.actor` for itself; the connection it borrows may carry any session value.
A call meets its own faults: connecting, setting the actor, the statement and
the commit may each fail.
-/

namespace RateLimiter.Management

namespace SqlErrors

def translate (exception : SqlException) : AppException :=
  match exception.state with
  | none => .of .internal ("database error: " ++ exception.message)
  | some state =>
      if state = "23505" then .of .alreadyExists "resource already exists"
      else if state = "23503" then
        .of .failedPrecondition "referenced service is not registered"
      else if state = "23514" ∨ state = "23502" then
        .of .invalidArgument ("constraint violation: " ++ exception.message)
      else if state = "40001" ∨ state = "40P01" then .of .aborted "serialization failure; retry"
      else if "08".toList.isPrefixOf state.toList then .of .unavailable "database unavailable"
      else .of .internal ("database error: " ++ exception.message)

end SqlErrors

/-- What the driver and the server bring along. -/
structure Backend where
  /-- The default collation, a total order on texts. -/
  textLe : String → String → Bool
  textLe_total : ∀ first second, textLe first second = true ∨ textLe second first = true
  textLe_trans : ∀ first second third, textLe first second = true →
    textLe second third = true → textLe first third = true
  textLe_antisymm : ∀ first second, textLe first second = true →
    textLe second first = true → first = second
  /-- The `timestamptz`, in microseconds, that an instant is sent as. -/
  bindTimestamp : (seconds nanos : ℤ) → Except SqlException ℤ

/-- The points at which a call may lose its database. -/
inductive FaultPoint where
  | connect
  | setActor
  | statement
  | commit
deriving DecidableEq

/-- The circumstances of one call. -/
structure Conditions where
  /-- `now()` in its transaction. -/
  now : ℤ
  faults : FaultPoint → Option SqlException

/-- A pooled connection, with the session value of `app.actor`. -/
structure Connection where
  actor : Option String
deriving DecidableEq

namespace Connection

/-- `current_setting('app.actor', true)`, given the value local to the transaction. -/
def currentActor (connection : Connection) (localActor : Option String) : Option String :=
  localActor.or connection.actor

/-- A setting that was local to a transaction leaves an empty placeholder behind. -/
def afterTransaction (connection : Connection) : Connection :=
  ⟨some (connection.actor.getD "")⟩

end Connection

inductive Thrown where
  | sql (exception : SqlException)
  | app (exception : AppException)

/-- A statement, unless its fault comes first. -/
def execute {α : Type} (conditions : Conditions)
    (statement : Database → Except SqlException α × Database) (database : Database) :
    Except SqlException α × Database :=
  match conditions.faults .statement with
  | some fault => (.error fault, database)
  | none => statement database

def tuple (key : LimitKey) : String :=
  "(" ++ key.serviceName ++ ", " ++ key.customerId ++ ", " ++ key.rateLimitId ++ ")"

namespace LimitRepository

/-- `SELECT set_config('app.actor', ?, true)` -/
def setActor (conditions : Conditions) (actor : String) : Except SqlException Unit :=
  match conditions.faults .setActor with
  | some fault => .error fault
  | none => if isPostgresText actor then .ok () else .error .invalidText

/-- Runs the body in one transaction with the actor set for it. -/
def inAuditedTx {α : Type} (conditions : Conditions) (actor : String)
    (body : Option String → Database → Except Thrown α × Database) (connection : Connection)
    (database : Database) : Except AppException α × Connection × Database :=
  match conditions.faults .connect with
  | some fault => (.error (SqlErrors.translate fault), connection, database)
  | none =>
      match setActor conditions actor with
      | .error error => (.error (SqlErrors.translate error), connection, database)
      | .ok () =>
          match body (connection.currentActor (some actor)) database with
          | (.error (.sql error), rest) =>
              (.error (SqlErrors.translate error), connection.afterTransaction,
                database.rollback rest)
          | (.error (.app error), rest) =>
              (.error error, connection.afterTransaction, database.rollback rest)
          | (.ok value, rest) =>
              match conditions.faults .commit with
              | some fault =>
                  (.error (SqlErrors.translate fault), connection.afterTransaction,
                    database.rollback rest)
              | none => (.ok value, connection.afterTransaction, rest)

def translateWrite (exception : SqlException) (key : LimitKey) : AppException :=
  let translated := SqlErrors.translate exception
  if translated.code = .alreadyExists then
    .of .alreadyExists ("limit " ++ tuple key ++ " already exists; use UpdateLimit")
  else if translated.code = .failedPrecondition then
    .of .failedPrecondition ("service '" ++ key.serviceName ++ "' is not registered")
  else translated

def insertBody (conditions : Conditions) (key : LimitKey) (limitValue : ℤ) (timeUnit : String)
    (actor : Option String) (database : Database) : Except Thrown LimitRow × Database :=
  match execute conditions (Database.insertLimit actor conditions.now key limitValue timeUnit)
    database with
  | (.ok row, rest) => (.ok row, rest)
  | (.error error, rest) => (.error (.app (translateWrite error key)), rest)

def upsert (conditions : Conditions) (key : LimitKey) (limitValue : ℤ) (timeUnit : String)
    (actor : Option String) (database : Database) : Except Thrown LimitRow × Database :=
  match execute conditions (Database.upsertLimit actor conditions.now key limitValue timeUnit)
    database with
  | (.ok row, rest) => (.ok row, rest)
  | (.error error, rest) => (.error (.app (translateWrite error key)), rest)

def updateExisting (conditions : Conditions) (key : LimitKey) (limitValue : ℤ)
    (timeUnit : String) (actor : Option String) (database : Database) :
    Except Thrown LimitRow × Database :=
  match execute conditions (Database.updateLimit actor conditions.now key limitValue timeUnit)
    database with
  | (.ok (some row), rest) => (.ok row, rest)
  | (.ok none, rest) =>
      (.error (.app (.of .notFound
        ("limit " ++ tuple key ++ " does not exist; use create_if_absent to upsert"))), rest)
  | (.error error, rest) => (.error (.sql error), rest)

def deleteBody (conditions : Conditions) (key : LimitKey) (allowMissing : Bool)
    (actor : Option String) (database : Database) : Except Thrown Bool × Database :=
  match execute conditions (Database.deleteLimit actor conditions.now key) database with
  | (.ok affected, rest) =>
      if affected = 0 ∧ allowMissing = false then
        (.error (.app (.of .notFound ("limit " ++ tuple key ++ " does not exist"))), rest)
      else (.ok (0 < affected), rest)
  | (.error error, rest) => (.error (.sql error), rest)

def create (conditions : Conditions) (actor : String) (key : LimitKey) (limitValue : ℤ)
    (timeUnit : String) : Connection → Database →
    Except AppException LimitRow × Connection × Database :=
  inAuditedTx conditions actor (insertBody conditions key limitValue timeUnit)

def update (conditions : Conditions) (actor : String) (key : LimitKey) (limitValue : ℤ)
    (timeUnit : String) (createIfAbsent : Bool) : Connection → Database →
    Except AppException LimitRow × Connection × Database :=
  inAuditedTx conditions actor
    (if createIfAbsent then upsert conditions key limitValue timeUnit
    else updateExisting conditions key limitValue timeUnit)

def delete (conditions : Conditions) (actor : String) (key : LimitKey) (allowMissing : Bool) :
    Connection → Database → Except AppException Bool × Connection × Database :=
  inAuditedTx conditions actor (deleteBody conditions key allowMissing)

end LimitRepository

def bindTexts (texts : List String) : Except SqlException Unit :=
  if texts.all isPostgresText then .ok () else .error .invalidText

def query {α : Type} (conditions : Conditions) (result : Except SqlException α) :
    Except AppException α :=
  match conditions.faults .connect, conditions.faults .statement, result with
  | some fault, _, _ => .error (SqlErrors.translate fault)
  | none, some fault, _ => .error (SqlErrors.translate fault)
  | none, none, .error error => .error (SqlErrors.translate error)
  | none, none, .ok value => .ok value

/-- One row more than the page was fetched to see whether there is a next page. -/
def toPage {α : Type} (rows : List α) (pageSize : ℕ) (token : α → String) : Page α :=
  if pageSize < rows.length then
    ⟨rows.take pageSize, ((rows.take pageSize).getLast?.map token).getD ""⟩
  else ⟨rows, ""⟩

namespace LimitRepository

def getExact (conditions : Conditions) (key : LimitKey) (database : Database) :
    Except AppException (Option LimitRow) :=
  query conditions do
    bindTexts [key.serviceName, key.customerId, key.rateLimitId]
    pure (database.findLimit key)

/-- `WHERE service_name = ? AND rate_limit_id = ? AND customer_id IN (?, '*')` -/
def matchesResolve (key : LimitKey) (row : LimitRow) : Bool :=
  row.serviceName = key.serviceName && row.rateLimitId = key.rateLimitId &&
    (row.customerId = key.customerId || row.customerId = defaultCustomer)

/-- The exact row, else the default: `ORDER BY (customer_id = '*') LIMIT 1`. -/
def resolve (conditions : Conditions) (key : LimitKey) (database : Database) :
    Except AppException (Option LimitRow) :=
  query conditions do
    bindTexts [key.serviceName, key.rateLimitId, key.customerId]
    pure ((database.limits.filter (matchesResolve key)).insertionSort
      fun first second => first.isDefault ≤ second.isDefault).head?

def list (conditions : Conditions) (serviceName customerId rateLimitId : String) (pageSize : ℕ)
    (pageToken : String) (database : Database) : Except AppException (Page LimitRow) := do
  let cursor ← PageToken.decodeLong pageToken 0
  let fetched ← query conditions do
    bindTexts [serviceName, customerId, rateLimitId]
    let rows := database.limits.filter fun row =>
      row.serviceName = serviceName && cursor < row.configId &&
        (customerId = "" || row.customerId = customerId) &&
        (rateLimitId = "" || row.rateLimitId = rateLimitId)
    pure ((rows.insertionSort fun first second => first.configId ≤ second.configId).take
      (pageSize + 1))
  pure (toPage fetched pageSize fun row => PageToken.encodeLong row.configId)

end LimitRepository

namespace ServiceRepository

/-- A single statement that commits by itself. -/
def register (conditions : Conditions) (service : ServiceRow) (database : Database) :
    Except AppException ServiceRow × Database :=
  match conditions.faults .connect with
  | some fault => (.error (SqlErrors.translate fault), database)
  | none =>
      match execute conditions (Database.insertService service) database with
      | (.ok row, rest) => (.ok row, rest)
      | (.error error, rest) =>
          if (SqlErrors.translate error).code = .alreadyExists then
            (.error (.of .alreadyExists
              ("service '" ++ service.serviceName ++ "' is already registered")), rest)
          else (.error (SqlErrors.translate error), rest)

def get (conditions : Conditions) (serviceName : String) (database : Database) :
    Except AppException (Option ServiceRow) :=
  query conditions do
    bindTexts [serviceName]
    pure (database.services.find? fun row => row.serviceName = serviceName)

def list (backend : Backend) (conditions : Conditions) (pageSize : ℕ) (pageToken : String)
    (allowed : List String) (isAdmin : Bool) (database : Database) :
    Except AppException (Page ServiceRow) := do
  let cursor ← PageToken.decode pageToken
  let cursor := String.ofList (cursor.getD [])
  let fetched ← query conditions do
    bindTexts (cursor :: if isAdmin then [] else allowed)
    let rows := database.services.filter fun row =>
      (backend.textLe cursor row.serviceName && cursor != row.serviceName) &&
        (isAdmin || allowed.contains row.serviceName)
    pure ((rows.insertionSort fun first second =>
      backend.textLe first.serviceName second.serviceName = true).take (pageSize + 1))
  pure (toPage fetched pageSize fun row => PageToken.encode row.serviceName.toList)

end ServiceRepository

namespace AuditRepository

/-- The filters of the audit browser; `since` is bound as a `timestamptz`. -/
structure Filters where
  serviceName : String
  key : Option LimitKey
  configId : Option ℤ
  since : Option ℤ

def Filters.accepts (filters : Filters) (cursor : ℤ) (row : AuditRow) : Bool :=
  row.snapshotField "service_name" = some filters.serviceName && row.auditId < cursor &&
    (filters.configId.all fun configId => row.configId = configId) &&
    (filters.key.all fun key => row.snapshotField "customer_id" = some key.customerId &&
      row.snapshotField "rate_limit_id" = some key.rateLimitId) &&
    filters.since.all fun since => since ≤ row.changedAt

/-- `Timestamp.from`, which throws where the milliseconds do not fit in 64 bits. -/
def timestampFrom (since : Option (ℤ × ℤ)) : Except AppException Unit :=
  match since with
  | none => .ok ()
  | some (seconds, _) =>
      if -2 ^ 63 ≤ seconds * 1000 ∧ seconds * 1000 < 2 ^ 63 then .ok ()
      else .error .unexpected

def list (backend : Backend) (conditions : Conditions) (serviceName : String)
    (key : Option LimitKey) (configId : Option ℤ) (since : Option (ℤ × ℤ)) (pageSize : ℕ)
    (pageToken : String) (database : Database) : Except AppException (Page AuditRow) := do
  let cursor ← PageToken.decodeLong pageToken (2 ^ 63 - 1)
  timestampFrom since
  let fetched ← query conditions do
    bindTexts (serviceName :: (key.map fun key => [key.customerId, key.rateLimitId]).getD [])
    let bound ← since.mapM fun instant => backend.bindTimestamp instant.1 instant.2
    let filters : Filters := ⟨serviceName, key, configId, bound⟩
    pure (((database.audit.filter (filters.accepts cursor)).insertionSort
      fun first second => second.auditId ≤ first.auditId).take (pageSize + 1))
  pure (toPage fetched pageSize fun row => PageToken.encodeLong row.auditId)

end AuditRepository

end RateLimiter.Management
