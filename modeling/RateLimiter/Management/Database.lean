import Mathlib.Data.List.Sort
import RateLimiter.Common

/-!
# The control-plane database

The tables of `schema/postgres.sql`, the statements that the repositories send,
and the row-level trigger that writes `limit_config_audit`. A statement fails
with the state that Postgres reports first: text that is no text, an unknown
enum label, the check, the unique constraint, the foreign key and the trigger,
in this order. A failed statement leaves the tables alone, but identity values
once drawn are gone.
-/

namespace RateLimiter.Management

/-- A row of `service`. -/
structure ServiceRow where
  serviceName : String
  displayName : String
  owner : String
deriving DecidableEq

/-- The values that occur in the snapshots of rows. -/
inductive JsonValue where
  | null
  | number (value : ℤ)
  | text (value : String)
deriving DecidableEq

abbrev Jsonb := List (String × JsonValue)

namespace Jsonb

/-- `object->>'name'` -/
def textField (object : Jsonb) (name : String) : Option String :=
  (object.find? fun field => field.1 = name).bind fun field =>
    match field.2 with
    | .null => none
    | .number value => some (toString value)
    | .text value => some value

/-- `to_jsonb(row)` -/
def ofRow (row : LimitRow) : Jsonb :=
  [("id", .number row.configId), ("service_name", .text row.serviceName),
    ("customer_id", .text row.customerId), ("rate_limit_id", .text row.rateLimitId),
    ("limit_value", .number row.limitValue), ("time_unit", .text row.timeUnit.text)]

end Jsonb

/-- `TG_OP`. -/
inductive Operation where
  | insert
  | update
  | delete
deriving DecidableEq

def Operation.text : Operation → String
  | .insert => "INSERT"
  | .update => "UPDATE"
  | .delete => "DELETE"

/-- A row of `limit_config_audit`. -/
structure AuditRow where
  auditId : ℤ
  configId : ℤ
  operation : Operation
  oldRow : Option Jsonb
  newRow : Option Jsonb
  changedBy : String
  /-- Microseconds from the epoch. -/
  changedAt : ℤ
deriving DecidableEq

/-- `coalesce(new_row->>'name', old_row->>'name')` -/
def AuditRow.snapshotField (row : AuditRow) (name : String) : Option String :=
  (row.newRow.bind (·.textField name)).or (row.oldRow.bind (·.textField name))

structure Database where
  services : List ServiceRow
  limits : List LimitRow
  audit : List AuditRow
  nextConfigId : ℤ
  nextAuditId : ℤ
deriving DecidableEq

/-- An error of the server or the driver: its state, if any, and its primary message. -/
structure SqlException where
  state : Option String
  message : String
deriving DecidableEq

namespace SqlException

def invalidText : SqlException :=
  ⟨some "22021", "ERROR: invalid byte sequence for encoding \"UTF8\": 0x00"⟩

def invalidTimeUnit (label : String) : SqlException :=
  ⟨some "22P02", "ERROR: invalid input value for enum time_unit: \"" ++ label ++ "\""⟩

def checkViolation : SqlException :=
  ⟨some "23514", "ERROR: new row for relation \"limit_config\" violates check constraint " ++
    "\"limit_config_limit_value_check\""⟩

def uniqueViolation : SqlException :=
  ⟨some "23505", "ERROR: duplicate key value violates unique constraint"⟩

def foreignKeyViolation : SqlException :=
  ⟨some "23503", "ERROR: insert or update on table \"limit_config\" violates foreign key " ++
    "constraint \"limit_config_service_name_fkey\""⟩

def actorNotSet : SqlException :=
  ⟨some "P0001", "ERROR: app.actor must be set (SET LOCAL app.actor = ...) before writing " ++
    "limit_config"⟩

end SqlException

namespace Database

def empty : Database := ⟨[], [], [], 1, 1⟩

/-- Undoes all writes since `before`; identity values stay drawn. -/
def rollback (before current : Database) : Database :=
  { before with nextConfigId := current.nextConfigId, nextAuditId := current.nextAuditId }

section Statements

-- the value of `app.actor` and of `now()` in the transaction
variable (actor : Option String) (now : ℤ)

/-- `limit_config_audit_write()` -/
def limitConfigAuditWrite (operation : Operation) (configId : ℤ) (oldRow newRow : Option Jsonb)
    (database : Database) : Except SqlException Database :=
  match actor with
  | none => .error .actorNotSet
  | some actor =>
      if actor = "" then .error .actorNotSet
      else .ok { database with
        audit := database.audit ++
          [⟨database.nextAuditId, configId, operation, oldRow, newRow, actor, now⟩]
        nextAuditId := database.nextAuditId + 1 }

/-- Runs the trigger after a row operation and returns the row. -/
def fire (operation : Operation) (configId : ℤ) (oldRow newRow : Option LimitRow)
    (unwritten written : Database) : Except SqlException Unit × Database :=
  match limitConfigAuditWrite actor now operation configId (oldRow.map Jsonb.ofRow)
    (newRow.map Jsonb.ofRow) written with
  | .ok database => (.ok (), database)
  | .error error => (.error error, unwritten)

/-- The row of a tuple; `uq_limit` admits at most one. -/
def findLimit (database : Database) (key : LimitKey) : Option LimitRow :=
  database.limits.find? fun row => row.key = key

/-- The text parameters of a write are texts, and the label is one of the enum. -/
def bindWrite (key : LimitKey) (timeUnit : String) : Except SqlException TimeUnitLabel :=
  if isPostgresText key.serviceName && isPostgresText key.customerId &&
      isPostgresText key.rateLimitId && isPostgresText timeUnit then
    match TimeUnitLabel.ofText? timeUnit with
    | some label => .ok label
    | none => .error (.invalidTimeUnit timeUnit)
  else .error .invalidText

/-- Inserts a row that no other row conflicts with. -/
def insertRow (row : LimitRow) (database : Database) : Except SqlException LimitRow × Database :=
  if database.services.any fun service => service.serviceName = row.serviceName then
    match fire actor now .insert row.configId none (some row) database
      { database with limits := database.limits ++ [row] } with
    | (.ok (), rest) => (.ok row, rest)
    | (.error error, rest) => (.error error, rest)
  else (.error .foreignKeyViolation, database)

/-- Sets the value and the unit of an existing row. -/
def updateRow (old : LimitRow) (limitValue : ℤ) (label : TimeUnitLabel) (database : Database) :
    Except SqlException LimitRow × Database :=
  let row := { old with limitValue := limitValue, timeUnit := label }
  match fire actor now .update row.configId (some old) (some row) database
    { database with
      limits := database.limits.map fun other => if other = old then row else other } with
  | (.ok (), rest) => (.ok row, rest)
  | (.error error, rest) => (.error error, rest)

/-- `INSERT INTO limit_config (..) VALUES (..) RETURNING ..` -/
def insertLimit (key : LimitKey) (limitValue : ℤ) (timeUnit : String) (database : Database) :
    Except SqlException LimitRow × Database :=
  match bindWrite key timeUnit with
  | .error error => (.error error, database)
  | .ok label =>
      let row : LimitRow := ⟨database.nextConfigId, key.serviceName, key.customerId,
        key.rateLimitId, limitValue, label⟩
      let drawn := { database with nextConfigId := database.nextConfigId + 1 }
      if limitValue < 0 then (.error .checkViolation, drawn)
      else if (database.findLimit key).isSome then (.error .uniqueViolation, drawn)
      else insertRow actor now row drawn

/-- `INSERT .. ON CONFLICT (..) DO UPDATE SET .. RETURNING ..`; the id is drawn in any case. -/
def upsertLimit (key : LimitKey) (limitValue : ℤ) (timeUnit : String) (database : Database) :
    Except SqlException LimitRow × Database :=
  match bindWrite key timeUnit with
  | .error error => (.error error, database)
  | .ok label =>
      let row : LimitRow := ⟨database.nextConfigId, key.serviceName, key.customerId,
        key.rateLimitId, limitValue, label⟩
      let drawn := { database with nextConfigId := database.nextConfigId + 1 }
      if limitValue < 0 then (.error .checkViolation, drawn)
      else
        match database.findLimit key with
        | some old => updateRow actor now old limitValue label drawn
        | none => insertRow actor now row drawn

/-- `UPDATE limit_config SET .. WHERE .. RETURNING ..`; absent when no row matches. -/
def updateLimit (key : LimitKey) (limitValue : ℤ) (timeUnit : String) (database : Database) :
    Except SqlException (Option LimitRow) × Database :=
  match bindWrite key timeUnit with
  | .error error => (.error error, database)
  | .ok label =>
      match database.findLimit key with
      | none => (.ok none, database)
      | some old =>
          if limitValue < 0 then (.error .checkViolation, database)
          else
            match updateRow actor now old limitValue label database with
            | (.ok row, rest) => (.ok (some row), rest)
            | (.error error, rest) => (.error error, rest)

/-- `DELETE FROM limit_config WHERE ..`; the number of rows deleted. -/
def deleteLimit (key : LimitKey) (database : Database) : Except SqlException ℕ × Database :=
  if isPostgresText key.serviceName && isPostgresText key.customerId &&
      isPostgresText key.rateLimitId then
    match database.findLimit key with
    | none => (.ok 0, database)
    | some old =>
        match fire actor now .delete old.configId (some old) none database
          { database with limits := database.limits.filter fun row => row ≠ old } with
        | (.ok (), rest) => (.ok 1, rest)
        | (.error error, rest) => (.error error, rest)
  else (.error .invalidText, database)

end Statements

/-- `INSERT INTO service (..) VALUES (..) RETURNING ..` -/
def insertService (row : ServiceRow) (database : Database) :
    Except SqlException ServiceRow × Database :=
  if isPostgresText row.serviceName && isPostgresText row.displayName &&
      isPostgresText row.owner then
    if database.services.any fun service => service.serviceName = row.serviceName then
      (.error .uniqueViolation, database)
    else (.ok row, { database with services := database.services ++ [row] })
  else (.error .invalidText, database)

end Database

end RateLimiter.Management
