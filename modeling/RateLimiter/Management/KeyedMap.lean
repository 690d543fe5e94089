import RateLimiter.Management.Isolation

/-!
# `limit_config` is a keyed map

Seen through the writes of limits, the table is a partial map from tuples to
rows over the registered services. The status of every write is a function of
whether its tuple is held and its service registered; a write that succeeds
changes the map at its tuple only.
-/

namespace RateLimiter.Management

open Machine Query Database

namespace Database

def registers (database : Database) (serviceName : String) : Bool :=
  database.services.any fun service => service.serviceName = serviceName

def holds (database : Database) (key : LimitKey) : Bool :=
  (database.findLimit key).isSome

/-- The invariant of the table: the unique constraint, the check and the foreign key. -/
structure Sane (database : Database) : Prop where
  tuples : Keyed LimitRow.key database.limits
  nonnegative : ∀ row ∈ database.limits, 0 ≤ row.limitValue
  registered : ∀ row ∈ database.limits, database.registers row.serviceName = true

end Database

/-- The error of an outcome, if it is one. -/
def failure {ε α : Type} : Except ε α → Option ε
  | .ok _ => none
  | .error error => some error

/-- The gRPC code of a failure, and nothing for OK. -/
def statusOf {α : Type} (result : Except AppException α) : Option StatusCode :=
  (failure result).map AppException.code

/-- What the service checks of the arguments of a write of a limit. -/
def WriteRequest.validate : WriteRequest → Except AppException Unit
  | .createLimit key limitValue timeUnit =>
      LimitValidator.validateLimitWrite key limitValue timeUnit
  | .updateLimit key limitValue timeUnit _ =>
      LimitValidator.validateLimitWrite key limitValue timeUnit
  | .deleteLimit key _ => LimitValidator.validateKey key
  | .registerService _ => .ok ()

/-- A valid write by an authorised principal that has a name, with a database that is there. -/
structure Proper (call : AdminCall) (principal : Principal) (request : WriteRequest)
    (key : LimitKey) : Prop where
  authenticated : authenticateCall call.authorizer call.header = .ok principal
  isWrite : call.request = .write request
  isKey : request.limitKey? = some key
  valid : request.validate = .ok ()
  texts : isPostgresText key.serviceName ∧ isPostgresText key.customerId ∧
    isPostgresText key.rateLimitId ∧ isPostgresText principal.name
  canEdit : principal.canEdit key.serviceName = true
  named : principal.name ≠ ""
  healthy : ∀ point, call.conditions.faults point = none

/-- The exact statuses of a write of a limit, given the tables that it meets. -/
def ExactStatus (database : Database) (key : LimitKey) (status : Option StatusCode) :
    WriteRequest → Prop
  | .createLimit _ _ _ =>
      (status = none ↔
        database.registers key.serviceName = true ∧ database.holds key = false) ∧
      (status = some .alreadyExists ↔ database.holds key = true) ∧
      (status = some .failedPrecondition ↔ database.registers key.serviceName = false)
  | .updateLimit _ _ _ false =>
      (status = none ↔ database.holds key = true) ∧
      (status = some .notFound ↔ database.holds key = false)
  | .updateLimit _ _ _ true =>
      (status = none ↔ database.registers key.serviceName = true) ∧
      (status = some .failedPrecondition ↔ database.registers key.serviceName = false)
  | .deleteLimit _ allowMissing =>
      (status = none ↔ database.holds key = true ∨ allowMissing = true) ∧
      (status = some .notFound ↔ ¬ (database.holds key = true ∨ allowMissing = true))
  | .registerService _ => True

/-- The map after a write that succeeded: its tuple holds what was written, under the id it had
or the next one, or is gone. -/
def Leaves (before after : Database) : WriteRequest → Prop
  | .createLimit key limitValue timeUnit | .updateLimit key limitValue timeUnit _ =>
      ∃ row, Stores key limitValue (ProtoMappers.toTimeUnitLabel timeUnit) row ∧
        after.findLimit = Function.update before.findLimit key (some row) ∧
        row.configId = ((before.findLimit key).map LimitRow.configId).getD before.nextConfigId
  | .deleteLimit key _ => after.findLimit = Function.update before.findLimit key none
  | .registerService _ => True

section Sane

variable {before after : Database}

theorem registers_iff {serviceName : String} :
    before.registers serviceName = true ↔
      ∃ service ∈ before.services, service.serviceName = serviceName := by
  simp [registers]

theorem registers_congr (services : after.services = before.services) (serviceName : String) :
    after.registers serviceName = before.registers serviceName := by
  simp only [registers, services]

theorem registers_of_holds (sane : Sane before) {key : LimitKey} (held : before.holds key = true) :
    before.registers key.serviceName = true := by
  rcases Option.isSome_iff_exists.mp held with ⟨row, found⟩
  rcases key_of_findLimit found with ⟨rfl, mem⟩
  exact sane.registered row mem

/-- While no service is registered each row may be checked by itself. -/
theorem sane_of_rows (services : after.services = before.services)
    (tuples : Keyed LimitRow.key after.limits)
    (rows : ∀ row ∈ after.limits,
      0 ≤ row.limitValue ∧ before.registers row.serviceName = true) : Sane after := by
  refine ⟨tuples, fun row mem => (rows row mem).1, ?_⟩
  intro row mem
  rw [registers_congr services]
  exact (rows row mem).2

theorem sane_of_same (sane : Sane before) (services : after.services = before.services)
    (limits : after.limits = before.limits) : Sane after := by
  apply sane_of_rows services (limits ▸ sane.tuples)
  intro row mem
  rw [limits] at mem
  exact ⟨sane.nonnegative row mem, sane.registered row mem⟩

theorem sane_of_accepted {principal : Principal} {now : ℤ} {request : WriteRequest}
    (sane : Sane before) (accepted : Accepted principal now before after request) :
    Sane after := by
  have tuples := tuples_of_accepted sane.tuples accepted
  cases accepted with
  | missing same => exact sane_of_same sane same.services same.limits
  | registered _ effect =>
      refine ⟨tuples, effect.limits ▸ sane.nonnegative, ?_⟩
      intro row mem
      rw [effect.limits] at mem
      rcases registers_iff.mp (sane.registered row mem) with ⟨service, serviceMem, isService⟩
      apply registers_iff.mpr
      refine ⟨service, ?_, isService⟩
      rw [effect.services]
      exact List.mem_append_left _ serviceMem
  | @inserted _ row _ _ effect =>
      apply sane_of_rows effect.services tuples
      intro other mem
      rw [effect.limits, List.mem_append, List.mem_singleton] at mem
      rcases mem with earlier | rfl
      · exact ⟨sane.nonnegative other earlier, sane.registered other earlier⟩
      · exact ⟨effect.nonnegative, registers_iff.mpr effect.registered⟩
  | @updated _ old row _ _ effect =>
      have oldMem := (key_of_findLimit effect.found).2
      have sameService : row.serviceName = old.serviceName :=
        congrArg LimitKey.serviceName effect.key
      apply sane_of_rows effect.services tuples
      intro other mem
      rw [effect.limits] at mem
      rcases List.mem_map.mp mem with ⟨source, sourceMem, rfl⟩
      split
      · rw [sameService]
        exact ⟨effect.nonnegative, sane.registered old oldMem⟩
      · exact ⟨sane.nonnegative source sourceMem, sane.registered source sourceMem⟩
  | deleted _ _ effect =>
      apply sane_of_rows effect.services tuples
      intro row mem
      rw [effect.limits] at mem
      have rowMem := (List.mem_filter.mp mem).1
      exact ⟨sane.nonnegative row rowMem, sane.registered row rowMem⟩

theorem sane_planeAfter (backend : Backend) (pool : ℕ → Connection) (calls : List AdminCall) :
    Sane (planeAfter backend ⟨pool, .empty⟩ calls).database := by
  apply planeAfter_invariant
  · exact ⟨List.Pairwise.nil, by simp [Database.empty], by simp [Database.empty]⟩
  · intro before after same sane
    exact sane_of_same sane same.services same.limits
  · intro principal now before after request accepted sane
    exact sane_of_accepted sane accepted

end Sane

section Effects

variable {before after : Database} {actor : String} {now : ℤ} {old row : LimitRow}

theorem findLimit_of_inserted (effect : Inserted actor now row before after) :
    after.findLimit = Function.update before.findLimit row.key (some row) := by
  have fresh : ∀ other ∈ before.limits, other.key ≠ row.key := by
    intro other mem
    simpa using List.find?_eq_none.mp effect.fresh other mem
  funext key
  simp only [findLimit, effect.limits, Function.update_apply]
  rw [Query.find?_concat fresh]
  simp only [eq_comm]

theorem findLimit_of_updated (sane : Sane before)
    (effect : Updated actor now old row before after) :
    after.findLimit = Function.update before.findLimit row.key (some row) := by
  have oldMem := (key_of_findLimit effect.found).2
  funext key
  simp only [findLimit, effect.limits, Function.update_apply]
  rw [Query.find?_replace sane.tuples oldMem effect.key]
  simp only [eq_comm]

theorem findLimit_of_deleted (sane : Sane before) (effect : Deleted actor now old before after) :
    after.findLimit = Function.update before.findLimit old.key none := by
  have oldMem := (key_of_findLimit effect.found).2
  funext key
  simp only [findLimit, effect.limits, Function.update_apply]
  rw [Query.find?_remove sane.tuples oldMem]
  simp only [eq_comm]

end Effects

section Statements

variable {actor : String} {now : ℤ} {database : Database} {key : LimitKey} {limitValue : ℤ}
  {timeUnit : String} {label : TimeUnitLabel} (named : actor ≠ "")

include named

theorem insertRow_failure (row : LimitRow) :
    failure (insertRow (some actor) now row database).1 =
      if database.registers row.serviceName then none else some .foreignKeyViolation := by
  simp only [insertRow]
  by_cases known : database.registers row.serviceName = true
  · have isAny := known
    simp only [registers] at isAny
    simp [isAny, known, fire, limitConfigAuditWrite, named, failure]
  · have isAny := known
    simp only [registers] at isAny
    simp [isAny, known, failure]

theorem updateRow_result (old : LimitRow) :
    (updateRow (some actor) now old limitValue label database).1 =
      .ok { old with limitValue := limitValue, timeUnit := label } := by
  simp [updateRow, fire, limitConfigAuditWrite, named]

theorem deleteLimit_result (texts : isPostgresText key.serviceName ∧
    isPostgresText key.customerId ∧ isPostgresText key.rateLimitId) :
    (deleteLimit (some actor) now key database).1 = .ok (if database.holds key then 1 else 0) := by
  cases found : database.findLimit key with
  | none => simp [deleteLimit, texts, holds, found]
  | some old => simp [deleteLimit, texts, holds, found, fire, limitConfigAuditWrite, named]

variable (bound : bindWrite key timeUnit = .ok label) (nonnegative : 0 ≤ limitValue)

include bound nonnegative

theorem insertLimit_failure :
    failure (insertLimit (some actor) now key limitValue timeUnit database).1 =
      if database.holds key then some .uniqueViolation
      else if database.registers key.serviceName then none
      else some .foreignKeyViolation := by
  have inRange := Int.not_lt.mpr nonnegative
  cases found : database.findLimit key with
  | some old => simp [insertLimit, bound, inRange, holds, found, failure]
  | none =>
      simp only [insertLimit, bound, inRange, holds, found, Option.isSome_none]
      apply insertRow_failure named

theorem upsertLimit_failure :
    failure (upsertLimit (some actor) now key limitValue timeUnit database).1 =
      if database.holds key || database.registers key.serviceName then none
      else some .foreignKeyViolation := by
  have inRange := Int.not_lt.mpr nonnegative
  cases found : database.findLimit key with
  | some old =>
      simp [upsertLimit, bound, inRange, holds, found, updateRow_result named, failure]
  | none =>
      simp only [upsertLimit, bound, inRange, holds, found, Option.isSome_none, Bool.false_or]
      apply insertRow_failure named

theorem updateLimit_result :
    (updateLimit (some actor) now key limitValue timeUnit database).1 =
      .ok ((database.findLimit key).map fun old =>
        { old with limitValue := limitValue, timeUnit := label }) := by
  have inRange := Int.not_lt.mpr nonnegative
  cases found : database.findLimit key with
  | none => simp [updateLimit, bound, found]
  | some old =>
      have written := @updateRow_result actor now database limitValue label named old
      simp only [updateLimit, bound, found, inRange, if_false, Option.map_some]
      split
      · rename_i result
        rw [result] at written
        simpa using written
      · rename_i result
        rw [result] at written
        simp at written

end Statements

/-- The code that a transaction reports for what its body threw. -/
def Thrown.code : Thrown → StatusCode
  | .sql exception => (SqlErrors.translate exception).code
  | .app exception => exception.code

@[simp]
theorem translateWrite_uniqueViolation (key : LimitKey) :
    (LimitRepository.translateWrite .uniqueViolation key).code = .alreadyExists := by
  simp [LimitRepository.translateWrite, SqlErrors.translate, SqlException.uniqueViolation,
    AppException.of]

@[simp]
theorem translateWrite_foreignKeyViolation (key : LimitKey) :
    (LimitRepository.translateWrite .foreignKeyViolation key).code = .failedPrecondition := by
  simp [LimitRepository.translateWrite, SqlErrors.translate, SqlException.foreignKeyViolation,
    AppException.of]

section Repositories

variable {conditions : Conditions} {actor : String} {connection : Connection}
  {database : Database} {key : LimitKey} {limitValue : ℤ} {timeUnit : String}
  {label : TimeUnitLabel} (healthy : ∀ point, conditions.faults point = none)
  (actorText : isPostgresText actor = true)

include healthy

theorem execute_healthy {α : Type} (statement : Database → Except SqlException α × Database) :
    execute conditions statement database = statement database := by
  simp [execute, healthy]

theorem insertBody_failure (actor : Option String) :
    failure (LimitRepository.insertBody conditions key limitValue timeUnit actor database).1 =
      (failure (insertLimit actor conditions.now key limitValue timeUnit database).1).map
        fun error => .app (LimitRepository.translateWrite error key) := by
  simp only [LimitRepository.insertBody, execute_healthy healthy]
  rcases insertLimit actor conditions.now key limitValue timeUnit database with ⟨_ | _, _⟩ <;> rfl

theorem upsert_failure (actor : Option String) :
    failure (LimitRepository.upsert conditions key limitValue timeUnit actor database).1 =
      (failure (upsertLimit actor conditions.now key limitValue timeUnit database).1).map
        fun error => .app (LimitRepository.translateWrite error key) := by
  simp only [LimitRepository.upsert, execute_healthy healthy]
  rcases upsertLimit actor conditions.now key limitValue timeUnit database with ⟨_ | _, _⟩ <;> rfl

include actorText

theorem inAuditedTx_status {α : Type}
    (body : Option String → Database → Except Thrown α × Database) :
    statusOf (LimitRepository.inAuditedTx conditions actor body connection database).1 =
      (failure (body (some actor) database).1).map Thrown.code := by
  have sameActor : connection.currentActor (some actor) = some actor := rfl
  simp only [LimitRepository.inAuditedTx, LimitRepository.setActor, healthy, actorText, if_true,
    sameActor]
  rcases body (some actor) database with ⟨result, rest⟩
  cases result with
  | ok value => rfl
  | error thrown =>
      cases thrown with
      | sql exception => rfl
      | app exception => rfl

variable (named : actor ≠ "")

include named

theorem delete_status (allowMissing : Bool) (texts : isPostgresText key.serviceName ∧
    isPostgresText key.customerId ∧ isPostgresText key.rateLimitId) :
    statusOf (LimitRepository.delete conditions actor key allowMissing connection database).1 =
      if database.holds key || allowMissing then none else some .notFound := by
  have deleted := @deleteLimit_result actor conditions.now database key named texts
  simp only [LimitRepository.delete, inAuditedTx_status healthy actorText,
    LimitRepository.deleteBody, execute_healthy healthy]
  generalize deleteLimit (some actor) conditions.now key database = outcome at deleted
  rcases outcome with ⟨result, rest⟩
  subst deleted
  cases database.holds key <;> cases allowMissing <;> rfl

variable (bound : bindWrite key timeUnit = .ok label) (nonnegative : 0 ≤ limitValue)

include bound nonnegative

theorem create_status :
    statusOf (LimitRepository.create conditions actor key limitValue timeUnit connection
        database).1 =
      if database.holds key then some .alreadyExists
      else if database.registers key.serviceName then none
      else some .failedPrecondition := by
  simp only [LimitRepository.create, inAuditedTx_status healthy actorText,
    insertBody_failure healthy, insertLimit_failure named bound nonnegative]
  cases database.holds key <;> cases database.registers key.serviceName <;> simp [Thrown.code]

theorem update_status (createIfAbsent : Bool) :
    statusOf (LimitRepository.update conditions actor key limitValue timeUnit createIfAbsent
        connection database).1 =
      if database.holds key then none
      else if createIfAbsent then
        if database.registers key.serviceName then none else some .failedPrecondition
      else some .notFound := by
  simp only [LimitRepository.update, inAuditedTx_status healthy actorText]
  cases createIfAbsent with
  | true =>
      simp only [if_true, upsert_failure healthy, upsertLimit_failure named bound nonnegative]
      cases database.holds key <;> cases database.registers key.serviceName <;>
        simp [Thrown.code]
  | false =>
      have updated := @updateLimit_result actor conditions.now database key limitValue timeUnit
        label named bound nonnegative
      simp only [Bool.false_eq_true, if_false, LimitRepository.updateExisting,
        execute_healthy healthy]
      generalize updateLimit (some actor) conditions.now key limitValue timeUnit database =
        outcome at updated
      rcases outcome with ⟨result, rest⟩
      subst updated
      cases found : database.findLimit key with
      | none => simp [holds, found, failure, Thrown.code, AppException.of]
      | some old => simp [holds, found, failure]

end Repositories

section Service

variable {principal : Principal} {conditions : Conditions} {connection : Connection}
  {database : Database} {key : LimitKey}

theorem bindWrite_of_valid {timeUnit : WireTimeUnit} (texts : isPostgresText key.serviceName ∧
    isPostgresText key.customerId ∧ isPostgresText key.rateLimitId)
    (valid : LimitValidator.validateTimeUnit timeUnit = .ok ()) :
    ∃ label, bindWrite key (ProtoMappers.toTimeUnitLabel timeUnit) = .ok label := by
  have labelText : isPostgresText (ProtoMappers.toTimeUnitLabel timeUnit) = true := by
    cases timeUnit with
    | known unit => cases unit <;> decide
    | unrecognized => decide
  simp only [bindWrite, texts, labelText, Bool.and_self, if_true]
  cases timeUnit with
  | known unit =>
      cases unit with
      | unspecified => simp [LimitValidator.validateTimeUnit] at valid
      | minute => exact ⟨.minute, rfl⟩
      | day => exact ⟨.day, rfl⟩
      | month => exact ⟨.month, rfl⟩
  | unrecognized => simp [LimitValidator.validateTimeUnit] at valid

theorem guarded_status {α : Type} {admitted : Except AppException Unit}
    {action : Except AppException α × Connection × Database}
    {respond : α → Except AppException AdminResponse} (isAdmitted : admitted = .ok ())
    (responds : ∀ value, ∃ response, respond value = .ok response) :
    statusOf (LimitAdminService.guarded connection database admitted action respond).1 =
      statusOf action.1 := by
  subst isAdmitted
  rcases action with ⟨result, rest⟩
  cases result with
  | error error => rfl
  | ok value =>
      rcases responds value with ⟨response, responded⟩
      simp only [LimitAdminService.guarded, responded]
      rfl

theorem admitted_of_valid {validated : Except AppException Unit} (valid : validated = .ok ())
    (canEdit : principal.canEdit key.serviceName = true) :
    (do validated; Authorizer.requireEditor principal key.serviceName) = .ok () := by
  subst valid
  simp [Authorizer.requireEditor, canEdit, bind, Except.bind]

theorem write_exactStatus (sane : Sane database)
    (healthy : ∀ point, conditions.faults point = none) {request : WriteRequest}
    (isKey : request.limitKey? = some key) (valid : request.validate = .ok ())
    (texts : isPostgresText key.serviceName ∧ isPostgresText key.customerId ∧
      isPostgresText key.rateLimitId) (actorText : isPostgresText principal.name = true)
    (canEdit : principal.canEdit key.serviceName = true) (named : principal.name ≠ "") :
    ExactStatus database key
      (statusOf (LimitAdminService.write principal conditions connection database request).1)
      request := by
  -- a tuple that is held has a registered service, so the conditions exclude each other
  have known := @registers_of_holds database sane key
  cases request with
  | registerService service => trivial
  | deleteLimit _ allowMissing =>
      cases isKey
      simp only [WriteRequest.validate] at valid
      simp only [LimitAdminService.write, LimitAdminService.deleteLimit]
      rw [guarded_status (admitted_of_valid valid canEdit) fun _ => ⟨_, rfl⟩,
        delete_status healthy actorText named allowMissing texts]
      cases held : database.holds key <;> cases allowMissing <;> simp [ExactStatus, held]
  | createLimit _ limitValue timeUnit =>
      cases isKey
      simp only [WriteRequest.validate] at valid
      rcases LimitValidator.validateLimitWrite_eq_ok_iff.mp valid with ⟨_, nonnegative, isUnit⟩
      rcases bindWrite_of_valid texts isUnit with ⟨label, bound⟩
      simp only [LimitAdminService.write, LimitAdminService.createLimit]
      rw [guarded_status (admitted_of_valid valid canEdit) toLimit_eq_ok,
        create_status healthy actorText named bound nonnegative]
      cases held : database.holds key with
      | true => simp [ExactStatus, held, known held]
      | false => cases isKnown : database.registers key.serviceName <;>
          simp [ExactStatus, held, isKnown]
  | updateLimit _ limitValue timeUnit createIfAbsent =>
      cases isKey
      simp only [WriteRequest.validate] at valid
      rcases LimitValidator.validateLimitWrite_eq_ok_iff.mp valid with ⟨_, nonnegative, isUnit⟩
      rcases bindWrite_of_valid texts isUnit with ⟨label, bound⟩
      simp only [LimitAdminService.write, LimitAdminService.updateLimit]
      rw [guarded_status (admitted_of_valid valid canEdit) toLimit_eq_ok,
        update_status healthy actorText named bound nonnegative]
      cases held : database.holds key with
      | true => cases createIfAbsent <;> simp [ExactStatus, held, known held]
      | false =>
          cases createIfAbsent with
          | false => simp [ExactStatus, held]
          | true => cases isKnown : database.registers key.serviceName <;>
              simp [ExactStatus, isKnown]

theorem leaves_of_inserted {limitValue : ℤ} {timeUnit : String} {actor : String} {now : ℤ}
    {row : LimitRow} {after : Database} (stores : Stores key limitValue timeUnit row)
    (inserted : Inserted actor now row database after) :
    after.findLimit = Function.update database.findLimit key (some row) ∧
      row.configId =
        ((database.findLimit key).map LimitRow.configId).getD database.nextConfigId := by
  rcases stores with ⟨rfl, _, _⟩
  refine ⟨findLimit_of_inserted inserted, ?_⟩
  rw [inserted.fresh]
  exact inserted.configId

theorem leaves_of_updated {limitValue : ℤ} {timeUnit : String} {actor : String} {now : ℤ}
    {old row : LimitRow} {after : Database} (sane : Sane database)
    (stores : Stores key limitValue timeUnit row)
    (updated : Updated actor now old row database after) :
    after.findLimit = Function.update database.findLimit key (some row) ∧
      row.configId =
        ((database.findLimit key).map LimitRow.configId).getD database.nextConfigId := by
  rcases stores with ⟨rfl, _, _⟩
  refine ⟨findLimit_of_updated sane updated, ?_⟩
  rw [updated.key, updated.found]
  exact updated.configId

/-- A write of a limit fails and leaves the tables alone, or changes the map at its tuple. -/
theorem write_leaves (sane : Sane database) {request : WriteRequest}
    (isKey : request.limitKey? = some key) :
    Settled (fun _ after => Leaves database after request ∧ after.services = database.services)
      database (LimitAdminService.write principal conditions connection database request) := by
  cases request with
  | createLimit _ limitValue timeUnit =>
      apply guarded_settled create_settled toLimit_eq_ok
      rintro _ row after ⟨stores, inserted⟩
      exact ⟨⟨row, stores, leaves_of_inserted stores inserted⟩, inserted.services⟩
  | updateLimit _ limitValue timeUnit createIfAbsent =>
      apply guarded_settled update_settled toLimit_eq_ok
      rintro _ row after ⟨stores, inserted | ⟨old, updated⟩⟩
      · exact ⟨⟨row, stores, leaves_of_inserted stores inserted⟩, inserted.services⟩
      · exact ⟨⟨row, stores, leaves_of_updated sane stores updated⟩, updated.services⟩
  | deleteLimit _ allowMissing =>
      cases isKey
      refine guarded_settled delete_settled (fun _ => ⟨_, rfl⟩) ?_
      rintro _ _ after (⟨_, absent, same⟩ | ⟨old, rfl, deleted⟩)
      · refine ⟨?_, same.services⟩
        have unchanged : after.findLimit = database.findLimit := by
          funext other
          simp only [findLimit, same.limits]
        simp only [Leaves]
        rw [unchanged, ← absent, Function.update_eq_self]
      · exact ⟨findLimit_of_deleted sane deleted, deleted.services⟩
  | registerService service => simp [WriteRequest.limitKey?] at isKey

/-- A limit that was written, with the row of its tuple and the entry that the trigger made. -/
structure Recorded (before after : Database) (key : LimitKey) (limitValue : ℤ) (row : LimitRow)
    (entry : AuditRow) : Prop where
  found : after.findLimit key = some row
  limitValue : row.limitValue = limitValue
  audit : after.audit = before.audit ++ [entry]
  newRow : entry.newRow = some (Jsonb.ofRow row)

theorem recorded_of_inserted {limitValue : ℤ} {timeUnit : String} {actor : String} {now : ℤ}
    {row : LimitRow} {after : Database} (stores : Stores key limitValue timeUnit row)
    (inserted : Inserted actor now row database after) :
    ∃ row entry, Recorded database after key limitValue row entry := by
  refine ⟨row, _, ?_, stores.limitValue, inserted.audit, rfl⟩
  rw [(leaves_of_inserted stores inserted).1, Function.update_self]

theorem recorded_of_updated {limitValue : ℤ} {timeUnit : String} {actor : String} {now : ℤ}
    {old row : LimitRow} {after : Database} (sane : Sane database)
    (stores : Stores key limitValue timeUnit row)
    (updated : Updated actor now old row database after) :
    ∃ row entry, Recorded database after key limitValue row entry := by
  refine ⟨row, _, ?_, stores.limitValue, updated.audit, rfl⟩
  rw [(leaves_of_updated sane stores updated).1, Function.update_self]

/-- The writes that set the value of a limit. -/
def WriteRequest.Sets (key : LimitKey) (limitValue : ℤ) : WriteRequest → Prop
  | .createLimit written value _ | .updateLimit written value _ _ =>
      written = key ∧ value = limitValue
  | _ => False

theorem write_recorded (sane : Sane database) {request : WriteRequest} {limitValue : ℤ}
    (sets : request.Sets key limitValue) :
    Settled (fun _ after => ∃ row entry, Recorded database after key limitValue row entry)
      database (LimitAdminService.write principal conditions connection database request) := by
  cases request with
  | createLimit _ _ timeUnit =>
      rcases sets with ⟨rfl, rfl⟩
      apply guarded_settled create_settled toLimit_eq_ok
      rintro _ row after ⟨stores, inserted⟩
      exact recorded_of_inserted stores inserted
  | updateLimit _ _ timeUnit createIfAbsent =>
      rcases sets with ⟨rfl, rfl⟩
      apply guarded_settled update_settled toLimit_eq_ok
      rintro _ row after ⟨stores, inserted | ⟨old, updated⟩⟩
      · exact recorded_of_inserted stores inserted
      · exact recorded_of_updated sane stores updated
  | deleteLimit _ allowMissing => exact absurd sets id
  | registerService service => exact absurd sets id

theorem inAuditedTx_failure {α : Type} {actor : String}
    {body : Option String → Database → Except Thrown α × Database}
    (fails : ∀ actor, ∃ thrown, (body actor database).1 = .error thrown) :
    ∃ error, (LimitRepository.inAuditedTx conditions actor body connection database).1 =
      .error error := by
  rcases fails (connection.currentActor (some actor)) with ⟨thrown, isThrown⟩
  unfold LimitRepository.inAuditedTx
  split
  · exact ⟨_, rfl⟩
  · split
    · exact ⟨_, rfl⟩
    · split
      · exact ⟨_, rfl⟩
      · exact ⟨_, rfl⟩
      · rename_i isOk
        rw [isOk] at isThrown
        cases isThrown

theorem execute_failure {α : Type} {statement : Database → Except SqlException α × Database}
    {error : SqlException} (fails : (statement database).1 = .error error) :
    ∃ error, (execute conditions statement database).1 = .error error := by
  unfold execute
  split
  · exact ⟨_, rfl⟩
  · exact ⟨error, fails⟩

/-- A transaction that has written has bound its parameters. -/
theorem bound_of_inAuditedTx {α : Type} {actor timeUnit : String} {value : α}
    {body : Option String → Database → Except Thrown α × Database}
    (fails : ∀ error, bindWrite key timeUnit = .error error →
      ∀ actor, ∃ thrown, (body actor database).1 = .error thrown)
    (written : (LimitRepository.inAuditedTx conditions actor body connection database).1 =
      .ok value) : ∃ label, bindWrite key timeUnit = .ok label := by
  cases bound : bindWrite key timeUnit with
  | ok label => exact ⟨label, rfl⟩
  | error error =>
      rcases @inAuditedTx_failure conditions connection database α actor body
        (fails error bound) with ⟨_, isError⟩
      rw [isError] at written
      cases written

theorem bound_of_create {actor : String} {limitValue : ℤ} {timeUnit : String} {row : LimitRow}
    (written : (LimitRepository.create conditions actor key limitValue timeUnit connection
      database).1 = .ok row) : ∃ label, bindWrite key timeUnit = .ok label := by
  apply bound_of_inAuditedTx _ written
  intro error bound actor
  rcases @execute_failure conditions database _
    (insertLimit actor conditions.now key limitValue timeUnit) error
    (by simp only [insertLimit, bound]) with ⟨error, isError⟩
  unfold LimitRepository.insertBody
  split
  · rename_i isOk
    rw [isOk] at isError
    cases isError
  · exact ⟨_, rfl⟩

theorem bound_of_update {actor : String} {limitValue : ℤ} {timeUnit : String} {row : LimitRow}
    {createIfAbsent : Bool}
    (written : (LimitRepository.update conditions actor key limitValue timeUnit createIfAbsent
      connection database).1 = .ok row) : ∃ label, bindWrite key timeUnit = .ok label := by
  apply bound_of_inAuditedTx _ written
  intro error bound actor
  cases createIfAbsent with
  | true =>
      rcases @execute_failure conditions database _
        (upsertLimit actor conditions.now key limitValue timeUnit) error
        (by simp only [upsertLimit, bound]) with ⟨error, isError⟩
      simp only [if_true, LimitRepository.upsert]
      split
      · rename_i isOk
        rw [isOk] at isError
        cases isError
      · exact ⟨_, rfl⟩
  | false =>
      rcases @execute_failure conditions database _
        (updateLimit actor conditions.now key limitValue timeUnit) error
        (by simp only [updateLimit, bound]) with ⟨error, isError⟩
      simp only [Bool.false_eq_true, if_false, LimitRepository.updateExisting]
      split
      · rename_i isOk
        rw [isOk] at isError
        cases isError
      · exact ⟨_, rfl⟩
      · exact ⟨_, rfl⟩

theorem guarded_eq_ok {α : Type} {admitted : Except AppException Unit}
    {action : Except AppException α × Connection × Database}
    {respond : α → Except AppException AdminResponse} {response : AdminResponse}
    (answered : (LimitAdminService.guarded connection database admitted action respond).1 =
      .ok response) : admitted = .ok () ∧ ∃ value, action.1 = .ok value := by
  unfold LimitAdminService.guarded at answered
  split at answered
  · cases answered
  · split at answered
    · cases answered
    · exact ⟨rfl, _, rfl⟩

/-- A tuple of a write that was answered is valid, may be edited and can be looked for. -/
structure Writable (principal : Principal) (key : LimitKey) : Prop where
  valid : LimitValidator.validateKey key = .ok ()
  canEdit : principal.canEdit key.serviceName = true
  texts : isPostgresText key.serviceName ∧ isPostgresText key.customerId ∧
    isPostgresText key.rateLimitId

theorem Writable.canView (writable : Writable principal key) :
    principal.canView key.serviceName = true := by
  have canEdit := writable.canEdit
  simp only [Principal.canEdit] at canEdit
  simp only [Principal.canView, canEdit, Bool.true_or]

theorem writable_of_bound {limitValue : ℤ} {timeUnit : WireTimeUnit}
    (admitted : (do LimitValidator.validateLimitWrite key limitValue timeUnit
                    Authorizer.requireEditor principal key.serviceName) = .ok ())
    {label : TimeUnitLabel}
    (bound : bindWrite key (ProtoMappers.toTimeUnitLabel timeUnit) = .ok label) :
    Writable principal key := by
  refine ⟨?_, canEdit_of_admitted admitted, ?_⟩
  · cases valid : LimitValidator.validateLimitWrite key limitValue timeUnit with
    | error error =>
        rw [valid] at admitted
        cases admitted
    | ok _ => exact (LimitValidator.validateLimitWrite_eq_ok_iff.mp valid).1
  · unfold bindWrite at bound
    split at bound
    · rename_i texts
      simp only [Bool.and_eq_true] at texts
      exact ⟨texts.1.1.1, texts.1.1.2, texts.1.2⟩
    · cases bound

theorem writable_of_write {request : WriteRequest} {limitValue : ℤ} {response : AdminResponse}
    (sets : request.Sets key limitValue)
    (answered : (LimitAdminService.write principal conditions connection database request).1 =
      .ok response) : Writable principal key := by
  cases request with
  | createLimit _ _ timeUnit =>
      rcases sets with ⟨rfl, rfl⟩
      rcases guarded_eq_ok answered with ⟨admitted, row, written⟩
      rcases bound_of_create written with ⟨label, bound⟩
      exact writable_of_bound admitted bound
  | updateLimit _ _ timeUnit createIfAbsent =>
      rcases sets with ⟨rfl, rfl⟩
      rcases guarded_eq_ok answered with ⟨admitted, row, written⟩
      rcases bound_of_update written with ⟨label, bound⟩
      exact writable_of_bound admitted bound
  | deleteLimit _ allowMissing => exact absurd sets id
  | registerService service => exact absurd sets id

end Service

/-- A tuple that is new has the next id. -/
theorem configId_of_leaves {before after : Database} {request : WriteRequest} {key : LimitKey}
    {row : LimitRow} (isKey : request.limitKey? = some key)
    (leaves : Leaves before after request) (absent : before.findLimit key = none)
    (found : after.findLimit key = some row) : row.configId = before.nextConfigId := by
  cases request with
  | createLimit _ limitValue timeUnit =>
      cases isKey
      rcases leaves with ⟨written, _, isUpdate, hasId⟩
      rw [isUpdate, Function.update_self, Option.some.injEq] at found
      rw [← found, hasId, absent]
      rfl
  | updateLimit _ limitValue timeUnit createIfAbsent =>
      cases isKey
      rcases leaves with ⟨written, _, isUpdate, hasId⟩
      rw [isUpdate, Function.update_self, Option.some.injEq] at found
      rw [← found, hasId, absent]
      rfl
  | deleteLimit _ allowMissing =>
      cases isKey
      simp only [Leaves] at leaves
      rw [leaves, Function.update_self] at found
      simp at found
  | registerService service => simp [WriteRequest.limitKey?] at isKey

section Runs

variable (backend : Backend) (pool : ℕ → Connection)

theorem configIds_grow (calls more : List AdminCall) :
    (planeAfter backend ⟨pool, .empty⟩ calls).database.nextConfigId ≤
      (planeAfter backend ⟨pool, .empty⟩ (calls ++ more)).database.nextConfigId := by
  induction more using List.reverseRecOn with
  | nil => simp
  | append_singleton more call ih =>
      rw [← List.append_assoc, planeAfter_concat]
      refine ih.trans ?_
      rcases serve_cases backend (planeAfter backend ⟨pool, .empty⟩ (calls ++ more)) call with
        ⟨_, _, same⟩ | ⟨_, _, _, _, ⟨_, _, unchanged⟩ | ⟨_, _, accepted⟩⟩
      · exact same.configIds
      · rw [unchanged]
      · exact (grown_of_accepted accepted).configIds

/-- Identities are drawn from 1 on. -/
theorem configId_pos (calls : List AdminCall) :
    0 < (planeAfter backend ⟨pool, .empty⟩ calls).database.nextConfigId ∧
      ∀ row ∈ (planeAfter backend ⟨pool, .empty⟩ calls).database.limits, 0 < row.configId := by
  apply planeAfter_invariant backend ⟨pool, .empty⟩ (fun database =>
    0 < database.nextConfigId ∧ ∀ row ∈ database.limits, 0 < row.configId)
  · simp [Database.empty]
  · rintro before after same ⟨next, drawn⟩
    exact ⟨next.trans_le same.configIds, same.limits ▸ drawn⟩
  · rintro principal now before after request accepted ⟨next, drawn⟩
    refine ⟨next.trans_le (grown_of_accepted accepted).configIds, ?_⟩
    cases accepted with
    | missing same => exact same.limits ▸ drawn
    | registered _ effect => exact effect.limits ▸ drawn
    | inserted _ _ effect =>
        rw [effect.limits]
        intro row mem
        rcases List.mem_append.mp mem with old | isNew
        · exact drawn row old
        · rw [List.mem_singleton.mp isNew, effect.configId]
          exact next
    | updated _ _ effect =>
        rw [effect.limits]
        intro row mem
        rcases List.mem_map.mp mem with ⟨source, sourceMem, rfl⟩
        split
        · rw [effect.configId]
          exact drawn _ (key_of_findLimit effect.found).2
        · exact drawn source sourceMem
    | deleted _ _ effect =>
        rw [effect.limits]
        intro row mem
        exact drawn row (List.mem_filter.mp mem).1

/-- Ids once in use lie below the next one for good. -/
theorem configId_lt_of_prefix {calls earlier : List AdminCall} (isEarlier : earlier <+: calls)
    {row : LimitRow} (mem : row ∈ (planeAfter backend ⟨pool, .empty⟩ earlier).database.limits) :
    row.configId < (planeAfter backend ⟨pool, .empty⟩ calls).database.nextConfigId := by
  have traced : Traced (planeAfter backend ⟨pool, .empty⟩ earlier).database :=
    Traced.run backend Traced.empty earlier
  rcases isEarlier with ⟨more, rfl⟩
  exact (traced.configIds row mem).trans_le (configIds_grow backend pool earlier more)

end Runs

/-- In every state that is reached the tuples are unique, the values not negative and the services
registered. A proper write there has the exact status, and if it succeeds it changes the map at
its tuple only; the id of a new tuple has never been in use. -/
theorem limits_keyed_map (backend : Backend) (pool : ℕ → Connection) (calls : List AdminCall)
    {plane : ControlPlane} (reached : planeAfter backend ⟨pool, .empty⟩ calls = plane) :
    Sane plane.database ∧
    ∀ call principal request key, Proper call principal request key →
      ∀ result after, serve backend plane call = (result, after) →
        ExactStatus plane.database key (statusOf result) request ∧
        ∀ response, result = .ok response →
          Leaves plane.database after.database request ∧
          after.database.services = plane.database.services ∧
          ∀ row, plane.database.findLimit key = none →
            after.database.findLimit key = some row → ∀ earlier, earlier <+: calls →
            ∀ used ∈ (planeAfter backend ⟨pool, .empty⟩ earlier).database.limits,
              used.configId ≠ row.configId := by
  have sane : Sane plane.database := reached ▸ sane_planeAfter backend pool calls
  refine ⟨sane, ?_⟩
  intro call principal request key proper result after served
  rcases @serve_write backend plane call _ _ proper.authenticated proper.isWrite with
    ⟨sameResult, sameDatabase⟩
  rw [served] at sameResult sameDatabase
  dsimp only at sameResult sameDatabase
  rcases proper.texts with ⟨serviceText, customerText, rateLimitText, nameText⟩
  constructor
  · rw [sameResult]
    exact write_exactStatus sane proper.healthy proper.isKey proper.valid
      ⟨serviceText, customerText, rateLimitText⟩ nameText proper.canEdit proper.named
  · intro response isOk
    rcases @write_leaves principal call.conditions (plane.pool call.connection) plane.database key
      sane request proper.isKey with ⟨error, isError, _⟩ | ⟨_, _, leaves, services⟩
    · rw [← sameResult, isOk] at isError
      simp at isError
    · rw [← sameDatabase] at leaves services
      refine ⟨leaves, services, ?_⟩
      intro row absent found earlier isEarlier used usedMem
      have below := configId_lt_of_prefix backend pool isEarlier usedMem
      rw [reached] at below
      have isNext := configId_of_leaves proper.isKey leaves absent found
      omega

section Sample

/-- An editor writes a limit of a customer that has none. -/
def sampleUpsert : WriteRequest :=
  .updateLimit ⟨"search", "acme", "query"⟩ 5 (.known .day) true

theorem sampleUpsert_proper : Proper (sampleCall "alice" sampleUpsert)
    ⟨"alice@corp", ["search"], [], false⟩ sampleUpsert ⟨"search", "acme", "query"⟩ where
  authenticated := by decide +kernel
  isWrite := rfl
  isKey := rfl
  valid := by decide +kernel
  texts := by decide +kernel
  canEdit := by decide +kernel
  named := by decide
  healthy _ := rfl

theorem limits_keyed_map_sample :
    ExactStatus (planeAfter sampleBackend samplePlane sampleCalls).database
      ⟨"search", "acme", "query"⟩
      (statusOf (serve sampleBackend (planeAfter sampleBackend samplePlane sampleCalls)
        (sampleCall "alice" sampleUpsert)).1) sampleUpsert :=
  ((limits_keyed_map sampleBackend _ sampleCalls rfl).2 _ _ _ _ sampleUpsert_proper _ _ rfl).1

end Sample

end RateLimiter.Management
