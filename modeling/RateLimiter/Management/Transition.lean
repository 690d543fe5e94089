import RateLimiter.Management.LimitAdminService

/-!
# What a call can do to the tables

Every statement, every repository method and every RPC is inverted once: it
fails and leaves the tables as they were, or it succeeds and its effect is one
of a few. Later modules use `serve_cases` and never unfold a statement.
-/

namespace RateLimiter.Management

/-- The row of a tuple with the value and the unit that were written. -/
structure Stores (key : LimitKey) (limitValue : ℤ) (timeUnit : String)
    (row : LimitRow) : Prop where
  key : row.key = key
  limitValue : row.limitValue = limitValue
  timeUnit : row.timeUnit.text = timeUnit

namespace Database

/-- Identity values are drawn and never given back. -/
structure Grown (before after : Database) : Prop where
  configIds : before.nextConfigId ≤ after.nextConfigId
  auditIds : before.nextAuditId ≤ after.nextAuditId

/-- The three tables are exactly as they were. -/
structure SameTables (before after : Database) : Prop extends Grown before after where
  services : after.services = before.services
  limits : after.limits = before.limits
  audit : after.audit = before.audit

/-- A new row, with the audit row of its insertion. -/
structure Inserted (actor : String) (now : ℤ) (row : LimitRow) (before after : Database) :
    Prop extends Grown before after where
  configId : row.configId = before.nextConfigId
  advanced : before.nextConfigId < after.nextConfigId
  fresh : before.findLimit row.key = none
  registered : ∃ service ∈ before.services, service.serviceName = row.serviceName
  nonnegative : 0 ≤ row.limitValue
  services : after.services = before.services
  limits : after.limits = before.limits ++ [row]
  audit : after.audit = before.audit ++ [⟨before.nextAuditId, row.configId, .insert, none,
    some (Jsonb.ofRow row), actor, now⟩]
  auditAdvanced : before.nextAuditId < after.nextAuditId

/-- Another value or unit of a row, with the audit row of the update. -/
structure Updated (actor : String) (now : ℤ) (old row : LimitRow) (before after : Database) :
    Prop extends Grown before after where
  found : before.findLimit old.key = some old
  key : row.key = old.key
  configId : row.configId = old.configId
  nonnegative : 0 ≤ row.limitValue
  services : after.services = before.services
  limits : after.limits = before.limits.map fun other => if other = old then row else other
  audit : after.audit = before.audit ++ [⟨before.nextAuditId, row.configId, .update,
    some (Jsonb.ofRow old), some (Jsonb.ofRow row), actor, now⟩]
  auditAdvanced : before.nextAuditId < after.nextAuditId

/-- A row gone, with the audit row of its deletion. -/
structure Deleted (actor : String) (now : ℤ) (old : LimitRow) (before after : Database) :
    Prop extends Grown before after where
  found : before.findLimit old.key = some old
  services : after.services = before.services
  limits : after.limits = before.limits.filter fun row => row ≠ old
  audit : after.audit = before.audit ++ [⟨before.nextAuditId, old.configId, .delete,
    some (Jsonb.ofRow old), none, actor, now⟩]
  auditAdvanced : before.nextAuditId < after.nextAuditId

structure Registered (service : ServiceRow) (before after : Database) :
    Prop extends Grown before after where
  fresh : ∀ other ∈ before.services, other.serviceName ≠ service.serviceName
  services : after.services = before.services ++ [service]
  limits : after.limits = before.limits
  audit : after.audit = before.audit

theorem Grown.refl (database : Database) : Grown database database :=
  ⟨Int.le_refl _, Int.le_refl _⟩

theorem SameTables.refl (database : Database) : SameTables database database :=
  ⟨.refl database, rfl, rfl, rfl⟩

theorem Grown.rollback {before after : Database} (grown : Grown before after) :
    SameTables before (before.rollback after) :=
  ⟨⟨grown.configIds, grown.auditIds⟩, rfl, rfl, rfl⟩

/-- A statement fails without an effect, or succeeds with the given one. -/
def Ran {α : Type} (effect : α → Database → Prop) (before : Database)
    (outcome : Except SqlException α × Database) : Prop :=
  (∃ error, outcome.1 = .error error ∧ SameTables before outcome.2) ∨
    ∃ value, outcome.1 = .ok value ∧ effect value outcome.2

section Statements

variable {actor : String} {now : ℤ} {database : Database}

theorem fire_cases {operation : Operation} {configId : ℤ} {oldRow newRow : Option LimitRow}
    {unwritten written : Database} :
    (∃ error, fire (some actor) now operation configId oldRow newRow unwritten written =
      (.error error, unwritten)) ∨
    fire (some actor) now operation configId oldRow newRow unwritten written =
      (.ok (), { written with
        audit := written.audit ++ [⟨written.nextAuditId, configId, operation,
          oldRow.map Jsonb.ofRow, newRow.map Jsonb.ofRow, actor, now⟩]
        nextAuditId := written.nextAuditId + 1 }) := by
  simp only [fire, limitConfigAuditWrite]
  by_cases unset : actor = ""
  · exact Or.inl ⟨.actorNotSet, by simp [unset]⟩
  · exact Or.inr (by simp [unset])

theorem insertRow_ran {row : LimitRow} {drawn : Database}
    (fresh : database.findLimit row.key = none) (configId : row.configId = database.nextConfigId)
    (nonnegative : 0 ≤ row.limitValue)
    (isDrawn : drawn = { database with nextConfigId := database.nextConfigId + 1 }) :
    Ran (fun value after => value = row ∧ Inserted actor now row database after) database
      (insertRow (some actor) now row drawn) := by
  subst drawn
  have step : database.nextConfigId ≤ database.nextConfigId + 1 := by omega
  have auditStep : database.nextAuditId ≤ database.nextAuditId + 1 := by omega
  have drawnOnly : SameTables database
      { database with nextConfigId := database.nextConfigId + 1 } :=
    ⟨⟨step, Int.le_refl _⟩, rfl, rfl, rfl⟩
  simp only [insertRow]
  split
  · rename_i registered
    simp only [List.any_eq_true, decide_eq_true_eq] at registered
    rcases @fire_cases actor now .insert row.configId none (some row)
      { database with nextConfigId := database.nextConfigId + 1 }
      { database with
        nextConfigId := database.nextConfigId + 1
        limits := database.limits ++ [row] } with ⟨error, failed⟩ | fired
    · rw [failed]
      exact Or.inl ⟨error, rfl, drawnOnly⟩
    · rw [fired]
      exact Or.inr ⟨row, rfl, rfl, ⟨step, auditStep⟩, configId, Int.lt_succ _, fresh, registered,
        nonnegative, rfl, rfl, rfl, Int.lt_succ _⟩
  · exact Or.inl ⟨_, rfl, drawnOnly⟩

theorem updateRow_ran {old : LimitRow} {limitValue : ℤ} {label : TimeUnitLabel}
    {drawn : Database} (found : database.findLimit old.key = some old)
    (nonnegative : 0 ≤ limitValue) (same : SameTables database drawn)
    (sameAuditIds : drawn.nextAuditId = database.nextAuditId) :
    Ran (fun value after => Stores old.key limitValue label.text value ∧
        Updated actor now old value database after)
      database (updateRow (some actor) now old limitValue label drawn) := by
  have auditStep : database.nextAuditId ≤ database.nextAuditId + 1 := by omega
  simp only [updateRow]
  rcases @fire_cases actor now .update old.configId (some old)
    (some { old with limitValue := limitValue, timeUnit := label }) drawn
    { drawn with
      limits := drawn.limits.map fun other =>
        if other = old then { old with limitValue := limitValue, timeUnit := label }
        else other } with ⟨error, failed⟩ | fired
  · rw [failed]
    exact Or.inl ⟨error, rfl, same⟩
  · rw [fired]
    refine Or.inr ⟨_, rfl, ⟨rfl, rfl, rfl⟩, ⟨same.configIds, ?_⟩, found, rfl, rfl, nonnegative,
      same.services, ?_, ?_, ?_⟩
    · simp only [sameAuditIds]
      exact auditStep
    · simp only [same.limits]
    · simp only [same.audit, sameAuditIds, Option.map_some]
    · simp only [sameAuditIds]
      omega

theorem text_of_bindWrite {key : LimitKey} {timeUnit : String} {label : TimeUnitLabel}
    (bound : bindWrite key timeUnit = .ok label) : label.text = timeUnit := by
  simp only [bindWrite] at bound
  split at bound
  · split at bound
    · rename_i known
      cases Except.ok.inj bound
      simp only [TimeUnitLabel.ofText?] at known
      grind [TimeUnitLabel.text]
    · simp at bound
  · simp at bound

theorem insertLimit_ran {key : LimitKey} {limitValue : ℤ} {timeUnit : String} :
    Ran (fun row after => Stores key limitValue timeUnit row ∧
        Inserted actor now row database after) database
      (insertLimit (some actor) now key limitValue timeUnit database) := by
  have drawnOnly : SameTables database
      { database with nextConfigId := database.nextConfigId + 1 } :=
    ⟨⟨(Int.lt_succ _).le, Int.le_refl _⟩, rfl, rfl, rfl⟩
  simp only [insertLimit]
  split
  · exact Or.inl ⟨_, rfl, .refl database⟩
  · rename_i label bound
    split
    · exact Or.inl ⟨_, rfl, drawnOnly⟩
    · rename_i nonnegative
      split
      · exact Or.inl ⟨_, rfl, drawnOnly⟩
      · rename_i absent
        have fresh : database.findLimit key = none := by simpa using absent
        rcases @insertRow_ran actor now database ⟨database.nextConfigId, key.serviceName,
          key.customerId, key.rateLimitId, limitValue, label⟩ _ fresh rfl
          (Int.not_lt.mp nonnegative) rfl with failed | ⟨row, succeeded, rfl, inserted⟩
        · exact Or.inl failed
        · exact Or.inr ⟨_, succeeded, ⟨rfl, rfl, text_of_bindWrite bound⟩, inserted⟩

theorem key_of_findLimit {key : LimitKey} {row : LimitRow}
    (found : database.findLimit key = some row) : row.key = key ∧ row ∈ database.limits := by
  have matched := List.find?_some found
  exact ⟨by simpa using matched, List.mem_of_find?_eq_some found⟩

theorem upsertLimit_ran {key : LimitKey} {limitValue : ℤ} {timeUnit : String} :
    Ran (fun row after => Stores key limitValue timeUnit row ∧
        (Inserted actor now row database after ∨
          ∃ old, Updated actor now old row database after)) database
      (upsertLimit (some actor) now key limitValue timeUnit database) := by
  have drawnOnly : SameTables database
      { database with nextConfigId := database.nextConfigId + 1 } :=
    ⟨⟨(Int.lt_succ _).le, Int.le_refl _⟩, rfl, rfl, rfl⟩
  simp only [upsertLimit]
  split
  · exact Or.inl ⟨_, rfl, .refl database⟩
  · rename_i label bound
    have isLabel := text_of_bindWrite bound
    split
    · exact Or.inl ⟨_, rfl, drawnOnly⟩
    · rename_i nonnegative
      split
      · rename_i old found
        rcases key_of_findLimit found with ⟨rfl, _⟩
        rcases @updateRow_ran actor now database old limitValue label _ found
          (Int.not_lt.mp nonnegative) drawnOnly rfl with
          failed | ⟨row, succeeded, stores, updated⟩
        · exact Or.inl failed
        · exact Or.inr ⟨row, succeeded, isLabel ▸ stores, Or.inr ⟨old, updated⟩⟩
      · rename_i fresh
        rcases @insertRow_ran actor now database ⟨database.nextConfigId, key.serviceName,
          key.customerId, key.rateLimitId, limitValue, label⟩ _ fresh rfl
          (Int.not_lt.mp nonnegative) rfl with failed | ⟨row, succeeded, rfl, inserted⟩
        · exact Or.inl failed
        · exact Or.inr ⟨_, succeeded, ⟨rfl, rfl, isLabel⟩, Or.inl inserted⟩

theorem updateLimit_ran {key : LimitKey} {limitValue : ℤ} {timeUnit : String} :
    Ran (fun found? after => match found? with
        | none => SameTables database after
        | some row => Stores key limitValue timeUnit row ∧
            ∃ old, Updated actor now old row database after) database
      (updateLimit (some actor) now key limitValue timeUnit database) := by
  simp only [updateLimit]
  split
  · exact Or.inl ⟨_, rfl, .refl database⟩
  · rename_i label bound
    have isLabel := text_of_bindWrite bound
    split
    · exact Or.inr ⟨none, rfl, .refl database⟩
    · rename_i old found
      rcases key_of_findLimit found with ⟨rfl, _⟩
      split
      · exact Or.inl ⟨_, rfl, .refl database⟩
      · rename_i nonnegative
        have ran := @updateRow_ran actor now database old limitValue label database found
          (Int.not_lt.mp nonnegative) (.refl database) rfl
        split
        · rename_i row rest result
          rw [result] at ran
          rcases ran with ⟨_, isError, _⟩ | ⟨value, isOk, stores, updated⟩
          · simp at isError
          · simp only [Except.ok.injEq] at isOk
            subst value
            exact Or.inr ⟨some row, rfl, isLabel ▸ stores, old, updated⟩
        · rename_i error rest result
          rw [result] at ran
          rcases ran with ⟨_, _, same⟩ | ⟨value, isOk, _⟩
          · exact Or.inl ⟨error, rfl, same⟩
          · simp at isOk

theorem deleteLimit_ran {key : LimitKey} :
    Ran (fun affected after =>
        (affected = 0 ∧ database.findLimit key = none ∧ SameTables database after) ∨
        affected = 1 ∧ ∃ old, old.key = key ∧ Deleted actor now old database after) database
      (deleteLimit (some actor) now key database) := by
  simp only [deleteLimit]
  split
  · split
    · rename_i absent
      exact Or.inr ⟨0, rfl, Or.inl ⟨rfl, absent, .refl database⟩⟩
    · rename_i old found
      rcases key_of_findLimit found with ⟨rfl, _⟩
      rcases @fire_cases actor now .delete old.configId (some old) none database
        { database with limits := database.limits.filter fun row => row ≠ old } with
        ⟨error, failed⟩ | fired
      · rw [failed]
        exact Or.inl ⟨error, rfl, .refl database⟩
      · rw [fired]
        exact Or.inr ⟨1, rfl, Or.inr ⟨rfl, old, rfl, ⟨Int.le_refl _, (Int.lt_succ _).le⟩, found,
          rfl, rfl, rfl, Int.lt_succ _⟩⟩
  · exact Or.inl ⟨_, rfl, .refl database⟩

theorem insertService_ran {service : ServiceRow} :
    Ran (fun row after => row = service ∧ Registered service database after) database
      (insertService service database) := by
  simp only [insertService]
  split
  · split
    · exact Or.inl ⟨_, rfl, .refl database⟩
    · rename_i absent
      simp only [List.any_eq_true, decide_eq_true_eq, not_exists, not_and] at absent
      exact Or.inr ⟨service, rfl, rfl, ⟨Int.le_refl _, Int.le_refl _⟩, absent, rfl, rfl, rfl⟩
  · exact Or.inl ⟨_, rfl, .refl database⟩

end Statements

end Database

open Database

/-- A write fails and leaves the tables alone, or succeeds with the given effect. -/
def Settled {α : Type} (effect : α → Database → Prop) (before : Database)
    (outcome : Except AppException α × Connection × Database) : Prop :=
  (∃ error, outcome.1 = .error error ∧ SameTables before outcome.2.2) ∨
    ∃ value, outcome.1 = .ok value ∧ effect value outcome.2.2

section Repositories

variable {α : Type} {conditions : Conditions} {actor : String} {database : Database}

theorem execute_ran {effect : α → Database → Prop}
    {statement : Database → Except SqlException α × Database}
    (ran : Ran effect database (statement database)) :
    Ran effect database (execute conditions statement database) := by
  simp only [execute]
  split
  · exact Or.inl ⟨_, rfl, .refl database⟩
  · exact ran

/-- A transaction fails and is rolled back, or commits what its body did. -/
theorem inAuditedTx_settled {body : Option String → Database → Except Thrown α × Database}
    {connection : Connection} {effect : α → Database → Prop}
    (grown : Grown database (body (some actor) database).2)
    (succeeds : ∀ value, (body (some actor) database).1 = .ok value →
      effect value (body (some actor) database).2) :
    Settled effect database
      (LimitRepository.inAuditedTx conditions actor body connection database) := by
  have sameActor : connection.currentActor (some actor) = some actor := rfl
  simp only [LimitRepository.inAuditedTx, sameActor]
  split
  · exact Or.inl ⟨_, rfl, .refl database⟩
  · split
    · exact Or.inl ⟨_, rfl, .refl database⟩
    · split
      · rename_i rest result
        rw [result] at grown
        exact Or.inl ⟨_, rfl, grown.rollback⟩
      · rename_i rest result
        rw [result] at grown
        exact Or.inl ⟨_, rfl, grown.rollback⟩
      · rename_i value rest result
        rw [result] at grown succeeds
        split
        · exact Or.inl ⟨_, rfl, grown.rollback⟩
        · exact Or.inr ⟨value, rfl, succeeds value rfl⟩

/-- The same for a body that only reports the outcome of one statement. -/
theorem inAuditedTx_settled_of_ran {β : Type} {effect : β → Database → Prop}
    {body : Option String → Database → Except Thrown α × Database}
    {connection : Connection} {statement : Except SqlException β × Database}
    (ran : Ran effect database statement)
    (effectGrown : ∀ value after, effect value after → Grown database after)
    (sameState : (body (some actor) database).2 = statement.2) {committed : α → Database → Prop}
    (succeeds : ∀ value, (body (some actor) database).1 = .ok value →
      ∃ result, statement.1 = .ok result ∧
        ∀ after, effect result after → committed value after) :
    Settled committed database
      (LimitRepository.inAuditedTx conditions actor body connection database) := by
  refine inAuditedTx_settled ?_ ?_
  · rw [sameState]
    rcases ran with ⟨_, _, same⟩ | ⟨value, _, held⟩
    · exact same.toGrown
    · exact effectGrown value _ held
  · intro value succeeded
    rcases succeeds value succeeded with ⟨result, isOk, commits⟩
    rw [sameState]
    rcases ran with ⟨_, isError, _⟩ | ⟨other, isOther, held⟩
    · rw [isOk] at isError
      simp at isError
    · rw [isOk, Except.ok.injEq] at isOther
      exact commits _ (isOther ▸ held)

variable {key : LimitKey} {limitValue : ℤ} {timeUnit : String} {connection : Connection}

theorem create_settled :
    Settled (fun row after => Stores key limitValue timeUnit row ∧
        Inserted actor conditions.now row database after)
      database (LimitRepository.create conditions actor key limitValue timeUnit connection
        database) := by
  have ran := @execute_ran _ conditions database _ _
    (@insertLimit_ran actor conditions.now database key limitValue timeUnit)
  refine inAuditedTx_settled_of_ran ran (fun _ _ effect => effect.2.toGrown) ?_ ?_
  · simp only [LimitRepository.insertBody]
    split <;> rename_i result <;> rw [result]
  · intro row succeeded
    simp only [LimitRepository.insertBody] at succeeded
    split at succeeded
    · rename_i value rest result
      simp only [Except.ok.injEq] at succeeded
      subst value
      exact ⟨row, by rw [result], fun _ effect => effect⟩
    · simp at succeeded

theorem update_settled {createIfAbsent : Bool} :
    Settled (fun row after => Stores key limitValue timeUnit row ∧
        (Inserted actor conditions.now row database after ∨
          ∃ old, Updated actor conditions.now old row database after))
      database (LimitRepository.update conditions actor key limitValue timeUnit createIfAbsent
        connection database) := by
  cases createIfAbsent with
  | true =>
      have ran := @execute_ran _ conditions database _ _
        (@upsertLimit_ran actor conditions.now database key limitValue timeUnit)
      refine inAuditedTx_settled_of_ran ran ?_ ?_ ?_
      · rintro row after ⟨_, inserted | ⟨old, updated⟩⟩
        · exact inserted.toGrown
        · exact updated.toGrown
      · simp only [LimitRepository.upsert, if_true]
        split <;> rename_i result <;> rw [result]
      · intro row succeeded
        simp only [LimitRepository.upsert, if_true] at succeeded
        split at succeeded
        · rename_i value rest result
          simp only [Except.ok.injEq] at succeeded
          subst value
          exact ⟨row, by rw [result], fun _ effect => effect⟩
        · simp at succeeded
  | false =>
      have ran := @execute_ran _ conditions database _ _
        (@updateLimit_ran actor conditions.now database key limitValue timeUnit)
      refine inAuditedTx_settled_of_ran ran ?_ ?_ ?_
      · intro found? after effect
        cases found? with
        | none => exact effect.toGrown
        | some row =>
            rcases effect with ⟨_, old, updated⟩
            exact updated.toGrown
      · simp only [LimitRepository.updateExisting, Bool.false_eq_true, if_false]
        split <;> rename_i result <;> rw [result]
      · intro row succeeded
        simp only [LimitRepository.updateExisting, Bool.false_eq_true, if_false] at succeeded
        split at succeeded
        · rename_i value rest result
          simp only [Except.ok.injEq] at succeeded
          subst value
          exact ⟨some row, by rw [result], fun _ effect => ⟨effect.1, Or.inr effect.2⟩⟩
        · simp at succeeded
        · simp at succeeded

theorem delete_settled {allowMissing : Bool} :
    Settled (fun _ after =>
        (allowMissing = true ∧ database.findLimit key = none ∧ SameTables database after) ∨
        ∃ old, old.key = key ∧ Deleted actor conditions.now old database after)
      database (LimitRepository.delete conditions actor key allowMissing connection database) := by
  have ran := @execute_ran _ conditions database _ _
    (@deleteLimit_ran actor conditions.now database key)
  refine inAuditedTx_settled_of_ran ran ?_ ?_ ?_
  · rintro affected after (⟨_, _, same⟩ | ⟨_, old, _, deleted⟩)
    · exact same.toGrown
    · exact deleted.toGrown
  · simp only [LimitRepository.deleteBody]
    split
    · rename_i result
      rw [result]
      split <;> rfl
    · rename_i result
      rw [result]
  · intro value succeeded
    simp only [LimitRepository.deleteBody] at succeeded
    split at succeeded
    · rename_i affected rest result
      rw [result]
      split at succeeded
      · simp at succeeded
      · rename_i notMissing
        refine ⟨affected, rfl, ?_⟩
        rintro after (⟨rfl, absent, same⟩ | ⟨_, deleted⟩)
        · exact Or.inl ⟨by simpa using notMissing, absent, same⟩
        · exact Or.inr deleted
    · simp at succeeded

theorem register_settled {service : ServiceRow} :
    Settled (fun row after => row = service ∧ Registered service database after) database
      ((ServiceRepository.register conditions service database).map id fun rest =>
        (connection, rest)) := by
  have ran := @execute_ran _ conditions database _ _ (@insertService_ran database service)
  simp only [ServiceRepository.register]
  split
  · exact Or.inl ⟨_, rfl, .refl database⟩
  · split
    · rename_i row rest result
      rw [result] at ran
      rcases ran with ⟨_, isError, _⟩ | ⟨value, isOk, effect⟩
      · simp at isError
      · cases Except.ok.inj isOk
        exact Or.inr ⟨row, rfl, effect⟩
    · rename_i error rest result
      rw [result] at ran
      rcases ran with ⟨_, _, same⟩ | ⟨value, isOk, _⟩
      · split
        · exact Or.inl ⟨_, rfl, same⟩
        · exact Or.inl ⟨_, rfl, same⟩
      · simp at isOk

end Repositories

/-- The tuple a write is about; registering a service is about none. -/
def WriteRequest.limitKey? : WriteRequest → Option LimitKey
  | .createLimit key _ _ => some key
  | .updateLimit key _ _ _ => some key
  | .deleteLimit key _ => some key
  | .registerService _ => none

/-- The operations that a write may come to. -/
def WriteRequest.Runs (operation : Operation) : WriteRequest → Prop
  | .createLimit _ _ _ => operation = .insert
  | .updateLimit _ _ _ _ => operation ≠ .delete
  | .deleteLimit _ _ => operation = .delete
  | .registerService _ => False

/-- What an accepted write does, and that its principal may do it. -/
inductive Accepted (principal : Principal) (now : ℤ) (before after : Database) :
    WriteRequest → Prop where
  /-- A deletion of nothing that is allowed to miss. -/
  | missing {key : LimitKey} (same : SameTables before after) :
      Accepted principal now before after (.deleteLimit key true)
  | registered {service : ServiceRow} (isAdmin : principal.platformAdmin = true)
      (effect : Registered service before after) :
      Accepted principal now before after (.registerService service)
  | inserted {request : WriteRequest} {row : LimitRow}
      (isLimit : request.limitKey? = some row.key)
      (canEdit : principal.canEdit row.serviceName = true)
      (effect : Inserted principal.name now row before after) (runs : request.Runs .insert) :
      Accepted principal now before after request
  | updated {request : WriteRequest} {old row : LimitRow}
      (isLimit : request.limitKey? = some row.key)
      (canEdit : principal.canEdit row.serviceName = true)
      (effect : Updated principal.name now old row before after) (runs : request.Runs .update) :
      Accepted principal now before after request
  | deleted {request : WriteRequest} {old : LimitRow}
      (isLimit : request.limitKey? = some old.key)
      (canEdit : principal.canEdit old.serviceName = true)
      (effect : Deleted principal.name now old before after) (runs : request.Runs .delete) :
      Accepted principal now before after request

section Service

variable {principal : Principal} {conditions : Conditions} {connection : Connection}
  {database : Database}

/-- An RPC that is not admitted, or whose write fails, changes nothing. -/
theorem guarded_settled {α : Type} {admitted : Except AppException Unit}
    {action : Except AppException α × Connection × Database}
    {respond : α → Except AppException AdminResponse} {effect : α → Database → Prop}
    {accepted : Database → Prop} (settled : Settled effect database action)
    (responds : ∀ value, ∃ response, respond value = .ok response)
    (accepts : admitted = .ok () → ∀ value after, effect value after → accepted after) :
    Settled (fun _ => accepted) database
      (LimitAdminService.guarded connection database admitted action respond) := by
  cases admitted with
  | error error => exact Or.inl ⟨error, rfl, .refl database⟩
  | ok _ =>
      rcases action with ⟨result, connection, after⟩
      cases result with
      | error error =>
          rcases settled with ⟨_, _, same⟩ | ⟨value, isOk, _⟩
          · exact Or.inl ⟨error, rfl, same⟩
          · simp at isOk
      | ok value =>
          rcases settled with ⟨_, isError, _⟩ | ⟨other, isOk, held⟩
          · simp at isError
          · cases Except.ok.inj isOk
            rcases responds value with ⟨response, responded⟩
            exact Or.inr ⟨response, responded, accepts rfl value after held⟩

theorem toLimit_eq_ok (row : LimitRow) :
    ∃ response, (ProtoMappers.toLimit row).map AdminResponse.limit = .ok response := by
  have known : ∃ unit, ProtoMappers.toTimeUnit row.timeUnit.text = .ok unit := by
    cases row.timeUnit with
    | minute => exact ⟨.minute, by decide⟩
    | day => exact ⟨.day, by decide⟩
    | month => exact ⟨.month, by decide⟩
  rcases known with ⟨unit, isUnit⟩
  exact ⟨_, by simp only [ProtoMappers.toLimit, isUnit]; rfl⟩

theorem canEdit_of_admitted {key : LimitKey} {validated : Except AppException Unit}
    (admitted : (do validated; Authorizer.requireEditor principal key.serviceName) = .ok ()) :
    principal.canEdit key.serviceName = true := by
  cases validated with
  | error error => simp [bind, Except.bind] at admitted
  | ok _ =>
      simp only [bind, Except.bind, Authorizer.requireEditor] at admitted
      split at admitted
      · assumption
      · simp at admitted

theorem write_settled (request : WriteRequest) :
    Settled (fun _ after => Accepted principal conditions.now database after request) database
      (LimitAdminService.write principal conditions connection database request) := by
  cases request with
  | createLimit key limitValue timeUnit =>
      apply guarded_settled create_settled toLimit_eq_ok
      rintro admitted row after ⟨⟨rfl, _, _⟩, inserted⟩
      exact .inserted rfl (canEdit_of_admitted admitted) inserted rfl
  | updateLimit key limitValue timeUnit createIfAbsent =>
      apply guarded_settled update_settled toLimit_eq_ok
      rintro admitted row after ⟨⟨rfl, _, _⟩, inserted | ⟨old, updated⟩⟩
      · exact .inserted rfl (canEdit_of_admitted admitted) inserted (by simp [WriteRequest.Runs])
      · exact .updated rfl (canEdit_of_admitted admitted) updated (by simp [WriteRequest.Runs])
  | deleteLimit key allowMissing =>
      refine guarded_settled delete_settled (fun _ => ⟨_, rfl⟩) ?_
      rintro admitted _ after (⟨rfl, _, same⟩ | ⟨old, rfl, deleted⟩)
      · exact .missing same
      · exact .deleted rfl (canEdit_of_admitted admitted) deleted rfl
  | registerService service =>
      refine guarded_settled register_settled (fun _ => ⟨_, rfl⟩) ?_
      rintro admitted _ after ⟨_, registered⟩
      refine .registered ?_ registered
      simp only [Authorizer.requirePlatformAdmin, bind, Except.bind] at admitted
      split at admitted
      · simp at admitted
      · rename_i isAdmin
        split at isAdmin
        · assumption
        · simp at isAdmin

end Service

theorem serve_write {backend : Backend} {plane : ControlPlane} {call : AdminCall}
    {principal : Principal} {request : WriteRequest}
    (authenticated : authenticateCall call.authorizer call.header = .ok principal)
    (isWrite : call.request = .write request) :
    (serve backend plane call).1 = (LimitAdminService.write principal call.conditions
        (plane.pool call.connection) plane.database request).1 ∧
      (serve backend plane call).2.database = (LimitAdminService.write principal call.conditions
        (plane.pool call.connection) plane.database request).2.2 := by
  simp only [serve, authenticated, isWrite, and_self]

/-- A call fails and leaves the tables alone, only reads, or is an accepted write. -/
theorem serve_cases (backend : Backend) (plane : ControlPlane) (call : AdminCall) :
    (∃ error, (serve backend plane call).1 = .error error ∧
      SameTables plane.database (serve backend plane call).2.database) ∨
    ∃ response principal, (serve backend plane call).1 = .ok response ∧
      authenticateCall call.authorizer call.header = .ok principal ∧
      ((∃ request, call.request = .read request ∧ (serve backend plane call).2 = plane) ∨
        ∃ request, call.request = .write request ∧
          Accepted principal call.conditions.now plane.database
            (serve backend plane call).2.database request) := by
  cases authenticated : authenticateCall call.authorizer call.header with
  | error error =>
      simp only [serve, authenticated]
      exact Or.inl ⟨error, rfl, .refl _⟩
  | ok principal =>
      cases isRequest : call.request with
      | read request =>
          simp only [serve, authenticated, isRequest]
          cases answered : LimitAdminService.read backend principal call.conditions
            plane.database request with
          | error error => exact Or.inl ⟨error, rfl, .refl _⟩
          | ok response =>
              exact Or.inr ⟨response, principal, rfl, rfl, Or.inl ⟨request, rfl, trivial⟩⟩
      | write request =>
          simp only [serve, authenticated, isRequest]
          rcases @write_settled principal call.conditions (plane.pool call.connection)
            plane.database request with ⟨error, isError, same⟩ | ⟨response, isOk, accepted⟩
          · exact Or.inl ⟨error, isError, same⟩
          · exact Or.inr ⟨response, principal, isOk, rfl, Or.inr ⟨request, rfl, accepted⟩⟩

end RateLimiter.Management
