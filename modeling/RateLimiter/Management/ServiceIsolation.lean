import RateLimiter.Lib.Observation
import RateLimiter.Management.ServiceView

/-!
# Services do not see each other's administration

But for the ids, what the tables say of a service, and what the calls about it
are answered, depends on these calls alone: the calls about all other services,
of whomever, over whichever connections, may as well not have been made.
-/

namespace RateLimiter.Management

open Machine Query Database

section Repositories

variable {α : Type} {serviceName : String} {first second : Database} {conditions : Conditions}
  {key : LimitKey} {actor : String}

theorem execute_alike {same : α → α → Prop}
    {statement : Database → Except SqlException α × Database}
    (alike : Alike serviceName first second)
    (ran : Matched serviceName same (statement first) (statement second)) :
    Matched serviceName same (execute conditions statement first)
      (execute conditions statement second) := by
  simp only [execute]
  split
  · exact .error _ alike
  · exact ran

/-- Outcomes of a write, the connections aside. -/
def MatchedCall (serviceName : String) (same : α → α → Prop)
    (first second : Except AppException α × Connection × Database) : Prop :=
  Matched serviceName same (first.1, first.2.2) (second.1, second.2.2)

/-- The connections that the transactions borrow do not matter. -/
theorem inAuditedTx_alike {same : α → α → Prop}
    {body : Option String → Database → Except Thrown α × Database}
    (alike : Alike serviceName first second) (connection other : Connection)
    (ran : Matched serviceName same (body (some actor) first) (body (some actor) second)) :
    MatchedCall serviceName same
      (LimitRepository.inAuditedTx conditions actor body connection first)
      (LimitRepository.inAuditedTx conditions actor body other second) := by
  have local_actor : ∀ borrowed : Connection, borrowed.currentActor (some actor) = some actor :=
    fun _ => rfl
  simp only [LimitRepository.inAuditedTx, local_actor]
  split
  · exact .error _ alike
  · split
    · exact .error _ alike
    · generalize body (some actor) first = outcome at ran ⊢
      generalize body (some actor) second = otherOutcome at ran ⊢
      cases ran with
      | error thrown _ =>
          cases thrown with
          | sql error => exact .error _ (alike.rollback _ _)
          | app error => exact .error _ (alike.rollback _ _)
      | ok related tables =>
          simp only
          split
          · exact .error _ (alike.rollback _ _)
          · exact .ok related tables

/-- Outcomes stay matched when their errors are translated. -/
theorem Matched.mapError {ε ε' : Type} (translate : ε → ε') {same : α → α → Prop}
    {outcome other : Except ε α × Database} (ran : Matched serviceName same outcome other) :
    Matched serviceName same (outcome.map (Except.mapError translate) id)
      (other.map (Except.mapError translate) id) := by
  cases ran with
  | error error tables => exact .error _ tables
  | ok related tables => exact .ok related tables

theorem insertBody_eq (conditions : Conditions) (key : LimitKey) (limitValue : ℤ)
    (timeUnit : String) (actor : Option String) (database : Database) :
    LimitRepository.insertBody conditions key limitValue timeUnit actor database =
      (execute conditions (insertLimit actor conditions.now key limitValue timeUnit) database).map
        (Except.mapError fun error => .app (LimitRepository.translateWrite error key)) id := by
  simp only [LimitRepository.insertBody]
  split <;> rename_i result <;> rw [result] <;> rfl

theorem upsert_eq (conditions : Conditions) (key : LimitKey) (limitValue : ℤ)
    (timeUnit : String) (actor : Option String) (database : Database) :
    LimitRepository.upsert conditions key limitValue timeUnit actor database =
      (execute conditions (upsertLimit actor conditions.now key limitValue timeUnit) database).map
        (Except.mapError fun error => .app (LimitRepository.translateWrite error key)) id := by
  simp only [LimitRepository.upsert]
  split <;> rename_i result <;> rw [result] <;> rfl

theorem insertBody_alike (alike : Alike serviceName first second)
    (isKey : key.serviceName = serviceName) (limitValue : ℤ) (timeUnit : String)
    (actor : Option String) :
    Matched serviceName SameRow
      (LimitRepository.insertBody conditions key limitValue timeUnit actor first)
      (LimitRepository.insertBody conditions key limitValue timeUnit actor second) := by
  rw [insertBody_eq, insertBody_eq]
  exact (execute_alike alike (insertLimit_alike alike isKey limitValue timeUnit)).mapError _

theorem upsert_alike (alike : Alike serviceName first second)
    (isKey : key.serviceName = serviceName) (limitValue : ℤ) (timeUnit : String)
    (actor : Option String) :
    Matched serviceName SameRow
      (LimitRepository.upsert conditions key limitValue timeUnit actor first)
      (LimitRepository.upsert conditions key limitValue timeUnit actor second) := by
  rw [upsert_eq, upsert_eq]
  exact (execute_alike alike (upsertLimit_alike alike isKey limitValue timeUnit)).mapError _

theorem updateExisting_alike (alike : Alike serviceName first second)
    (isKey : key.serviceName = serviceName) (limitValue : ℤ) (timeUnit : String)
    (actor : Option String) :
    Matched serviceName SameRow
      (LimitRepository.updateExisting conditions key limitValue timeUnit actor first)
      (LimitRepository.updateExisting conditions key limitValue timeUnit actor second) := by
  have ran := @execute_alike (Option LimitRow) serviceName first second conditions _ _ alike
    (@updateLimit_alike serviceName first second key actor conditions.now alike isKey limitValue
      timeUnit)
  simp only [LimitRepository.updateExisting]
  generalize execute conditions _ first = outcome at ran ⊢
  generalize execute conditions _ second = otherOutcome at ran ⊢
  cases ran with
  | error error tables => exact .error _ tables
  | @ok row other _ _ same tables =>
      cases row with
      | none =>
          obtain rfl := Option.map_eq_none_iff.mp same.symm
          exact .error _ tables
      | some row =>
          rcases Option.map_eq_some_iff.mp same.symm with ⟨otherRow, rfl, sameRow⟩
          exact .ok sameRow.symm tables

theorem deleteBody_alike (alike : Alike serviceName first second)
    (isKey : key.serviceName = serviceName) (allowMissing : Bool) (actor : Option String) :
    Matched serviceName Eq
      (LimitRepository.deleteBody conditions key allowMissing actor first)
      (LimitRepository.deleteBody conditions key allowMissing actor second) := by
  have ran := @execute_alike ℕ serviceName first second conditions _ _ alike
    (@deleteLimit_alike serviceName first second key actor conditions.now alike isKey)
  simp only [LimitRepository.deleteBody]
  generalize execute conditions _ first = outcome at ran ⊢
  generalize execute conditions _ second = otherOutcome at ran ⊢
  cases ran with
  | error error tables => exact .error _ tables
  | ok same tables =>
      subst same
      simp only
      split
      · exact .error _ tables
      · exact .ok rfl tables

theorem register_alike (alike : Alike serviceName first second) {service : ServiceRow}
    (isService : service.serviceName = serviceName) :
    Matched serviceName Eq (ServiceRepository.register conditions service first)
      (ServiceRepository.register conditions service second) := by
  have ran := @execute_alike ServiceRow serviceName first second conditions _ _ alike
    (insertService_alike alike isService)
  simp only [ServiceRepository.register]
  split
  · exact .error _ alike
  · generalize execute conditions _ first = outcome at ran ⊢
    generalize execute conditions _ second = otherOutcome at ran ⊢
    cases ran with
    | error error tables =>
        simp only
        split
        · exact .error _ tables
        · exact .error _ tables
    | ok same tables => exact .ok same tables

end Repositories

section Service

variable {serviceName : String} {first second : Database} {principal : Principal}
  {conditions : Conditions}

def SameResponse (first second : AdminResponse) : Prop := first.withoutIds = second.withoutIds

theorem guarded_alike {α : Type} {same : α → α → Prop} {admitted : Except AppException Unit}
    {action otherAction : Except AppException α × Connection × Database}
    {respond : α → Except AppException AdminResponse} (alike : Alike serviceName first second)
    (connection other : Connection) (acted : MatchedCall serviceName same action otherAction)
    (responds : ∀ value otherValue, same value otherValue → ∃ response otherResponse,
      respond value = .ok response ∧ respond otherValue = .ok otherResponse ∧
        SameResponse response otherResponse) :
    MatchedCall serviceName SameResponse
      (LimitAdminService.guarded connection first admitted action respond)
      (LimitAdminService.guarded other second admitted otherAction respond) := by
  cases admitted with
  | error error => exact .error _ alike
  | ok _ =>
      rcases action with ⟨result, used, rest⟩
      rcases otherAction with ⟨otherResult, otherUsed, otherRest⟩
      rw [MatchedCall] at acted
      cases acted with
      | error error tables => exact .error _ tables
      | ok related tables =>
          rcases responds _ _ related with ⟨response, otherResponse, isOk, otherOk, shown⟩
          simp only [LimitAdminService.guarded, isOk, otherOk]
          exact .ok shown tables

theorem toLimit_alike (row other : LimitRow) (same : SameRow row other) :
    ∃ response otherResponse, (ProtoMappers.toLimit row).map AdminResponse.limit = .ok response ∧
      (ProtoMappers.toLimit other).map AdminResponse.limit = .ok otherResponse ∧
      SameResponse response otherResponse := by
  rw [toLimit_eq, toLimit_eq]
  refine ⟨_, _, rfl, rfl, ?_⟩
  simp only [SameRow, withoutId, LimitRow.mk.injEq] at same
  simp only [SameResponse, AdminResponse.withoutIds, LimitRow.key, same]

theorem write_alike (alike : Alike serviceName first second) (connection other : Connection)
    {request : WriteRequest} (isService : request.serviceName = serviceName) :
    MatchedCall serviceName SameResponse
      (LimitAdminService.write principal conditions connection first request)
      (LimitAdminService.write principal conditions other second request) := by
  cases request with
  | createLimit key limitValue timeUnit =>
      apply guarded_alike alike connection other _ toLimit_alike
      apply inAuditedTx_alike alike
      exact insertBody_alike alike isService _ _ _
  | updateLimit key limitValue timeUnit createIfAbsent =>
      apply guarded_alike alike connection other _ toLimit_alike
      apply inAuditedTx_alike alike
      cases createIfAbsent with
      | true => exact upsert_alike alike isService _ _ _
      | false => exact updateExisting_alike alike isService _ _ _
  | deleteLimit key allowMissing =>
      have body := @deleteBody_alike serviceName first second conditions key alike isService
        allowMissing (some principal.name)
      apply guarded_alike alike connection other (inAuditedTx_alike alike connection other body)
      intro _ _ _
      exact ⟨_, _, rfl, rfl, rfl⟩
  | registerService service =>
      have registered := @register_alike serviceName first second conditions alike service
        isService
      refine guarded_alike alike connection other registered ?_
      rintro value _ rfl
      exact ⟨_, _, rfl, rfl, rfl⟩

theorem query_map {α β : Type} (shown : α → β) (fetched : Except SqlException α) :
    (query conditions fetched).map shown = query conditions (fetched.map shown) := by
  simp only [query]
  cases conditions.faults .connect with
  | some fault => rfl
  | none =>
      cases conditions.faults .statement with
      | some fault => rfl
      | none => cases fetched <;> rfl

theorem getExact_alike (alike : Alike serviceName first second) {key : LimitKey}
    (isKey : key.serviceName = serviceName) :
    (LimitRepository.getExact conditions key first).map (Option.map withoutId) =
      (LimitRepository.getExact conditions key second).map (Option.map withoutId) := by
  simp only [LimitRepository.getExact, query_map]
  cases bindTexts [key.serviceName, key.customerId, key.rateLimitId] with
  | error error => rfl
  | ok _ =>
      have same : (first.findLimit key).map withoutId = (second.findLimit key).map withoutId := by
        rw [findLimit_view isKey, findLimit_view isKey, alike.limits]
      simp only [bind, Except.bind, pure, Except.pure, Except.map, same]

theorem resolve_alike (alike : Alike serviceName first second) {key : LimitKey}
    (isKey : key.serviceName = serviceName) :
    (LimitRepository.resolve conditions key first).map (Option.map withoutId) =
      (LimitRepository.resolve conditions key second).map (Option.map withoutId) := by
  simp only [LimitRepository.resolve, query_map]
  cases bindTexts [key.serviceName, key.rateLimitId, key.customerId] with
  | error error => rfl
  | ok _ =>
      simp only [bind, Except.bind, pure, Except.pure, Except.map, resolve_view isKey, alike.limits]

/-- What is made of a row that was looked for shows its id at most. -/
theorem found_alike {found other : Except AppException (Option LimitRow)}
    (fetched : found.map (Option.map withoutId) = other.map (Option.map withoutId))
    {respond : Option LimitRow → Except AppException AdminResponse}
    (responds : ∀ row other, SameRow row other →
      (respond (some row)).map AdminResponse.withoutIds =
        (respond (some other)).map AdminResponse.withoutIds) :
    (found >>= respond).map AdminResponse.withoutIds =
      (other >>= respond).map AdminResponse.withoutIds := by
  cases found with
  | error error =>
      cases other with
      | error same =>
          obtain rfl : error = same := Except.error.inj fetched
          rfl
      | ok _ => cases fetched
  | ok row =>
      cases other with
      | error _ => cases fetched
      | ok otherRow =>
          have same : row.map withoutId = otherRow.map withoutId := Except.ok.inj fetched
          cases row with
          | none =>
              obtain rfl := Option.map_eq_none_iff.mp same.symm
              rfl
          | some row =>
              rcases Option.map_eq_some_iff.mp same.symm with ⟨otherRow, rfl, sameRow⟩
              exact responds row otherRow sameRow.symm

theorem resolvedLimit_alike {row other : LimitRow} (same : SameRow row other) :
    (do let limit ← ProtoMappers.toLimit row
        pure (AdminResponse.resolvedLimit limit row.isDefault)).map AdminResponse.withoutIds =
      (do let limit ← ProtoMappers.toLimit other
          pure (AdminResponse.resolvedLimit limit other.isDefault)).map
        AdminResponse.withoutIds := by
  simp only [SameRow, withoutId, LimitRow.mk.injEq] at same
  simp only [bind, Except.bind, pure, Except.pure, Except.map, toLimit_eq,
    AdminResponse.withoutIds, LimitRow.key, LimitRow.isDefault, same]

theorem getLimit_alike (alike : Alike serviceName first second) {key : LimitKey}
    (isKey : key.serviceName = serviceName) (resolve : Bool) :
    (LimitAdminService.getLimit principal conditions first key resolve).map
        AdminResponse.withoutIds =
      (LimitAdminService.getLimit principal conditions second key resolve).map
        AdminResponse.withoutIds := by
  have ok_bind : ∀ (rest : Unit → Except AppException AdminResponse) (passed : Unit),
      (Except.ok passed >>= rest) = rest passed := fun _ _ => rfl
  simp only [LimitAdminService.getLimit]
  cases LimitValidator.validateKey key with
  | error error => rfl
  | ok _ =>
      cases Authorizer.requireViewer principal key.serviceName with
      | error error => rfl
      | ok _ =>
          cases resolve with
          | true =>
              simp only [ok_bind, if_true]
              apply found_alike (resolve_alike alike isKey)
              intro row other same
              exact resolvedLimit_alike same
          | false =>
              simp only [ok_bind, Bool.false_eq_true, if_false]
              apply found_alike (getExact_alike alike isKey)
              intro row other same
              exact resolvedLimit_alike same

theorem getService_alike (alike : Alike serviceName first second) :
    LimitAdminService.getService principal conditions first serviceName =
      LimitAdminService.getService principal conditions second serviceName := by
  simp only [LimitAdminService.getService, ServiceRepository.get, find?_services, alike.services]

end Service

/-- The writes of a service, and the reads of one limit or of the service itself. -/
def about (serviceName : String) (call : AdminCall) : Bool :=
  match call.request with
  | .write request => request.serviceName = serviceName
  | .read (.getLimit key _) => key.serviceName = serviceName
  | .read (.getService name) => name = serviceName
  | .read _ => false

/-- A call and its answer, but for the ids. -/
def reply (backend : Backend) (plane : ControlPlane) (call : AdminCall) :
    Except AppException AdminResponse × ControlPlane :=
  ((serve backend plane call).1.map AdminResponse.withoutIds, (serve backend plane call).2)

section Calls

variable {backend : Backend} {serviceName : String} {first second : ControlPlane}
  {call : AdminCall}

theorem serve_alike (alike : Alike serviceName first.database second.database)
    (isAbout : about serviceName call = true) :
    (reply backend first call).1 = (reply backend second call).1 ∧
      Alike serviceName (reply backend first call).2.database
        (reply backend second call).2.database := by
  simp only [reply, serve]
  cases authenticateCall call.authorizer call.header with
  | error error => exact ⟨rfl, alike⟩
  | ok principal =>
      cases isRequest : call.request with
      | read request =>
          refine ⟨?_, alike⟩
          cases request with
          | getLimit key resolve =>
              simp only [about, isRequest, decide_eq_true_eq] at isAbout
              exact getLimit_alike alike isAbout resolve
          | getService name =>
              simp only [about, isRequest, decide_eq_true_eq] at isAbout
              subst name
              simp only [LimitAdminService.read, getService_alike alike]
          | listLimits _ _ _ _ _ => simp [about, isRequest] at isAbout
          | listServices _ _ => simp [about, isRequest] at isAbout
          | listAuditEntries _ _ _ _ _ _ => simp [about, isRequest] at isAbout
      | write request =>
          simp only [about, isRequest, decide_eq_true_eq] at isAbout
          have written : MatchedCall serviceName SameResponse
              (LimitAdminService.write principal call.conditions (first.pool call.connection)
                first.database request)
              (LimitAdminService.write principal call.conditions (second.pool call.connection)
                second.database request) := write_alike alike _ _ isAbout
          simp only
          generalize LimitAdminService.write principal call.conditions
            (first.pool call.connection) first.database request = outcome at written ⊢
          generalize LimitAdminService.write principal call.conditions
            (second.pool call.connection) second.database request = otherOutcome at written ⊢
          rcases outcome with ⟨result, connection, rest⟩
          rcases otherOutcome with ⟨otherResult, otherConnection, otherRest⟩
          rw [MatchedCall] at written
          cases written with
          | error error tables => exact ⟨rfl, tables⟩
          | ok same tables => exact ⟨congrArg Except.ok same, tables⟩

theorem tuples_serve (tuples : Keyed LimitRow.key first.database.limits) :
    Keyed LimitRow.key (serve backend first call).2.database.limits := by
  rcases serve_cases backend first call with ⟨_, _, same⟩ |
    ⟨_, _, _, _, ⟨_, _, unchanged⟩ | ⟨_, _, accepted⟩⟩
  · rw [same.limits]
    exact tuples
  · rw [unchanged]
    exact tuples
  · exact tuples_of_accepted tuples accepted

theorem untouched_of_not_about (elsewhere : about serviceName call = false) :
    Untouched serviceName first.database (serve backend first call).2.database := by
  rcases serve_cases backend first call with ⟨_, _, same⟩ |
    ⟨_, _, _, _, ⟨_, _, unchanged⟩ | ⟨request, isWrite, accepted⟩⟩
  · exact untouched_of_same same
  · rw [unchanged]
    exact untouched_of_same (.refl _)
  · apply untouched_of_elsewhere accepted
    simpa [about, isWrite] using elsewhere

end Calls

theorem unwinding_about (backend : Backend) (serviceName : String) :
    Unwinding (reply backend) (about serviceName) (fun _ => True)
      fun first second => Alike serviceName first.database second.database where
  output := by
    intro first second call _ isAbout alike
    exact (serve_alike alike isAbout).1
  next := by
    intro first second call _ isAbout alike
    exact (serve_alike alike isAbout).2
  hidden := by
    intro first second call _ elsewhere alike
    have same : viewOf serviceName (serve backend first call).2.database =
        viewOf serviceName first.database := viewOf_untouched (untouched_of_not_about elsewhere)
    refine ⟨?_, ?_, ?_, tuples_serve alike.firstTuples, alike.secondTuples⟩
    · exact (congrArg ServiceView.services same).trans alike.services
    · exact (congrArg ServiceView.limits same).trans alike.limits
    · exact (congrArg ServiceView.audit same).trans alike.audit

/-- The tables that a run reaches and those that its calls about the service reach. -/
theorem alike_planeAfter (backend : Backend) (pool : ℕ → Connection) (serviceName : String)
    (calls : List AdminCall) :
    Alike serviceName (planeAfter backend ⟨pool, .empty⟩ calls).database
      (planeAfter backend ⟨pool, .empty⟩ (calls.filter (about serviceName))).database := by
  apply (unwinding_about backend serviceName).after_agree
  · exact fun _ _ => trivial
  · exact ⟨rfl, rfl, rfl, List.Pairwise.nil, List.Pairwise.nil⟩

/-- Whatever is done in all other services, by whomever: the calls about a service are answered,
ids aside, as if they were the only ones, and leave the same limits, the same audit trail and
the same caps to enforce. -/
theorem services_isolated (backend : Backend) (pool : ℕ → Connection) (serviceName : String)
    (calls : List AdminCall) :
    visibleOutputs (reply backend) (about serviceName) ⟨pool, .empty⟩ calls =
        outputs (reply backend) ⟨pool, .empty⟩ (calls.filter (about serviceName)) ∧
      viewOf serviceName (planeAfter backend ⟨pool, .empty⟩ calls).database =
        viewOf serviceName (planeAfter backend ⟨pool, .empty⟩
          (calls.filter (about serviceName))).database ∧
      ∀ key : LimitKey, key.serviceName = serviceName →
        Enforcer.resolution (planeAfter backend ⟨pool, .empty⟩ calls).database.limits key =
          Enforcer.resolution (planeAfter backend ⟨pool, .empty⟩
            (calls.filter (about serviceName))).database.limits key := by
  have alike := alike_planeAfter backend pool serviceName calls
  refine ⟨?_, ?_, fun key isKey => resolution_eq_of_view isKey alike.limits⟩
  · apply (unwinding_about backend serviceName).visibleOutputs_eq
    · exact fun _ _ => trivial
    · exact ⟨rfl, rfl, rfl, List.Pairwise.nil, List.Pairwise.nil⟩
  · simp only [ServiceView.ext_iff]
    exact ⟨alike.services, alike.limits, alike.audit⟩

end RateLimiter.Management
