import RateLimiter.Console.AuditPages
import RateLimiter.Management.Resolution

/-!
# A limit value through the system

From the body of a request to the row of `limit_config`, and back through the
listing, the resolution and the audit. The console holds the value in a double,
the message in 64 bits; a snapshot in the audit is a double again. What comes
back is the value of the body exactly when no hop has to change it.
-/

namespace RateLimiter.Console

open EventLoop EventLoop.Handler JavaScript Management Query

section Arrival

/-- The value of a body is the integer, as a number or as a numeric text. -/
def Carries (body : Fields) (value : ℤ) : Prop :=
  Value.property body "limit_value" = .number (.ofInt value) ∨
    ∃ text, Value.property body "limit_value" = .string text ∧
      Number.literal? text = some (value : ℚ)

/-- The range of the column. -/
def Storable (value : ℤ) : Prop := 0 ≤ value ∧ value ≤ 2 ^ 63 - 1

variable {body : Fields} {limit : ValidatedLimit} {value : ℤ}

theorem checkLimitValue_of_valid (valid : validateLimit body = .ok limit) :
    checkLimitValue (Value.property body "limit_value") = .ok limit.limitValue := by
  simp only [validateLimit] at valid
  split at valid
  · rename_i isValue _
    cases valid
    exact isValue
  · cases valid

theorem checkLimitValue_eq_ok {raw : Value} {number : Number}
    (checked : checkLimitValue raw = .ok number) :
    numeric raw = .number number ∧ number.isFinite = true ∧ number.lt (.finite 0) = false := by
  unfold checkLimitValue at checked
  split at checked
  · rename_i other isNumber
    split_ifs at checked with infinite fraction negative
    cases checked
    exact ⟨isNumber, by simpa using infinite, by simpa using negative⟩
  · cases checked

theorem ofInt_neg_eq (value : ℤ) : Number.ofInt (-value) = (Number.ofInt value).negate := by
  rw [Number.ofInt, Number.ofInt, Int.cast_neg, Number.round_neg]

/-- A body that passes validation carries no negative value, and is read as the nearest double. -/
theorem limitValue_of_carries (carries : Carries body value)
    (valid : validateLimit body = .ok limit) : limit.limitValue = .ofInt value ∧ 0 ≤ value := by
  rcases checkLimitValue_eq_ok (checkLimitValue_of_valid valid) with
    ⟨isNumber, isFinite, nonnegative⟩
  have isValue : limit.limitValue = .ofInt value := by
    rcases carries with given | ⟨text, given, isValue⟩
    · rw [given] at isNumber
      exact (Value.number.inj isNumber).symm
    · rw [given, numeric] at isNumber
      split at isNumber
      · cases isNumber
      · rw [← Value.number.inj isNumber, Number.ofText_eq_round isValue]
        rfl
  refine ⟨isValue, ?_⟩
  by_contra negative
  have positive : 0 < -value := by omega
  have rounded := Double.roundInt_pos positive
  rw [isValue, ← neg_neg value, ofInt_neg_eq, Number.ofInt_eq positive.le] at isFinite nonnegative
  split_ifs at isFinite nonnegative
  · cases isFinite
  · have below : -(Double.roundInt (-value) : ℚ) < 0 := by exact_mod_cast neg_neg_of_pos rounded
    simp [Number.negate, Number.lt, below] at nonnegative

end Arrival

section Writes

/-- The statuses of a write that was applied; one that is held has another. -/
def applied : Except Thrown Response → Bool
  | .ok response => response.status = 200 || response.status = 201
  | .error _ => false

/-- The requests that write the limit of a body: a `POST`, a `PUT`, and the approval of the review
that a `PUT` has left. -/
inductive Writes (store : Store) (request : Request) (body : Fields) (limit : ValidatedLimit) :
    Prop where
  | create (route : request.route = .createLimit) (hasBody : request.body = .ok body)
      (valid : validateLimit body = .ok limit)
  | update (route : request.route = .updateLimit) (hasBody : request.body = .ok body)
      (valid : validateLimit body = .ok limit)
  | approve {id : String} {place : ℕ} {review : Review} (route : request.route = .approve id)
      (valid : validateLimit body = .ok limit)
      (found : store.reviews.get id = some (place, review))
      (isOp : review.op = .limitUpdate limit)

theorem Writes.valid {store : Store} {request : Request} {body : Fields} {limit : ValidatedLimit}
    (writes : Writes store request body limit) : validateLimit body = .ok limit := by
  cases writes with
  | create _ _ valid | update _ _ valid | approve _ valid _ _ => exact valid

theorem Writes.behindAuth {store : Store} {request : Request} {body : Fields}
    {limit : ValidatedLimit} (writes : Writes store request body limit) :
    request.route.behindAuth = true := by
  cases writes with
  | create route _ _ | update route _ _ | approve route _ _ _ =>
      rw [route]
      rfl

/-- The calls that set the value of a limit. -/
def Rpc.Sets (limit : ValidatedLimit) : Rpc → Prop
  | .createLimit key limitValue _ | .updateLimit key limitValue _ _ =>
      key = limit.key ∧ limitValue = limit.limitValue
  | _ => False

/-- The outcome of a write, by the reply to its call. -/
def writtenOf (respond : Value → Response) : Reply → Except Thrown Response
  | .ok (.limit limit) => .ok (respond (.object (toLimitView limit none)))
  | .ok _ => .error unexpectedReply
  | .error error => .error (rpcError error)

theorem applied_settled_written {respond : Value → Response} {reply : Reply}
    (isApplied : applied (.ok (settled (writtenOf respond reply))) = true) :
    ∃ message, reply = .ok message := by
  cases reply with
  | ok message => exact ⟨message, rfl⟩
  | error failure =>
      rcases failure with ⟨code, details, message⟩
      cases code <;> cases isApplied

variable {State : Type} {backend : State → Call → Reply × State} {deps : Deps}
  {request : Request} {session : Session} {moments : ℕ → Moment} {turn : ℕ}
  {state later : State} {store : Store} {body : Fields} {limit : ValidatedLimit}

theorem authentic_of_applied (behindAuth : request.route.behindAuth = true)
    (isApplied : applied ((app deps request).converse backend moments turn state store).outcome =
      true) :
    ∃ session body, Authentic store request session ∧ request.body = .ok body := by
  rw [app, converse_handle] at isApplied
  cases hasBody : request.body with
  | error message =>
      simp only [routes, hasBody] at isApplied
      cases isApplied
  | ok body =>
      rw [routes_eq hasBody behindAuth, converse_atomically_bind] at isApplied
      split at isApplied
      · cases isApplied
      · rename_i session live
        split at isApplied
        · rename_i csrf
          exact ⟨session, body, ⟨live, csrf⟩, rfl⟩
        · cases isApplied

theorem outcome_recover
    (conversation : Conversation State Store Call Reply Thrown Response) :
    (conversation.recover errorMiddleware).outcome = .ok (settled conversation.outcome) := by
  rcases conversation with ⟨exchanges, outcome, state, store⟩
  cases outcome <;> rfl

theorem granted_of_applied {capability : Capability} {service : Option String}
    {handler : Async Response}
    (isApplied : applied (.ok (settled ((guard deps session capability service handler).converse
      backend moments turn state store).outcome)) = true) :
    Granted deps session.user capability service := by
  unfold guard at isApplied
  split at isApplied
  · assumption
  · cases isApplied

theorem unreviewed_of_applied {op : PendingOp} {direct : Async Response}
    (isApplied : applied (.ok (settled ((reviewed deps session op direct).converse backend moments
      turn state store).outcome)) = true) :
    reviewReason op deps.reviewPolicy = none := by
  unfold reviewed at isApplied
  split at isApplied
  · assumption
  · cases isApplied

variable (backend moments turn state store)

/-- An executor of a write: a call, its entry in the log and the view of the reply. -/
theorem converse_written (rpc : Rpc) (context : OpContext) (action : Action) (target : Target)
    (details : Option Details) (respond : Value → Response) :
    ∃ exchanges store', ((do
        let message ← call rpc (some context.actor)
        context.log action target details none
        match message with
        | .limit limit => pure (Value.object (toLimitView limit none))
        | _ => throw unexpectedReply) >>= fun view => pure (respond view)).converse backend moments
          turn state store =
      ⟨exchanges, writtenOf respond (backend state ⟨rpc, some context.actor⟩).1,
        (backend state ⟨rpc, some context.actor⟩).2, store'⟩ := by
  simp only [converse_bind, converse_call]
  rcases backend state ⟨rpc, some context.actor⟩ with ⟨reply, later⟩
  cases reply with
  | error failure => exact ⟨_, _, rfl⟩
  | ok message => cases message <;> exact ⟨_, _, rfl⟩

/-- A write is one call, and it was applied only if the call has succeeded. -/
def SetBy (limit : ValidatedLimit) (conversation : Conversation State Store Call Reply Thrown
    Response) : Prop :=
  ∃ rpc actor message, rpc.Sets limit ∧
    backend state ⟨rpc, actor⟩ = (.ok message, conversation.state)

variable {backend moments turn state store}

theorem setBy_of_written {conversation : Conversation State Store Call Reply Thrown Response}
    {rpc : Rpc} {actor : Option String} {respond : Value → Response} (sets : rpc.Sets limit)
    (isWrite : ∃ exchanges store', conversation =
      ⟨exchanges, writtenOf respond (backend state ⟨rpc, actor⟩).1, (backend state ⟨rpc, actor⟩).2,
        store'⟩)
    (isApplied : applied (.ok (settled conversation.outcome)) = true) :
    SetBy backend state limit conversation := by
  rcases isWrite with ⟨exchanges, store', rfl⟩
  rcases applied_settled_written isApplied with ⟨message, isMessage⟩
  exact ⟨rpc, actor, message, sets, Prod.ext isMessage rfl⟩

section Routes

theorem setBy_create (valid : validateLimit body = .ok limit)
    (isApplied : applied (.ok (settled ((LimitsRouter.create deps session body).converse backend
      moments turn state store).outcome)) = true) :
    SetBy backend state limit
      ((LimitsRouter.create deps session body).converse backend moments turn state store) := by
  simp only [LimitsRouter.create, valid, parsed] at isApplied ⊢
  have granted := granted_of_applied isApplied
  rw [guard_of_granted granted] at isApplied ⊢
  apply setBy_of_written _ (converse_written backend moments turn state store
    (.createLimit limit.key limit.limitValue limit.timeUnit) (opContext session) .limitCreate
    (.limit limit.key) (some (.limit limit.limitValue limit.timeUnit)) (.json 201)) isApplied
  exact ⟨rfl, rfl⟩

theorem setBy_update (valid : validateLimit body = .ok limit)
    (isApplied : applied (.ok (settled ((LimitsRouter.update deps session body).converse backend
      moments turn state store).outcome)) = true) :
    SetBy backend state limit
      ((LimitsRouter.update deps session body).converse backend moments turn state store) := by
  simp only [LimitsRouter.update, valid, parsed] at isApplied ⊢
  have granted := granted_of_applied isApplied
  rw [guard_of_granted granted] at isApplied ⊢
  have unheld := unreviewed_of_applied isApplied
  simp only [reviewed, unheld] at isApplied ⊢
  apply setBy_of_written _ (converse_written backend moments turn state store
    (.updateLimit limit.key limit.limitValue limit.timeUnit
      (Value.property body "create_if_absent").truthy) (opContext session) .limitUpdate
    (.limit limit.key) (some (.limit limit.limitValue limit.timeUnit)) (.json 200)) isApplied
  exact ⟨rfl, rfl⟩

theorem setBy_approve {id : String} {place : ℕ} {review : Review}
    (found : store.reviews.get id = some (place, review)) (isOp : review.op = .limitUpdate limit)
    (isApplied : applied (.ok (settled ((ReviewsRouter.approve deps session id).converse backend
      moments turn state store).outcome)) = true) :
    SetBy backend state limit
      ((ReviewsRouter.approve deps session id).converse backend moments turn state store) := by
  simp only [ReviewsRouter.approve, ReviewsRouter.decide] at isApplied ⊢
  have granted := granted_of_applied isApplied
  rw [guard_of_granted granted] at isApplied ⊢
  rw [converse_atomically_bind] at isApplied ⊢
  -- a decision that is refused is answered with another status
  by_cases pending : review.status = .pending
  · by_cases own : review.initiator = session.user.email
    · simp only [ReviewStore.decide, found, pending, own, ne_eq, not_true_eq_false, if_false,
        if_true] at isApplied
      cases isApplied
    · simp only [ReviewStore.decide, found, pending, own, ne_eq, not_true_eq_false, if_false,
        isOp, executePendingOp] at isApplied ⊢
      apply setBy_of_written _ (converse_written backend moments turn state _
        (.updateLimit limit.key limit.limitValue limit.timeUnit true) _ .limitUpdate
        (.limit limit.key) (some (.limit limit.limitValue limit.timeUnit)) _) isApplied
      exact ⟨rfl, rfl⟩
  · simp only [ReviewStore.decide, found, pending, ne_eq, not_false_eq_true, if_true] at isApplied
    cases isApplied

end Routes

/-- A request that was applied has set the limit with one call. -/
theorem setBy_of_applied (writes : Writes store request body limit)
    (isApplied : applied ((app deps request).converse backend moments turn state store).outcome =
      true) :
    SetBy backend state limit ((app deps request).converse backend moments turn state store) := by
  rcases authentic_of_applied writes.behindAuth isApplied with
    ⟨session, arrived, authentic, hasBody⟩
  rw [converse_app authentic hasBody writes.behindAuth] at isApplied ⊢
  rw [outcome_recover] at isApplied
  rw [SetBy, Conversation.state_recover]
  cases writes with
  | create route isBody valid =>
      cases isBody.symm.trans hasBody
      rw [api, route] at isApplied ⊢
      exact setBy_create valid isApplied
  | update route isBody valid =>
      cases isBody.symm.trans hasBody
      rw [api, route] at isApplied ⊢
      exact setBy_update valid isApplied
  | approve route valid found isOp =>
      rw [api, route] at isApplied ⊢
      exact setBy_approve found isOp isApplied

end Writes

section Storage

/-- What holds of the tables in every state that is reached. -/
structure Orderly (database : Database) : Prop where
  sane : Database.Sane database
  distinct : Keyed LimitRow.configId database.limits
  positive : ∀ row ∈ database.limits, 0 < row.configId

theorem orderly_planeAfter (backend : Backend) (pool : ℕ → Connection) (calls : List AdminCall) :
    Orderly (planeAfter backend ⟨pool, .empty⟩ calls).database where
  sane := sane_planeAfter backend pool calls
  distinct := (Traced.run backend Traced.empty calls).distinct
  positive := (configId_pos backend pool calls).2

variable {deployment : Deployment} {enforcer : Call → Reply} {world : World} {visit : Visit}
  {body : Fields} {limit : ValidatedLimit} {pool : ℕ → Connection} {calls : List AdminCall}

theorem write_of_sets {rpc : Rpc} (sets : rpc.Sets limit) :
    ∃ request, rpc.toAdmin? = some (.write request) ∧
      request.Sets limit.key limit.limitValue.toInt64 := by
  cases rpc with
  | createLimit key limitValue timeUnit =>
      rcases sets with ⟨rfl, rfl⟩
      exact ⟨_, rfl, rfl, rfl⟩
  | updateLimit key limitValue timeUnit createIfAbsent =>
      rcases sets with ⟨rfl, rfl⟩
      exact ⟨_, rfl, rfl, rfl⟩
  | _ => exact absurd sets id

theorem ok_of_toReply {result : Except AppException AdminResponse} {message : Message}
    (isReply : toReply result = .ok message) : ∃ response, result = .ok response := by
  cases result with
  | error error => cases isReply
  | ok response => exact ⟨response, rfl⟩

/-- The state in which an applied write leaves the control plane. -/
structure Written (deployment : Deployment) (before after : Database) (limit : ValidatedLimit)
    (row : LimitRow) (entry : AuditRow) : Prop where
  writable : ∃ principal, deployment.principal = .ok principal ∧ Writable principal limit.key
  recorded : Recorded before after limit.key limit.limitValue.toInt64 row entry
  orderly : Orderly after

theorem written_of_applied (reached : planeAfter deployment.backend ⟨pool, .empty⟩ calls =
      world.plane) (writes : Writes world.store visit.request body limit)
    (isApplied : applied (world.exchange deployment enforcer visit).outcome = true) :
    ∃ row entry, Written deployment world.plane.database
      (world.exchange deployment enforcer visit).state.database limit row entry := by
  rcases setBy_of_applied writes isApplied with ⟨rpc, actor, message, sets, answered⟩
  rcases write_of_sets sets with ⟨request, isRequest, isSet⟩
  let call : AdminCall := ⟨deployment.header, deployment.authorizer, visit.connection,
    ⟨visit.now, fun _ => none⟩, .write request⟩
  have served : World.answer deployment enforcer visit world.plane ⟨rpc, actor⟩ =
      (toReply (serve deployment.backend world.plane call).1,
        (serve deployment.backend world.plane call).2) := by
    simp only [World.answer, isRequest, call]
  rw [served, Prod.mk.injEq] at answered
  rcases ok_of_toReply answered.1 with ⟨response, isOk⟩
  have isState : (world.exchange deployment enforcer visit).state =
      (serve deployment.backend world.plane call).2 := answered.2.symm
  rcases serve_cases deployment.backend world.plane call with ⟨_, isError, _⟩ |
    ⟨_, principal, _, authenticated, _⟩
  · rw [isOk] at isError
    cases isError
  rcases @serve_write deployment.backend world.plane call principal request authenticated rfl with
    ⟨sameResult, sameDatabase⟩
  -- the call extends the run that has reached the plane
  have orderly := orderly_planeAfter deployment.backend pool calls
  have orderlyAfter := orderly_planeAfter deployment.backend pool (calls ++ [call])
  rw [planeAfter_concat] at orderlyAfter
  rw [reached] at orderly orderlyAfter
  rw [isOk] at sameResult
  rcases @write_recorded principal call.conditions (world.plane.pool call.connection)
    world.plane.database limit.key orderly.sane request _ isSet with ⟨_, isError, _⟩ |
    ⟨_, _, row, entry, recorded⟩
  · rw [← sameResult] at isError
    cases isError
  · rw [← sameDatabase] at recorded
    rw [isState]
    exact ⟨row, entry, ⟨principal, authenticated, writable_of_write isSet sameResult.symm⟩,
      recorded, orderlyAfter⟩

end Storage

section Reports

/-- An object that shows the value of a limit. -/
def Reports (value : ℤ) (fields : Fields) : Prop :=
  Value.property fields "limit_value" = .number (.finite value)

/-- An object that is about the tuple. -/
structure Names (key : LimitKey) (fields : Fields) : Prop where
  serviceName : Value.property fields "service_name" = .string key.serviceName
  customerId : Value.property fields "customer_id" = .string key.customerId
  rateLimitId : Value.property fields "rate_limit_id" = .string key.rateLimitId

theorem roundInt_storable {value : ℤ} (storable : Storable value) :
    0 ≤ Double.roundInt value ∧ Double.roundInt value ≤ 2 ^ 63 := by
  refine ⟨Double.roundInt_nonneg storable.1, ?_⟩
  apply Double.roundInt_le storable.1 _ (by decide)
  exact storable.2.trans (by decide)

theorem num_eq {value : ℤ} (nonnegative : 0 ≤ value) (upper : value ≤ 2 ^ 63) :
    num value = .number (.finite (Double.roundInt value)) := by
  have bounded : Double.roundInt value ≤ 2 ^ 63 :=
    Double.roundInt_le nonnegative upper (by decide)
  have small : ¬(2 : ℚ) ^ 1024 ≤ Double.roundInt value := by
    have below : (Double.roundInt value : ℚ) ≤ 2 ^ 63 := by exact_mod_cast bounded
    have larger : (2 : ℚ) ^ 63 < 2 ^ 1024 := by
      apply pow_lt_pow_right₀ <;> norm_num
    exact not_le.mpr (below.trans_lt larger)
  rw [num, Number.ofInt_eq nonnegative, if_neg small]

theorem reports_view_iff {limit : RawLimit} {isDefault : Option Bool} {value : ℤ}
    (storable : Storable limit.limitValue) :
    Reports value (toLimitView limit isDefault) ↔ Double.roundInt limit.limitValue = value := by
  have isField : Value.property (toLimitView limit isDefault) "limit_value" =
      num limit.limitValue := rfl
  rw [Reports, isField, num_eq storable.1 (by have := storable.2; omega)]
  simp

/-- A snapshot in the audit is shown as the double of the value. -/
theorem reports_newRow_iff {entry : AuditRow} {row : LimitRow} {value : ℤ}
    (newRow : entry.newRow = some (Jsonb.ofRow row)) (storable : Storable row.limitValue) :
    (∃ fields, structToObject (rawEntry entry).newRow = .object fields ∧ Names row.key fields ∧
      Reports value fields) ↔ Double.roundInt row.limitValue = value := by
  rcases roundInt_storable storable with ⟨nonnegative, upper⟩
  have isObject : structToObject (rawEntry entry).newRow = .object
      [("id", num (Double.roundInt row.configId)), ("service_name", .string row.serviceName),
        ("customer_id", .string row.customerId), ("rate_limit_id", .string row.rateLimitId),
        ("limit_value", num (Double.roundInt row.limitValue)),
        ("time_unit", .string row.timeUnit.text)] := by
    simp only [rawEntry, toRawAudit, ProtoMappers.toAuditEntry, newRow]
    rfl
  rw [isObject, num_eq nonnegative upper, Double.roundInt_roundInt]
  constructor
  · rintro ⟨fields, isFields, _, reports⟩
    cases isFields
    simpa [Reports, Value.property] using reports
  · rintro rfl
    exact ⟨_, rfl, ⟨rfl, rfl, rfl⟩, rfl⟩

end Reports

section Listing

/-- A conversion gives a value or throws, and does nothing else. -/
def Immediate {α : Type} (handler : Async α) : Prop :=
  (∃ value, handler = pure value) ∨ ∃ thrown, handler = throw thrown

theorem immediate_stringOf (value : Value) : Immediate (stringOf value) := by
  unfold stringOf
  split
  · exact Or.inl ⟨_, rfl⟩
  · exact Or.inr ⟨_, rfl⟩

theorem immediate_stringOrEmpty (value : Value) : Immediate (stringOrEmpty value) := by
  unfold stringOrEmpty
  split
  · exact Or.inl ⟨_, rfl⟩
  · exact Or.inl ⟨_, rfl⟩
  · exact immediate_stringOf value

theorem immediate_stringIf (value : Value) : Immediate (stringIf value) := by
  unfold stringIf
  split
  · exact immediate_stringOf value
  · exact Or.inl ⟨_, rfl⟩

theorem immediate_numberIf (value : Value) : Immediate (numberIf value) := by
  unfold numberIf numberOf
  split
  · split
    · exact Or.inl ⟨_, rfl⟩
    · exact Or.inr ⟨_, rfl⟩
  · exact Or.inl ⟨_, rfl⟩

variable {State : Type} {backend : State → Call → Reply × State} {deps : Deps}
  {session : Session} {moments : ℕ → Moment} {turn : ℕ} {state : State} {store : Store}
  {query : Fields}

/-- A response that lists limits. -/
def limitPage (shown : List Value) (token : Value) : Response :=
  .json 200 (.object [("limits", .array shown), ("next_page_token", token)])

/-- The outcome of a listing, by the reply to its call. -/
def limitsOutcome : Reply → Except Thrown Response
  | .ok (.limits limits token) =>
      .ok (limitPage (limits.map fun limit => .object (toLimitView limit none))
        (nextPageToken token))
  | .ok _ => .error unexpectedReply
  | .error error => .error (rpcError error)

theorem reply_of_limitPage {reply : Reply} {shown : List Value} {token : Value}
    (isPage : settled (limitsOutcome reply) = limitPage shown token) :
    ∃ limits next, reply = .ok (.limits limits next) ∧
      shown = limits.map fun limit => .object (toLimitView limit none) := by
  have thrown (thrown : Thrown) : errorMiddleware thrown ≠ limitPage shown token :=
    errorMiddleware_ne thrown (by decide) _ _ _
  cases reply with
  | error failure => exact absurd isPage (thrown (rpcError failure))
  | ok message =>
      cases message with
      | limits limits next =>
          simp only [limitsOutcome, settled, limitPage, Response.json, Response.mk.injEq,
            Value.object.injEq, List.cons.injEq, Prod.mk.injEq, Value.array.injEq, true_and]
            at isPage
          exact ⟨limits, next, rfl, isPage.1.1.symm⟩
      | _ => exact absurd isPage (thrown unexpectedReply)

/-- The parameters of a listing, as the route reads them. -/
structure Reads (query : Fields) (serviceName customerId rateLimitId : String) (pageSize : Number)
    (pageToken : String) : Prop where
  isService : stringOrEmpty (Value.property query "service_name") = pure serviceName
  named : serviceName ≠ ""
  isCustomer : stringIf (Value.property query "customer_id") = pure customerId
  isRateLimit : stringIf (Value.property query "rate_limit_id") = pure rateLimitId
  isSize : numberIf (Value.property query "page_size") = pure pageSize
  isToken : stringIf (Value.property query "page_token") = pure pageToken

variable {serviceName customerId rateLimitId pageToken : String} {pageSize : Number}

theorem converse_listLimits
    (reads : Reads query serviceName customerId rateLimitId pageSize pageToken)
    (granted : Granted deps session.user .limitsRead (some serviceName)) :
    ((LimitsRouter.list deps session query).converse backend moments turn state store).outcome =
      limitsOutcome (backend state ⟨.listLimits serviceName customerId rateLimitId pageSize
        pageToken, none⟩).1 := by
  simp only [LimitsRouter.list, reads.isService, async_pure_bind, reads.named, if_false,
    guard_of_granted granted, reads.isCustomer, reads.isRateLimit, reads.isSize, reads.isToken,
    converse_bind, converse_call]
  cases (backend state ⟨.listLimits serviceName customerId rateLimitId pageSize pageToken,
    none⟩).1 with
  | error failure => rfl
  | ok message => cases message <;> rfl

theorem of_bind_limitPage {α : Type} {handler : Async α} {next : α → Async Response}
    {shown : List Value} {token : Value} (immediate : Immediate handler)
    (isPage : settled ((handler >>= next).converse backend moments turn state store).outcome =
      limitPage shown token) :
    ∃ value, handler = pure value ∧
      settled ((next value).converse backend moments turn state store).outcome =
        limitPage shown token := by
  rcases immediate with ⟨value, rfl⟩ | ⟨thrown, rfl⟩
  · exact ⟨value, rfl, isPage⟩
  · exact absurd isPage (errorMiddleware_ne thrown (by decide) _ _ _)

/-- A page of limits comes from one call. -/
theorem listed_of_limitPage {shown : List Value} {token : Value}
    (isPage : settled ((LimitsRouter.list deps session query).converse backend moments turn state
      store).outcome = limitPage shown token) :
    ∃ serviceName customerId rateLimitId pageSize pageToken limits next,
      (backend state ⟨.listLimits serviceName customerId rateLimitId pageSize pageToken,
        none⟩).1 = .ok (.limits limits next) ∧
      shown = limits.map fun limit => .object (toLimitView limit none) := by
  have whole := isPage
  unfold LimitsRouter.list at isPage
  rcases of_bind_limitPage (immediate_stringOrEmpty _) isPage with ⟨serviceName, isName, isPage⟩
  split at isPage
  · cases congrArg Response.status isPage
  rename_i named
  unfold guard at isPage
  split at isPage
  · rename_i granted
    rcases of_bind_limitPage (immediate_stringIf _) isPage with ⟨customerId, isCustomer, isPage⟩
    rcases of_bind_limitPage (immediate_stringIf _) isPage with ⟨rateLimitId, isLimit, isPage⟩
    rcases of_bind_limitPage (immediate_numberIf _) isPage with ⟨pageSize, isSize, isPage⟩
    rcases of_bind_limitPage (immediate_stringIf _) isPage with ⟨pageToken, isToken, _⟩
    rw [converse_listLimits ⟨isName, named, isCustomer, isLimit, isSize, isToken⟩ granted] at whole
    rcases reply_of_limitPage whole with ⟨limits, next, isReply, isShown⟩
    exact ⟨serviceName, customerId, rateLimitId, pageSize, pageToken, limits, next, isReply,
      isShown⟩
  · cases congrArg Response.status isPage

end Listing

section Rows

/-- A row as the control plane sends it. -/
def rawLimit (row : LimitRow) : RawLimit :=
  toRawLimit ⟨row.key, row.limitValue, unitOf row.timeUnit, row.configId⟩

theorem names_view (row : LimitRow) (isDefault : Option Bool) :
    Names row.key (toLimitView (rawLimit row) isDefault) :=
  ⟨rfl, rfl, rfl⟩

/-- A view is about one tuple. -/
theorem key_of_names {key : LimitKey} {row : LimitRow} {isDefault : Option Bool}
    (names : Names key (toLimitView (rawLimit row) isDefault)) : row.key = key := by
  apply LimitKey.ext
  · exact Value.string.inj names.serviceName
  · exact Value.string.inj names.customerId
  · exact Value.string.inj names.rateLimitId

variable {deployment : Deployment} {enforcer : Call → Reply} {visit : Visit}
  {plane : ControlPlane} {principal : Principal}
  {serviceName customerId rateLimitId pageToken : String} {pageSize : Number}

theorem answer_listLimits (isPrincipal : deployment.principal = .ok principal)
    (mayView : principal.canView serviceName = true)
    (valid : LimitValidator.validateServiceName serviceName = .ok ())
    {items : List LimitRow} {next : String}
    (listed : LimitRepository.list ⟨visit.now, fun _ => none⟩ serviceName customerId rateLimitId
      (LimitValidator.clampPageSize pageSize.toInt32).toNat pageToken plane.database =
        .ok ⟨items, next⟩) :
    (World.answer deployment enforcer visit plane
      ⟨.listLimits serviceName customerId rateLimitId pageSize pageToken, none⟩).1 =
        .ok (.limits (items.map rawLimit) next) := by
  rw [World.answer_read isPrincipal rfl]
  simp only [LimitAdminService.read, LimitAdminService.listLimits, valid,
    Authorizer.requireViewer, mayView, if_true, listed]
  change toReply ((items.mapM ProtoMappers.toLimit).bind _) = _
  rw [mapM_toLimit]
  simp [Except.bind, toReply, toMessage, Except.map, Except.mapError, pure, Except.pure, rawLimit]

/-- Whatever limits are sent are rows of the table. -/
theorem rows_of_answer {limits : List RawLimit} {next : String}
    (answered : (World.answer deployment enforcer visit plane
      ⟨.listLimits serviceName customerId rateLimitId pageSize pageToken, none⟩).1 =
        .ok (.limits limits next)) {limit : RawLimit} (mem : limit ∈ limits) :
    ∃ row ∈ plane.database.limits, limit = rawLimit row := by
  simp only [World.answer, Rpc.toAdmin?, serve] at answered
  split at answered
  · cases answered
  · rename_i principal _
    rcases ok_of_toReply answered with ⟨response, isOk⟩
    rcases listLimits_eq_ok isOk with ⟨page, listed, rfl⟩
    rw [isOk] at answered
    cases answered
    rcases List.mem_map.mp mem with ⟨_, limitMem, rfl⟩
    rcases List.mem_map.mp limitMem with ⟨row, rowMem, rfl⟩
    exact ⟨row, List.mem_of_mem_filter (LimitRepository.mem_of_list listed rowMem), rfl⟩

theorem converse_resolve {State : Type} {backend : State → Call → Reply × State} {deps : Deps}
    {session : Session} {moments : ℕ → Moment} {turn : ℕ} {state : State} {store : Store}
    {query : Fields} {key : LimitKey} {limit : RawLimit} {isDefault : Bool}
    (isKey : Console.validateKey query = .ok key)
    (granted : Granted deps session.user .limitsRead (some key.serviceName))
    (isReply : (backend state ⟨.getLimit key true, none⟩).1 =
      .ok (.resolvedLimit limit isDefault)) :
    ((LimitsRouter.resolve deps session query).converse backend moments turn state store).outcome =
      .ok (.json 200 (.object (("configured", .boolean true) ::
        toLimitView limit (some isDefault)))) := by
  simp only [LimitsRouter.resolve, isKey, parsed, guard_of_granted granted]
  change (Handler.converse backend moments (Handler.call ⟨.getLimit key true, none⟩ _) turn state
    store).outcome = _
  simp only [Handler.converse, isReply]
  rfl

theorem answer_getLimit (isPrincipal : deployment.principal = .ok principal) {key : LimitKey}
    {row : LimitRow} (writable : Writable principal key) (sane : Database.Sane plane.database)
    (found : plane.database.findLimit key = some row) :
    (World.answer deployment enforcer visit plane ⟨.getLimit key true, none⟩).1 =
      .ok (.resolvedLimit (rawLimit row) row.isDefault) := by
  have effective : plane.database.effective key = some row := by
    simp [Database.effective, found]
  have resolved := @resolve_eq_ok plane.database key sane ⟨visit.now, fun _ => none⟩
    (fun _ => rfl) writable.texts
  rw [World.answer_read isPrincipal rfl]
  simp only [LimitAdminService.read, LimitAdminService.getLimit, writable.valid,
    Authorizer.requireViewer, writable.canView, if_true, resolved, effective, toLimit_eq]
  rfl

end Rows

section Survival

variable (deployment : Deployment) (enforcer : Call → Reply)

/-- A user who may read the limits of the service. -/
structure MayRead (store : Store) (request : Request) (session : Session) (key : LimitKey) :
    Prop where
  authentic : Authentic store request session
  hasBody : ∃ body, request.body = .ok body
  granted : Granted deployment.deps session.user .limitsRead (some key.serviceName)

/-- A query for the limit of one tuple, from the first page on. -/
structure AsksTuple (query : Fields) (key : LimitKey) : Prop where
  serviceName : Value.property query "service_name" = .string key.serviceName
  customerId : Value.property query "customer_id" = .string key.customerId
  rateLimitId : Value.property query "rate_limit_id" = .string key.rateLimitId
  pageSize : ∃ text, Supplies query "page_size" text
  pageToken : Supplies query "page_token" ""

/-- A value of a limit that comes back from everywhere as it was given. -/
structure Survives (before after : ControlPlane) (key : LimitKey) (value : ℤ) : Prop where
  storable : Storable value
  stored : ∃ row, after.database.findLimit key = some row ∧ row.limitValue = value
  audited : ∃ entry fields, after.database.audit = before.database.audit ++ [entry] ∧
    structToObject (rawEntry entry).newRow = .object fields ∧ Names key fields ∧
    Reports value fields
  /-- Whenever the limit is listed, the value is the one that is shown. -/
  listed : ∀ (world : World) visit shown token, world.plane = after →
    visit.request.route = .listLimits →
    (world.exchange deployment enforcer visit).outcome = .ok (limitPage shown token) →
    ∀ fields, .object fields ∈ shown → Names key fields → Reports value fields
  /-- The limit is listed when it is asked for. -/
  found : ∀ (world : World) visit session, world.plane = after →
    visit.request.route = .listLimits →
    MayRead deployment world.store visit.request session key →
    AsksTuple visit.request.query key →
    ∃ fields, Names key fields ∧ Reports value fields ∧
      (world.exchange deployment enforcer visit).outcome =
        .ok (limitPage [.object fields] .null)
  resolved : ∀ (world : World) visit session, world.plane = after →
    visit.request.route = .resolveLimit →
    MayRead deployment world.store visit.request session key →
    Console.validateKey visit.request.query = .ok key →
    ∃ fields, Names key fields ∧ Reports value fields ∧
      (world.exchange deployment enforcer visit).outcome = .ok (.json 200 (.object fields))

variable {deployment enforcer} {before : Database} {limit : ValidatedLimit} {row : LimitRow}
  {entry : AuditRow} {world : World} {visit : Visit} {session : Session}

theorem exchange_outcome {body : Fields} (authentic : Authentic world.store visit.request session)
    (hasBody : visit.request.body = .ok body)
    (behindAuth : visit.request.route.behindAuth = true) :
    (world.exchange deployment enforcer visit).outcome =
      .ok (settled ((api deployment.deps session visit.request body).converse
        (World.answer deployment enforcer visit) visit.moments 0 world.plane
        world.store).outcome) := by
  rw [World.exchange, converse_app authentic hasBody behindAuth, outcome_recover]

theorem Written.listed (written : Written deployment before world.plane.database limit row entry)
    (isRoute : visit.request.route = .listLimits) {shown : List Value} {token : Value}
    (isPage : (world.exchange deployment enforcer visit).outcome = .ok (limitPage shown token))
    {fields : Fields} (mem : .object fields ∈ shown) (names : Names limit.key fields) :
    fields = toLimitView (rawLimit row) none := by
  have behindAuth : visit.request.route.behindAuth = true := by
    rw [isRoute]
    rfl
  have isApplied : applied (world.exchange deployment enforcer visit).outcome = true := by
    rw [isPage]
    rfl
  rcases authentic_of_applied behindAuth isApplied with ⟨session, body, authentic, hasBody⟩
  rw [exchange_outcome authentic hasBody behindAuth, Except.ok.injEq, api, isRoute] at isPage
  rcases listed_of_limitPage isPage with
    ⟨_, _, _, _, _, limits, next, answered, rfl⟩
  rcases List.mem_map.mp mem with ⟨raw, rawMem, isObject⟩
  rcases rows_of_answer answered rawMem with ⟨other, otherMem, rfl⟩
  cases isObject
  rcases Database.key_of_findLimit written.recorded.found with ⟨isKey, rowMem⟩
  have sameKey := (key_of_names names).trans isKey.symm
  rw [written.orderly.sane.tuples.eq_of_key_eq otherMem rowMem sameKey]

theorem AsksTuple.reads {query : Fields} {key : LimitKey} (asks : AsksTuple query key)
    (named : key.serviceName ≠ "") :
    ∃ pageSize, Reads query key.serviceName key.customerId key.rateLimitId pageSize "" := by
  rcases asks.pageSize with ⟨text, isSize⟩
  refine ⟨sentNumber text, ?_, named, ?_, ?_, isSize.numberIf, asks.pageToken.stringIf⟩
  · rw [asks.serviceName]
    rfl
  · exact Supplies.stringIf (Or.inl asks.customerId)
  · exact Supplies.stringIf (Or.inl asks.rateLimitId)

theorem Written.found (written : Written deployment before world.plane.database limit row entry)
    (isRoute : visit.request.route = .listLimits)
    (may : MayRead deployment world.store visit.request session limit.key)
    (asks : AsksTuple visit.request.query limit.key) :
    (world.exchange deployment enforcer visit).outcome =
      .ok (limitPage [.object (toLimitView (rawLimit row) none)] .null) := by
  rcases written.writable with ⟨principal, isPrincipal, writable⟩
  rcases may.hasBody with ⟨body, hasBody⟩
  rcases LimitValidator.validateKey_eq_ok_iff.mp writable.valid with ⟨service, customer, rateLimit⟩
  have serviceNamed := (LimitValidator.validateText_eq_ok_iff.mp service).1
  have named : limit.key.customerId ≠ "" ∧ limit.key.rateLimitId ≠ "" :=
    ⟨(LimitValidator.validateText_eq_ok_iff.mp customer).1,
      (LimitValidator.validateText_eq_ok_iff.mp rateLimit).1⟩
  have behindAuth : visit.request.route.behindAuth = true := by
    rw [isRoute]
    rfl
  have isFound := written.recorded.found
  have positive := written.orderly.positive row (Database.key_of_findLimit isFound).2
  rcases asks.reads serviceNamed with ⟨pageSize, reads⟩
  have listed := @LimitRepository.list_tuple ⟨visit.now, fun _ => none⟩ ⟨rfl, rfl⟩
    world.plane.database limit.key row writable.texts named isFound written.orderly.sane.tuples
    written.orderly.distinct positive _
    (LimitValidator.clampPageSize_pos pageSize.toInt32)
  rw [exchange_outcome may.authentic hasBody behindAuth, api, isRoute,
    converse_listLimits reads may.granted,
    answer_listLimits isPrincipal writable.canView service listed]
  rfl

theorem Written.resolved (written : Written deployment before world.plane.database limit row entry)
    (isRoute : visit.request.route = .resolveLimit)
    (may : MayRead deployment world.store visit.request session limit.key)
    (isKey : Console.validateKey visit.request.query = .ok limit.key) :
    (world.exchange deployment enforcer visit).outcome =
      .ok (.json 200 (.object (("configured", .boolean true) ::
        toLimitView (rawLimit row) (some row.isDefault)))) := by
  rcases written.writable with ⟨principal, isPrincipal, writable⟩
  rcases may.hasBody with ⟨body, hasBody⟩
  have behindAuth : visit.request.route.behindAuth = true := by
    rw [isRoute]
    rfl
  rw [exchange_outcome may.authentic hasBody behindAuth, api, isRoute,
    converse_resolve isKey may.granted (answer_getLimit isPrincipal writable
      written.orderly.sane written.recorded.found)]
  rfl

theorem survives_iff {before after : ControlPlane} {value : ℤ}
    (written : Written deployment before.database after.database limit row entry)
    (isValue : limit.limitValue = .ofInt value) (nonnegative : 0 ≤ value) :
    Survives deployment enforcer before after limit.key value ↔
      Double.roundInt value = value ∧ value < 2 ^ 63 := by
  have recorded := written.recorded
  have isKey := (Database.key_of_findLimit recorded.found).1
  have isStored : row.limitValue = min (2 ^ 63 - 1) (Double.roundInt value) := by
    rw [recorded.limitValue, isValue, Number.toInt64_ofInt nonnegative]
  have rounded := Double.roundInt_nonneg nonnegative
  have storable : Storable row.limitValue := by
    rw [isStored]
    exact ⟨by omega, by omega⟩
  constructor
  · intro survives
    rcases survives.stored with ⟨other, found, isOther⟩
    rcases survives.audited with ⟨otherEntry, fields, audit, isObject, names, reports⟩
    rw [recorded.found, Option.some.injEq] at found
    subst other
    rw [recorded.audit, List.append_cancel_left_eq, List.cons.injEq] at audit
    rw [← audit.1] at isObject
    -- the row alone does not decide: the largest 64-bit integer is stored by saturation, but every
    -- reader is shown its double
    have twice := (reports_newRow_iff recorded.newRow storable).mp
      ⟨fields, isObject, isKey ▸ names, reports⟩
    rw [isOther] at twice
    have upper := survives.storable.2
    exact ⟨twice, by omega⟩
  · rintro ⟨isDouble, upper⟩
    have isRow : row.limitValue = value := by omega
    have shown : Double.roundInt row.limitValue = value := by rw [isRow, isDouble]
    have reports (isDefault : Option Bool) : Reports value (toLimitView (rawLimit row) isDefault) :=
      (reports_view_iff storable).mpr shown
    refine ⟨⟨nonnegative, by omega⟩, ⟨row, recorded.found, isRow⟩, ?_, ?_, ?_, ?_⟩
    · rcases (reports_newRow_iff recorded.newRow storable).mpr shown with
        ⟨fields, isObject, names, reports⟩
      exact ⟨entry, fields, recorded.audit, isObject, isKey ▸ names, reports⟩
    · rintro world visit shownLimits token rfl isRoute isPage fields mem names
      rw [written.listed isRoute isPage mem names]
      exact reports none
    · rintro world visit session rfl isRoute may asks
      exact ⟨_, isKey ▸ names_view row none, reports none, written.found isRoute may asks⟩
    · rintro world visit session rfl isRoute may isQuery
      have view := names_view row (some row.isDefault)
      refine ⟨_, ?_, ?_, written.resolved isRoute may isQuery⟩
      · exact isKey ▸ ⟨view.serviceName, view.customerId, view.rateLimitId⟩
      · exact reports (some row.isDefault)

end Survival

/-- A value that is accepted lies in the range of the column exactly when it is below `2 ^ 63`, and
in every state that is reached a value that was applied comes back from everywhere exactly when
it is moreover a double. -/
theorem limit_value_survives_iff (deployment : Deployment) (enforcer : Call → Reply) :
    (∀ body limit value, Carries body value → validateLimit body = .ok limit →
      (Storable value ↔ value < 2 ^ 63)) ∧
    ∀ pool calls (world : World) visit body limit value,
      planeAfter deployment.backend ⟨pool, .empty⟩ calls = world.plane →
      Carries body value → Writes world.store visit.request body limit →
      applied (world.exchange deployment enforcer visit).outcome = true →
      (Survives deployment enforcer world.plane (world.exchange deployment enforcer visit).state
          limit.key value ↔
        (Double.spacing value : ℤ) ∣ value ∧ value < 2 ^ 63) := by
  constructor
  · intro body limit value carries valid
    have nonnegative := (limitValue_of_carries carries valid).2
    constructor
    · intro storable
      have upper := storable.2
      omega
    · intro upper
      exact ⟨nonnegative, by omega⟩
  · intro pool calls world visit body limit value reached carries writes isApplied
    rcases limitValue_of_carries carries writes.valid with ⟨isValue, nonnegative⟩
    rcases written_of_applied reached writes isApplied with ⟨row, entry, written⟩
    rw [survives_iff written isValue nonnegative, Double.roundInt_eq_self_iff]

section Sample

/-- The operator limits the queries of a customer. -/
def sampleLimitBody (value : String) : Fields :=
  [("service_name", .string "search"), ("customer_id", .string "acme"),
    ("rate_limit_id", .string "query"), ("limit_value", .string value),
    ("time_unit", .string "DAY")]

def sampleLimitVisit (value : String) : Visit :=
  World.sampleVisit .createLimit (sampleLimitBody value)

/-- The console registers the service. -/
def sampleRegistration : AdminCall :=
  ⟨some "Bearer bff-token", (System.sampleDeployment "svc:quotaui").authorizer, 0,
    ⟨5, fun _ => none⟩, .write (.registerService ⟨"search", "Search", "team-search"⟩)⟩

def sampleLimitWorld : World :=
  ⟨planeAfter sampleBackend ⟨fun _ => ⟨none⟩, .empty⟩ [sampleRegistration], sampleStore,
    fun _ => none⟩

def unavailable : Call → Reply := fun _ => .error ⟨.unavailable, "", ""⟩

/-- The control plane after the limit was set. -/
def sampleLimited (value : String) : ControlPlane :=
  (sampleLimitWorld.exchange (System.sampleDeployment "svc:quotaui") unavailable
    (sampleLimitVisit value)).state

theorem limit_value_survives_iff_ten :
    Survives (System.sampleDeployment "svc:quotaui") unavailable sampleLimitWorld.plane
      (sampleLimited "10") ⟨"search", "acme", "query"⟩ 10 := by
  have valid : validateLimit (sampleLimitBody "10") =
      .ok ⟨⟨"search", "acme", "query"⟩, .finite 10, .day⟩ := by decide +kernel
  apply ((limit_value_survives_iff (System.sampleDeployment "svc:quotaui") unavailable).2
    (fun _ => ⟨none⟩) [sampleRegistration] sampleLimitWorld (sampleLimitVisit "10")
    (sampleLimitBody "10") _ 10 rfl (Or.inr ⟨"10", rfl, by decide +kernel⟩)
    (.create rfl rfl valid) (by decide +kernel)).mpr
  decide +kernel

/-- One more than `2 ^ 53` is accepted and stored as `2 ^ 53`, and `2 ^ 63` passes validation. -/
theorem limit_value_altered :
    Carries (sampleLimitBody "9007199254740993") 9007199254740993 ∧
    Storable 9007199254740993 ∧
    Writes sampleLimitWorld.store (sampleLimitVisit "9007199254740993").request
      (sampleLimitBody "9007199254740993")
      ⟨⟨"search", "acme", "query"⟩, .finite 9007199254740992, .day⟩ ∧
    applied (sampleLimitWorld.exchange (System.sampleDeployment "svc:quotaui") unavailable
      (sampleLimitVisit "9007199254740993")).outcome = true ∧
    ¬Survives (System.sampleDeployment "svc:quotaui") unavailable sampleLimitWorld.plane
      (sampleLimited "9007199254740993") ⟨"search", "acme", "query"⟩ 9007199254740993 ∧
    Carries (sampleLimitBody "9223372036854775808") 9223372036854775808 ∧
    (validateLimit (sampleLimitBody "9223372036854775808")).toOption.isSome = true ∧
    ¬Storable 9223372036854775808 := by
  refine ⟨Or.inr ⟨_, rfl, by decide +kernel⟩, ⟨by decide, by decide⟩,
    .create rfl rfl (by decide +kernel), by decide +kernel, ?_,
    Or.inr ⟨_, rfl, by decide +kernel⟩, by decide +kernel, ?_⟩
  · intro survives
    rcases survives.stored with ⟨row, found, isValue⟩
    have stored : ((sampleLimited "9007199254740993").database.findLimit
        ⟨"search", "acme", "query"⟩).map LimitRow.limitValue = some 9007199254740992 := by
      decide +kernel
    rw [found, Option.map_some, isValue] at stored
    exact absurd stored (by decide)
  · rintro ⟨_, upper⟩
    exact absurd upper (by decide)

end Sample

end RateLimiter.Console
