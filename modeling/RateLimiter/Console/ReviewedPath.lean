import RateLimiter.Console.Authority
import RateLimiter.Lib.Conversation

/-!
# The direct path and the reviewed path

A request that the policy lets through sends its calls at once. A request that
is held sends nothing, and its approval sends the calls of the review, in which
the optional fields of the request have no place.
-/

namespace RateLimiter.Console

open EventLoop EventLoop.Handler JavaScript

/-- The message without the id that only traces it. -/
def Rpc.untraced : Rpc → Rpc
  | .refund key amount _ => .refund key amount ""
  | rpc => rpc

/-- The flag that a request sets with a field of its body. -/
def Request.flag (request : Request) (name : String) : Bool :=
  (request.body.toOption.map fun body => (Value.property body name).truthy).getD false

section Paths

variable {State : Type} (respond : State → Rpc → Reply × State)

/-- A backend whose answers depend neither on the actor of a call nor on its request id. -/
def obliviously (state : State) (call : Call) : Reply × State :=
  respond state call.rpc.untraced

/-- The calls of a handler without their actors and request ids. -/
def rpcsSent {α : Type} (moments : ℕ → Moment) (handler : Async α) (turn : ℕ) (state : State)
    (store : Store) : List Rpc :=
  (handler.converse (obliviously respond) moments turn state store).exchanges.map
    fun exchange => exchange.1.rpc.untraced

/-- What the calls of a mutation are, in a state of the backend. -/
def PendingOp.rpcs (state : State) (createIfAbsent allowMissing : Bool) : PendingOp → List Rpc
  | .limitUpdate limit =>
      [.updateLimit limit.key limit.limitValue limit.timeUnit createIfAbsent]
  | .limitDelete key => [.deleteLimit key allowMissing]
  | .opRefund key amount => [.refund key amount ""]
  | .opReset key =>
      .getUsage key ::
        match respond state (.getUsage key) with
        | (.error _, _) => []
        | (.ok usage, state) =>
            if (Number.finite 0).lt (consumedOf usage) then
              .refund key (consumedOf usage) "" ::
                match respond state (.refund key (consumedOf usage) "") with
                | (.error _, _) => []
                | (.ok _, _) => [.getUsage key]
            else [.getUsage key]

variable {respond} {moments : ℕ → Moment} {turn : ℕ} {state : State} {store : Store}

theorem converse_call {answer : State → Call → Reply × State} {rpc : Rpc}
    {actor : Option String} :
    (call rpc actor).converse answer moments turn state store =
      ⟨[(⟨rpc, actor⟩, (answer state ⟨rpc, actor⟩).1)],
        (answer state ⟨rpc, actor⟩).1.mapError rpcError, (answer state ⟨rpc, actor⟩).2, store⟩ := by
  simp only [call, converse_bind, converse_await, Conversation.andThen]
  cases (answer state ⟨rpc, actor⟩).1 <;> rfl

theorem silent_orThrow {α : Type} (result : Except Thrown α) : Silent (orThrow result) := by
  cases result with
  | ok value => exact Silent.pure value
  | error error => exact Silent.throw error

theorem silent_log (context : OpContext) (action : Action) (target : Target)
    (details : Option Details) (requestId : Option String) :
    Silent (context.log action target details requestId) :=
  Silent.atomically _

theorem exchanges_call_bind {answer : State → Call → Reply × State} {α : Type} {rpc : Rpc}
    {actor : Option String} {next : Message → Async α} :
    ((call rpc actor >>= next).converse answer moments turn state store).exchanges =
      (⟨rpc, actor⟩, (answer state ⟨rpc, actor⟩).1) ::
        match (answer state ⟨rpc, actor⟩).1 with
        | .error _ => []
        | .ok message => ((next message).converse answer moments (turn + 1)
            (answer state ⟨rpc, actor⟩).2 store).exchanges := by
  rw [converse_bind, converse_call]
  cases (answer state ⟨rpc, actor⟩).1 <;> rfl

/-- A mutation that is followed by its entry in the log and an answer. -/
theorem exchanges_mutation {answer : State → Call → Reply × State} {α : Type} {rpc : Rpc}
    {actor : Option String} {next : Message → Async α} (silent : ∀ message, Silent (next message)) :
    ((call rpc actor >>= next).converse answer moments turn state store).exchanges =
      [(⟨rpc, actor⟩, (answer state ⟨rpc, actor⟩).1)] := by
  rw [exchanges_bind silent, converse_call]

section Executors

variable (context : OpContext)

theorem rpcsSent_updateLimit (input : ValidatedLimit) (createIfAbsent : Bool) :
    rpcsSent respond moments (updateLimit context input createIfAbsent) turn state store =
      [.updateLimit input.key input.limitValue input.timeUnit createIfAbsent] := by
  rw [rpcsSent, updateLimit, exchanges_mutation]
  · rfl
  · intro message
    apply Silent.bind (silent_log _ _ _ _ _)
    intro _
    cases message with
    | limit limit => exact Silent.pure _
    | _ => exact Silent.throw _

theorem rpcsSent_deleteLimit (key : LimitKey) (allowMissing : Bool) :
    rpcsSent respond moments (deleteLimit context key allowMissing) turn state store =
      [.deleteLimit key allowMissing] := by
  rw [rpcsSent, deleteLimit, exchanges_mutation]
  · rfl
  · intro message
    exact silent_log _ _ _ _ _

theorem rpcsSent_refund (key : LimitKey) (amount : Number) :
    rpcsSent respond moments (refund context key amount) turn state store =
      [.refund key amount ""] := by
  rw [rpcsSent, refund, reqId, converse_atomically_bind, exchanges_mutation]
  · rfl
  · intro message
    apply Silent.bind (silent_log _ _ _ _ _)
    intro _
    cases message with
    | refunded remaining limit resetAt =>
        apply Silent.bind (silent_orThrow _)
        intro _
        exact Silent.pure _
    | _ => exact Silent.throw _

theorem rpcsSent_resetWindow (key : LimitKey) :
    rpcsSent respond moments (resetWindow context key) turn state store =
      (PendingOp.opReset key).rpcs respond state false false := by
  have reads : ∀ turn state store fetchedAt,
      rpcsSent respond moments (readUsage key fetchedAt) turn state store = [.getUsage key] := by
    intro turn state store fetchedAt
    rw [rpcsSent, readUsage, exchanges_mutation]
    · rfl
    · intro message
      cases message with
      | usage usage => exact silent_orThrow _
      | _ => exact Silent.throw _
  simp only [rpcsSent] at reads
  rw [rpcsSent, resetWindow, isoNow, converse_atomically_bind, exchanges_call_bind]
  simp only [List.map_cons, obliviously, Rpc.untraced, PendingOp.rpcs]
  congr 1
  rcases respond state (.getUsage key) with ⟨reply, next⟩
  cases reply with
  | error failure => rfl
  | ok usage =>
      simp only [reqId, converse_atomically_bind]
      split
      · rw [exchanges_call_bind]
        simp only [List.map_cons, obliviously, Rpc.untraced]
        congr 1
        rcases respond next (.refund key (consumedOf usage) "") with ⟨refunded, last⟩
        cases refunded with
        | error failure => rfl
        | ok message => exact reads _ _ _ _
      · exact reads _ _ _ _

theorem rpcsSent_bind {α β : Type} {handler : Async α} {next : α → Async β}
    (silent : ∀ value, Silent (next value)) :
    rpcsSent respond moments (handler >>= next) turn state store =
      rpcsSent respond moments handler turn state store := by
  rw [rpcsSent, exchanges_bind silent]
  rfl

theorem rpcsSent_executePendingOp (op : PendingOp) :
    rpcsSent respond moments (executePendingOp context op) turn state store =
      op.rpcs respond state true false := by
  cases op with
  | limitUpdate limit => exact rpcsSent_updateLimit context limit true
  | limitDelete key =>
      exact (rpcsSent_bind fun _ => Silent.pure _).trans (rpcsSent_deleteLimit context key false)
  | opRefund key amount => exact rpcsSent_refund context key amount
  | opReset key => exact rpcsSent_resetWindow context key

end Executors

section Requests

variable {deps : Deps} {request : Request} {session : Session} {body : Fields} {op : PendingOp}

/-- The four routes whose mutation may need a review. -/
inductive Asks (request : Request) (body : Fields) : PendingOp → Prop where
  | update {limit : ValidatedLimit} (route : request.route = .updateLimit)
      (valid : validateLimit body = .ok limit) : Asks request body (.limitUpdate limit)
  | delete {key : LimitKey} (route : request.route = .deleteLimit)
      (valid : validateKey body = .ok key) : Asks request body (.limitDelete key)
  | refund {key : LimitKey} {amount : Number} (route : request.route = .refund)
      (valid : validateKey body = .ok key)
      (isAmount : validateAmount (Value.property body "amount") = .ok amount) :
      Asks request body (.opRefund key amount)
  | reset {key : LimitKey} (route : request.route = .reset)
      (valid : validateKey body = .ok key) : Asks request body (.opReset key)

theorem ok_of_toOption {ε α : Type} {result : Except ε α} {value : α}
    (isSome : result.toOption = some value) : result = .ok value := by
  cases result with
  | error error => simp [Except.toOption] at isSome
  | ok other =>
      simp only [Except.toOption, Option.some.injEq] at isSome
      rw [isSome]

theorem asks_of_op? (isOp : request.op? = some op) :
    ∃ body, request.body = .ok body ∧ Asks request body op := by
  simp only [Request.op?, Option.bind_eq_bind, Option.bind_eq_some_iff] at isOp
  rcases isOp with ⟨body, hasBody, isOp⟩
  refine ⟨body, ok_of_toOption hasBody, ?_⟩
  split at isOp
  · rcases Option.map_eq_some_iff.mp isOp with ⟨limit, isLimit, rfl⟩
    exact .update ‹_› (ok_of_toOption isLimit)
  · rcases Option.map_eq_some_iff.mp isOp with ⟨key, isKey, rfl⟩
    exact .delete ‹_› (ok_of_toOption isKey)
  · simp only [Option.bind_eq_some_iff] at isOp
    rcases isOp with ⟨key, isKey, amount, isAmount, isOp⟩
    cases isOp
    exact .refund ‹_› (ok_of_toOption isKey) (ok_of_toOption isAmount)
  · rcases Option.map_eq_some_iff.mp isOp with ⟨key, isKey, rfl⟩
    exact .reset ‹_› (ok_of_toOption isKey)
  · simp at isOp

theorem guard_of_granted {capability : Capability} {service : Option String}
    {handler : Async Response} (granted : Granted deps session.user capability service) :
    guard deps session capability service handler = handler := by
  rw [guard, granted]

/-- A request for a mutation that is valid and authorised comes down to the review policy. -/
theorem api_of_asks (asks : Asks request body op) (hasBody : request.body = .ok body)
    (granted : Granted deps session.user op.capability (some op.key.serviceName)) :
    ∃ direct : Async Response,
      api deps session request body = reviewed deps session op direct ∧
      ∀ moments turn state store, rpcsSent respond moments direct turn state store =
        op.rpcs respond state (request.flag "create_if_absent")
          (request.flag "allow_missing") := by
  have flags : ∀ name, request.flag name = (Value.property body name).truthy := by
    intro name
    simp [Request.flag, hasBody, Except.toOption]
  cases asks with
  | @update limit route valid =>
      refine ⟨do
        let view ← updateLimit (opContext session) limit
          (Value.property body "create_if_absent").truthy
        pure (.json 200 view), ?_, ?_⟩
      · simp only [api, route, LimitsRouter.update, valid, parsed]
        exact guard_of_granted granted
      · intro moments turn state store
        rw [rpcsSent_bind fun _ => Silent.pure _, rpcsSent_updateLimit, flags]
        rfl
  | @delete key route valid =>
      refine ⟨do
        deleteLimit (opContext session) key (Value.property body "allow_missing").truthy
        pure (.json 204 .undefined), ?_, ?_⟩
      · simp only [api, route, LimitsRouter.delete, valid, parsed]
        exact guard_of_granted granted
      · intro moments turn state store
        rw [rpcsSent_bind fun _ => Silent.pure _, rpcsSent_deleteLimit, PendingOp.rpcs, flags]
  | @refund key amount route valid isAmount =>
      refine ⟨do
        let result ← Console.refund (opContext session) key amount
        pure (.json 200 result), ?_, ?_⟩
      · simp only [api, route, OpsRouter.refund, valid, parsed, isAmount]
        exact guard_of_granted granted
      · intro moments turn state store
        rw [rpcsSent_bind fun _ => Silent.pure _, rpcsSent_refund]
        rfl
  | @reset key route valid =>
      refine ⟨do
        let result ← resetWindow (opContext session) key
        pure (.json 200 result), ?_, ?_⟩
      · simp only [api, route, OpsRouter.reset, valid, parsed]
        exact guard_of_granted granted
      · intro moments turn state store
        rw [rpcsSent_bind fun _ => Silent.pure _, rpcsSent_resetWindow]
        rfl

/-- The routes that need a session. -/
def Route.behindAuth : Route → Bool
  | .healthz | .login | .logout | .unmatched false _ => false
  | _ => true

/-- A route that needs a session is served to the live one whose token is sent along. -/
theorem routes_eq (hasBody : request.body = .ok body)
    (behindAuth : request.route.behindAuth = true) :
    routes deps request = (do
      match ← .atomically fun _ store => (SessionStore.get store request.cookie, store) with
      | none => pure (.error 401 "not authenticated")
      | some session =>
          if csrfOk session request then api deps session request body
          else pure (.error 403 "bad or missing CSRF token")) := by
  simp only [routes, hasBody]
  split
  · rename_i route
    simp [route, Route.behindAuth] at behindAuth
  · rename_i route
    simp [route, Route.behindAuth] at behindAuth
  · rename_i route
    simp [route, Route.behindAuth] at behindAuth
  · rename_i method route
    simp [route, Route.behindAuth] at behindAuth
  · rfl

theorem converse_app {answer : State → Call → Reply × State}
    (authentic : Authentic store request session) (hasBody : request.body = .ok body)
    (behindAuth : request.route.behindAuth = true) :
    (app deps request).converse answer moments turn state store =
      ((api deps session request body).converse answer moments turn state store).recover
        errorMiddleware := by
  rw [app, converse_handle, routes_eq hasBody behindAuth, converse_atomically_bind]
  simp only [authentic.1, authentic.2, if_true]

theorem Asks.behindAuth (asks : Asks request body op) : request.route.behindAuth = true := by
  cases asks with
  | update route _ | delete route _ | refund route _ _ | reset route _ => rw [route]; rfl

theorem rpcsSent_app (authentic : Authentic store request session)
    (hasBody : request.body = .ok body) (behindAuth : request.route.behindAuth = true) :
    rpcsSent respond moments (app deps request) turn state store =
      rpcsSent respond moments (api deps session request body) turn state store := by
  rw [rpcsSent, converse_app authentic hasBody behindAuth, Conversation.exchanges_recover]
  rfl

/-- A request that is held sends nothing, and its review can be found. -/
theorem converse_reviewed {answer : State → Call → Reply × State} {direct : Async Response}
    (needsReview : reviewReason op deps.reviewPolicy ≠ none) :
    ∃ place review, review.op = op ∧ review.initiator = session.user.email ∧
      review.status = .pending ∧
      ((reviewed deps session op direct).converse answer moments turn state store).exchanges =
        [] ∧
      ((reviewed deps session op direct).converse answer moments turn state store).state =
        state ∧
      ((reviewed deps session op direct).converse answer moments turn state
        store).store.reviews.get ((moments turn).random 0) = some (place, review) := by
  cases isReason : reviewReason op deps.reviewPolicy with
  | none => exact absurd isReason needsReview
  | some reason =>
      refine ⟨store.reviews.objects.length,
        (ReviewStore.create (moments turn) op session.user.email reason store).1, rfl, rfl, rfl, ?_⟩
      simp only [reviewed, isReason, converse_atomically_bind, converse_pure, ReviewStore.create,
        ReviewStore.get, Map.get_set, true_and, Option.bind_eq_bind, Option.bind_some,
        List.getElem?_concat_length]
      rfl

theorem rpcsSent_approve {id : String} {place : ℕ} {review : Review}
    (granted : Granted deps session.user .reviewApprove none)
    (found : store.reviews.get id = some (place, review)) (pending : review.status = .pending)
    (other : review.initiator ≠ session.user.email) :
    rpcsSent respond moments (ReviewsRouter.approve deps session id) turn state store =
      review.op.rpcs respond state true false := by
  rw [ReviewsRouter.approve, ReviewsRouter.decide, guard_of_granted granted, rpcsSent]
  simp only [converse_atomically_bind, ReviewStore.decide, found, pending, other, ne_eq,
    not_true_eq_false, if_false]
  exact (rpcsSent_bind fun _ => Silent.pure _).trans (rpcsSent_executePendingOp _ _)

end Requests

end Paths

/-- The options of the request are those that the reviewed path uses. -/
def Request.KeepsOptions (request : Request) : Prop :=
  match request.route with
  | .updateLimit => request.flag "create_if_absent" = true
  | .deleteLimit => request.flag "allow_missing" = false
  | _ => True

/-- A request for a mutation that passes validation and authorisation. -/
structure Admitted (deps : Deps) (store : Store) (request : Request) (session : Session)
    (op : PendingOp) : Prop where
  authentic : Authentic store request session
  isOp : request.op? = some op
  granted : Granted deps session.user op.capability (some op.key.serviceName)

/-- A request to approve a review, by a user who may approve reviews. -/
structure Approves (deps : Deps) (store : Store) (request : Request) (session : Session)
    (id : String) : Prop where
  authentic : Authentic store request session
  route : request.route = .approve id
  parsed : ∃ body, request.body = .ok body
  granted : Granted deps session.user .reviewApprove none

theorem rpcs_eq_iff {State : Type} {respond : State → Rpc → Reply × State} {state : State}
    {request : Request} {body : Fields} {op : PendingOp} (asks : Asks request body op) :
    op.rpcs respond state true false =
        op.rpcs respond state (request.flag "create_if_absent") (request.flag "allow_missing") ↔
      request.KeepsOptions := by
  cases asks with
  | update route _ =>
      simp only [PendingOp.rpcs, Request.KeepsOptions, route, List.cons.injEq,
        Rpc.updateLimit.injEq, true_and, and_true]
      exact eq_comm
  | delete route _ =>
      simp only [PendingOp.rpcs, Request.KeepsOptions, route, List.cons.injEq,
        Rpc.deleteLimit.injEq, true_and, and_true]
      exact eq_comm
  | refund route _ _ => simp only [PendingOp.rpcs, Request.KeepsOptions, route]
  | reset route _ => simp only [PendingOp.rpcs, Request.KeepsOptions, route]

section Apps

variable {State : Type} {respond : State → Rpc → Reply × State} {moments : ℕ → Moment}
  {state : State} {store : Store} {deps : Deps} {request : Request} {session : Session}
  {op : PendingOp}

/-- The direct path. -/
theorem rpcsSent_direct (admitted : Admitted deps store request session op)
    (unheld : reviewReason op deps.reviewPolicy = none) :
    rpcsSent respond moments (app deps request) 0 state store =
      op.rpcs respond state (request.flag "create_if_absent") (request.flag "allow_missing") := by
  rcases asks_of_op? admitted.isOp with ⟨body, hasBody, asks⟩
  rcases @api_of_asks State respond deps _ session _ _ asks hasBody admitted.granted with
    ⟨direct, isDirect, sends⟩
  rw [rpcsSent_app admitted.authentic hasBody asks.behindAuth, isDirect, reviewed, unheld]
  exact sends _ _ _ _

/-- A request that is held sends nothing and leaves a pending review. -/
theorem converse_held {answer : State → Call → Reply × State}
    (admitted : Admitted deps store request session op)
    (held : reviewReason op deps.reviewPolicy ≠ none) :
    ∃ place review, review.op = op ∧ review.initiator = session.user.email ∧
      review.status = .pending ∧
      ((app deps request).converse answer moments 0 state store).exchanges = [] ∧
      ((app deps request).converse answer moments 0 state store).state = state ∧
      ((app deps request).converse answer moments 0 state store).store.reviews.get
        ((moments 0).random 0) = some (place, review) := by
  rcases asks_of_op? admitted.isOp with ⟨body, hasBody, asks⟩
  rcases @api_of_asks State (fun state _ => (.ok .deleted, state)) deps _ session _ _ asks hasBody
    admitted.granted with ⟨direct, isDirect, _⟩
  rcases @converse_reviewed State moments 0 state store deps session op answer direct held with
    ⟨place, review, isOp, isInitiator, pending, silent, same, found⟩
  refine ⟨place, review, isOp, isInitiator, pending, ?_⟩
  rw [converse_app admitted.authentic hasBody asks.behindAuth, isDirect]
  simp only [Conversation.exchanges_recover, Conversation.state_recover,
    Conversation.store_recover, silent, same, found, and_self]

theorem rpcsSent_approval {id : String} {place : ℕ} {review : Review}
    (approves : Approves deps store request session id)
    (found : store.reviews.get id = some (place, review)) (pending : review.status = .pending)
    (other : review.initiator ≠ session.user.email) :
    rpcsSent respond moments (app deps request) 0 state store =
      review.op.rpcs respond state true false := by
  rcases approves.parsed with ⟨body, hasBody⟩
  have behindAuth : request.route.behindAuth = true := by
    rw [approves.route]
    rfl
  rw [rpcsSent_app approves.authentic hasBody behindAuth, api, approves.route]
  exact rpcsSent_approve approves.granted found pending other

end Apps

/-- When a request that is held and then approved sends the very calls that it sends directly:
exactly when its options are those of the reviewed path. -/
theorem reviewed_path_exact {State : Type} (respond : State → Rpc → Reply × State) (state : State)
    (deps : Deps) (strict lenient : ReviewPolicy) (submission decision directly : ℕ → Moment)
    {store later : Store} {request approval : Request} {session approver : Session}
    {op : PendingOp} (admitted : Admitted deps store request session op)
    (held : reviewReason op strict ≠ none) (unheld : reviewReason op lenient = none)
    (approves : Approves deps later approval approver ((submission 0).random 0))
    (other : session.user.email ≠ approver.user.email)
    (found : later.reviews.get ((submission 0).random 0) =
      ((app { deps with reviewPolicy := strict } request).converse (obliviously respond) submission
        0 state store).store.reviews.get ((submission 0).random 0)) :
    rpcsSent respond submission (app { deps with reviewPolicy := strict } request) 0 state store ++
        rpcsSent respond decision (app { deps with reviewPolicy := strict } approval) 0
          ((app { deps with reviewPolicy := strict } request).converse (obliviously respond)
            submission 0 state store).state later =
      rpcsSent respond directly (app { deps with reviewPolicy := lenient } request) 0 state store ↔
    request.KeepsOptions := by
  rcases asks_of_op? admitted.isOp with ⟨body, hasBody, asks⟩
  have strictly : Admitted { deps with reviewPolicy := strict } store request session op :=
    ⟨admitted.authentic, admitted.isOp, admitted.granted⟩
  have leniently : Admitted { deps with reviewPolicy := lenient } store request session op :=
    ⟨admitted.authentic, admitted.isOp, admitted.granted⟩
  have approving : Approves { deps with reviewPolicy := strict } later approval approver
      ((submission 0).random 0) :=
    ⟨approves.authentic, approves.route, approves.parsed, approves.granted⟩
  rcases @converse_held State submission state store _ _ _ _ (obliviously respond) strictly held
    with
    ⟨place, review, rfl, isInitiator, pending, silent, same, isReview⟩
  rw [isReview] at found
  rw [rpcsSent_direct leniently unheld, rpcsSent_approval approving found pending
    (by rw [isInitiator]; exact other), same]
  simp only [rpcsSent, silent, List.map_nil, List.nil_append]
  exact rpcs_eq_iff asks

section Sample

/-- The sessions of an operator and of an editor. -/
def sampleSession (id : String) (grant : Grant) : Session :=
  ⟨"sid-" ++ id, ⟨id, id ++ "@corp", [grant]⟩, "csrf-" ++ id⟩

def operatorSession : Session := sampleSession "alice" ⟨.operator, none⟩

def editorSession : Session := sampleSession "bob" ⟨.serviceEditor, some "search"⟩

def sampleStore : Store :=
  .fresh [("sid-alice", operatorSession), ("sid-bob", editorSession)]

/-- The editor changes a default, and says whether it may be created. -/
def sampleEdit (createIfAbsent : Bool) : Request :=
  sampleRequest .updateLimit "bob" [("service_name", .string "search"),
    ("customer_id", .string "*"), ("rate_limit_id", .string "query"),
    ("limit_value", .number (.finite 10)), ("time_unit", .string "MINUTE"),
    ("create_if_absent", .boolean createIfAbsent)]

def sampleApproval : Request := sampleRequest (.approve "review-1") "alice" []

def unreviewedPolicy : ReviewPolicy := ⟨false, false, .finite 100000⟩

/-- A backend that has the row. -/
def sampleRespond (_ : Unit) (_ : Rpc) : Reply × Unit :=
  (.ok (.limit ⟨⟨"search", "*", "query"⟩, 10, "MINUTE", 1⟩), ())

def sampleMoments (_ : ℕ) : Moment := sampleMoment "review-1" ""

/-- The edit is held and then approved. -/
def sampleReviewedRpcs (createIfAbsent : Bool) : List Rpc :=
  let held := app { sampleDeps with reviewPolicy := .default } (sampleEdit createIfAbsent)
  let later := held.converse (obliviously sampleRespond) sampleMoments 0 () sampleStore
  rpcsSent sampleRespond sampleMoments held 0 () sampleStore ++
    rpcsSent sampleRespond sampleMoments
      (app { sampleDeps with reviewPolicy := .default } sampleApproval) 0 later.state later.store

/-- The edit is let through. -/
def sampleDirectRpcs (createIfAbsent : Bool) : List Rpc :=
  rpcsSent sampleRespond sampleMoments
    (app { sampleDeps with reviewPolicy := unreviewedPolicy } (sampleEdit createIfAbsent)) 0 ()
    sampleStore

theorem sampleEdit_admitted (createIfAbsent : Bool) :
    Admitted sampleDeps sampleStore (sampleEdit createIfAbsent) editorSession
      (.limitUpdate ⟨⟨"search", "*", "query"⟩, .finite 10, .minute⟩) := by
  cases createIfAbsent <;>
    exact ⟨⟨by decide +kernel, by decide +kernel⟩, by decide +kernel, rfl⟩

theorem sampleApproval_approves (createIfAbsent : Bool) :
    Approves sampleDeps ((app { sampleDeps with reviewPolicy := .default }
        (sampleEdit createIfAbsent)).converse (obliviously sampleRespond) sampleMoments 0 ()
        sampleStore).store sampleApproval operatorSession "review-1" := by
  cases createIfAbsent <;>
    exact ⟨⟨by decide +kernel, by decide +kernel⟩, rfl, ⟨[], rfl⟩, rfl⟩

theorem reviewed_path_exact_sample : sampleReviewedRpcs true = sampleDirectRpcs true := by
  apply (reviewed_path_exact sampleRespond () sampleDeps .default unreviewedPolicy sampleMoments
    sampleMoments sampleMoments (sampleEdit_admitted true) (by decide +kernel) (by decide +kernel)
    (sampleApproval_approves true) (by decide +kernel) rfl).mpr
  rfl

/-- An edit that may not create its row is approved as one that may. -/
theorem reviewed_path_upserts :
    Admitted sampleDeps sampleStore (sampleEdit false) editorSession
        (.limitUpdate ⟨⟨"search", "*", "query"⟩, .finite 10, .minute⟩) ∧
      sampleReviewedRpcs false ≠ sampleDirectRpcs false :=
  ⟨sampleEdit_admitted false, by decide +kernel⟩

end Sample

end RateLimiter.Console
