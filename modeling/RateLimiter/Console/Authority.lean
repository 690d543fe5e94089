import RateLimiter.Console.TwoPersonReview

/-!
# The authority behind a mutation

Every mutation that the console sends goes back to a request with a live
session and its CSRF token, carries the e-mail of that session's user, and is
granted to that user or, for a reviewed one, to the initiator of the review.
-/

namespace RateLimiter.Console

open EventLoop JavaScript

def Rpc.capabilities : Rpc → List Capability
  | .createLimit _ _ _ | .updateLimit _ _ _ _ => [.limitWrite]
  | .deleteLimit _ _ => [.limitDelete]
  | .registerService _ => [.serviceCreate, .serviceEdit]
  | .refund _ _ _ => [.opRefund, .opReset]
  | _ => []

/-- A matching capability is granted for the service that the call names. -/
def MayMutate (deps : Deps) (user : User) (rpc : Rpc) : Prop :=
  ∃ capability ∈ rpc.capabilities, Granted deps user capability (some rpc.serviceName)

/-- The request carries the cookie of a live session and that session's CSRF token. -/
def Carried (store : Store) (request : Request) (session : Session) : Prop :=
  SessionStore.get store request.cookie = some session ∧
    request.csrfToken = some session.csrfToken

theorem Authentic.carried {store : Store} {request : Request} {session : Session}
    (authentic : Authentic store request session)
    (needsCsrf : request.route.method.needsCsrf = true) : Carried store request session := by
  rcases authentic with ⟨isLive, checked⟩
  refine ⟨isLive, ?_⟩
  simp only [csrfOk, needsCsrf, Bool.not_true, Bool.false_or] at checked
  cases hasToken : request.csrfToken with
  | none => simp [hasToken] at checked
  | some token =>
      simp only [hasToken, Option.any_some, Bool.and_eq_true, decide_eq_true_eq] at checked
      rw [checked.2]

theorem needsCsrf_of_op? {request : Request} {op : PendingOp} (isOp : request.op? = some op) :
    request.route.method.needsCsrf = true := by
  cases hasBody : request.body with
  | error message => simp [Request.op?, hasBody, Except.toOption] at isOp
  | ok body =>
      cases route : request.route <;>
        first
        | rfl
        | simp [Request.op?, hasBody, route, Except.toOption] at isOp

theorem mayMutate_of_carries {deps : Deps} {user : User} {op : PendingOp} {rpc : Rpc}
    (carries : op.Carries rpc)
    (granted : Granted deps user op.capability (some op.key.serviceName)) :
    MayMutate deps user rpc := by
  cases op with
  | limitUpdate limit =>
      rcases carries with ⟨createIfAbsent, rfl⟩
      exact ⟨.limitWrite, List.mem_cons_self, granted⟩
  | limitDelete key =>
      rcases carries with ⟨allowMissing, rfl⟩
      exact ⟨.limitDelete, List.mem_cons_self, granted⟩
  | opRefund key amount =>
      rcases carries with ⟨requestId, rfl⟩
      exact ⟨.opRefund, List.mem_cons_self, granted⟩
  | opReset key =>
      rcases carries with ⟨amount, requestId, rfl⟩
      exact ⟨.opReset, List.mem_cons_of_mem _ List.mem_cons_self, granted⟩

/-- Every mutation is authenticated, checked against forgery and authorised. -/
theorem mutations_authorised (deps : Deps) (sessions : Map Session) (events : List ConsoleEvent) :
    ∀ sending ∈ (consoleAfter deps sessions events).sent,
      sending.call.rpc.isMutation = true →
      ∃ request session, sending.handler ≤ sending.turn ∧
        Serving events sending.handler request ∧
        Carried (consoleAt deps sessions events sending.handler) request session ∧
        sending.call.actor = some session.user.email ∧
        (MayMutate deps session.user sending.call.rpc ∨
          Granted deps session.user .reviewApprove none ∧
          ∃ id place review, request.route = .approve id ∧
            (consoleAt deps sessions events sending.handler).reviews.get id =
              some (place, review) ∧
            ∃ submission < sending.handler, ∃ submitting initiator,
              Serving events submission submitting ∧
              Carried (consoleAt deps sessions events submission) submitting initiator ∧
              submitting.op? = some review.op ∧ review.initiator = initiator.user.email ∧
              MayMutate deps initiator.user sending.call.rpc) := by
  intro sending mem isMutation
  rcases origin_of_sent mem with
    ⟨started, bounded, request, session, serving, authentic, origin, rest⟩
  have actor := (rest isMutation).1
  cases origin with
  | reading isRead _ => simp [isRead] at isMutation
  | creation route isCreation granted =>
      rcases isCreation with ⟨key, limitValue, timeUnit, isRpc⟩
      refine ⟨request, session, started, serving, authentic.carried (by rw [route]; rfl), actor,
        Or.inl ⟨.limitWrite, ?_, granted⟩⟩
      rw [isRpc]
      exact List.mem_cons_self
  | registration capability route isRegistration granted =>
      rcases isRegistration with ⟨service, isRpc⟩
      rcases route with ⟨route, rfl⟩ | ⟨⟨name, route⟩, rfl⟩
      · refine ⟨request, session, started, serving, authentic.carried (by rw [route]; rfl), actor,
          Or.inl ⟨.serviceCreate, ?_, granted⟩⟩
        rw [isRpc]
        exact List.mem_cons_self
      · refine ⟨request, session, started, serving, authentic.carried (by rw [route]; rfl), actor,
          Or.inl ⟨.serviceEdit, ?_, granted⟩⟩
        rw [isRpc]
        exact List.mem_cons_of_mem _ List.mem_cons_self
  | direct op isOp _ carries granted =>
      exact ⟨request, session, started, serving, authentic.carried (needsCsrf_of_op? isOp), actor,
        Or.inl (mayMutate_of_carries (carries isMutation) granted)⟩
  | approval place review approval _ carries =>
      rcases approval.route with ⟨id, route, found⟩
      rcases exists_submission deps sessions events (Nat.le_of_lt (by omega)) place review
        (getElem?_of_get found) with
        ⟨submission, before, moment, submitting, isRequest, isOp, _, initiator, theirs, isInitiator,
          granted⟩
      refine ⟨request, session, started, serving, authentic.carried (by rw [route]; rfl), actor,
        Or.inr ⟨approval.granted, id, place, review, route, found, submission, before, submitting,
          initiator, ⟨moment, isRequest⟩, theirs.carried (needsCsrf_of_op? isOp), isOp,
          isInitiator, mayMutate_of_carries (carries isMutation) granted⟩⟩

section Sample

/-- An operator and an editor of one service. -/
def sampleDeps : Deps where
  grants id :=
    if id = "alice" then some ⟨"alice", "alice@corp", [⟨.operator, none⟩]⟩
    else if id = "bob" then some ⟨"bob", "bob@corp", [⟨.serviceEditor, some "search"⟩]⟩
    else none
  authMode := .dev
  policy := .default
  reviewPolicy := .default
  dateParse _ := none

def sampleMoment (first second : String) : Moment :=
  ⟨1700000000000, fun draw => if draw = 0 then first else second⟩

def sampleRequest (route : Route) (user : String) (body : Fields) : Request :=
  ⟨route, .string ("sid-" ++ user), some ("csrf-" ++ user), [], .ok body⟩

/-- Two users log in; the editor changes a default, and the operator approves it. -/
def sampleEvents : List ConsoleEvent :=
  [.request (sampleMoment "sid-alice" "csrf-alice")
      (sampleRequest .login "" [("user", .string "alice")]),
    .request (sampleMoment "sid-bob" "csrf-bob")
      (sampleRequest .login "" [("user", .string "bob")]),
    .request (sampleMoment "review-1" "")
      (sampleRequest .updateLimit "bob" [("service_name", .string "search"),
        ("customer_id", .string "*"), ("rate_limit_id", .string "query"),
        ("limit_value", .number (.finite 10)), ("time_unit", .string "MINUTE")]),
    .request (sampleMoment "" "") (sampleRequest (.approve "review-1") "alice" [])]

theorem mutations_authorised_sample :
    ∃ sending ∈ (consoleAfter sampleDeps [] sampleEvents).sent,
      sending.call = ⟨.updateLimit ⟨"search", "*", "query"⟩ (.finite 10) .minute true,
        some "alice@corp"⟩ ∧
      ∃ request session, Serving sampleEvents sending.handler request ∧
        Carried (consoleAt sampleDeps [] sampleEvents sending.handler) request session := by
  have sent : ((consoleAfter sampleDeps [] sampleEvents).sent.any fun sending =>
      sending.call = ⟨.updateLimit ⟨"search", "*", "query"⟩ (.finite 10) .minute true,
        some "alice@corp"⟩) = true := by decide +kernel
  rcases List.any_eq_true.mp sent with ⟨sending, mem, isCall⟩
  have isCall := of_decide_eq_true isCall
  rcases mutations_authorised sampleDeps [] sampleEvents sending mem (by rw [isCall]; rfl) with
    ⟨request, session, _, serving, carried, _⟩
  exact ⟨sending, mem, isCall, request, session, serving, carried⟩

end Sample

end RateLimiter.Console
