import RateLimiter.Console.AppContract
import RateLimiter.Lib.Arrivals

/-!
# The desk behind the console

The sessions and the reviews of the console are read by every request that
waits for a backend, but they change only in the turn in which a request
arrives. `Desk` is the sequential machine that they follow: it does one errand
for each request, in the order of arrival, however the calls and the replies of
the requests interleave.
-/

namespace RateLimiter.Console

open EventLoop EventLoop.Handler JavaScript

/-- The sessions and the reviews of a console. -/
structure Desk where
  sessions : Map Session
  reviews : ReviewStore

def Store.desk (store : Store) : Desk := ⟨store.sessions, store.reviews⟩

/-- What a request has the desk do. -/
inductive Errand where
  | signIn (user : User)
  | signOut (id : String)
  | submit (op : PendingOp) (reason initiator : String)
  | settle (place : ℕ) (review : Review) (decision : ReviewStatus) (approver : String)
  | nothing

/-- The user that a login names, where logins are allowed. -/
def Deps.loginUser? (deps : Deps) (body : Fields) : Option User :=
  match deps.authMode, Value.property body "user" with
  | .oidc, _ => none
  | .dev, .undefined | .dev, .null => deps.grants ""
  | .dev, value => value.toText.bind deps.grants

namespace Desk

/-- The session of a request that carries its cookie and, where needed, its CSRF token. -/
def session? (desk : Desk) (request : Request) : Option Session :=
  match request.cookie with
  | .string id =>
      if id = "" then none
      else (desk.sessions.get id).filter fun session => csrfOk session request
  | _ => none

/-- A decision of the user about the review that the id names. -/
def deciding (deps : Deps) (desk : Desk) (session : Session) (id : String)
    (decision : ReviewStatus) : Errand :=
  match authorize session.user .reviewApprove none deps.policy, desk.reviews.get id with
  | .ok (), some (place, review) =>
      if review.status = .pending ∧ review.initiator ≠ session.user.email then
        .settle place review decision session.user.email
      else .nothing
  | _, _ => .nothing

/-- The mutation of the user is held for a review, or is none of the desk's business. -/
def submitting (deps : Deps) (session : Session) (op : PendingOp) : Errand :=
  match authorize session.user op.capability (some op.key.serviceName) deps.policy,
      reviewReason op deps.reviewPolicy with
  | .ok (), some reason => .submit op reason session.user.email
  | _, _ => .nothing

/-- What an authentic request asks of the desk. -/
def asked (deps : Deps) (desk : Desk) (session : Session) (request : Request) : Errand :=
  match request.route with
  | .approve id => desk.deciding deps session id .approved
  | .reject id => desk.deciding deps session id .rejected
  | _ => (request.op?.map (submitting deps session)).getD .nothing

/-- The cookie names the session to end. -/
def closing : Value → Errand
  | .string id => if id = "" then .nothing else .signOut id
  | _ => .nothing

/-- Signing in and out needs no session. -/
def errand (deps : Deps) (desk : Desk) (request : Request) : Errand :=
  match request.body with
  | .error _ => .nothing
  | .ok body =>
      match request.route with
      | .login => ((deps.loginUser? body).map Errand.signIn).getD .nothing
      | .logout => closing request.cookie
      | _ =>
          ((desk.session? request).map fun session => desk.asked deps session request).getD .nothing

/-- Ids and tokens are drawn, and the clock is read, in the turn of the errand. -/
def run (moment : Moment) (desk : Desk) : Errand → Desk
  | .signIn user =>
      { desk with
        sessions := desk.sessions.set (moment.random 0)
          ⟨moment.random 0, user, moment.random 1⟩ }
  | .signOut id => { desk with sessions := desk.sessions.delete id }
  | .submit op reason initiator =>
      { desk with
        reviews := ⟨desk.reviews.objects ++
            [⟨moment.random 0, op, reason, initiator, .pending, moment.isoNow, none, none⟩],
          desk.reviews.byId.set (moment.random 0) desk.reviews.objects.length⟩ }
  | .settle place review decision approver =>
      { desk with
        reviews := { desk.reviews with
          objects := desk.reviews.objects.set place
            { review with
              status := decision
              decidedBy := some approver
              decidedAt := some moment.isoNow } } }
  | .nothing => desk

/-- The desk serves a request. -/
def serve (deps : Deps) (moment : Moment) (request : Request) (desk : Desk) : Desk :=
  desk.run moment (desk.errand deps request)

end Desk

section Leaving

theorem leaving_of_reading {α : Type} {handler : Async α}
    (reads : Keeps anything reading handler) : Keeps anything (leaving Store.desk) handler := by
  intro past store
  apply wp_refine (fun _ => True) _ _ _ (reads past store) trivial
  · exact fun _ _ _ _ => ⟨trivial, trivial⟩
  · exact fun _ _ _ _ _ => trivial
  · intro past before after _ (same : after = before)
    exact ⟨congrArg Store.desk same, trivial⟩

theorem leaving_call (rpc : Rpc) (actor : Option String) :
    Keeps anything (leaving Store.desk) (call rpc actor) := by
  intro past store
  apply wp_call.mpr
  exact ⟨trivial, fun _ _ _ => trivial⟩

theorem leaving_log (context : OpContext) (action : Action) (target : Target)
    (details : Option Details) (requestId : Option String) :
    Keeps anything (leaving Store.desk) (context.log action target details requestId) :=
  fun _ _ _ => ⟨rfl, trivial⟩

theorem leaving_reqId : Keeps anything (leaving Store.desk) reqId :=
  fun _ _ _ => ⟨rfl, trivial⟩

theorem createLimit_leaves (context : OpContext) (input : ValidatedLimit) :
    Keeps anything (leaving Store.desk) (createLimit context input) := by
  apply Keeps.bind (leaving_call _ _)
  intro message
  apply Keeps.bind (leaving_log _ _ _ _ _)
  intro _
  cases message with
  | limit limit => exact Keeps.pure _
  | _ => exact Keeps.throw _

theorem updateLimit_leaves (context : OpContext) (input : ValidatedLimit)
    (createIfAbsent : Bool) :
    Keeps anything (leaving Store.desk) (updateLimit context input createIfAbsent) := by
  apply Keeps.bind (leaving_call _ _)
  intro message
  apply Keeps.bind (leaving_log _ _ _ _ _)
  intro _
  cases message with
  | limit limit => exact Keeps.pure _
  | _ => exact Keeps.throw _

theorem deleteLimit_leaves (context : OpContext) (key : LimitKey) (allowMissing : Bool) :
    Keeps anything (leaving Store.desk) (deleteLimit context key allowMissing) := by
  apply Keeps.bind (leaving_call _ _)
  intro message
  exact leaving_log _ _ _ _ _

theorem refund_leaves (context : OpContext) (key : LimitKey) (amount : Number) :
    Keeps anything (leaving Store.desk) (refund context key amount) := by
  apply Keeps.bind leaving_reqId
  intro requestId
  apply Keeps.bind (leaving_call _ _)
  intro message
  apply Keeps.bind (leaving_log _ _ _ _ _)
  intro _
  cases message with
  | refunded remaining limit resetAt =>
      apply Keeps.bind (keeps_orThrow _)
      intro _
      exact Keeps.pure _
  | _ => exact Keeps.throw _

theorem resetWindow_leaves (context : OpContext) (key : LimitKey) :
    Keeps anything (leaving Store.desk) (resetWindow context key) := by
  apply Keeps.bind (leaving_of_reading keeps_isoNow)
  intro fetchedAt
  apply Keeps.bind (leaving_call _ _)
  intro usage
  apply Keeps.bind leaving_reqId
  intro requestId
  have ends : Keeps anything (leaving Store.desk) (do
      context.log .opReset (.limit key) (some (.refunded (consumedOf usage).maxZero))
        (some requestId)
      readUsage key fetchedAt) := by
    apply Keeps.bind (leaving_log _ _ _ _ _)
    intro _
    exact leaving_of_reading keeps_readUsage
  dsimp only
  split
  · apply Keeps.bind (leaving_call _ _)
    intro _
    exact ends
  · exact ends

theorem executePendingOp_leaves (context : OpContext) (op : PendingOp) :
    Keeps anything (leaving Store.desk) (executePendingOp context op) := by
  cases op with
  | limitUpdate limit => exact updateLimit_leaves _ _ _
  | limitDelete key =>
      apply Keeps.bind (deleteLimit_leaves _ _ _)
      intro _
      exact Keeps.pure _
  | opRefund key amount => exact refund_leaves _ _ _
  | opReset key => exact resetWindow_leaves _ _

end Leaving

section Arrivals

variable {deps : Deps} {store : Store} {request : Request} {session : Session} {body : Fields}
  {moment : Moment}

/-- The first turn of the handler does the errand, and the rest leaves the desk alone. -/
def Does (moment : Moment) (store : Store) (errand : Errand) (handler : Async Response) : Prop :=
  Arrives Store.desk moment store (store.desk.run moment errand) handler

theorem Does.nothing {handler : Async Response}
    (leaves : Keeps anything (leaving Store.desk) handler) :
    Does moment store .nothing handler :=
  Leaves.arrives (leaves [] store)

theorem session?_eq_some : store.desk.session? request = some session ↔
    Authentic store request session := by
  simp only [Desk.session?, Authentic, SessionStore.get, Store.desk]
  cases request.cookie with
  | string id =>
      by_cases isEmpty : id = ""
      · simp [isEmpty]
      · simp [isEmpty, Option.filter_eq_some_iff]
  | _ => simp

/-- A handler behind a guard that does the errand of those who pass. -/
theorem guard_does {capability : Capability} {service : Option String} {errand : Errand}
    {handler : Async Response}
    (refused : ∀ reason, authorize session.user capability service deps.policy = .error reason →
      errand = .nothing)
    (does : authorize session.user capability service deps.policy = .ok () →
      Does moment store errand handler) :
    Does moment store errand (guard deps session capability service handler) := by
  rw [guard]
  split
  · rename_i granted
    exact does granted
  · rename_i reason isRefused
    rw [refused reason isRefused]
    exact Does.nothing (Keeps.pure _)

/-- A gated mutation is submitted or executed. -/
theorem gated_does {op : PendingOp} {handler : Async Response}
    (executes : Keeps anything (leaving Store.desk) handler) :
    Does moment store (Desk.submitting deps session op)
      (guard deps session op.capability (some op.key.serviceName)
        (reviewed deps session op handler)) := by
  apply guard_does
  · intro reason isRefused
    simp [Desk.submitting, isRefused]
  · intro granted
    rw [reviewed]
    cases isReason : reviewReason op deps.reviewPolicy with
    | none =>
        simp only [Desk.submitting, granted, isReason]
        exact Does.nothing executes
    | some reason =>
        simp only [Desk.submitting, granted, isReason]
        apply Arrives.atomically
        exact Leaves.arrives (Keeps.pure _ [] _)

/-- A decision settles the review, or is refused. -/
theorem decide_does {id : String} {decision : ReviewStatus} {decided : Review → Async Response}
    (goesOn : ∀ review, Keeps anything (leaving Store.desk) (decided review)) :
    Does moment store (store.desk.deciding deps session id decision)
      (ReviewsRouter.decide deps session id decision decided) := by
  apply guard_does
  · intro reason isRefused
    simp [Desk.deciding, isRefused]
  · intro granted
    apply Arrives.atomically
    cases found : store.reviews.get id with
    | none =>
        simp only [Desk.deciding, granted, Store.desk, found, ReviewStore.decide]
        exact Leaves.arrives (Keeps.pure _ [] _)
    | some entry =>
        rcases entry with ⟨place, review⟩
        simp only [Desk.deciding, granted, Store.desk, found, ReviewStore.decide]
        by_cases pending : review.status = .pending
        · by_cases own : review.initiator = session.user.email
          · simp only [pending, own, ne_eq, not_true, and_false, if_false, if_true]
            exact Leaves.arrives (Keeps.pure _ [] _)
          · simp only [pending, own, ne_eq, not_false_eq_true, and_self, if_true, if_false,
              not_true]
            exact Leaves.arrives (goesOn _ [] _)
        · simp only [pending, ne_eq, not_false_eq_true, false_and, if_false, if_true]
          exact Leaves.arrives (Keeps.pure _ [] _)

theorem parsed_does {α : Type} {result : Except (List String) α} {errand : Errand}
    {handler : α → Async Response}
    (refused : ∀ errors, result = .error errors → errand = .nothing)
    (does : ∀ value, result = .ok value → Does moment store errand (handler value)) :
    Does moment store errand (parsed result handler) := by
  cases isResult : result with
  | ok value => exact does value isResult
  | error errors =>
      rw [refused errors isResult]
      exact Does.nothing (Keeps.pure _)

variable (hasBody : request.body = .ok body)

include hasBody

theorem updateLimit_does (route : request.route = .updateLimit) :
    Does moment store (store.desk.asked deps session request)
      (LimitsRouter.update deps session body) := by
  apply parsed_does
  · intro errors invalid
    simp [Desk.asked, Request.op?, route, hasBody, invalid, Except.toOption]
  · intro limit isLimit
    have isOp : store.desk.asked deps session request =
        Desk.submitting deps session (.limitUpdate limit) := by
      simp [Desk.asked, Request.op?, route, hasBody, isLimit, Except.toOption]
    rw [isOp]
    apply gated_does
    apply Keeps.bind (updateLimit_leaves _ _ _)
    exact fun _ => Keeps.pure _

theorem deleteLimit_does (route : request.route = .deleteLimit) :
    Does moment store (store.desk.asked deps session request)
      (LimitsRouter.delete deps session body) := by
  apply parsed_does
  · intro errors invalid
    simp [Desk.asked, Request.op?, route, hasBody, invalid, Except.toOption]
  · intro key isKey
    have isOp : store.desk.asked deps session request =
        Desk.submitting deps session (.limitDelete key) := by
      simp [Desk.asked, Request.op?, route, hasBody, isKey, Except.toOption]
    rw [isOp]
    apply gated_does
    apply Keeps.bind (deleteLimit_leaves _ _ _)
    exact fun _ => Keeps.pure _

theorem refund_does (route : request.route = .refund) :
    Does moment store (store.desk.asked deps session request)
      (OpsRouter.refund deps session body) := by
  apply parsed_does
  · intro errors invalid
    simp [Desk.asked, Request.op?, route, hasBody, invalid, Except.toOption]
  · intro key isKey
    cases isAmount : validateAmount (Value.property body "amount") with
    | error message =>
        have isNothing : store.desk.asked deps session request = .nothing := by
          simp [Desk.asked, Request.op?, route, hasBody, isKey, isAmount, Except.toOption]
        rw [isNothing]
        exact Does.nothing (Keeps.pure _)
    | ok amount =>
        have isOp : store.desk.asked deps session request =
            Desk.submitting deps session (.opRefund key amount) := by
          simp [Desk.asked, Request.op?, route, hasBody, isKey, isAmount, Except.toOption]
        rw [isOp]
        apply gated_does
        apply Keeps.bind (refund_leaves _ _ _)
        exact fun _ => Keeps.pure _

theorem reset_does (route : request.route = .reset) :
    Does moment store (store.desk.asked deps session request)
      (OpsRouter.reset deps session body) := by
  apply parsed_does
  · intro errors invalid
    simp [Desk.asked, Request.op?, route, hasBody, invalid, Except.toOption]
  · intro key isKey
    have isOp : store.desk.asked deps session request =
        Desk.submitting deps session (.opReset key) := by
      simp [Desk.asked, Request.op?, route, hasBody, isKey, Except.toOption]
    rw [isOp]
    apply gated_does
    apply Keeps.bind (resetWindow_leaves _ _)
    exact fun _ => Keeps.pure _

omit hasBody in
theorem register_leaves (capability : Capability) (action : Action) (status : ℕ)
    (fields : Fields) :
    Keeps anything (leaving Store.desk)
      (ServicesRouter.register deps session capability action status fields) := by
  apply keeps_parsed
  intro service
  apply keeps_guard
  apply Keeps.bind (leaving_call _ _)
  intro message
  apply Keeps.bind (leaving_log _ _ _ _ _)
  intro _
  cases message with
  | service service => exact Keeps.pure _
  | _ => exact Keeps.throw _

omit hasBody in
theorem createLimit_route_leaves :
    Keeps anything (leaving Store.desk) (LimitsRouter.create deps session body) := by
  apply keeps_parsed
  intro limit
  apply keeps_guard
  apply Keeps.bind (createLimit_leaves _ _)
  exact fun _ => Keeps.pure _

omit hasBody in
theorem approve_does {id : String} (route : request.route = .approve id) :
    Does moment store (store.desk.asked deps session request)
      (ReviewsRouter.approve deps session id) := by
  have isDecision : store.desk.asked deps session request =
      store.desk.deciding deps session id .approved := by
    simp [Desk.asked, route]
  rw [isDecision]
  apply decide_does
  intro review
  apply Keeps.bind (executePendingOp_leaves _ _)
  exact fun _ => Keeps.pure _

omit hasBody in
theorem reject_does {id : String} (route : request.route = .reject id) :
    Does moment store (store.desk.asked deps session request)
      (ReviewsRouter.reject deps session id) := by
  have isDecision : store.desk.asked deps session request =
      store.desk.deciding deps session id .rejected := by
    simp [Desk.asked, route]
  rw [isDecision]
  apply decide_does
  exact fun _ => Keeps.pure _

/-- Every route behind the checks does the errand that the desk is asked. -/
theorem api_does :
    Does moment store (store.desk.asked deps session request)
      (api deps session request body) := by
  have idle : ∀ {handler : Async Response},
      store.desk.asked deps session request = .nothing →
      Keeps anything (leaving Store.desk) handler →
      Does moment store (store.desk.asked deps session request) handler := by
    intro handler isNothing leaves
    rw [isNothing]
    exact Does.nothing leaves
  unfold api
  split
  case _ route =>
    exact idle (by simp [Desk.asked, Request.op?, hasBody, route]) (Keeps.pure _)
  case _ route =>
    exact idle (by simp [Desk.asked, Request.op?, hasBody, route])
      (leaving_of_reading listLimits_keeps)
  case _ route =>
    exact idle (by simp [Desk.asked, Request.op?, hasBody, route])
      (leaving_of_reading resolveLimit_keeps)
  case _ route =>
    exact idle (by simp [Desk.asked, Request.op?, hasBody, route]) createLimit_route_leaves
  case _ route => exact updateLimit_does hasBody route
  case _ route => exact deleteLimit_does hasBody route
  case _ route =>
    exact idle (by simp [Desk.asked, Request.op?, hasBody, route])
      (leaving_of_reading listServices_keeps)
  case _ name route =>
    exact idle (by simp [Desk.asked, Request.op?, hasBody, route])
      (leaving_of_reading getService_keeps)
  case _ route =>
    exact idle (by simp [Desk.asked, Request.op?, hasBody, route]) (register_leaves _ _ _ _)
  case _ name route =>
    exact idle (by simp [Desk.asked, Request.op?, hasBody, route]) (register_leaves _ _ _ _)
  case _ route =>
    exact idle (by simp [Desk.asked, Request.op?, hasBody, route])
      (leaving_of_reading listAudit_keeps)
  case _ configId route =>
    exact idle (by simp [Desk.asked, Request.op?, hasBody, route])
      (leaving_of_reading configHistory_keeps)
  case _ route =>
    exact idle (by simp [Desk.asked, Request.op?, hasBody, route])
      (leaving_of_reading usage_keeps)
  case _ route => exact refund_does hasBody route
  case _ route => exact reset_does hasBody route
  case _ route =>
    exact idle (by simp [Desk.asked, Request.op?, hasBody, route])
      (leaving_of_reading listReviews_keeps)
  case _ id route => exact approve_does route
  case _ id route => exact reject_does route
  case _ route =>
    exact idle (by simp [Desk.asked, Request.op?, hasBody, route])
      (leaving_of_reading actionLog_keeps)
  case _ =>
    apply idle _ (Keeps.pure _)
    simp only [Desk.asked, Request.op?, hasBody]
    cases isRoute : request.route <;> simp_all

omit hasBody in
/-- A login with the text of an id. -/
theorem login_does (id : String) :
    Does moment store (((deps.grants id).map Errand.signIn).getD .nothing)
      (match deps.grants id with
        | none => pure (.error 401 ("unknown user '" ++ id ++ "'"))
        | some user => do
            let session ← .atomically fun moment store => SessionStore.create moment user store
            pure ⟨200, sessionPayload session, .set session.id⟩) := by
  cases deps.grants id with
  | none => exact Does.nothing (Keeps.pure _)
  | some user =>
      apply Arrives.atomically
      exact Leaves.arrives (Keeps.pure _ [] _)

omit hasBody in
theorem devLogin_does :
    Does moment store (((deps.loginUser? body).map Errand.signIn).getD .nothing)
      (devLogin deps body) := by
  unfold devLogin Deps.loginUser?
  cases deps.authMode with
  | oidc => exact Does.nothing (Keeps.pure _)
  | dev =>
      have texts : ∀ value : Value,
          Does moment store (((value.toText.bind deps.grants).map Errand.signIn).getD .nothing)
            (stringOf value >>= fun id =>
              match deps.grants id with
              | none => pure (.error 401 ("unknown user '" ++ id ++ "'"))
              | some user => do
                  let session ← .atomically fun moment store =>
                    SessionStore.create moment user store
                  pure ⟨200, sessionPayload session, .set session.id⟩) := by
        intro value
        rw [stringOf]
        cases value.toText with
        | none => exact Does.nothing (Keeps.throw _)
        | some text => exact login_does text
      cases Value.property body "user" with
      | undefined => exact login_does ""
      | null => exact login_does ""
      | boolean flag => exact texts (.boolean flag)
      | number number => exact texts (.number number)
      | string text => exact texts (.string text)
      | array items => exact texts (.array items)
      | object fields => exact texts (.object fields)

omit hasBody in
theorem logout_does {cookie : Value} :
    Does moment store (Desk.closing cookie) (logout cookie) := by
  apply Arrives.atomically
  cases cookie with
  | string id =>
      simp only [Desk.closing, SessionStore.destroy]
      by_cases isEmpty : id = ""
      · simp only [isEmpty, if_true]
        exact Leaves.arrives (Keeps.pure _ [] _)
      · simp only [isEmpty, if_false]
        exact Leaves.arrives (Keeps.pure _ [] _)
  | _ => exact Leaves.arrives (Keeps.pure _ [] _)

omit hasBody in
theorem session?_eq_none (unauthentic : ∀ session, ¬Authentic store request session) :
    store.desk.session? request = none := by
  apply Option.eq_none_iff_forall_ne_some.mpr
  intro session isSession
  exact unauthentic session (session?_eq_some.mp isSession)

/-- A route behind the checks of the session and of its token. -/
theorem checked_does :
    Does moment store
      (((store.desk.session? request).map fun session =>
        store.desk.asked deps session request).getD .nothing)
      (do
        match ← .atomically fun _ store => (SessionStore.get store request.cookie, store) with
        | none => pure (.error 401 "not authenticated")
        | some session =>
            if csrfOk session request then api deps session request body
            else pure (.error 403 "bad or missing CSRF token")) := by
  apply Arrives.atomically
  cases isLive : SessionStore.get store request.cookie with
  | none =>
      rw [session?_eq_none (by simp [Authentic, isLive])]
      exact Does.nothing (Keeps.pure _)
  | some session =>
      by_cases checked : csrfOk session request = true
      · rw [session?_eq_some.mpr ⟨isLive, checked⟩]
        simp only [checked, if_true]
        exact api_does hasBody
      · rw [session?_eq_none (by simp [Authentic, isLive, checked])]
        simp only [checked]
        exact Does.nothing (Keeps.pure _)

end Arrivals

/-- The first turn of every request does one errand, and nothing after it reaches the desk. -/
theorem app_serves (deps : Deps) (moment : Moment) (request : Request) (store : Store) :
    Arrives Store.desk moment store (Desk.serve deps moment request store.desk)
      (app deps request) := by
  apply Arrives.recover
  change Does moment store (store.desk.errand deps request) (routes deps request)
  unfold routes
  cases hasBody : request.body with
  | error message =>
      simp only [Desk.errand, hasBody]
      exact Does.nothing (Keeps.throw _)
  | ok body =>
      have quiet : request.route = .healthz ∨ (∃ method, request.route = .unmatched false method) →
          store.desk.errand deps request = .nothing := by
        rintro (route | ⟨method, route⟩) <;> cases isSession : store.desk.session? request <;>
          simp [Desk.errand, hasBody, route, isSession, Desk.asked, Request.op?]
      dsimp only
      split
      · rename_i route
        rw [quiet (Or.inl route)]
        exact Does.nothing (Keeps.pure _)
      · rename_i route
        simp only [Desk.errand, hasBody, route]
        exact devLogin_does
      · rename_i route
        simp only [Desk.errand, hasBody, route]
        exact logout_does
      · rename_i method route
        rw [quiet (Or.inr ⟨method, route⟩)]
        exact Does.nothing (Keeps.pure _)
      · rename_i notLogin notLogout _
        have isErrand : store.desk.errand deps request =
            ((store.desk.session? request).map fun session =>
              store.desk.asked deps session request).getD .nothing := by
          simp only [Desk.errand, hasBody]
        rw [isErrand]
        exact checked_does hasBody

section Runs

variable (deps : Deps) (sessions : Map Session) (events : List ConsoleEvent)

/-- The desk after the requests of a run, one after the other. -/
def deskAfter : Desk :=
  Machine.after (Loop.arriving (Desk.serve deps)) ⟨sessions, ⟨[], []⟩⟩ events

/-- However the handlers interleave, the sessions and the reviews are those of the desk. -/
theorem console_follows_desk (turn : ℕ) :
    (consoleAt deps sessions events turn).desk = deskAfter deps sessions (events.take turn) :=
  Loop.view_storeAt (fun moment request store => app_serves deps moment request store)
    (.fresh sessions) events turn

end Runs

end RateLimiter.Console
