import RateLimiter.Console.Operations

/-!
# The routes of the console

`app.ts`, `session.ts` and `routes/*.ts`. A request arrives with the route that
it matches; what precedes the routes (parsing of the body, the session, the
CSRF check) is part of `app`.
-/

namespace RateLimiter.Console

open EventLoop JavaScript

inductive Method where
  | get
  | head
  | post
  | put
  | patch
  | delete
  | other
deriving DecidableEq

/-- The routes, with the decoded parameters of their paths. -/
inductive Route where
  | healthz
  | login
  | logout
  | session
  | listLimits
  | resolveLimit
  | createLimit
  | updateLimit
  | deleteLimit
  | listServices
  | getService (name : String)
  | createService
  | editService (name : String)
  | listAudit
  | configHistory (configId : String)
  | usage
  | refund
  | reset
  | listReviews
  | approve (id : String)
  | reject (id : String)
  | actionLog
  | unmatched (underApi : Bool) (method : Method)
deriving DecidableEq

/-- The method of a route; `HEAD` is served as `GET`. -/
def Route.method : Route → Method
  | .healthz | .session | .listLimits | .resolveLimit | .listServices | .getService _
  | .listAudit | .configHistory _ | .usage | .listReviews | .actionLog => .get
  | .login | .logout | .createLimit | .createService | .refund | .reset | .approve _
  | .reject _ => .post
  | .updateLimit | .editService _ => .put
  | .deleteLimit => .delete
  | .unmatched _ method => method

/-- A request after the parsers of Express. -/
structure Request where
  route : Route
  /-- The cookie `quotaui_sid`. -/
  cookie : Value
  /-- The header `x-csrf-token`. -/
  csrfToken : Option String
  query : Fields
  /-- The fields of the body, or why it could not be parsed. -/
  body : Except String Fields

inductive CookieChange where
  | keep
  | set (id : String)
  | clear
deriving DecidableEq

structure Response where
  status : ℕ
  body : Value
  cookie : CookieChange

def Response.json (status : ℕ) (body : Value) : Response := ⟨status, body, .keep⟩

def Response.error (status : ℕ) (message : String) : Response :=
  .json status (.object [("error", .string message)])

inductive AuthMode where
  | dev
  | oidc
deriving DecidableEq

/-- What the app is created with. `dateParse` is `Date.parse`, whose formats are the engine's. -/
structure Deps where
  grants : String → Option User
  authMode : AuthMode
  policy : Policy
  reviewPolicy : ReviewPolicy
  dateParse : String → Option ℤ

section Json

def Review.json (review : Review) : Value :=
  let op : Fields :=
    match review.op with
    | .limitUpdate limit => ("kind", .string "limit:update") :: keyFields limit.key ++
        [("limit_value", .number limit.limitValue), ("time_unit", .string limit.timeUnit.text)]
    | .limitDelete key => ("kind", .string "limit:delete") :: keyFields key
    | .opRefund key amount => ("kind", .string "op:refund") :: keyFields key ++
        [("amount", .number amount)]
    | .opReset key => ("kind", .string "op:reset") :: keyFields key
  .object ([("id", .string review.id), ("op", .object op), ("reason", .string review.reason),
    ("initiator", .string review.initiator), ("status", .string review.status.text),
    ("createdAt", .string review.createdAt)] ++
    (review.decidedBy.map fun email => ("decidedBy", Value.string email)).toList ++
    (review.decidedAt.map fun text => ("decidedAt", Value.string text)).toList)

def ActionLogEntry.json (entry : ActionLogEntry) : Value :=
  let target : Fields :=
    match entry.target with
    | .limit key => keyFields key
    | .service serviceName => [("service_name", .string serviceName)]
  let details : Details → Fields
    | .limit limitValue timeUnit =>
        [("limit_value", .number limitValue), ("time_unit", .string timeUnit.text)]
    | .amount amount => [("amount", .number amount)]
    | .refunded amount => [("refunded", .number amount)]
    | .service displayName owner =>
        [("display_name", .string displayName), ("owner", .string owner)]
  let optional (name : String) (text : Option String) : Fields :=
    (text.map fun text => (name, Value.string text)).toList
  .object ([("actor", .string entry.actor), ("action", .string entry.action.text),
    ("target", .object target)] ++
    (entry.details.map fun it => ("details", Value.object (details it))).toList ++
    optional "request_id" entry.requestId ++ optional "initiator" entry.initiator ++
    optional "approver" entry.approver ++
    [("seq", .number (.ofInt entry.seq)), ("at", .string entry.at_)])

def sessionPayload (session : Session) : Value :=
  let grant (grant : Grant) : Value :=
    .object (("role", .string grant.role.text) ::
      (grant.service.map fun service => ("service", Value.string service)).toList)
  .object [("user", .object [("id", .string session.user.id),
      ("email", .string session.user.email)]),
    ("grants", .array (session.user.grants.map grant)),
    ("editable_services", .array ((editableServices session.user).map .string)),
    ("csrf_token", .string session.csrfToken)]

/-- `resp.next_page_token || null` -/
def nextPageToken (token : String) : Value :=
  if token = "" then .null else .string token

end Json

section Helpers

/-- `String(value)` -/
def stringOf (value : Value) : Async String :=
  match value.toText with
  | some text => pure text
  | none => throw (.error "Cannot convert object to primitive value")

/-- `Number(value)` -/
def numberOf (value : Value) : Async Number :=
  match value.toNumber with
  | some number => pure number
  | none => throw (.error "Cannot convert object to primitive value")

/-- `String(value ?? "")` -/
def stringOrEmpty (value : Value) : Async String :=
  match value with
  | .undefined => pure ""
  | .null => pure ""
  | value => stringOf value

/-- `value ? String(value) : ""` -/
def stringIf (value : Value) : Async String :=
  if value.truthy then stringOf value else pure ""

/-- `value ? Number(value) : 0` -/
def numberIf (value : Value) : Async Number :=
  if value.truthy then numberOf value else pure (.finite 0)

/-- Goes on if the user has the capability. -/
def guard (deps : Deps) (session : Session) (capability : Capability) (service : Option String)
    (granted : Async Response) : Async Response :=
  match authorize session.user capability service deps.policy with
  | .ok () => granted
  | .error reason =>
      pure (.json 403 (.object [("error", .string "forbidden"), ("reason", .string reason)]))

def parsed {α : Type} (result : Except (List String) α) (valid : α → Async Response) :
    Async Response :=
  match result with
  | .ok value => valid value
  | .error errors =>
      pure (.json 400 (.object [("errors", .array (errors.map .string))]))

def opContext (session : Session) : OpContext := ⟨session.user.email, none, none⟩

/-- Goes on unless the mutation needs a review, which is then created. -/
def reviewed (deps : Deps) (session : Session) (op : PendingOp) (direct : Async Response) :
    Async Response :=
  match reviewReason op deps.reviewPolicy with
  | none => direct
  | some reason => do
      let review ← .atomically fun moment store =>
        ReviewStore.create moment op session.user.email reason store
      pure (.json 202 (.object [("status", .string "pending_review"), ("review", review.json)]))

/-- `errorMiddleware` -/
def errorMiddleware : Thrown → Response
  | .rpcError httpStatus message code =>
      .json httpStatus (.object [("error", .string message),
        ("grpc_code", .number (.ofInt (grpcCode code)))])
  | .error message => .error 500 message

end Helpers

section Routers

variable (deps : Deps) (session : Session) (query body : Fields)

namespace LimitsRouter

def list : Async Response := do
  let serviceName ← stringOrEmpty (Value.property query "service_name")
  if serviceName = "" then pure (.error 400 "service_name is required")
  else guard deps session .limitsRead (some serviceName) do
    let customerId ← stringIf (Value.property query "customer_id")
    let rateLimitId ← stringIf (Value.property query "rate_limit_id")
    let pageSize ← numberIf (Value.property query "page_size")
    let pageToken ← stringIf (Value.property query "page_token")
    match ← call (.listLimits serviceName customerId rateLimitId pageSize pageToken) none with
    | .limits limits token =>
        pure (.json 200 (.object
          [("limits", .array (limits.map fun limit => .object (toLimitView limit none))),
            ("next_page_token", nextPageToken token)]))
    | _ => throw unexpectedReply

def resolve : Async Response :=
  parsed (validateKey query) fun key =>
    guard deps session .limitsRead (some key.serviceName) do
      try
        match ← call (.getLimit key true) none with
        | .resolvedLimit limit isDefault =>
            pure (.json 200 (.object (("configured", .boolean true) ::
              toLimitView limit (some isDefault))))
        | _ => throw unexpectedReply
      catch
        | .rpcError 404 _ _ =>
            pure (.json 200 (.object ([("configured", .boolean false),
              ("note", .string "unconfigured → allow (fail-open, parent §9)")] ++
              keyFields key)))
        | other => throw other

def create : Async Response :=
  parsed (validateLimit body) fun limit =>
    guard deps session .limitWrite (some limit.key.serviceName) do
      let view ← createLimit (opContext session) limit
      pure (.json 201 view)

def update : Async Response :=
  parsed (validateLimit body) fun limit =>
    guard deps session .limitWrite (some limit.key.serviceName)
      (reviewed deps session (.limitUpdate limit) do
        let view ← updateLimit (opContext session) limit
          (Value.property body "create_if_absent").truthy
        pure (.json 200 view))

def delete : Async Response :=
  parsed (validateKey body) fun key =>
    guard deps session .limitDelete (some key.serviceName)
      (reviewed deps session (.limitDelete key) do
        deleteLimit (opContext session) key (Value.property body "allow_missing").truthy
        pure (.json 204 .undefined))

end LimitsRouter

namespace ServicesRouter

def list : Async Response :=
  guard deps session .limitsRead none do
    let pageSize ← numberIf (Value.property query "page_size")
    let pageToken ← stringIf (Value.property query "page_token")
    match ← call (.listServices pageSize pageToken) none with
    | .services services token =>
        pure (.json 200 (.object [("services", .array (services.map toServiceView)),
          ("next_page_token", nextPageToken token)]))
    | _ => throw unexpectedReply

def get (name : String) : Async Response :=
  guard deps session .limitsRead none do
    match ← call (.getService name) none with
    | .service service => pure (.json 200 (toServiceView service))
    | _ => throw unexpectedReply

/-- Creating and editing a service are the same call. -/
def register (capability : Capability) (action : Action) (status : ℕ) (body : Fields) :
    Async Response :=
  parsed (validateServiceBody body) fun service =>
    guard deps session capability (some service.serviceName) do
      let message ← call (.registerService service) (some session.user.email)
      (opContext session).log action (.service service.serviceName)
        (some (.service service.displayName service.owner)) none
      match message with
      | .service service => pure (.json status (toServiceView service))
      | _ => throw unexpectedReply

def create : Async Response :=
  register deps session .serviceCreate .serviceCreate 201 body

/-- The name in the path wins over the body. -/
def edit (name : String) : Async Response :=
  register deps session .serviceEdit .serviceEdit 200 (("service_name", .string name) :: body)

end ServicesRouter

namespace AuditRouter

/-- The tuple to filter on, when both of its other parts are given. -/
def keyFilter (serviceName : String) : Async (Option LimitKey) :=
  let customerId := Value.property query "customer_id"
  let rateLimitId := Value.property query "rate_limit_id"
  if customerId.truthy && rateLimitId.truthy then do
    let customerId ← stringOf customerId
    let rateLimitId ← stringOf rateLimitId
    pure (some ⟨serviceName, customerId, rateLimitId⟩)
  else pure none

/-- The instant in seconds and nanoseconds; the remainder has the sign of the instant. -/
def isoToTimestamp (text : String) : Option WireTimestamp :=
  if text = "" then none
  else (deps.dateParse text).map fun millis => ⟨millis / 1000, millis.tmod 1000 * 1000000⟩

def list : Async Response := do
  let serviceName ← stringOrEmpty (Value.property query "service_name")
  if serviceName = "" then pure (.error 400 "service_name is required")
  else guard deps session .auditRead (some serviceName) do
    let key ← keyFilter query serviceName
    let configId ← numberIf (Value.property query "config_id")
    let since ← stringIf (Value.property query "since")
    let pageSize ← numberIf (Value.property query "page_size")
    let pageToken ← stringIf (Value.property query "page_token")
    match ← call (.listAuditEntries serviceName key configId (isoToTimestamp deps since) pageSize
      pageToken) none with
    | .auditEntries entries token => do
        let entries ← orThrow (entries.mapM toAuditView)
        let changedBy ← stringIf (Value.property query "changed_by")
        let operation ← stringIf (Value.property query "operation")
        let entries := entries.filter fun entry =>
          (changedBy = "" || entry.changedBy = changedBy) &&
            (operation = "" || entry.operation = toUpperCase operation)
        pure (.json 200 (.object [("entries", .array (entries.map AuditView.json)),
          ("next_page_token", nextPageToken token)]))
    | _ => throw unexpectedReply

def configHistory (configId : String) : Async Response := do
  let serviceName ← stringOrEmpty (Value.property query "service_name")
  if serviceName = "" then pure (.error 400 "service_name is required")
  else guard deps session .auditRead (some serviceName) do
    match ← call (.listAuditEntries serviceName none (.ofText configId) none (.finite 0) "")
      none with
    | .auditEntries entries _ => do
        let entries ← orThrow (entries.mapM toAuditView)
        pure (.json 200 (.object [("entries", .array (entries.map AuditView.json))]))
    | _ => throw unexpectedReply

end AuditRouter

namespace UsageRouter

def get : Async Response :=
  parsed (validateKey query) fun key =>
    guard deps session .usageRead (some key.serviceName) do
      let fetchedAt ← isoNow
      let view ← readUsage key fetchedAt
      pure (.json 200 view)

end UsageRouter

namespace OpsRouter

def refund : Async Response :=
  parsed (validateKey body) fun key =>
    match validateAmount (Value.property body "amount") with
    | .error message => pure (.error 400 message)
    | .ok amount =>
        guard deps session .opRefund (some key.serviceName)
          (reviewed deps session (.opRefund key amount) do
            let result ← Console.refund (opContext session) key amount
            pure (.json 200 result))

def reset : Async Response :=
  parsed (validateKey body) fun key =>
    guard deps session .opReset (some key.serviceName)
      (reviewed deps session (.opReset key) do
        let result ← resetWindow (opContext session) key
        pure (.json 200 result))

end OpsRouter

namespace ReviewsRouter

def list : Async Response :=
  guard deps session .reviewApprove none do
    let pending ← .atomically fun _ store => (store.reviews.listPending, store)
    pure (.json 200 (.object [("reviews", .array (pending.map Review.json))]))

def decide (id : String) (decision : ReviewStatus) (decided : Review → Async Response) :
    Async Response :=
  guard deps session .reviewApprove none do
    let outcome ← .atomically fun moment store =>
      ReviewStore.decide moment id session.user.email decision store
    match outcome with
    | .error refusal => pure (.error refusal.status refusal.error)
    | .ok review => decided review

/-- The change is applied as the approver, after the decision is recorded. -/
def approve (id : String) : Async Response :=
  decide deps session id .approved fun review => do
    let result ← executePendingOp
      ⟨session.user.email, some review.initiator, some session.user.email⟩ review.op
    pure (.json 200 (.object [("status", .string "approved"), ("review", review.json),
      ("result", result)]))

def reject (id : String) : Async Response :=
  decide deps session id .rejected fun review =>
    pure (.json 200 (.object [("status", .string "rejected"), ("review", review.json)]))

end ReviewsRouter

def actionLog : Async Response :=
  guard deps session .reviewApprove none do
    let entries ← .atomically fun _ store => (store.actionLog.list 200, store)
    pure (.json 200 (.object [("entries", .array (entries.map ActionLogEntry.json))]))

end Routers

/-- `POST /api/auth/login` -/
def devLogin (deps : Deps) (body : Fields) : Async Response :=
  match deps.authMode with
  | .oidc => pure (.error 404 "dev login disabled (AUTH_MODE=oidc)")
  | .dev => do
      let id ← stringOrEmpty (Value.property body "user")
      match deps.grants id with
      | none => pure (.error 401 ("unknown user '" ++ id ++ "'"))
      | some user => do
          let session ← .atomically fun moment store => SessionStore.create moment user store
          pure ⟨200, sessionPayload session, .set session.id⟩

/-- `POST /api/auth/logout` -/
def logout (cookie : Value) : Async Response := do
  .atomically fun _ store => ((), SessionStore.destroy cookie store)
  pure ⟨200, .object [("ok", .boolean true)], .clear⟩

/-- The routes behind `requireAuth` and `requireCsrf`. -/
def api (deps : Deps) (session : Session) (request : Request) (body : Fields) : Async Response :=
  match request.route with
  | .session => pure (.json 200 (sessionPayload session))
  | .listLimits => LimitsRouter.list deps session request.query
  | .resolveLimit => LimitsRouter.resolve deps session request.query
  | .createLimit => LimitsRouter.create deps session body
  | .updateLimit => LimitsRouter.update deps session body
  | .deleteLimit => LimitsRouter.delete deps session body
  | .listServices => ServicesRouter.list deps session request.query
  | .getService name => ServicesRouter.get deps session name
  | .createService => ServicesRouter.create deps session body
  | .editService name => ServicesRouter.edit deps session body name
  | .listAudit => AuditRouter.list deps session request.query
  | .configHistory configId => AuditRouter.configHistory deps session request.query configId
  | .usage => UsageRouter.get deps session request.query
  | .refund => OpsRouter.refund deps session body
  | .reset => OpsRouter.reset deps session body
  | .listReviews => ReviewsRouter.list deps session
  | .approve id => ReviewsRouter.approve deps session id
  | .reject id => ReviewsRouter.reject deps session id
  | .actionLog => actionLog deps session
  | _ => pure (.json 404 .undefined)

def Method.needsCsrf (method : Method) : Bool :=
  [Method.post, .put, .patch, .delete].contains method

/-- `requireCsrf`: the header is there, is not empty and is the token of the session. -/
def csrfOk (session : Session) (request : Request) : Bool :=
  !request.route.method.needsCsrf ||
    request.csrfToken.any fun token => token != "" && token = session.csrfToken

/-- The app without its error middleware. -/
def routes (deps : Deps) (request : Request) : Async Response :=
  match request.body with
  | .error message => throw (.error message)
  | .ok body =>
      match request.route with
      | .healthz => pure (.json 200 (.object [("status", .string "ok")]))
      | .login => devLogin deps body
      | .logout => logout request.cookie
      | .unmatched false _ => pure (.json 404 .undefined)
      | _ => do
          match ← .atomically fun _ store => (SessionStore.get store request.cookie, store) with
          | none => pure (.error 401 "not authenticated")
          | some session =>
              if csrfOk session request then api deps session request body
              else pure (.error 403 "bad or missing CSRF token")

/-- `createApp` -/
def app (deps : Deps) (request : Request) : Async Response :=
  tryCatch (routes deps request) fun error => pure (errorMiddleware error)

end RateLimiter.Console
