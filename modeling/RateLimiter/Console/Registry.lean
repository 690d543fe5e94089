import RateLimiter.Console.Attribution
import RateLimiter.Console.ReviewedPath
import RateLimiter.Management.KeyedMap

/-!
# The service registry as the console shows it

One request after the other reaches the console, whose calls `LimitAdmin`
answers. The console takes `RegisterService` for an upsert and edits a service
with it. The control plane inserts, so the edit of a registered service is
refused, and the registry is a map that can be created in but not edited.
-/

namespace RateLimiter.Console

open EventLoop EventLoop.Handler JavaScript Machine Management

section Wire

/-- `toStatusRuntimeException`, as the client receives it. -/
def toServiceError (exception : AppException) : ServiceError :=
  .ofStatus exception.code exception.message

def toServiceInfo (row : ServiceRow) : ServiceInfo :=
  ⟨row.serviceName, row.displayName, row.owner⟩

def toRawLimit (limit : Management.Limit) : RawLimit :=
  ⟨limit.key, limit.limitValue, ProtoMappers.toTimeUnitLabel (.known limit.timeUnit),
    limit.configId⟩

def toRawStruct (struct : List (String × Management.StructValue)) : List (String × StructValue) :=
  struct.map fun field =>
    (field.1, match field.2 with
      | .null => .nullValue
      | .number value => .numberValue (.ofInt value)
      | .text value => .stringValue value)

def toRawAudit (entry : AuditEntry) : RawAudit :=
  ⟨entry.auditId, entry.configId, entry.operation, entry.oldRow.map toRawStruct,
    entry.newRow.map toRawStruct, entry.changedBy,
    some ⟨entry.changedAt.seconds, entry.changedAt.nanos⟩⟩

def toMessage : AdminResponse → Message
  | .limit limit => .limit (toRawLimit limit)
  | .deleted => .deleted
  | .resolvedLimit limit isDefault => .resolvedLimit (toRawLimit limit) isDefault
  | .limits limits token => .limits (limits.map toRawLimit) token
  | .service row => .service (toServiceInfo row)
  | .services rows token => .services (rows.map toServiceInfo) token
  | .auditEntries entries token => .auditEntries (entries.map toRawAudit) token

def toReply (result : Except AppException AdminResponse) : Reply :=
  (result.mapError toServiceError).map toMessage

end Wire

/-- A request about one service, as the console reads it. -/
inductive Ask where
  | create (service : ServiceInfo)
  | edit (service : ServiceInfo)
  | look (name : String)
deriving DecidableEq

namespace Ask

def name : Ask → String
  | .create service | .edit service => service.serviceName
  | .look name => name

def capability : Ask → Capability
  | .create _ => .serviceCreate
  | .edit _ => .serviceEdit
  | .look _ => .limitsRead

/-- The service that the capability is needed for; reading is not per service. -/
def scope : Ask → Option String
  | .create service | .edit service => some service.serviceName
  | .look _ => none

end Ask

def Request.ask? (request : Request) : Option Ask := do
  let body ← request.body.toOption
  match request.route with
  | .createService => (validateServiceBody body).toOption.map .create
  | .editService name =>
      (validateServiceBody (("service_name", .string name) :: body)).toOption.map .edit
  | .getService name => some (.look name)
  | _ => none

/-- A request with the moments of its turns, the connection that its call borrows and the time of
the database. -/
structure Visit where
  request : Request
  moments : ℕ → Moment
  connection : ℕ
  now : ℤ

/-- The console and the control plane between two requests, with the values of the last request for
each name that was told that it succeeded. -/
structure World where
  plane : ControlPlane
  store : Store
  confirmed : String → Option ServiceInfo

/-- The registered service of a name. -/
def serviceOf (plane : ControlPlane) (name : String) : Option ServiceInfo :=
  (plane.database.services.find? fun row => row.serviceName = name).map toServiceInfo

def succeeded (outcome : Except Thrown Response) : Bool :=
  match outcome with
  | .ok response => 200 ≤ response.status && response.status < 300
  | .error _ => false

namespace World

/-- Before the first request, what is registered counts as confirmed. -/
def initial (plane : ControlPlane) (store : Store) : World :=
  ⟨plane, store, serviceOf plane⟩

/-- What a successful request confirms. -/
def confirm (confirmed : String → Option ServiceInfo) : Ask → String → Option ServiceInfo
  | .create service | .edit service => Function.update confirmed service.serviceName (some service)
  | .look _ => confirmed

variable (deployment : Deployment) (enforcer : Call → Reply)

/-- The backends: `LimitAdmin` over a database that is there, and the enforcer for its own calls. -/
def answer (visit : Visit) (plane : ControlPlane) (call : Call) : Reply × ControlPlane :=
  match call.rpc.toAdmin? with
  | none => (enforcer call, plane)
  | some request =>
      let outcome := serve deployment.backend plane
        ⟨deployment.header, deployment.authorizer, visit.connection, ⟨visit.now, fun _ => none⟩,
          request⟩
      (toReply outcome.1, outcome.2)

def exchange (world : World) (visit : Visit) :
    Conversation ControlPlane Store Call Reply Thrown Response :=
  (app deployment.deps visit.request).converse (answer deployment enforcer visit) visit.moments 0
    world.plane world.store

def step (world : World) (visit : Visit) : World :=
  let exchange := world.exchange deployment enforcer visit
  ⟨exchange.state, exchange.store,
    match visit.request.ask? with
    | some ask =>
        if succeeded exchange.outcome then confirm world.confirmed ask else world.confirmed
    | none => world.confirmed⟩

def run (plane : ControlPlane) (store : Store) (visits : List Visit) : World :=
  after (step deployment enforcer) (initial plane store) visits

/-- The registry takes a request as a map that is created in and edited. -/
def MapLike (world : World) (visit : Visit) : Prop :=
  match visit.request.ask? with
  | some (.create service) =>
      (succeeded (world.exchange deployment enforcer visit).outcome = true ↔
        serviceOf world.plane service.serviceName = none) ∧
      (succeeded (world.exchange deployment enforcer visit).outcome = true →
        serviceOf (world.step deployment enforcer visit).plane =
          Function.update (serviceOf world.plane) service.serviceName (some service))
  | some (.edit service) => (serviceOf world.plane service.serviceName).isSome = true →
      succeeded (world.exchange deployment enforcer visit).outcome = true ∧
      serviceOf (world.step deployment enforcer visit).plane =
        Function.update (serviceOf world.plane) service.serviceName (some service)
  | some (.look name) => ∀ service, world.confirmed name = some service →
      (world.exchange deployment enforcer visit).outcome =
        .ok (.json 200 (toServiceView service))
  | none => True

/-- The condition on a request: an edit names no registered service, and the values of a new one
are texts that the database can hold. -/
def Creates (world : World) (visit : Visit) : Prop :=
  match visit.request.ask? with
  | some (.create service) => serviceOf world.plane service.serviceName = none →
      isPostgresText service.displayName = true ∧ isPostgresText service.owner = true
  | some (.edit service) => serviceOf world.plane service.serviceName = none
  | _ => True

/-- A request of a user who may make it, for a valid name. -/
structure Authorised (store : Store) (request : Request) (session : Session) (ask : Ask) :
    Prop where
  authentic : Authentic store request session
  isAsk : request.ask? = some ask
  granted : Granted deployment.deps session.user ask.capability ask.scope
  valid : LimitValidator.validateServiceName ask.name = .ok ()

variable {deployment enforcer} {world : World} {visit : Visit} {session : Session} {ask : Ask}
  {principal : Principal} {service : ServiceInfo}

theorem serviceOf_eq_none_iff {plane : ControlPlane} {name : String} :
    serviceOf plane name = none ↔ plane.database.registers name = false := by
  simp [serviceOf, Database.registers]

/-- A service that the control plane inserts. -/
def Insertable (plane : ControlPlane) (service : ServiceInfo) : Prop :=
  serviceOf plane service.serviceName = none ∧
    isPostgresText service.displayName = true ∧ isPostgresText service.owner = true

theorem isPostgresText_of_validateServiceName {text : String}
    (valid : LimitValidator.validateServiceName text = .ok ()) : isPostgresText text = true := by
  by_contra isControl
  have mem : Char.ofNat 0 ∈ text.toList := by
    simpa [isPostgresText] using isControl
  have grammar := (LimitValidator.validateText_eq_ok_iff.mp valid).2
  rcases LimitValidator.mem_of_matchesIdentifier grammar mem with alphanumeric | extra
  · exact absurd alphanumeric (by decide)
  · exact absurd extra (by decide)

theorem nonEmpty_of_validateServiceBody {body : Fields}
    (valid : validateServiceBody body = .ok service) :
    service.displayName ≠ "" ∧ service.owner ≠ "" := by
  have nonEmpty : ∀ {value : Value} {text : String}, nonEmptyString? value = some text →
      text ≠ "" := by
    intro value text isText
    cases value with
    | string other =>
        simp only [nonEmptyString?, Option.ite_none_left_eq_some, Option.some.injEq] at isText
        rw [← isText.2]
        exact isText.1
    | _ => simp [nonEmptyString?] at isText
  simp only [validateServiceBody] at valid
  split at valid
  · rename_i name displayName owner isName isDisplayName isOwner
    cases valid
    exact ⟨nonEmpty isDisplayName, nonEmpty isOwner⟩
  · simp at valid

theorem serviceOf_insert {plane : ControlPlane} {pool : ℕ → Connection}
    (isNew : serviceOf plane service.serviceName = none) :
    serviceOf ⟨pool, { plane.database with services := plane.database.services ++
        [⟨service.serviceName, service.displayName, service.owner⟩] }⟩ =
      Function.update (serviceOf plane) service.serviceName (some service) := by
  funext name
  by_cases isName : name = service.serviceName
  · subst isName
    have absent : plane.database.services.find? (fun row => row.serviceName =
        service.serviceName) = none := by
      simpa [serviceOf] using isNew
    simp [serviceOf, List.find?_append, absent, toServiceInfo]
  · have other : ¬service.serviceName = name := fun same => isName same.symm
    simp [serviceOf, List.find?_append, other, Function.update_of_ne isName]

theorem ask_cases {request : Request} (isAsk : request.ask? = some ask) :
    ∃ body, request.body = .ok body ∧
      ((∃ service, request.route = .createService ∧ validateServiceBody body = .ok service ∧
        ask = .create service) ∨
      (∃ service name, request.route = .editService name ∧
        validateServiceBody (("service_name", .string name) :: body) = .ok service ∧
        ask = .edit service) ∨
      ∃ name, request.route = .getService name ∧ ask = .look name) := by
  simp only [Request.ask?, Option.bind_eq_bind, Option.bind_eq_some_iff] at isAsk
  rcases isAsk with ⟨body, hasBody, isAsk⟩
  refine ⟨body, ok_of_toOption hasBody, ?_⟩
  split at isAsk
  · rename_i isRoute
    rcases Option.map_eq_some_iff.mp isAsk with ⟨service, isService, rfl⟩
    exact Or.inl ⟨service, isRoute, ok_of_toOption isService, rfl⟩
  · rename_i name isRoute
    rcases Option.map_eq_some_iff.mp isAsk with ⟨service, isService, rfl⟩
    exact Or.inr (Or.inl ⟨service, name, isRoute, ok_of_toOption isService, rfl⟩)
  · rename_i name isRoute
    cases isAsk
    exact Or.inr (Or.inr ⟨name, isRoute, rfl⟩)
  · simp at isAsk

/-- A registration that is admitted comes down to the insert. -/
theorem registerService_cases {conditions : Conditions} {connection : Connection}
    {database : Database} {row : ServiceRow}
    (healthy : ∀ point, conditions.faults point = none)
    (isAdmin : principal.platformAdmin = true)
    (valid : LimitValidator.validateServiceName row.serviceName = .ok ())
    (nonEmpty : row.displayName ≠ "" ∧ row.owner ≠ "") :
    (database.registers row.serviceName = false ∧ isPostgresText row.displayName = true ∧
        isPostgresText row.owner = true ∧
      LimitAdminService.registerService principal conditions connection database row =
        (.ok (.service row), connection,
          { database with services := database.services ++ [row] })) ∨
    (¬(database.registers row.serviceName = false ∧ isPostgresText row.displayName = true ∧
        isPostgresText row.owner = true) ∧
      ∃ error, LimitAdminService.registerService principal conditions connection database row =
        (.error error, connection, database)) := by
  have isText := isPostgresText_of_validateServiceName valid
  have admitted : (do
      Authorizer.requirePlatformAdmin principal
      LimitValidator.validateServiceName row.serviceName
      LimitAdminService.requireNonEmpty "display_name" row.displayName
      LimitAdminService.requireNonEmpty "owner" row.owner) = Except.ok () := by
    simp only [Authorizer.requirePlatformAdmin, isAdmin, valid, LimitAdminService.requireNonEmpty,
      nonEmpty.1, nonEmpty.2]
    rfl
  simp only [LimitAdminService.registerService, admitted, LimitAdminService.guarded,
    ServiceRepository.register, healthy, execute_healthy healthy]
  by_cases texts : isPostgresText row.displayName = true ∧ isPostgresText row.owner = true
  · cases registered : database.registers row.serviceName with
    | false =>
        have isNew : (database.services.any fun service =>
          service.serviceName = row.serviceName) = false := registered
        simp [Database.insertService, isText, texts.1, texts.2, isNew]
    | true =>
        have isTaken : (database.services.any fun service =>
          service.serviceName = row.serviceName) = true := registered
        simp [Database.insertService, isText, texts.1, texts.2, isTaken, SqlErrors.translate,
          SqlException.uniqueViolation, AppException.of]
  · have isRefused : Database.insertService row database = (.error .invalidText, database) := by
      rw [Database.insertService, if_neg]
      simpa [isText] using texts
    refine Or.inr ⟨fun free => texts free.2, ?_⟩
    simp [isRefused, SqlErrors.translate, SqlException.invalidText, AppException.of]

/-- The outcome of a registration, by the reply to its call. -/
def registrationOf (status : ℕ) : Reply → Except Thrown Response
  | .ok (.service service) => .ok (.json status (toServiceView service))
  | .ok _ => .error unexpectedReply
  | .error error => .error (rpcError error)

theorem converse_register {State : Type} {backend : State → Call → Reply × State} {deps : Deps}
    {moments : ℕ → Moment} {turn : ℕ} {state later : State} {store : Store} {body : Fields}
    {capability : Capability} {action : Action} {status : ℕ} {reply : Reply}
    (valid : validateServiceBody body = .ok service)
    (granted : Granted deps session.user capability (some service.serviceName))
    (isReply : backend state ⟨.registerService service, some session.user.email⟩ =
      (reply, later)) :
    ∃ exchanges store', (ServicesRouter.register deps session capability action status
        body).converse backend moments turn state store =
      ⟨exchanges, registrationOf status reply, later, store'⟩ := by
  simp only [ServicesRouter.register, valid, parsed, guard_of_granted granted, converse_bind,
    converse_call, isReply]
  cases reply with
  | error failure => exact ⟨_, _, rfl⟩
  | ok message => cases message <;> exact ⟨_, _, rfl⟩

theorem succeeded_errorMiddleware (failure : ServiceError) :
    succeeded (.ok (errorMiddleware (rpcError failure))) = false := by
  rcases failure with ⟨code, details, message⟩
  cases code <;> rfl

/-- A read is answered from the tables, which it leaves alone. -/
theorem answer_read {plane : ControlPlane} {rpc : Rpc} {actor : Option String}
    {request : ReadRequest} (isPrincipal : deployment.principal = .ok principal)
    (isRead : rpc.toAdmin? = some (.read request)) :
    answer deployment enforcer visit plane ⟨rpc, actor⟩ =
      (toReply (LimitAdminService.read deployment.backend principal ⟨visit.now, fun _ => none⟩
        plane.database request), plane) := by
  have authenticated : authenticateCall deployment.authorizer deployment.header = .ok principal :=
    isPrincipal
  simp only [answer, isRead, serve, authenticated]

section Answers

variable (isPrincipal : deployment.principal = .ok principal)
  (isAdmin : principal.platformAdmin = true)

include isPrincipal isAdmin

/-- `RegisterService` stores a service whose name is free and refuses any other. -/
theorem answer_registerService {plane : ControlPlane} {actor : Option String}
    (valid : LimitValidator.validateServiceName service.serviceName = .ok ())
    (nonEmpty : service.displayName ≠ "" ∧ service.owner ≠ "") :
    (Insertable plane service ∧ ∃ later,
      answer deployment enforcer visit plane ⟨.registerService service, actor⟩ =
        (.ok (.service service), later) ∧
      serviceOf later =
        Function.update (serviceOf plane) service.serviceName (some service)) ∨
    (¬Insertable plane service ∧ ∃ failure later,
      answer deployment enforcer visit plane ⟨.registerService service, actor⟩ =
        (.error failure, later) ∧ serviceOf later = serviceOf plane) := by
  have authenticated : authenticateCall deployment.authorizer deployment.header = .ok principal :=
    isPrincipal
  simp only [answer, Rpc.toAdmin?, serve, authenticated, LimitAdminService.write, Insertable,
    serviceOf_eq_none_iff]
  rcases @registerService_cases principal ⟨visit.now, fun _ => none⟩
    (plane.pool visit.connection) plane.database
    ⟨service.serviceName, service.displayName, service.owner⟩ (fun _ => rfl) isAdmin valid
    nonEmpty with ⟨isNew, displayName, owner, isStored⟩ | ⟨isRefusal, error, isRefused⟩
  · rw [isStored]
    refine Or.inl ⟨⟨isNew, displayName, owner⟩, _, rfl, ?_⟩
    exact serviceOf_insert (serviceOf_eq_none_iff.mpr isNew)
  · rw [isRefused]
    exact Or.inr ⟨isRefusal, _, _, rfl, rfl⟩

/-- `GetService` reads the registry. -/
theorem answer_getService {plane : ControlPlane} {actor : Option String} {name : String}
    (valid : LimitValidator.validateServiceName name = .ok ()) :
    ∃ reply, answer deployment enforcer visit plane ⟨.getService name, actor⟩ = (reply, plane) ∧
      ∀ service, serviceOf plane name = some service → reply = .ok (.service service) := by
  have isText := isPostgresText_of_validateServiceName valid
  refine ⟨_, answer_read isPrincipal rfl, ?_⟩
  simp only [LimitAdminService.read, LimitAdminService.getService, valid,
    Authorizer.requireViewer, Principal.canView, isAdmin, ServiceRepository.get, query, bindTexts]
  intro service isService
  rcases Option.map_eq_some_iff.mp isService with ⟨row, found, rfl⟩
  simp only [isText, found, List.all_cons, List.all_nil, Bool.and_true, if_true, Bool.true_or]
  rfl

/-- A create or an edit succeeds when the service can be inserted, and changes nothing else. -/
theorem exchange_register {status : ℕ} {capability : Capability} {action : Action} {body : Fields}
    (authentic : Authentic world.store visit.request session)
    (hasBody : visit.request.body = .ok body)
    (behindAuth : visit.request.route.behindAuth = true)
    (isApi : ∃ fields, validateServiceBody fields = .ok service ∧
      api deployment.deps session visit.request body =
        ServicesRouter.register deployment.deps session capability action status fields)
    (granted : Granted deployment.deps session.user capability (some service.serviceName))
    (isStatus : 200 ≤ status ∧ status < 300)
    (valid : LimitValidator.validateServiceName service.serviceName = .ok ()) :
    (Insertable world.plane service ∧
      succeeded (world.exchange deployment enforcer visit).outcome = true ∧
      serviceOf (world.exchange deployment enforcer visit).state =
        Function.update (serviceOf world.plane) service.serviceName (some service)) ∨
    (¬Insertable world.plane service ∧
      succeeded (world.exchange deployment enforcer visit).outcome = false ∧
      serviceOf (world.exchange deployment enforcer visit).state = serviceOf world.plane) := by
  rcases isApi with ⟨fields, isService, isApi⟩
  rw [exchange, converse_app authentic hasBody behindAuth, isApi]
  rcases @answer_registerService deployment enforcer visit principal service isPrincipal isAdmin
    world.plane (some session.user.email) valid (nonEmpty_of_validateServiceBody isService) with
    ⟨isNew, later, isReply, stores⟩ | ⟨isRefused, failure, later, isReply, same⟩
  · rcases converse_register isService granted isReply with ⟨_, _, isExchange⟩
    rw [isExchange]
    refine Or.inl ⟨isNew, ?_, stores⟩
    simp [succeeded, Conversation.recover, registrationOf, Response.json, isStatus]
  · rcases converse_register isService granted isReply with ⟨_, _, isExchange⟩
    rw [isExchange]
    exact Or.inr ⟨isRefused, succeeded_errorMiddleware failure, same⟩

variable (enforcer)

theorem exchange_of_write (authorised : Authorised deployment world.store visit.request session ask)
    (isWrite : ask = .create service ∨ ask = .edit service) :
    (Insertable world.plane service ∧
      succeeded (world.exchange deployment enforcer visit).outcome = true ∧
      serviceOf (world.exchange deployment enforcer visit).state =
        Function.update (serviceOf world.plane) service.serviceName (some service)) ∨
    (¬Insertable world.plane service ∧
      succeeded (world.exchange deployment enforcer visit).outcome = false ∧
      serviceOf (world.exchange deployment enforcer visit).state = serviceOf world.plane) := by
  rcases authorised with ⟨authentic, isAsk, granted, valid⟩
  rcases ask_cases isAsk with
    ⟨body, hasBody, ⟨_, isRoute, isService, rfl⟩ | ⟨_, name, isRoute, isService, rfl⟩ |
      ⟨_, isRoute, rfl⟩⟩
  · rcases isWrite with isCreate | isEdit
    · cases isCreate
      have isApi : api deployment.deps session visit.request body =
          ServicesRouter.create deployment.deps session body := by
        rw [api, isRoute]
      exact exchange_register isPrincipal isAdmin authentic hasBody (by rw [isRoute]; rfl)
        ⟨_, isService, isApi⟩ granted (by decide) valid
    · simp at isEdit
  · rcases isWrite with isCreate | isEdit
    · simp at isCreate
    · cases isEdit
      have isApi : api deployment.deps session visit.request body =
          ServicesRouter.edit deployment.deps session body name := by
        rw [api, isRoute]
      exact exchange_register isPrincipal isAdmin authentic hasBody (by rw [isRoute]; rfl)
        ⟨_, isService, isApi⟩ granted (by decide) valid
  · simp at isWrite

theorem exchange_of_look {name : String}
    (authorised : Authorised deployment world.store visit.request session (.look name)) :
    (world.exchange deployment enforcer visit).state = world.plane ∧
    ∀ service, serviceOf world.plane name = some service →
      (world.exchange deployment enforcer visit).outcome =
        .ok (.json 200 (toServiceView service)) := by
  rcases authorised with ⟨authentic, isAsk, granted, valid⟩
  rcases ask_cases isAsk with
    ⟨body, hasBody, ⟨_, _, _, isLook⟩ | ⟨_, _, _, _, isLook⟩ | ⟨_, isRoute, isLook⟩⟩
  · simp at isLook
  · simp at isLook
  · cases isLook
    rcases @answer_getService deployment enforcer visit principal isPrincipal isAdmin world.plane
      none name valid with ⟨reply, isReply, found⟩
    have isApi : api deployment.deps session visit.request body =
        ServicesRouter.get deployment.deps session name := by
      rw [api, isRoute]
    have reads : Granted deployment.deps session.user .limitsRead none := granted
    rw [exchange, converse_app authentic hasBody (by rw [isRoute]; rfl), isApi,
      ServicesRouter.get, guard_of_granted reads, converse_bind, converse_call, isReply]
    constructor
    · rw [Conversation.state_recover]
      cases reply with
      | error failure => rfl
      | ok message => cases message <;> rfl
    · intro service isService
      rw [found service isService]
      rfl

theorem confirmed_step (consistent : world.confirmed = serviceOf world.plane)
    (authorised : Authorised deployment world.store visit.request session ask) :
    (world.step deployment enforcer visit).confirmed =
      serviceOf (world.step deployment enforcer visit).plane := by
  have ofWrite : ∀ service, ask = .create service ∨ ask = .edit service →
      (world.step deployment enforcer visit).confirmed =
        serviceOf (world.step deployment enforcer visit).plane := by
    intro service isWrite
    have confirms : confirm (serviceOf world.plane) ask =
        Function.update (serviceOf world.plane) service.serviceName (some service) := by
      rcases isWrite with rfl | rfl <;> rfl
    simp only [step, authorised.isAsk, consistent, confirms]
    rcases exchange_of_write enforcer isPrincipal isAdmin authorised isWrite with
      ⟨_, succeeds, stores⟩ | ⟨_, fails, same⟩
    · rw [succeeds, stores, if_pos rfl]
    · simp [fails, same]
  cases ask with
  | create service => exact ofWrite service (Or.inl rfl)
  | edit service => exact ofWrite service (Or.inr rfl)
  | look name =>
      simp only [step, authorised.isAsk, confirm, consistent, ite_self]
      rw [(exchange_of_look enforcer isPrincipal isAdmin authorised).1]

theorem mapLike_iff (consistent : world.confirmed = serviceOf world.plane)
    (authorised : Authorised deployment world.store visit.request session ask) :
    MapLike deployment enforcer world visit ↔ Creates world visit := by
  cases ask with
  | create service =>
      simp only [MapLike, Creates, authorised.isAsk, step]
      rcases exchange_of_write enforcer isPrincipal isAdmin authorised (Or.inl rfl) with
        ⟨⟨isNew, texts⟩, succeeds, stores⟩ | ⟨isRefused, fails, _⟩
      · simp [isNew, texts, succeeds, stores]
      · simp only [fails, Bool.false_eq_true, false_iff, false_implies, and_true]
        constructor
        · intro isTaken isNew
          exact absurd isNew isTaken
        · intro texts isNew
          exact isRefused ⟨isNew, texts isNew⟩
  | edit service =>
      simp only [MapLike, Creates, authorised.isAsk, step]
      rcases exchange_of_write enforcer isPrincipal isAdmin authorised (Or.inr rfl) with
        ⟨⟨isNew, _⟩, _, _⟩ | ⟨_, fails, _⟩
      · simp [isNew]
      · simp [fails]
  | look name =>
      simp only [MapLike, Creates, authorised.isAsk, iff_true, consistent]
      exact (exchange_of_look enforcer isPrincipal isAdmin authorised).2

end Answers

/-- The registry behaves as a map that is created in and edited for exactly those sequences of
authorised requests in which every edit is of a name that is not registered and every new service
has values that the database can hold. -/
theorem registry_map_exact (deployment : Deployment) (enforcer : Call → Reply)
    (principal : Principal) (isPrincipal : deployment.principal = .ok principal)
    (isAdmin : principal.platformAdmin = true) (plane : ControlPlane) (store : Store)
    (visits : List Visit)
    (authorised : ∀ turn visit, visits[turn]? = some visit → ∃ session ask,
      Authorised deployment (run deployment enforcer plane store (visits.take turn)).store
        visit.request session ask) :
    (∀ turn visit, visits[turn]? = some visit → MapLike deployment enforcer
      (run deployment enforcer plane store (visits.take turn)) visit) ↔
    ∀ turn visit, visits[turn]? = some visit →
      Creates (run deployment enforcer plane store (visits.take turn)) visit := by
  have consistent : ∀ turn ≤ visits.length,
      (run deployment enforcer plane store (visits.take turn)).confirmed =
        serviceOf (run deployment enforcer plane store (visits.take turn)).plane := by
    intro turn inside
    induction turn with
    | zero => rfl
    | succ turn ih =>
        have isVisit : visits[turn]? = some visits[turn] := List.getElem?_eq_getElem inside
        rcases authorised turn _ isVisit with ⟨session, ask, isAuthorised⟩
        have next := confirmed_step enforcer isPrincipal isAdmin (ih (Nat.le_of_lt inside))
          isAuthorised
        rw [List.take_succ_eq_append_getElem inside, run, after_concat]
        exact next
  have same : ∀ turn visit, visits[turn]? = some visit →
      (MapLike deployment enforcer (run deployment enforcer plane store (visits.take turn))
          visit ↔ Creates (run deployment enforcer plane store (visits.take turn)) visit) := by
    intro turn visit isVisit
    have inside := (List.getElem?_eq_some_iff.mp isVisit).1
    rcases authorised turn visit isVisit with ⟨session, ask, isAuthorised⟩
    exact mapLike_iff enforcer isPrincipal isAdmin (consistent turn (Nat.le_of_lt inside))
      isAuthorised
  constructor
  · intro mapLike turn visit isVisit
    exact (same turn visit isVisit).mp (mapLike turn visit isVisit)
  · intro creates turn visit isVisit
    exact (same turn visit isVisit).mpr (creates turn visit isVisit)

section Sample

def sampleVisit (route : Route) (body : Fields) : Visit :=
  ⟨sampleRequest route "alice" body, sampleMoments, 0, 5⟩

def samplePost : Visit :=
  sampleVisit .createService [("service_name", .string "search"),
    ("display_name", .string "Search"), ("owner", .string "team-search")]

def samplePut : Visit :=
  sampleVisit (.editService "search") [("display_name", .string "Site search"),
    ("owner", .string "team-search")]

def sampleGet : Visit := sampleVisit (.getService "search") []

def sampleRun (visits : List Visit) : World :=
  run (System.sampleDeployment "svc:quotaui") (fun _ => .error ⟨.unavailable, "", ""⟩)
    ⟨fun _ => ⟨none⟩, .empty⟩ sampleStore visits

/-- The operator may create the service and then look at it or edit it. -/
theorem sampleRun_authorised {last : Visit} (isLast : last = sampleGet ∨ last = samplePut)
    (turn : ℕ) (visit : Visit) (isVisit : [samplePost, last][turn]? = some visit) :
    ∃ session ask, Authorised (System.sampleDeployment "svc:quotaui")
      (sampleRun ([samplePost, last].take turn)).store visit.request session ask := by
  have live : ∀ prior ∈ [[], [samplePost]],
      SessionStore.get (sampleRun prior).store (.string "sid-alice") = some operatorSession := by
    decide +kernel
  match turn with
  | 0 =>
      cases isVisit
      exact ⟨operatorSession, .create ⟨"search", "Search", "team-search"⟩,
        ⟨live [] (by simp), rfl⟩, by decide +kernel, rfl, rfl⟩
  | 1 =>
      cases isVisit
      rcases isLast with rfl | rfl
      · exact ⟨operatorSession, .look "search", ⟨live _ (by simp), rfl⟩, rfl, rfl, rfl⟩
      · exact ⟨operatorSession, .edit ⟨"search", "Site search", "team-search"⟩,
          ⟨live _ (by simp), rfl⟩, by decide +kernel, rfl, rfl⟩
  | turn + 2 => simp at isVisit

theorem registry_map_exact_sample :
    MapLike (System.sampleDeployment "svc:quotaui") (fun _ => .error ⟨.unavailable, "", ""⟩)
      (sampleRun [samplePost]) sampleGet := by
  apply (registry_map_exact (System.sampleDeployment "svc:quotaui")
    (fun _ => .error ⟨.unavailable, "", ""⟩) ⟨"svc:quotaui", [], [], true⟩ (by decide +kernel) rfl
    ⟨fun _ => ⟨none⟩, .empty⟩ sampleStore [samplePost, sampleGet]
    (sampleRun_authorised (Or.inl rfl))).mpr _ 1 sampleGet rfl
  intro turn visit isVisit
  match turn with
  | 0 =>
      cases isVisit
      intro _
      decide +kernel
  | 1 =>
      cases isVisit
      trivial
  | turn + 2 => simp at isVisit

/-- The edit of the service that was just created is refused. -/
theorem registered_edit_refused :
    (System.sampleDeployment "svc:quotaui").principal = .ok ⟨"svc:quotaui", [], [], true⟩ ∧
    (∀ turn visit, [samplePost, samplePut][turn]? = some visit → ∃ session ask,
      Authorised (System.sampleDeployment "svc:quotaui")
        (sampleRun ([samplePost, samplePut].take turn)).store visit.request session ask) ∧
    ¬MapLike (System.sampleDeployment "svc:quotaui") (fun _ => .error ⟨.unavailable, "", ""⟩)
      (sampleRun [samplePost]) samplePut := by
  refine ⟨by decide +kernel, sampleRun_authorised (Or.inr rfl), ?_⟩
  intro mapLike
  have registered : (serviceOf (sampleRun [samplePost]).plane "search").isSome = true := by
    decide +kernel
  have refused : succeeded ((sampleRun [samplePost]).exchange
      (System.sampleDeployment "svc:quotaui") (fun _ => .error ⟨.unavailable, "", ""⟩)
      samplePut).outcome = false := by decide +kernel
  have isEdit : samplePut.request.ask? =
      some (.edit ⟨"search", "Site search", "team-search"⟩) := by decide +kernel
  simp only [MapLike, isEdit] at mapLike
  exact absurd (mapLike registered).1 (by simp [refused])

end Sample

end World

end RateLimiter.Console
