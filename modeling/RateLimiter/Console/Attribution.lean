import RateLimiter.Console.Authority
import RateLimiter.Management.Accountability

/-!
# Who the audit trail names

The console and the control plane together: the calls that the console sends to
`LimitAdmin` reach it over the network, at most once each and at any later
time. Each carries the bearer token of the console and, for a write, the
e-mail of the session's user as `x-actor`. The interceptor of the control plane
reads the token only, so an audit row names the principal of the token.
-/

namespace RateLimiter.Console

open EventLoop JavaScript Machine Management

def wireTimeUnit : TimeUnitLabel → WireTimeUnit
  | .minute => .known .minute
  | .day => .known .day
  | .month => .known .month

/-- The message as `LimitAdmin` decodes it; the other calls go to the enforcer. -/
def Rpc.toAdmin? : Rpc → Option AdminRequest
  | .createLimit key limitValue timeUnit =>
      some (.write (.createLimit key limitValue.toInt64 (wireTimeUnit timeUnit)))
  | .updateLimit key limitValue timeUnit createIfAbsent =>
      some (.write (.updateLimit key limitValue.toInt64 (wireTimeUnit timeUnit) createIfAbsent))
  | .deleteLimit key allowMissing => some (.write (.deleteLimit key allowMissing))
  | .registerService service => some (.write (.registerService ⟨service.serviceName,
      service.displayName, service.owner⟩))
  | .getLimit key resolve => some (.read (.getLimit key resolve))
  | .listLimits serviceName customerId rateLimitId pageSize pageToken =>
      some (.read (.listLimits serviceName customerId rateLimitId pageSize.toInt32 pageToken))
  | .getService serviceName => some (.read (.getService serviceName))
  | .listServices pageSize pageToken => some (.read (.listServices pageSize.toInt32 pageToken))
  | .listAuditEntries serviceName key configId since pageSize pageToken =>
      some (.read (.listAuditEntries serviceName key configId.toInt64
        (since.map fun instant => ⟨instant.seconds, instant.nanos⟩) pageSize.toInt32 pageToken))
  | .refund _ _ _ | .getUsage _ => none

/-- The calls that leave an audit row when they succeed. -/
def Rpc.writesLimit : Rpc → Bool
  | .createLimit _ _ _ | .updateLimit _ _ _ _ | .deleteLimit _ _ => true
  | _ => false

/-- A console with its service token, and the control plane it talks to. -/
structure Deployment where
  deps : Deps
  sessions : Map Session
  token : String
  authorizer : Authorizer
  backend : Backend

namespace Deployment

/-- The `authorization` header that the channel adds, when there is a token. -/
def header (deployment : Deployment) : Option String :=
  if deployment.token = "" then none else some ("Bearer " ++ deployment.token)

/-- The principal that the control plane knows the console by. -/
def principal (deployment : Deployment) : Except AppException Principal :=
  authenticateCall deployment.authorizer deployment.header

end Deployment

/-- What has happened to the console, the control plane, and which call wrote each audit row. -/
structure System where
  history : List ConsoleEvent
  plane : ControlPlane
  served : List ℕ
  writes : List (ℕ × AuditRow)

/-- An event at the console, or a call that the console has sent reaches the control plane. -/
inductive SystemEvent where
  | console (event : ConsoleEvent)
  | arrival (index : ℕ) (connection : ℕ) (conditions : Conditions)

namespace System

variable (deployment : Deployment)

def console (system : System) : Loop Store Call Reply Moment Thrown Response :=
  consoleAfter deployment.deps deployment.sessions system.history

def deliver (system : System) (index : ℕ) (call : AdminCall) : System :=
  let plane := (serve deployment.backend system.plane call).2
  { system with
    plane := plane
    served := index :: system.served
    writes := system.writes ++ (plane.database.audit.drop system.plane.database.audit.length).map
      fun row => (index, row) }

def step (system : System) : SystemEvent → System
  | .console event => { system with history := system.history ++ [event] }
  | .arrival index connection conditions =>
      if index ∈ system.served then system
      else
        match (system.console deployment).sent[index]? with
        | none => system
        | some sending =>
            match sending.call.rpc.toAdmin? with
            | none => system
            | some request =>
                -- the control plane has no use for `x-actor`
                system.deliver deployment index
                  ⟨deployment.header, deployment.authorizer, connection, conditions, request⟩

/-- The system after a sequence of events, from empty tables. -/
def run (pool : ℕ → Connection) (events : List SystemEvent) : System :=
  after (step deployment) ⟨[], ⟨pool, .empty⟩, [], []⟩ events

/-- The user whose request made the console send a call. -/
def applicant (system : System) (index : ℕ) : Option User := do
  let sending ← (system.console deployment).sent[index]?
  match ← system.history[sending.handler]? with
  | .request _ request =>
      (SessionStore.get (consoleAt deployment.deps deployment.sessions system.history
        sending.handler) request.cookie).map Session.user
  | .reply _ _ _ => none

/-- Every audit row names the user whose request applied it. -/
def HumanAttributed (system : System) : Prop :=
  ∀ write ∈ system.writes,
    (system.applicant deployment write.1).map User.email = some write.2.changedBy

instance (system : System) : Decidable (system.HumanAttributed deployment) :=
  inferInstanceAs (Decidable (∀ write ∈ system.writes, _))

/-- The condition on a step: a write of a limit that arrives was caused by a user who has the name
of the console's principal as e-mail. -/
def SpeaksFor (system : System) : SystemEvent → Prop
  | .console _ => True
  | .arrival index _ _ => ∀ sending ∈ (system.console deployment).sent[index]?,
      sending.call.rpc.writesLimit = true → ∀ user ∈ system.applicant deployment index,
        ∀ principal ∈ deployment.principal.toOption, user.email = principal.name

instance (system : System) (event : SystemEvent) :
    Decidable (system.SpeaksFor deployment event) :=
  match event with
  | .console _ => inferInstanceAs (Decidable True)
  | .arrival index _ _ => inferInstanceAs (Decidable
      (∀ sending ∈ (system.console deployment).sent[index]?,
        sending.call.rpc.writesLimit = true → ∀ user ∈ system.applicant deployment index,
          ∀ principal ∈ deployment.principal.toOption, user.email = principal.name))

variable {deployment}

theorem writesLimit_of_toAdmin? {rpc : Rpc} {request : WriteRequest}
    (isAdmin : rpc.toAdmin? = some (.write request)) (isLimit : request.limitKey?.isSome) :
    rpc.writesLimit = true := by
  cases rpc with
  | createLimit _ _ _ | updateLimit _ _ _ _ | deleteLimit _ _ => rfl
  | registerService service =>
      simp only [Rpc.toAdmin?, Option.some.injEq, AdminRequest.write.injEq] at isAdmin
      subst isAdmin
      simp [WriteRequest.limitKey?] at isLimit
  | _ => simp [Rpc.toAdmin?] at isAdmin

/-- A row that a call adds to the audit table is the row of a write. -/
theorem attributed_of_new {backend : Backend} {plane : ControlPlane} {call : AdminCall}
    {row : AuditRow} (new : row ∈ (serve backend plane call).2.database.audit.drop
      plane.database.audit.length) :
    ∃ principal request, authenticateCall call.authorizer call.header = .ok principal ∧
      call.request = .write request ∧ Attributed principal request row := by
  rcases audit_serve backend plane call with
    ⟨same, _⟩ | ⟨_, _, principal, request, grew, _, _, _, authenticated, isWrite, attributed⟩
  · simp [same] at new
  · rw [grew, List.drop_left, List.mem_singleton] at new
    subst new
    exact ⟨principal, request, authenticated, isWrite, attributed⟩

theorem exists_applicant {system : System} {index : ℕ} {sending : Sending Call Reply}
    (isSent : (system.console deployment).sent[index]? = some sending) :
    ∃ user, system.applicant deployment index = some user := by
  rcases origin_of_sent (List.mem_of_getElem? isSent) with
    ⟨_, _, request, session, ⟨moment, isRequest⟩, ⟨isLive, _⟩, _⟩
  refine ⟨session.user, ?_⟩
  simp [applicant, isSent, isRequest, isLive]

theorem applicant_console {system : System} {index : ℕ} {user : User}
    (isApplicant : system.applicant deployment index = some user) (event : ConsoleEvent) :
    ({ system with history := system.history ++ [event] } : System).applicant deployment index =
      some user := by
  simp only [applicant, Option.bind_eq_bind, Option.bind_eq_some_iff] at isApplicant ⊢
  rcases isApplicant with ⟨sending, isSent, cause, isCause, rest⟩
  have inside : sending.handler < system.history.length :=
    (List.getElem?_eq_some_iff.mp isCause).1
  refine ⟨sending, ?_, cause, ?_, ?_⟩
  · rcases Loop.sent_grows (app deployment.deps) (.fresh deployment.sessions) system.history
      [event] with ⟨new, grown⟩
    rw [console, consoleAfter] at isSent ⊢
    rw [← grown, List.getElem?_append_left (List.getElem?_eq_some_iff.mp isSent).1]
    exact isSent
  · rw [List.getElem?_append_left inside]
    exact isCause
  · cases cause with
    | reply _ _ _ => simp at rest
    | request moment request =>
        rw [consoleAt, Loop.storeAt_append _ _ (Nat.le_of_lt inside)]
        exact rest

variable (deployment) in
/-- The audit table consists of the recorded writes, each named after the principal. -/
structure Recorded (system : System) : Prop where
  audit : system.plane.database.audit = system.writes.map Prod.snd
  named : ∀ write ∈ system.writes, ∃ principal user, deployment.principal = .ok principal ∧
    system.applicant deployment write.1 = some user ∧ write.2.changedBy = principal.name

theorem Recorded.deliver {system : System} (recorded : Recorded deployment system) {index : ℕ}
    {sending : Sending Call Reply} {connection : ℕ} {conditions : Conditions}
    {request : AdminRequest} (isSent : (system.console deployment).sent[index]? = some sending) :
    Recorded deployment (system.deliver deployment index
      ⟨deployment.header, deployment.authorizer, connection, conditions, request⟩) := by
  rcases exists_applicant isSent with ⟨user, isUser⟩
  constructor
  · rcases audit_serve deployment.backend system.plane
      ⟨deployment.header, deployment.authorizer, connection, conditions, request⟩ with
      ⟨same, _⟩ | ⟨row, _, _, _, grew, _⟩
    · simp [System.deliver, same, recorded.audit]
    · simp [System.deliver, grew, recorded.audit]
  · intro write mem
    rcases List.mem_append.mp mem with earlier | new
    · exact recorded.named write earlier
    · rcases List.mem_map.mp new with ⟨row, isNew, rfl⟩
      rcases attributed_of_new isNew with ⟨principal, _, authenticated, _, attributed⟩
      exact ⟨principal, user, authenticated, isUser, attributed.changedBy⟩

theorem Recorded.step {system : System} (recorded : Recorded deployment system)
    (event : SystemEvent) : Recorded deployment (system.step deployment event) := by
  cases event with
  | console event =>
      refine ⟨recorded.audit, ?_⟩
      intro write mem
      rcases recorded.named write mem with ⟨principal, user, authenticated, isUser, named⟩
      exact ⟨principal, user, authenticated, applicant_console isUser event, named⟩
  | arrival index connection conditions =>
      rw [System.step]
      split
      · exact recorded
      · split
        · exact recorded
        · rename_i sending isSent
          split
          · exact recorded
          · exact recorded.deliver isSent

variable (deployment) in
theorem recorded_run (pool : ℕ → Connection) (events : List SystemEvent) :
    Recorded deployment (run deployment pool events) :=
  history_invariant (fun _ => Recorded deployment) ⟨rfl, by simp⟩
    (fun _ event ih => ih.step event) events

theorem HumanAttributed.step {system : System} (human : HumanAttributed deployment system)
    (recorded : Recorded deployment system) {event : SystemEvent}
    (speaks : SpeaksFor deployment system event) :
    HumanAttributed deployment (system.step deployment event) := by
  cases event with
  | console event =>
      intro write mem
      rcases recorded.named write mem with ⟨_, user, _, isUser, _⟩
      have named := human write mem
      rw [isUser] at named
      rw [System.step, applicant_console isUser event]
      exact named
  | arrival index connection conditions =>
      rw [System.step]
      split
      · exact human
      · split
        · exact human
        · rename_i sending isSent
          split
          · exact human
          · rename_i request isAdmin
            intro write mem
            rcases List.mem_append.mp mem with earlier | new
            · exact human write earlier
            · rcases List.mem_map.mp new with ⟨row, isNew, rfl⟩
              rcases attributed_of_new isNew with
                ⟨principal, written, authenticated, isWrite, attributed⟩
              rcases exists_applicant isSent with ⟨user, isUser⟩
              have isPrincipal : principal ∈ deployment.principal.toOption := by
                rw [Deployment.principal, authenticated]
                rfl
              have writesLimit : sending.call.rpc.writesLimit = true := by
                dsimp only at isWrite
                rw [isWrite] at isAdmin
                exact writesLimit_of_toAdmin? isAdmin attributed.isLimit
              have sameName := speaks sending isSent writesLimit user isUser principal isPrincipal
              change (system.applicant deployment index).map User.email = some row.changedBy
              rw [isUser, attributed.changedBy, ← sameName]
              rfl

/-- Which rows name the user whose request applied them: exactly those whose user has the name of
the console's principal as e-mail. A run in which every arriving write has such a user attributes
all of its rows to humans. -/
theorem human_attribution (deployment : Deployment) (pool : ℕ → Connection)
    (events : List SystemEvent) :
    ((∀ turn event, events[turn]? = some event →
        SpeaksFor deployment (run deployment pool (events.take turn)) event) →
      HumanAttributed deployment (run deployment pool events)) ∧
    (run deployment pool events).plane.database.audit =
      (run deployment pool events).writes.map Prod.snd ∧
    ∀ write ∈ (run deployment pool events).writes, ∃ principal user,
      deployment.principal = .ok principal ∧
      (run deployment pool events).applicant deployment write.1 = some user ∧
      (write.2.changedBy = user.email ↔ user.email = principal.name) := by
  have recorded := recorded_run deployment pool events
  refine ⟨?_, recorded.audit, ?_⟩
  · intro meets
    apply conditional_invariant (SpeaksFor deployment) (fun _ => HumanAttributed deployment) _ _
      meets
    · intro write mem
      simp at mem
    · intro before event human speaks
      exact human.step (recorded_run deployment pool before) speaks
  · intro write mem
    rcases recorded.named write mem with ⟨principal, user, authenticated, isUser, named⟩
    refine ⟨principal, user, authenticated, isUser, ?_⟩
    rw [named]
    exact eq_comm

section Sample

/-- A deployment whose service token belongs to the given principal. -/
def sampleDeployment (name : String) : Deployment :=
  ⟨sampleDeps, [], "bff-token",
    fun token => if token = "bff-token" then some ⟨name, [], [], true⟩ else none, sampleBackend⟩

/-- An operator logs in, registers a service and creates a limit. -/
def sampleSystemEvents : List SystemEvent :=
  [.console (.request (sampleMoment "sid-alice" "csrf-alice")
      (sampleRequest .login "" [("user", .string "alice")])),
    .console (.request (sampleMoment "" "")
      (sampleRequest .createService "alice" [("service_name", .string "search"),
        ("display_name", .string "Search"), ("owner", .string "team-search")])),
    .arrival 0 0 ⟨5, fun _ => none⟩,
    .console (.request (sampleMoment "" "")
      (sampleRequest .createLimit "alice" [("service_name", .string "search"),
        ("customer_id", .string "acme"), ("rate_limit_id", .string "query"),
        ("limit_value", .number (.finite 10)), ("time_unit", .string "MINUTE")])),
    .arrival 1 0 ⟨6, fun _ => none⟩]

/-- The row of an operator's change names the service account of the console. -/
theorem human_attribution_fails :
    ¬HumanAttributed (sampleDeployment "svc:quotaui")
      (run (sampleDeployment "svc:quotaui") (fun _ => ⟨none⟩) sampleSystemEvents) := by
  decide +kernel

theorem human_attribution_sample :
    HumanAttributed (sampleDeployment "alice@corp")
        (run (sampleDeployment "alice@corp") (fun _ => ⟨none⟩) sampleSystemEvents) ∧
      (run (sampleDeployment "alice@corp") (fun _ => ⟨none⟩) sampleSystemEvents).writes ≠ [] := by
  have meets : ∀ turn < sampleSystemEvents.length, ∀ event ∈ sampleSystemEvents[turn]?,
      SpeaksFor (sampleDeployment "alice@corp") (run (sampleDeployment "alice@corp")
        (fun _ => ⟨none⟩) (sampleSystemEvents.take turn)) event := by decide +kernel
  refine ⟨(human_attribution (sampleDeployment "alice@corp") (fun _ => ⟨none⟩)
    sampleSystemEvents).1 ?_, by decide +kernel⟩
  intro turn event isEvent
  exact meets turn (List.getElem?_eq_some_iff.mp isEvent).1 event isEvent

end Sample

end System

end RateLimiter.Console
