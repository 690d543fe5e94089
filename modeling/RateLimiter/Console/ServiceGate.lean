import RateLimiter.Console.Attribution
import RateLimiter.Management.KeyedMap

/-!
# Who brings a service into existence

`POST /api/services` asks for `service:create` and `PUT /api/services/:name`
only for `service:edit`, but both send `RegisterService`, which inserts the
service. The edit of a name that is not registered therefore creates it, with
the smaller capability.
-/

namespace RateLimiter.Console

open EventLoop JavaScript Machine Management

/-- The control plane gets a new service only by registering it. -/
theorem services_serve (backend : Backend) (plane : ControlPlane) (call : AdminCall) :
    (serve backend plane call).2.database.services = plane.database.services ∨
      ∃ service, call.request = .write (.registerService service) ∧
        (serve backend plane call).2.database.services = plane.database.services ++ [service] := by
  rcases serve_cases backend plane call with
    ⟨_, _, same⟩ | ⟨_, _, _, _, ⟨_, _, same⟩ | ⟨request, isWrite, accepted⟩⟩
  · exact Or.inl same.services
  · rw [same]
    exact Or.inl rfl
  · cases accepted with
    | missing same => exact Or.inl same.services
    | registered _ effect => exact Or.inr ⟨_, isWrite, effect.services⟩
    | inserted _ _ effect => exact Or.inl effect.services
    | updated _ _ effect => exact Or.inl effect.services
    | deleted _ _ effect => exact Or.inl effect.services

theorem service_of_toAdmin? {rpc : Rpc} {row : ServiceRow}
    (isAdmin : rpc.toAdmin? = some (.write (.registerService row))) :
    ∃ service, rpc = .registerService service ∧ service.serviceName = row.serviceName := by
  cases rpc with
  | registerService service =>
      simp only [Rpc.toAdmin?, Option.some.injEq, AdminRequest.write.injEq,
        WriteRequest.registerService.injEq] at isAdmin
      exact ⟨service, rfl, by rw [← isAdmin]⟩
  | _ => simp [Rpc.toAdmin?] at isAdmin

/-- A registration comes from one of the two routes, with the capability of that route. -/
theorem registration_of_sent {deps : Deps} {sessions : Map Session} {events : List ConsoleEvent}
    {sending : Sending Call Reply} (mem : sending ∈ (consoleAfter deps sessions events).sent)
    {service : ServiceInfo} (isRegistration : sending.call.rpc = .registerService service) :
    ∃ request session, Serving events sending.handler request ∧
      Authentic (consoleAt deps sessions events sending.handler) request session ∧
      (Granted deps session.user .serviceCreate (some service.serviceName) ∨
        ∃ name, request.route = .editService name) := by
  rcases origin_of_sent mem with ⟨_, _, request, session, serving, authentic, origin, _⟩
  refine ⟨request, session, serving, authentic, ?_⟩
  have noOp : ∀ op : PendingOp, ¬op.Carries (.registerService service) := by
    intro op carries
    cases op <;> simp [PendingOp.Carries] at carries
  rw [isRegistration] at origin
  cases origin with
  | reading isRead _ => simp [Rpc.isMutation] at isRead
  | creation _ isCreation _ => simp at isCreation
  | registration capability route _ granted =>
      rcases route with ⟨_, rfl⟩ | ⟨isEdit, rfl⟩
      · exact Or.inl granted
      · exact Or.inr isEdit
  | direct op _ _ carries _ => exact absurd (carries rfl) (noOp op)
  | approval _ review _ _ carries => exact absurd (carries rfl) (noOp review.op)

namespace System

variable (deployment : Deployment)

/-- The call that arrives is the edit of a service. -/
def edits (system : System) (index : ℕ) : Bool :=
  ((system.console deployment).sent[index]?.bind fun sending =>
    system.history[sending.handler]?).any fun event =>
      match event with
      | .request _ request => match request.route with
        | .editService _ => true
        | _ => false
      | .reply _ _ _ => false

/-- The condition on a step: no edit arrives for a name that is not registered, unless its user
may create the service. -/
def EditsRegistered (system : System) : SystemEvent → Prop
  | .console _ => True
  | .arrival index _ _ => index ∉ system.served → system.edits deployment index = true →
      ∀ sending ∈ (system.console deployment).sent[index]?,
        system.plane.database.registers sending.call.rpc.serviceName = false →
        ∀ user ∈ system.applicant deployment index,
          Granted deployment.deps user .serviceCreate (some sending.call.rpc.serviceName)

instance (user : User) (deps : Deps) (capability : Capability) (service : Option String) :
    Decidable (Granted deps user capability service) :=
  inferInstanceAs (Decidable (authorize user capability service deps.policy = .ok ()))

instance (system : System) (event : SystemEvent) :
    Decidable (system.EditsRegistered deployment event) :=
  match event with
  | .console _ => inferInstanceAs (Decidable True)
  | .arrival index _ _ => inferInstanceAs (Decidable
      (index ∉ system.served → system.edits deployment index = true →
        ∀ sending ∈ (system.console deployment).sent[index]?,
          system.plane.database.registers sending.call.rpc.serviceName = false →
          ∀ user ∈ system.applicant deployment index,
            Granted deployment.deps user .serviceCreate (some sending.call.rpc.serviceName)))

/-- A new console over a control plane, after a sequence of events. -/
def runOver (plane : ControlPlane) (events : List SystemEvent) : System :=
  after (step deployment) ⟨[], plane, [], []⟩ events

/-- The name became registered in a turn, when the request of a user arrived who may create it. -/
def CreatedBy (plane : ControlPlane) (events : List SystemEvent) (name : String) (user : User) :
    Prop :=
  ∃ turn index connection conditions,
    events[turn]? = some (.arrival index connection conditions) ∧
    (runOver deployment plane (events.take turn)).plane.database.registers name = false ∧
    (runOver deployment plane (events.take (turn + 1))).plane.database.registers name = true ∧
    (runOver deployment plane (events.take turn)).applicant deployment index = some user ∧
    Granted deployment.deps user .serviceCreate (some name)

variable {deployment}

theorem CreatedBy.append {plane : ControlPlane} {events : List SystemEvent} {name : String}
    {user : User} (created : CreatedBy deployment plane events name user)
    (later : List SystemEvent) : CreatedBy deployment plane (events ++ later) name user := by
  rcases created with ⟨turn, index, connection, conditions, isArrival, rest⟩
  have inside := (List.getElem?_eq_some_iff.mp isArrival).1
  refine ⟨turn, index, connection, conditions, ?_, ?_⟩
  · rw [List.getElem?_append_left inside]
    exact isArrival
  · rw [List.take_append_of_le_length (Nat.le_of_lt inside), List.take_append_of_le_length inside]
    exact rest

/-- What a step can add to the registry. -/
theorem registers_step {system : System} {event : SystemEvent} {name : String}
    (isNew : system.plane.database.registers name = false)
    (registered : (system.step deployment event).plane.database.registers name = true) :
    ∃ index connection conditions sending service, event = .arrival index connection conditions ∧
      index ∉ system.served ∧ (system.console deployment).sent[index]? = some sending ∧
      sending.call.rpc = .registerService service ∧ service.serviceName = name := by
  cases event with
  | console event =>
      rw [System.step, isNew] at registered
      simp at registered
  | arrival index connection conditions =>
      have absent : ¬system.plane.database.registers name = true := by simp [isNew]
      rw [System.step] at registered
      split at registered
      · exact absurd registered absent
      · rename_i unserved
        split at registered
        · exact absurd registered absent
        · rename_i sending isSent
          split at registered
          · exact absurd registered absent
          · rename_i request isAdmin
            rcases services_serve deployment.backend system.plane
              ⟨deployment.header, deployment.authorizer, connection, conditions, request⟩ with
              same | ⟨row, isWrite, grown⟩
            · rw [deliver, registers_congr same] at registered
              exact absurd registered absent
            · dsimp only at isWrite
              rw [isWrite] at isAdmin
              rcases service_of_toAdmin? isAdmin with ⟨service, isRpc, sameName⟩
              refine ⟨index, connection, conditions, sending, service, rfl, unserved, isSent, isRpc,
                ?_⟩
              rcases registers_iff.mp registered with ⟨other, mem, isName⟩
              rw [deliver, grown] at mem
              rcases List.mem_append.mp mem with earlier | here
              · exact absurd (registers_iff.mpr ⟨other, earlier, isName⟩) absent
              · rw [sameName, ← List.mem_singleton.mp here]
                exact isName

/-- A registration that arrives under the condition is that of a user who may create the service. -/
theorem granted_of_registration {system : System} {index connection : ℕ}
    {conditions : Conditions} {sending : Sending Call Reply} {service : ServiceInfo}
    (condition : system.EditsRegistered deployment (.arrival index connection conditions))
    (unserved : index ∉ system.served)
    (isSent : (system.console deployment).sent[index]? = some sending)
    (isRegistration : sending.call.rpc = .registerService service)
    (isNew : system.plane.database.registers service.serviceName = false) :
    ∃ user, system.applicant deployment index = some user ∧
      Granted deployment.deps user .serviceCreate (some service.serviceName) := by
  rcases registration_of_sent (List.mem_of_getElem? isSent) isRegistration with
    ⟨request, session, ⟨moment, isRequest⟩, ⟨isLive, _⟩, authority⟩
  have isApplicant : system.applicant deployment index = some session.user := by
    simp [applicant, isSent, isRequest, isLive]
  refine ⟨session.user, isApplicant, ?_⟩
  rcases authority with granted | ⟨name, isEdit⟩
  · exact granted
  · have isEditing : system.edits deployment index = true := by
      simp [edits, isSent, isRequest, isEdit]
    have sameName : sending.call.rpc.serviceName = service.serviceName := by
      rw [isRegistration]
      rfl
    rw [← sameName] at isNew ⊢
    exact condition unserved isEditing sending isSent isNew session.user isApplicant

theorem isGlobalOperatorOrAdmin_of_granted {deps : Deps} {user : User} {service : Option String}
    (granted : Granted deps user .serviceCreate service) (isDefault : deps.policy = .default) :
    isGlobalOperatorOrAdmin user = true := by
  by_contra isLess
  simp [Granted, authorize, isDefault, Policy.default, isLess] at granted

/-- In a run in which every edit that reaches the control plane before its service is registered
comes from a user who may create it, each new service is created by such a user; under the
default policy this is an operator or an administrator. -/
theorem service_creation_gated (deployment : Deployment) (plane : ControlPlane)
    (events : List SystemEvent)
    (meets : ∀ turn event, events[turn]? = some event →
      EditsRegistered deployment (runOver deployment plane (events.take turn)) event)
    (name : String) (isNew : plane.database.registers name = false)
    (registered : (runOver deployment plane events).plane.database.registers name = true) :
    ∃ user, CreatedBy deployment plane events name user ∧
      (deployment.deps.policy = .default → isGlobalOperatorOrAdmin user = true) := by
  revert registered
  apply conditional_invariant (EditsRegistered deployment) (fun before system =>
    system.plane.database.registers name = true →
      ∃ user, CreatedBy deployment plane before name user ∧
        (deployment.deps.policy = .default → isGlobalOperatorOrAdmin user = true)) _ _ meets
  · intro registered
    simp [isNew] at registered
  · intro before event ih condition registered
    cases already : (runOver deployment plane before).plane.database.registers name with
    | true =>
        rcases ih already with ⟨user, created, isDefault⟩
        exact ⟨user, created.append [event], isDefault⟩
    | false =>
        rcases registers_step already registered with
          ⟨index, connection, conditions, sending, service, rfl, unserved, isSent,
            isRegistration, rfl⟩
        rcases granted_of_registration condition unserved isSent isRegistration already with
          ⟨user, isApplicant, granted⟩
        refine ⟨user, ⟨before.length, index, connection, conditions, by simp, ?_, ?_, ?_,
          granted⟩, isGlobalOperatorOrAdmin_of_granted granted⟩
        · rw [List.take_left]
          exact already
        · rw [List.take_of_length_le (by simp), runOver, after_concat]
          exact registered
        · rw [List.take_left]
          exact isApplicant

section Sample

/-- An editor of a service that is not registered edits it. -/
def sampleEditEvents : List SystemEvent :=
  [.console (.request (sampleMoment "sid-bob" "csrf-bob")
      (sampleRequest .login "" [("user", .string "bob")])),
    .console (.request (sampleMoment "" "")
      (sampleRequest (.editService "search") "bob" [("display_name", .string "Search"),
        ("owner", .string "team-search")])),
    .arrival 0 0 ⟨5, fun _ => none⟩]

theorem service_creation_gated_sample :
    ∃ user, CreatedBy (sampleDeployment "svc:quotaui") ⟨fun _ => ⟨none⟩, .empty⟩
        sampleSystemEvents "search" user ∧
      ((sampleDeployment "svc:quotaui").deps.policy = .default →
        isGlobalOperatorOrAdmin user = true) := by
  have meets : ∀ turn < sampleSystemEvents.length, ∀ event ∈ sampleSystemEvents[turn]?,
      EditsRegistered (sampleDeployment "svc:quotaui")
        (runOver (sampleDeployment "svc:quotaui") ⟨fun _ => ⟨none⟩, .empty⟩
          (sampleSystemEvents.take turn)) event := by decide +kernel
  refine service_creation_gated (sampleDeployment "svc:quotaui") ⟨fun _ => ⟨none⟩, .empty⟩
    sampleSystemEvents ?_ "search" rfl (by decide +kernel)
  intro turn event isEvent
  exact meets turn (List.getElem?_eq_some_iff.mp isEvent).1 event isEvent

/-- The edit of the service's editor creates it, and this user may not create services. -/
theorem edit_creates_service :
    (sampleDeployment "svc:quotaui").deps.policy = .default ∧
      (runOver (sampleDeployment "svc:quotaui") ⟨fun _ => ⟨none⟩, .empty⟩
        sampleEditEvents).plane.database.registers "search" = true ∧
      ¬∃ user, CreatedBy (sampleDeployment "svc:quotaui") ⟨fun _ => ⟨none⟩, .empty⟩
        sampleEditEvents "search" user := by
  refine ⟨rfl, by decide +kernel, ?_⟩
  rintro ⟨user, turn, index, connection, conditions, isArrival, _, _, isApplicant, granted⟩
  have isLast : turn = 2 ∧ index = 0 := by
    match turn with
    | 0 | 1 => simp [sampleEditEvents] at isArrival
    | 2 =>
        simp only [sampleEditEvents, List.getElem?_cons_succ, List.getElem?_cons_zero,
          Option.some.injEq, SystemEvent.arrival.injEq] at isArrival
        exact ⟨rfl, isArrival.1.symm⟩
    | turn + 3 => simp [sampleEditEvents] at isArrival
  rcases isLast with ⟨rfl, rfl⟩
  have isEditor : (runOver (sampleDeployment "svc:quotaui") ⟨fun _ => ⟨none⟩, .empty⟩
      (sampleEditEvents.take 2)).applicant (sampleDeployment "svc:quotaui") 0 =
        some ⟨"bob", "bob@corp", [⟨.serviceEditor, some "search"⟩]⟩ := by decide +kernel
  rw [isEditor, Option.some.injEq] at isApplicant
  subst isApplicant
  revert granted
  decide +kernel

end Sample

end System

end RateLimiter.Console
