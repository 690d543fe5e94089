import RateLimiter.Console.Routes

/-!
# What the handler of a request may do

`contract` says it once for every request: which mutation it may send, on whose
authority, and which reviews it may create or decide. The executors of
mutations keep a simpler contract, `execution`, from which it follows.
-/

namespace RateLimiter.Console

open EventLoop EventLoop.Handler JavaScript

/-- The mutation that a gated route asks for. -/
def Request.op? (request : Request) : Option PendingOp := do
  let body ← request.body.toOption
  match request.route with
  | .updateLimit => (validateLimit body).toOption.map .limitUpdate
  | .deleteLimit => (validateKey body).toOption.map .limitDelete
  | .refund => do
      let key ← (validateKey body).toOption
      let amount ← (validateAmount (Value.property body "amount")).toOption
      return .opRefund key amount
  | .reset => (validateKey body).toOption.map .opReset
  | _ => none

namespace PendingOp

/-- The capability that the route of the mutation checks. -/
def capability : PendingOp → Capability
  | .limitUpdate _ => .limitWrite
  | .limitDelete _ => .limitDelete
  | .opRefund _ _ => .opRefund
  | .opReset _ => .opReset

/-- The call that performs the mutation, whatever its optional fields. -/
def Carries : PendingOp → Rpc → Prop
  | .limitUpdate limit, rpc => ∃ createIfAbsent,
      rpc = .updateLimit limit.key limit.limitValue limit.timeUnit createIfAbsent
  | .limitDelete key, rpc => ∃ allowMissing, rpc = .deleteLimit key allowMissing
  | .opRefund key amount, rpc => ∃ requestId, rpc = .refund key amount requestId
  | .opReset key, rpc => ∃ amount requestId, rpc = .refund key amount requestId

end PendingOp

/-- The request carries the cookie of a live session and, where needed, its CSRF token. -/
def Authentic (store : Store) (request : Request) (session : Session) : Prop :=
  SessionStore.get store request.cookie = some session ∧ csrfOk session request = true

def Granted (deps : Deps) (user : User) (capability : Capability) (service : Option String) :
    Prop :=
  authorize user capability service deps.policy = .ok ()

/-- The same review, perhaps decided in the meantime. -/
structure Review.Later (earlier later : Review) : Prop where
  op : later.op = earlier.op
  initiator : later.initiator = earlier.initiator
  reason : later.reason = earlier.reason
  status : later.status = earlier.status ∨ earlier.status = .pending

theorem Review.Later.refl (review : Review) : review.Later review :=
  ⟨rfl, rfl, rfl, Or.inl rfl⟩

theorem Review.Later.trans {first second third : Review} (earlier : first.Later second)
    (later : second.Later third) : first.Later third := by
  refine ⟨later.op.trans earlier.op, later.initiator.trans earlier.initiator,
    later.reason.trans earlier.reason, ?_⟩
  rcases earlier.status with same | pending
  · rw [← same]
    exact later.status
  · exact Or.inr pending

/-- Reviews stay where they are. -/
def Evolves (before after : Store) : Prop :=
  ∀ (place : ℕ) review, before.reviews.objects[place]? = some review →
    ∃ later, after.reviews.objects[place]? = some later ∧ review.Later later

theorem Evolves.refl (store : Store) : Evolves store store :=
  fun _ review found => ⟨review, found, .refl review⟩

theorem Evolves.trans {first second third : Store} (earlier : Evolves first second)
    (later : Evolves second third) : Evolves first third := by
  intro place review found
  rcases earlier place review found with ⟨middle, middleFound, firstLater⟩
  rcases later place middle middleFound with ⟨last, lastFound, secondLater⟩
  exact ⟨last, lastFound, firstLater.trans secondLater⟩

theorem Evolves.of_same {before after : Store} (same : after.reviews = before.reviews) :
    Evolves before after := by
  intro place review found
  rw [← same] at found
  exact ⟨review, found, .refl review⟩

/-- A review that an authorised user submitted with this request. -/
structure Submitted (deps : Deps) (store : Store) (request : Request) (review : Review) :
    Prop where
  op : request.op? = some review.op
  reason : reviewReason review.op deps.reviewPolicy = some review.reason
  session : ∃ session, Authentic store request session ∧
    review.initiator = session.user.email ∧
    Granted deps session.user review.op.capability (some review.op.key.serviceName)

theorem Submitted.later {deps : Deps} {store : Store} {request : Request} {review decided : Review}
    (submitted : Submitted deps store request review) (isLater : review.Later decided) :
    Submitted deps store request decided := by
  rcases submitted with ⟨op, reason, session⟩
  refine ⟨?_, ?_, ?_⟩
  · rw [isLater.op]
    exact op
  · rw [isLater.op, isLater.reason]
    exact reason
  · rw [isLater.op, isLater.initiator]
    exact session

/-- The request approves the review at a place, which somebody else submitted. -/
structure Approval (deps : Deps) (store : Store) (request : Request) (session : Session)
    (place : ℕ) (review : Review) : Prop where
  route : ∃ id, request.route = .approve id ∧ store.reviews.get id = some (place, review)
  pending : review.status = .pending
  other : review.initiator ≠ session.user.email
  granted : Granted deps session.user .reviewApprove none

def ApprovedAt (store : Store) (place : ℕ) : Prop :=
  ∃ review, store.reviews.objects[place]? = some review ∧ review.status = .approved

/-- Why a handler sends a call, given the store in which it started and the present one. -/
inductive Origin (deps : Deps) (store : Store) (request : Request) (session : Session)
    (now : Store) (rpc : Rpc) : Prop where
  | reading (isRead : rpc.isMutation = false) (notApproval : ∀ id, request.route ≠ .approve id)
  | creation (route : request.route = .createLimit)
      (isCreation : ∃ key limitValue timeUnit, rpc = .createLimit key limitValue timeUnit)
      (granted : Granted deps session.user .limitWrite (some rpc.serviceName))
  | registration (capability : Capability)
      (route : request.route = .createService ∧ capability = .serviceCreate ∨
        (∃ name, request.route = .editService name) ∧ capability = .serviceEdit)
      (isRegistration : ∃ service, rpc = .registerService service)
      (granted : Granted deps session.user capability (some rpc.serviceName))
  | direct (op : PendingOp) (isOp : request.op? = some op)
      (unreviewed : reviewReason op deps.reviewPolicy = none)
      (carries : rpc.isMutation = true → op.Carries rpc)
      (granted : Granted deps session.user op.capability (some op.key.serviceName))
  | approval (place : ℕ) (review : Review)
      (approval : Approval deps store request session place review)
      (decided : ApprovedAt now place) (carries : rpc.isMutation = true → review.op.Carries rpc)

def Unmutated (past : List (Call × Reply)) : Prop :=
  ∀ exchange ∈ past, exchange.1.rpc.isMutation = false

/-- The contract of the handler of a request that starts in a store. -/
def contract (deps : Deps) (store : Store) (request : Request) : Contract Store Call Reply where
  sends past now call := ∃ session, Authentic store request session ∧
    Origin deps store request session now call.rpc ∧
    (call.rpc.isMutation = true → call.actor = some session.user.email ∧ Unmutated past)
  changes _ before after := Evolves before after ∧
    ∀ (place : ℕ) review, before.reviews.objects.length ≤ place →
      after.reviews.objects[place]? = some review → Submitted deps store request review
  refl _ before := by
    refine ⟨.refl before, ?_⟩
    intro place review beyond found
    rw [List.getElem?_eq_none beyond] at found
    simp at found
  trans _ first second third := by
    rintro ⟨earlier, earlierNew⟩ ⟨later, laterNew⟩
    refine ⟨earlier.trans later, ?_⟩
    intro place review beyond found
    cases middle : second.reviews.objects[place]? with
    | none => exact laterNew place review (List.getElem?_eq_none_iff.mp middle) found
    | some old =>
        rcases later place old middle with ⟨_, isReview, moved⟩
        rw [found, Option.some.injEq] at isReview
        subst isReview
        exact (earlierNew place old beyond middle).later moved

section Executors

/-- At most one mutation is sent, an allowed one with the actor, and only the log changes. -/
def execution (allowed : Rpc → Prop) (actor : String) : Contract Store Call Reply where
  sends past _ call := call.rpc.isMutation = true →
    allowed call.rpc ∧ call.actor = some actor ∧ Unmutated past
  changes _ before after := after.reviews = before.reviews
  refl _ _ := rfl
  trans _ _ _ _ earlier later := later.trans earlier

/-- Only reads are sent, and the store stays as it is. -/
def reading : Contract Store Call Reply where
  sends _ _ call := call.rpc.isMutation = false
  changes _ before after := after = before
  refl _ _ := rfl
  trans _ _ _ _ earlier later := later.trans earlier

/-- Nobody's interference matters. -/
def anything (_ _ : Store) : Prop := True

theorem unmutated_nil : Unmutated [] := by simp [Unmutated]

theorem Unmutated.read {past : List (Call × Reply)} (unmutated : Unmutated past) {call : Call}
    (isRead : call.rpc.isMutation = false) (reply : Reply) :
    Unmutated (past ++ [(call, reply)]) := by
  intro exchange mem
  rcases List.mem_append.mp mem with earlier | here
  · exact unmutated exchange earlier
  · rw [List.mem_singleton.mp here]
    exact isRead

variable {rely : Store → Store → Prop} {agreed : Contract Store Call Reply}
  {past : List (Call × Reply)} {store : Store}

theorem wp_call {rpc : Rpc} {actor : Option String}
    {post : Except Thrown Message → List (Call × Reply) → Store → Prop} :
    wp rely agreed (call rpc actor) past store post ↔
      agreed.sends past store ⟨rpc, actor⟩ ∧ ∀ reply later, rely store later →
        post (reply.mapError rpcError) (past ++ [(⟨rpc, actor⟩, reply)]) later := by
  simp only [call, wp_bind, wp_await, continued]
  refine and_congr_right fun _ => forall_congr' fun reply => ?_
  cases reply <;> rfl

theorem keeps_orThrow {α : Type} (result : Except Thrown α) :
    Keeps rely agreed (orThrow result) := by
  cases result with
  | ok value => exact Keeps.pure value
  | error error => exact Keeps.throw error

theorem keeps_call_read {rpc : Rpc} {actor : Option String} (isRead : rpc.isMutation = false) :
    Keeps anything reading (call rpc actor) := by
  intro past store
  rw [wp_call]
  exact ⟨isRead, fun _ _ _ => trivial⟩

theorem keeps_isoNow : Keeps anything reading isoNow :=
  fun _ _ _ => ⟨rfl, trivial⟩

theorem keeps_readUsage {fetchedAt : String} {key : LimitKey} :
    Keeps anything reading (readUsage key fetchedAt) := by
  apply Keeps.bind (keeps_call_read rfl)
  intro message
  cases message with
  | usage usage => exact keeps_orThrow _
  | _ => exact Keeps.throw _

/-- Code that only reads is an execution without a mutation. -/
theorem executes_of_reading {α : Type} {handler : Async α} {allowed : Rpc → Prop} {email : String}
    (reads : Keeps anything reading handler) :
    Keeps anything (execution allowed email) handler := by
  intro past store
  apply wp_refine (fun _ => True) _ _ _ (reads past store) trivial
  · intro before after _ _
    exact ⟨trivial, trivial⟩
  · intro past store call _ (isRead : call.rpc.isMutation = false) isMutation
    simp [isRead] at isMutation
  · intro past before after _ (same : after = before)
    exact ⟨by rw [same]; exact (execution allowed email).refl past before, trivial⟩

theorem keeps_log {allowed : Rpc → Prop} {email : String} {context : OpContext} {action : Action}
    {target : Target} {details : Option Details} {requestId : Option String} :
    Keeps anything (execution allowed email) (context.log action target details requestId) :=
  fun _ _ _ => ⟨rfl, trivial⟩

theorem wp_mutation {rpc : Rpc} (allowed : Rpc → Prop) {email : String} {α : Type}
    {next : Message → Async α} (isAllowed : allowed rpc) (unmutated : Unmutated past)
    (rest : ∀ message, Keeps anything (execution allowed email) (next message)) :
    wp anything (execution allowed email) (call rpc (some email) >>= next) past store
      fun _ _ _ => True := by
  rw [wp_bind, wp_call]
  refine ⟨fun _ => ⟨isAllowed, rfl, unmutated⟩, ?_⟩
  intro reply later _
  cases reply with
  | ok message => exact rest message _ later
  | error failure => trivial

theorem createLimit_executes (context : OpContext) {input : ValidatedLimit}
    {allowed : Rpc → Prop}
    (isAllowed : allowed (.createLimit input.key input.limitValue input.timeUnit))
    (unmutated : Unmutated past) :
    wp anything (execution allowed context.actor) (createLimit context input) past store
      fun _ _ _ => True := by
  apply wp_mutation allowed isAllowed unmutated
  intro message
  apply Keeps.bind keeps_log
  intro _
  cases message with
  | limit limit => exact Keeps.pure _
  | _ => exact Keeps.throw _

theorem updateLimit_executes (context : OpContext) {input : ValidatedLimit}
    {createIfAbsent : Bool} {allowed : Rpc → Prop}
    (isAllowed : allowed
      (.updateLimit input.key input.limitValue input.timeUnit createIfAbsent))
    (unmutated : Unmutated past) :
    wp anything (execution allowed context.actor) (updateLimit context input createIfAbsent) past
      store fun _ _ _ => True := by
  apply wp_mutation allowed isAllowed unmutated
  intro message
  apply Keeps.bind keeps_log
  intro _
  cases message with
  | limit limit => exact Keeps.pure _
  | _ => exact Keeps.throw _

theorem deleteLimit_executes (context : OpContext) {key : LimitKey} {allowMissing : Bool}
    {allowed : Rpc → Prop} (isAllowed : allowed (.deleteLimit key allowMissing))
    (unmutated : Unmutated past) :
    wp anything (execution allowed context.actor) (deleteLimit context key allowMissing) past
      store fun _ _ _ => True := by
  apply wp_mutation allowed isAllowed unmutated
  intro message
  exact keeps_log

theorem refund_executes (context : OpContext) {key : LimitKey} {amount : Number}
    {allowed : Rpc → Prop} (isAllowed : ∀ requestId, allowed (.refund key amount requestId))
    (unmutated : Unmutated past) :
    wp anything (execution allowed context.actor) (refund context key amount) past store
      fun _ _ _ => True := by
  rw [refund, wp_bind, reqId, wp_atomically]
  refine fun moment => ⟨rfl, ?_⟩
  apply wp_mutation allowed (isAllowed _) unmutated
  intro message
  apply Keeps.bind keeps_log
  intro _
  cases message with
  | refunded remaining limit resetAt =>
      apply Keeps.bind (keeps_orThrow _)
      intro _
      exact Keeps.pure _
  | _ => exact Keeps.throw _

theorem resetWindow_executes (context : OpContext) {key : LimitKey} {allowed : Rpc → Prop}
    (isAllowed : ∀ amount requestId, allowed (.refund key amount requestId))
    (unmutated : Unmutated past) :
    wp anything (execution allowed context.actor) (resetWindow context key) past store
      fun _ _ _ => True := by
  have finishes : ∀ fetchedAt : String, ∀ consumed : Number, ∀ requestId : String,
      Keeps anything (execution allowed context.actor) (do
        context.log .opReset (.limit key) (some (.refunded consumed.maxZero)) (some requestId)
        readUsage key fetchedAt) := by
    intro fetchedAt consumed requestId
    apply Keeps.bind keeps_log
    intro _
    exact executes_of_reading keeps_readUsage
  rw [resetWindow, wp_bind, isoNow, wp_atomically]
  refine fun moment => ⟨rfl, ?_⟩
  simp only [continued]
  rw [wp_bind, wp_call]
  refine ⟨fun isMutation => by simp [Rpc.isMutation] at isMutation, ?_⟩
  intro reply later _
  cases reply with
  | error failure => trivial
  | ok message =>
      have still : Unmutated (past ++ [(⟨.getUsage key, none⟩, .ok message)]) :=
        unmutated.read rfl _
      simp only [Except.mapError, continued]
      rw [wp_bind, reqId, wp_atomically]
      refine fun moment => ⟨rfl, ?_⟩
      simp only [continued]
      split
      · exact wp_mutation allowed (isAllowed _ _) still fun _ => finishes _ _ _
      · exact finishes _ _ _ _ _

theorem executePendingOp_executes (context : OpContext) {op : PendingOp}
    (unmutated : Unmutated past) :
    wp anything (execution op.Carries context.actor) (executePendingOp context op) past store
      fun _ _ _ => True := by
  cases op with
  | limitUpdate limit => exact updateLimit_executes context ⟨true, rfl⟩ unmutated
  | limitDelete key =>
      rw [executePendingOp, wp_bind]
      apply wp_mono _ (deleteLimit_executes context ⟨false, rfl⟩ unmutated)
      intro outcome _ _ _
      cases outcome <;> trivial
  | opRefund key amount =>
      exact refund_executes context (fun requestId => ⟨requestId, rfl⟩) unmutated
  | opReset key =>
      exact resetWindow_executes context (fun amount requestId => ⟨amount, requestId, rfl⟩)
        unmutated

end Executors

end RateLimiter.Console
