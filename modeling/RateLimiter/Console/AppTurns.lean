import RateLimiter.Console.TwoPersonReview
import RateLimiter.Lib.Turns

/-!
# What each turn of the app does

The contract says which calls and changes are allowed. Here is what happens
exactly: the turn that receives the reply of a successful mutation records it
in the action log, a review is approved in the first turn of a handler that
goes on to call a backend, and no other turn touches either.
-/

namespace RateLimiter.Console

open EventLoop EventLoop.Handler JavaScript

section Entries

/-- What a mutation, or the first read of a reset, is about. -/
def Rpc.target? : Rpc → Option Target
  | .createLimit key _ _ | .updateLimit key _ _ _ | .deleteLimit key _ | .refund key _ _
  | .getUsage key => some (.limit key)
  | .registerService service => some (.service service.serviceName)
  | _ => none

def Rpc.actions : Rpc → List Action
  | .createLimit _ _ _ => [.limitCreate]
  | .updateLimit _ _ _ _ => [.limitUpdate]
  | .deleteLimit _ _ => [.limitDelete]
  | .registerService _ => [.serviceCreate, .serviceEdit]
  | .refund _ _ _ => [.opRefund, .opReset]
  | .getUsage _ => [.opReset]
  | _ => []

/-- A refund is logged under the id it was sent with, a reset without one under an id of its own,
and a change of the configuration without an id. -/
def Rpc.Tags : Rpc → Option String → Prop
  | .refund _ _ requestId, tag => tag = some requestId
  | .getUsage _, tag => tag.isSome = true
  | _, tag => tag = none

/-- The record that is due for a call made in a context. -/
structure Documents (context : OpContext) (rpc : Rpc) (record : ActionLogRecord) : Prop where
  actor : record.actor = context.actor
  initiator : record.initiator = context.initiator
  approver : record.approver = context.approver
  target : rpc.target? = some record.target
  action : record.action ∈ rpc.actions
  requestId : rpc.Tags record.requestId

/-- The execution that the last reply completes: a mutation that succeeded, or a reset whose first
read finds nothing consumed. -/
def completed (resets : Bool) (past : List (Call × Reply)) : Option Rpc :=
  match past.getLast? with
  | some (call, .ok message) =>
      if call.rpc.isMutation ||
          (resets && past.length = 1 && !(Number.finite 0).lt (consumedOf message)) then
        some call.rpc
      else none
  | _ => none

/-- A turn records the execution that it completes, and nothing else. -/
def Logs (context : OpContext) (resets : Bool) (past : List (Call × Reply))
    (before after : Store) : Prop :=
  match completed resets past with
  | none => after.actionLog = before.actionLog
  | some rpc => ∃ record moment, Documents context rpc record ∧
      after.actionLog = (ActionLog.append moment record before).actionLog

@[simp]
theorem completed_error (resets : Bool) (past : List (Call × Reply)) (call : Call)
    (failure : ServiceError) : completed resets (past ++ [(call, .error failure)]) = none := by
  simp [completed]

theorem completed_mutation (resets : Bool) (past : List (Call × Reply)) {call : Call}
    (isMutation : call.rpc.isMutation = true) (message : Message) :
    completed resets (past ++ [(call, .ok message)]) = some call.rpc := by
  simp [completed, isMutation]

theorem completed_read {resets : Bool} {past : List (Call × Reply)} {call : Call}
    (isRead : call.rpc.isMutation = false) (reply : Reply)
    (notFirst : resets = false ∨ past ≠ []) :
    completed resets (past ++ [(call, reply)]) = none := by
  cases reply with
  | error failure => exact completed_error resets past call failure
  | ok message =>
      rcases notFirst with rfl | notFirst
      · simp [completed, isRead]
      · simp [completed, isRead, notFirst]

end Entries

section Executors

/-- What the turns of an executor do. The reviews are those it started with. -/
structure Executes (context : OpContext) (resets : Bool) (settled : ReviewStore)
    (past : List (Call × Reply)) (before after : Store) (stop : Option Call) : Prop where
  log : Logs context resets past before after
  first : past = [] → after.reviews = settled ∧ stop.isSome = true
  later : past ≠ [] → after.reviews = before.reviews
  /-- Only a reset goes on after a read, with a refund if anything is consumed. -/
  continues : ∀ call message, past = [(call, .ok message)] → call.rpc.isMutation = false →
    resets = true ∧ ((Number.finite 0).lt (consumedOf message) = true →
      ∃ next, stop = some next ∧ next.rpc.isMutation = true)

variable {context : OpContext} {resets : Bool} {settled : ReviewStore}
  {past : List (Call × Reply)} {before now : Store}

theorem wpTurn_call {spec : TurnSpec Store Call Reply} {rpc : Rpc} {actor : Option String}
    {post : Except Thrown Message → List (Call × Reply) → Store → Store → Prop} :
    wpTurn spec (call rpc actor) past before now post ↔
      spec past before now (some ⟨rpc, actor⟩) ∧ ∀ reply later,
        post (reply.mapError rpcError) (past ++ [(⟨rpc, actor⟩, reply)]) later later := by
  simp only [call, wpTurn_bind]
  refine and_congr_right fun _ => forall_congr' fun reply => ?_
  cases reply <;> rfl

/-- The first call of an executor. -/
theorem Executes.starts (same : now.actionLog = before.actionLog)
    (isSettled : now.reviews = settled) (call : Call) :
    Executes context resets settled [] before now (some call) where
  log := same
  first _ := ⟨isSettled, rfl⟩
  later := by simp
  continues := by simp

/-- A call that failed ends the executor. -/
theorem Executes.failed (call : Call) (failure : ServiceError) :
    Executes context resets settled (past ++ [(call, .error failure)]) now now none where
  log := by simp [Logs]
  first := by simp
  later _ := rfl
  continues other message isPast := by
    have last := congrArg List.getLast? isPast
    simp at last

/-- A mutation that succeeded is recorded. -/
theorem Executes.logged {call : Call} (isMutation : call.rpc.isMutation = true) (message : Message)
    {record : ActionLogRecord} (documents : Documents context call.rpc record) (moment : Moment)
    (stop : Option Call) :
    Executes context resets settled (past ++ [(call, .ok message)]) now
      (ActionLog.append moment record now) stop where
  log := by
    rw [Logs, completed_mutation resets past isMutation]
    exact ⟨record, moment, documents, rfl⟩
  first := by simp
  later _ := rfl
  continues other otherMessage isPast isRead := by
    have last := congrArg List.getLast? isPast
    simp only [List.getLast?_append, List.getLast?_singleton, Option.some_or,
      Option.some.injEq, Prod.mk.injEq] at last
    rw [← last.1, isMutation] at isRead
    simp at isRead

/-- A read that is not the first call of an executor leaves no trace. -/
theorem Executes.read {call : Call} (isRead : call.rpc.isMutation = false) (reply : Reply)
    (notFirst : past ≠ []) :
    Executes context resets settled (past ++ [(call, reply)]) now now none where
  log := by
    rw [Logs, completed_read isRead reply (Or.inr notFirst)]
  first := by simp
  later _ := rfl
  continues other message isPast := by
    have longer := congrArg List.length isPast
    simp only [List.length_append, List.length_singleton] at longer
    exact absurd (List.eq_nil_of_length_eq_zero (by omega)) notFirst

/-- A handler that is at its end. -/
def Ends {α : Type} (handler : Async α) : Prop := ∃ outcome, handler = .done outcome

theorem Ends.keepsTurns {α : Type} {handler : Async α} (ends : Ends handler)
    {spec : TurnSpec Store Call Reply} (kept : spec past before now none) :
    KeepsTurns spec handler past before now := by
  rcases ends with ⟨outcome, rfl⟩
  exact kept

theorem ends_orThrow {α : Type} (result : Except Thrown α) : Ends (orThrow result) := by
  cases result with
  | ok value => exact ⟨.ok value, rfl⟩
  | error error => exact ⟨.error error, rfl⟩

/-- A mutation, its record and what follows. -/
theorem executes_mutation {α : Type} {rpc : Rpc} {action : Action} {target : Target}
    {details : Option Details} {requestId : Option String} {next : Message → Async α}
    (isMutation : rpc.isMutation = true)
    (stops : Executes context resets settled past before now (some ⟨rpc, some context.actor⟩))
    (documents : Documents context rpc ⟨context.actor, action, target, details, requestId,
      context.initiator, context.approver⟩)
    (rest : ∀ message before now, (∀ stop, Executes context resets settled
        (past ++ [(⟨rpc, some context.actor⟩, .ok message)]) before now stop) →
      KeepsTurns (Executes context resets settled) (next message)
        (past ++ [(⟨rpc, some context.actor⟩, .ok message)]) before now) :
    KeepsTurns (Executes context resets settled) (do
      let message ← call rpc (some context.actor)
      context.log action target details requestId
      next message) past before now := by
  rw [KeepsTurns, wpTurn_bind, wpTurn_call]
  refine ⟨stops, ?_⟩
  intro reply later
  cases reply with
  | error failure => exact .failed _ failure
  | ok message =>
      intro moment
      apply rest
      intro stop
      exact .logged isMutation message documents moment stop

theorem readUsage_turns {key : LimitKey} {fetchedAt : String} (notFirst : past ≠ [])
    (kept : ∀ stop, Executes context resets settled past before now stop) :
    KeepsTurns (Executes context resets settled) (readUsage key fetchedAt) past before now := by
  rw [KeepsTurns, readUsage, wpTurn_bind, wpTurn_call]
  refine ⟨kept _, ?_⟩
  intro reply later
  cases reply with
  | error failure => exact .failed _ failure
  | ok message =>
      have read : Executes context resets settled
          (past ++ [(⟨.getUsage key, none⟩, .ok message)]) later later none :=
        .read rfl _ notFirst
      cases message with
      | usage usage => exact (ends_orThrow _).keepsTurns read
      | _ => exact read

section Each

variable (same : now.actionLog = before.actionLog) (isSettled : now.reviews = settled)

include same isSettled

theorem createLimit_turns (input : ValidatedLimit) :
    KeepsTurns (Executes context resets settled) (createLimit context input) [] before now := by
  apply executes_mutation rfl (.starts same isSettled _)
  · exact ⟨rfl, rfl, rfl, rfl, List.mem_cons_self, rfl⟩
  · intro message before now kept
    cases message with
    | limit limit => exact kept none
    | _ => exact kept none

theorem updateLimit_turns (input : ValidatedLimit) (createIfAbsent : Bool) :
    KeepsTurns (Executes context resets settled) (updateLimit context input createIfAbsent) []
      before now := by
  apply executes_mutation rfl (.starts same isSettled _)
  · exact ⟨rfl, rfl, rfl, rfl, List.mem_cons_self, rfl⟩
  · intro message before now kept
    cases message with
    | limit limit => exact kept none
    | _ => exact kept none

theorem deleteLimit_turns (key : LimitKey) (allowMissing : Bool) :
    KeepsTurns (Executes context resets settled) (deleteLimit context key allowMissing) [] before
      now := by
  rw [KeepsTurns, deleteLimit, wpTurn_bind, wpTurn_call]
  refine ⟨.starts same isSettled _, ?_⟩
  intro reply later
  cases reply with
  | error failure => exact .failed _ failure
  | ok message =>
      intro moment
      apply Executes.logged rfl message
      exact ⟨rfl, rfl, rfl, rfl, List.mem_cons_self, rfl⟩

theorem refund_turns (key : LimitKey) (amount : Number) :
    KeepsTurns (Executes context resets settled) (refund context key amount) [] before now := by
  intro moment
  apply executes_mutation rfl (.starts same isSettled _)
  · exact ⟨rfl, rfl, rfl, rfl, List.mem_cons_self, rfl⟩
  · intro message before now kept
    cases message with
    | refunded remaining limit resetAt =>
        apply KeepsTurns.map
        exact (ends_orThrow _).keepsTurns (kept none)
    | _ => exact kept none

theorem resetWindow_turns (key : LimitKey) :
    KeepsTurns (Executes context true settled) (resetWindow context key) [] before now := by
  rw [KeepsTurns, resetWindow, isoNow, wpTurn_atomically]
  intro moment
  rw [wpTurn_bind, wpTurn_call]
  refine ⟨.starts same isSettled _, ?_⟩
  intro reply later
  cases reply with
  | error failure => exact .failed _ failure
  | ok message =>
      simp only [Except.mapError, reqId, wpTurn_atomically, List.nil_append]
      intro moment
      split
      · rename_i consumed
        -- the refund, which is recorded when it has succeeded
        apply executes_mutation rfl
        · refine ⟨?_, by simp, fun _ => rfl, ?_⟩
          · simp [Logs, completed, Rpc.isMutation, consumed]
          · intro _ _ _ _
            exact ⟨rfl, fun _ => ⟨_, rfl, rfl⟩⟩
        · exact ⟨rfl, rfl, rfl, rfl, by simp [Rpc.actions], rfl⟩
        · intro _ before now kept
          exact readUsage_turns (by simp) kept
      · rename_i nothing
        -- nothing to refund, so the read completes the reset
        intro moment
        apply readUsage_turns (by simp)
        intro stop
        refine ⟨?_, by simp, fun _ => rfl, ?_⟩
        · simp only [Logs, completed, List.getLast?_singleton, Rpc.isMutation, nothing]
          refine ⟨_, moment, ?_, rfl⟩
          exact ⟨rfl, rfl, rfl, rfl, List.mem_cons_self, rfl⟩
        · intro call other isPast _
          simp only [List.cons.injEq, Prod.mk.injEq, Except.ok.injEq, and_true] at isPast
          refine ⟨rfl, ?_⟩
          intro consumed
          rw [← isPast.2] at consumed
          exact absurd consumed nothing

end Each

theorem executePendingOp_turns (same : now.actionLog = before.actionLog)
    (isSettled : now.reviews = settled) {op : PendingOp}
    (isReset : ∀ key, op = .opReset key → resets = true) :
    KeepsTurns (Executes context resets settled) (executePendingOp context op) [] before now := by
  cases op with
  | limitUpdate limit => exact updateLimit_turns same isSettled limit true
  | limitDelete key => exact KeepsTurns.map (deleteLimit_turns same isSettled key false)
  | opRefund key amount => exact refund_turns same isSettled key amount
  | opReset key =>
      rw [isReset key rfl]
      exact resetWindow_turns same isSettled key

end Executors

section App

/-- The review that the request approves. -/
def reviewOf (store : Store) (request : Request) : Option Review :=
  match request.route with
  | .approve id => (store.reviews.get id).map Prod.snd
  | _ => none

/-- The mutation that the request executes, if it is not held. -/
def opOf (store : Store) (request : Request) : Option PendingOp :=
  match request.route with
  | .approve _ => (reviewOf store request).map Review.op
  | _ => request.op?

def resetsIn (store : Store) (request : Request) : Bool :=
  match opOf store request with
  | some (.opReset _) => true
  | _ => false

/-- The context of the executors: the initiator and the approver of a review, if there is one. -/
def contextOf (session : Session) (review : Option Review) : OpContext :=
  ⟨session.user.email, review.map Review.initiator, review.map fun _ => session.user.email⟩

/-- What the turns of the handler of a request do, which started in the given store. -/
structure AppTurn (deps : Deps) (store : Store) (request : Request) (past : List (Call × Reply))
    (before after : Store) (stop : Option Call) : Prop where
  log : completed (resetsIn store request) past = none ∧ after.actionLog = before.actionLog ∨
    ∃ session, Authentic store request session ∧
      Logs (contextOf session (reviewOf store request)) (resetsIn store request) past before after
  later : past ≠ [] → after.reviews = before.reviews
  /-- A review becomes approved in the first turn of a handler that goes on. -/
  approves : past = [] → ∀ place, ApprovedAt after place → ApprovedAt store place ∨
    stop.isSome = true ∧ ∃ session review, Authentic store request session ∧
      Approval deps store request session place review
  /-- An approval that does not go on leaves the reviews as they are. -/
  refused : past = [] → stop = none → (∃ id, request.route = .approve id) →
    after.reviews = store.reviews
  continues : (∃ id, request.route = .approve id) → ∀ call message,
    past = [(call, .ok message)] → call.rpc.isMutation = false →
    resetsIn store request = true ∧ ((Number.finite 0).lt (consumedOf message) = true →
      ∃ next, stop = some next ∧ next.rpc.isMutation = true)

variable {deps : Deps} {store : Store} {request : Request} {session : Session} {body : Fields}
  {past : List (Call × Reply)} {before now : Store}

/-- A first turn that approves nothing. -/
theorem AppTurn.first (log : now.actionLog = store.actionLog)
    (approvals : ∀ place, ApprovedAt now place → ApprovedAt store place)
    (refused : (∃ id, request.route = .approve id) → now.reviews = store.reviews)
    (stop : Option Call) : AppTurn deps store request [] store now stop where
  log := Or.inl ⟨rfl, log⟩
  later := by simp
  approves _ place approved := Or.inl (approvals place approved)
  refused _ _ := refused
  continues := by simp

theorem AppTurn.same (stop : Option Call) : AppTurn deps store request [] store store stop :=
  .first rfl (fun _ approved => approved) (fun _ => rfl) stop

theorem AppTurn.of_executes (authentic : Authentic store request session)
    (notApproval : ∀ id, request.route ≠ .approve id) {stop : Option Call}
    (executes : Executes (opContext session) (resetsIn store request) store.reviews past before now
      stop) : AppTurn deps store request past before now stop where
  log := by
    have isContext : contextOf session (reviewOf store request) = opContext session := by
      rw [reviewOf]
      split
      · rename_i id route
        exact absurd route (notApproval id)
      · rfl
    exact Or.inr ⟨session, authentic, isContext ▸ executes.log⟩
  later := executes.later
  approves isFirst place approved := by
    rw [ApprovedAt, (executes.first isFirst).1] at approved
    exact Or.inl approved
  refused isFirst _ _ := (executes.first isFirst).1
  continues isApproval := by
    rcases isApproval with ⟨id, route⟩
    exact absurd route (notApproval id)

section Reads

/-- The turns of code that only reads. -/
theorem keepsTurns_of_reading {α : Type} {handler : Async α}
    (reads : wp anything reading handler past now fun _ _ _ => True)
    (unmutated : Unmutated past) :
    KeepsTurns (fun past before after _ => Unmutated past ∧ after = before) handler past now
      now := by
  induction handler generalizing past now with
  | done outcome => exact ⟨unmutated, rfl⟩
  | call request resume ih =>
      refine ⟨⟨unmutated, rfl⟩, ?_⟩
      intro reply later
      exact ih reply (reads.2 reply later trivial) (unmutated.read reads.1 reply)
  | access update next ih =>
      intro moment
      have same : update moment now = now := (reads moment).1
      have rest := (reads moment).2
      rw [same] at rest ⊢
      exact ih moment now rest unmutated

theorem reads_turns {handler : Async Response} (reads : Keeps anything reading handler)
    (notApproval : ∀ id, request.route ≠ .approve id) (notOp : request.op? = none) :
    KeepsTurns (AppTurn deps store request) handler [] store store := by
  have isRead : resetsIn store request = false := by
    rw [resetsIn, opOf]
    split
    · rename_i isReset
      split at isReset
      · rename_i id route
        exact absurd route (notApproval id)
      · simp [notOp] at isReset
    · rfl
  have started := (keepsTurns_of_reading (reads [] store) unmutated_nil).started store fun _ => rfl
  apply started.mono
  rintro past before after stop ⟨⟨unmutated, rfl⟩, isStart⟩
  cases past using List.reverseRecOn with
  | nil =>
      rw [isStart rfl]
      exact .same stop
  | append_singleton past exchange =>
      refine ⟨Or.inl ⟨?_, rfl⟩, fun _ => rfl, by simp, by simp, ?_⟩
      · rw [isRead]
        exact completed_read (unmutated exchange (by simp)) exchange.2 (Or.inl rfl)
      · rintro ⟨id, route⟩
        exact absurd route (notApproval id)

end Reads

section Helpers

theorem guard_turns {capability : Capability} {service : Option String} {handler : Async Response}
    (goesOn : Granted deps session.user capability service →
      KeepsTurns (AppTurn deps store request) handler [] store store) :
    KeepsTurns (AppTurn deps store request) (guard deps session capability service handler) []
      store store := by
  rw [guard]
  split
  · rename_i granted
    exact goesOn granted
  · exact AppTurn.same none

theorem parsed_turns {α : Type} {result : Except (List String) α} {handler : α → Async Response}
    (goesOn : ∀ value, result = .ok value →
      KeepsTurns (AppTurn deps store request) (handler value) [] store store) :
    KeepsTurns (AppTurn deps store request) (parsed result handler) [] store store := by
  cases result with
  | ok value => exact goesOn value rfl
  | error errors => exact AppTurn.same none

/-- A review that is created is pending. -/
theorem reviewed_turns {op : PendingOp} {handler : Async Response}
    (notApproval : ∀ id, request.route ≠ .approve id)
    (direct : KeepsTurns (AppTurn deps store request) handler [] store store) :
    KeepsTurns (AppTurn deps store request) (reviewed deps session op handler) [] store store := by
  rw [reviewed]
  split
  · exact direct
  · rw [KeepsTurns, wpTurn_atomically]
    intro moment
    apply AppTurn.first
    · rfl
    · rintro place ⟨review, found, approved⟩
      rw [ReviewStore.create, List.getElem?_append] at found
      split at found
      · exact ⟨review, found, approved⟩
      · rw [List.getElem?_singleton] at found
        split at found
        · rw [Option.some.injEq] at found
          subst review
          simp at approved
        · simp at found
    · rintro ⟨id, route⟩
      exact absurd route (notApproval id)

/-- The review that is decided, and how its handler goes on. -/
theorem decide_turns {id : String} {decision : ReviewStatus} {decided : Review → Async Response}
    (goesOn : ∀ place review settled now, Granted deps session.user .reviewApprove none →
      store.reviews.get id = some (place, review) → review.status = .pending →
      review.initiator ≠ session.user.email → review.Later settled → settled.status = decision →
      now.reviews.objects = store.reviews.objects.set place settled →
      now.actionLog = store.actionLog →
      KeepsTurns (AppTurn deps store request) (decided settled) [] store now) :
    KeepsTurns (AppTurn deps store request) (ReviewsRouter.decide deps session id decision decided)
      [] store store := by
  apply guard_turns
  intro granted
  rw [KeepsTurns, wpTurn_atomically]
  intro moment
  rcases decide_cases moment id session.user.email decision store with
    ⟨refusal, refused⟩ | ⟨place, review, settled, found, pending, other, later, isDecision, taken⟩
  · rw [refused]
    exact AppTurn.same none
  · rw [taken]
    exact goesOn place review settled _ granted found pending other later isDecision rfl rfl

/-- Only the review that was decided is another one. -/
theorem approvedAt_of_set {place other : ℕ} {settled : Review}
    (isSet : now.reviews.objects = store.reviews.objects.set place settled)
    (approved : ApprovedAt now other) : ApprovedAt store other ∨ other = place ∧
      settled.status = .approved := by
  rcases approved with ⟨review, found, isApproved⟩
  by_cases here : place = other
  · subst other
    rw [isSet, List.getElem?_set] at found
    simp only [if_true] at found
    split at found
    · rw [Option.some.injEq] at found
      subst review
      exact Or.inr ⟨rfl, isApproved⟩
    · simp at found
  · rw [isSet, List.getElem?_set_ne here] at found
    exact Or.inl ⟨review, found, isApproved⟩

end Helpers

section Routes

variable (authentic : Authentic store request session)

include authentic

/-- The executor of a route, followed by its response. -/
theorem direct_turns {α : Type} {handler : Async α} {respond : α → Response}
    (notApproval : ∀ id, request.route ≠ .approve id)
    (executes : KeepsTurns (Executes (opContext session) (resetsIn store request) store.reviews)
      handler [] store store) :
    KeepsTurns (AppTurn deps store request) (do return respond (← handler)) [] store store :=
  (executes.mono fun _ _ _ _ kept => .of_executes authentic notApproval kept).map

theorem approve_turns {id : String} (route : request.route = .approve id) :
    KeepsTurns (AppTurn deps store request) (ReviewsRouter.approve deps session id) [] store
      store := by
  apply decide_turns
  intro place review settled now granted found pending other later isApproved isSet sameLog
  have isReview : reviewOf store request = some review := by
    simp [reviewOf, route, found]
  have isContext : contextOf session (reviewOf store request) =
      ⟨session.user.email, some settled.initiator, some session.user.email⟩ := by
    simp [contextOf, isReview, later.initiator]
  have isReset : ∀ key, settled.op = .opReset key → resetsIn store request = true := by
    intro key isOp
    rw [later.op] at isOp
    simp [resetsIn, opOf, route, isReview, isOp]
  have approval : Approval deps store request session place review :=
    ⟨⟨id, route, found⟩, pending, other, granted⟩
  apply KeepsTurns.map
  apply KeepsTurns.mono _ (executePendingOp_turns sameLog rfl isReset)
  intro past before after stop executes
  refine ⟨Or.inr ⟨session, authentic, isContext ▸ executes.log⟩, executes.later, ?_, ?_,
    fun _ => executes.continues⟩
  · intro isFirst place' approved
    have isSettled : after.reviews.objects = store.reviews.objects.set place settled := by
      rw [(executes.first isFirst).1, isSet]
    rcases approvedAt_of_set isSettled approved with earlier | ⟨rfl, _⟩
    · exact Or.inl earlier
    · exact Or.inr ⟨(executes.first isFirst).2, session, review, authentic, approval⟩
  · intro isFirst isLast
    have goesOn := (executes.first isFirst).2
    simp [isLast] at goesOn

omit authentic in
theorem reject_turns {id : String} (route : request.route = .reject id) :
    KeepsTurns (AppTurn deps store request) (ReviewsRouter.reject deps session id) [] store
      store := by
  apply decide_turns
  intro place review settled now _ _ _ _ _ isRejected isSet sameLog
  apply AppTurn.first sameLog
  · intro other approved
    rcases approvedAt_of_set isSet approved with earlier | ⟨_, isApproved⟩
    · exact earlier
    · simp [isRejected] at isApproved
  · rintro ⟨_, isApproval⟩
    simp [route] at isApproval

theorem createLimit_route_turns (route : request.route = .createLimit) :
    KeepsTurns (AppTurn deps store request) (LimitsRouter.create deps session body) [] store
      store := by
  apply parsed_turns
  intro limit _
  apply guard_turns
  intro _
  exact direct_turns authentic (by simp [route]) (createLimit_turns rfl rfl limit)

theorem updateLimit_route_turns (route : request.route = .updateLimit) :
    KeepsTurns (AppTurn deps store request) (LimitsRouter.update deps session body) [] store
      store := by
  apply parsed_turns
  intro limit _
  apply guard_turns
  intro _
  apply reviewed_turns (by simp [route])
  exact direct_turns authentic (by simp [route]) (updateLimit_turns rfl rfl limit _)

theorem deleteLimit_route_turns (route : request.route = .deleteLimit) :
    KeepsTurns (AppTurn deps store request) (LimitsRouter.delete deps session body) [] store
      store := by
  apply parsed_turns
  intro key _
  apply guard_turns
  intro _
  apply reviewed_turns (by simp [route])
  exact direct_turns authentic (by simp [route]) (deleteLimit_turns rfl rfl key _)

theorem refund_route_turns (route : request.route = .refund) :
    KeepsTurns (AppTurn deps store request) (OpsRouter.refund deps session body) [] store
      store := by
  apply parsed_turns
  intro key _
  split
  · exact AppTurn.same none
  · apply guard_turns
    intro _
    apply reviewed_turns (by simp [route])
    exact direct_turns authentic (by simp [route]) (refund_turns rfl rfl key _)

theorem reset_route_turns (route : request.route = .reset) (hasBody : request.body = .ok body) :
    KeepsTurns (AppTurn deps store request) (OpsRouter.reset deps session body) [] store
      store := by
  apply parsed_turns
  intro key isKey
  have isReset : resetsIn store request = true := by
    simp [resetsIn, opOf, route, Request.op?, hasBody, isKey, Except.toOption]
  apply guard_turns
  intro _
  apply reviewed_turns (by simp [route])
  apply direct_turns authentic (by simp [route])
  rw [isReset]
  exact resetWindow_turns rfl rfl key

theorem register_turns {capability : Capability} {action : Action} {status : ℕ} {fields : Fields}
    (isAction : action ∈ [Action.serviceCreate, .serviceEdit])
    (notApproval : ∀ id, request.route ≠ .approve id) :
    KeepsTurns (AppTurn deps store request)
      (ServicesRouter.register deps session capability action status fields) [] store store := by
  apply parsed_turns
  intro service _
  apply guard_turns
  intro _
  apply KeepsTurns.mono fun _ _ _ _ kept => .of_executes authentic notApproval kept
  apply executes_mutation rfl (.starts rfl rfl _)
  · exact ⟨rfl, rfl, rfl, rfl, isAction, rfl⟩
  · intro message before now kept
    cases message with
    | service service => exact kept none
    | _ => exact kept none

/-- Every route behind the checks. -/
theorem api_turns (hasBody : request.body = .ok body) :
    KeepsTurns (AppTurn deps store request) (api deps session request body) [] store store := by
  unfold api
  split
  case _ route => exact AppTurn.same none
  case _ route =>
    exact reads_turns listLimits_keeps (by simp [route]) (by simp [Request.op?, hasBody, route])
  case _ route =>
    exact reads_turns resolveLimit_keeps (by simp [route]) (by simp [Request.op?, hasBody, route])
  case _ route => exact createLimit_route_turns authentic route
  case _ route => exact updateLimit_route_turns authentic route
  case _ route => exact deleteLimit_route_turns authentic route
  case _ route =>
    exact reads_turns listServices_keeps (by simp [route]) (by simp [Request.op?, hasBody, route])
  case _ name route =>
    exact reads_turns getService_keeps (by simp [route]) (by simp [Request.op?, hasBody, route])
  case _ route => exact register_turns authentic (by simp) (by simp [route])
  case _ name route => exact register_turns authentic (by simp) (by simp [route])
  case _ route =>
    exact reads_turns listAudit_keeps (by simp [route]) (by simp [Request.op?, hasBody, route])
  case _ configId route =>
    exact reads_turns configHistory_keeps (by simp [route]) (by simp [Request.op?, hasBody, route])
  case _ route =>
    exact reads_turns usage_keeps (by simp [route]) (by simp [Request.op?, hasBody, route])
  case _ route => exact refund_route_turns authentic route
  case _ route => exact reset_route_turns authentic route hasBody
  case _ route =>
    exact reads_turns listReviews_keeps (by simp [route]) (by simp [Request.op?, hasBody, route])
  case _ id route => exact approve_turns authentic route
  case _ id route => exact reject_turns route
  case _ route =>
    exact reads_turns actionLog_keeps (by simp [route]) (by simp [Request.op?, hasBody, route])
  case _ => exact AppTurn.same none

end Routes

/-- A first turn in which only the sessions change. -/
theorem AppTurn.sessions (log : now.actionLog = store.actionLog)
    (reviews : now.reviews = store.reviews) (stop : Option Call) :
    AppTurn deps store request [] store now stop := by
  apply AppTurn.first log
  · intro place approved
    rw [ApprovedAt, reviews] at approved
    exact approved
  · exact fun _ => reviews

theorem ends_stringOrEmpty (value : Value) : Ends (stringOrEmpty value) := by
  have ends : ∀ value, Ends (stringOf value) := by
    intro value
    rw [stringOf]
    split
    · exact ⟨_, rfl⟩
    · exact ⟨_, rfl⟩
  cases value with
  | undefined => exact ⟨_, rfl⟩
  | null => exact ⟨_, rfl⟩
  | boolean flag => exact ends (.boolean flag)
  | number number => exact ends (.number number)
  | string text => exact ends (.string text)
  | array items => exact ends (.array items)
  | object fields => exact ends (.object fields)

theorem devLogin_turns :
    KeepsTurns (AppTurn deps store request) (devLogin deps body) [] store store := by
  unfold devLogin
  split
  · exact AppTurn.same none
  · rcases ends_stringOrEmpty (Value.property body "user") with ⟨outcome, ended⟩
    rw [KeepsTurns, wpTurn_bind, ended]
    cases outcome with
    | error error => exact AppTurn.same none
    | ok id =>
        dsimp only [wpTurn]
        split
        · exact AppTurn.same none
        · rw [wpTurn_atomically]
          intro moment
          apply AppTurn.sessions
          · rfl
          · rfl

theorem logout_turns {cookie : Value} :
    KeepsTurns (AppTurn deps store request) (logout cookie) [] store store := by
  rw [KeepsTurns, logout, wpTurn_atomically]
  intro moment
  apply AppTurn.sessions
  · simp only [SessionStore.destroy]
    split
    · split <;> rfl
    · rfl
  · simp only [SessionStore.destroy]
    split
    · split <;> rfl
    · rfl

/-- Every turn of the app, from any store. -/
theorem app_turns (deps : Deps) (store : Store) (request : Request) :
    KeepsTurns (AppTurn deps store request) (app deps request) [] store store := by
  apply KeepsTurns.recover
  unfold routes
  cases hasBody : request.body with
  | error message => exact AppTurn.same none
  | ok body =>
      dsimp only
      split
      · exact AppTurn.same none
      · exact devLogin_turns
      · exact logout_turns
      · exact AppTurn.same none
      · rw [KeepsTurns, wpTurn_atomically]
        intro moment
        cases isLive : SessionStore.get store request.cookie with
        | none => exact AppTurn.same none
        | some session =>
            dsimp only
            split
            · rename_i checked
              exact api_turns ⟨isLive, checked⟩ hasBody
            · exact AppTurn.same none

end App

end RateLimiter.Console
