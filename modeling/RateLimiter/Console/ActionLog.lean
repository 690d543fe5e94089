import RateLimiter.Console.AppTurns

/-!
# The action log

The entries of the log are, one for one and in their order, the executions that
succeeded: the mutations that a backend confirmed, and the resets that found
nothing to refund.
-/

namespace RateLimiter.Console

open EventLoop JavaScript

variable (deps : Deps) (sessions : Map Session) (events : List ConsoleEvent)

/-- The replies that the console received, in their order. -/
def exchanges : List (Exchange Call Reply) :=
  Loop.exchanges (app deps) (.fresh sessions) events

/-- The reply confirms a mutation. -/
def confirms (exchange : Exchange Call Reply) : Bool :=
  exchange.call.rpc.isMutation && exchange.reply.isOk

/-- The handler of that number executes a reset. -/
def resetting (handler : ℕ) : Bool :=
  match events[handler]? with
  | some (.request _ request) => resetsIn (consoleAt deps sessions events handler) request
  | _ => false

/-- The first reply to a reset, which says that nothing is consumed. -/
def nothingToReset (exchange : Exchange Call Reply) : Bool :=
  resetting deps sessions events exchange.handler && exchange.past.isEmpty &&
    match exchange.reply with
    | .ok message => !(Number.finite 0).lt (consumedOf message)
    | .error _ => false

/-- The executions that succeeded, in the order of their completion. -/
def executions : List (Exchange Call Reply) :=
  (exchanges deps sessions events).filter fun exchange =>
    confirms exchange || nothingToReset deps sessions events exchange

/-- The entry of an execution, with the user and the review that it goes back to. -/
def Enters (exchange : Exchange Call Reply) (entry : ActionLogEntry) : Prop :=
  ∃ request session, Serving events exchange.handler request ∧
    Authentic (consoleAt deps sessions events exchange.handler) request session ∧
    entry.actor = session.user.email ∧
    (exchange.call.rpc.isMutation = true → exchange.call.actor = some session.user.email) ∧
    exchange.call.rpc.target? = some entry.target ∧ entry.action ∈ exchange.call.rpc.actions ∧
    exchange.call.rpc.Tags entry.requestId ∧
    ((∀ id, request.route ≠ .approve id) ∧ entry.initiator = none ∧ entry.approver = none ∨
      ∃ place review,
        Approval deps (consoleAt deps sessions events exchange.handler) request session place
          review ∧
        ApprovedAt (consoleAt deps sessions events (exchange.handler + 1)) place ∧
        entry.initiator = some review.initiator ∧ entry.approver = some session.user.email ∧
        entry.initiator ≠ entry.approver)

theorem console_turning :
    Loop.Turning (app deps) (.fresh sessions) (AppTurn deps) events
      (consoleAfter deps sessions events) :=
  Loop.turning (app_turns deps) events

variable {deps sessions events}

theorem serving_lt {handler : ℕ} {request : Request} (serving : Serving events handler request) :
    handler < events.length :=
  Loop.ServesRequest.lt_length serving

theorem serving_append {handler : ℕ} {request : Request} (serving : Serving events handler request)
    (later : List ConsoleEvent) : Serving (events ++ later) handler request :=
  Loop.ServesRequest.append serving later

theorem consoleAt_append {turn : ℕ} (le : turn ≤ events.length) (later : List ConsoleEvent) :
    consoleAt deps sessions (events ++ later) turn = consoleAt deps sessions events turn :=
  Loop.storeAt_append (app deps) (.fresh sessions) le

theorem Enters.append {exchange : Exchange Call Reply} {entry : ActionLogEntry}
    (enters : Enters deps sessions events exchange entry) (later : List ConsoleEvent) :
    Enters deps sessions (events ++ later) exchange entry := by
  rcases enters with ⟨request, session, serving, rest⟩
  have inside := serving_lt serving
  refine ⟨request, session, serving_append serving later, ?_⟩
  rw [consoleAt_append (Nat.le_of_lt inside), consoleAt_append inside]
  exact rest

theorem resetting_append {handler : ℕ} (inside : handler < events.length)
    (later : List ConsoleEvent) :
    resetting deps sessions (events ++ later) handler = resetting deps sessions events handler := by
  rw [resetting, List.getElem?_append_left inside, consoleAt_append (Nat.le_of_lt inside),
    resetting]

theorem resetting_of_serving {handler : ℕ} {request : Request}
    (serving : Serving events handler request) :
    resetting deps sessions events handler =
      resetsIn (consoleAt deps sessions events handler) request := by
  rcases serving with ⟨moment, isRequest⟩
  simp [resetting, isRequest]

/-- An exchange is an execution exactly when its turn completes one. -/
theorem completed_eq (exchange : Exchange Call Reply) :
    completed (resetting deps sessions events exchange.handler)
        (exchange.past ++ [(exchange.call, exchange.reply)]) =
      if confirms exchange || nothingToReset deps sessions events exchange then
        some exchange.call.rpc
      else none := by
  cases isReply : exchange.reply with
  | error failure => simp [confirms, nothingToReset, isReply, Except.isOk, Except.toBool]
  | ok message =>
      simp only [completed, List.getLast?_append, List.getLast?_singleton, Option.some_or,
        confirms, nothingToReset, isReply, Except.isOk, Except.toBool, Bool.and_true,
        List.length_append, List.length_singleton]
      cases exchange.past <;> simp

theorem serving_of_exchange {exchange : Exchange Call Reply}
    (mem : exchange ∈ exchanges deps sessions events) :
    ∃ request, Serving events exchange.handler request :=
  ((console_turning deps sessions events).exchanged exchange mem).1

theorem executions_concat (event : ConsoleEvent) :
    executions deps sessions (events ++ [event]) =
      executions deps sessions events ++
        ((consoleAfter deps sessions events).exchange? event).toList.filter fun exchange =>
          confirms exchange || nothingToReset deps sessions events exchange := by
  have earlier : ∀ exchange : Exchange Call Reply,
      (∃ request, Serving events exchange.handler request) →
      nothingToReset deps sessions (events ++ [event]) exchange =
        nothingToReset deps sessions events exchange := by
    rintro exchange ⟨request, serving⟩
    rw [nothingToReset, resetting_append (serving_lt serving), nothingToReset]
  rw [executions, exchanges, Loop.exchanges_concat, List.filter_append, executions]
  congr 1
  · apply List.filter_congr
    intro exchange mem
    rw [earlier exchange (serving_of_exchange mem)]
  · apply List.filter_congr
    intro exchange mem
    rcases Loop.exchange?_eq_some (Option.mem_toList.mp mem) with ⟨waiting, _, _, isWaiting, _⟩
    rcases ((console_turning deps sessions events).ready _ waiting isWaiting).will with
      ⟨request, serves, _⟩
    rw [earlier exchange ⟨request, serves⟩]

theorem session_unique {store : Store} {request : Request} {first second : Session}
    (isFirst : Authentic store request first) (isSecond : Authentic store request second) :
    first = second :=
  Option.some.inj (isFirst.1.symm.trans isSecond.1)

/-- The handler of an approval sends calls only for the review that it approves. -/
theorem approval_of_sent {sending : Sending Call Reply}
    (mem : sending ∈ (consoleAfter deps sessions events).sent) {request : Request} {id : String}
    (serving : Serving events sending.handler request) (route : request.route = .approve id)
    {session : Session}
    (authentic : Authentic (consoleAt deps sessions events sending.handler) request session) :
    ∃ place review,
      Approval deps (consoleAt deps sessions events sending.handler) request session place review ∧
      ApprovedAt (consoleAt deps sessions events (sending.handler + 1)) place ∧
      (sending.call.rpc.isMutation = true → review.op.Carries sending.call.rpc) := by
  rcases origin_of_sent mem with ⟨_, _, other, session', otherServing, theirs, origin, _⟩
  have same := eq_of_serving otherServing serving
  subst same
  have sameSession := session_unique theirs authentic
  subst sameSession
  rcases origin.approval_of_route route with ⟨place, review, approval, _, carries⟩
  rcases approval.route with ⟨theId, isRoute, found⟩
  exact ⟨place, review, approval, approvedAt_first mem serving isRoute found, carries⟩

/-- The record that the turn of an exchange leaves is its entry. -/
theorem enters_of_documents {exchange : Exchange Call Reply} {entry : ActionLogEntry} {turn : ℕ}
    (isSent : ⟨exchange.handler, turn, exchange.past, exchange.call⟩ ∈
      (consoleAfter deps sessions events).sent)
    {request : Request} (serving : Serving events exchange.handler request) {session : Session}
    (authentic : Authentic (consoleAt deps sessions events exchange.handler) request session)
    (documents : Documents
      (contextOf session (reviewOf (consoleAt deps sessions events exchange.handler) request))
      exchange.call.rpc entry.toActionLogRecord) :
    Enters deps sessions events exchange entry := by
  refine ⟨request, session, serving, authentic, documents.actor, ?_, documents.target,
    documents.action, documents.requestId, ?_⟩
  · intro isMutation
    rcases origin_of_sent isSent with ⟨_, _, other, session', otherServing, theirs, _, rest⟩
    have same := eq_of_serving otherServing serving
    subst same
    have sameSession := session_unique theirs authentic
    subst sameSession
    exact (rest isMutation).1
  · by_cases isApproval : ∃ id, request.route = .approve id
    · rcases isApproval with ⟨id, route⟩
      rcases approval_of_sent isSent serving route authentic with
        ⟨place, review, approval, approved, _⟩
      rcases approval.route with ⟨theId, isRoute, found⟩
      have isReview : reviewOf (consoleAt deps sessions events exchange.handler) request =
          some review := by
        simp [reviewOf, isRoute, found]
      have isInitiator := documents.initiator
      have isApprover := documents.approver
      rw [isReview] at isInitiator isApprover
      refine Or.inr ⟨place, review, approval, approved, isInitiator, isApprover, ?_⟩
      rw [isInitiator, isApprover]
      simpa [contextOf] using approval.other
    · have notApproval : ∀ id, request.route ≠ .approve id := fun id route =>
        isApproval ⟨id, route⟩
      have isNone : reviewOf (consoleAt deps sessions events exchange.handler) request = none := by
        rw [reviewOf]
        split
        · rename_i id route
          exact absurd route (notApproval id)
        · rfl
      have isInitiator := documents.initiator
      have isApprover := documents.approver
      rw [isNone] at isInitiator isApprover
      exact Or.inl ⟨notApproval, isInitiator, isApprover⟩

/-- An event completes no execution and leaves the log alone, or completes one, and the log grows
by its entry. -/
theorem log_step (event : ConsoleEvent) :
    executions deps sessions (events ++ [event]) = executions deps sessions events ∧
      (consoleAfter deps sessions (events ++ [event])).store.actionLog =
        (consoleAfter deps sessions events).store.actionLog ∨
    ∃ exchange entry, Enters deps sessions events exchange entry ∧
      executions deps sessions (events ++ [event]) =
        executions deps sessions events ++ [exchange] ∧
      entry.seq = (consoleAfter deps sessions events).store.actionLog.seq + 1 ∧
      (consoleAfter deps sessions (events ++ [event])).store.actionLog =
        ⟨(consoleAfter deps sessions events).store.actionLog.entries ++ [entry], entry.seq⟩ := by
  have turning := console_turning deps sessions events
  rw [executions_concat]
  cases Loop.step_turn turning (app_turns deps) event with
  | starts moment request _ isNone turn =>
      have isNone : (consoleAfter deps sessions events).exchange? event = none := isNone
      rw [isNone]
      refine Or.inl ⟨by simp, ?_⟩
      rcases turn.kept.log with ⟨_, same⟩ | ⟨_, _, same⟩
      · exact same
      · exact same
  | dropped isNone _ same _ =>
      have isNone : (consoleAfter deps sessions events).exchange? event = none := isNone
      rw [isNone]
      refine Or.inl ⟨by simp, ?_⟩
      exact congrArg Store.actionLog same
  | resumes exchange request isExchange serves turn =>
      have isExchange : (consoleAfter deps sessions events).exchange? event = some exchange :=
        isExchange
      have kept : AppTurn deps (consoleAt deps sessions events exchange.handler) request
          (exchange.past ++ [(exchange.call, exchange.reply)])
          (consoleAfter deps sessions events).store
          (consoleAfter deps sessions (events ++ [event])).store _ := turn.kept
      have isCompleted := @completed_eq deps sessions events exchange
      rw [resetting_of_serving serves] at isCompleted
      rw [isExchange]
      rcases Loop.exchange?_eq_some isExchange with ⟨waiting, _, _, isWaiting, isPast, isCall, _⟩
      rcases (turning.ready _ waiting isWaiting).sends with ⟨turn, isSent⟩
      rw [isPast, isCall] at isSent
      cases isExecution : confirms exchange || nothingToReset deps sessions events exchange with
      | false =>
          rw [isExecution] at isCompleted
          refine Or.inl ⟨by simp [isExecution], ?_⟩
          rcases kept.log with ⟨_, same⟩ | ⟨_, _, logs⟩
          · exact same
          · rw [Logs, isCompleted] at logs
            exact logs
      | true =>
          rw [isExecution] at isCompleted
          rcases kept.log with ⟨isNone, _⟩ | ⟨session, authentic, logs⟩
          · simp [isCompleted] at isNone
          · rw [Logs, isCompleted] at logs
            rcases logs with ⟨record, moment, documents, isLog⟩
            refine Or.inr ⟨exchange,
              ⟨record, (consoleAfter deps sessions events).store.actionLog.seq + 1, moment.isoNow⟩,
              enters_of_documents isSent serves authentic documents, by simp [isExecution], rfl,
              isLog⟩

variable (deps sessions events)

/-- The log numbers its entries from one, and has one for each execution that succeeded, in the
order of their completion. -/
theorem action_log_exact :
    (consoleAfter deps sessions events).store.actionLog.entries.map ActionLogEntry.seq =
      List.range' 1 (consoleAfter deps sessions events).store.actionLog.entries.length ∧
    List.Forall₂ (Enters deps sessions events) (executions deps sessions events)
      (consoleAfter deps sessions events).store.actionLog.entries := by
  have exact : (consoleAfter deps sessions events).store.actionLog.seq =
        (consoleAfter deps sessions events).store.actionLog.entries.length ∧
      (consoleAfter deps sessions events).store.actionLog.entries.map ActionLogEntry.seq =
        List.range' 1 (consoleAfter deps sessions events).store.actionLog.entries.length ∧
      List.Forall₂ (Enters deps sessions events) (executions deps sessions events)
        (consoleAfter deps sessions events).store.actionLog.entries := by
    induction events using List.reverseRecOn with
    | nil => exact ⟨rfl, rfl, .nil⟩
    | append_singleton before event ih =>
        rcases ih with ⟨isSeq, numbered, documented⟩
        have earlier : List.Forall₂ (Enters deps sessions (before ++ [event]))
            (executions deps sessions before)
            (consoleAfter deps sessions before).store.actionLog.entries :=
          documented.imp fun _ _ enters => enters.append [event]
        rcases @log_step deps sessions before event with
          ⟨sameExecutions, sameLog⟩ | ⟨exchange, entry, enters, grown, isNext, isLog⟩
        · rw [sameExecutions, sameLog]
          exact ⟨isSeq, numbered, earlier⟩
        · rw [grown, isLog]
          refine ⟨?_, ?_, ?_⟩
          · simp [isNext, isSeq]
          · rw [List.length_append, List.length_singleton, List.range'_concat, List.map_append,
              numbered]
            simp [isNext, isSeq, Nat.add_comm]
          · exact List.rel_append earlier (.cons (enters.append [event]) .nil)
  exact exact.2

end RateLimiter.Console
