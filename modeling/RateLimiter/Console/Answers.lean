import RateLimiter.Console.AppTurns
import RateLimiter.Lib.Journeys

/-!
# What a response tells about a change

Whether a change was made can be read off the response of its request, however
the requests interleave: a response of success means that the request has sent
one mutation and that this one has succeeded, or that a reset found nothing to
refund; a refusal or a failure means that none has. One kind of failure tells
nothing, and it can be told by its last exchange: a change was made, and a
later reply, or what the reply to the change itself said, could not be shown.
-/

namespace RateLimiter.Console

open EventLoop EventLoop.Handler JavaScript

section Exchanges

/-- The exchanges that ask a backend for a change. -/
def mutations (past : List (Call × Reply)) : List (Call × Reply) :=
  past.filter fun exchange => exchange.1.rpc.isMutation

/-- One change was asked for, and it was made. -/
def Applied (past : List (Call × Reply)) : Prop :=
  ∃ call message, mutations past = [(call, .ok message)]

/-- No change was made. -/
def Unapplied (past : List (Call × Reply)) : Prop :=
  ∀ exchange ∈ mutations past, exchange.2.isOk = false

/-- A reset has looked, and there was nothing to refund. -/
def Idle (past : List (Call × Reply)) : Prop :=
  mutations past = [] ∧ ∃ key message rest, past = (⟨.getUsage key, none⟩, .ok message) :: rest ∧
    (Number.finite 0).lt (consumedOf message) = false

/-- The reply to a change or to a look that the console can show. -/
def legible : Call × Reply → Bool
  | (⟨.createLimit _ _ _, _⟩, .ok (.limit _)) => true
  | (⟨.updateLimit _ _ _ _, _⟩, .ok (.limit _)) => true
  | (⟨.deleteLimit _ _, _⟩, .ok _) => true
  | (⟨.registerService _, _⟩, .ok (.service _)) => true
  | (⟨.refund _ _ _, _⟩, .ok (.refunded _ _ resetAt)) => (timestampToIso resetAt).isOk
  | (⟨.getUsage _, _⟩, .ok (.usage usage)) => (timestampToIso usage.resetAt).isOk
  | _ => false

/-- The last reply could not be shown. -/
def Garbled (past : List (Call × Reply)) : Prop :=
  ∃ last, past.getLast? = some last ∧ legible last = false

variable {past : List (Call × Reply)}

theorem mutations_of_unmutated (unmutated : Unmutated past) : mutations past = [] := by
  apply List.filter_eq_nil_iff.mpr
  intro exchange mem
  simp [unmutated exchange mem]

theorem mutations_read {call : Call} (isRead : call.rpc.isMutation = false) (reply : Reply) :
    mutations (past ++ [(call, reply)]) = mutations past := by
  simp [mutations, isRead]

theorem mutations_mutation {call : Call} (isMutation : call.rpc.isMutation = true)
    (unmutated : mutations past = []) (reply : Reply) :
    mutations (past ++ [(call, reply)]) = [(call, reply)] := by
  simp only [mutations] at unmutated ⊢
  simp [unmutated, isMutation]

theorem unapplied_of_nil (unmutated : mutations past = []) : Unapplied past := by
  simp [Unapplied, unmutated]

theorem garbled_concat {exchange : Call × Reply} (isGarbled : legible exchange = false) :
    Garbled (past ++ [exchange]) :=
  ⟨exchange, by simp, isGarbled⟩

end Exchanges

section Executors

/-- The statuses that report a change as made. -/
def Response.isSuccess (response : Response) : Bool :=
  [200, 201, 204].contains response.status

/-- The other statuses, but for that of a change that is held. -/
def Response.isFailure (response : Response) : Bool :=
  !response.isSuccess && response.status != 202

/-- How an executor ends. -/
structure Executed {α : Type} (outcome : Except Thrown α) (past : List (Call × Reply)) : Prop where
  single : (mutations past).length ≤ 1
  success : ∀ value, outcome = .ok value → Applied past ∨ Idle past
  failure : ∀ thrown, outcome = .error thrown → (errorMiddleware thrown).isFailure = true ∧
    (Unapplied past ∨ Garbled past)

variable {α : Type} {past : List (Call × Reply)}

theorem isFailure_rpcError (failure : ServiceError) :
    (errorMiddleware (rpcError failure)).isFailure = true := by
  rcases failure with ⟨code, details, message⟩
  cases code <;> rfl

/-- A call that failed ends the executor before any change. -/
theorem Executed.failed {call : Call} {failure : ServiceError}
    (unmutated : mutations past = []) :
    Executed (.error (rpcError failure) : Except Thrown α) (past ++ [(call, .error failure)]) := by
  have cases : mutations (past ++ [(call, .error failure)]) = [] ∨
      mutations (past ++ [(call, .error failure)]) = [(call, .error failure)] := by
    cases isMutation : call.rpc.isMutation with
    | false => exact Or.inl ((mutations_read isMutation _).trans unmutated)
    | true => exact Or.inr (mutations_mutation isMutation unmutated _)
  refine ⟨?_, by simp, ?_⟩
  · rcases cases with isNil | isOne
    · simp [isNil]
    · simp [isOne]
  · intro thrown isThrown
    cases isThrown
    refine ⟨isFailure_rpcError failure, Or.inl ?_⟩
    intro exchange mem
    rcases cases with isNil | isOne
    · simp [isNil] at mem
    · rw [isOne, List.mem_singleton] at mem
      subst exchange
      rfl

/-- A change that was made ends well if its reply can be shown. -/
theorem Executed.applied {call : Call} {message : Message} {outcome : Except Thrown α}
    (isMutation : call.rpc.isMutation = true) (unmutated : mutations past = [])
    (thrown : ∀ thrown, outcome = .error thrown →
      (errorMiddleware thrown).isFailure = true ∧ legible (call, .ok message) = false) :
    Executed outcome (past ++ [(call, .ok message)]) := by
  have isOne := mutations_mutation isMutation unmutated (.ok message)
  refine ⟨by simp [isOne], fun _ _ => Or.inl ⟨call, message, isOne⟩, ?_⟩
  intro error isError
  rcases thrown error isError with ⟨isFailure, isGarbled⟩
  exact ⟨isFailure, Or.inr (garbled_concat isGarbled)⟩

/-- Another value is shown. -/
theorem Executed.respond {Result : Type} {outcome : Except Thrown α} (respond : α → Result)
    (executed : Executed outcome past) :
    Executed (match outcome with
      | .ok value => .ok (respond value)
      | .error thrown => .error thrown) past := by
  cases outcome with
  | ok value => exact ⟨executed.single, fun _ _ => executed.success value rfl, by simp⟩
  | error thrown =>
      refine ⟨executed.single, by simp, ?_⟩
      intro other isOther
      cases isOther
      exact executed.failure thrown rfl

theorem concludes_call {rpc : Rpc} {actor : Option String}
    {post : Except Thrown Message → List (Call × Reply) → Prop}
    (failed : ∀ failure,
      post (.error (rpcError failure)) (past ++ [(⟨rpc, actor⟩, .error failure)]))
    (goesOn : ∀ message, post (.ok message) (past ++ [(⟨rpc, actor⟩, .ok message)])) :
    Concludes post (call rpc actor) past := by
  intro before now
  rw [wpTurn_call]
  refine ⟨trivial, ?_⟩
  intro reply later
  cases reply with
  | error failure => exact failed failure
  | ok message => exact goesOn message

theorem concludes_orThrow {result : Except Thrown α}
    {post : Except Thrown α → List (Call × Reply) → Prop} (holds : post result past) :
    Concludes post (orThrow result) past := by
  cases result with
  | ok value => exact fun _ _ => holds
  | error error => exact fun _ _ => holds

/-- A mutation, its record and what follows. -/
theorem concludes_mutation {rpc : Rpc} {context : OpContext} {action : Action} {target : Target}
    {details : Option Details} {requestId : Option String} {next : Message → Async α}
    (unmutated : mutations past = [])
    (goesOn : ∀ message, Concludes Executed (next message)
      (past ++ [(⟨rpc, some context.actor⟩, .ok message)])) :
    Concludes Executed (do
      let message ← call rpc (some context.actor)
      context.log action target details requestId
      next message) past := by
  apply Concludes.bind
  apply concludes_call
  · exact fun failure => .failed unmutated
  · intro message
    apply Concludes.atomically
    exact fun _ _ => goesOn message

/-- A reply of another kind than the call's. -/
theorem Executed.unexpected {call : Call} {message : Message}
    (isMutation : call.rpc.isMutation = true) (unmutated : mutations past = [])
    (isGarbled : legible (call, .ok message) = false) :
    Executed (.error unexpectedReply : Except Thrown α) (past ++ [(call, .ok message)]) := by
  apply Executed.applied isMutation unmutated
  intro thrown isThrown
  cases isThrown
  exact ⟨rfl, isGarbled⟩

theorem createLimit_executed (context : OpContext) (input : ValidatedLimit) :
    Concludes Executed (createLimit context input) [] := by
  apply concludes_mutation rfl
  intro message
  cases message with
  | limit limit => exact fun _ _ => .applied rfl rfl (by simp)
  | _ => exact fun _ _ => .unexpected rfl rfl rfl

theorem updateLimit_executed (context : OpContext) (input : ValidatedLimit)
    (createIfAbsent : Bool) : Concludes Executed (updateLimit context input createIfAbsent) [] := by
  apply concludes_mutation rfl
  intro message
  cases message with
  | limit limit => exact fun _ _ => .applied rfl rfl (by simp)
  | _ => exact fun _ _ => .unexpected rfl rfl rfl

theorem deleteLimit_executed (context : OpContext) (key : LimitKey) (allowMissing : Bool) :
    Concludes Executed (deleteLimit context key allowMissing) [] := by
  apply Concludes.bind
  apply concludes_call
  · exact fun failure => .failed rfl
  · exact fun message _ _ _ => .applied rfl rfl (by simp)

theorem timestampToIso_error {timestamp : Option WireTimestamp} {thrown : Thrown}
    (isThrown : timestampToIso timestamp = .error thrown) :
    (errorMiddleware thrown).isFailure = true ∧ (timestampToIso timestamp).isOk = false := by
  refine ⟨?_, by rw [isThrown]; rfl⟩
  unfold timestampToIso at isThrown
  split at isThrown
  · cases isThrown
  · split at isThrown <;> cases isThrown
    rfl

theorem refund_executed (context : OpContext) (key : LimitKey) (amount : Number) :
    Concludes Executed (refund context key amount) [] := by
  apply Concludes.atomically
  intro moment store
  apply concludes_mutation rfl
  intro message
  cases message with
  | refunded remaining limit resetAt =>
      apply Concludes.bind
      apply concludes_orThrow
      cases shown : timestampToIso resetAt with
      | ok text => exact fun _ _ => .applied rfl rfl (by simp)
      | error thrown =>
          apply Executed.applied rfl rfl
          intro other isOther
          cases isOther
          exact timestampToIso_error shown
  | _ => exact fun _ _ => .unexpected rfl rfl rfl

/-- The last look of a reset. -/
theorem readUsage_executed {key : LimitKey} {fetchedAt : String}
    (single : (mutations past).length ≤ 1) (done : Applied past ∨ Idle past) :
    Concludes Executed (readUsage key fetchedAt) past := by
  have isRead (reply : Reply) : mutations (past ++ [(⟨.getUsage key, none⟩, reply)]) =
      mutations past := mutations_read rfl reply
  have lost : ∀ {reply : Reply} {thrown : Thrown}, (errorMiddleware thrown).isFailure = true →
      legible (⟨.getUsage key, none⟩, reply) = false →
      Executed (.error thrown : Except Thrown Value)
        (past ++ [(⟨.getUsage key, none⟩, reply)]) := by
    intro reply thrown isFailure isGarbled
    refine ⟨by rwa [isRead], by simp, ?_⟩
    intro other isOther
    cases isOther
    exact ⟨isFailure, Or.inr (garbled_concat isGarbled)⟩
  apply Concludes.bind
  apply concludes_call
  · exact fun failure => lost (isFailure_rpcError failure) rfl
  · intro message
    cases message with
    | usage usage =>
        apply concludes_orThrow
        cases shown : timestampToIso usage.resetAt with
        | ok text =>
            refine ⟨by rwa [isRead], ?_, by simp [toUsageView, shown]⟩
            intro value _
            rcases done with ⟨call, other, isOne⟩ | ⟨isNil, first, other, rest, rfl, nothing⟩
            · exact Or.inl ⟨call, other, (isRead _).trans isOne⟩
            · exact Or.inr ⟨(isRead _).trans isNil, first, other, _, rfl, nothing⟩
        | error thrown =>
            rcases timestampToIso_error shown with ⟨isFailure, isGarbled⟩
            simp only [toUsageView, shown]
            exact lost isFailure isGarbled
    | _ => exact fun _ _ => lost rfl rfl

theorem resetWindow_executed (context : OpContext) (key : LimitKey) :
    Concludes Executed (resetWindow context key) [] := by
  apply Concludes.atomically
  intro moment store
  apply Concludes.bind
  apply concludes_call
  · exact fun failure => .failed rfl
  · intro message
    apply Concludes.atomically
    intro later now
    split
    · apply concludes_mutation rfl
      intro reply
      exact readUsage_executed (by simp [mutations, Rpc.isMutation])
        (Or.inl ⟨_, reply, by simp [mutations, Rpc.isMutation]; rfl⟩)
    · rename_i nothing
      apply Concludes.atomically
      intro _ _
      apply readUsage_executed
      · simp [mutations, Rpc.isMutation]
      · exact Or.inr ⟨rfl, key, message, [], rfl, by simpa using nothing⟩

theorem executePendingOp_executed (context : OpContext) (op : PendingOp) :
    Concludes Executed (executePendingOp context op) [] := by
  cases op with
  | limitUpdate limit => exact updateLimit_executed context limit true
  | limitDelete key =>
      apply Concludes.bind
      apply (deleteLimit_executed context key false).mono
      intro outcome past executed
      have shown := executed.respond fun _ : Unit => Value.undefined
      cases outcome with
      | ok value => exact fun _ _ => shown
      | error thrown => exact shown
  | opRefund key amount => exact refund_executed context key amount
  | opReset key => exact resetWindow_executed context key

end Executors

section Routes

/-- The requests that ask for a change of the backends. -/
def Request.changes (request : Request) : Bool :=
  match request.route with
  | .createLimit | .updateLimit | .deleteLimit | .createService | .editService _ | .refund | .reset
  | .approve _ => true
  | _ => false

/-- What a response tells about the exchanges of its request. -/
structure Telling (changes : Bool) (past : List (Call × Reply)) (response : Response) : Prop where
  single : (mutations past).length ≤ 1
  reads : changes = false → mutations past = []
  success : changes = true → response.isSuccess = true → Applied past ∨ Idle past
  held : changes = true → response.status = 202 → past = []
  failure : response.isFailure = true → Unapplied past ∨ Garbled past

/-- The outcome of a route tells it after the error middleware. -/
def Told (changes : Bool) (outcome : Except Thrown Response) (past : List (Call × Reply)) : Prop :=
  match outcome with
  | .ok response => Telling changes past response
  | .error thrown => Telling changes past (errorMiddleware thrown)

variable {deps : Deps} {session : Session} {request : Request} {body : Fields}
  {past : List (Call × Reply)} {changes : Bool}

theorem telling_unmutated (response : Response) (unmutated : mutations past = []) :
    Telling false past response where
  single := by simp [unmutated]
  reads _ := unmutated
  success := by simp
  held := by simp
  failure _ := Or.inl (unapplied_of_nil unmutated)

theorem told_unmutated (outcome : Except Thrown Response) (unmutated : mutations past = []) :
    Told false outcome past := by
  cases outcome with
  | ok response => exact telling_unmutated response unmutated
  | error thrown => exact telling_unmutated _ unmutated

/-- A refusal before any call. -/
theorem telling_refused {response : Response} (refuses : response.isSuccess = false) :
    Telling changes [] response where
  single := by simp [mutations]
  reads _ := rfl
  success := by simp [refuses]
  held _ _ := rfl
  failure _ := Or.inl (unapplied_of_nil rfl)

theorem Executed.told {outcome : Except Thrown Response} (executed : Executed outcome past)
    (succeeds : ∀ response, outcome = .ok response → response.isSuccess = true) :
    Told true outcome past := by
  rcases executed with ⟨single, success, failure⟩
  cases outcome with
  | ok response =>
      have isSuccess := succeeds response rfl
      refine ⟨single, by simp, fun _ _ => success response rfl, ?_, ?_⟩
      · intro _ isHeld
        simp [Response.isSuccess, isHeld] at isSuccess
      · intro isFailure
        simp [Response.isFailure, isSuccess] at isFailure
  | error thrown =>
      rcases failure thrown rfl with ⟨isFailure, unapplied⟩
      have fails := isFailure
      simp only [Response.isFailure, Bool.and_eq_true, Bool.not_eq_eq_eq_not, Bool.not_true,
        bne_iff_ne, ne_eq] at fails
      refine ⟨single, by simp, ?_, ?_, fun _ => unapplied⟩
      · simp [fails.1]
      · simp [fails.2]

theorem told_of_executed {α : Type} {handler : Async α} {respond : α → Response}
    (executed : Concludes Executed handler [])
    (succeeds : ∀ value, (respond value).isSuccess = true) :
    Concludes (Told true) (do return respond (← handler)) [] := by
  apply Concludes.bind
  apply executed.mono
  intro outcome past executed
  have told := (executed.respond respond).told
  cases outcome with
  | ok value =>
      refine fun _ _ => told ?_
      intro response isResponse
      cases isResponse
      exact succeeds value
  | error thrown => exact told (by simp)

theorem told_guard {capability : Capability} {service : Option String} {handler : Async Response}
    (told : Concludes (Told changes) handler []) :
    Concludes (Told changes) (guard deps session capability service handler) [] := by
  unfold guard
  split
  · exact told
  · exact fun _ _ => telling_refused rfl

theorem told_parsed {α : Type} {result : Except (List String) α} {handler : α → Async Response}
    (told : ∀ value, Concludes (Told changes) (handler value) []) :
    Concludes (Told changes) (parsed result handler) [] := by
  cases result with
  | ok value => exact told value
  | error errors => exact fun _ _ => telling_refused rfl

theorem told_reviewed {op : PendingOp} {handler : Async Response}
    (told : Concludes (Told changes) handler []) :
    Concludes (Told changes) (reviewed deps session op handler) [] := by
  unfold reviewed
  split
  · exact told
  · apply Concludes.atomically
    exact fun _ _ _ _ => telling_refused rfl

/-- What only reads has changed nothing. -/
theorem concludes_of_reading {α : Type} {handler : Async α} {before now : Store}
    (reads : wp anything reading handler past now fun _ _ _ => True)
    (unmutated : Unmutated past) :
    wpTurn (fun _ _ _ _ => True) handler past before now
      fun _ past _ _ => mutations past = [] := by
  induction handler generalizing past before now with
  | done outcome => exact mutations_of_unmutated unmutated
  | call request resume ih =>
      refine ⟨trivial, ?_⟩
      intro reply later
      exact ih reply (reads.2 reply later trivial) (unmutated.read reads.1 reply)
  | access update next ih => exact fun moment => ih moment now (reads moment).2 unmutated

theorem told_of_keeps {handler : Async Response} (reads : Keeps anything reading handler) :
    Concludes (Told false) handler [] := by
  intro before now
  apply wpTurn_mono (fun _ _ _ _ _ => trivial) _ (concludes_of_reading (reads [] now) unmutated_nil)
  exact fun outcome past _ _ unmutated => told_unmutated outcome unmutated

theorem register_told {capability : Capability} {action : Action} {status : ℕ} {fields : Fields}
    (isStatus : ∀ body, (Response.json status body).isSuccess = true) :
    Concludes (Told true)
      (ServicesRouter.register deps session capability action status fields) [] := by
  apply told_parsed
  intro service
  apply told_guard
  apply Concludes.bind
  apply concludes_call
  · exact fun failure => (Executed.failed rfl).told (by simp)
  · intro message
    apply Concludes.atomically
    intro _ _
    cases message with
    | service shown =>
        have executed : Executed (.ok (Response.json status (toServiceView shown)))
            ([] ++ [(⟨.registerService service, some session.user.email⟩, .ok (.service shown))]) :=
          .applied rfl rfl (by simp)
        refine fun _ _ => executed.told ?_
        intro response isResponse
        cases isResponse
        exact isStatus _
    | _ => exact fun _ _ => (Executed.unexpected rfl rfl rfl).told (by simp)

theorem refusal_fails {moment : Moment} {id approver : String} {decision : ReviewStatus}
    {store : Store} {refusal : ReviewStore.Refusal}
    (refused : (ReviewStore.decide moment id approver decision store).1 = .error refusal) :
    (Response.error refusal.status refusal.error).isSuccess = false := by
  unfold ReviewStore.decide at refused
  split at refused
  · cases refused
    rfl
  · split at refused
    · cases refused
      rfl
    · split at refused <;> cases refused
      rfl

theorem decide_told {id : String} {decision : ReviewStatus} {decided : Review → Async Response}
    (told : ∀ review, Concludes (Told changes) (decided review) []) :
    Concludes (Told changes) (ReviewsRouter.decide deps session id decision decided) [] := by
  apply told_guard
  apply Concludes.atomically
  intro moment store
  cases isDecided : (ReviewStore.decide moment id session.user.email decision store).1 with
  | error refusal => exact fun _ _ => telling_refused (refusal_fails isDecided)
  | ok review => exact told review

/-- Every route behind the checks. -/
theorem api_told : Concludes (Told request.changes) (api deps session request body) [] := by
  cases route : request.route with
  | listLimits =>
      simp only [api, Request.changes, route]
      exact told_of_keeps listLimits_keeps
  | resolveLimit =>
      simp only [api, Request.changes, route]
      exact told_of_keeps resolveLimit_keeps
  | createLimit =>
      simp only [api, Request.changes, route]
      apply told_parsed
      intro limit
      apply told_guard
      exact told_of_executed (createLimit_executed _ limit) fun _ => rfl
  | updateLimit =>
      simp only [api, Request.changes, route]
      apply told_parsed
      intro limit
      apply told_guard
      apply told_reviewed
      exact told_of_executed (updateLimit_executed _ limit _) fun _ => rfl
  | deleteLimit =>
      simp only [api, Request.changes, route]
      apply told_parsed
      intro key
      apply told_guard
      apply told_reviewed
      exact told_of_executed (deleteLimit_executed _ key _) fun _ => rfl
  | listServices =>
      simp only [api, Request.changes, route]
      exact told_of_keeps listServices_keeps
  | getService name =>
      simp only [api, Request.changes, route]
      exact told_of_keeps getService_keeps
  | createService | editService name =>
      simp only [api, Request.changes, route]
      exact register_told fun _ => rfl
  | listAudit =>
      simp only [api, Request.changes, route]
      exact told_of_keeps listAudit_keeps
  | configHistory configId =>
      simp only [api, Request.changes, route]
      exact told_of_keeps configHistory_keeps
  | usage =>
      simp only [api, Request.changes, route]
      exact told_of_keeps usage_keeps
  | refund =>
      simp only [api, Request.changes, route]
      apply told_parsed
      intro key
      split
      · exact fun _ _ => telling_refused rfl
      · apply told_guard
        apply told_reviewed
        exact told_of_executed (refund_executed _ key _) fun _ => rfl
  | reset =>
      simp only [api, Request.changes, route]
      apply told_parsed
      intro key
      apply told_guard
      apply told_reviewed
      exact told_of_executed (resetWindow_executed _ key) fun _ => rfl
  | listReviews =>
      simp only [api, Request.changes, route]
      exact told_of_keeps listReviews_keeps
  | approve id =>
      simp only [api, Request.changes, route]
      apply decide_told
      intro review
      exact told_of_executed (executePendingOp_executed _ review.op) fun _ => rfl
  | reject id =>
      simp only [api, Request.changes, route]
      apply decide_told
      exact fun review _ _ => telling_unmutated _ rfl
  | actionLog =>
      simp only [api, Request.changes, route]
      exact told_of_keeps actionLog_keeps
  | session | healthz | login | logout | unmatched underApi method =>
      simp only [api, Request.changes, route]
      exact fun _ _ => telling_unmutated _ rfl

theorem devLogin_told : Concludes (Told false) (devLogin deps body) [] := by
  unfold devLogin
  split
  · exact fun _ _ => telling_unmutated _ rfl
  · apply Concludes.bind
    rcases ends_stringOrEmpty (Value.property body "user") with ⟨outcome, ended⟩
    rw [ended]
    intro before now
    cases outcome with
    | error thrown => exact telling_unmutated _ rfl
    | ok id =>
        dsimp only [wpTurn]
        split
        · exact fun _ _ => telling_unmutated _ rfl
        · exact fun _ _ _ => telling_unmutated _ rfl

/-- The whole app. -/
theorem app_told (deps : Deps) (request : Request) :
    Concludes (fun outcome past => ∃ response, outcome = .ok response ∧
      Telling request.changes past response) (app deps request) [] := by
  apply Concludes.recover
  have told : Concludes (Told request.changes) (routes deps request) [] := by
    unfold routes
    cases hasBody : request.body with
    | error message => exact fun _ _ => telling_refused rfl
    | ok body =>
        dsimp only
        split
        · rename_i route
          simp only [Request.changes, route]
          exact fun _ _ => telling_unmutated _ rfl
        · rename_i route
          simp only [Request.changes, route]
          exact devLogin_told
        · rename_i route
          simp only [Request.changes, route]
          exact fun _ _ _ => telling_unmutated _ rfl
        · rename_i route
          simp only [Request.changes, route]
          exact fun _ _ => telling_unmutated _ rfl
        · apply Concludes.atomically
          intro moment store
          cases SessionStore.get store request.cookie with
          | none => exact fun _ _ => telling_refused rfl
          | some session =>
              dsimp only
              split
              · exact api_told
              · exact fun _ _ => telling_refused rfl
  apply told.mono
  intro outcome past told
  cases outcome with
  | ok response => exact ⟨response, rfl, told⟩
  | error thrown => exact ⟨_, rfl, told⟩

end Routes

/-- In every run each request is answered at most once, and its response tells what it has changed:
by then it has received the replies to all the calls it has sent. -/
theorem answers_telling (deps : Deps) (sessions : Map Session) (events : List ConsoleEvent) :
    ((consoleAfter deps sessions events).answers.map Answer.handler).Nodup ∧
    ∀ answer ∈ (consoleAfter deps sessions events).answers, ∃ request response,
      Serving events answer.handler request ∧ answer.outcome = .ok response ∧
      Loop.callsOf (consoleAfter deps sessions events).sent answer.handler =
        (Loop.received (app deps) (.fresh sessions) events answer.handler).map Prod.fst ∧
      Telling request.changes
        (Loop.received (app deps) (.fresh sessions) events answer.handler) response := by
  have journeys : Loop.Journeys (app deps) (.fresh sessions) _ events
      (consoleAfter deps sessions events) := Loop.journeys (app_told deps) events
  refine ⟨journeys.once, ?_⟩
  intro answer mem
  rcases journeys.answered answer mem with ⟨_, calls, request, serves, response, isResponse, tells⟩
  exact ⟨request, response, serves, isResponse, calls, tells⟩

end RateLimiter.Console
