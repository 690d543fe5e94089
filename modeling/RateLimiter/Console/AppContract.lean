import RateLimiter.Console.Contract

/-!
# The app keeps its contract

One lemma for each route, and `app_keeps` for the whole app. `console_sound`
carries the contract over to every interleaving of the handlers.
-/

namespace RateLimiter.Console

open EventLoop EventLoop.Handler JavaScript

section Routes

variable {deps : Deps} {store : Store} {request : Request} {session : Session} {body : Fields}

theorem changes_of_same {past : List (Call × Reply)} {before after : Store}
    (same : after.reviews = before.reviews) :
    (contract deps store request).changes past before after := by
  refine ⟨.of_same same, ?_⟩
  intro place review beyond found
  rw [same, List.getElem?_eq_none beyond] at found
  simp at found

/-- A handler that keeps to an execution keeps the contract, whatever the reason for its calls. -/
theorem wp_contract_of_execution {α : Type} {handler : Async α} {past : List (Call × Reply)}
    {now : Store} {allowed : Rpc → Prop}
    {post : Except Thrown α → List (Call × Reply) → Store → Prop}
    (invariant : Store → Prop)
    (stable : ∀ before after, invariant before → Evolves before after → invariant after)
    (authentic : Authentic store request session)
    (origin : ∀ now rpc, invariant now → (rpc.isMutation = true → allowed rpc) →
      Origin deps store request session now rpc)
    (executes : wp anything (execution allowed session.user.email) handler past now post)
    (initially : invariant now) :
    wp Evolves (contract deps store request) handler past now post := by
  apply wp_refine invariant _ _ _ executes initially
  · intro before after holds evolved
    exact ⟨trivial, stable before after holds evolved⟩
  · intro past now call holds sends
    refine ⟨session, authentic, origin now call.rpc holds fun is => (sends is).1, ?_⟩
    intro isMutation
    exact (sends isMutation).2
  · intro past before after holds (same : after.reviews = before.reviews)
    exact ⟨changes_of_same same, stable before after holds (.of_same same)⟩

theorem wp_contract_of_reads {handler : Async Response}
    (authentic : Authentic store request session)
    (notApproval : ∀ id, request.route ≠ .approve id)
    (reads : Keeps anything reading handler) :
    wp Evolves (contract deps store request) handler [] store fun _ _ _ => True := by
  apply wp_contract_of_execution (fun _ => True) (fun _ _ _ _ => trivial) authentic _
    (executes_of_reading reads [] store) trivial
  · exact fun _ => False
  intro now rpc _ onlyReads
  apply Origin.reading _ notApproval
  cases isMutation : rpc.isMutation with
  | false => rfl
  | true => exact absurd (onlyReads isMutation) not_false

theorem wp_guard {rely : Store → Store → Prop} {agreed : Contract Store Call Reply}
    {past : List (Call × Reply)} {now : Store} {capability : Capability}
    {service : Option String} {handler : Async Response}
    (goesOn : Granted deps session.user capability service →
      wp rely agreed handler past now fun _ _ _ => True) :
    wp rely agreed (guard deps session capability service handler) past now
      fun _ _ _ => True := by
  rw [guard]
  split
  · rename_i granted
    exact goesOn granted
  · trivial

theorem wp_parsed {α : Type} {rely : Store → Store → Prop} {agreed : Contract Store Call Reply}
    {past : List (Call × Reply)} {now : Store} {result : Except (List String) α}
    {handler : α → Async Response}
    (goesOn : ∀ value, result = .ok value →
      wp rely agreed (handler value) past now fun _ _ _ => True) :
    wp rely agreed (parsed result handler) past now fun _ _ _ => True := by
  cases result with
  | ok value => exact goesOn value rfl
  | error errors => trivial

/-- A gated mutation: the review is created, or the mutation is sent. -/
theorem wp_reviewed {op : PendingOp} {handler : Async Response}
    (authentic : Authentic store request session) (isOp : request.op? = some op)
    (granted : Granted deps session.user op.capability (some op.key.serviceName))
    (executes : wp anything (execution op.Carries session.user.email) handler [] store
      fun _ _ _ => True) :
    wp Evolves (contract deps store request) (reviewed deps session op handler) [] store
      fun _ _ _ => True := by
  rw [reviewed]
  split
  · rename_i unreviewed
    apply wp_contract_of_execution (fun _ => True) (fun _ _ _ _ => trivial) authentic _ executes
      trivial
    intro now rpc _ carries
    exact .direct op isOp unreviewed carries granted
  · rename_i reason isReason
    rw [wp_bind, wp_atomically]
    intro moment
    refine ⟨⟨?_, ?_⟩, trivial⟩
    · intro place review found
      refine ⟨review, ?_, .refl review⟩
      rw [ReviewStore.create, List.getElem?_append_left]
      · exact found
      · exact (List.getElem?_eq_some_iff.mp found).1
    · intro place review beyond found
      rw [ReviewStore.create, List.getElem?_append_right beyond,
        List.getElem?_singleton] at found
      split at found
      · rw [Option.some.injEq] at found
        subst review
        exact ⟨isOp, isReason, session, authentic, rfl, granted⟩
      · simp at found

/-- A decision is refused and changes nothing, or settles a pending review of somebody else. -/
theorem decide_cases (moment : Moment) (id approver : String) (decision : ReviewStatus)
    (store : Store) :
    (∃ refusal, ReviewStore.decide moment id approver decision store = (.error refusal, store)) ∨
    ∃ place review decided, store.reviews.get id = some (place, review) ∧
      review.status = .pending ∧ review.initiator ≠ approver ∧ review.Later decided ∧
      decided.status = decision ∧
      ReviewStore.decide moment id approver decision store =
        (.ok decided, { store with
          reviews := { store.reviews with
            objects := store.reviews.objects.set place decided } }) := by
  cases found : store.reviews.get id with
  | none => exact Or.inl ⟨_, by rw [ReviewStore.decide, found]⟩
  | some entry =>
      rcases entry with ⟨place, review⟩
      by_cases pending : review.status = .pending
      · by_cases own : review.initiator = approver
        · exact Or.inl ⟨_, by
            simp only [ReviewStore.decide, found, pending, own]
            rfl⟩
        · refine Or.inr ⟨place, review, _, rfl, pending, own, ?_, ?_, by
            simp only [ReviewStore.decide, found, pending, own]
            rfl⟩
          · exact ⟨rfl, rfl, rfl, Or.inr pending⟩
          · rfl
      · exact Or.inl ⟨⟨409, "review already " ++ review.status.text⟩, by
          simp [ReviewStore.decide, found, pending]⟩

theorem getElem?_of_get {reviews : ReviewStore} {id : String} {place : ℕ} {review : Review}
    (found : reviews.get id = some (place, review)) : reviews.objects[place]? = some review := by
  simp only [ReviewStore.get, Option.bind_eq_bind, Option.bind_eq_some_iff] at found
  rcases found with ⟨_, _, _, isReview, same⟩
  cases same
  exact isReview

theorem changes_set {place : ℕ} {review decided : Review}
    (found : store.reviews.objects[place]? = some review) (later : review.Later decided)
    (past : List (Call × Reply)) :
    (contract deps store request).changes past store { store with
      reviews := { store.reviews with objects := store.reviews.objects.set place decided } } := by
  have inside : place < store.reviews.objects.length := (List.getElem?_eq_some_iff.mp found).1
  constructor
  · intro other old isOld
    by_cases here : place = other
    · subst other
      rw [found, Option.some.injEq] at isOld
      subst old
      exact ⟨decided, List.getElem?_set_self inside, later⟩
    · refine ⟨old, ?_, .refl old⟩
      rw [List.getElem?_set_ne here]
      exact isOld
  · intro other new beyond isNew
    rw [List.getElem?_set_ne (by omega), List.getElem?_eq_none beyond] at isNew
    simp at isNew

theorem approvedAt_stable {place : ℕ} {before after : Store} (approved : ApprovedAt before place)
    (evolves : Evolves before after) : ApprovedAt after place := by
  rcases approved with ⟨review, found, isApproved⟩
  rcases evolves place review found with ⟨later, laterFound, isLater⟩
  refine ⟨later, laterFound, ?_⟩
  rcases isLater.status with same | pending
  · rw [same]
    exact isApproved
  · rw [isApproved] at pending
    simp at pending

/-- The decision, and what is done with the review when it is taken. -/
theorem wp_decide {id : String} {decision : ReviewStatus} {decided : Review → Async Response}
    (goesOn : ∀ place review settled now, Granted deps session.user .reviewApprove none →
      store.reviews.get id = some (place, review) → review.status = .pending →
      review.initiator ≠ session.user.email → review.Later settled → settled.status = decision →
      now.reviews.objects[place]? = some settled →
      wp Evolves (contract deps store request) (decided settled) [] now fun _ _ _ => True) :
    wp Evolves (contract deps store request) (ReviewsRouter.decide deps session id decision decided)
      [] store fun _ _ _ => True := by
  apply wp_guard
  intro granted
  rw [wp_bind, wp_atomically]
  intro moment
  rcases decide_cases moment id session.user.email decision store with
    ⟨refusal, refused⟩ | ⟨place, review, settled, found, pending, other, later, isDecision, taken⟩
  · rw [refused]
    exact ⟨(contract deps store request).refl [] store, trivial⟩
  · rw [taken]
    have isReview := getElem?_of_get found
    refine ⟨changes_set isReview later [], ?_⟩
    exact goesOn place review settled _ granted found pending other later isDecision
      (List.getElem?_set_self (List.getElem?_eq_some_iff.mp isReview).1)

theorem approve_keeps {id : String} (authentic : Authentic store request session)
    (route : request.route = .approve id) :
    wp Evolves (contract deps store request) (ReviewsRouter.approve deps session id) [] store
      fun _ _ _ => True := by
  apply wp_decide
  intro place review settled now granted found pending other later isApproved isSettled
  rw [wp_bind]
  have approval : Approval deps store request session place review :=
    ⟨⟨id, route, found⟩, pending, other, granted⟩
  apply wp_contract_of_execution (fun now => ApprovedAt now place)
    (fun _ _ approved evolves => approvedAt_stable approved evolves) authentic _ _
    ⟨settled, isSettled, isApproved⟩
  · exact settled.op.Carries
  · intro now rpc approved carries
    rw [later.op] at carries
    exact .approval place review approval approved carries
  · apply wp_mono _ (executePendingOp_executes ⟨session.user.email, some settled.initiator,
      some session.user.email⟩ unmutated_nil)
    intro outcome _ _ _
    cases outcome <;> trivial

section Reads

variable {rely : Store → Store → Prop} {agreed : Contract Store Call Reply}
  {query : Fields}

theorem keeps_guard {capability : Capability} {service : Option String} {handler : Async Response}
    (keeps : Keeps rely agreed handler) :
    Keeps rely agreed (guard deps session capability service handler) :=
  fun past now => wp_guard fun _ => keeps past now

theorem keeps_parsed {α : Type} {result : Except (List String) α} {handler : α → Async Response}
    (keeps : ∀ value, Keeps rely agreed (handler value)) :
    Keeps rely agreed (parsed result handler) :=
  fun past now => wp_parsed fun value _ => keeps value past now

theorem keeps_stringOf (value : Value) : Keeps rely agreed (stringOf value) := by
  unfold stringOf
  cases value.toText with
  | some text => exact Keeps.pure text
  | none => exact Keeps.throw _

theorem keeps_stringOrEmpty (value : Value) : Keeps rely agreed (stringOrEmpty value) := by
  cases value with
  | undefined => exact Keeps.pure ""
  | null => exact Keeps.pure ""
  | boolean flag => exact keeps_stringOf (.boolean flag)
  | number number => exact keeps_stringOf (.number number)
  | string text => exact keeps_stringOf (.string text)
  | array items => exact keeps_stringOf (.array items)
  | object fields => exact keeps_stringOf (.object fields)

theorem keeps_stringIf (value : Value) : Keeps rely agreed (stringIf value) := by
  rw [stringIf]
  split
  · exact keeps_stringOf value
  · exact Keeps.pure _

theorem keeps_numberIf (value : Value) : Keeps rely agreed (numberIf value) := by
  rw [numberIf]
  split
  · rw [numberOf]
    split
    · exact Keeps.pure _
    · exact Keeps.throw _
  · exact Keeps.pure _

theorem listLimits_keeps :
    Keeps anything reading (LimitsRouter.list deps session query) := by
  apply Keeps.bind (keeps_stringOrEmpty _)
  intro serviceName
  split
  · exact Keeps.pure _
  apply keeps_guard
  apply Keeps.bind (keeps_stringIf _)
  intro customerId
  apply Keeps.bind (keeps_stringIf _)
  intro rateLimitId
  apply Keeps.bind (keeps_numberIf _)
  intro pageSize
  apply Keeps.bind (keeps_stringIf _)
  intro pageToken
  apply Keeps.bind (keeps_call_read rfl)
  intro message
  cases message with
  | limits limits token => exact Keeps.pure _
  | _ => exact Keeps.throw _

theorem resolveLimit_keeps :
    Keeps anything reading (LimitsRouter.resolve deps session query) := by
  apply keeps_parsed
  intro key
  apply keeps_guard
  apply Keeps.handle
  · apply Keeps.bind (keeps_call_read rfl)
    intro message
    cases message with
    | resolvedLimit limit isDefault => exact Keeps.pure _
    | _ => exact Keeps.throw _
  · intro error
    split
    · exact Keeps.pure _
    · exact Keeps.throw _

theorem listServices_keeps :
    Keeps anything reading (ServicesRouter.list deps session query) := by
  apply keeps_guard
  apply Keeps.bind (keeps_numberIf _)
  intro pageSize
  apply Keeps.bind (keeps_stringIf _)
  intro pageToken
  apply Keeps.bind (keeps_call_read rfl)
  intro message
  cases message with
  | services services token => exact Keeps.pure _
  | _ => exact Keeps.throw _

theorem getService_keeps {name : String} :
    Keeps anything reading (ServicesRouter.get deps session name) := by
  apply keeps_guard
  apply Keeps.bind (keeps_call_read rfl)
  intro message
  cases message with
  | service service => exact Keeps.pure _
  | _ => exact Keeps.throw _

theorem keeps_keyFilter {serviceName : String} :
    Keeps rely agreed (AuditRouter.keyFilter query serviceName) := by
  simp only [AuditRouter.keyFilter]
  split
  · apply Keeps.bind (keeps_stringOf _)
    intro customerId
    apply Keeps.bind (keeps_stringOf _)
    intro rateLimitId
    exact Keeps.pure _
  · exact Keeps.pure _

theorem listAudit_keeps :
    Keeps anything reading (AuditRouter.list deps session query) := by
  apply Keeps.bind (keeps_stringOrEmpty _)
  intro serviceName
  split
  · exact Keeps.pure _
  apply keeps_guard
  apply Keeps.bind keeps_keyFilter
  intro key
  apply Keeps.bind (keeps_numberIf _)
  intro configId
  apply Keeps.bind (keeps_stringIf _)
  intro since
  apply Keeps.bind (keeps_numberIf _)
  intro pageSize
  apply Keeps.bind (keeps_stringIf _)
  intro pageToken
  apply Keeps.bind (keeps_call_read rfl)
  intro message
  cases message with
  | auditEntries entries token =>
      apply Keeps.bind (keeps_orThrow _)
      intro entries
      apply Keeps.bind (keeps_stringIf _)
      intro changedBy
      apply Keeps.bind (keeps_stringIf _)
      intro operation
      exact Keeps.pure _
  | _ => exact Keeps.throw _

theorem configHistory_keeps {configId : String} :
    Keeps anything reading (AuditRouter.configHistory deps session query configId) := by
  apply Keeps.bind (keeps_stringOrEmpty _)
  intro serviceName
  split
  · exact Keeps.pure _
  apply keeps_guard
  apply Keeps.bind (keeps_call_read rfl)
  intro message
  cases message with
  | auditEntries entries token =>
      apply Keeps.bind (keeps_orThrow _)
      intro entries
      exact Keeps.pure _
  | _ => exact Keeps.throw _

theorem usage_keeps :
    Keeps anything reading (UsageRouter.get deps session query) := by
  apply keeps_parsed
  intro key
  apply keeps_guard
  apply Keeps.bind keeps_isoNow
  intro fetchedAt
  apply Keeps.bind keeps_readUsage
  intro view
  exact Keeps.pure _

theorem listReviews_keeps :
    Keeps anything reading (ReviewsRouter.list deps session) := by
  apply keeps_guard
  intro past now moment
  exact ⟨rfl, trivial⟩

theorem actionLog_keeps :
    Keeps anything reading (actionLog deps session) := by
  apply keeps_guard
  intro past now moment
  exact ⟨rfl, trivial⟩

end Reads

section Mutations

theorem wp_then_pure {α : Type} {rely : Store → Store → Prop}
    {agreed : Contract Store Call Reply} {past : List (Call × Reply)} {now : Store}
    {handler : Async α} {respond : α → Response}
    (executes : wp rely agreed handler past now fun _ _ _ => True) :
    wp rely agreed (do return respond (← handler)) past now fun _ _ _ => True := by
  rw [wp_bind]
  apply wp_mono _ executes
  intro outcome _ _ _
  cases outcome <;> trivial

variable (authentic : Authentic store request session) (hasBody : request.body = .ok body)

include authentic

theorem createLimit_keeps (route : request.route = .createLimit) :
    wp Evolves (contract deps store request) (LimitsRouter.create deps session body) [] store
      fun _ _ _ => True := by
  apply wp_parsed
  intro limit isLimit
  apply wp_guard
  intro granted
  apply wp_contract_of_execution (fun _ => True) (fun _ _ _ _ => trivial) authentic _
    (wp_then_pure (createLimit_executes (opContext session) _ unmutated_nil)) trivial
  · exact fun rpc => rpc = .createLimit limit.key limit.limitValue limit.timeUnit
  · intro now rpc _ isCreation
    cases isMutation : rpc.isMutation with
    | false => exact .reading isMutation (by simp [route])
    | true =>
        rw [isCreation isMutation]
        exact .creation route ⟨_, _, _, rfl⟩ granted
  · rfl

include hasBody in
theorem updateLimit_keeps (route : request.route = .updateLimit) :
    wp Evolves (contract deps store request) (LimitsRouter.update deps session body) [] store
      fun _ _ _ => True := by
  apply wp_parsed
  intro limit isLimit
  apply wp_guard
  intro granted
  apply wp_reviewed authentic _ granted
  · exact wp_then_pure (updateLimit_executes (opContext session) ⟨_, rfl⟩ unmutated_nil)
  · simp [Request.op?, hasBody, route, isLimit, Except.toOption]

include hasBody in
theorem deleteLimit_keeps (route : request.route = .deleteLimit) :
    wp Evolves (contract deps store request) (LimitsRouter.delete deps session body) [] store
      fun _ _ _ => True := by
  apply wp_parsed
  intro key isKey
  apply wp_guard
  intro granted
  apply wp_reviewed authentic _ granted
  · exact wp_then_pure (deleteLimit_executes (opContext session) ⟨_, rfl⟩ unmutated_nil)
  · simp [Request.op?, hasBody, route, isKey, Except.toOption]

include hasBody in
theorem refund_keeps (route : request.route = .refund) :
    wp Evolves (contract deps store request) (OpsRouter.refund deps session body) [] store
      fun _ _ _ => True := by
  apply wp_parsed
  intro key isKey
  split
  · trivial
  · rename_i amount isAmount
    apply wp_guard
    intro granted
    apply wp_reviewed authentic _ granted
    · exact wp_then_pure (refund_executes (opContext session) (fun _ => ⟨_, rfl⟩) unmutated_nil)
    · simp [Request.op?, hasBody, route, isKey, isAmount, Except.toOption]

include hasBody in
theorem reset_keeps (route : request.route = .reset) :
    wp Evolves (contract deps store request) (OpsRouter.reset deps session body) [] store
      fun _ _ _ => True := by
  apply wp_parsed
  intro key isKey
  apply wp_guard
  intro granted
  apply wp_reviewed authentic _ granted
  · exact wp_then_pure
      (resetWindow_executes (opContext session) (fun _ _ => ⟨_, _, rfl⟩) unmutated_nil)
  · simp [Request.op?, hasBody, route, isKey, Except.toOption]

theorem register_keeps {capability : Capability} {action : Action} {status : ℕ}
    {fields : Fields}
    (route : request.route = .createService ∧ capability = .serviceCreate ∨
      (∃ name, request.route = .editService name) ∧ capability = .serviceEdit) :
    wp Evolves (contract deps store request)
      (ServicesRouter.register deps session capability action status fields) [] store
      fun _ _ _ => True := by
  apply wp_parsed
  intro service isService
  apply wp_guard
  intro granted
  apply wp_contract_of_execution (fun _ => True) (fun _ _ _ _ => trivial) authentic _ _ trivial
  · exact (· = .registerService service)
  · intro now rpc _ isRegistration
    cases isMutation : rpc.isMutation with
    | false =>
        apply Origin.reading isMutation
        rcases route with ⟨isRoute, _⟩ | ⟨⟨name, isRoute⟩, _⟩
        · simp [isRoute]
        · simp [isRoute]
    | true =>
        rw [isRegistration isMutation]
        exact .registration capability route ⟨service, rfl⟩ granted
  · apply wp_mutation (· = .registerService service) rfl unmutated_nil
    intro message
    apply Keeps.bind keeps_log
    intro _
    cases message with
    | service service => exact Keeps.pure _
    | _ => exact Keeps.throw _

omit authentic in
theorem reject_keeps {id : String} :
    wp Evolves (contract deps store request) (ReviewsRouter.reject deps session id) [] store
      fun _ _ _ => True := by
  apply wp_decide
  intros
  trivial

include hasBody in
/-- Every route behind the checks keeps the contract. -/
theorem api_keeps :
    wp Evolves (contract deps store request) (api deps session request body) [] store
      fun _ _ _ => True := by
  unfold api
  split
  case _ route => trivial
  case _ route => exact wp_contract_of_reads authentic (by simp [route]) listLimits_keeps
  case _ route => exact wp_contract_of_reads authentic (by simp [route]) resolveLimit_keeps
  case _ route => exact createLimit_keeps authentic route
  case _ route => exact updateLimit_keeps authentic hasBody route
  case _ route => exact deleteLimit_keeps authentic hasBody route
  case _ route => exact wp_contract_of_reads authentic (by simp [route]) listServices_keeps
  case _ name route => exact wp_contract_of_reads authentic (by simp [route]) getService_keeps
  case _ route => exact register_keeps authentic (Or.inl ⟨route, rfl⟩)
  case _ name route => exact register_keeps authentic (Or.inr ⟨⟨name, route⟩, rfl⟩)
  case _ route => exact wp_contract_of_reads authentic (by simp [route]) listAudit_keeps
  case _ configId route =>
    exact wp_contract_of_reads authentic (by simp [route]) configHistory_keeps
  case _ route => exact wp_contract_of_reads authentic (by simp [route]) usage_keeps
  case _ route => exact refund_keeps authentic hasBody route
  case _ route => exact reset_keeps authentic hasBody route
  case _ route => exact wp_contract_of_reads authentic (by simp [route]) listReviews_keeps
  case _ id route => exact approve_keeps authentic route
  case _ id route => exact reject_keeps
  case _ route => exact wp_contract_of_reads authentic (by simp [route]) actionLog_keeps
  case _ => trivial

end Mutations

theorem devLogin_keeps :
    wp Evolves (contract deps store request) (devLogin deps body) [] store
      fun _ _ _ => True := by
  unfold devLogin
  split
  · trivial
  · rw [wp_bind]
    apply wp_mono _ (keeps_stringOrEmpty _ [] store)
    intro outcome past now _
    cases outcome with
    | error error => trivial
    | ok id =>
        simp only [continued]
        split
        · trivial
        · intro moment
          exact ⟨changes_of_same rfl, trivial⟩

theorem logout_keeps {cookie : Value} :
    wp Evolves (contract deps store request) (logout cookie) [] store fun _ _ _ => True := by
  intro moment
  refine ⟨changes_of_same ?_, trivial⟩
  simp only [SessionStore.destroy]
  split
  · split <;> rfl
  · rfl

end Routes

/-- The app keeps the contract of every request, in whatever store it starts. -/
theorem app_keeps (deps : Deps) (store : Store) (request : Request) :
    wp Evolves (contract deps store request) (app deps request) [] store fun _ _ _ => True := by
  have routed : wp Evolves (contract deps store request) (routes deps request) [] store
      fun _ _ _ => True := by
    unfold routes
    cases hasBody : request.body with
    | error message => trivial
    | ok body =>
        dsimp only
        split
        · trivial
        · exact devLogin_keeps
        · exact logout_keeps
        · trivial
        · rw [wp_bind, wp_atomically]
          intro moment
          refine ⟨changes_of_same rfl, ?_⟩
          simp only [continued]
          cases isLive : SessionStore.get store request.cookie with
          | none => trivial
          | some session =>
              dsimp only
              split
              · rename_i checked
                exact api_keeps ⟨isLive, checked⟩ hasBody
              · trivial
  rw [app, wp_handle]
  apply wp_mono _ routed
  intro outcome _ _ _
  cases outcome <;> trivial

abbrev ConsoleEvent := Event Request Reply Moment

section Runs

variable (deps : Deps) (sessions : Map Session) (events : List ConsoleEvent)

/-- The console after a sequence of events, from the given sessions. -/
def consoleAfter : Loop Store Call Reply Moment Thrown Response :=
  Loop.run (app deps) (.fresh sessions) events

def consoleAt (turn : ℕ) : Store :=
  Loop.storeAt (app deps) (.fresh sessions) events turn

theorem evolves_of_changes {deps : Deps} (store : Store) (request : Request)
    (past : List (Call × Reply)) (before after : Store)
    (changed : (contract deps store request).changes past before after) :
    Evolves before after :=
  changed.1

theorem console_sound :
    Loop.Sound (app deps) (.fresh sessions) Evolves (contract deps) events
      (consoleAfter deps sessions events) :=
  Loop.sound Evolves.refl (fun _ _ _ => Evolves.trans) evolves_of_changes (app_keeps deps) events

theorem evolves_consoleAt {first second : ℕ} (le : first ≤ second)
    (bounded : second ≤ events.length) :
    Evolves (consoleAt deps sessions events first) (consoleAt deps sessions events second) :=
  (console_sound deps sessions events).storeAt_rely Evolves.refl (fun _ _ _ => Evolves.trans)
    evolves_of_changes le bounded

/-- Every review was submitted by the handler of an earlier request. -/
theorem exists_submission {turn : ℕ} (bounded : turn ≤ events.length) :
    ∀ (place : ℕ) review,
      (consoleAt deps sessions events turn).reviews.objects[place]? = some review →
      ∃ handler < turn, ∃ moment request, events[handler]? = some (.request moment request) ∧
        Submitted deps (consoleAt deps sessions events handler) request review := by
  induction turn with
  | zero =>
      intro place review found
      simp [consoleAt, Loop.storeAt, Loop.run, Loop.initial, Store.fresh] at found
  | succ turn ih =>
      intro place review found
      have earlier : ∀ old, (consoleAt deps sessions events turn).reviews.objects[place]? =
          some old → old.Later review → ∃ handler < turn + 1, ∃ moment request,
            events[handler]? = some (.request moment request) ∧
              Submitted deps (consoleAt deps sessions events handler) request review := by
        intro old isOld isLater
        rcases ih (Nat.le_of_succ_le bounded) place old isOld with
          ⟨handler, before, moment, request, isRequest, submitted⟩
        exact ⟨handler, Nat.lt_succ_of_lt before, moment, request, isRequest,
          submitted.later isLater⟩
      rcases (console_sound deps sessions events).changes turn bounded with
        same | ⟨handler, started, _, _, ⟨moment, request, isRequest, rfl⟩, evolves, new⟩
      · rw [consoleAt, same] at found
        exact earlier review found (.refl review)
      · cases old : (consoleAt deps sessions events turn).reviews.objects[place]? with
        | none =>
            exact ⟨handler, Nat.lt_succ_of_le started, moment, request, isRequest,
              new place review (List.getElem?_eq_none_iff.mp old) found⟩
        | some old' =>
            rcases evolves place old' old with ⟨later, isReview, isLater⟩
            have same : later = review := Option.some.inj (isReview.symm.trans found)
            subst later
            exact earlier old' old isLater

end Runs

end RateLimiter.Console
