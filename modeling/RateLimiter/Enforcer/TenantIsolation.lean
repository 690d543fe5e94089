import RateLimiter.Enforcer.Fleet

/-!
# Tenants do not see each other's traffic

Every counter key names one tuple, and every cache entry belongs to one, so
that nothing a client does on other tuples, at whichever instance, changes an
answer on this one. Numbers play no role here: the scripts may round, overflow
or fail.
-/

namespace RateLimiter.Enforcer

open CivilTime Machine Redis

theorem windowId_of_computeWindow {now : ℤ} {unit : TimeUnit} {window : Window}
    (computed : computeWindow now unit = some window) : window.windowId = windowId now unit := by
  simp only [computeWindow, Option.bind_eq_bind, Option.bind_eq_some_iff, Option.pure_def,
    Option.some.injEq] at computed
  rcases computed with ⟨resetAt, _, rfl⟩
  rfl

theorem target?_cases (resolve : LimitKey → Resolved) (now : ℤ) (key : LimitKey) :
    target? resolve now key = none ∨
      ∃ target, target? resolve now key = some target ∧
        resolve key = .configured target.cap ∧
        target.counter = counterKey key (windowId now target.cap.timeUnit) := by
  cases resolved : resolve key with
  | unconfigured => exact Or.inl (by simp only [target?, resolved])
  | configured cap =>
      cases computed : computeWindow now cap.timeUnit with
      | none => exact Or.inl (by simp only [target?, resolved, computed, Option.map_none])
      | some window =>
          right
          refine ⟨⟨cap, window, counterKey key window.windowId⟩,
            by simp only [target?, resolved, computed, Option.map_some], rfl, ?_⟩
          simp only [windowId_of_computeWindow computed]

theorem target?_congr {first second : LimitKey → Resolved} (now : ℤ) {key : LimitKey}
    (same : first key = second key) : target? first now key = target? second now key := by
  simp only [target?, same]

/-- A request is answered without the store, or by one script on one counter. -/
inductive Spine (call : Call) : Prop where
  | storeless (reply : Reply) (stays : ∀ keyspace, perform call keyspace = (reply, keyspace))
  | scripted (α : Type) (script : Script α) (finish : Except EnforcerError α → Reply)
      (key : LimitKey) (cap : Cap) (valid : call.validKey? = some key)
      (resolved : call.resolve key = .configured cap)
      (reads : script.Local (counterKey key (windowId call.now cap.timeUnit)))
      (writes : script.Confined (counterKey key (windowId call.now cap.timeUnit)))
      (runs : ∀ keyspace, perform call keyspace =
        (finish (runScript script keyspace).1, (runScript script keyspace).2))

/-- The usage that a counter shows. -/
def usageOf (cap : Cap) (window : Window) : Except EnforcerError ℤ → Except Status GetUsageResponse
  | .error error => .error error.toStatus
  | .ok consumed =>
      .ok ⟨consumed, cap.limitValue - consumed, cap.limitValue, some window.resetAt, true⟩

section Spines

variable {call : Call}

theorem spine_charge {request : ChargeRequest} (isCharge : call.rpc = .charge request) :
    Spine call := by
  cases validKey : validateKey request.key with
  | error error =>
      exact .storeless (.charge (.error error)) fun keyspace => by
        simp only [perform, isCharge, chargeOne, validKey, Prod.map_apply, id_eq]
  | ok key =>
      cases validCost : normalizeCost request.cost with
      | error error =>
          exact .storeless (.charge (.error error)) fun keyspace => by
            simp only [perform, isCharge, chargeOne, validKey, validCost, Prod.map_apply, id_eq]
      | ok cost =>
          rcases target?_cases call.resolve call.now key with
            missing | ⟨target, targeted, resolved, counter⟩
          · exact .storeless (.charge (.ok unlimited)) fun keyspace => by
              simp only [perform, isCharge, chargeOne, validKey, validCost, Call.moment_now,
                missing, Prod.map_apply, id_eq]
          · refine .scripted ℤ (chargeScript target.counter cost target.cap.limitValue
              (jitteredTtl target.window.remainingSecs defaultGraceSecs
                (jitterCapSecs target.cap.timeUnit) call.moment.draw) call.moment.redisMillis)
              (fun ran => .charge (ran.map fun remaining =>
                ⟨remaining, target.cap.limitValue, some target.window.resetAt⟩)) key target.cap
              (by simp only [Call.validKey?, FixedWindow.validates, isCharge, validKey,
                validCost]) resolved
              (counter ▸ chargeScript_local _ _ _ _) (counter ▸ chargeScript_confined _ _ _ _)
              fun keyspace => ?_
            simp only [perform, isCharge, chargeOne, validKey, validCost, Call.moment_now,
              targeted]
            split <;> rename_i ran <;> simp only [ran, Prod.map_apply, id_eq, Except.map]

theorem spine_refund {request : RefundRequest} (isRefund : call.rpc = .refund request) :
    Spine call := by
  cases validKey : validateKey request.key with
  | error error =>
      exact .storeless (.refund (.error error)) fun keyspace => by
        simp only [perform, isRefund, refundOne, validKey, Prod.map_apply, id_eq]
  | ok key =>
      cases validAmount : validateAmount request.amount with
      | error error =>
          exact .storeless (.refund (.error error)) fun keyspace => by
            simp only [perform, isRefund, refundOne, validKey, validAmount, Prod.map_apply, id_eq]
      | ok amount =>
          rcases target?_cases call.resolve call.now key with
            missing | ⟨target, targeted, resolved, counter⟩
          · exact .storeless (.refund (.ok unlimited)) fun keyspace => by
              simp only [perform, isRefund, refundOne, validKey, validAmount, Call.moment_now,
                missing, Prod.map_apply, id_eq]
          · refine .scripted ℤ (refundScript target.counter amount target.cap.limitValue)
              (fun ran => .refund (ran.map fun remaining =>
                ⟨remaining, target.cap.limitValue, some target.window.resetAt⟩)) key target.cap
              (by simp only [Call.validKey?, FixedWindow.validates, isRefund, validKey,
                validAmount]) resolved
              (counter ▸ refundScript_local _ _) (counter ▸ refundScript_confined _ _)
              fun keyspace => ?_
            simp only [perform, isRefund, refundOne, validKey, validAmount, Call.moment_now,
              targeted]
            split <;> rename_i ran <;> simp only [ran, Prod.map_apply, id_eq, Except.map]

theorem spine_checkQuota {request : CheckQuotaRequest} (isCheck : call.rpc = .checkQuota request) :
    Spine call := by
  cases validKey : validateKey request.key with
  | error error =>
      exact .storeless (.checkQuota (.error error)) fun keyspace => by
        simp only [perform, isCheck, checkOne, validKey, Prod.map_apply, id_eq]
  | ok key =>
      cases validCost : normalizeCost request.cost with
      | error error =>
          exact .storeless (.checkQuota (.error error)) fun keyspace => by
            simp only [perform, isCheck, checkOne, validKey, validCost, Prod.map_apply, id_eq]
      | ok cost =>
          rcases target?_cases call.resolve call.now key with
            missing | ⟨target, targeted, resolved, counter⟩
          · exact .storeless (.checkQuota (.ok allowCheck)) fun keyspace => by
              simp only [perform, isCheck, checkOne, validKey, validCost, Call.moment_now,
                missing, Prod.map_apply, id_eq]
          · refine .scripted CheckResult
              (checkScript target.counter target.cap.limitValue cost)
              (fun ran => .checkQuota (ran.map fun result => ⟨result.allowed,
                result.remaining, target.cap.limitValue, some target.window.resetAt⟩))
              key target.cap
              (by simp only [Call.validKey?, FixedWindow.validates, isCheck, validKey,
                validCost]) resolved
              (counter ▸ checkScript_local _ _) (.bind .get fun _ => .pure _)
              fun keyspace => ?_
            simp only [perform, isCheck, checkOne, validKey, validCost, Call.moment_now,
              targeted]
            split <;> rename_i ran <;> simp only [ran, Prod.map_apply, id_eq, Except.map]

theorem spine_getUsage {request : GetUsageRequest} (isUsage : call.rpc = .getUsage request) :
    Spine call := by
  cases validKey : validateKey request.key with
  | error error =>
      exact .storeless (.getUsage (.error error.toStatus)) fun keyspace => by
        simp only [perform, isUsage, getUsage, validKey, Prod.map_apply, id_eq]
  | ok key =>
      cases resolved : call.resolve key with
      | unconfigured =>
          exact .storeless (.getUsage (.ok unconfiguredUsage)) fun keyspace => by
            simp only [perform, isUsage, getUsage, validKey, resolved, Prod.map_apply, id_eq]
      | configured cap =>
          cases computed : computeWindow call.now cap.timeUnit with
          | none =>
              exact .storeless (.getUsage (.error
                ⟨.internal, .plain "configured limit has unspecified time unit"⟩))
                fun keyspace => by
                  simp only [perform, isUsage, getUsage, validKey, resolved, Call.moment_now,
                    computed, Prod.map_apply, id_eq]
          | some window =>
              have counter : counterKey key window.windowId =
                  counterKey key (windowId call.now cap.timeUnit) := by
                rw [windowId_of_computeWindow computed]
              refine .scripted ℤ (consumedScript (counterKey key window.windowId))
                (fun ran => .getUsage (usageOf cap window ran)) key cap
                (by simp only [Call.validKey?, FixedWindow.validates, isUsage, validKey,
                  Except.toOption]) resolved
                (counter ▸ consumedScript_local) (.bind .get fun _ => .pure _)
                fun keyspace => ?_
              simp only [perform, isUsage, getUsage, validKey, resolved, Call.moment_now,
                computed]
              split <;> rename_i ran <;> simp only [ran, usageOf, Prod.map_apply, id_eq]

end Spines

theorem perform_spine (call : Call) : Spine call := by
  cases isRpc : call.rpc with
  | charge request => exact spine_charge isRpc
  | refund request => exact spine_refund isRpc
  | checkQuota request => exact spine_checkQuota isRpc
  | getUsage request => exact spine_getUsage isRpc

theorem runScript_local {α : Type} {script : Script α} {key : String}
    (reads : script.Local key) {first second : Keyspace} (same : first key = second key) :
    (runScript script first).1 = (runScript script second).1 ∧
      (runScript script first).2 key = (runScript script second).2 key := by
  rcases reads first second same with ⟨sameAnswer, sameEntry⟩
  constructor
  · rcases ran : script first with ⟨result, rest⟩
    rcases otherRan : script second with ⟨otherResult, otherRest⟩
    rw [ran, otherRan] at sameAnswer
    simp only at sameAnswer
    subst otherResult
    cases result <;> simp only [runScript, ran, otherRan]
  · simp only [runScript_snd, sameEntry]

/-- A request reads no key but its own counter. -/
theorem perform_alike (call : Call) {first second : Keyspace}
    (agree : ∀ key cap, call.validKey? = some key → call.resolve key = .configured cap →
      first (counterKey key (windowId call.now cap.timeUnit)) =
        second (counterKey key (windowId call.now cap.timeUnit))) :
    (perform call first).1 = (perform call second).1 ∧
      ∀ name, first name = second name →
        (perform call first).2 name = (perform call second).2 name := by
  cases perform_spine call with
  | storeless reply stays =>
      simp only [stays, true_and]
      exact fun name same => same
  | scripted α script finish key cap valid resolved reads writes runs =>
      have own := runScript_local reads (agree key cap valid resolved)
      simp only [runs, own.1, true_and]
      intro name same
      by_cases here : name = counterKey key (windowId call.now cap.timeUnit)
      · rw [here]
        exact own.2
      · have firstKept := writes first name here
        have secondKept := writes second name here
        simp only [runScript_snd, firstKept, secondKept, same]

/-- A request writes no key but its own counter. -/
theorem perform_elsewhere (call : Call) (keyspace : Keyspace) {name : String}
    (elsewhere : ∀ key cap, call.validKey? = some key → call.resolve key = .configured cap →
      name ≠ counterKey key (windowId call.now cap.timeUnit)) :
    (perform call keyspace).2 name = keyspace name := by
  cases perform_spine call with
  | storeless reply stays => simp only [stays]
  | scripted α script finish key cap valid resolved reads writes runs =>
      have kept := writes keyspace name (elsewhere key cap valid resolved)
      simp only [runs, runScript_snd, kept]

/-- A request looks up no key but its own. -/
theorem perform_congr (now : ℤ) (draw : ℕ) (rpc : Rpc) {first second : LimitKey → Resolved}
    (same : ∀ key, Call.validKey? ⟨now, draw, first, rpc⟩ = some key → first key = second key) :
    perform ⟨now, draw, first, rpc⟩ = perform ⟨now, draw, second, rpc⟩ := by
  funext keyspace
  cases rpc with
  | charge request =>
      simp only [perform, chargeOne, Call.moment]
      cases validKey : validateKey request.key with
      | error error => rfl
      | ok key =>
          cases validCost : normalizeCost request.cost with
          | error error => rfl
          | ok cost =>
              have agreed := same key (by simp only [Call.validKey?, FixedWindow.validates,
                validKey, validCost])
              simp only [target?_congr now agreed]
  | refund request =>
      simp only [perform, refundOne, Call.moment]
      cases validKey : validateKey request.key with
      | error error => rfl
      | ok key =>
          cases validAmount : validateAmount request.amount with
          | error error => rfl
          | ok amount =>
              have agreed := same key (by simp only [Call.validKey?, FixedWindow.validates,
                validKey, validAmount])
              simp only [target?_congr now agreed]
  | checkQuota request =>
      simp only [perform, checkOne, Call.moment]
      cases validKey : validateKey request.key with
      | error error => rfl
      | ok key =>
          cases validCost : normalizeCost request.cost with
          | error error => rfl
          | ok cost =>
              have agreed := same key (by simp only [Call.validKey?, FixedWindow.validates,
                validKey, validCost])
              simp only [target?_congr now agreed]
  | getUsage request =>
      simp only [perform, getUsage, Call.moment]
      cases validKey : validateKey request.key with
      | error error => rfl
      | ok key =>
          have agreed := same key (by simp only [Call.validKey?, FixedWindow.validates, validKey,
            Except.toOption])
          simp only [agreed]

/-- Only keys with grammatical names are configured. -/
theorem grammatical_of_queryDb {rows : List LimitRow} {key : LimitKey} {cap : Cap}
    (accepted : ∀ row ∈ rows, Management.LimitValidator.validateLimitWrite row.key
      row.limitValue (.known (parseTimeUnit row.timeUnit.text)) = .ok ())
    (queried : queryDb (some rows) key = .ok (.configured cap)) : Grammatical key := by
  have admitted : Call.Admitted ⟨0, 0, tableResolve rows, .getUsage ⟨none⟩⟩ := by
    intro other otherCap resolved
    refine ⟨rows, accepted, ?_⟩
    simp only at resolved
    rcases queryDb_some rows other with ⟨_, succeeds⟩ | ⟨_, _, unlimited⟩
    · rw [succeeds, resolved]
    · simp [unlimited] at resolved
  have resolved : tableResolve rows key = .configured cap := by
    simp [tableResolve, queried, Except.toOption]
  exact (admitted.configured resolved).1

namespace Fleet

variable {settings : CacheSettings} {first second fleet : Fleet} {key : LimitKey}

/-- The requests on one tuple, and what Redis does by itself. -/
def about (key : LimitKey) : FleetEvent → Bool
  | .arrive arrival => arrival.key? = some key
  | .drop _ _ => true

/-- Every row that a request can read has passed the control plane. -/
def ReadsAccepted : FleetEvent → Prop
  | .arrive arrival => ∀ rows, arrival.database = some rows → ∀ row ∈ rows,
      Management.LimitValidator.validateLimitWrite row.key row.limitValue
        (.known (parseTimeUnit row.timeUnit.text)) = .ok ()
  | .drop _ _ => True

/-- Only keys with grammatical names have a cached cap. -/
def NamedCaps (fleet : Fleet) : Prop :=
  ∀ pod key entry cap, fleet.caches pod key = some entry → entry.resolved = .configured cap →
    Grammatical key

theorem resolve_grammatical {arrival : Arrival} {cap : Cap} (named : NamedCaps fleet)
    (accepted : ReadsAccepted (.arrive arrival))
    (resolved : (resolve settings fleet arrival key).1 = .configured cap) : Grammatical key := by
  simp only [resolve] at resolved
  rcases Cache.resolve_cases settings (fleet.caches arrival.pod) arrival.monotonic
    arrival.configDraw arrival.database key with ⟨entry, held, _, hit⟩ |
    ⟨_, ⟨found, queried, stored⟩ | ⟨error, _, fallback⟩⟩
  · rw [hit] at resolved
    exact named arrival.pod key entry cap held resolved
  · rw [stored] at resolved
    simp only at resolved
    subst found
    cases reached : arrival.database with
    | none => simp [reached, queryDb] at queried
    | some rows =>
        rw [reached] at queried
        exact grammatical_of_queryDb (accepted rows reached) queried
  · rw [fallback] at resolved
    cases held : fleet.caches arrival.pod key with
    | none => simp [Cache.getAny, held] at resolved
    | some entry =>
        simp only [Cache.getAny, held, Option.map_some, Option.getD_some] at resolved
        exact named arrival.pod key entry cap held resolved

theorem namedCaps_react {event : FleetEvent} (named : NamedCaps fleet)
    (accepted : ReadsAccepted event) : NamedCaps (react settings fleet event).2 := by
  cases event with
  | drop dropped instant => exact named
  | arrive arrival =>
      intro pod key entry cap cached configured
      simp only [react] at cached
      rcases cachesAfter_cases settings fleet arrival pod key with ⟨same, _⟩ |
        ⟨_, _, ⟨kept, held, same⟩ | ⟨resolved, queried, stored⟩ | ⟨error, _, same⟩⟩
      · rw [same] at cached
        exact named pod key entry cap cached configured
      · rw [same, ← held] at cached
        exact named pod key entry cap cached configured
      · rw [stored, Option.some.injEq] at cached
        subst entry
        simp only at configured
        subst resolved
        cases reached : arrival.database with
        | none => simp [reached, queryDb] at queried
        | some rows =>
            rw [reached] at queried
            exact grammatical_of_queryDb (accepted rows reached) queried
      · rw [same] at cached
        exact named pod key entry cap cached configured

/-- Two states that look the same from one tuple. -/
structure Agree (key : LimitKey) (first second : Fleet) : Prop where
  caches : ∀ pod, first.caches pod key = second.caches pod key
  counters : Grammatical key → ∀ windowId : String, ':' ∉ windowId.toList →
    first.keyspace (counterKey key windowId) = second.keyspace (counterKey key windowId)
  firstNamed : NamedCaps first
  secondNamed : NamedCaps second

theorem resolve_alike (arrival : Arrival)
    (same : first.caches arrival.pod key = second.caches arrival.pod key) :
    (resolve settings first arrival key).1 = (resolve settings second arrival key).1 ∧
      (resolve settings first arrival key).2 key =
        (resolve settings second arrival key).2 key := by
  simp only [resolve, Cache.resolve, Cache.getFresh, Cache.getAny, same]
  split
  · exact ⟨rfl, same⟩
  · split
    · simp only [Cache.store, Function.update_self, and_self]
    · exact ⟨rfl, same⟩

theorem cachesAfter_alike {arrival : Arrival} (isKey : arrival.key? = some key)
    (same : ∀ pod, first.caches pod key = second.caches pod key) (pod : ℕ) :
    first.cachesAfter settings arrival pod key = second.cachesAfter settings arrival pod key := by
  simp only [cachesAfter, isKey]
  by_cases here : pod = arrival.pod
  · subst pod
    simp only [Function.update_self, (resolve_alike arrival (same arrival.pod)).2]
  · simp only [Function.update_of_ne here, same]

section Steps

variable {arrival : Arrival} (agree : Agree key first second)
  (accepted : ReadsAccepted (.arrive arrival))

include agree accepted

theorem arrive_alike (isKey : arrival.key? = some key) :
    (react settings first (.arrive arrival)).1 = (react settings second (.arrive arrival)).1 ∧
      Agree key (react settings first (.arrive arrival)).2
        (react settings second (.arrive arrival)).2 := by
  have sameCall : perform (first.callOf settings arrival) =
      perform (second.callOf settings arrival) := by
    apply perform_congr
    intro other isOther
    have here : other = key :=
      Option.some.inj ((Arrival.key?_of_validKey? isOther).symm.trans isKey)
    subst other
    exact (resolve_alike arrival (agree.caches arrival.pod)).1
  have sameCounter : ∀ other cap, (second.callOf settings arrival).validKey? = some other →
      (second.callOf settings arrival).resolve other = .configured cap →
      first.keyspace (counterKey other (windowId arrival.now cap.timeUnit)) =
        second.keyspace (counterKey other (windowId arrival.now cap.timeUnit)) := by
    intro other cap isOther resolved
    have here : other = key :=
      Option.some.inj ((Arrival.key?_of_validKey? isOther).symm.trans isKey)
    subst other
    exact agree.counters (resolve_grammatical agree.secondNamed accepted resolved) _
      (colon_notMem_windowId _ _)
  have answered := perform_alike (second.callOf settings arrival) sameCounter
  refine ⟨?_, ?_, ?_, namedCaps_react agree.firstNamed accepted,
    namedCaps_react agree.secondNamed accepted⟩
  · simp only [react, sameCall, answered.1]
  · exact cachesAfter_alike isKey agree.caches
  · intro names windowId noColon
    simp only [react, sameCall]
    exact answered.2 _ (agree.counters names windowId noColon)

theorem arrive_hidden (elsewhere : arrival.key? ≠ some key) :
    Agree key (react settings first (.arrive arrival)).2 second := by
  refine ⟨?_, ?_, namedCaps_react agree.firstNamed accepted, agree.secondNamed⟩
  · intro pod
    simp only [react]
    rcases cachesAfter_cases settings first arrival pod key with ⟨same, _⟩ | ⟨_, isKey, _⟩
    · rw [same]
      exact agree.caches pod
    · exact absurd isKey elsewhere
  · intro names windowId noColon
    simp only [react]
    rw [perform_elsewhere]
    · exact agree.counters names windowId noColon
    · intro other cap isOther resolved equal
      have otherNames := resolve_grammatical agree.firstNamed accepted resolved
      have same := (counterKey_inj names otherNames noColon (colon_notMem_windowId _ _) equal).1
      subst other
      exact elsewhere (Arrival.key?_of_validKey? isOther)

end Steps

theorem unwinding_about (settings : CacheSettings) (key : LimitKey) :
    Unwinding (react settings) (about key) ReadsAccepted (Agree key) where
  output := by
    intro first second event accepted seen agree
    cases event with
    | arrive arrival =>
        exact (arrive_alike agree accepted (of_decide_eq_true seen)).1
    | drop dropped instant => rfl
  next := by
    intro first second event accepted seen agree
    cases event with
    | arrive arrival =>
        exact (arrive_alike agree accepted (of_decide_eq_true seen)).2
    | drop dropped instant =>
        refine ⟨agree.caches, ?_, agree.firstNamed, agree.secondNamed⟩
        intro names windowId noColon
        simp only [react, Redis.drop]
        by_cases here : counterKey key windowId = dropped
        · rw [here, Function.update_self, Function.update_self]
        · rw [Function.update_of_ne here, Function.update_of_ne here]
          exact agree.counters names windowId noColon
  hidden := by
    intro first second event accepted unseen agree
    cases event with
    | arrive arrival =>
        exact arrive_hidden agree accepted (of_decide_eq_false unseen)
    | drop dropped instant => simp [about] at unseen

/-- The answers on one tuple, in a run of the whole region. -/
def repliesAbout (settings : CacheSettings) (key : LimitKey) (events : List FleetEvent) :
    List Reply :=
  (visibleOutputs (react settings) (about key) initial events).reduceOption

/-- Whatever all other tuples do, at whichever instances and against whichever tables, the answers
on one tuple are those of the run in which only its own requests occur. -/
theorem tenants_isolated {events : List FleetEvent}
    (accepted : ∀ event ∈ events, ReadsAccepted event) :
    repliesAbout settings key events = replies settings initial (events.filter (about key)) := by
  have named : NamedCaps initial := fun pod key entry cap cached => by simp [initial] at cached
  have start : Agree key initial initial :=
    ⟨fun _ => rfl, fun _ _ _ => rfl, named, named⟩
  simp only [repliesAbout, replies, (unwinding_about settings key).visibleOutputs_eq accepted start]

end Fleet

section Witness

/-- Another customer of the same limit, at the same instance, uses up its own quota first. -/
def sampleTenantEvents : List FleetEvent :=
  [sampleArrival 0 0 (some [sampleRow]) (.charge ⟨some ⟨"search", "globex", "query"⟩, 10⟩),
    sampleArrival 0 1 (some [sampleRow]) (.charge ⟨some ⟨"search", "acme|eu", "query"⟩, 0⟩),
    sampleArrival 1 2 (some [sampleRow]) (.checkQuota ⟨some ⟨"search", "globex", "query"⟩, 1⟩),
    sampleArrival 1 3 (some [sampleRow]) (.checkQuota ⟨some ⟨"search", "acme|eu", "query"⟩, 9⟩)]

theorem tenants_isolated_sample :
    Fleet.repliesAbout defaultCacheSettings ⟨"search", "acme|eu", "query"⟩ sampleTenantEvents =
      [.charge (.ok ⟨9, 10, some 60000000000⟩),
        .checkQuota (.ok ⟨true, 9, 10, some 60000000000⟩)] := by
  have accepted : ∀ event ∈ sampleTenantEvents, Fleet.ReadsAccepted event := by
    simp only [sampleTenantEvents, sampleArrival, List.mem_cons, List.not_mem_nil, or_false,
      forall_eq_or_imp, forall_eq, Fleet.ReadsAccepted, Option.some.injEq, forall_eq']
    decide
  rw [Fleet.tenants_isolated accepted]
  decide +kernel

end Witness

end RateLimiter.Enforcer
