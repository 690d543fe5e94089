import RateLimiter.Console.LimitValue
import RateLimiter.Region.Propagation

/-!
# What an operator sets is what is enforced

From the response of the console to the answers of the enforcers. A request for
a limit that the console has answered with success was carried out by one call
to the control plane, whose effect every enforcer then picks up, whatever other
limits are edited in between. The cap that is enforced is the double nearest to
the value of the request, cut off at the largest 64-bit integer.
-/

namespace RateLimiter.Console

open EventLoop EventLoop.Handler JavaScript Management
open Enforcer (Cap parseTimeUnit)

variable {State : Type} {backend : State → Call → Reply × State} {deps : Deps}
  {session : Session} {moments : ℕ → Moment} {turn : ℕ} {state : State} {store : Store}
  {request : Request} {body : Fields} {limit : ValidatedLimit}

/-- The calls that set the limit, its unit included. -/
inductive SetsCap (limit : ValidatedLimit) : Rpc → Prop where
  | create : SetsCap limit (.createLimit limit.key limit.limitValue limit.timeUnit)
  | update (createIfAbsent : Bool) :
      SetsCap limit (.updateLimit limit.key limit.limitValue limit.timeUnit createIfAbsent)

/-- The handler answers with success only if a call that sets the limit was answered with OK, and
that call has left the backend as the handler does. -/
def CarriedOut (backend : State → Call → Reply × State) (state : State) (limit : ValidatedLimit)
    (conversation : Conversation State Store Call Reply Thrown Response) : Prop :=
  applied (.ok (settled conversation.outcome)) = true →
    ∃ rpc actor message, SetsCap limit rpc ∧
      backend state ⟨rpc, actor⟩ = (.ok message, conversation.state)

theorem carriedOut_guard {capability : Capability} {service : Option String}
    {handler : Async Response}
    (carried : Granted deps session.user capability service →
      CarriedOut backend state limit (handler.converse backend moments turn state store)) :
    CarriedOut backend state limit
      ((guard deps session capability service handler).converse backend moments turn state
        store) := by
  unfold guard
  split
  · exact carried ‹_›
  · intro isApplied
    cases isApplied

theorem carriedOut_reviewed {op : PendingOp} {handler : Async Response}
    (carried : CarriedOut backend state limit
      (handler.converse backend moments turn state store)) :
    CarriedOut backend state limit
      ((reviewed deps session op handler).converse backend moments turn state store) := by
  unfold reviewed
  split
  · exact carried
  · intro isApplied
    cases isApplied

theorem carriedOut_written {conversation : Conversation State Store Call Reply Thrown Response}
    {rpc : Rpc} {actor : Option String} {respond : Value → Response} (applies : SetsCap limit rpc)
    (isWrite : ∃ exchanges store', conversation =
      ⟨exchanges, writtenOf respond (backend state ⟨rpc, actor⟩).1,
        (backend state ⟨rpc, actor⟩).2, store'⟩) :
    CarriedOut backend state limit conversation := by
  rcases isWrite with ⟨exchanges, store', rfl⟩
  intro isApplied
  rcases applied_settled_written isApplied with ⟨message, isMessage⟩
  exact ⟨rpc, actor, message, applies, Prod.ext isMessage rfl⟩

theorem create_carriedOut (valid : validateLimit body = .ok limit) :
    CarriedOut backend state limit
      ((LimitsRouter.create deps session body).converse backend moments turn state store) := by
  simp only [LimitsRouter.create, valid, parsed]
  apply carriedOut_guard
  intro granted
  exact carriedOut_written .create (converse_written backend moments turn state store _
    (opContext session) .limitCreate (.limit limit.key)
    (some (.limit limit.limitValue limit.timeUnit)) (.json 201))

theorem update_carriedOut (valid : validateLimit body = .ok limit) :
    CarriedOut backend state limit
      ((LimitsRouter.update deps session body).converse backend moments turn state store) := by
  simp only [LimitsRouter.update, valid, parsed]
  apply carriedOut_guard
  intro granted
  apply carriedOut_reviewed
  exact carriedOut_written (.update _) (converse_written backend moments turn state store _
    (opContext session) .limitUpdate (.limit limit.key)
    (some (.limit limit.limitValue limit.timeUnit)) (.json 200))

theorem approve_carriedOut {id : String} {place : ℕ} {review : Review}
    (found : store.reviews.get id = some (place, review)) (isOp : review.op = .limitUpdate limit) :
    CarriedOut backend state limit
      ((ReviewsRouter.approve deps session id).converse backend moments turn state store) := by
  simp only [ReviewsRouter.approve, ReviewsRouter.decide]
  apply carriedOut_guard
  intro granted
  rw [converse_atomically_bind]
  by_cases pending : review.status = .pending
  · by_cases own : review.initiator = session.user.email
    · simp only [ReviewStore.decide, found, pending, own, ne_eq, not_true_eq_false, if_false,
        if_true]
      intro isApplied
      cases isApplied
    · simp only [ReviewStore.decide, found, pending, own, ne_eq, not_true_eq_false, if_false,
        isOp, executePendingOp]
      exact carriedOut_written (.update true) (converse_written backend moments turn state _ _ _
        .limitUpdate (.limit limit.key) (some (.limit limit.limitValue limit.timeUnit)) _)
  · simp only [ReviewStore.decide, found, pending, ne_eq, not_false_eq_true, if_true]
    intro isApplied
    cases isApplied

/-- A request for a limit that was answered with success has set it with one call. -/
theorem exists_call_of_applied (writes : Writes store request body limit)
    (isApplied : applied ((app deps request).converse backend moments turn state store).outcome =
      true) :
    ∃ rpc actor message, SetsCap limit rpc ∧ backend state ⟨rpc, actor⟩ =
      (.ok message, ((app deps request).converse backend moments turn state store).state) := by
  rcases authentic_of_applied writes.behindAuth isApplied with
    ⟨session, arrived, authentic, hasBody⟩
  rw [converse_app authentic hasBody writes.behindAuth] at isApplied ⊢
  rw [outcome_recover] at isApplied
  rw [Conversation.state_recover]
  cases writes with
  | create route isBody valid =>
      cases isBody.symm.trans hasBody
      rw [api, route] at isApplied ⊢
      exact create_carriedOut valid isApplied
  | update route isBody valid =>
      cases isBody.symm.trans hasBody
      rw [api, route] at isApplied ⊢
      exact update_carriedOut valid isApplied
  | approve route valid found isOp =>
      rw [api, route] at isApplied ⊢
      exact approve_carriedOut found isOp isApplied

/-- The cap that a limit asks for, as the control plane decodes it. -/
def requestedCap (limit : ValidatedLimit) : Cap :=
  ⟨limit.limitValue.toInt64, parseTimeUnit limit.timeUnit.text⟩

theorem SetsCap.sets {rpc : Rpc} (applies : SetsCap limit rpc) :
    ∃ request, rpc.toAdmin? = some (.write request) ∧
      Region.Sets limit.key (requestedCap limit) request := by
  have isUnit : wireTimeUnit limit.timeUnit = .known (parseTimeUnit limit.timeUnit.text) := by
    cases limit.timeUnit <;> decide
  cases applies with
  | create => exact ⟨_, rfl, rfl, rfl, isUnit⟩
  | update createIfAbsent => exact ⟨_, rfl, rfl, rfl, isUnit⟩

end RateLimiter.Console

namespace RateLimiter.Region

open Console JavaScript Management
open Enforcer (CacheSettings parseTimeUnit resolution)

variable {deployment : Console.Deployment} {enforcer : Call → Reply} {world : World}
  {visit : Visit} {body : Fields} {limit : ValidatedLimit} {value : ℤ}
  {settings : CacheSettings} {pool : ℕ → Connection} {key : LimitKey} {earlier : List RegionEvent}

/-- A limit that the console has answered with success is enforced by every pod: the request was
one call to the control plane, and after it the pods find the cap of the request. -/
theorem operator_edit_enforced
    (reached : (reach deployment.backend settings pool earlier).plane = world.plane)
    (carries : Carries body value) (writes : Writes world.store visit.request body limit)
    (isApplied : applied (world.exchange deployment enforcer visit).outcome = true)
    (governs : Governs world.plane.database limit.key key) :
    ∃ call, (reach deployment.backend settings pool (earlier ++ [.admin call])).plane =
        (world.exchange deployment enforcer visit).state ∧
      ∀ pod later settled, (∀ other ∈ adminCalls later, Spares key other) →
        Settles deployment.backend settings pool pod key earlier call later settled →
        Enforces deployment.backend settings pool pod key earlier call later settled
          ⟨min (2 ^ 63 - 1) (Double.roundInt value), parseTimeUnit limit.timeUnit.text⟩ := by
  rcases limitValue_of_carries carries writes.valid with ⟨isValue, nonnegative⟩
  rcases exists_call_of_applied writes isApplied with ⟨rpc, actor, message, applies, answered⟩
  rcases applies.sets with ⟨request, isRequest, sets⟩
  let call : AdminCall := ⟨deployment.header, deployment.authorizer, visit.connection,
    ⟨visit.now, fun _ => none⟩, .write request⟩
  have served : World.answer deployment enforcer visit world.plane ⟨rpc, actor⟩ =
      (toReply (serve deployment.backend world.plane call).1,
        (serve deployment.backend world.plane call).2) := by
    simp only [World.answer, isRequest, call]
  rw [served, Prod.mk.injEq] at answered
  rcases ok_of_toReply answered.1 with ⟨response, accepted⟩
  have isCap : requestedCap limit =
      ⟨min (2 ^ 63 - 1) (Double.roundInt value), parseTimeUnit limit.timeUnit.text⟩ := by
    rw [requestedCap, isValue, Number.toInt64_ofInt nonnegative]
  have effective : resolution (serve deployment.backend world.plane call).2.database.limits key =
      .configured (requestedCap limit) := by
    have sane : Database.Sane world.plane.database := by
      rw [← reached]
      exact sane_reach earlier
    exact resolution_of_accepted sane rfl sets accepted governs
  have committed : (reach deployment.backend settings pool (earlier ++ [.admin call])).plane =
      (serve deployment.backend world.plane call).2 := by
    rw [reach_append, ← reached]
    rfl
  refine ⟨call, committed.trans answered.2, ?_⟩
  · intro pod later settled spared settles
    rw [← isCap]
    rw [← reached] at effective
    exact enforces_of_effective effective spared settles

section Witness

def sampleEditKey : LimitKey := ⟨"search", "acme", "query"⟩

/-- The service is registered, and an enforcer remembers that the customer has no limit. -/
def sampleEditEarlier : List RegionEvent :=
  [.admin sampleRegistration, .resolve 3 0 (.start sampleEditKey), .resolve 3 1 (.query 0),
    .resolve 3 2 (.finish 0 0)]

def sampleEditLater : List RegionEvent :=
  [.resolve 3 50000000000 (.start sampleEditKey), .resolve 3 50000000001 (.query 1),
    .resolve 3 50000000002 (.finish 1 0)]

theorem operator_edit_enforced_sample :
    ∃ call, (reach sampleBackend Enforcer.defaultCacheSettings (fun _ => ⟨none⟩)
        (sampleEditEarlier ++ [.admin call])).plane = sampleLimited "10" ∧
      Enforces sampleBackend Enforcer.defaultCacheSettings (fun _ => ⟨none⟩) 3 sampleEditKey
        sampleEditEarlier call sampleEditLater 2 ⟨10, .day⟩ := by
  have valid : validateLimit (sampleLimitBody "10") =
      .ok ⟨sampleEditKey, .finite 10, .day⟩ := by decide +kernel
  have reached : (reach sampleBackend Enforcer.defaultCacheSettings (fun _ => ⟨none⟩)
      sampleEditEarlier).plane = sampleLimitWorld.plane := by
    rw [reach, plane_after]
    rfl
  have isCap : min (2 ^ 63 - 1) (Double.roundInt 10) = 10 := by decide +kernel
  rcases @operator_edit_enforced (System.sampleDeployment "svc:quotaui") unavailable
    sampleLimitWorld (sampleLimitVisit "10") (sampleLimitBody "10")
    ⟨sampleEditKey, .finite 10, .day⟩ 10 Enforcer.defaultCacheSettings (fun _ => ⟨none⟩)
    sampleEditKey sampleEditEarlier reached (Or.inr ⟨"10", rfl, by decide +kernel⟩)
    (.create rfl rfl valid) (by decide +kernel) (Or.inl rfl) with ⟨call, isPlane, enforced⟩
  rw [isCap] at enforced
  refine ⟨call, isPlane, enforced 3 sampleEditLater 2 (by simp [sampleEditLater, adminCalls])
    ⟨?_, ?_⟩⟩
  · intro instant action mem
    simp only [sampleEditEarlier, List.mem_cons, List.not_mem_nil, or_false, reduceCtorEq,
      false_or, RegionEvent.resolve.injEq] at mem
    omega
  · -- the lookup had ended before the edit
    intro mid rest instant id draw resolved split flying _
    have ended : ((reach sampleBackend Enforcer.defaultCacheSettings (fun _ => ⟨none⟩)
        sampleEditEarlier).pods 3).flights = Function.update (Function.update
          (Function.update (fun _ => none) 0 (some ⟨sampleEditKey, none⟩)) 0
            (some ⟨sampleEditKey, some (.ok .unconfigured)⟩)) 0 none := rfl
    have flying : ((reach sampleBackend Enforcer.defaultCacheSettings (fun _ => ⟨none⟩)
      sampleEditEarlier).pods 3).flights id = some ⟨sampleEditKey, some (.ok resolved)⟩ := flying
    rw [ended] at flying
    by_cases isZero : id = 0 <;> simp [Function.update, isZero] at flying

end Witness

end RateLimiter.Region
