import RateLimiter.Enforcer.Refinement

/-!
# Scripts that run at the time of Redis

The window of a request is computed at an instant of its enforcer, and its
script runs at an instant of Redis. The two come from different clocks, with
the network between them, and nothing relates them here.
-/

namespace RateLimiter.Enforcer

open CivilTime Redis

/-- A check or a usage request. -/
def Rpc.isRead : Rpc → Bool
  | .checkQuota _ | .getUsage _ => true
  | .charge _ | .refund _ => false

theorem perform_readOnly {call : Call} (read : call.rpc.isRead = true) (keyspace : Keyspace) :
    (perform call keyspace).2 = keyspace := by
  cases isRpc : call.rpc with
  | charge request => simp [isRpc, Rpc.isRead] at read
  | refund request => simp [isRpc, Rpc.isRead] at read
  | checkQuota request =>
      simp only [perform, isRpc, Prod.map_snd, id_eq]
      exact checkOne_readOnly call.resolve call.moment request keyspace
  | getUsage request =>
      simp only [perform, isRpc, Prod.map_snd, id_eq, getUsage]
      split
      · rfl
      · split
        · rfl
        · split
          · rfl
          · simp [runScript, consumedScript_eq]

/-- A call whose script runs while the clock of Redis shows `redisMillis`. -/
structure Delivery where
  call : Call
  redisMillis : ℤ

namespace Delivery

def moment (delivery : Delivery) : Moment :=
  ⟨delivery.call.now, delivery.redisMillis, delivery.call.draw⟩

@[simp]
theorem moment_now (delivery : Delivery) : delivery.moment.now = delivery.call.now := rfl

def execute (delivery : Delivery) (keyspace : Keyspace) : Reply × Keyspace :=
  let resolve := delivery.call.resolve
  match delivery.call.rpc with
  | .charge request =>
      (chargeOne resolve delivery.moment defaultGraceSecs request keyspace).map .charge id
  | .refund request => (refundOne resolve delivery.moment request keyspace).map .refund id
  | .checkQuota request => (checkOne resolve delivery.moment request keyspace).map .checkQuota id
  | .getUsage request => (getUsage resolve delivery.moment request keyspace).map .getUsage id

/-- Only a charge asks for the time of Redis. -/
theorem execute_eq_perform {delivery : Delivery}
    (noCharge : ∀ request, delivery.call.rpc ≠ .charge request) :
    delivery.execute = perform delivery.call := by
  funext keyspace
  cases isRpc : delivery.call.rpc with
  | charge request => exact absurd isRpc (noCharge request)
  | refund request | checkQuota request | getUsage request =>
      simp only [execute, perform, isRpc]
      rfl

theorem execute_of_unaddressed {delivery : Delivery} (admitted : delivery.call.Admitted)
    (unaddressed : FixedWindow.counterId? delivery.call = none) (keyspace : Keyspace) :
    delivery.execute keyspace = ((FixedWindow.respond delivery.call 0).1, keyspace) := by
  cases isRpc : delivery.call.rpc with
  | refund request | checkQuota request | getUsage request =>
      rw [execute_eq_perform (by simp [isRpc]), perform_of_unaddressed admitted unaddressed]
  | charge request =>
      simp only [execute, isRpc, chargeOne, FixedWindow.respond, FixedWindow.validates]
      cases validKey : validateKey request.key with
      | error error => rfl
      | ok key =>
          cases validCost : normalizeCost request.cost with
          | error error => rfl
          | ok cost =>
              have unlimited : delivery.call.capOf? key = none := capOf?_eq_none_of_unaddressed
                unaddressed (by simp only [Call.validKey?, FixedWindow.validates, isRpc, validKey,
                  validCost])
              simp only [moment, target?_of_capOf?_none unlimited, unlimited]
              rfl

end Delivery

/-- What an addressed call does to the counter that it finds. -/
structure Executed (delivery : Delivery) (keyspace : Keyspace) (counterName : String)
    (period : Period) (unit : TimeUnit) : Prop where
  reply : (delivery.execute keyspace).1 =
    (FixedWindow.respond delivery.call (counter keyspace counterName)).1
  /-- Either nothing is written or the counter is, and a deadline is set only where none was. -/
  state : ((delivery.execute keyspace).2 = keyspace ∧
      (FixedWindow.respond delivery.call (counter keyspace counterName)).2 =
        counter keyspace counterName) ∨
    ∃ entry, (delivery.execute keyspace).2 =
        Function.update keyspace counterName (some entry) ∧
      entry.value = (FixedWindow.respond delivery.call (counter keyspace counterName)).2 ∧
      0 ≤ entry.value ∧
      (entry.deadline = deadline keyspace counterName ∨
        entry.deadline = some (delivery.redisMillis + newTtl period unit delivery.moment * 1000))

section Addressed

variable {delivery : Delivery} {keyspace : Keyspace} {key : LimitKey} {cap : Cap}
  {period : Period} (inRange : FourDigitYear delivery.call.now)
  (admitted : delivery.call.Admitted) (exactNumbers : delivery.call.Exact)
  (addresses : Addresses delivery.call key cap period)
  (heldNonneg : 0 ≤ counter keyspace (counterKey key (windowId delivery.call.now cap.timeUnit)))
  (heldLt : counter keyspace (counterKey key (windowId delivery.call.now cap.timeUnit)) < 2 ^ 53)

include inRange admitted exactNumbers addresses heldNonneg

theorem executed_charge {request : ChargeRequest} (isCharge : delivery.call.rpc = .charge request)
    (nextLt : (FixedWindow.respond delivery.call
      (counter keyspace (counterKey key (windowId delivery.call.now cap.timeUnit)))).2 < 2 ^ 53) :
    Executed delivery keyspace (counterKey key (windowId delivery.call.now cap.timeUnit)) period
      cap.timeUnit := by
  rcases addresses with ⟨validKey, resolved, units⟩
  rcases admitted.configured resolved with ⟨names, limitNonneg, _⟩
  have costLt := exactNumbers.number
  have limitLt := exactNumbers.limit key cap resolved
  have capped := Call.capOf?_of_configured resolved units
  simp only [Call.validKey?, FixedWindow.validates, isCharge] at validKey costLt
  rcases eq_ok_of_validated validKey with ⟨validTuple, cost, validCost⟩
  have costBounds := normalizeCost_eq_ok validCost
  simp only [FixedWindow.respond, FixedWindow.validates, isCharge, validTuple, validCost,
    capped] at nextLt
  have charged : chargeOne delivery.call.resolve delivery.moment defaultGraceSecs request
      keyspace = _ :=
    chargeOne_eq delivery.moment inRange.representable resolved units limitNonneg limitLt
      heldNonneg validTuple validCost (by omega) nextLt
  simp only [Delivery.moment_now] at charged
  constructor
  · simp only [Delivery.execute, isCharge, charged, FixedWindow.respond, FixedWindow.validates,
      validTuple, validCost, capped, Prod.map_apply]
  · refine Or.inr ⟨chargedEntry keyspace
      (counterKey key (windowId delivery.call.now cap.timeUnit)) cost
      (newTtl period cap.timeUnit delivery.moment) delivery.redisMillis, ?_, ?_, ?_, ?_⟩
    · simp only [Delivery.execute, isCharge, charged, Prod.map_apply, id_eq]
      rfl
    · simp only [chargedEntry, FixedWindow.respond, FixedWindow.validates, isCharge, validTuple,
        validCost, capped]
    · simp only [chargedEntry]
      omega
    · simp only [chargedEntry]
      cases kept : deadline keyspace
        (counterKey key (windowId delivery.call.now cap.timeUnit)) with
      | none => exact Or.inr rfl
      | some due => exact Or.inl rfl

include heldLt

theorem executed_refund {request : RefundRequest}
    (isRefund : delivery.call.rpc = .refund request) :
    Executed delivery keyspace (counterKey key (windowId delivery.call.now cap.timeUnit)) period
      cap.timeUnit := by
  rcases addresses with ⟨validKey, resolved, units⟩
  rcases admitted.configured resolved with ⟨names, limitNonneg, _⟩
  have amountLt := exactNumbers.number
  have limitLt := exactNumbers.limit key cap resolved
  have capped := Call.capOf?_of_configured resolved units
  simp only [Call.validKey?, FixedWindow.validates, isRefund] at validKey amountLt
  rcases eq_ok_of_validated validKey with ⟨validTuple, amount, validAmount⟩
  have amountBounds := validateAmount_eq_ok validAmount
  have refunded : refundOne delivery.call.resolve delivery.moment request keyspace = _ :=
    refundOne_eq delivery.moment inRange.representable resolved units limitNonneg limitLt
      heldNonneg validTuple validAmount (by omega) heldLt
  simp only [Delivery.moment_now] at refunded
  constructor
  · simp only [Delivery.execute, isRefund, refunded, FixedWindow.respond, FixedWindow.validates,
      validTuple, validAmount, capped, Prod.map_apply]
  · refine Or.inr ⟨⟨max (counter keyspace
        (counterKey key (windowId delivery.call.now cap.timeUnit)) - amount) 0,
      deadline keyspace (counterKey key (windowId delivery.call.now cap.timeUnit))⟩, ?_, ?_,
      le_max_right _ _, Or.inl rfl⟩
    · simp only [Delivery.execute, isRefund, refunded, Prod.map_apply, id_eq]
    · simp only [FixedWindow.respond, FixedWindow.validates, isRefund, validTuple, validAmount,
        capped]

theorem executed_check {request : CheckQuotaRequest}
    (isCheck : delivery.call.rpc = .checkQuota request) :
    Executed delivery keyspace (counterKey key (windowId delivery.call.now cap.timeUnit)) period
      cap.timeUnit := by
  rcases addresses with ⟨validKey, resolved, units⟩
  rcases admitted.configured resolved with ⟨names, limitNonneg, _⟩
  have costLt := exactNumbers.number
  have limitLt := exactNumbers.limit key cap resolved
  have capped := Call.capOf?_of_configured resolved units
  simp only [Call.validKey?, FixedWindow.validates, isCheck] at validKey costLt
  rcases eq_ok_of_validated validKey with ⟨validTuple, cost, validCost⟩
  have costBounds := normalizeCost_eq_ok validCost
  have checked : checkOne delivery.call.resolve delivery.moment request keyspace = _ :=
    checkOne_eq delivery.moment inRange.representable resolved units limitNonneg limitLt
      heldNonneg validTuple validCost (by omega) heldLt
  simp only [Delivery.moment_now] at checked
  constructor
  · simp only [Delivery.execute, isCheck, checked, FixedWindow.respond, FixedWindow.validates,
      validTuple, validCost, capped, Prod.map_apply]
    rfl
  · refine Or.inl ⟨by simp only [Delivery.execute, isCheck, checked, Prod.map_apply, id_eq], ?_⟩
    simp only [FixedWindow.respond, FixedWindow.validates, isCheck, validTuple, validCost, capped]

omit admitted exactNumbers heldNonneg heldLt in
theorem executed_getUsage {request : GetUsageRequest}
    (isUsage : delivery.call.rpc = .getUsage request) :
    Executed delivery keyspace (counterKey key (windowId delivery.call.now cap.timeUnit)) period
      cap.timeUnit := by
  rcases addresses with ⟨validKey, resolved, units⟩
  have capped := Call.capOf?_of_configured resolved units
  simp only [Call.validKey?, FixedWindow.validates, isUsage] at validKey
  have validTuple : validateKey request.key = .ok key := by
    cases valid : validateKey request.key with
    | error error => simp [valid, Except.toOption] at validKey
    | ok found =>
        simp only [valid, Except.toOption, Option.some.injEq] at validKey
        exact congrArg _ validKey
  have used : getUsage delivery.call.resolve delivery.moment request keyspace = _ :=
    getUsage_eq delivery.moment inRange.representable resolved units validTuple
  simp only [Delivery.moment_now] at used
  constructor
  · simp only [Delivery.execute, isUsage, used, FixedWindow.respond, FixedWindow.validates,
      validTuple, capped, Prod.map_apply]
  · refine Or.inl ⟨by simp only [Delivery.execute, isUsage, used, Prod.map_apply, id_eq], ?_⟩
    simp only [FixedWindow.respond, FixedWindow.validates, isUsage, validTuple, capped]

theorem executed
    (nextLt : (FixedWindow.respond delivery.call
      (counter keyspace (counterKey key (windowId delivery.call.now cap.timeUnit)))).2 < 2 ^ 53) :
    Executed delivery keyspace (counterKey key (windowId delivery.call.now cap.timeUnit)) period
      cap.timeUnit := by
  cases isRpc : delivery.call.rpc with
  | charge request =>
      exact executed_charge inRange admitted exactNumbers addresses heldNonneg isRpc nextLt
  | refund request =>
      exact executed_refund inRange admitted exactNumbers addresses heldNonneg heldLt isRpc
  | checkQuota request =>
      exact executed_check inRange admitted exactNumbers addresses heldNonneg heldLt isRpc
  | getUsage request => exact executed_getUsage inRange addresses isRpc

end Addressed

end RateLimiter.Enforcer
