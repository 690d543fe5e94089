import RateLimiter.Enforcer.Window
import RateLimiter.Lib.Redis
import RateLimiter.Management.LimitValidator

/-!
# The Redis counter store

The three Lua scripts of `store.rs` (they are the ones of
`schema/redis_scripts.lua`), the plain read behind the live-usage endpoint, and
the counter key. Each script gets one lemma that says what it does as long as
all the numbers involved are exact doubles. `counterKey_inj` is the reason why
two limits never share a counter: customer ids are arbitrary, but the service
name and the rate limit id come from rows that `LimitValidator` accepted.
-/

namespace RateLimiter.Enforcer

open Redis

/-- `CHARGE_SRC`: always applies, and sets the deadline once. -/
def chargeScript (key : String) (cost limit ttlSecs nowMillis : ℤ) : Script ℤ := do
  let consumed ← incrBy key (toNumber cost)
  let left ← ttl key nowMillis
  if left < 0 then expire key nowMillis (toNumber ttlSecs)
  pure (reply (sub (toNumber limit) consumed))

/-- `REFUND_SRC`: floored at zero by a second, correcting increment. -/
def refundScript (key : String) (amount limit : ℤ) : Script ℤ := do
  let consumed ← decrBy key (toNumber amount)
  if consumed < 0 then
    let _ ← incrBy key (-consumed)
    pure (reply (sub (toNumber limit) 0))
  else pure (reply (sub (toNumber limit) consumed))

structure CheckResult where
  allowed : Bool
  remaining : ℤ
deriving DecidableEq

/-- `CHECK_SRC`: read-only; a missing key counts as zero. -/
def checkScript (key : String) (limit cost : ℤ) : Script CheckResult := do
  let stored ← Redis.get key
  let consumed := toNumber (stored.getD 0)
  let remaining := sub (toNumber limit) consumed
  pure ⟨toNumber cost ≤ remaining, reply remaining⟩

/-- `RedisStore::consumed`, a plain `GET`. -/
def consumedScript (key : String) : Script ℤ := do
  let stored ← Redis.get key
  pure (stored.getD 0)

/-- `rl:{<svc>|<cust>|<rlid>}:cnt:<window_id>` -/
def counterKey (key : LimitKey) (windowId : String) : String :=
  "rl:\x7b" ++ key.serviceName ++ "|" ++ key.customerId ++ "|" ++ key.rateLimitId ++
    "\x7d:cnt:" ++ windowId

/-- The names in the key follow the grammars of the control plane. -/
def Grammatical (key : LimitKey) : Prop :=
  Management.LimitValidator.validateServiceName key.serviceName = .ok () ∧
    Management.LimitValidator.validateRateLimitId key.rateLimitId = .ok ()

theorem toList_counterKey (key : LimitKey) (windowId : String) :
    (counterKey key windowId).toList =
      "rl:\x7b".toList ++ (key.serviceName.toList ++ '|' :: (key.customerId.toList ++
        '|' :: (key.rateLimitId.toList ++ '}' :: (":cnt".toList ++
          ':' :: windowId.toList)))) := by
  have tag : "\x7d:cnt:".toList = '}' :: (":cnt".toList ++ [':']) := by decide
  simp [counterKey, String.toList_append, tag]

theorem counterKey_inj {first second : LimitKey} {firstId secondId : String}
    (firstNames : Grammatical first) (secondNames : Grammatical second)
    (firstDigits : ':' ∉ firstId.toList) (secondDigits : ':' ∉ secondId.toList)
    (equal : counterKey first firstId = counterKey second secondId) :
    first = second ∧ firstId = secondId := by
  have lists := congrArg String.toList equal
  simp only [toList_counterKey] at lists
  have afterPrefix := List.append_cancel_left lists
  rcases Encoding.append_cons_inj
    (Management.LimitValidator.notMem_of_validateServiceName firstNames.1).1
    (Management.LimitValidator.notMem_of_validateServiceName secondNames.1).1
    afterPrefix with ⟨services, afterService⟩
  have firstRateLimit := Management.LimitValidator.notMem_of_validateRateLimitId firstNames.2
  have secondRateLimit := Management.LimitValidator.notMem_of_validateRateLimitId secondNames.2
  -- The customer id may contain separators, so the rest is read from the right.
  have fromRight : ∀ (key : LimitKey) (id : String),
      key.customerId.toList ++ '|' :: (key.rateLimitId.toList ++ '}' :: (":cnt".toList ++
          ':' :: id.toList)) =
        (key.customerId.toList ++ '|' :: (key.rateLimitId.toList ++ '}' :: ":cnt".toList)) ++
          ':' :: id.toList := by
    intro key id
    simp
  rw [fromRight, fromRight] at afterService
  rcases Encoding.append_cons_inj_right firstDigits secondDigits afterService with
    ⟨beforeId, ids⟩
  have separated : ∀ (key : LimitKey),
      key.customerId.toList ++ '|' :: (key.rateLimitId.toList ++ '}' :: ":cnt".toList) =
        (key.customerId.toList ++ '|' :: key.rateLimitId.toList) ++ '}' :: ":cnt".toList := by
    intro key
    simp
  rw [separated, separated] at beforeId
  rcases Encoding.append_cons_inj_right (by decide) (by decide) beforeId with ⟨tagged, _⟩
  rcases Encoding.append_cons_inj_right firstRateLimit.1 secondRateLimit.1 tagged with
    ⟨customers, rateLimits⟩
  exact ⟨LimitKey.ext (String.toList_inj.mp services) (String.toList_inj.mp customers)
    (String.toList_inj.mp rateLimits), String.toList_inj.mp ids⟩

/-- Whatever the names, the id of the window is what follows the last colon. -/
theorem windowId_eq_of_counterKey_eq {first second : LimitKey} {firstId secondId : String}
    (firstDigits : ':' ∉ firstId.toList) (secondDigits : ':' ∉ secondId.toList)
    (equal : counterKey first firstId = counterKey second secondId) : firstId = secondId := by
  have lists := congrArg String.toList equal
  have fromRight : ∀ (key : LimitKey) (id : String), (counterKey key id).toList =
      ("rl:\x7b".toList ++ (key.serviceName.toList ++ '|' :: (key.customerId.toList ++
        '|' :: (key.rateLimitId.toList ++ '}' :: ":cnt".toList)))) ++ ':' :: id.toList := by
    intro key id
    simp [toList_counterKey]
  rw [fromRight, fromRight] at lists
  exact String.toList_inj.mp
    (Encoding.append_cons_inj_right firstDigits secondDigits lists).2

section Scripts

variable {keyspace : Keyspace} {key : String}

/-- The entry a charge leaves: the deadline is set only where there was none. -/
def chargedEntry (keyspace : Keyspace) (key : String) (cost ttlSecs nowMillis : ℤ) : Entry :=
  ⟨counter keyspace key + cost,
    some ((deadline keyspace key).getD (nowMillis + ttlSecs * 1000))⟩

theorem chargeScript_eq {cost limit ttlSecs nowMillis : ℤ} (costPos : 0 < cost)
    (costLt : cost < 2 ^ 53) (limitNonneg : 0 ≤ limit) (limitLt : limit < 2 ^ 53)
    (ttlPos : 1 ≤ ttlSecs) (ttlLt : ttlSecs < 2 ^ 53) (counterNonneg : 0 ≤ counter keyspace key)
    (sumLt : counter keyspace key + cost < 2 ^ 53) :
    chargeScript key cost limit ttlSecs nowMillis keyspace =
      (.ok (limit - (counter keyspace key + cost)),
        Function.update keyspace key
          (some (chargedEntry keyspace key cost ttlSecs nowMillis))) := by
  have increment : incrBy key cost keyspace = _ :=
    incrBy_eq keyspace key (by omega) (by omega) (by omega) (by omega)
  have present := Function.update_self key
    (some (Entry.mk (counter keyspace key + cost) (deadline keyspace key))) keyspace
  rcases ttl_of_some nowMillis present with ⟨left, ttlRan, negative⟩
  have exactCost : toNumber cost = cost := toNumber_eq_self (by omega) (by omega)
  have exactTtl : toNumber ttlSecs = ttlSecs := toNumber_eq_self (by omega) (by omega)
  have exactLimit : toNumber limit = limit := toNumber_eq_self (by omega) (by omega)
  have remaining : reply (sub limit (counter keyspace key + cost)) = _ :=
    reply_sub_eq (by omega) (by omega)
  simp only [chargeScript, exactCost, exactTtl, exactLimit]
  rw [Script.bind_apply_ok increment, Script.bind_apply_ok ttlRan]
  cases due : deadline keyspace key with
  | none =>
      rw [due] at present
      rw [if_pos (negative.mpr due),
        Script.bind_apply_ok (expire_of_some nowMillis present (by omega))]
      simp only [Script.pure_apply, remaining, Function.update_idem, chargedEntry, due,
        Option.getD_none]
  | some instant =>
      have kept : ¬left < 0 := by
        rw [negative, due]
        simp
      rw [if_neg kept]
      simp only [Script.pure_apply, remaining, chargedEntry, due, Option.getD_some]

/-- A refund subtracts and floors at zero; it never touches the deadline. -/
theorem refundScript_eq {amount limit : ℤ} (amountNonneg : 0 ≤ amount)
    (amountLt : amount < 2 ^ 53) (limitNonneg : 0 ≤ limit) (limitLt : limit < 2 ^ 53)
    (counterNonneg : 0 ≤ counter keyspace key) (counterLt : counter keyspace key < 2 ^ 53) :
    refundScript key amount limit keyspace =
      (.ok (limit - max (counter keyspace key - amount) 0),
        Function.update keyspace key
          (some ⟨max (counter keyspace key - amount) 0, deadline keyspace key⟩)) := by
  have decrement : decrBy key amount keyspace = _ :=
    decrBy_eq keyspace key (by omega) (by omega) (by omega) (by omega)
  have exactAmount : toNumber amount = amount := toNumber_eq_self (by omega) (by omega)
  have exactLimit : toNumber limit = limit := toNumber_eq_self (by omega) (by omega)
  simp only [refundScript, exactAmount, exactLimit]
  rw [Script.bind_apply_ok decrement]
  by_cases below : counter keyspace key - amount < 0
  · have floored : max (counter keyspace key - amount) 0 = 0 := by omega
    have remaining : reply (sub limit 0) = limit - 0 := reply_sub_eq (by omega) (by omega)
    have restored : counter keyspace key - amount + -(counter keyspace key - amount) = 0 := by
      omega
    have correction : incrBy key (-(counter keyspace key - amount)) _ = _ := incrBy_eq
      (Function.update keyspace key
        (some ⟨counter keyspace key - amount, deadline keyspace key⟩)) key (by omega) (by omega)
      (by simp only [counter_update_self, restored]; decide)
      (by simp only [counter_update_self, restored]; decide)
    simp only [counter_update_self, deadline_update_self, Function.update_idem, restored]
      at correction
    rw [if_pos below, Script.bind_apply_ok correction, Script.pure_apply, remaining, floored]
  · have kept : max (counter keyspace key - amount) 0 = counter keyspace key - amount := by omega
    have remaining : reply (sub limit (counter keyspace key - amount)) = _ :=
      reply_sub_eq (by omega) (by omega)
    rw [if_neg below, Script.pure_apply, remaining, kept]

theorem checkScript_eq {limit cost : ℤ} (limitNonneg : 0 ≤ limit) (limitLt : limit < 2 ^ 53)
    (costPos : 0 < cost) (costLt : cost < 2 ^ 53) (counterNonneg : 0 ≤ counter keyspace key)
    (counterLt : counter keyspace key < 2 ^ 53) :
    checkScript key limit cost keyspace =
      (.ok ⟨decide (counter keyspace key + cost ≤ limit), limit - counter keyspace key⟩,
        keyspace) := by
  have stored : ((keyspace key).map Entry.value).getD 0 = counter keyspace key := rfl
  have difference : sub limit (counter keyspace key) = limit - counter keyspace key :=
    Double.roundInt_eq_self (by omega) (by omega)
  have sameDecision : cost ≤ limit - counter keyspace key ↔
      counter keyspace key + cost ≤ limit := by omega
  have exactLimit : toNumber limit = limit := toNumber_eq_self (by omega) (by omega)
  have exactCost : toNumber cost = cost := toNumber_eq_self (by omega) (by omega)
  have exactCounter : toNumber (counter keyspace key) = counter keyspace key :=
    toNumber_eq_self (by omega) (by omega)
  have fits : isInt64 (limit - counter keyspace key) = true :=
    isInt64_of_bounds (by omega) (by omega)
  rw [checkScript, Script.bind_apply_ok (show Redis.get key keyspace = _ from rfl)]
  simp only [Script.pure_apply, stored, exactLimit, exactCost, exactCounter, difference, reply,
    fits, if_true, sameDecision]

/-- Whatever the numbers, a charge fails and does nothing, or leaves a deadline behind: the one
that was there, else a new one. -/
theorem chargeScript_cases (keyspace : Keyspace) {ttlSecs : ℤ} (cost limit nowMillis : ℤ)
    (ttlPos : 0 < toNumber ttlSecs) :
    (chargeScript key cost limit ttlSecs nowMillis keyspace).2 = keyspace ∨
      ∃ value, (chargeScript key cost limit ttlSecs nowMillis keyspace).2 =
        Function.update keyspace key (some ⟨value,
          some ((deadline keyspace key).getD (nowMillis + toNumber ttlSecs * 1000))⟩) := by
  rcases incrBy_cases keyspace key (toNumber cost) with
    ⟨_, error, failed⟩ | ⟨_, increment⟩
  · refine Or.inl ?_
    rw [chargeScript, Script.bind_apply_error failed]
  · refine Or.inr ⟨counter keyspace key + toNumber cost, ?_⟩
    have present := Function.update_self key
      (some (Entry.mk (counter keyspace key + toNumber cost) (deadline keyspace key))) keyspace
    rcases ttl_of_some nowMillis present with ⟨left, ttlRan, negative⟩
    rw [chargeScript, Script.bind_apply_ok increment, Script.bind_apply_ok ttlRan]
    cases due : deadline keyspace key with
    | none =>
        rw [due] at present
        rw [if_pos (negative.mpr due),
          Script.bind_apply_ok (expire_of_some nowMillis present ttlPos)]
        simp only [Script.pure_apply, Function.update_idem, Option.getD_none]
    | some instant =>
        have kept : ¬left < 0 := by
          rw [negative, due]
          simp
        rw [if_neg kept]
        simp only [Script.pure_apply, Option.getD_some]

/-- Whatever the numbers, a refund keeps the deadline, and a counter at zero stays there: the
decrement by a rounded amount is undone exactly. -/
theorem refundScript_cases (keyspace : Keyspace) {amount : ℤ} (limit : ℤ)
    (nonneg : 0 ≤ amount) :
    (refundScript key amount limit keyspace).2 = keyspace ∨
      ∃ value, (refundScript key amount limit keyspace).2 =
          Function.update keyspace key (some ⟨value, deadline keyspace key⟩) ∧
        (counter keyspace key = 0 → value = 0) := by
  have rounded : 0 ≤ toNumber amount := Double.roundInt_nonneg nonneg
  rcases decrBy_cases keyspace key (toNumber amount) with
    ⟨_, error, failed⟩ | ⟨⟨fits, _⟩, decrement⟩
  · refine Or.inl ?_
    rw [refundScript, Script.bind_apply_error failed]
  · refine Or.inr ?_
    rw [refundScript, Script.bind_apply_ok decrement]
    have replied : counter keyspace key = 0 →
        Double.roundInt (counter keyspace key - toNumber amount) = -toNumber amount := by
      intro zero
      rw [zero, Int.zero_sub]
      exact Double.roundInt_neg_roundInt amount
    split
    · rename_i below
      rcases incrBy_cases
        (Function.update keyspace key
          (some ⟨counter keyspace key - toNumber amount, deadline keyspace key⟩)) key
        (-Double.roundInt (counter keyspace key - toNumber amount)) with
        ⟨beyond, error, failed⟩ | ⟨_, correction⟩
      · refine ⟨_, by rw [Script.bind_apply_error failed], fun zero => ?_⟩
        rw [replied zero, counter_update_self, zero, Int.neg_neg, Int.zero_sub,
          Int.add_left_neg] at beyond
        exact absurd ⟨fits, by decide⟩ beyond
      · rw [counter_update_self, deadline_update_self, Function.update_idem] at correction
        refine ⟨_, by rw [Script.bind_apply_ok correction, Script.pure_apply], fun zero => ?_⟩
        simp only [replied zero]
        omega
    · rename_i notBelow
      refine ⟨_, rfl, fun zero => ?_⟩
      rw [replied zero] at notBelow
      omega

/-- Whatever the counter holds, a script writes no other key. -/
theorem chargeScript_confined (cost limit ttlSecs nowMillis : ℤ) :
    (chargeScript key cost limit ttlSecs nowMillis).Confined key := by
  refine .bind (.incrBy _) fun consumed => .bind (.ttl _) fun left => ?_
  split
  · exact .bind (.expire _ _) fun _ => .pure _
  · exact .pure _

theorem refundScript_confined (amount limit : ℤ) :
    (refundScript key amount limit).Confined key := by
  refine .bind (.decrBy _) fun consumed => ?_
  split
  · exact .bind (.incrBy _) fun _ => .pure _
  · exact .pure _

/-- No script reads another key either. -/
theorem chargeScript_local (cost limit ttlSecs nowMillis : ℤ) :
    (chargeScript key cost limit ttlSecs nowMillis).Local key := by
  refine .bind (.incrBy _) fun consumed => .bind (.ttl _) fun left => ?_
  split
  · exact .bind (.expire _ _) fun _ => .pure _
  · exact .pure _

theorem refundScript_local (amount limit : ℤ) : (refundScript key amount limit).Local key := by
  refine .bind (.decrBy _) fun consumed => ?_
  split
  · exact .bind (.incrBy _) fun _ => .pure _
  · exact .pure _

theorem checkScript_local (limit cost : ℤ) : (checkScript key limit cost).Local key :=
  .bind .get fun _ => .pure _

theorem consumedScript_local : (consumedScript key).Local key :=
  .bind .get fun _ => .pure _

end Scripts

theorem consumedScript_eq (keyspace : Keyspace) (key : String) :
    consumedScript key keyspace = (.ok (counter keyspace key), keyspace) := rfl

end RateLimiter.Enforcer
