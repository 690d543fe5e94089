import RateLimiter.Enforcer.Config
import RateLimiter.Enforcer.Store

/-!
# The `RateLimiter` service

The RPCs of `service.rs` share one spine: validate, resolve the cap, compute
the window, run one script, answer. They are functions of the resolved
configuration, of the instant `now` read from the wall clock, of the keyspace
the script finds and of the server clock at its execution, so that a script
may run later than the instant at which its window was computed.
-/

namespace RateLimiter.Enforcer

open CivilTime Redis

inductive EnforcerError where
  | invalidArgument (message : String)
  | store (error : Redis.Error)
deriving DecidableEq

/-- The text of a status. -/
inductive StatusText where
  | plain (text : String)
  /-- `counter store: {error}` -/
  | counterStore (error : Redis.Error)
deriving DecidableEq

/-- The characters of the text; how an error of the store is displayed is up to the Redis client. -/
def StatusText.display (describe : Redis.Error → String) : StatusText → String
  | .plain text => text
  | .counterStore error => "counter store: " ++ describe error

structure Status where
  code : StatusCode
  message : StatusText
deriving DecidableEq

/-- `From<EnforcerError> for Status`. -/
def EnforcerError.toStatus : EnforcerError → Status
  | .invalidArgument message => ⟨.invalidArgument, .plain message⟩
  | .store error => ⟨.unavailable, .counterStore error⟩

structure CheckQuotaRequest where
  key : Option LimitKey
  cost : ℤ
deriving DecidableEq

structure CheckQuotaResponse where
  allowed : Bool
  remaining : ℤ
  limit : ℤ
  /-- Nanoseconds from the epoch; absent for unlimited keys. -/
  resetAt : Option ℤ
deriving DecidableEq

structure ChargeRequest where
  key : Option LimitKey
  cost : ℤ
deriving DecidableEq

/-- The response to a charge and to a refund. -/
structure RemainingResponse where
  remaining : ℤ
  limit : ℤ
  resetAt : Option ℤ
deriving DecidableEq

structure RefundRequest where
  key : Option LimitKey
  amount : ℤ
deriving DecidableEq

structure GetUsageRequest where
  key : Option LimitKey
deriving DecidableEq

structure GetUsageResponse where
  consumed : ℤ
  remaining : ℤ
  limit : ℤ
  resetAt : Option ℤ
  configured : Bool
deriving DecidableEq

/-- All three fields of the key must be non-empty. -/
def validateKey (key : Option LimitKey) : Except EnforcerError LimitKey :=
  match key with
  | none => .error (.invalidArgument "key is required")
  | some key =>
      if key.serviceName = "" ∨ key.customerId = "" ∨ key.rateLimitId = "" then
        .error (.invalidArgument
          "key.service_name, key.customer_id, key.rate_limit_id must all be set")
      else .ok key

/-- A cost of zero means one; a negative cost is invalid. -/
def normalizeCost (cost : ℤ) : Except EnforcerError ℤ :=
  if cost = 0 then .ok 1
  else if cost < 0 then .error (.invalidArgument "cost must be >= 0")
  else .ok cost

def validateAmount (amount : ℤ) : Except EnforcerError ℤ :=
  if amount < 0 then .error (.invalidArgument "amount must be >= 0") else .ok amount

/-- An unconfigured check allows; its numbers are sentinels. -/
def allowCheck : CheckQuotaResponse := ⟨true, 0, 0, none⟩

/-- An unconfigured charge or refund is unlimited. -/
def unlimited : RemainingResponse := ⟨0, 0, none⟩

def unconfiguredUsage : GetUsageResponse := ⟨0, 0, 0, none, false⟩

/-- The clocks and the randomness one request meets. -/
structure Moment where
  /-- `Utc::now()` at the enforcer, in nanoseconds. -/
  now : ℤ
  /-- The clock of Redis when the script runs, in milliseconds. -/
  redisMillis : ℤ
  /-- The random 64-bit number of the jitter. -/
  draw : ℕ

/-- The counter a configured request addresses, with its cap and window. -/
structure Target where
  cap : Cap
  window : Window
  counter : String

/-- Resolve the cap and compute the window; `none` means unlimited. -/
def target? (resolve : LimitKey → Resolved) (now : ℤ) (key : LimitKey) : Option Target :=
  match resolve key with
  | .unconfigured => none
  | .configured cap =>
      (computeWindow now cap.timeUnit).map fun window =>
        ⟨cap, window, counterKey key window.windowId⟩

/-- Runs a script and keeps its effects, whether or not it fails. -/
def runScript {α : Type} (script : Script α) (keyspace : Keyspace) :
    Except EnforcerError α × Keyspace :=
  match script keyspace with
  | (.ok value, rest) => (.ok value, rest)
  | (.error error, rest) => (.error (.store error), rest)

@[simp]
theorem runScript_snd {α : Type} (script : Script α) (keyspace : Keyspace) :
    (runScript script keyspace).2 = (script keyspace).2 := by
  simp only [runScript]
  split <;> rename_i ran <;> rw [ran]

section Operations

variable (resolve : LimitKey → Resolved) (moment : Moment)

def checkOne (request : CheckQuotaRequest) (keyspace : Keyspace) :
    Except EnforcerError CheckQuotaResponse × Keyspace :=
  match validateKey request.key, normalizeCost request.cost with
  | .error error, _ => (.error error, keyspace)
  | .ok _, .error error => (.error error, keyspace)
  | .ok key, .ok cost =>
      match target? resolve moment.now key with
      | none => (.ok allowCheck, keyspace)
      | some target =>
          match runScript (checkScript target.counter target.cap.limitValue cost) keyspace with
          | (.error error, rest) => (.error error, rest)
          | (.ok result, rest) =>
              (.ok ⟨result.allowed, result.remaining, target.cap.limitValue,
                some target.window.resetAt⟩, rest)

def chargeOne (graceSecs : ℤ) (request : ChargeRequest) (keyspace : Keyspace) :
    Except EnforcerError RemainingResponse × Keyspace :=
  match validateKey request.key, normalizeCost request.cost with
  | .error error, _ => (.error error, keyspace)
  | .ok _, .error error => (.error error, keyspace)
  | .ok key, .ok cost =>
      match target? resolve moment.now key with
      | none => (.ok unlimited, keyspace)
      | some target =>
          let ttlSecs := jitteredTtl target.window.remainingSecs graceSecs
            (jitterCapSecs target.cap.timeUnit) moment.draw
          match runScript (chargeScript target.counter cost target.cap.limitValue ttlSecs
            moment.redisMillis) keyspace with
          | (.error error, rest) => (.error error, rest)
          | (.ok remaining, rest) =>
              (.ok ⟨remaining, target.cap.limitValue, some target.window.resetAt⟩, rest)

def refundOne (request : RefundRequest) (keyspace : Keyspace) :
    Except EnforcerError RemainingResponse × Keyspace :=
  match validateKey request.key, validateAmount request.amount with
  | .error error, _ => (.error error, keyspace)
  | .ok _, .error error => (.error error, keyspace)
  | .ok key, .ok amount =>
      match target? resolve moment.now key with
      | none => (.ok unlimited, keyspace)
      | some target =>
          match runScript (refundScript target.counter amount target.cap.limitValue) keyspace with
          | (.error error, rest) => (.error error, rest)
          | (.ok remaining, rest) =>
              (.ok ⟨remaining, target.cap.limitValue, some target.window.resetAt⟩, rest)

/-- Unlike its siblings, a configured limit without a window is an internal error here. -/
def getUsage (request : GetUsageRequest) (keyspace : Keyspace) :
    Except Status GetUsageResponse × Keyspace :=
  match validateKey request.key with
  | .error error => (.error error.toStatus, keyspace)
  | .ok key =>
      match resolve key with
      | .unconfigured => (.ok unconfiguredUsage, keyspace)
      | .configured cap =>
          match computeWindow moment.now cap.timeUnit with
          | none =>
              (.error ⟨.internal, .plain "configured limit has unspecified time unit"⟩, keyspace)
          | some window =>
              match runScript (consumedScript (counterKey key window.windowId)) keyspace with
              | (.error error, rest) => (.error error.toStatus, rest)
              | (.ok consumed, rest) =>
                  (.ok ⟨consumed, cap.limitValue - consumed, cap.limitValue,
                    some window.resetAt, true⟩, rest)

end Operations

/-- `REDIS_COUNTER_TTL_GRACE_SECS`. -/
def defaultGraceSecs : ℤ := 5

theorem normalizeCost_eq_ok {cost normalized : ℤ} (valid : normalizeCost cost = .ok normalized) :
    0 < normalized ∧ normalized ≤ max cost 1 := by
  simp only [normalizeCost] at valid
  split at valid
  · simp only [Except.ok.injEq] at valid
    omega
  · split at valid
    · simp at valid
    · simp only [Except.ok.injEq] at valid
      omega

theorem normalizeCost_of_pos {cost : ℤ} (positive : 1 ≤ cost) : normalizeCost cost = .ok cost := by
  have nonzero : cost ≠ 0 := by omega
  have nonneg : ¬cost < 0 := by omega
  simp only [normalizeCost, nonzero, nonneg, if_false]

theorem validateAmount_eq_ok {amount accepted : ℤ} (valid : validateAmount amount = .ok accepted) :
    0 ≤ accepted ∧ accepted = amount := by
  simp only [validateAmount] at valid
  split at valid
  · simp at valid
  · simp only [Except.ok.injEq] at valid
    omega

/-- The time to live of a new counter is a small positive number of seconds. -/
theorem jitteredTtl_lt (period : Period) (now : ℤ) (unit : TimeUnit) (draw : ℕ) :
    jitteredTtl ((period.finish now - now) / 1000000000) defaultGraceSecs (jitterCapSecs unit)
      draw < 2 ^ 53 := by
  have short := period.finish_le now
  have jitter : jitterCapSecs unit ≤ 300 := by cases unit <;> decide
  simp only [jitteredTtl, defaultGraceSecs]
  split
  · have := Int.emod_lt_of_pos (draw : ℤ) (show 0 < jitterCapSecs unit + 1 by omega)
    omega
  · omega

section Configured

variable {resolve : LimitKey → Resolved} {moment : Moment} {keyspace : Keyspace}
  {key : LimitKey} {cap : Cap} {period : Period}

/-- The time to live a charge gives to a new counter of the window of `now`. -/
def newTtl (period : Period) (unit : TimeUnit) (moment : Moment) : ℤ :=
  jitteredTtl ((period.finish moment.now - moment.now) / 1000000000) defaultGraceSecs
    (jitterCapSecs unit) moment.draw

/-- A new counter outlives its window, however late the script runs. -/
theorem finish_le_newTtl (period : Period) (unit : TimeUnit) (moment : Moment)
    (notBefore : moment.now / 1000000 ≤ moment.redisMillis) :
    period.finish moment.now ≤
      (moment.redisMillis + newTtl period unit moment * 1000) * 1000000 := by
  have lower := @le_jitteredTtl ((period.finish moment.now - moment.now) / 1000000000)
    defaultGraceSecs (jitterCapSecs unit) moment.draw
  simp only [newTtl, defaultGraceSecs] at lower ⊢
  omega

theorem target?_eq {now : ℤ} (inRange : Representable now)
    (resolved : resolve key = .configured cap) (units : period? cap.timeUnit = some period) :
    target? resolve now key =
      some ⟨cap, ⟨windowId now cap.timeUnit, period.finish now,
        (period.finish now - now) / 1000000000⟩,
        counterKey key (windowId now cap.timeUnit)⟩ := by
  simp only [target?, resolved, computeWindow_eq inRange units, Option.map_some]

/-- A charge writes no counter but the one of its window. -/
theorem chargeOne_confined {graceSecs : ℤ} {request : ChargeRequest} {other : String}
    (inRange : Representable moment.now) (resolved : resolve key = .configured cap)
    (units : period? cap.timeUnit = some period) (validKey : validateKey request.key = .ok key)
    (different : other ≠ counterKey key (windowId moment.now cap.timeUnit)) :
    (chargeOne resolve moment graceSecs request keyspace).2 other = keyspace other := by
  cases validCost : normalizeCost request.cost with
  | error error => simp only [chargeOne, validKey, validCost]
  | ok cost =>
      have confined := chargeScript_confined cost cap.limitValue
        (jitteredTtl ((period.finish moment.now - moment.now) / 1000000000) graceSecs
          (jitterCapSecs cap.timeUnit) moment.draw) moment.redisMillis keyspace other different
      rw [← runScript_snd] at confined
      simp only [chargeOne, validKey, validCost, target?_eq inRange resolved units]
      split <;> rename_i ran <;> rw [ran] at confined <;> exact confined

theorem refundOne_confined {request : RefundRequest} {other : String}
    (inRange : Representable moment.now) (resolved : resolve key = .configured cap)
    (units : period? cap.timeUnit = some period) (validKey : validateKey request.key = .ok key)
    (different : other ≠ counterKey key (windowId moment.now cap.timeUnit)) :
    (refundOne resolve moment request keyspace).2 other = keyspace other := by
  cases validAmount : validateAmount request.amount with
  | error error => simp only [refundOne, validKey, validAmount]
  | ok amount =>
      have confined := refundScript_confined amount cap.limitValue keyspace other different
      rw [← runScript_snd] at confined
      simp only [refundOne, validKey, validAmount, target?_eq inRange resolved units]
      split <;> rename_i ran <;> rw [ran] at confined <;> exact confined

theorem checkOne_readOnly (resolve : LimitKey → Resolved) (moment : Moment)
    (request : CheckQuotaRequest) (keyspace : Keyspace) :
    (checkOne resolve moment request keyspace).2 = keyspace := by
  simp only [checkOne]
  split
  · rfl
  · rfl
  · split
    · rfl
    · rename_i cost _ _ _ target _
      have unchanged := runScript_snd
        (checkScript target.counter target.cap.limitValue cost) keyspace
      split <;> rename_i ran <;> rw [ran] at unchanged <;> exact unchanged

variable (moment) (inRange : Representable moment.now) (resolved : resolve key = .configured cap)
  (units : period? cap.timeUnit = some period) (limitNonneg : 0 ≤ cap.limitValue)
  (limitLt : cap.limitValue < 2 ^ 53)
  (counterNonneg : 0 ≤ counter keyspace (counterKey key (windowId moment.now cap.timeUnit)))

include inRange resolved units limitNonneg limitLt counterNonneg

theorem chargeOne_eq {request : ChargeRequest} {cost : ℤ}
    (validKey : validateKey request.key = .ok key)
    (validCost : normalizeCost request.cost = .ok cost) (costLt : cost < 2 ^ 53)
    (sumLt : counter keyspace (counterKey key (windowId moment.now cap.timeUnit)) + cost
      < 2 ^ 53) :
    chargeOne resolve moment defaultGraceSecs request keyspace =
      (.ok ⟨cap.limitValue -
          (counter keyspace (counterKey key (windowId moment.now cap.timeUnit)) + cost),
        cap.limitValue, some (period.finish moment.now)⟩,
        Function.update keyspace (counterKey key (windowId moment.now cap.timeUnit))
          (some (chargedEntry keyspace (counterKey key (windowId moment.now cap.timeUnit)) cost
            (newTtl period cap.timeUnit moment) moment.redisMillis))) := by
  simp only [chargeOne, validKey, validCost, target?_eq inRange resolved units, runScript]
  rw [chargeScript_eq (normalizeCost_eq_ok validCost).1 costLt limitNonneg limitLt
    (one_le_jitteredTtl _ _ _ _) (jitteredTtl_lt _ _ _ _) counterNonneg sumLt]
  rfl

theorem refundOne_eq {request : RefundRequest} {amount : ℤ}
    (validKey : validateKey request.key = .ok key)
    (validAmount : validateAmount request.amount = .ok amount) (amountLt : amount < 2 ^ 53)
    (counterLt : counter keyspace (counterKey key (windowId moment.now cap.timeUnit)) < 2 ^ 53) :
    refundOne resolve moment request keyspace =
      (.ok ⟨cap.limitValue -
          max (counter keyspace (counterKey key (windowId moment.now cap.timeUnit)) - amount) 0,
        cap.limitValue, some (period.finish moment.now)⟩,
        Function.update keyspace (counterKey key (windowId moment.now cap.timeUnit))
          (some ⟨max
            (counter keyspace (counterKey key (windowId moment.now cap.timeUnit)) - amount) 0,
            deadline keyspace (counterKey key (windowId moment.now cap.timeUnit))⟩)) := by
  simp only [refundOne, validKey, validAmount, target?_eq inRange resolved units, runScript]
  rw [refundScript_eq (validateAmount_eq_ok validAmount).1 amountLt limitNonneg limitLt
    counterNonneg counterLt]

theorem checkOne_eq {request : CheckQuotaRequest} {cost : ℤ}
    (validKey : validateKey request.key = .ok key)
    (validCost : normalizeCost request.cost = .ok cost) (costLt : cost < 2 ^ 53)
    (counterLt : counter keyspace (counterKey key (windowId moment.now cap.timeUnit)) < 2 ^ 53) :
    checkOne resolve moment request keyspace =
      (.ok ⟨decide (counter keyspace (counterKey key (windowId moment.now cap.timeUnit)) + cost
          ≤ cap.limitValue),
        cap.limitValue - counter keyspace (counterKey key (windowId moment.now cap.timeUnit)),
        cap.limitValue, some (period.finish moment.now)⟩, keyspace) := by
  simp only [checkOne, validKey, validCost, target?_eq inRange resolved units, runScript]
  rw [checkScript_eq limitNonneg limitLt (normalizeCost_eq_ok validCost).1 costLt counterNonneg
    counterLt]

omit limitNonneg limitLt counterNonneg in
theorem getUsage_eq {request : GetUsageRequest} (validKey : validateKey request.key = .ok key) :
    getUsage resolve moment request keyspace =
      (.ok ⟨counter keyspace (counterKey key (windowId moment.now cap.timeUnit)),
        cap.limitValue - counter keyspace (counterKey key (windowId moment.now cap.timeUnit)),
        cap.limitValue, some (period.finish moment.now), true⟩, keyspace) := by
  simp only [getUsage, validKey, resolved, computeWindow_eq inRange units, runScript,
    consumedScript_eq]

end Configured

end RateLimiter.Enforcer
