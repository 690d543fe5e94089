import RateLimiter.Enforcer.Service

/-!
# The fixed-window counter specification

What the data plane is for: every tuple has one integer per calendar window of
its unit, starting at zero. A charge adds its cost, a refund subtracts its
amount and stops at zero, a check and a usage request only read. The
specification knows nothing of keys, deadlines, scripts or doubles, and says
itself what a request counts with. It shares with the service the messages and
the resolved configuration, which arrives with each call.
-/

namespace RateLimiter.Enforcer

open CivilTime

inductive Rpc where
  | charge (request : ChargeRequest)
  | refund (request : RefundRequest)
  | checkQuota (request : CheckQuotaRequest)
  | getUsage (request : GetUsageRequest)
deriving DecidableEq

inductive Reply where
  | charge (result : Except EnforcerError RemainingResponse)
  | refund (result : Except EnforcerError RemainingResponse)
  | checkQuota (result : Except EnforcerError CheckQuotaResponse)
  | getUsage (result : Except Status GetUsageResponse)
deriving DecidableEq

/-- A request with the instant, the randomness and the configuration it meets. -/
structure Call where
  now : ℤ
  draw : ℕ
  resolve : LimitKey → Resolved
  rpc : Rpc

namespace FixedWindow

/-- A request names its tuple in full. -/
def tuple (key : Option LimitKey) : Except EnforcerError LimitKey :=
  match key with
  | none => .error (.invalidArgument "key is required")
  | some key =>
      if key.serviceName ≠ "" ∧ key.customerId ≠ "" ∧ key.rateLimitId ≠ "" then .ok key
      else .error (.invalidArgument
        "key.service_name, key.customer_id, key.rate_limit_id must all be set")

/-- A request costs at least one. -/
def cost (number : ℤ) : Except EnforcerError ℤ :=
  if 0 ≤ number then .ok (max number 1) else .error (.invalidArgument "cost must be >= 0")

/-- A refund may return nothing, but takes nothing. -/
def amount (number : ℤ) : Except EnforcerError ℤ :=
  if 0 ≤ number then .ok number else .error (.invalidArgument "amount must be >= 0")

theorem tuple_eq (key : Option LimitKey) : tuple key = validateKey key := by
  cases key with
  | none => rfl
  | some key =>
      have parts : (key.serviceName ≠ "" ∧ key.customerId ≠ "" ∧ key.rateLimitId ≠ "") ↔
          ¬(key.serviceName = "" ∨ key.customerId = "" ∨ key.rateLimitId = "") := by
        simp only [not_or, ne_eq]
      simp only [tuple, validateKey, parts, ite_not]

theorem cost_eq (number : ℤ) : cost number = normalizeCost number := by
  simp only [cost, normalizeCost]
  split
  · split
    · subst number
      rfl
    · rw [if_neg (by omega), max_eq_left (by omega)]
  · rw [if_neg (by omega), if_pos (by omega)]

theorem amount_eq (number : ℤ) : amount number = validateAmount number := by
  simp only [amount, validateAmount]
  split
  · rw [if_neg (by omega)]
  · rw [if_pos (by omega)]

/-- The service takes requests as specified. -/
theorem validates : tuple = validateKey ∧ cost = normalizeCost ∧ amount = validateAmount :=
  ⟨funext tuple_eq, funext cost_eq, funext amount_eq⟩

end FixedWindow

namespace Call

/-- The cap and the window length of a configured key. -/
def capOf? (call : Call) (key : LimitKey) : Option (Cap × Period) :=
  match call.resolve key with
  | .unconfigured => none
  | .configured cap => (period? cap.timeUnit).map fun period => (cap, period)

/-- The key of the request, if the whole request is valid. -/
def validKey? (call : Call) : Option LimitKey :=
  match call.rpc with
  | .charge request | .checkQuota request =>
      match FixedWindow.tuple request.key, FixedWindow.cost request.cost with
      | .ok key, .ok _ => some key
      | _, _ => none
  | .refund request =>
      match FixedWindow.tuple request.key, FixedWindow.amount request.amount with
      | .ok key, .ok _ => some key
      | _, _ => none
  | .getUsage request => (FixedWindow.tuple request.key).toOption

end Call

namespace FixedWindow

/-- One tuple in one calendar window. -/
structure CounterId where
  key : LimitKey
  period : Period
  index : ℤ
deriving DecidableEq

/-- The abstract store. -/
abbrev Counters := CounterId → ℤ

/-- The counter a valid request on a configured key addresses. -/
def counterId? (call : Call) : Option CounterId := do
  let key ← call.validKey?
  let (_, period) ← call.capOf? key
  pure ⟨key, period, period.index call.now⟩

/-- The answer to a call and the new value of the counter it addresses. -/
def respond (call : Call) (consumed : ℤ) : Reply × ℤ :=
  match call.rpc with
  | .charge request =>
      match tuple request.key, cost request.cost with
      | .error error, _ => (.charge (.error error), consumed)
      | .ok _, .error error => (.charge (.error error), consumed)
      | .ok key, .ok cost =>
          match call.capOf? key with
          | none => (.charge (.ok unlimited), consumed)
          | some (cap, period) =>
              (.charge (.ok ⟨cap.limitValue - (consumed + cost), cap.limitValue,
                some (period.finish call.now)⟩), consumed + cost)
  | .refund request =>
      match tuple request.key, amount request.amount with
      | .error error, _ => (.refund (.error error), consumed)
      | .ok _, .error error => (.refund (.error error), consumed)
      | .ok key, .ok amount =>
          match call.capOf? key with
          | none => (.refund (.ok unlimited), consumed)
          | some (cap, period) =>
              (.refund (.ok ⟨cap.limitValue - max (consumed - amount) 0, cap.limitValue,
                some (period.finish call.now)⟩), max (consumed - amount) 0)
  | .checkQuota request =>
      match tuple request.key, cost request.cost with
      | .error error, _ => (.checkQuota (.error error), consumed)
      | .ok _, .error error => (.checkQuota (.error error), consumed)
      | .ok key, .ok cost =>
          match call.capOf? key with
          | none => (.checkQuota (.ok allowCheck), consumed)
          | some (cap, period) =>
              (.checkQuota (.ok ⟨decide (consumed + cost ≤ cap.limitValue),
                cap.limitValue - consumed, cap.limitValue,
                some (period.finish call.now)⟩), consumed)
  | .getUsage request =>
      match tuple request.key with
      | .error error => (.getUsage (.error error.toStatus), consumed)
      | .ok key =>
          match call.capOf? key with
          | none => (.getUsage (.ok unconfiguredUsage), consumed)
          | some (cap, period) =>
              (.getUsage (.ok ⟨consumed, cap.limitValue - consumed, cap.limitValue,
                some (period.finish call.now), true⟩), consumed)

/-- One call against the abstract store: only the addressed counter is read or written. -/
def perform (call : Call) (counters : Counters) : Reply × Counters :=
  match counterId? call with
  | none => ((respond call 0).1, counters)
  | some id =>
      ((respond call (counters id)).1,
        Function.update counters id (respond call (counters id)).2)

def countersAfter (counters : Counters) (calls : List Call) : Counters :=
  calls.foldl (fun counters call => (perform call counters).2) counters

def replies (counters : Counters) : List Call → List Reply
  | [] => []
  | call :: rest => (perform call counters).1 :: replies (perform call counters).2 rest

theorem perform_apply (call : Call) (counters : Counters) (id : CounterId) :
    (perform call counters).2 id =
      if counterId? call = some id then (respond call (counters id)).2 else counters id := by
  unfold perform
  cases addressed : counterId? call with
  | none => simp
  | some other =>
      by_cases same : other = id
      · subst id
        simp
      · simp [same, Function.update_of_ne (Ne.symm same)]

/-- A counter depends on the calls that address it and on no others. -/
theorem countersAfter_filter (calls : List Call) (id : CounterId) :
    ∀ first second : Counters, first id = second id →
      countersAfter first calls id =
        countersAfter second (calls.filter fun call => counterId? call = some id) id := by
  induction calls with
  | nil => exact fun _ _ agree => agree
  | cons call rest ih =>
      intro first second agree
      simp only [countersAfter, List.foldl_cons]
      by_cases addressed : counterId? call = some id
      · simp only [List.filter_cons, addressed, decide_true, if_true, List.foldl_cons]
        apply ih
        simp only [perform_apply, addressed, if_true, agree]
      · simp only [List.filter_cons, addressed, decide_false, Bool.false_eq_true, if_false]
        apply ih
        simp only [perform_apply, addressed, if_false, agree]

theorem replies_getElem? (before after : List Call) (call : Call) :
    ∀ counters : Counters, (replies counters (before ++ call :: after))[before.length]? =
      some (perform call (countersAfter counters before)).1 := by
  induction before with
  | nil => exact fun _ => rfl
  | cons first rest ih => exact fun counters => ih (perform first counters).2

end FixedWindow

/-- The most that a call can add to a counter. -/
def Call.costBound (call : Call) : ℤ :=
  match call.rpc with
  | .charge request => max request.cost 1
  | _ => 0

theorem FixedWindow.respond_le (call : Call) {consumed : ℤ} (nonneg : 0 ≤ consumed) :
    0 ≤ (FixedWindow.respond call consumed).2 ∧
      (FixedWindow.respond call consumed).2 ≤ consumed + call.costBound := by
  cases isRpc : call.rpc with
  | charge request =>
      have atLeastOne := le_max_right request.cost 1
      simp only [FixedWindow.respond, FixedWindow.validates, Call.costBound, isRpc]
      split
      · exact ⟨nonneg, by simp only; omega⟩
      · exact ⟨nonneg, by simp only; omega⟩
      · rename_i cost _ valid
        have costBounds := normalizeCost_eq_ok valid
        split
        · exact ⟨nonneg, by simp only; omega⟩
        · exact ⟨by simp only; omega, by simp only; omega⟩
  | refund request =>
      simp only [FixedWindow.respond, FixedWindow.validates, Call.costBound, isRpc]
      split
      · exact ⟨nonneg, by simp only; omega⟩
      · exact ⟨nonneg, by simp only; omega⟩
      · rename_i amount _ valid
        have amountBounds := validateAmount_eq_ok valid
        split
        · exact ⟨nonneg, by simp only; omega⟩
        · exact ⟨le_max_right _ _, by simp only; omega⟩
  | checkQuota request =>
      simp only [FixedWindow.respond, FixedWindow.validates, Call.costBound, isRpc]
      split
      · exact ⟨nonneg, by simp only; omega⟩
      · exact ⟨nonneg, by simp only; omega⟩
      · split <;> exact ⟨nonneg, by simp only; omega⟩
  | getUsage request =>
      simp only [FixedWindow.respond, FixedWindow.validates, Call.costBound, isRpc]
      split
      · exact ⟨nonneg, by simp only; omega⟩
      · split <;> exact ⟨nonneg, by simp only; omega⟩

theorem Call.costBound_nonneg (call : Call) : 0 ≤ call.costBound := by
  simp only [Call.costBound]
  split
  · exact le_max_of_le_right (by decide)
  · exact Int.le_refl 0

theorem FixedWindow.countersAfter_le (calls : List Call) (id : FixedWindow.CounterId) :
    ∀ {counters : FixedWindow.Counters}, (∀ id, 0 ≤ counters id) →
      FixedWindow.countersAfter counters calls id ≤
        counters id + (calls.map Call.costBound).sum := by
  induction calls with
  | nil => simp [FixedWindow.countersAfter]
  | cons call rest ih =>
      intro counters nonneg
      have stays : ∀ id, 0 ≤ (FixedWindow.perform call counters).2 id ∧
          (FixedWindow.perform call counters).2 id ≤ counters id + call.costBound := by
        intro id
        rw [FixedWindow.perform_apply]
        split
        · exact FixedWindow.respond_le call (nonneg id)
        · exact ⟨nonneg id, Int.le_add_of_nonneg_right call.costBound_nonneg⟩
      have later := ih fun id => (stays id).1
      have here := (stays id).2
      simp only [FixedWindow.countersAfter, List.foldl_cons, List.map_cons, List.sum_cons]
        at later ⊢
      omega

end RateLimiter.Enforcer
