import RateLimiter.Enforcer.FixedWindow
import RateLimiter.Lib.Machine

/-!
# Expiry of counter keys

A run is any sequence of requests and of keys that Redis drops. A request
computes its window at one instant, and its script runs any time later. The
numbers are arbitrary: no step relies on their being exact doubles.
-/

namespace RateLimiter.Enforcer

open CivilTime Redis Machine

/-- A request whose script runs `delay` nanoseconds after its window was computed. -/
structure Invocation where
  call : Call
  delay : ℕ

def Invocation.moment (invocation : Invocation) : Moment :=
  ⟨invocation.call.now, (invocation.call.now + invocation.delay) / 1000000, invocation.call.draw⟩

/-- The keyspace after a request. -/
def Invocation.run (invocation : Invocation) (keyspace : Keyspace) : Keyspace :=
  match invocation.call.rpc with
  | .charge request =>
      (chargeOne invocation.call.resolve invocation.moment defaultGraceSecs request keyspace).2
  | .refund request =>
      (refundOne invocation.call.resolve invocation.moment request keyspace).2
  | .checkQuota request =>
      (checkOne invocation.call.resolve invocation.moment request keyspace).2
  | .getUsage request =>
      (getUsage invocation.call.resolve invocation.moment request keyspace).2

inductive StoreEvent where
  | invoke (invocation : Invocation)
  | drop (key : String)

def StoreEvent.apply (keyspace : Keyspace) : StoreEvent → Keyspace
  | .invoke invocation => invocation.run keyspace
  | .drop key => Redis.drop keyspace key

def storeAfter (events : List StoreEvent) : Keyspace :=
  after StoreEvent.apply (fun _ => none) events

/-- The request is a charge whose window has the given counter. -/
structure Invocation.Charges (invocation : Invocation) (unit : TimeUnit) (window : Window)
    (counter : String) : Prop where
  isCharge : ∃ request, invocation.call.rpc = .charge request
  computed : computeWindow invocation.call.now unit = some window
  isCounter : ∃ key, counter = counterKey key window.windowId

/-- The deadline that a charge gives to a new counter. -/
def Invocation.deadline (invocation : Invocation) (unit : TimeUnit) (window : Window) : ℤ :=
  invocation.moment.redisMillis + jitteredTtl window.remainingSecs defaultGraceSecs
    (jitterCapSecs unit) invocation.moment.draw * 1000

/-- What a request can do to the keyspace. -/
inductive Invocation.Effect (invocation : Invocation) (keyspace : Keyspace) : Keyspace → Prop where
  | unchanged : invocation.Effect keyspace keyspace
  /-- A charge keeps the deadline that it finds, and else sets its own. -/
  | charged {unit : TimeUnit} {window : Window} {key : String} {value : ℤ}
      (charges : invocation.Charges unit window key) :
      invocation.Effect keyspace (Function.update keyspace key
        (some ⟨value,
          some ((Redis.deadline keyspace key).getD (invocation.deadline unit window))⟩))
  /-- A refund never touches the deadline, and leaves nothing where nothing was. -/
  | refunded {key : String} {value : ℤ} (stays : counter keyspace key = 0 → value = 0) :
      invocation.Effect keyspace (Function.update keyspace key
        (some ⟨value, Redis.deadline keyspace key⟩))

section Step

variable (invocation : Invocation) (keyspace : Keyspace)

theorem toNumber_ttl {unit : TimeUnit} {window : Window} {now : ℤ} (draw : ℕ)
    (computed : computeWindow now unit = some window) :
    toNumber (jitteredTtl window.remainingSecs defaultGraceSecs (jitterCapSecs unit) draw) =
      jitteredTtl window.remainingSecs defaultGraceSecs (jitterCapSecs unit) draw := by
  rcases computeWindow_eq_some computed with ⟨period, _, rfl⟩
  have lower := one_le_jitteredTtl ((period.finish now - now) / 1000000000) defaultGraceSecs
    (jitterCapSecs unit) draw
  have upper := jitteredTtl_lt period now unit draw
  dsimp only
  apply toNumber_eq_self
  · omega
  · omega

theorem target?_eq_some {resolve : LimitKey → Resolved} {now : ℤ} {key : LimitKey}
    {target : Target} (found : target? resolve now key = some target) :
    computeWindow now target.cap.timeUnit = some target.window ∧
      target.counter = counterKey key target.window.windowId := by
  simp only [target?] at found
  split at found
  · simp at found
  · simp only [Option.map_eq_some_iff] at found
    rcases found with ⟨window, computed, rfl⟩
    exact ⟨computed, rfl⟩

theorem chargeOne_effect {request : ChargeRequest}
    (isCharge : invocation.call.rpc = .charge request) :
    invocation.Effect keyspace
      (chargeOne invocation.call.resolve invocation.moment defaultGraceSecs request
        keyspace).2 := by
  simp only [chargeOne]
  split
  · exact .unchanged
  · exact .unchanged
  · rename_i key cost _ _
    split
    · exact .unchanged
    · rename_i target found
      rcases target?_eq_some found with ⟨computed, isCounter⟩
      have exactTtl := toNumber_ttl invocation.moment.draw computed
      have ttlPos : 0 < toNumber (jitteredTtl target.window.remainingSecs defaultGraceSecs
          (jitterCapSecs target.cap.timeUnit) invocation.moment.draw) := by
        rw [exactTtl]
        exact one_le_jitteredTtl _ _ _ _
      have ran := @chargeScript_cases target.counter keyspace _ cost target.cap.limitValue
        invocation.moment.redisMillis ttlPos
      rw [exactTtl, ← runScript_snd] at ran
      have effect : invocation.Effect keyspace (runScript (chargeScript target.counter cost
          target.cap.limitValue (jitteredTtl target.window.remainingSecs defaultGraceSecs
            (jitterCapSecs target.cap.timeUnit) invocation.moment.draw)
          invocation.moment.redisMillis) keyspace).2 := by
        rcases ran with same | ⟨value, charged⟩
        · rw [same]
          exact .unchanged
        · rw [charged]
          exact .charged ⟨⟨request, isCharge⟩, computed, key, isCounter⟩
      split <;> rename_i outcome <;> rw [outcome] at effect <;> exact effect

theorem refundOne_effect (request : RefundRequest) :
    invocation.Effect keyspace
      (refundOne invocation.call.resolve invocation.moment request keyspace).2 := by
  simp only [refundOne]
  split
  · exact .unchanged
  · exact .unchanged
  · rename_i key amount _ validAmount
    split
    · exact .unchanged
    · rename_i target found
      have ran := @refundScript_cases target.counter keyspace amount target.cap.limitValue
        (validateAmount_eq_ok validAmount).1
      rw [← runScript_snd] at ran
      have effect : invocation.Effect keyspace
          (runScript (refundScript target.counter amount target.cap.limitValue) keyspace).2 := by
        rcases ran with same | ⟨value, refunded, stays⟩
        · rw [same]
          exact .unchanged
        · rw [refunded]
          exact .refunded stays
      split <;> rename_i outcome <;> rw [outcome] at effect <;> exact effect

theorem getUsage_readOnly (request : GetUsageRequest) :
    (getUsage invocation.call.resolve invocation.moment request keyspace).2 = keyspace := by
  simp only [getUsage]
  split
  · rfl
  · split
    · rfl
    · split
      · rfl
      · simp [runScript, consumedScript_eq]

theorem run_effect : invocation.Effect keyspace (invocation.run keyspace) := by
  cases isRpc : invocation.call.rpc with
  | charge request =>
      simp only [Invocation.run, isRpc]
      exact chargeOne_effect invocation keyspace isRpc
  | refund request =>
      simp only [Invocation.run, isRpc]
      exact refundOne_effect invocation keyspace request
  | checkQuota request =>
      simp only [Invocation.run, isRpc, checkOne_readOnly]
      exact .unchanged
  | getUsage request =>
      simp only [Invocation.run, isRpc, getUsage_readOnly]
      exact .unchanged

end Step

section Effects

variable {invocation : Invocation} {keyspace after : Keyspace}

/-- No request moves or removes a deadline. -/
theorem deadline_kept (effect : invocation.Effect keyspace after) {key : String} {due : ℤ}
    (isDue : deadline keyspace key = some due) : deadline after key = some due := by
  cases effect with
  | unchanged => exact isDue
  | @charged _ _ charged _ _ =>
      by_cases same : key = charged
      · subst same
        simp [isDue]
      · rw [deadline_update_of_ne _ same]
        exact isDue
  | @refunded refunded _ _ =>
      by_cases same : key = refunded
      · subst same
        simp [isDue]
      · rw [deadline_update_of_ne _ same]
        exact isDue

/-- A deadline that was not there is that of a charge. -/
theorem deadline_new (effect : invocation.Effect keyspace after) {key : String} {due : ℤ}
    (isDue : deadline after key = some due) :
    deadline keyspace key = some due ∨ ∃ unit window,
      invocation.Charges unit window key ∧ due = invocation.deadline unit window := by
  cases effect with
  | unchanged => exact Or.inl isDue
  | @charged unit window charged _ charges =>
      by_cases same : key = charged
      · subst same
        cases earlier : deadline keyspace key with
        | some instant =>
            simp only [deadline_update_self, earlier, Option.getD_some] at isDue
            exact Or.inl isDue
        | none =>
            simp only [deadline_update_self, earlier, Option.getD_none,
              Option.some.injEq] at isDue
            exact Or.inr ⟨unit, window, charges, isDue.symm⟩
      · rw [deadline_update_of_ne _ same] at isDue
        exact Or.inl isDue
  | @refunded refunded _ _ =>
      by_cases same : key = refunded
      · subst same
        simp only [deadline_update_self] at isDue
        exact Or.inl isDue
      · rw [deadline_update_of_ne _ same] at isDue
        exact Or.inl isDue

/-- A counter that is not zero has a deadline. -/
def Expiring (keyspace : Keyspace) : Prop :=
  ∀ key, counter keyspace key ≠ 0 → ∃ due, deadline keyspace key = some due

theorem expiring_effect (effect : invocation.Effect keyspace after) (expiring : Expiring keyspace) :
    Expiring after := by
  intro key nonzero
  cases effect with
  | unchanged => exact expiring key nonzero
  | @charged _ _ charged _ _ =>
      by_cases same : key = charged
      · subst same
        exact ⟨_, deadline_update_self _ _ _⟩
      · rw [counter_update_of_ne _ same] at nonzero
        rw [deadline_update_of_ne _ same]
        exact expiring key nonzero
  | @refunded refunded value stays =>
      by_cases same : key = refunded
      · subst same
        rw [deadline_update_self]
        rw [counter_update_self] at nonzero
        exact expiring key fun zero => nonzero (stays zero)
      · rw [counter_update_of_ne _ same] at nonzero
        rw [deadline_update_of_ne _ same]
        exact expiring key nonzero

end Effects

section Bounds

variable {invocation : Invocation} {unit : TimeUnit} {window : Window}
  (computed : computeWindow invocation.call.now unit = some window)

include computed

theorem resetAt_le_deadline : window.resetAt ≤ invocation.deadline unit window * 1000000 := by
  rcases computeWindow_eq_some computed with ⟨period, _, rfl⟩
  apply finish_le_newTtl period unit invocation.moment
  simp only [Invocation.moment]
  omega

theorem deadline_le_resetAt (prompt : invocation.delay = 0) :
    invocation.deadline unit window * 1000000 ≤
      window.resetAt + (defaultGraceSecs + jitterCapSecs unit) * 1000000000 := by
  rcases computeWindow_eq_some computed with ⟨period, units, rfl⟩
  have ahead := period.lt_finish invocation.call.now
  have capPos : 0 ≤ jitterCapSecs unit := by cases unit <;> decide
  have jitter := Int.emod_lt_of_pos (invocation.call.draw : ℤ)
    (show 0 < jitterCapSecs unit + 1 by omega)
  simp only [Invocation.deadline, Invocation.moment, prompt, jitteredTtl, defaultGraceSecs]
  split <;> omega

end Bounds

/-- Ids of years with four digits tell their windows apart, and a counter of a later year that is
written alike is due even later. -/
theorem resetAt_le_of_counter_eq {firstNow secondNow : ℤ} {firstUnit secondUnit : TimeUnit}
    {firstWindow secondWindow : Window} {first second : LimitKey}
    (firstComputed : computeWindow firstNow firstUnit = some firstWindow)
    (secondComputed : computeWindow secondNow secondUnit = some secondWindow)
    (inRange : FourDigitYear secondNow)
    (same : counterKey first firstWindow.windowId = counterKey second secondWindow.windowId) :
    secondWindow.resetAt ≤ firstWindow.resetAt := by
  rcases computeWindow_eq_some firstComputed with ⟨firstPeriod, firstUnits, rfl⟩
  rcases computeWindow_eq_some secondComputed with ⟨secondPeriod, secondUnits, rfl⟩
  have ids := windowId_eq_of_counterKey_eq (colon_notMem_windowId firstNow firstUnit)
    (colon_notMem_windowId secondNow secondUnit) same
  dsimp only at ids ⊢
  by_cases negative : (date firstNow).year < 0
  · have sign := sign_mem_windowId negative firstUnits
    rw [ids] at sign
    exact absurd (isDigit_of_mem_windowId inRange sign) (by decide)
  · by_cases short : (date firstNow).year ≤ 9999
    · rcases (windowId_eq_iff ⟨by omega, short⟩ inRange firstUnits secondUnits).mp ids with
        ⟨rfl, sameIndex⟩
      rw [firstUnits, Option.some.injEq] at secondUnits
      subst secondUnits
      rw [firstPeriod.finish_congr sameIndex]
    · have later := secondPeriod.finish_le_of_year_lt
        (show (date secondNow).year < (date firstNow).year by have := inRange.2; omega)
      have := firstPeriod.lt_finish firstNow
      omega

section Runs

theorem storeAfter_concat (events : List StoreEvent) (event : StoreEvent) :
    storeAfter (events ++ [event]) = event.apply (storeAfter events) :=
  after_concat _ _ _ _

theorem expiring_storeAfter (events : List StoreEvent) : Expiring (storeAfter events) := by
  apply history_invariant (fun _ keyspace => Expiring keyspace)
  · intro key nonzero
    exact absurd rfl nonzero
  intro earlier event expiring
  cases event with
  | invoke invocation => exact expiring_effect (run_effect invocation _) expiring
  | drop dropped =>
      intro key nonzero
      by_cases same : key = dropped
      · subst same
        exact absurd (by simp [StoreEvent.apply, Redis.drop, counter]) nonzero
      · simp only [StoreEvent.apply] at nonzero ⊢
        rw [counter_drop_of_ne _ same] at nonzero
        rw [deadline_drop_of_ne _ same]
        exact expiring key nonzero

theorem deadline_storeAfter_kept {events more : List StoreEvent} {key : String} {due : ℤ}
    (isDue : deadline (storeAfter events) key = some due) (stays : .drop key ∉ more) :
    deadline (storeAfter (events ++ more)) key = some due := by
  induction more using List.reverseRecOn with
  | nil => simpa using isDue
  | append_singleton more event ih =>
      simp only [List.mem_append, List.mem_singleton, not_or] at stays
      rw [← List.append_assoc, storeAfter_concat]
      have before := ih stays.1
      cases event with
      | invoke invocation => exact deadline_kept (run_effect invocation _) before
      | drop dropped =>
          have different : key ≠ dropped := fun same => stays.2 (by rw [same])
          simp only [StoreEvent.apply]
          rw [deadline_drop_of_ne _ different]
          exact before

/-- Every deadline was set by a charge of the run. -/
theorem exists_charge (events : List StoreEvent) {key : String} {due : ℤ}
    (isDue : deadline (storeAfter events) key = some due) :
    ∃ invocation unit window, .invoke invocation ∈ events ∧
      invocation.Charges unit window key ∧ due = invocation.deadline unit window := by
  induction events using List.reverseRecOn with
  | nil => simp [storeAfter, deadline] at isDue
  | append_singleton events event ih =>
      have earlier : deadline (storeAfter events) key = some due →
          ∃ invocation unit window, .invoke invocation ∈ events ++ [event] ∧
            invocation.Charges unit window key ∧ due = invocation.deadline unit window := by
        intro wasDue
        rcases ih wasDue with ⟨invocation, unit, window, mem, stamped⟩
        exact ⟨invocation, unit, window, List.mem_append_left _ mem, stamped⟩
      rw [storeAfter_concat] at isDue
      cases event with
      | invoke invocation =>
          rcases deadline_new (run_effect invocation _) isDue with wasDue | ⟨unit, window, stamped⟩
          · exact earlier wasDue
          · exact ⟨invocation, unit, window, List.mem_append_right _ (List.mem_singleton_self _),
              stamped⟩
      | drop dropped =>
          by_cases same : key = dropped
          · subst same
            simp [StoreEvent.apply, Redis.drop, deadline] at isDue
          · simp only [StoreEvent.apply] at isDue
            rw [deadline_drop_of_ne _ same] at isDue
            exact earlier isDue

end Runs

/-- In every store that is reached a counter that is not zero has a deadline; a deadline stays until
the key is dropped; it is the one that a charge of the key's window gave it, no earlier than the
window closes, and, if the script ran without delay, no later than grace and jitter allow; and it
does not fall before the end of any window that the id names with four digits of the year. -/
theorem expiry_discipline (events : List StoreEvent) :
    (∀ key, counter (storeAfter events) key ≠ 0 →
      ∃ due, deadline (storeAfter events) key = some due) ∧
    (∀ key due more, deadline (storeAfter events) key = some due → .drop key ∉ more →
      deadline (storeAfter (events ++ more)) key = some due) ∧
    ∀ key due, deadline (storeAfter events) key = some due →
      (∃ invocation unit window, .invoke invocation ∈ events ∧
        invocation.Charges unit window key ∧ due = invocation.deadline unit window ∧
        window.resetAt ≤ due * 1000000 ∧
        (invocation.delay = 0 → due * 1000000 ≤
          window.resetAt + (defaultGraceSecs + jitterCapSecs unit) * 1000000000)) ∧
      ∀ limitKey now unit window, FourDigitYear now → computeWindow now unit = some window →
        key = counterKey limitKey window.windowId → window.resetAt ≤ due * 1000000 := by
  refine ⟨expiring_storeAfter events, fun key due more => deadline_storeAfter_kept, ?_⟩
  intro key due isDue
  rcases exists_charge events isDue with ⟨invocation, unit, window, mem, charges, rfl⟩
  have covered := resetAt_le_deadline charges.computed
  refine ⟨⟨invocation, unit, window, mem, charges, rfl, covered,
    deadline_le_resetAt charges.computed⟩, ?_⟩
  intro limitKey now otherUnit otherWindow inRange computed isKey
  rcases charges.isCounter with ⟨ownKey, isOwn⟩
  have named := resetAt_le_of_counter_eq charges.computed computed inRange
    (isOwn.symm.trans isKey)
  exact named.trans covered

section Sample

/-- A charge in the middle of a second, within a minute that ends 34.75 s later. -/
def midSecondCharge : Invocation :=
  ⟨⟨1783866625250000000, 17, fun _ => .configured ⟨10, .minute⟩,
    .charge ⟨some ⟨"search", "acme", "query"⟩, 3⟩⟩, 0⟩

theorem expiry_discipline_sample :
    deadline (storeAfter [.invoke midSecondCharge])
        (counterKey ⟨"search", "acme", "query"⟩ "202607121430") = some 1783866681250 ∧
      ∃ invocation unit window, .invoke invocation ∈ [StoreEvent.invoke midSecondCharge] ∧
        invocation.Charges unit window (counterKey ⟨"search", "acme", "query"⟩ "202607121430") ∧
        1783866681250 = invocation.deadline unit window ∧
        window.resetAt ≤ 1783866681250 * 1000000 ∧
        (invocation.delay = 0 → 1783866681250 * 1000000 ≤
          window.resetAt + (defaultGraceSecs + jitterCapSecs unit) * 1000000000) := by
  have isDue : deadline (storeAfter [.invoke midSecondCharge])
      (counterKey ⟨"search", "acme", "query"⟩ "202607121430") = some 1783866681250 := by
    decide +kernel
  exact ⟨isDue, ((expiry_discipline [.invoke midSecondCharge]).2.2 _ _ isDue).1⟩

end Sample

end RateLimiter.Enforcer
