import RateLimiter.Console.WindowReset

/-!
# An undisturbed reset takes back what it has read

The other half of a reset: it does bring the counter down. When every refund
comes from the reset that was the last to look, for the window that it read,
no refund is cut off at zero, and the counter of that window is accounted for
to the unit: what was found, plus what was charged since, less what was
refunded.
-/

namespace RateLimiter.Console

open EventLoop EventLoop.Handler JavaScript Machine Redis
open Enforcer (Contention)

namespace Scene

/-- What one step does to the trace and to the counters of the windows that are open after it. -/
inductive Effect (contention : Contention) (scene next : Scene) : Prop where
  | idle (trace : next.trace = scene.trace)
      (counters : ∀ instant, next.clock < contention.period.finish instant →
        counter next.keyspace (contention.slot instant) =
          counter scene.keyspace (contention.slot instant))
  | look (reset : ℕ) (name : String)
      (trace : next.trace = .look reset name (counter scene.keyspace name) :: scene.trace)
      (keyspace : next.keyspace = scene.keyspace)
  | charge (name : String) (cost : ℤ) (positive : 0 < cost)
      (trace : next.trace = .charge name cost :: scene.trace)
      (charged : counter next.keyspace name = counter scene.keyspace name + cost)
      (others : ∀ other, other ≠ name → counter next.keyspace other = counter scene.keyspace other)
  | refund (reset : ℕ) (name : String) (amount : ℤ)
      (owed : allowance (scene.resets reset) = amount)
      (trace : next.trace = .refund reset name amount :: scene.trace)
      (refunded : counter next.keyspace name = max (counter scene.keyspace name - amount) 0)
      (others : ∀ other, other ≠ name → counter next.keyspace other = counter scene.keyspace other)

variable {describe : Redis.Error → String} {contention : Contention} {scene : Scene}

theorem clock_le_step (event : SceneEvent) :
    scene.clock ≤ (scene.step describe contention event).clock := by
  have settles : ∀ reset past (turn : Store × Pause Store Call Reply Moment Thrown Value),
      (scene.settle reset past turn).clock = scene.clock := by
    rintro reset past ⟨store, pause⟩
    cases pause <;> rfl
  cases event with
  | tick clock =>
      simp only [step]
      split
      · rename_i allowed
        exact allowed.1
      · exact Int.le_refl _
  | begin context moment => exact (settles _ _ _).ge
  | sample reset | execute reset redisMillis | executeCharge client redisMillis =>
      simp only [step]
      split <;> exact Int.le_refl _
  | reply reset moment failure =>
      simp only [step]
      split
      · exact (settles _ _ _).ge
      · exact Int.le_refl _
  | sampleCharge client cost draw => exact Int.le_refl _
  | forget instant =>
      simp only [step]
      split <;> exact Int.le_refl _

theorem effect_of_same {next : Scene} (trace : next.trace = scene.trace)
    (keyspace : next.keyspace = scene.keyspace) : Effect contention scene next :=
  .idle trace fun _ _ => by rw [keyspace]

section Effects

variable (steady : Steady contention scene) (limitLt : contention.cap.limitValue < 2 ^ 53)

include steady limitLt

theorem effect_execute (reset : ℕ) (redisMillis : ℤ) :
    Effect contention scene (scene.step describe contention (.execute reset redisMillis)) := by
  simp only [step]
  split
  · rename_i waiting instant isSampled
    have prepared := steady.resets reset _ isSampled
    have inRange := prepared.inRange instant rfl
    have bounds := steady.counters (contention.slot instant)
    rcases prepared.sends (.fresh []) with isRead | ⟨first, usage, requestId, isFirst, isRefund⟩
    · rw [show waiting.request.rpc = _ from isRead]
      rcases @enforce_getUsage describe contention instant redisMillis scene.keyspace inRange with
        ⟨usage, isServed, isCounter⟩
      rw [isServed]
      cases isPast : waiting.past with
      | nil =>
          apply Effect.look reset (contention.slot instant)
          · simp only [accessOf, isCounter, List.singleton_append]
          · rfl
      | cons exchange others => exact effect_of_same rfl rfl
    · rcases prepared.short usage (Or.inr ⟨first, isFirst⟩) with ⟨nonneg, short⟩
      have isRpc : waiting.request.rpc = .refund contention.key (consumedOf usage) requestId :=
        isRefund
      have isAmount : (consumedOf usage).toInt64 = readOf usage :=
        @refundOf_eq contention.key usage requestId nonneg short
      rcases @enforce_refund describe contention instant redisMillis scene.keyspace inRange limitLt
        bounds.1 bounds.2 (consumedOf usage) requestId (by rw [isAmount]; exact nonneg)
        (by rw [isAmount]; exact short) with ⟨message, entry, isServed, isEntry⟩
      rw [isRpc, isServed, show waiting.past = _ from isFirst]
      apply Effect.refund reset (contention.slot instant) (consumedOf usage).toInt64
      · rw [isSampled]
        rcases waiting with ⟨past, request, resume⟩
        simp only at isRpc isFirst
        simp only [show past = _ from isFirst, allowance, isRpc, refundOf]
      · rfl
      · simp only [counter_update_self, isEntry]
      · intro other different
        exact counter_update_of_ne _ different _
  · exact effect_of_same rfl rfl

theorem effect_executeCharge (client : ℕ) (redisMillis : ℤ)
    (fits : Fits contention scene (.executeCharge client redisMillis)) :
    Effect contention scene
      (scene.step describe contention (.executeCharge client redisMillis)) := by
  cases isCharging : scene.charges client with
  | none =>
      simp only [step, isCharging]
      exact effect_of_same rfl rfl
  | some charging =>
      have inRange := steady.charges client charging isCharging
      have bounds := steady.counters (contention.slot charging.sampledAt)
      have sum := fits charging isCharging
      simp only [step, isCharging]
      cases valid : Enforcer.normalizeCost charging.cost with
      | error error =>
          have refused : contention.charge charging.cost charging.sampledAt redisMillis
              charging.draw scene.keyspace = (.error error, scene.keyspace) := by
            simp only [Contention.charge, Enforcer.chargeOne, contention.keySet, valid]
          rw [refused]
          exact effect_of_same rfl rfl
      | ok cost =>
          have positive := Enforcer.normalizeCost_eq_ok valid
          rcases @charge_eq contention charging.sampledAt redisMillis scene.keyspace inRange limitLt
            bounds.1 charging.cost cost charging.draw valid (by omega) with
            ⟨response, entry, isCharged, isEntry⟩
          rw [isCharged]
          apply Effect.charge (contention.slot charging.sampledAt) cost positive.1
          · rfl
          · simp only [counter_update_self, isEntry]
          · intro other different
            exact counter_update_of_ne _ different _

theorem effect_step {event : SceneEvent} (fits : Fits contention scene event) :
    Effect contention scene (scene.step describe contention event) := by
  have settles : ∀ reset past (turn : Store × Pause Store Call Reply Moment Thrown Value),
      (scene.settle reset past turn).keyspace = scene.keyspace := by
    rintro reset past ⟨store, pause⟩
    cases pause <;> rfl
  cases event with
  | tick clock =>
      simp only [step]
      split <;> exact effect_of_same rfl rfl
  | begin context moment => exact effect_of_same (trace_settle _ _ _) (settles _ _ _)
  | sample reset =>
      simp only [step]
      split <;> exact effect_of_same rfl rfl
  | execute reset redisMillis => exact effect_execute steady limitLt reset redisMillis
  | reply reset moment failure =>
      simp only [step]
      split
      · exact effect_of_same (trace_settle _ _ _) (settles _ _ _)
      · exact effect_of_same rfl rfl
  | sampleCharge client cost draw => exact effect_of_same rfl rfl
  | executeCharge client redisMillis =>
      exact effect_executeCharge steady limitLt client redisMillis fits
  | forget instant =>
      simp only [step]
      split
      · rename_i isOver
        refine Effect.idle rfl ?_
        intro other isOpen
        apply counter_drop_of_ne
        intro same
        -- the window that is dropped has ended
        have sameEnd := contention.period.finish_congr (contention.slot_eq_iff.mp same)
        simp only at isOpen
        omega
      · exact effect_of_same rfl rfl

end Effects

/-- The books of the windows that were the last to be read. -/
structure Balanced (contention : Contention) (scene : Scene) : Prop where
  costs : ∀ name cost, .charge name cost ∈ scene.trace → 0 ≤ cost
  balance : ∀ instant, scene.clock < contention.period.finish instant →
    (owner (contention.slot instant) scene.trace).isSome →
    counter scene.keyspace (contention.slot instant) =
      found (contention.slot instant) scene.trace +
        chargedSince (contention.slot instant) scene.trace -
        refundedSince (fun _ other => other = contention.slot instant) scene.trace

theorem chargedSince_nonneg (name : String) {trace : List Access}
    (costs : ∀ other cost, .charge other cost ∈ trace → 0 ≤ cost) :
    0 ≤ chargedSince name trace := by
  induction trace with
  | nil => exact Int.le_refl 0
  | cons access earlier ih =>
      have rest := ih fun other cost mem => costs other cost (List.mem_cons_of_mem _ mem)
      cases access with
      | look _ _ _ => exact Int.le_refl 0
      | refund _ _ _ => exact rest
      | charge other cost =>
          have nonneg := costs other cost List.mem_cons_self
          simp only [chargedSince]
          split <;> omega

theorem Balanced.step (balanced : Balanced contention scene) (steady : Steady contention scene)
    (unstrayed : ∀ name, strayed name scene.trace = 0)
    (limitLt : contention.cap.limitValue < 2 ^ 53) {event : SceneEvent}
    (fits : Fits contention scene event) (undisturbed : scene.Undisturbed contention event) :
    Balanced contention (scene.step describe contention event) := by
  have later := @clock_le_step describe contention scene event
  have stray : ∀ name, strayed name (scene.step describe contention event).trace = 0 :=
    strayed_step undisturbed unstrayed
  cases effect_step steady limitLt fits with
  | idle trace counters =>
      refine ⟨by rw [trace]; exact balanced.costs, ?_⟩
      intro instant isOpen owned
      rw [counters instant isOpen]
      rw [trace] at owned ⊢
      exact balanced.balance instant (by omega) owned
  | look reset name trace keyspace =>
      constructor
      · intro other cost mem
        rw [trace] at mem
        exact balanced.costs other cost (List.mem_of_ne_of_mem (by simp) mem)
      · intro instant isOpen owned
        rw [trace] at owned ⊢
        rcases Option.isSome_iff_exists.mp owned with ⟨looker, isOwner⟩
        rcases owner_eq_some_iff.mp isOwner with ⟨consumed, isLast⟩
        simp only [lastLook, Option.some.injEq, Prod.mk.injEq] at isLast
        simp [found, lastLook, chargedSince, refundedSince, isLast.2.1, keyspace]
  | charge name cost positive trace charged others =>
      constructor
      · intro other amount mem
        rw [trace] at mem
        rcases List.mem_cons.mp mem with here | earlier
        · cases here
          exact positive.le
        · exact balanced.costs other amount earlier
      · intro instant isOpen owned
        rw [trace] at owned ⊢
        have before := balanced.balance instant (by omega) owned
        simp only [found, lastLook, chargedSince, refundedSince] at before ⊢
        by_cases here : contention.slot instant = name
        · rw [here, charged]
          rw [here] at before
          simp only [if_true]
          omega
        · rw [others _ here, if_neg (Ne.symm here)]
          omega
  | refund reset name amount owed trace refunded others =>
      constructor
      · intro other cost mem
        rw [trace] at mem
        exact balanced.costs other cost (List.mem_of_ne_of_mem (by simp) mem)
      · intro instant isOpen owned
        have isStray := stray (contention.slot instant)
        rw [trace] at owned isStray ⊢
        have before := balanced.balance instant (by omega) owned
        rcases Option.isSome_iff_exists.mp owned with ⟨looker, isOwner⟩
        rcases owner_eq_some_iff.mp isOwner with ⟨consumed, isLast⟩
        have isFound : found (contention.slot instant) scene.trace = consumed := by
          have isLast : lastLook scene.trace = _ := isLast
          simp [found, isLast]
        have own := steady.owned looker _ consumed isLast
        have bound := steady.refunded_le_of_owner isOwner
        rw [unstrayed, zero_add] at bound
        have charges := chargedSince_nonneg (contention.slot instant) balanced.costs
        simp only [found, lastLook, chargedSince, refundedSince] at before isFound ⊢
        by_cases here : contention.slot instant = name
        · subst here
          have bounds := steady.counters (contention.slot instant)
          rw [refunded]
          simp only [decide_true, if_true]
          by_cases isReset : reset = looker
          · subst isReset
            rw [owed] at own
            omega
          · -- a refund by another reset is none at all
            have unstray : strayed (contention.slot instant)
                (.refund reset (contention.slot instant) amount :: scene.trace) =
                (if (contention.slot instant = contention.slot instant &&
                    owner (contention.slot instant) scene.trace != some reset) = true then
                  amount else 0) + strayed (contention.slot instant) scene.trace := rfl
            have isOwner : owner (contention.slot instant) scene.trace = some looker := isOwner
            have different : (some looker != some reset) = true := by
              simpa using fun same => isReset same.symm
            rw [isStray, unstrayed, isOwner, different] at unstray
            simp only [decide_true, Bool.and_self, if_true] at unstray
            omega
        · rw [others _ here]
          simp only [Ne.symm here, decide_false, Bool.false_eq_true, if_false]
          omega

section Runs

variable (describe) (contention) (limitLt : contention.cap.limitValue < 2 ^ 53) {clock : ℤ}
  (inRange : Enforcer.Representable clock) (store : Store)

include limitLt inRange

/-- A step that keeps the numbers small and in which no refund is misplaced. -/
def Orderly (scene : Scene) (event : SceneEvent) : Prop :=
  Fits contention scene event ∧ scene.Undisturbed contention event

theorem balanced_run {events : List SceneEvent}
    (orderly : ∀ turn event, events[turn]? = some event →
      Orderly contention (run describe contention clock store (events.take turn)) event) :
    Steady contention (run describe contention clock store events) ∧
      (∀ name, strayed name (run describe contention clock store events).trace = 0) ∧
      Balanced contention (run describe contention clock store events) := by
  refine conditional_invariant (Orderly contention) (fun _ scene => Steady contention scene ∧
    (∀ name, strayed name scene.trace = 0) ∧ Balanced contention scene) ?_ ?_ orderly
  · refine ⟨Steady.initial inRange store, fun _ => rfl, ?_, ?_⟩
    · simp [Scene.initial]
    · simp [Scene.initial, owner, lastLook]
  · rintro before event ⟨steady, unstrayed, balanced⟩ ⟨fits, undisturbed⟩
    exact ⟨steady.step limitLt fits, strayed_step undisturbed unstrayed,
      balanced.step steady unstrayed limitLt fits undisturbed⟩

/-- In every undisturbed run, the counter of the current window, if it was the last one read, is
what was found in it, plus the costs charged since, less the amounts refunded to it since. So once
what was found has been refunded, exactly the later charges are left. -/
theorem reset_clears_earlier_usage {events : List SceneEvent}
    (orderly : ∀ turn event, events[turn]? = some event →
      Orderly contention (run describe contention clock store (events.take turn)) event)
    {scene : Scene} (reached : run describe contention clock store events = scene)
    {reset : ℕ} {held : ℤ}
    (read : lastLook scene.trace = some (reset, contention.slot scene.clock, held)) :
    scene.consumed contention = held + chargedSince (contention.slot scene.clock) scene.trace -
        refundedSince (fun _ other => other = contention.slot scene.clock) scene.trace ∧
      (refundedSince (fun _ other => other = contention.slot scene.clock) scene.trace = held →
        scene.consumed contention =
          chargedSince (contention.slot scene.clock) scene.trace) := by
  have balanced := (balanced_run describe contention limitLt inRange store orderly).2.2
  rw [reached] at balanced
  have isOwner : owner (contention.slot scene.clock) scene.trace = some reset :=
    owner_eq_some_iff.mpr ⟨held, read⟩
  have balance := balanced.balance scene.clock (contention.period.lt_finish scene.clock)
    (by simp [isOwner])
  have isFound : found (contention.slot scene.clock) scene.trace = held := by
    simp [found, read]
  rw [isFound] at balance
  refine ⟨balance, ?_⟩
  intro refunded
  simp only [consumed]
  omega

end Runs

section Sample

theorem reset_clears_earlier_usage_sample :
    (sampleScene sampleAlone).consumed Enforcer.Contention.pair =
      chargedSince (Enforcer.Contention.pair.slot (sampleScene sampleAlone).clock)
        (sampleScene sampleAlone).trace := by
  have orderly : ∀ turn < sampleAlone.length, ∀ event ∈ sampleAlone[turn]?,
      Fits Enforcer.Contention.pair (sampleScene (sampleAlone.take turn)) event ∧
        Undisturbed Enforcer.Contention.pair (sampleScene (sampleAlone.take turn)) event := by
    decide +kernel
  refine (@reset_clears_earlier_usage (fun _ => "refused") Enforcer.Contention.pair (by decide) 0
    (by decide +kernel) (.fresh []) sampleAlone ?_ _ rfl 0 10 (by decide +kernel)).2
    (by decide +kernel)
  intro turn event isEvent
  exact orderly turn (List.getElem?_eq_some_iff.mp isEvent).1 event isEvent

end Sample

end Scene

end RateLimiter.Console
