import RateLimiter.Console.Contract
import RateLimiter.Enforcer.Overshoot

/-!
# Resets of a window among charges

The console resets a window by reading its usage and refunding what it has
read, in two calls that the enforcer serves at two different times. Charges,
other resets and the end of the window may come between them. A call samples
the clock first and its script runs later, as in the model of the contention.

What the scripts have done is kept in a trace. Since the most recent first
read of a reset, the counter loses no charge but what other resets refund, or
what this reset refunds to a window that it has not read.
-/

namespace RateLimiter.Console

open EventLoop EventLoop.Handler JavaScript Machine Redis
open Enforcer (Contention EnforcerError GetUsageResponse RemainingResponse)

section Wire

-- the text of an error of the counter store is what its client library displays
variable (describe : Redis.Error → String)

/-- `to_timestamp` -/
def toWireTimestamp (instant : ℤ) : WireTimestamp :=
  ⟨instant / 1000000000, instant % 1000000000⟩

def usageReply (result : Except Enforcer.Status GetUsageResponse) : Reply :=
  match result with
  | .ok usage => .ok (.usage ⟨usage.consumed, usage.remaining, usage.limit,
      usage.resetAt.map toWireTimestamp, usage.configured⟩)
  | .error status => .error (.ofStatus status.code (status.message.display describe))

def refundReply (result : Except EnforcerError RemainingResponse) : Reply :=
  match result with
  | .ok refunded => .ok (.refunded refunded.remaining refunded.limit
      (refunded.resetAt.map toWireTimestamp))
  | .error error =>
      .error (.ofStatus error.toStatus.code (error.toStatus.message.display describe))

end Wire

/-- How far the call of a reset has come. -/
inductive Flight where
  | sent
  /-- The enforcer has computed the window; the script has not run yet. -/
  | sampled (instant : ℤ)
  | answered (reply : Reply)

/-- A reset that waits for a reply. -/
structure Reset where
  waiting : Waiting Store Call Reply Moment Thrown Value
  flight : Flight

structure Charging where
  cost : ℤ
  sampledAt : ℤ
  draw : ℕ
deriving DecidableEq

/-- What a script has done to the counter of a window. A look is the first read of a reset. -/
inductive Access where
  | look (reset : ℕ) (counter : String) (consumed : ℤ)
  | charge (counter : String) (cost : ℤ)
  | refund (reset : ℕ) (counter : String) (amount : ℤ)
deriving DecidableEq

/-- The console, the enforcer and Redis, for one configured key. The trace has the latest access
first. -/
structure Scene where
  clock : ℤ
  keyspace : Keyspace
  store : Store
  started : ℕ
  resets : ℕ → Option Reset
  charges : ℕ → Option Charging
  trace : List Access

inductive SceneEvent where
  | tick (clock : ℤ)
  | begin (context : OpContext) (moment : Moment)
  | sample (reset : ℕ)
  | execute (reset : ℕ) (redisMillis : ℤ)
  /-- The reply arrives, or a failure of the connection in its place. -/
  | reply (reset : ℕ) (moment : Moment) (failure : Option ServiceError)
  | sampleCharge (client : ℕ) (cost : ℤ) (draw : ℕ)
  | executeCharge (client : ℕ) (redisMillis : ℤ)
  /-- Redis drops the counter of the window of an instant. -/
  | forget (instant : ℤ)

namespace Scene

def initial (clock : ℤ) (store : Store) : Scene :=
  ⟨clock, fun _ => none, store, 0, fun _ => none, fun _ => none, []⟩

section Trace

/-- The reset that was the last to look, with the counter it read and what it found. -/
def lastLook : List Access → Option (ℕ × String × ℤ)
  | [] => none
  | .look reset counter consumed :: _ => some (reset, counter, consumed)
  | .charge _ _ :: earlier => lastLook earlier
  | .refund _ _ _ :: earlier => lastLook earlier

/-- The costs charged to a counter since the last look. -/
def chargedSince (counter : String) : List Access → ℤ
  | [] => 0
  | .look _ _ _ :: _ => 0
  | .charge other cost :: earlier =>
      (if other = counter then cost else 0) + chargedSince counter earlier
  | .refund _ _ _ :: earlier => chargedSince counter earlier

/-- The amounts of some of the refunds since the last look. -/
def refundedSince (counts : ℕ → String → Bool) : List Access → ℤ
  | [] => 0
  | .look _ _ _ :: _ => 0
  | .charge _ _ :: earlier => refundedSince counts earlier
  | .refund reset counter amount :: earlier =>
      (if counts reset counter then amount else 0) + refundedSince counts earlier

/-- The reset that was the last to look, if it read this counter. -/
def owner (counter : String) (trace : List Access) : Option ℕ :=
  (lastLook trace).bind fun look => if look.2.1 = counter then some look.1 else none

/-- What was refunded to a counter since the last look, but not by its owner. -/
def strayed (counter : String) (trace : List Access) : ℤ :=
  refundedSince (fun reset other => other = counter && owner counter trace != some reset) trace

end Trace

variable (describe : Redis.Error → String) (contention : Contention)

/-- The enforcer serves a call of the console. -/
def enforce (sampledAt redisMillis : ℤ) (rpc : Rpc) (keyspace : Keyspace) : Reply × Keyspace :=
  match rpc with
  | .getUsage key =>
      let result := Enforcer.getUsage contention.resolve ⟨sampledAt, redisMillis, 0⟩ ⟨some key⟩
        keyspace
      (usageReply describe result.1, result.2)
  | .refund key amount _ =>
      let result := Enforcer.refundOne contention.resolve ⟨sampledAt, redisMillis, 0⟩
        ⟨some key, amount.toInt64⟩ keyspace
      (refundReply describe result.1, result.2)
  -- the other calls go to the control plane
  | _ => (.error (.ofStatus .unimplemented ""), keyspace)

/-- The access of a call that was served. -/
def accessOf (reset : ℕ) (past : List (Call × Reply)) (sampledAt : ℤ) (rpc : Rpc)
    (reply : Reply) : List Access :=
  match past, rpc, reply with
  | [], .getUsage _, .ok (.usage usage) =>
      [.look reset (contention.slot sampledAt) usage.consumed]
  | _, .refund _ amount _, .ok _ =>
      [.refund reset (contention.slot sampledAt) amount.toInt64]
  | _, _, _ => []

/-- Where the turn of a reset leaves it. -/
def settle (scene : Scene) (reset : ℕ) (past : List (Call × Reply))
    (turn : Store × Pause Store Call Reply Moment Thrown Value) : Scene :=
  match turn with
  | (store, .finished _) =>
      { scene with store := store, resets := Function.update scene.resets reset none }
  | (store, .waiting request resume) =>
      { scene with
        store := store
        resets := Function.update scene.resets reset (some ⟨⟨past, request, resume⟩, .sent⟩) }

def step (scene : Scene) : SceneEvent → Scene
  | .tick clock =>
      if scene.clock ≤ clock ∧ Enforcer.Representable clock then { scene with clock := clock }
      else scene
  | .begin context moment =>
      let begun := scene.settle scene.started []
        ((resetWindow context contention.key).advance moment scene.store)
      { begun with started := scene.started + 1 }
  | .sample reset =>
      match scene.resets reset with
      | some ⟨waiting, .sent⟩ =>
          { scene with
            resets := Function.update scene.resets reset
              (some ⟨waiting, .sampled scene.clock⟩) }
      | _ => scene
  | .execute reset redisMillis =>
      match scene.resets reset with
      | some ⟨waiting, .sampled instant⟩ =>
          let served :=
            enforce describe contention instant redisMillis waiting.request.rpc scene.keyspace
          { scene with
            keyspace := served.2
            resets := Function.update scene.resets reset (some ⟨waiting, .answered served.1⟩)
            trace := accessOf contention reset waiting.past instant waiting.request.rpc served.1 ++
              scene.trace }
      | _ => scene
  | .reply reset moment failure =>
      match scene.resets reset with
      | some ⟨waiting, .answered reply⟩ =>
          let reply := failure.elim reply .error
          scene.settle reset (waiting.past ++ [(waiting.request, reply)])
            ((waiting.resume reply).advance moment scene.store)
      | _ => scene
  | .sampleCharge client cost draw =>
      { scene with
        charges := Function.update scene.charges client (some ⟨cost, scene.clock, draw⟩) }
  | .executeCharge client redisMillis =>
      match scene.charges client with
      | some ⟨cost, sampledAt, draw⟩ =>
          let charged := contention.charge cost sampledAt redisMillis draw scene.keyspace
          { scene with
            keyspace := charged.2
            charges := Function.update scene.charges client none
            trace :=
              (match charged.1, Enforcer.normalizeCost cost with
                | .ok _, .ok cost => [.charge (contention.slot sampledAt) cost]
                | _, _ => []) ++ scene.trace }
      | none => scene
  | .forget instant =>
      -- not before the window has ended
      if contention.period.finish instant ≤ scene.clock then
        { scene with keyspace := drop scene.keyspace (contention.slot instant) }
      else scene

def run (clock : ℤ) (store : Store) (events : List SceneEvent) : Scene :=
  after (step describe contention) (initial clock store) events

/-- The counter of the current window. -/
def consumed (scene : Scene) : ℤ :=
  counter scene.keyspace (contention.slot scene.clock)

/-- Everything that was charged to the current window since the last look is still there. -/
def KeepsLater (scene : Scene) : Prop :=
  chargedSince (contention.slot scene.clock) scene.trace ≤ scene.consumed contention

/-- No counter reaches what a double cannot hold. -/
def Fits (scene : Scene) : SceneEvent → Prop
  | .executeCharge client _ => ∀ charging ∈ scene.charges client,
      max charging.cost 1 + counter scene.keyspace (contention.slot charging.sampledAt) < 2 ^ 53
  | _ => True

/-- The refund of a reset goes to the window that it read, and it was the last to look. -/
def Returns (scene : Scene) (reset : ℕ) : Option Reset → Prop
  | some ⟨waiting, .sampled instant⟩ => waiting.request.rpc.isMutation = true →
      owner (contention.slot instant) scene.trace = some reset
  | _ => True

/-- The condition on a step: a refund that runs returns what was read. -/
def Undisturbed (scene : Scene) : SceneEvent → Prop
  | .execute reset _ => scene.Returns contention reset (scene.resets reset)
  | _ => True

instance (scene : Scene) (reset : ℕ) (found : Option Reset) :
    Decidable (scene.Returns contention reset found) :=
  match found with
  | some ⟨waiting, .sampled instant⟩ => inferInstanceAs (Decidable
      (waiting.request.rpc.isMutation = true →
        owner (contention.slot instant) scene.trace = some reset))
  | none | some ⟨_, .sent⟩ | some ⟨_, .answered _⟩ => inferInstanceAs (Decidable True)

instance (scene : Scene) (event : SceneEvent) :
    Decidable (scene.Undisturbed contention event) :=
  match event with
  | .execute reset _ =>
      inferInstanceAs (Decidable (scene.Returns contention reset (scene.resets reset)))
  | .tick _ | .begin _ _ | .sample _ | .reply _ _ _ | .sampleCharge _ _ _ | .executeCharge _ _
  | .forget _ => inferInstanceAs (Decidable True)

instance (scene : Scene) (event : SceneEvent) : Decidable (scene.Fits contention event) :=
  match event with
  | .executeCharge client _ => inferInstanceAs (Decidable (∀ charging ∈ scene.charges client,
      max charging.cost 1 + counter scene.keyspace (contention.slot charging.sampledAt) <
        2 ^ 53))
  | .tick _ | .begin _ _ | .sample _ | .execute _ _ | .reply _ _ _ | .sampleCharge _ _ _
  | .forget _ => inferInstanceAs (Decidable True)

instance (scene : Scene) : Decidable (scene.KeepsLater contention) :=
  inferInstanceAs (Decidable (_ ≤ _))

section Code

/-- The calls of a reset: reads, and after a first read that succeeded the refund of what it
found. -/
def resetting (key : LimitKey) : Contract Store Call Reply where
  sends past _ call := call.rpc = .getUsage key ∨ ∃ first usage requestId,
    past = [(first, .ok usage)] ∧ call.rpc = .refund key (consumedOf usage) requestId
  changes _ _ _ := True
  refl _ _ := trivial
  trans _ _ _ _ _ _ := trivial

theorem readUsage_resetting (key : LimitKey) (fetchedAt : String) :
    Keeps anything (resetting key) (readUsage key fetchedAt) := by
  intro past store
  rw [readUsage, wp_bind, wp_call]
  refine ⟨Or.inl rfl, ?_⟩
  intro reply later _
  cases reply with
  | error failure => trivial
  | ok message =>
      cases message with
      | usage usage => exact keeps_orThrow _ _ _
      | _ => trivial

theorem resetWindow_resetting (context : OpContext) (key : LimitKey) (store : Store) :
    wp anything (resetting key) (resetWindow context key) [] store fun _ _ _ => True := by
  have finishes : ∀ fetchedAt : String, ∀ consumed : Number, ∀ requestId : String,
      Keeps anything (resetting key) (do
        context.log .opReset (.limit key) (some (.refunded consumed.maxZero)) (some requestId)
        readUsage key fetchedAt) := by
    intro fetchedAt consumed requestId
    apply Keeps.bind
    · intro past store
      rw [OpContext.log, wp_atomically]
      exact fun _ => ⟨trivial, trivial⟩
    · intro _
      exact readUsage_resetting key fetchedAt
  rw [resetWindow, wp_bind, isoNow, wp_atomically]
  refine fun moment => ⟨trivial, ?_⟩
  simp only [continued]
  rw [wp_bind, wp_call]
  refine ⟨Or.inl rfl, ?_⟩
  intro reply later _
  cases reply with
  | error failure => trivial
  | ok usage =>
      simp only [Except.mapError, continued]
      rw [wp_bind, reqId, wp_atomically]
      refine fun moment => ⟨trivial, ?_⟩
      simp only [continued]
      split
      · rw [wp_bind, wp_call]
        refine ⟨Or.inr ⟨_, usage, _, rfl, rfl⟩, ?_⟩
        intro reply later _
        cases reply with
        | error failure => trivial
        | ok message => exact finishes _ _ _ _ _
      · exact finishes _ _ _ _ _

end Code

/-- What a call would refund. -/
def refundOf : Rpc → ℤ
  | .refund _ amount _ => amount.toInt64
  | _ => 0

/-- What a read found. -/
def readOf : Message → ℤ
  | .usage usage => usage.consumed
  | _ => 0

/-- What a reset may still refund: what it has found, until its refund has run. -/
def allowance (reset : Option Reset) : ℤ :=
  match reset with
  | none => 0
  | some ⟨⟨past, request, _⟩, flight⟩ =>
      match past, flight with
      | [], .answered (.ok usage) => readOf usage
      | [_], .sent => refundOf request.rpc
      | [_], .sampled _ => refundOf request.rpc
      | _, _ => 0

/-- What the last look found in a counter. -/
def found (name : String) (trace : List Access) : ℤ :=
  match lastLook trace with
  | some (_, other, consumed) => if other = name then consumed else 0
  | none => 0

/-- The code that is left of a reset is that of a reset, and it has read a number. -/
structure Prepared (reset : Reset) : Prop where
  sends : ∀ store, (resetting contention.key).sends reset.waiting.past store reset.waiting.request
  will : ∀ reply later, wp anything (resetting contention.key) (reset.waiting.resume reply)
    (reset.waiting.past ++ [(reset.waiting.request, reply)]) later fun _ _ _ => True
  inRange : ∀ instant, reset.flight = .sampled instant → Enforcer.Representable instant
  short : ∀ usage, (reset.waiting.past = [] ∧ reset.flight = .answered (.ok usage)) ∨
      (∃ first, reset.waiting.past = [(first, .ok usage)]) →
    0 ≤ readOf usage ∧ readOf usage < 2 ^ 53

/-- The invariant: a counter of a window that has not ended has what the last look found in it and
what was charged since, up to what was refunded; and no reset refunds more than it found. -/
structure Steady (scene : Scene) : Prop where
  inRange : Enforcer.Representable scene.clock
  resets : ∀ reset waiting, scene.resets reset = some waiting → Prepared contention waiting
  charges : ∀ client charging, scene.charges client = some charging →
    Enforcer.Representable charging.sampledAt
  counters : ∀ name, 0 ≤ counter scene.keyspace name ∧ counter scene.keyspace name < 2 ^ 53
  kept : ∀ instant, scene.clock < contention.period.finish instant →
    found (contention.slot instant) scene.trace +
        chargedSince (contention.slot instant) scene.trace -
        refundedSince (fun _ other => other = contention.slot instant) scene.trace ≤
      counter scene.keyspace (contention.slot instant)
  owned : ∀ reset name consumed, lastLook scene.trace = some (reset, name, consumed) →
    refundedSince (fun other _ => other = reset) scene.trace + allowance (scene.resets reset) ≤
      consumed
  amounts : ∀ reset name amount, .refund reset name amount ∈ scene.trace → 0 ≤ amount

variable {describe} {contention} {scene : Scene}

theorem refundOf_eq {key : LimitKey} {usage : Message} {requestId : String}
    (nonneg : 0 ≤ readOf usage) (short : readOf usage < 2 ^ 53) :
    refundOf (.refund key (consumedOf usage) requestId) = readOf usage := by
  cases usage with
  | usage usage =>
      simp only [readOf] at nonneg short ⊢
      rw [refundOf, consumedOf, Number.ofInt_eq_finite nonneg short,
        Number.toInt64_finite nonneg short]
  | _ => rfl

theorem Prepared.allowance_nonneg {reset : Reset} (prepared : Prepared contention reset) :
    0 ≤ allowance (some reset) := by
  rcases reset with ⟨⟨past, request, resume⟩, flight⟩
  have ofRequest : 0 ≤ refundOf request.rpc := by
    rcases prepared.sends (.fresh []) with isRead | ⟨first, usage, requestId, isFirst, isRefund⟩
    · simp [show request.rpc = _ from isRead, refundOf]
    · rcases prepared.short usage (Or.inr ⟨first, isFirst⟩) with ⟨nonneg, short⟩
      rw [show request.rpc = _ from isRefund, refundOf_eq nonneg short]
      exact nonneg
  simp only [allowance]
  split
  · rename_i usage
    exact (prepared.short usage (Or.inl ⟨rfl, rfl⟩)).1
  · exact ofRequest
  · exact ofRequest
  · exact Int.le_refl 0

/-- Once it has refunded, a reset may refund nothing more. -/
theorem allowance_answered {waiting : Waiting Store Call Reply Moment Thrown Value} {reply : Reply}
    (isLater : waiting.past ≠ []) : allowance (some ⟨waiting, .answered reply⟩) = 0 := by
  rcases waiting with ⟨past, request, resume⟩
  cases past with
  | nil => exact absurd rfl isLater
  | cons exchange others => cases others <;> rfl

theorem Steady.allowance_nonneg (steady : Steady contention scene) (reset : ℕ) :
    0 ≤ allowance (scene.resets reset) := by
  cases isReset : scene.resets reset with
  | none => exact Int.le_refl 0
  | some waiting => exact (steady.resets reset waiting isReset).allowance_nonneg

section Enforce

variable {sampledAt redisMillis : ℤ} {keyspace : Keyspace}
  (inRange : Enforcer.Representable sampledAt)

include inRange

theorem enforce_getUsage :
    ∃ usage, enforce describe contention sampledAt redisMillis (.getUsage contention.key) keyspace =
        (.ok (.usage usage), keyspace) ∧
      usage.consumed = counter keyspace (contention.slot sampledAt) := by
  have read : Enforcer.getUsage contention.resolve ⟨sampledAt, redisMillis, 0⟩
      ⟨some contention.key⟩ keyspace = _ :=
    Enforcer.getUsage_eq ⟨sampledAt, redisMillis, 0⟩ inRange rfl contention.units contention.keySet
  simp only [enforce, read, usageReply]
  exact ⟨_, rfl, rfl⟩

variable (limitLt : contention.cap.limitValue < 2 ^ 53)
  (nonneg : 0 ≤ counter keyspace (contention.slot sampledAt))
  (short : counter keyspace (contention.slot sampledAt) < 2 ^ 53)

include limitLt nonneg

include short in
theorem enforce_refund {amount : Number} {requestId : String} (amountNonneg : 0 ≤ amount.toInt64)
    (amountLt : amount.toInt64 < 2 ^ 53) :
    ∃ message entry, enforce describe contention sampledAt redisMillis
        (.refund contention.key amount requestId) keyspace =
        (.ok message, Function.update keyspace (contention.slot sampledAt) (some entry)) ∧
      entry.value =
        max (counter keyspace (contention.slot sampledAt) - amount.toInt64) 0 := by
  have valid : Enforcer.validateAmount amount.toInt64 = .ok amount.toInt64 := by
    simp [Enforcer.validateAmount, not_lt.mpr amountNonneg]
  have refunded : Enforcer.refundOne contention.resolve ⟨sampledAt, redisMillis, 0⟩
      ⟨some contention.key, amount.toInt64⟩ keyspace = _ :=
    Enforcer.refundOne_eq ⟨sampledAt, redisMillis, 0⟩ inRange rfl contention.units
      contention.limitNonneg limitLt nonneg contention.keySet valid amountLt short
  simp only [enforce, refunded, refundReply]
  exact ⟨_, _, rfl, rfl⟩

theorem charge_eq {cost normalized : ℤ} {draw : ℕ}
    (valid : Enforcer.normalizeCost cost = .ok normalized)
    (sumLt : normalized + counter keyspace (contention.slot sampledAt) < 2 ^ 53) :
    ∃ response entry, contention.charge cost sampledAt redisMillis draw keyspace =
        (.ok response, Function.update keyspace (contention.slot sampledAt) (some entry)) ∧
      entry.value = counter keyspace (contention.slot sampledAt) + normalized := by
  have costLt : normalized < 2 ^ 53 := by omega
  have charged : contention.charge cost sampledAt redisMillis draw keyspace = _ :=
    Enforcer.chargeOne_eq ⟨sampledAt, redisMillis, draw⟩ inRange rfl contention.units
      contention.limitNonneg limitLt nonneg contention.keySet valid costLt
      (by rw [add_comm]; exact sumLt)
  rw [charged]
  exact ⟨_, _, rfl, rfl⟩

end Enforce

namespace Steady

theorem initial {clock : ℤ} (inRange : Enforcer.Representable clock) (store : Store) :
    Steady contention (Scene.initial clock store) where
  inRange := inRange
  resets := by simp [Scene.initial]
  charges := by simp [Scene.initial]
  counters := by simp [Scene.initial, counter]
  kept := by simp [Scene.initial, found, lastLook, chargedSince, refundedSince, counter]
  owned := by simp [Scene.initial, lastLook]
  amounts := by simp [Scene.initial]

section Step

variable (steady : Steady contention scene) {reset : ℕ}

include steady

theorem resets_update {next : Option Reset}
    (prepared : ∀ waiting, next = some waiting → Prepared contention waiting) (other : ℕ)
    (waiting : Reset) (isWaiting : Function.update scene.resets reset next other = some waiting) :
    Prepared contention waiting := by
  by_cases same : other = reset
  · subst same
    apply prepared waiting
    simpa using isWaiting
  · apply steady.resets other waiting
    simpa [same] using isWaiting

theorem charges_update {next : Option Charging} {client : ℕ}
    (inRange : ∀ charging, next = some charging → Enforcer.Representable charging.sampledAt)
    (other : ℕ) (charging : Charging)
    (isCharging : Function.update scene.charges client next other = some charging) :
    Enforcer.Representable charging.sampledAt := by
  by_cases same : other = client
  · subst same
    apply inRange charging
    simpa using isCharging
  · apply steady.charges other charging
    simpa [same] using isCharging

theorem counters_update {name : String} {entry : Entry} (nonneg : 0 ≤ entry.value)
    (short : entry.value < 2 ^ 53) (other : String) :
    0 ≤ counter (Function.update scene.keyspace name (some entry)) other ∧
      counter (Function.update scene.keyspace name (some entry)) other < 2 ^ 53 := by
  by_cases same : other = name
  · subst same
    rw [counter_update_self]
    exact ⟨nonneg, short⟩
  · rw [counter_update_of_ne _ same]
    exact steady.counters other

/-- A reset moves on, and may refund no more than before. -/
theorem move {next : Option Reset} (store : Store) (started : ℕ)
    (prepared : ∀ waiting, next = some waiting → Prepared contention waiting)
    (less : allowance next ≤ allowance (scene.resets reset)) :
    Steady contention { scene with
      store := store
      started := started
      resets := Function.update scene.resets reset next } := by
  refine ⟨steady.inRange, steady.resets_update prepared, steady.charges, steady.counters,
    steady.kept, ?_, steady.amounts⟩
  intro other name consumed isLast
  have owned := steady.owned other name consumed isLast
  by_cases same : other = reset
  · subst same
    simp only [Function.update_self]
    omega
  · simpa [same] using owned

theorem settle {past : List (Call × Reply)} {code : Async Value} (moment : Moment) (started : ℕ)
    (keeps : wp anything (resetting contention.key) code past scene.store fun _ _ _ => True)
    (short : ∀ first usage, past = [(first, .ok usage)] →
      0 ≤ readOf usage ∧ readOf usage < 2 ^ 53 ∧ readOf usage ≤ allowance (scene.resets reset)) :
    Steady contention { scene.settle reset past (code.advance moment scene.store) with
      started := started } := by
  have nonneg := steady.allowance_nonneg reset
  have advanced := (advance_sound moment keeps).2
  generalize code.advance moment scene.store = turn at advanced
  rcases turn with ⟨store, pause⟩
  cases pause with
  | finished outcome => exact steady.move store started (by simp) nonneg
  | waiting request resume =>
      rcases advanced with ⟨sends, will⟩
      apply steady.move store started
      · rintro waiting isWaiting
        cases isWaiting
        refine ⟨fun _ => sends, fun reply later => will reply later trivial, by simp, ?_⟩
        rintro usage (⟨_, isAnswered⟩ | ⟨first, isPast⟩)
        · simp at isAnswered
        · exact ⟨(short first usage isPast).1, (short first usage isPast).2.1⟩
      · match past, sends, short with
        | [], _, _ => exact nonneg
        | [_], .inl isRead, _ =>
            simp only [allowance, show request.rpc = _ from isRead, refundOf]
            exact nonneg
        | [_], .inr ⟨first, usage, requestId, isPast, isRefund⟩, short =>
            rcases short first usage isPast with ⟨isNonneg, isShort, less⟩
            simp only [allowance, show request.rpc = _ from isRefund]
            rw [refundOf_eq isNonneg isShort]
            exact less
        | _ :: _ :: _, _, _ => exact nonneg

theorem tick {clock : ℤ} (later : scene.clock ≤ clock) (inRange : Enforcer.Representable clock) :
    Steady contention { scene with clock := clock } := by
  refine ⟨inRange, steady.resets, steady.charges, steady.counters, ?_, steady.owned,
    steady.amounts⟩
  intro instant isOpen
  exact steady.kept instant (by dsimp only at isOpen; omega)

theorem sample {waiting : Waiting Store Call Reply Moment Thrown Value}
    (isSent : scene.resets reset = some ⟨waiting, .sent⟩) :
    Steady contention { scene with
      resets := Function.update scene.resets reset (some ⟨waiting, .sampled scene.clock⟩) } := by
  have prepared := steady.resets reset _ isSent
  apply steady.move scene.store scene.started
  · rintro found isFound
    cases isFound
    refine ⟨prepared.sends, prepared.will, ?_, ?_⟩
    · rintro instant isInstant
      cases isInstant
      exact steady.inRange
    · rintro usage (⟨_, isAnswered⟩ | isPast)
      · simp at isAnswered
      · exact prepared.short usage (Or.inr isPast)
  · rw [isSent]
    match waiting with
    | ⟨[], _, _⟩ | ⟨[_], _, _⟩ | ⟨_ :: _ :: _, _, _⟩ => exact Int.le_refl _

/-- A call was served without an access of its reset to a counter. -/
theorem answer {waiting : Waiting Store Call Reply Moment Thrown Value} {instant : ℤ}
    (isSampled : scene.resets reset = some ⟨waiting, .sampled instant⟩)
    (isLater : waiting.past ≠ []) (reply : Reply) :
    Steady contention { scene with
      resets := Function.update scene.resets reset (some ⟨waiting, .answered reply⟩) } := by
  have prepared := steady.resets reset _ isSampled
  have nonneg := steady.allowance_nonneg reset
  apply steady.move scene.store scene.started
  · rintro found isFound
    cases isFound
    refine ⟨prepared.sends, prepared.will, by simp, ?_⟩
    rintro usage (⟨isFirst, _⟩ | isPast)
    · exact absurd isFirst isLater
    · exact prepared.short usage (Or.inr isPast)
  · rw [allowance_answered isLater]
    exact nonneg

/-- The first read of a reset. -/
theorem look {waiting : Waiting Store Call Reply Moment Thrown Value} {usage : RawUsage}
    {instant : ℤ} (isSampled : scene.resets reset = some ⟨waiting, .sampled instant⟩)
    (isFirst : waiting.past = [])
    (isCounter : usage.consumed = counter scene.keyspace (contention.slot instant)) :
    Steady contention { scene with
      resets := Function.update scene.resets reset (some ⟨waiting, .answered (.ok (.usage usage))⟩)
      trace := .look reset (contention.slot instant) usage.consumed :: scene.trace } := by
  have prepared := steady.resets reset _ isSampled
  refine ⟨steady.inRange, steady.resets_update ?_, steady.charges, steady.counters, ?_, ?_, ?_⟩
  · rintro found isFound
    cases isFound
    refine ⟨prepared.sends, prepared.will, by simp, ?_⟩
    rintro message (⟨_, isAnswered⟩ | ⟨first, isPast⟩)
    · cases isAnswered
      rw [readOf, isCounter]
      exact steady.counters _
    · simp [isFirst] at isPast
  · intro other isOpen
    have nonneg := (steady.counters (contention.slot other)).1
    simp only [found, lastLook, chargedSince, refundedSince]
    split
    · rename_i same
      rw [isCounter, same]
      omega
    · omega
  · intro other name consumed isLast
    simp only [lastLook, Option.some.injEq, Prod.mk.injEq] at isLast
    rcases isLast with ⟨rfl, _, rfl⟩
    rcases waiting with ⟨past, request, resume⟩
    dsimp only at isFirst
    subst isFirst
    simp [refundedSince, allowance, readOf]
  · intro other name amount mem
    simp only [List.mem_cons, reduceCtorEq, false_or] at mem
    exact steady.amounts other name amount mem

/-- The refund of a reset, of what it has found. -/
theorem refund {waiting : Waiting Store Call Reply Moment Thrown Value} {reply : Reply}
    {instant amount : ℤ} {entry : Entry} {exchange : Call × Reply}
    (isSampled : scene.resets reset = some ⟨waiting, .sampled instant⟩)
    (isPast : waiting.past = [exchange]) (isAmount : refundOf waiting.request.rpc = amount)
    (nonneg : 0 ≤ amount)
    (isEntry : entry.value =
      max (counter scene.keyspace (contention.slot instant) - amount) 0) :
    Steady contention { scene with
      keyspace := Function.update scene.keyspace (contention.slot instant) (some entry)
      resets := Function.update scene.resets reset (some ⟨waiting, .answered reply⟩)
      trace := .refund reset (contention.slot instant) amount :: scene.trace } := by
  have isLater : waiting.past ≠ [] := by simp [isPast]
  have moved := steady.answer isSampled isLater reply
  have spent : allowance (scene.resets reset) = amount := by
    rw [isSampled]
    rcases waiting with ⟨past, request, resume⟩
    dsimp only at isPast isAmount
    subst isPast
    exact isAmount
  have bounds := steady.counters (contention.slot instant)
  refine ⟨steady.inRange, moved.resets, steady.charges, ?_, ?_, ?_, ?_⟩
  · apply steady.counters_update <;> omega
  · intro other isOpen
    have kept := steady.kept other isOpen
    simp only [found, lastLook, chargedSince, refundedSince]
    simp only [found] at kept
    by_cases same : contention.slot instant = contention.slot other
    · rw [← same] at kept ⊢
      rw [counter_update_self, isEntry]
      simp only [decide_true, if_true]
      omega
    · rw [counter_update_of_ne _ (Ne.symm same)]
      simpa [same] using kept
  · intro other name consumed isLast
    have owned := steady.owned other name consumed isLast
    by_cases same : other = reset
    · subst same
      simp only [refundedSince, decide_true, if_true, Function.update_self,
        allowance_answered isLater]
      omega
    · simpa [refundedSince, same, Ne.symm same] using owned
  · intro other name found mem
    rcases List.mem_cons.mp mem with here | earlier
    · cases here
      exact nonneg
    · exact steady.amounts other name found earlier

theorem charge {client : ℕ} {sampledAt cost : ℤ} {entry : Entry} (positive : 0 < cost)
    (sumLt : cost + counter scene.keyspace (contention.slot sampledAt) < 2 ^ 53)
    (isEntry : entry.value = counter scene.keyspace (contention.slot sampledAt) + cost) :
    Steady contention { scene with
      keyspace := Function.update scene.keyspace (contention.slot sampledAt) (some entry)
      charges := Function.update scene.charges client none
      trace := .charge (contention.slot sampledAt) cost :: scene.trace } := by
  have bounds := steady.counters (contention.slot sampledAt)
  refine ⟨steady.inRange, steady.resets, steady.charges_update (by simp), ?_, ?_, steady.owned, ?_⟩
  · apply steady.counters_update <;> omega
  · intro other isOpen
    have kept := steady.kept other isOpen
    simp only [found, lastLook, chargedSince, refundedSince]
    simp only [found] at kept
    by_cases same : contention.slot sampledAt = contention.slot other
    · rw [← same] at kept ⊢
      rw [counter_update_self, isEntry, if_pos rfl]
      omega
    · rw [counter_update_of_ne _ (Ne.symm same), if_neg same, zero_add]
      exact kept
  · intro other name amount mem
    simp only [List.mem_cons, reduceCtorEq, false_or] at mem
    exact steady.amounts other name amount mem

/-- A counter that is dropped is not that of a window that is still open. -/
theorem forget {instant : ℤ} (isOver : contention.period.finish instant ≤ scene.clock) :
    Steady contention { scene with
      keyspace := drop scene.keyspace (contention.slot instant) } := by
  refine ⟨steady.inRange, steady.resets, steady.charges, ?_, ?_, steady.owned, steady.amounts⟩
  · intro name
    by_cases same : name = contention.slot instant
    · subst same
      simp [counter, drop]
    · rw [counter_drop_of_ne _ same]
      exact steady.counters name
  · intro other isOpen
    have apart : contention.slot other ≠ contention.slot instant := by
      intro same
      have sameEnd := contention.period.finish_congr (contention.slot_eq_iff.mp same)
      dsimp only at isOpen
      omega
    rw [counter_drop_of_ne _ apart]
    exact steady.kept other isOpen

theorem execute (limitLt : contention.cap.limitValue < 2 ^ 53) (redisMillis : ℤ)
    {waiting : Waiting Store Call Reply Moment Thrown Value} {instant : ℤ}
    (isSampled : scene.resets reset = some ⟨waiting, .sampled instant⟩) :
    Steady contention (scene.step describe contention (.execute reset redisMillis)) := by
  have prepared := steady.resets reset _ isSampled
  have inRange := prepared.inRange instant rfl
  have bounds := steady.counters (contention.slot instant)
  simp only [step, isSampled]
  rcases prepared.sends (.fresh []) with isRead | ⟨first, usage, requestId, isFirst, isRefund⟩
  · rw [show waiting.request.rpc = _ from isRead]
    rcases @enforce_getUsage describe contention instant redisMillis scene.keyspace inRange with
      ⟨usage, isServed, isCounter⟩
    rw [isServed]
    cases isPast : waiting.past with
    | nil => exact steady.look isSampled isPast isCounter
    | cons exchange others => exact steady.answer isSampled (by simp [isPast]) (.ok (.usage usage))
  · rcases prepared.short usage (Or.inr ⟨first, isFirst⟩) with ⟨nonneg, short⟩
    have isRpc : waiting.request.rpc = .refund contention.key (consumedOf usage) requestId :=
      isRefund
    have isAmount : (consumedOf usage).toInt64 = readOf usage :=
      @refundOf_eq contention.key usage requestId nonneg short
    rcases @enforce_refund describe contention instant redisMillis scene.keyspace inRange limitLt
      bounds.1 bounds.2 (consumedOf usage) requestId (by rw [isAmount]; exact nonneg)
      (by rw [isAmount]; exact short) with ⟨message, entry, isServed, isEntry⟩
    rw [isRpc, isServed, show waiting.past = _ from isFirst]
    exact steady.refund isSampled isFirst (by rw [isRpc]; rfl) (by rw [isAmount]; exact nonneg)
      isEntry

theorem executeCharge (limitLt : contention.cap.limitValue < 2 ^ 53) {client : ℕ}
    {redisMillis : ℤ} {charging : Charging} (isCharging : scene.charges client = some charging)
    (fits : max charging.cost 1 +
      counter scene.keyspace (contention.slot charging.sampledAt) < 2 ^ 53) :
    Steady contention (scene.step describe contention (.executeCharge client redisMillis)) := by
  have inRange := steady.charges client charging isCharging
  have bounds := steady.counters (contention.slot charging.sampledAt)
  simp only [step, isCharging]
  cases valid : Enforcer.normalizeCost charging.cost with
  | error error =>
      have refused : contention.charge charging.cost charging.sampledAt redisMillis charging.draw
          scene.keyspace = (.error error, scene.keyspace) := by
        simp only [Contention.charge, Enforcer.chargeOne, contention.keySet, valid]
      rw [refused]
      exact ⟨steady.inRange, steady.resets, steady.charges_update (by simp), steady.counters,
        steady.kept, steady.owned, steady.amounts⟩
  | ok cost =>
      have positive := Enforcer.normalizeCost_eq_ok valid
      have sumLt : cost + counter scene.keyspace (contention.slot charging.sampledAt) < 2 ^ 53 := by
        omega
      rcases @charge_eq contention charging.sampledAt redisMillis scene.keyspace inRange limitLt
        bounds.1 charging.cost cost charging.draw valid sumLt with
        ⟨response, entry, isCharged, isEntry⟩
      rw [isCharged]
      exact steady.charge positive.1 sumLt isEntry

theorem reply {waiting : Waiting Store Call Reply Moment Thrown Value} {answer : Reply}
    (moment : Moment) (failure : Option ServiceError)
    (isAnswered : scene.resets reset = some ⟨waiting, .answered answer⟩) :
    Steady contention (scene.step describe contention (.reply reset moment failure)) := by
  have prepared := steady.resets reset _ isAnswered
  simp only [step, isAnswered]
  apply steady.settle moment (scene.settle reset _ _).started (prepared.will _ _)
  intro first usage isPast
  rcases waiting with ⟨past, request, resume⟩
  cases past with
  | cons exchange others => simp at isPast
  | nil =>
      simp only [List.nil_append, List.cons.injEq, Prod.mk.injEq, and_true] at isPast
      cases failure with
      | some failure => simp at isPast
      | none =>
          have isReply : answer = .ok usage := isPast.2
          subst isReply
          rcases prepared.short usage (Or.inl ⟨rfl, rfl⟩) with ⟨nonneg, short⟩
          refine ⟨nonneg, short, ?_⟩
          rw [isAnswered]
          exact Int.le_refl _

theorem step (limitLt : contention.cap.limitValue < 2 ^ 53) {event : SceneEvent}
    (fits : Fits contention scene event) :
    Steady contention (scene.step describe contention event) := by
  cases event with
  | tick clock =>
      simp only [Scene.step]
      split
      · rename_i allowed
        exact steady.tick allowed.1 allowed.2
      · exact steady
  | begin context moment =>
      apply steady.settle moment (scene.started + 1)
        (resetWindow_resetting context contention.key scene.store)
      simp
  | sample reset =>
      simp only [Scene.step]
      split
      · rename_i isSent
        exact steady.sample isSent
      · exact steady
  | execute reset redisMillis =>
      cases isReset : scene.resets reset with
      | none => simpa only [Scene.step, isReset] using steady
      | some found =>
          rcases found with ⟨waiting, flight⟩
          cases flight with
          | sampled instant => exact steady.execute limitLt redisMillis isReset
          | sent | answered _ => simpa only [Scene.step, isReset] using steady
  | reply reset moment failure =>
      cases isReset : scene.resets reset with
      | none => simpa only [Scene.step, isReset] using steady
      | some found =>
          rcases found with ⟨waiting, flight⟩
          cases flight with
          | answered answer => exact steady.reply moment failure isReset
          | sent | sampled _ => simpa only [Scene.step, isReset] using steady
  | sampleCharge client cost draw =>
      refine ⟨steady.inRange, steady.resets, steady.charges_update ?_, steady.counters,
        steady.kept, steady.owned, steady.amounts⟩
      rintro charging isCharging
      cases isCharging
      exact steady.inRange
  | executeCharge client redisMillis =>
      cases isCharging : scene.charges client with
      | none => simpa only [Scene.step, isCharging] using steady
      | some charging => exact steady.executeCharge limitLt isCharging (fits charging isCharging)
  | forget instant =>
      simp only [Scene.step]
      split
      · rename_i isOver
        exact steady.forget isOver
      · exact steady

end Step

end Steady

theorem refundedSince_le_add {either first second : ℕ → String → Bool} {trace : List Access}
    (amounts : ∀ reset name amount, .refund reset name amount ∈ trace → 0 ≤ amount)
    (covers : ∀ reset name, either reset name = true →
      first reset name = true ∨ second reset name = true) :
    refundedSince either trace ≤ refundedSince first trace + refundedSince second trace := by
  induction trace with
  | nil => exact Int.le_refl 0
  | cons access earlier ih =>
      have rest := ih fun reset name amount mem =>
        amounts reset name amount (List.mem_cons_of_mem _ mem)
      cases access with
      | look _ _ _ => exact Int.le_refl 0
      | charge _ _ => exact rest
      | refund reset name amount =>
          have nonneg := amounts reset name amount List.mem_cons_self
          simp only [refundedSince]
          by_cases counted : either reset name = true
          · rcases covers reset name counted with inFirst | inSecond
            · rw [if_pos counted, if_pos inFirst]
              split <;> omega
            · rw [if_pos counted, if_pos inSecond]
              split <;> omega
          · rw [if_neg counted]
            split <;> split <;> omega

theorem owner_eq_some_iff {name : String} {reset : ℕ} {trace : List Access} :
    owner name trace = some reset ↔ ∃ consumed, lastLook trace = some (reset, name, consumed) := by
  simp only [owner, Option.bind_eq_some_iff, Option.ite_none_right_eq_some, Option.some.injEq]
  constructor
  · rintro ⟨⟨looker, place, consumed⟩, isLast, rfl, rfl⟩
    exact ⟨consumed, isLast⟩
  · rintro ⟨consumed, isLast⟩
    exact ⟨_, isLast, rfl, rfl⟩

/-- What is refunded to a counter comes from its owner or has strayed. -/
theorem Steady.refunded_le_of_owner (steady : Steady contention scene) {name : String} {reset : ℕ}
    (isOwner : owner name scene.trace = some reset) :
    refundedSince (fun _ other => other = name) scene.trace ≤
      strayed name scene.trace + refundedSince (fun other _ => other = reset) scene.trace := by
  apply refundedSince_le_add steady.amounts
  intro other place isHere
  by_cases same : other = reset
  · exact Or.inr (by simp [same])
  · left
    have different : ¬reset = other := fun equal => same equal.symm
    simp [isOwner, different, of_decide_eq_true isHere]

/-- A window loses no charge since the last look but by refunds of others than its owner. -/
theorem Steady.keeps_but_strayed (steady : Steady contention scene) :
    chargedSince (contention.slot scene.clock) scene.trace -
        strayed (contention.slot scene.clock) scene.trace ≤ scene.consumed contention := by
  have kept := steady.kept scene.clock (contention.period.lt_finish scene.clock)
  have nonneg := steady.counters (contention.slot scene.clock)
  rw [consumed]
  generalize contention.slot scene.clock = name at kept nonneg ⊢
  cases isOwner : owner name scene.trace with
  | none =>
      have same : strayed name scene.trace =
          refundedSince (fun _ other => other = name) scene.trace := by
        have isStray : ∀ reset, ((none : Option ℕ) != some reset) = true := fun _ => rfl
        simp [strayed, isOwner, isStray]
      have unread : found name scene.trace = 0 := by
        rw [found]
        split
        · rename_i isLast
          rw [if_neg]
          simpa [owner, isLast] using isOwner
        · rfl
      omega
  | some reset =>
      have covered := steady.refunded_le_of_owner isOwner
      rcases owner_eq_some_iff.mp isOwner with ⟨value, isLast⟩
      have owned := steady.owned reset name value isLast
      have allowed := steady.allowance_nonneg reset
      have isFound : found name scene.trace = value := by
        simp [found, isLast]
      omega

theorem trace_settle (reset : ℕ) (past : List (Call × Reply))
    (turn : Store × Pause Store Call Reply Moment Thrown Value) :
    (scene.settle reset past turn).trace = scene.trace := by
  rcases turn with ⟨store, pause⟩
  cases pause <;> rfl

/-- What a step can add to the trace. -/
theorem trace_step (event : SceneEvent) :
    (scene.step describe contention event).trace = scene.trace ∨
    (∃ reset name consumed,
      (scene.step describe contention event).trace = .look reset name consumed :: scene.trace) ∨
    (∃ name cost, (scene.step describe contention event).trace = .charge name cost :: scene.trace) ∨
    ∃ reset redisMillis waiting instant amount, event = .execute reset redisMillis ∧
      scene.resets reset = some ⟨waiting, .sampled instant⟩ ∧
      waiting.request.rpc.isMutation = true ∧
      (scene.step describe contention event).trace =
        .refund reset (contention.slot instant) amount :: scene.trace := by
  cases event with
  | tick clock =>
      simp only [step]
      split <;> exact Or.inl rfl
  | begin context moment => exact Or.inl (trace_settle _ _ _)
  | sample reset =>
      simp only [step]
      split <;> exact Or.inl rfl
  | execute reset redisMillis =>
      simp only [step]
      split
      · rename_i waiting instant isSampled
        generalize enforce describe contention instant redisMillis waiting.request.rpc
          scene.keyspace = served
        simp only [accessOf]
        split
        · exact Or.inr (Or.inl ⟨_, _, _, rfl⟩)
        · rename_i isRefund _
          refine Or.inr (Or.inr (Or.inr ⟨reset, redisMillis, waiting, instant, _, rfl, isSampled,
            ?_, rfl⟩))
          rw [isRefund]
          rfl
        · exact Or.inl rfl
      · exact Or.inl rfl
  | reply reset moment failure =>
      simp only [step]
      split
      · exact Or.inl (trace_settle _ _ _)
      · exact Or.inl rfl
  | sampleCharge client cost draw => exact Or.inl rfl
  | executeCharge client redisMillis =>
      simp only [step]
      split
      · split
        · exact Or.inr (Or.inr (Or.inl ⟨_, _, rfl⟩))
        · exact Or.inl rfl
      · exact Or.inl rfl
  | forget instant =>
      simp only [step]
      split <;> exact Or.inl rfl

/-- An undisturbed refund goes back to where it was read. -/
theorem strayed_step {event : SceneEvent} (undisturbed : scene.Undisturbed contention event)
    (none : ∀ name, strayed name scene.trace = 0) (name : String) :
    strayed name (scene.step describe contention event).trace = 0 := by
  rcases @trace_step describe contention scene event with
    same | ⟨_, _, _, looked⟩ | ⟨_, _, charged⟩ |
      ⟨reset, redisMillis, waiting, instant, amount, rfl, isSampled, isMutation, refunded⟩
  · rw [same]
    exact none name
  · rw [looked]
    rfl
  · rw [charged]
    exact none name
  · rw [Undisturbed, isSampled] at undisturbed
    have isOwner := undisturbed isMutation
    have earlier : strayed name (.refund reset (contention.slot instant) amount :: scene.trace) =
        (if (contention.slot instant = name && owner name scene.trace != some reset) = true then
          amount else 0) + strayed name scene.trace := rfl
    rw [refunded, earlier, none name, if_neg]
    · rfl
    · simp only [Bool.and_eq_true, decide_eq_true_eq, not_and]
      rintro rfl
      simp [isOwner]

section Runs

variable (describe) (contention) (limitLt : contention.cap.limitValue < 2 ^ 53) {clock : ℤ}
  (inRange : Enforcer.Representable clock) (store : Store)

include limitLt inRange

theorem steady_run {events : List SceneEvent}
    (fits : ∀ turn event, events[turn]? = some event →
      Fits contention (run describe contention clock store (events.take turn)) event) :
    Steady contention (run describe contention clock store events) := by
  apply conditional_invariant (Fits contention) (fun _ => Steady contention)
    (Steady.initial inRange store) _ fits
  intro before event steady fits
  exact steady.step limitLt fits

omit limitLt inRange in
theorem strayed_run {events : List SceneEvent}
    (undisturbed : ∀ turn event, events[turn]? = some event →
      Undisturbed contention (run describe contention clock store (events.take turn)) event)
    (name : String) : strayed name (run describe contention clock store events).trace = 0 := by
  revert name
  apply conditional_invariant (Undisturbed contention)
    (fun _ scene => ∀ name, strayed name scene.trace = 0) (fun _ => rfl) _ undisturbed
  intro before event none undisturbed
  exact strayed_step undisturbed none

/-- In every state the counter of the current window has what was charged to it since the last
first read of a reset, less what was refunded to it since then by other resets, or by this one if
it had read another window. Where every refund comes from the reset that was the last to look, for
the window that it read, nothing is lost. -/
theorem resets_keep_later_usage (events : List SceneEvent)
    (fits : ∀ turn event, events[turn]? = some event →
      Fits contention (run describe contention clock store (events.take turn)) event) :
    chargedSince (contention.slot (run describe contention clock store events).clock)
          (run describe contention clock store events).trace -
        strayed (contention.slot (run describe contention clock store events).clock)
          (run describe contention clock store events).trace ≤
      (run describe contention clock store events).consumed contention ∧
    ((∀ turn event, events[turn]? = some event →
        Undisturbed contention (run describe contention clock store (events.take turn)) event) →
      KeepsLater contention (run describe contention clock store events)) := by
  have keeps := (steady_run describe contention limitLt inRange store fits).keeps_but_strayed
  refine ⟨keeps, ?_⟩
  intro undisturbed
  rw [strayed_run describe contention store undisturbed] at keeps
  rw [KeepsLater]
  omega

end Runs

section Sample

def sampleContext : OpContext := ⟨"alice@corp", none, none⟩

def sampleTurn : Moment := ⟨1700000000000, fun _ => "request-1"⟩

/-- Ten calls are charged and a reset reads them. -/
def sampleRead : List SceneEvent :=
  [.sampleCharge 0 10 0, .executeCharge 0 0, .begin sampleContext sampleTurn, .sample 0,
    .execute 0 0]

/-- Five calls are charged before the refund. -/
def sampleAlone : List SceneEvent :=
  sampleRead ++ [.sampleCharge 0 5 0, .executeCharge 0 0, .reply 0 sampleTurn none, .sample 0,
    .execute 0 0]

/-- Two resets read the same ten calls; five calls are charged between their refunds. -/
def sampleConcurrent : List SceneEvent :=
  sampleRead ++ [.begin sampleContext sampleTurn, .sample 1, .execute 1 0,
    .reply 0 sampleTurn none, .reply 1 sampleTurn none, .sample 0, .execute 0 0,
    .sampleCharge 0 5 0, .executeCharge 0 0, .sample 1, .execute 1 0]

/-- The window ends between the read and the refund. -/
def sampleRollover : List SceneEvent :=
  sampleRead ++ [.reply 0 sampleTurn none, .tick 60000000000, .sampleCharge 0 5 0,
    .executeCharge 0 0, .sample 0, .execute 0 0]

def sampleScene (events : List SceneEvent) : Scene :=
  run (fun _ => "refused") Enforcer.Contention.pair 0 (.fresh []) events

/-- All numbers of a run are small. -/
def SampleFits (events : List SceneEvent) : Prop :=
  ∀ turn < events.length, ∀ event ∈ events[turn]?,
    Fits Enforcer.Contention.pair (sampleScene (events.take turn)) event

instance (events : List SceneEvent) : Decidable (SampleFits events) :=
  inferInstanceAs (Decidable (∀ turn < events.length, _))

theorem resets_keep_later_usage_sample :
    KeepsLater Enforcer.Contention.pair (sampleScene sampleAlone) ∧
      (sampleScene sampleAlone).consumed Enforcer.Contention.pair = 5 := by
  have fits : SampleFits sampleAlone := by decide +kernel
  have undisturbed : ∀ turn < sampleAlone.length, ∀ event ∈ sampleAlone[turn]?,
      Undisturbed Enforcer.Contention.pair (sampleScene (sampleAlone.take turn)) event := by
    decide +kernel
  constructor
  · apply (resets_keep_later_usage (fun _ => "refused") Enforcer.Contention.pair (by decide)
      (by decide +kernel) (.fresh []) sampleAlone _).2
    · intro turn event isEvent
      exact undisturbed turn (List.getElem?_eq_some_iff.mp isEvent).1 event isEvent
    · intro turn event isEvent
      exact fits turn (List.getElem?_eq_some_iff.mp isEvent).1 event isEvent
  · decide +kernel

/-- The five calls are lost when two resets overlap and when the window ends between the two calls
of one reset. -/
theorem resets_lose_usage :
    (SampleFits sampleConcurrent ∧
        ¬KeepsLater Enforcer.Contention.pair (sampleScene sampleConcurrent)) ∧
      SampleFits sampleRollover ∧
        ¬KeepsLater Enforcer.Contention.pair (sampleScene sampleRollover) := by
  decide +kernel

end Sample

end Scene

end RateLimiter.Console
