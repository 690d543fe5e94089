import RateLimiter.Enforcer.Execution

/-!
# The grace absorbs clocks that disagree

A counter lives `ttl_grace_secs` longer than its window by the clock of the
enforcer that created it, but it is Redis that reclaims it, by its own clock
and after the network. The lag of a request is what the clock of Redis shows
when the script runs, less the instant for which the window was computed. The
lags may be anything, negative ones included, as long as no two of them are
more than four seconds apart: the fifth second is lost to the whole seconds of
the time to live.
-/

namespace RateLimiter.Enforcer

open CivilTime Redis

/-- In nanoseconds. -/
def Delivery.lag (delivery : Delivery) : ℤ :=
  delivery.redisMillis * 1000000 - delivery.call.now

inductive DeliveryEvent where
  | deliver (delivery : Delivery)
  | drop (key : String) (redisMillis : ℤ)

namespace DeliveryEvent

def calls : List DeliveryEvent → List Call
  | [] => []
  | .deliver delivery :: rest => delivery.call :: calls rest
  | .drop _ _ :: rest => calls rest

def replies (keyspace : Keyspace) : List DeliveryEvent → List Reply
  | [] => []
  | .deliver delivery :: rest =>
      (delivery.execute keyspace).1 :: replies (delivery.execute keyspace).2 rest
  | .drop key _ :: rest => replies (Redis.drop keyspace key) rest

def keyspaceAfter (keyspace : Keyspace) : List DeliveryEvent → Keyspace
  | [] => keyspace
  | .deliver delivery :: rest => keyspaceAfter (delivery.execute keyspace).2 rest
  | .drop key _ :: rest => keyspaceAfter (Redis.drop keyspace key) rest

end DeliveryEvent

/-- How far the lags of two requests may be apart. -/
def toleratedSkew : ℤ := 4000000000

/-- The clock of Redis does not go back, it drops no key before its deadline, and the lags differ
by no more than what is tolerated. The instants of the enforcers are in any order. -/
inductive Skewed (least : ℤ) : ℤ → Keyspace → List DeliveryEvent → Prop where
  | nil {clock : ℤ} {keyspace : Keyspace} : Skewed least clock keyspace []
  | deliver {clock : ℤ} {keyspace : Keyspace} {delivery : Delivery} {rest : List DeliveryEvent}
      (later : clock ≤ delivery.redisMillis) (notLess : least ≤ delivery.lag)
      (notMore : delivery.lag ≤ least + toleratedSkew)
      (inRange : FourDigitYear delivery.call.now) (admitted : delivery.call.Admitted)
      (next : Skewed least delivery.redisMillis (delivery.execute keyspace).2 rest) :
      Skewed least clock keyspace (.deliver delivery :: rest)
  | drop {clock : ℤ} {keyspace : Keyspace} {key : String} {redisMillis : ℤ}
      {rest : List DeliveryEvent} (later : clock ≤ redisMillis)
      (due : Due keyspace redisMillis key)
      (next : Skewed least redisMillis (Redis.drop keyspace key) rest) :
      Skewed least clock keyspace (.drop key redisMillis :: rest)

/-- By any clock whose lag is tolerated, a counter expires after the end of its window. -/
def OutlivesWindows (least : ℤ) (keyspace : Keyspace) : Prop :=
  ∀ key unit period instant due lag, Grammatical key → period? unit = some period →
    FourDigitYear instant →
    deadline keyspace (counterKey key (windowId instant unit)) = some due →
    least ≤ lag → lag ≤ least + toleratedSkew → period.finish instant ≤ due * 1000000 - lag

/-- The keyspace holds the counters of all windows that a request can still reach. -/
structure Reachable (least clock : ℤ) (keyspace : Keyspace) (counters : FixedWindow.Counters) :
    Prop where
  counter_eq : ∀ key unit period instant, Grammatical key → period? unit = some period →
    clock * 1000000 ≤ instant + (least + toleratedSkew) → FourDigitYear instant →
    counter keyspace (counterKey key (windowId instant unit)) =
      counters ⟨key, period, period.index instant⟩
  outlives : ∀ key unit period instant, Grammatical key → period? unit = some period →
    FourDigitYear instant →
    ∀ due, deadline keyspace (counterKey key (windowId instant unit)) = some due →
      period.finish instant + (least + toleratedSkew) ≤ due * 1000000
  nonneg : ∀ id, 0 ≤ counters id

/-- A new counter outlives its window by the clock of Redis. -/
theorem finish_add_le_newTtl {least : ℤ} {delivery : Delivery} (period : Period) (unit : TimeUnit)
    (notLess : least ≤ delivery.lag) :
    period.finish delivery.call.now + (least + toleratedSkew) ≤
      (delivery.redisMillis + newTtl period unit delivery.moment * 1000) * 1000000 := by
  have lower := @le_jitteredTtl
    ((period.finish delivery.call.now - delivery.call.now) / 1000000000) defaultGraceSecs
    (jitterCapSecs unit) delivery.moment.draw
  simp only [newTtl, Delivery.moment_now, defaultGraceSecs, Delivery.lag, toleratedSkew]
    at lower notLess ⊢
  omega

namespace Reachable

variable {least clock later : ℤ} {keyspace : Keyspace} {counters : FixedWindow.Counters}

theorem empty (least clock : ℤ) : Reachable least clock (fun _ => none) (fun _ => 0) where
  counter_eq _ _ _ _ _ _ _ _ := rfl
  outlives _ _ _ _ _ _ _ due noDeadline := by simp [deadline] at noDeadline
  nonneg _ := Int.le_refl 0

theorem outlivesWindows (reachable : Reachable least clock keyspace counters) :
    OutlivesWindows least keyspace := by
  intro key unit period instant due lag names units inRange isDue _ notMore
  have := reachable.outlives key unit period instant names units inRange due isDue
  omega

theorem mono (reachable : Reachable least clock keyspace counters) (after : clock ≤ later) :
    Reachable least later keyspace counters where
  counter_eq key unit period instant names units isOpen :=
    reachable.counter_eq key unit period instant names units (by omega)
  outlives := reachable.outlives
  nonneg := reachable.nonneg

/-- A dropped key belonged to a window that no request can reach any more. -/
theorem drop {key : String} (reachable : Reachable least clock keyspace counters)
    (after : clock ≤ later) (due : Due keyspace later key) :
    Reachable least later (Redis.drop keyspace key) counters := by
  rcases due with ⟨millis, isDeadline, reached⟩
  refine ⟨?_, ?_, reachable.nonneg⟩
  · intro limitKey unit period instant names units isOpen inRange
    have different : counterKey limitKey (windowId instant unit) ≠ key := by
      rintro rfl
      have outlived := reachable.outlives limitKey unit period instant names units inRange millis
        isDeadline
      have running := period.lt_finish instant
      omega
    rw [counter_drop_of_ne _ different]
    exact reachable.counter_eq _ _ _ _ names units (by omega) inRange
  · intro limitKey unit period instant names units inRange
    by_cases same : counterKey limitKey (windowId instant unit) = key
    · intro due isDue
      simp [same, deadline, Redis.drop] at isDue
    · rw [deadline_drop_of_ne _ same]
      exact reachable.outlives _ _ _ _ names units inRange

theorem update {key : LimitKey} {unit : TimeUnit} {period : Period} {now : ℤ} {entry : Entry}
    (reachable : Reachable least clock keyspace counters) (names : Grammatical key)
    (units : period? unit = some period) (inRange : FourDigitYear now)
    (valueNonneg : 0 ≤ entry.value)
    (lasting : ∀ due, entry.deadline = some due →
      period.finish now + (least + toleratedSkew) ≤ due * 1000000) :
    Reachable least clock
      (Function.update keyspace (counterKey key (windowId now unit)) (some entry))
      (Function.update counters ⟨key, period, period.index now⟩ entry.value) := by
  refine ⟨?_, ?_, ?_⟩
  · intro other otherUnit otherPeriod instant otherNames otherUnits isOpen otherRange
    have sameIff := counterKey_eq_iff otherNames names otherRange inRange otherUnits units
    by_cases same : counterKey other (windowId instant otherUnit) =
        counterKey key (windowId now unit)
    · rw [same, counter_update_self, sameIff.mp same, Function.update_self]
    · rw [counter_update_of_ne _ same, Function.update_of_ne (mt sameIff.mpr same)]
      exact reachable.counter_eq _ _ _ _ otherNames otherUnits isOpen otherRange
  · intro other otherUnit otherPeriod instant otherNames otherUnits otherRange due
    by_cases same : counterKey other (windowId instant otherUnit) =
        counterKey key (windowId now unit)
    · have sameId :=
        (counterKey_eq_iff otherNames names otherRange inRange otherUnits units).mp same
      simp only [FixedWindow.CounterId.mk.injEq] at sameId
      rcases sameId with ⟨rfl, rfl, sameIndex⟩
      rw [same, deadline_update_self, otherPeriod.finish_congr sameIndex]
      exact lasting due
    · rw [deadline_update_of_ne _ same]
      exact reachable.outlives _ _ _ _ otherNames otherUnits otherRange due
  · intro id
    by_cases same : id = ⟨key, period, period.index now⟩
    · rw [same, Function.update_self]
      exact valueNonneg
    · rw [Function.update_of_ne same]
      exact reachable.nonneg id

end Reachable

/-- One request: the answers are equal and the states stay related. -/
theorem execute_refines {least : ℤ} {delivery : Delivery} {keyspace : Keyspace}
    {counters : FixedWindow.Counters}
    (reachable : Reachable least delivery.redisMillis keyspace counters)
    (notLess : least ≤ delivery.lag) (notMore : delivery.lag ≤ least + toleratedSkew)
    (inRange : FourDigitYear delivery.call.now) (admitted : delivery.call.Admitted)
    (exactNumbers : delivery.call.Exact) (countersLt : ∀ id, counters id < 2 ^ 53)
    (nextLt : ∀ id, (FixedWindow.perform delivery.call counters).2 id < 2 ^ 53) :
    (delivery.execute keyspace).1 = (FixedWindow.perform delivery.call counters).1 ∧
      Reachable least delivery.redisMillis (delivery.execute keyspace).2
        (FixedWindow.perform delivery.call counters).2 := by
  cases addressed : FixedWindow.counterId? delivery.call with
  | none =>
      simp only [Delivery.execute_of_unaddressed admitted addressed, FixedWindow.perform, addressed,
        true_and]
      exact reachable
  | some id =>
      rcases exists_addresses addressed with ⟨key, cap, period, addresses, rfl⟩
      have names := (admitted.configured addresses.resolved).1
      have isOpen : delivery.redisMillis * 1000000 ≤
          delivery.call.now + (least + toleratedSkew) := by
        simp only [Delivery.lag] at notMore
        omega
      have held := reachable.counter_eq key _ period delivery.call.now names addresses.units isOpen
        inRange
      have nextHere := nextLt ⟨key, period, period.index delivery.call.now⟩
      simp only [FixedWindow.perform, addressed, Function.update_self] at nextHere
      rw [← held] at nextHere
      rcases executed inRange admitted exactNumbers addresses
        (by rw [held]; exact reachable.nonneg _) (by rw [held]; exact countersLt _) nextHere
        with ⟨replyEq, ⟨unchanged, same⟩ | ⟨entry, written, value, nonneg, dueCases⟩⟩
      · rw [held] at replyEq same
        simp only [FixedWindow.perform, addressed, replyEq, unchanged, same,
          Function.update_eq_self, true_and]
        exact reachable
      · rw [held] at replyEq value
        simp only [FixedWindow.perform, addressed, replyEq, written, ← value, true_and]
        apply reachable.update names addresses.units inRange nonneg
        intro due isDue
        rcases dueCases with kept | set
        · exact reachable.outlives key _ period delivery.call.now names addresses.units inRange due
            (kept.symm.trans isDue)
        · rw [set, Option.some.injEq] at isDue
          subst due
          exact finish_add_le_newTtl period cap.timeUnit notLess

/-- The answers of a run are equal, and the states stay related all along. -/
theorem skewed_run {least : ℤ} {events : List DeliveryEvent} : ∀ {clock : ℤ}
    {keyspace : Keyspace} {counters : FixedWindow.Counters}, Skewed least clock keyspace events →
    Reachable least clock keyspace counters → ExactRun counters (DeliveryEvent.calls events) →
    DeliveryEvent.replies keyspace events =
        FixedWindow.replies counters (DeliveryEvent.calls events) ∧
      ∀ turn, ∃ now counted,
        Reachable least now (DeliveryEvent.keyspaceAfter keyspace (events.take turn)) counted := by
  induction events with
  | nil =>
      intro clock keyspace counters _ reachable _
      refine ⟨rfl, ?_⟩
      intro turn
      rw [List.take_nil]
      exact ⟨clock, counters, reachable⟩
  | cons event rest ih =>
      intro clock keyspace counters skewed reachable bounded
      cases skewed with
      | deliver later notLess notMore inRange admitted next =>
          rename_i delivery
          have exactNumbers := bounded.1 delivery.call (List.mem_cons_self ..)
          have countersLt := bounded.2 [] List.nil_prefix
          have nextLt := bounded.tail.2 [] List.nil_prefix
          rcases execute_refines (reachable.mono later) notLess notMore inRange admitted
            exactNumbers countersLt nextLt with ⟨replyEq, represented⟩
          rcases ih next represented bounded.tail with ⟨repliesEq, reached⟩
          refine ⟨?_, ?_⟩
          · simp only [DeliveryEvent.replies, DeliveryEvent.calls, FixedWindow.replies, replyEq,
              repliesEq]
          · intro turn
            cases turn with
            | zero => exact ⟨clock, counters, reachable⟩
            | succ turn => exact reached turn
      | drop later due next =>
          rcases ih next (reachable.drop later due) bounded with ⟨repliesEq, reached⟩
          refine ⟨repliesEq, ?_⟩
          intro turn
          cases turn with
          | zero => exact ⟨clock, counters, reachable⟩
          | succ turn => exact reached turn

/-- However far the clocks of the enforcers and of Redis are apart, and however late a script runs,
each request counts exactly in the window of its own enforcer's clock, as long as no two lags
differ by more than four seconds; and by none of these clocks is a counter ever due to expire
before its window has ended. -/
theorem grace_absorbs_skew {least clock : ℤ} {events : List DeliveryEvent}
    (skewed : Skewed least clock (fun _ => none) events)
    (bounded : ExactRun (fun _ => 0) (DeliveryEvent.calls events)) :
    DeliveryEvent.replies (fun _ => none) events =
        FixedWindow.replies (fun _ => 0) (DeliveryEvent.calls events) ∧
      ∀ before, before <+: events →
        OutlivesWindows least (DeliveryEvent.keyspaceAfter (fun _ => none) before) := by
  rcases skewed_run skewed (Reachable.empty least clock) bounded with ⟨repliesEq, reached⟩
  refine ⟨repliesEq, ?_⟩
  intro before isPrefix
  rcases reached before.length with ⟨_, _, reachable⟩
  rw [← List.prefix_iff_eq_take.mp isPrefix] at reachable
  exact reachable.outlivesWindows

section Witness

def sampleDelivery (now redisMillis : ℤ) (rpc : Rpc) : DeliveryEvent :=
  .deliver ⟨⟨now, 0, sampleResolve, rpc⟩, redisMillis⟩

/-- Three requests reach the counter of the first minute after that minute has ended for Redis; the
second one comes from an enforcer whose clock is behind the others. -/
def sampleDeliveries : List DeliveryEvent :=
  [sampleDelivery 59000000000 61000 (.charge ⟨some ⟨"search", "acme|eu", "query"⟩, 4⟩),
    sampleDelivery 56000000000 62000 (.charge ⟨some ⟨"search", "acme|eu", "query"⟩, 3⟩),
    sampleDelivery 59500000000 63000 (.refund ⟨some ⟨"search", "acme|eu", "query"⟩, 2⟩),
    .drop (counterKey ⟨"search", "acme|eu", "query"⟩ "197001010000") 67000,
    sampleDelivery 63000000000 67000 (.getUsage ⟨some ⟨"search", "acme|eu", "query"⟩⟩)]

theorem sampleDeliveries_skewed : Skewed 2000000000 0 (fun _ => none) sampleDeliveries := by
  refine .deliver (by decide) (by decide) (by decide) (by decide) (sampleResolve_admitted rfl) ?_
  refine .deliver (by decide) (by decide) (by decide) (by decide) (sampleResolve_admitted rfl) ?_
  refine .deliver (by decide) (by decide) (by decide) (by decide) (sampleResolve_admitted rfl) ?_
  refine .drop (by decide) ⟨67000, by decide +kernel, by decide⟩ ?_
  exact .deliver (by decide) (by decide) (by decide) (by decide) (sampleResolve_admitted rfl) .nil

theorem sampleDeliveries_exact :
    ExactRun (fun _ => 0) (DeliveryEvent.calls sampleDeliveries) := by
  refine exactRun_of_costs ?_ (by decide)
  intro call mem
  simp only [sampleDeliveries, sampleDelivery, DeliveryEvent.calls, List.mem_cons,
    List.not_mem_nil, or_false] at mem
  rcases mem with rfl | rfl | rfl | rfl
  · exact ⟨fun _ _ => sampleResolve_limit, (by decide : (4 : ℤ) < 2 ^ 53)⟩
  · exact ⟨fun _ _ => sampleResolve_limit, (by decide : (3 : ℤ) < 2 ^ 53)⟩
  · exact ⟨fun _ _ => sampleResolve_limit, (by decide : (2 : ℤ) < 2 ^ 53)⟩
  · exact ⟨fun _ _ => sampleResolve_limit, trivial⟩

theorem grace_absorbs_skew_sample :
    DeliveryEvent.replies (fun _ => none) sampleDeliveries =
        [.charge (.ok ⟨6, 10, some 60000000000⟩), .charge (.ok ⟨3, 10, some 60000000000⟩),
          .refund (.ok ⟨5, 10, some 60000000000⟩),
          .getUsage (.ok ⟨0, 10, 10, some 120000000000, true⟩)] ∧
      deadline (DeliveryEvent.keyspaceAfter (fun _ => none) (sampleDeliveries.take 3))
          (counterKey ⟨"search", "acme|eu", "query"⟩ (windowId 59000000000 .minute)) =
        some 67000 ∧
      Period.minute.finish 59000000000 ≤ 67000 * 1000000 - 6000000000 := by
  have isDue : deadline (DeliveryEvent.keyspaceAfter (fun _ => none) (sampleDeliveries.take 3))
      (counterKey ⟨"search", "acme|eu", "query"⟩ (windowId 59000000000 .minute)) =
        some 67000 := by
    decide +kernel
  rcases grace_absorbs_skew sampleDeliveries_skewed sampleDeliveries_exact with
    ⟨repliesEq, outlives⟩
  refine ⟨?_, isDue, ?_⟩
  · rw [repliesEq]
    decide +kernel
  · exact outlives _ (List.take_prefix 3 _) _ _ Period.minute _ _ _ ⟨by decide, by decide⟩ rfl
      (by decide) isDue (by decide) (by decide)

end Witness

end RateLimiter.Enforcer
