import RateLimiter.Enforcer.Expiry
import RateLimiter.Enforcer.Execution

/-!
# Lost counters never block

Redis may lose what it counts: a failover promotes a replica that has missed
the last charges, keys are evicted or expire early, a shard comes back empty.
None of this makes the enforcer stricter than the specification. The enforcers
read any clocks here, and Redis may lose data between any two scripts.
-/

namespace RateLimiter.Enforcer

open CivilTime Redis Machine

/-- No counter is greater than it was, and none is negative. -/
def Lost (before after : Keyspace) : Prop :=
  ∀ key, 0 ≤ counter after key ∧ counter after key ≤ counter before key

inductive LossyEvent where
  | deliver (delivery : Delivery)
  /-- From here on Redis holds no more than what is left. -/
  | lose (left : Keyspace)

namespace LossyEvent

def calls : List LossyEvent → List Call
  | [] => []
  | .deliver delivery :: rest => delivery.call :: calls rest
  | .lose _ :: rest => calls rest

def replies (keyspace : Keyspace) : List LossyEvent → List Reply
  | [] => []
  | .deliver delivery :: rest =>
      (delivery.execute keyspace).1 :: replies (delivery.execute keyspace).2 rest
  | .lose left :: rest => replies left rest

end LossyEvent

inductive Lossy : Keyspace → List LossyEvent → Prop where
  | nil {keyspace : Keyspace} : Lossy keyspace []
  | deliver {keyspace : Keyspace} {delivery : Delivery} {rest : List LossyEvent}
      (inRange : FourDigitYear delivery.call.now) (admitted : delivery.call.Admitted)
      (next : Lossy (delivery.execute keyspace).2 rest) :
      Lossy keyspace (.deliver delivery :: rest)
  | lose {keyspace left : Keyspace} {rest : List LossyEvent} (lost : Lost keyspace left)
      (next : Lossy left rest) : Lossy keyspace (.lose left :: rest)

/-- The first reply grants whatever the second one does. -/
inductive AtLeastAsLenient : Reply → Reply → Prop where
  | same (reply : Reply) : AtLeastAsLenient reply reply
  | charge {remaining required limit : ℤ} {resetAt : Option ℤ} (more : required ≤ remaining) :
      AtLeastAsLenient (.charge (.ok ⟨remaining, limit, resetAt⟩))
        (.charge (.ok ⟨required, limit, resetAt⟩))
  | refund {remaining required limit : ℤ} {resetAt : Option ℤ} (more : required ≤ remaining) :
      AtLeastAsLenient (.refund (.ok ⟨remaining, limit, resetAt⟩))
        (.refund (.ok ⟨required, limit, resetAt⟩))
  | checkQuota {allowed entitled : Bool} {remaining required limit : ℤ} {resetAt : Option ℤ}
      (allows : entitled = true → allowed = true) (more : required ≤ remaining) :
      AtLeastAsLenient (.checkQuota (.ok ⟨allowed, remaining, limit, resetAt⟩))
        (.checkQuota (.ok ⟨entitled, required, limit, resetAt⟩))
  | getUsage {consumed counted remaining required limit : ℤ} {resetAt : Option ℤ}
      {configured : Bool} (less : consumed ≤ counted) (more : required ≤ remaining) :
      AtLeastAsLenient (.getUsage (.ok ⟨consumed, remaining, limit, resetAt, configured⟩))
        (.getUsage (.ok ⟨counted, required, limit, resetAt, configured⟩))

/-- A smaller counter gives a more lenient answer and stays the smaller one. -/
theorem FixedWindow.respond_mono (call : Call) {consumed counted : ℤ}
    (le : consumed ≤ counted) :
    AtLeastAsLenient (FixedWindow.respond call consumed).1 (FixedWindow.respond call counted).1 ∧
      (FixedWindow.respond call consumed).2 ≤ (FixedWindow.respond call counted).2 := by
  cases isRpc : call.rpc with
  | charge request =>
      simp only [FixedWindow.respond, FixedWindow.validates, isRpc]
      split
      · exact ⟨.same _, le⟩
      · exact ⟨.same _, le⟩
      · split
        · exact ⟨.same _, le⟩
        · exact ⟨.charge (by omega), Int.add_le_add_right le _⟩
  | refund request =>
      simp only [FixedWindow.respond, FixedWindow.validates, isRpc]
      split
      · exact ⟨.same _, le⟩
      · exact ⟨.same _, le⟩
      · split
        · exact ⟨.same _, le⟩
        · exact ⟨.refund (by omega), by simp only; omega⟩
  | checkQuota request =>
      simp only [FixedWindow.respond, FixedWindow.validates, isRpc]
      split
      · exact ⟨.same _, le⟩
      · exact ⟨.same _, le⟩
      · split
        · exact ⟨.same _, le⟩
        · refine ⟨.checkQuota ?_ (by omega), le⟩
          simp only [decide_eq_true_eq]
          omega
  | getUsage request =>
      simp only [FixedWindow.respond, FixedWindow.validates, isRpc]
      split
      · exact ⟨.same _, le⟩
      · split
        · exact ⟨.same _, le⟩
        · exact ⟨.getUsage le (by omega), le⟩

/-- Every counter of the keyspace is at most that of the specification. -/
def UnderCounts (keyspace : Keyspace) (counters : FixedWindow.Counters) : Prop :=
  ∀ key unit period instant, Grammatical key → period? unit = some period →
    FourDigitYear instant →
    0 ≤ counter keyspace (counterKey key (windowId instant unit)) ∧
      counter keyspace (counterKey key (windowId instant unit)) ≤
        counters ⟨key, period, period.index instant⟩

namespace UnderCounts

variable {keyspace : Keyspace} {counters : FixedWindow.Counters}

theorem lose {left : Keyspace} (underCounts : UnderCounts keyspace counters)
    (lost : Lost keyspace left) : UnderCounts left counters := by
  intro key unit period instant names units inRange
  rcases lost (counterKey key (windowId instant unit)) with ⟨nonneg, notMore⟩
  exact ⟨nonneg, notMore.trans (underCounts key unit period instant names units inRange).2⟩

/-- Only the addressed counter has to be looked at again. -/
theorem set {after : Keyspace} {key : LimitKey} {unit : TimeUnit} {period : Period} {now : ℤ}
    {next : ℤ} (underCounts : UnderCounts keyspace counters) (names : Grammatical key)
    (units : period? unit = some period) (inRange : FourDigitYear now)
    (others : ∀ other, other ≠ counterKey key (windowId now unit) →
      counter after other = counter keyspace other)
    (nonneg : 0 ≤ counter after (counterKey key (windowId now unit)))
    (notMore : counter after (counterKey key (windowId now unit)) ≤ next) :
    UnderCounts after (Function.update counters ⟨key, period, period.index now⟩ next) := by
  intro other otherUnit otherPeriod instant otherNames otherUnits otherRange
  have sameIff := counterKey_eq_iff otherNames names otherRange inRange otherUnits units
  by_cases same : counterKey other (windowId instant otherUnit) =
      counterKey key (windowId now unit)
  · rw [same, sameIff.mp same, Function.update_self]
    exact ⟨nonneg, notMore⟩
  · rw [others _ same, Function.update_of_ne (mt sameIff.mpr same)]
    exact underCounts other otherUnit otherPeriod instant otherNames otherUnits otherRange

end UnderCounts

/-- One request: the answer is no stricter, and the counters stay below. -/
theorem execute_lenient {delivery : Delivery} {keyspace : Keyspace}
    {counters : FixedWindow.Counters} (underCounts : UnderCounts keyspace counters)
    (inRange : FourDigitYear delivery.call.now) (admitted : delivery.call.Admitted)
    (exactNumbers : delivery.call.Exact) (countersLt : ∀ id, counters id < 2 ^ 53)
    (nextLt : ∀ id, (FixedWindow.perform delivery.call counters).2 id < 2 ^ 53) :
    AtLeastAsLenient (delivery.execute keyspace).1
        (FixedWindow.perform delivery.call counters).1 ∧
      UnderCounts (delivery.execute keyspace).2 (FixedWindow.perform delivery.call counters).2 := by
  cases addressed : FixedWindow.counterId? delivery.call with
  | none =>
      simp only [Delivery.execute_of_unaddressed admitted addressed, FixedWindow.perform,
        addressed]
      exact ⟨.same _, underCounts⟩
  | some id =>
      rcases exists_addresses addressed with ⟨key, cap, period, addresses, rfl⟩
      have names := (admitted.configured addresses.resolved).1
      rcases underCounts key _ period delivery.call.now names addresses.units inRange with
        ⟨heldNonneg, heldLe⟩
      rcases FixedWindow.respond_mono delivery.call heldLe with ⟨lenient, nextLe⟩
      have nextHere := nextLt ⟨key, period, period.index delivery.call.now⟩
      simp only [FixedWindow.perform, addressed, Function.update_self] at nextHere
      rcases executed inRange admitted exactNumbers addresses heldNonneg
        (heldLe.trans_lt (countersLt _)) (nextLe.trans_lt nextHere)
        with ⟨replyEq, ⟨unchanged, same⟩ | ⟨entry, written, value, nonneg, _⟩⟩
      · rw [same] at nextLe
        simp only [FixedWindow.perform, addressed, replyEq, unchanged]
        exact ⟨lenient, underCounts.set names addresses.units inRange (fun _ _ => rfl) heldNonneg
          nextLe⟩
      · rw [← value] at nextLe
        simp only [FixedWindow.perform, addressed, replyEq, written]
        refine ⟨lenient, underCounts.set names addresses.units inRange ?_ ?_ ?_⟩
        · exact fun other different => counter_update_of_ne keyspace different entry
        · rw [counter_update_self]
          exact nonneg
        · rw [counter_update_self]
          exact nextLe

theorem lossy_replies {events : List LossyEvent} : ∀ {keyspace : Keyspace}
    {counters : FixedWindow.Counters}, Lossy keyspace events → UnderCounts keyspace counters →
    ExactRun counters (LossyEvent.calls events) →
    List.Forall₂ AtLeastAsLenient (LossyEvent.replies keyspace events)
      (FixedWindow.replies counters (LossyEvent.calls events)) := by
  induction events with
  | nil =>
      intros
      exact .nil
  | cons event rest ih =>
      intro keyspace counters lossy underCounts bounded
      cases lossy with
      | deliver inRange admitted next =>
          rename_i delivery
          have exactNumbers := bounded.1 delivery.call (List.mem_cons_self ..)
          have countersLt := bounded.2 [] List.nil_prefix
          have nextLt := bounded.tail.2 [] List.nil_prefix
          rcases execute_lenient underCounts inRange admitted exactNumbers countersLt nextLt with
            ⟨lenient, stays⟩
          exact .cons lenient (ih next stays bounded.tail)
      | lose lost next => exact ih next (underCounts.lose lost) bounded

/-- Whatever Redis loses and whenever it does, every reply grants at least what the specification
grants for the same requests. -/
theorem loss_never_blocks {events : List LossyEvent} (lossy : Lossy (fun _ => none) events)
    (bounded : ExactRun (fun _ => 0) (LossyEvent.calls events)) :
    List.Forall₂ AtLeastAsLenient (LossyEvent.replies (fun _ => none) events)
      (FixedWindow.replies (fun _ => 0) (LossyEvent.calls events)) := by
  apply lossy_replies lossy _ bounded
  intro key unit period instant names units inRange
  exact ⟨Int.le_refl 0, Int.le_refl 0⟩

section Replica

/-- Whatever the numbers, a charge lowers no counter. -/
theorem counter_le_chargeScript (keyspace : Keyspace) (key : String) {cost ttlSecs : ℤ}
    (limit nowMillis : ℤ) (costNonneg : 0 ≤ cost) (ttlPos : 0 < toNumber ttlSecs) :
    counter keyspace key ≤
      counter (chargeScript key cost limit ttlSecs nowMillis keyspace).2 key := by
  have added : 0 ≤ toNumber cost := Double.roundInt_nonneg costNonneg
  rcases incrBy_cases keyspace key (toNumber cost) with ⟨_, error, failed⟩ | ⟨_, increment⟩
  · rw [chargeScript, Script.bind_apply_error failed]
  · have present := Function.update_self key
      (some (Entry.mk (counter keyspace key + toNumber cost) (deadline keyspace key))) keyspace
    rcases ttl_of_some nowMillis present with ⟨left, ttlRan, _⟩
    rw [chargeScript, Script.bind_apply_ok increment, Script.bind_apply_ok ttlRan]
    split
    · rw [Script.bind_apply_ok (expire_of_some nowMillis present ttlPos)]
      simp only [Script.pure_apply, counter_update_self]
      omega
    · simp only [Script.pure_apply, counter_update_self]
      omega

theorem Delivery.counter_le_execute {delivery : Delivery}
    (noRefund : ∀ request, delivery.call.rpc ≠ .refund request) (keyspace : Keyspace)
    (key : String) : counter keyspace key ≤ counter (delivery.execute keyspace).2 key := by
  cases isRpc : delivery.call.rpc with
  | refund request => exact absurd isRpc (noRefund request)
  | checkQuota request | getUsage request =>
      rw [execute_eq_perform (by simp [isRpc]), perform_readOnly (by simp [isRpc, Rpc.isRead])]
  | charge request =>
      simp only [execute, isRpc, Prod.map_snd, id_eq, chargeOne]
      split
      · exact Int.le_refl _
      · exact Int.le_refl _
      · rename_i limitKey cost _ validCost
        split
        · exact Int.le_refl _
        · rename_i target found
          have raised : counter keyspace key ≤ counter (runScript (chargeScript target.counter cost
              target.cap.limitValue (jitteredTtl target.window.remainingSecs defaultGraceSecs
                (jitterCapSecs target.cap.timeUnit) delivery.moment.draw)
              delivery.moment.redisMillis) keyspace).2 key := by
            rw [runScript_snd]
            by_cases same : key = target.counter
            · subst key
              apply counter_le_chargeScript
              · exact (normalizeCost_eq_ok validCost).1.le
              · rw [toNumber_ttl _ (target?_eq_some found).1]
                exact one_le_jitteredTtl _ _ _ _
            · exact (counter_congr
                (chargeScript_confined _ _ _ _ keyspace key same)).symm.le
          split <;> rename_i ran <;> rw [ran] at raised <;> exact raised

/-- A replica that has missed no refund has lost charges only. -/
theorem replica_lost {missed : List Delivery}
    (noRefund : ∀ delivery ∈ missed, ∀ request, delivery.call.rpc ≠ .refund request) :
    ∀ {replica : Keyspace}, (∀ key, 0 ≤ counter replica key) →
      Lost (after (fun keyspace delivery => (delivery.execute keyspace).2) replica missed)
        replica := by
  induction missed with
  | nil =>
      intro replica nonneg key
      exact ⟨nonneg key, Int.le_refl _⟩
  | cons delivery rest ih =>
      intro replica nonneg key
      have raised := @Delivery.counter_le_execute delivery
        (noRefund delivery (List.mem_cons_self ..)) replica
      have later := ih (fun other mem => noRefund other (List.mem_cons_of_mem _ mem))
        fun key => (nonneg key).trans (raised key)
      exact ⟨nonneg key, (raised key).trans (later key).2⟩

end Replica

section Witness

def sampleLenient (now redisMillis : ℤ) (rpc : Rpc) : Delivery :=
  ⟨⟨now, 0, sampleResolve, rpc⟩, redisMillis⟩

def sampleReplicated : Delivery :=
  sampleLenient 0 1 (.charge ⟨some ⟨"search", "acme|eu", "query"⟩, 4⟩)

def sampleMissed : Delivery :=
  sampleLenient 1000000 2 (.charge ⟨some ⟨"search", "acme|eu", "query"⟩, 5⟩)

/-- The replica that takes over has missed the second charge. -/
def sampleFailover : List LossyEvent :=
  [.deliver sampleReplicated, .deliver sampleMissed,
    .lose (sampleReplicated.execute fun _ => none).2,
    .deliver (sampleLenient 2000000 3 (.checkQuota ⟨some ⟨"search", "acme|eu", "query"⟩, 2⟩))]

theorem sampleFailover_lossy : Lossy (fun _ => none) sampleFailover := by
  have noRefund : ∀ delivery ∈ [sampleMissed], ∀ request,
      delivery.call.rpc ≠ .refund request := by
    simp [sampleMissed, sampleLenient]
  have counted : ∀ key, 0 ≤ counter (sampleReplicated.execute fun _ => none).2 key := by
    intro key
    exact Delivery.counter_le_execute (by simp [sampleReplicated, sampleLenient]) (fun _ => none)
      key
  refine .deliver (by decide) (sampleResolve_admitted rfl) ?_
  refine .deliver (by decide) (sampleResolve_admitted rfl) ?_
  refine .lose (replica_lost noRefund counted) ?_
  exact .deliver (by decide) (sampleResolve_admitted rfl) .nil

theorem sampleFailover_exact : ExactRun (fun _ => 0) (LossyEvent.calls sampleFailover) := by
  refine exactRun_of_costs ?_ (by decide)
  intro call mem
  simp only [sampleFailover, sampleReplicated, sampleMissed, sampleLenient, LossyEvent.calls,
    List.mem_cons, List.not_mem_nil, or_false] at mem
  rcases mem with rfl | rfl | rfl
  · exact ⟨fun _ _ => sampleResolve_limit, (by decide : (4 : ℤ) < 2 ^ 53)⟩
  · exact ⟨fun _ _ => sampleResolve_limit, (by decide : (5 : ℤ) < 2 ^ 53)⟩
  · exact ⟨fun _ _ => sampleResolve_limit, (by decide : (2 : ℤ) < 2 ^ 53)⟩

/-- The check is allowed with six units left, where the specification has one left and denies. -/
theorem loss_never_blocks_sample :
    List.Forall₂ AtLeastAsLenient
      [.charge (.ok ⟨6, 10, some 60000000000⟩), .charge (.ok ⟨1, 10, some 60000000000⟩),
        .checkQuota (.ok ⟨true, 6, 10, some 60000000000⟩)]
      [.charge (.ok ⟨6, 10, some 60000000000⟩), .charge (.ok ⟨1, 10, some 60000000000⟩),
        .checkQuota (.ok ⟨false, 1, 10, some 60000000000⟩)] := by
  have actual : LossyEvent.replies (fun _ => none) sampleFailover =
      [.charge (.ok ⟨6, 10, some 60000000000⟩), .charge (.ok ⟨1, 10, some 60000000000⟩),
        .checkQuota (.ok ⟨true, 6, 10, some 60000000000⟩)] := by decide +kernel
  have required : FixedWindow.replies (fun _ => 0) (LossyEvent.calls sampleFailover) =
      [.charge (.ok ⟨6, 10, some 60000000000⟩), .charge (.ok ⟨1, 10, some 60000000000⟩),
        .checkQuota (.ok ⟨false, 1, 10, some 60000000000⟩)] := by decide +kernel
  rw [← actual, ← required]
  exact loss_never_blocks sampleFailover_lossy sampleFailover_exact

end Witness

end RateLimiter.Enforcer
