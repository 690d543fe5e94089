import Mathlib.Algebra.Order.BigOperators.Group.List
import Mathlib.Tactic.Linarith
import RateLimiter.Enforcer.FixedWindow
import RateLimiter.Enforcer.Timeline

/-!
# The enforcer refines the fixed-window specification

A run is a sequence of calls and of keys dropped by Redis. Every call executes
atomically at its own instant, and a key is dropped only once its deadline has
come. `Represents` relates a keyspace to the abstract counters from some
instant on: it says nothing of closed windows, whose keys may already be gone.
-/

namespace RateLimiter.Enforcer

open CivilTime Redis

namespace Call

/-- The script runs at the instant of the request. -/
def moment (call : Call) : Moment :=
  ⟨call.now, call.now / 1000000, call.draw⟩

@[simp]
theorem moment_now (call : Call) : call.moment.now = call.now := rfl

/-- The configured caps were read from rows that the control plane accepted. -/
def Admitted (call : Call) : Prop :=
  ∀ key cap, call.resolve key = .configured cap →
    ∃ rows : List LimitRow,
      (∀ row ∈ rows, Management.LimitValidator.validateLimitWrite row.key row.limitValue
        (.known (parseTimeUnit row.timeUnit.text)) = .ok ()) ∧
      queryDb (some rows) key = .ok (.configured cap)

/-- The numbers of the call are exact doubles. -/
structure Exact (call : Call) : Prop where
  limit : ∀ key cap, call.resolve key = .configured cap → cap.limitValue < 2 ^ 53
  number : match call.rpc with
    | .charge request | .checkQuota request => request.cost < 2 ^ 53
    | .refund request => request.amount < 2 ^ 53
    | .getUsage _ => True

end Call

def perform (call : Call) (keyspace : Keyspace) : Reply × Keyspace :=
  match call.rpc with
  | .charge request =>
      (chargeOne call.resolve call.moment defaultGraceSecs request keyspace).map .charge id
  | .refund request => (refundOne call.resolve call.moment request keyspace).map .refund id
  | .checkQuota request => (checkOne call.resolve call.moment request keyspace).map .checkQuota id
  | .getUsage request => (getUsage call.resolve call.moment request keyspace).map .getUsage id

inductive Event where
  | call (call : Call)
  | drop (key : String) (instant : ℤ)

namespace Event

def calls : List Event → List Call
  | [] => []
  | .call issued :: rest => issued :: calls rest
  | .drop _ _ :: rest => calls rest

def replies (keyspace : Keyspace) : List Event → List Reply
  | [] => []
  | .call issued :: rest =>
      (perform issued keyspace).1 :: replies (perform issued keyspace).2 rest
  | .drop key _ :: rest => replies (Redis.drop keyspace key) rest

end Event

/-- Instants do not decrease, and a key is dropped at or after its deadline. -/
inductive Lawful : ℤ → Keyspace → List Event → Prop where
  | nil {clock : ℤ} {keyspace : Keyspace} : Lawful clock keyspace []
  | call {clock : ℤ} {keyspace : Keyspace} {call : Call} {rest : List Event}
      (later : clock ≤ call.now) (inRange : FourDigitYear call.now) (admitted : call.Admitted)
      (next : Lawful call.now (perform call keyspace).2 rest) :
      Lawful clock keyspace (.call call :: rest)
  | drop {clock : ℤ} {keyspace : Keyspace} {key : String} {instant : ℤ} {rest : List Event}
      (later : clock ≤ instant) (due : Due keyspace (instant / 1000000) key)
      (next : Lawful instant (Redis.drop keyspace key) rest) :
      Lawful clock keyspace (.drop key instant :: rest)

section Caps

variable {call : Call} {key : LimitKey} {cap : Cap}

/-- An admitted cap has a window, a nonnegative value and a grammatical key. -/
theorem Call.Admitted.configured (admitted : call.Admitted)
    (resolved : call.resolve key = .configured cap) :
    Grammatical key ∧ 0 ≤ cap.limitValue ∧ ∃ period, period? cap.timeUnit = some period := by
  rcases admitted key cap resolved with ⟨rows, accepted, queried⟩
  simp only [queryDb] at queried
  split at queried
  · simp only [resolution, Except.ok.injEq] at queried
    cases found : lookupRow rows key with
    | none => simp [found] at queried
    | some row =>
        simp only [found, Resolved.configured.injEq] at queried
        subst cap
        rcases lookupRow_mem found with ⟨mem, matching⟩
        rcases Management.LimitValidator.validateLimitWrite_eq_ok_iff.mp (accepted row mem) with
          ⟨names, nonneg, _⟩
        rcases Management.LimitValidator.validateKey_eq_ok_iff.mp names with ⟨service, _, limit⟩
        simp only [matchesLookup, Bool.and_eq_true, decide_eq_true_eq] at matching
        simp only [LimitRow.key, matching.1.1, matching.1.2] at service limit
        refine ⟨⟨service, limit⟩, nonneg, ?_⟩
        simp only [parseTimeUnit_text]
        cases row.timeUnit <;> exact ⟨_, rfl⟩
  · simp at queried

theorem Call.capOf?_of_configured {period : Period}
    (resolved : call.resolve key = .configured cap) (units : period? cap.timeUnit = some period) :
    call.capOf? key = some (cap, period) := by
  simp only [Call.capOf?, resolved, units, Option.map_some]

end Caps

/-- Two counter keys are equal exactly when the abstract counters are. -/
theorem counterKey_eq_iff {first second : LimitKey} {firstUnit secondUnit : TimeUnit}
    {firstPeriod secondPeriod : Period} {firstNow secondNow : ℤ}
    (firstNames : Grammatical first) (secondNames : Grammatical second)
    (firstRange : FourDigitYear firstNow) (secondRange : FourDigitYear secondNow)
    (firstUnits : period? firstUnit = some firstPeriod)
    (secondUnits : period? secondUnit = some secondPeriod) :
    counterKey first (windowId firstNow firstUnit) =
        counterKey second (windowId secondNow secondUnit) ↔
      FixedWindow.CounterId.mk first firstPeriod (firstPeriod.index firstNow) =
        ⟨second, secondPeriod, secondPeriod.index secondNow⟩ := by
  simp only [FixedWindow.CounterId.mk.injEq]
  apply (counterKey_windowId_eq_iff firstNames secondNames firstRange secondRange firstUnits
    secondUnits).trans
  apply and_congr_right
  intro _
  constructor
  · rintro ⟨rfl, sameIndex⟩
    rw [firstUnits, Option.some.injEq] at secondUnits
    subst secondPeriod
    exact ⟨rfl, sameIndex⟩
  · rintro ⟨rfl, sameIndex⟩
    exact ⟨period?_injective firstUnits secondUnits, sameIndex⟩

/-- From `clock` on, the keyspace holds the abstract counters. -/
structure Represents (clock : ℤ) (keyspace : Keyspace) (counters : FixedWindow.Counters) :
    Prop where
  counter_eq : ∀ key unit period instant, Grammatical key → period? unit = some period →
    clock ≤ instant → FourDigitYear instant →
    counter keyspace (counterKey key (windowId instant unit)) =
      counters ⟨key, period, period.index instant⟩
  /-- No deadline falls before the end of its window. -/
  finish_le : ∀ key unit period instant, Grammatical key → period? unit = some period →
    clock ≤ instant → FourDigitYear instant →
    ∀ due, deadline keyspace (counterKey key (windowId instant unit)) = some due →
      period.finish instant ≤ due * 1000000
  nonneg : ∀ id, 0 ≤ counters id

namespace Represents

variable {clock later : ℤ} {keyspace : Keyspace} {counters : FixedWindow.Counters}

theorem empty (clock : ℤ) : Represents clock (fun _ => none) (fun _ => 0) where
  counter_eq _ _ _ _ _ _ _ _ := rfl
  finish_le _ _ _ _ _ _ _ _ due noDeadline := by simp [deadline] at noDeadline
  nonneg _ := Int.le_refl 0

theorem mono (represents : Represents clock keyspace counters) (after : clock ≤ later) :
    Represents later keyspace counters where
  counter_eq key unit period instant names units atLeast :=
    represents.counter_eq key unit period instant names units (after.trans atLeast)
  finish_le key unit period instant names units atLeast :=
    represents.finish_le key unit period instant names units (after.trans atLeast)
  nonneg := represents.nonneg

/-- A dropped key belonged to a window that has closed. -/
theorem drop {key : String} (represents : Represents clock keyspace counters)
    (after : clock ≤ later) (due : Due keyspace (later / 1000000) key) :
    Represents later (Redis.drop keyspace key) counters := by
  have closed : ∀ limitKey unit period instant, Grammatical limitKey →
      period? unit = some period → later ≤ instant → FourDigitYear instant →
      counterKey limitKey (windowId instant unit) ≠ key := by
    rintro limitKey unit period instant names units atLeast inRange rfl
    rcases due with ⟨millis, deadlineEq, reached⟩
    have finished := represents.finish_le limitKey unit period instant names units
      (after.trans atLeast) inRange millis deadlineEq
    have running := period.lt_finish instant
    omega
  constructor
  · intro limitKey unit period instant names units atLeast inRange
    rw [counter_drop_of_ne _ (closed _ _ _ _ names units atLeast inRange)]
    exact represents.counter_eq _ _ _ _ names units (after.trans atLeast) inRange
  · intro limitKey unit period instant names units atLeast inRange
    rw [deadline_drop_of_ne _ (closed _ _ _ _ names units atLeast inRange)]
    exact represents.finish_le _ _ _ _ names units (after.trans atLeast) inRange
  · exact represents.nonneg

theorem update {key : LimitKey} {unit : TimeUnit} {period : Period} {now : ℤ} {entry : Entry}
    (represents : Represents now keyspace counters) (names : Grammatical key)
    (units : period? unit = some period) (inRange : FourDigitYear now)
    (valueNonneg : 0 ≤ entry.value)
    (lasting : ∀ due, entry.deadline = some due → period.finish now ≤ due * 1000000) :
    Represents now
      (Function.update keyspace (counterKey key (windowId now unit)) (some entry))
      (Function.update counters ⟨key, period, period.index now⟩ entry.value) := by
  constructor
  · intro other otherUnit otherPeriod instant otherNames otherUnits atLeast otherRange
    by_cases same : counterKey other (windowId instant otherUnit) =
        counterKey key (windowId now unit)
    · rw [same, counter_update_self,
        (counterKey_eq_iff otherNames names otherRange inRange otherUnits units).mp same,
        Function.update_self]
    · have differentId := mt
        (counterKey_eq_iff otherNames names otherRange inRange otherUnits units).mpr same
      rw [counter_update_of_ne _ same, Function.update_of_ne differentId]
      exact represents.counter_eq _ _ _ _ otherNames otherUnits atLeast otherRange
  · intro other otherUnit otherPeriod instant otherNames otherUnits atLeast otherRange due
    by_cases same : counterKey other (windowId instant otherUnit) =
        counterKey key (windowId now unit)
    · have sameId :=
        (counterKey_eq_iff otherNames names otherRange inRange otherUnits units).mp same
      simp only [FixedWindow.CounterId.mk.injEq] at sameId
      rcases sameId with ⟨rfl, rfl, sameIndex⟩
      rw [same, deadline_update_self, otherPeriod.finish_congr sameIndex]
      exact lasting due
    · rw [deadline_update_of_ne _ same]
      exact represents.finish_le _ _ _ _ otherNames otherUnits atLeast otherRange due
  · intro id
    by_cases same : id = ⟨key, period, period.index now⟩
    · rw [same, Function.update_self]
      exact valueNonneg
    · rw [Function.update_of_ne same]
      exact represents.nonneg id

end Represents

theorem target?_of_capOf?_none {call : Call} {key : LimitKey} (unlimited : call.capOf? key = none) :
    target? call.resolve call.now key = none := by
  simp only [Call.capOf?] at unlimited
  cases resolved : call.resolve key with
  | unconfigured => simp only [target?, resolved]
  | configured cap =>
      simp only [resolved, Option.map_eq_none_iff] at unlimited
      cases unit : cap.timeUnit with
      | unspecified => simp [target?, resolved, unit, computeWindow, resetAt?]
      | minute | day | month => simp [unit, period?] at unlimited

section Unaddressed

variable {call : Call}

theorem Call.Admitted.resolve_of_capOf?_none {key : LimitKey} (admitted : call.Admitted)
    (unlimited : call.capOf? key = none) : call.resolve key = .unconfigured := by
  cases resolved : call.resolve key with
  | unconfigured => rfl
  | configured cap =>
      rcases admitted.configured resolved with ⟨_, _, period, units⟩
      rw [Call.capOf?_of_configured resolved units] at unlimited
      simp at unlimited

theorem capOf?_eq_none_of_unaddressed {key : LimitKey}
    (unaddressed : FixedWindow.counterId? call = none) (validKey : call.validKey? = some key) :
    call.capOf? key = none := by
  cases capped : call.capOf? key with
  | none => rfl
  | some _ => simp [FixedWindow.counterId?, validKey, capped] at unaddressed

/-- An invalid request and a request on an unconfigured key are answered without the store. -/
theorem perform_of_unaddressed (admitted : call.Admitted)
    (unaddressed : FixedWindow.counterId? call = none) (keyspace : Keyspace) :
    perform call keyspace = ((FixedWindow.respond call 0).1, keyspace) := by
  cases isRpc : call.rpc with
  | charge request =>
      simp only [perform, isRpc, chargeOne, FixedWindow.respond, FixedWindow.validates]
      cases validKey : validateKey request.key with
      | error error => rfl
      | ok key =>
          cases validCost : normalizeCost request.cost with
          | error error => rfl
          | ok cost =>
              have unlimited : call.capOf? key = none := capOf?_eq_none_of_unaddressed
                unaddressed (by simp only [Call.validKey?, FixedWindow.validates, isRpc, validKey,
                  validCost])
              simp only [Call.moment, target?_of_capOf?_none unlimited, unlimited]
              rfl
  | refund request =>
      simp only [perform, isRpc, refundOne, FixedWindow.respond, FixedWindow.validates]
      cases validKey : validateKey request.key with
      | error error => rfl
      | ok key =>
          cases validAmount : validateAmount request.amount with
          | error error => rfl
          | ok amount =>
              have unlimited : call.capOf? key = none := capOf?_eq_none_of_unaddressed
                unaddressed (by simp only [Call.validKey?, FixedWindow.validates, isRpc, validKey,
                  validAmount])
              simp only [Call.moment, target?_of_capOf?_none unlimited, unlimited]
              rfl
  | checkQuota request =>
      simp only [perform, isRpc, checkOne, FixedWindow.respond, FixedWindow.validates]
      cases validKey : validateKey request.key with
      | error error => rfl
      | ok key =>
          cases validCost : normalizeCost request.cost with
          | error error => rfl
          | ok cost =>
              have unlimited : call.capOf? key = none := capOf?_eq_none_of_unaddressed
                unaddressed (by simp only [Call.validKey?, FixedWindow.validates, isRpc, validKey,
                  validCost])
              simp only [Call.moment, target?_of_capOf?_none unlimited, unlimited]
              rfl
  | getUsage request =>
      simp only [perform, isRpc, getUsage, FixedWindow.respond, FixedWindow.validates]
      cases validKey : validateKey request.key with
      | error error => rfl
      | ok key =>
          have unlimited : call.capOf? key = none := capOf?_eq_none_of_unaddressed
            unaddressed (by simp only [Call.validKey?, FixedWindow.validates, isRpc, validKey,
              Except.toOption])
          simp only [admitted.resolve_of_capOf?_none unlimited, unlimited]
          rfl

end Unaddressed

/-- A valid request on a configured key, and the window length of the key. -/
structure Addresses (call : Call) (key : LimitKey) (cap : Cap) (period : Period) : Prop where
  validKey : call.validKey? = some key
  resolved : call.resolve key = .configured cap
  units : period? cap.timeUnit = some period

theorem exists_addresses {call : Call} {id : FixedWindow.CounterId}
    (addressed : FixedWindow.counterId? call = some id) :
    ∃ key cap period, Addresses call key cap period ∧
      id = ⟨key, period, period.index call.now⟩ := by
  simp only [FixedWindow.counterId?, Option.bind_eq_bind, Option.bind_eq_some_iff,
    Option.pure_def, Option.some.injEq] at addressed
  rcases addressed with ⟨key, validKey, ⟨cap, period⟩, capped, rfl⟩
  simp only [Call.capOf?] at capped
  cases resolved : call.resolve key with
  | unconfigured => simp [resolved] at capped
  | configured found =>
      simp only [resolved, Option.map_eq_some_iff, Prod.mk.injEq] at capped
      rcases capped with ⟨_, units, rfl, rfl⟩
      exact ⟨key, found, _, ⟨validKey, resolved, units⟩, rfl⟩

theorem eq_ok_of_validated {found : LimitKey} {number : Except EnforcerError ℤ}
    {tuple : Except EnforcerError LimitKey}
    (validated : (match tuple, number with
      | .ok key, .ok _ => some key
      | _, _ => none) = some found) : tuple = .ok found ∧ ∃ value, number = .ok value := by
  cases tuple with
  | error error => simp at validated
  | ok key =>
      cases number with
      | error error => simp at validated
      | ok value =>
          simp only [Option.some.injEq] at validated
          exact ⟨congrArg _ validated, value, rfl⟩

section Addressed

variable {call : Call} {keyspace : Keyspace} {counters : FixedWindow.Counters}
  {key : LimitKey} {cap : Cap} {period : Period}

/-- What one addressed call does, given the counter it finds. -/
structure Conforms (call : Call) (keyspace : Keyspace) (counterName : String) (finish : ℤ)
    (consumed : ℤ) : Prop where
  reply : (perform call keyspace).1 = (FixedWindow.respond call consumed).1
  /-- Either nothing is written or the addressed counter is. -/
  state : ((perform call keyspace).2 = keyspace ∧
      (FixedWindow.respond call consumed).2 = consumed) ∨
    ∃ entry, (perform call keyspace).2 = Function.update keyspace counterName (some entry) ∧
      entry.value = (FixedWindow.respond call consumed).2 ∧ 0 ≤ entry.value ∧
      ∀ due, entry.deadline = some due → finish ≤ due * 1000000

variable (represents : Represents call.now keyspace counters) (inRange : FourDigitYear call.now)
  (admitted : call.Admitted) (exactNumbers : call.Exact)
  (addresses : Addresses call key cap period)
  (heldLt : counters ⟨key, period, period.index call.now⟩ < 2 ^ 53)

include represents inRange admitted exactNumbers addresses heldLt

theorem conforms_charge {request : ChargeRequest} (isCharge : call.rpc = .charge request)
    (nextLt : (FixedWindow.respond call (counters ⟨key, period, period.index call.now⟩)).2
      < 2 ^ 53) :
    Conforms call keyspace (counterKey key (windowId call.now cap.timeUnit))
      (period.finish call.now) (counters ⟨key, period, period.index call.now⟩) := by
  rcases addresses with ⟨validKey, resolved, units⟩
  rcases admitted.configured resolved with ⟨names, limitNonneg, _⟩
  have costLt := exactNumbers.number
  have limitLt := exactNumbers.limit key cap resolved
  have capped := Call.capOf?_of_configured resolved units
  have held := represents.counter_eq key _ period call.now names units (Int.le_refl _) inRange
  have heldNonneg := represents.nonneg ⟨key, period, period.index call.now⟩
  simp only [Call.validKey?, FixedWindow.validates, isCharge] at validKey costLt
  rcases eq_ok_of_validated validKey with ⟨validTuple, cost, validCost⟩
  have costBounds := normalizeCost_eq_ok validCost
  simp only [FixedWindow.respond, FixedWindow.validates, isCharge, validTuple, validCost,
    capped] at nextLt
  have charged : chargeOne call.resolve call.moment defaultGraceSecs request keyspace = _ :=
    chargeOne_eq call.moment inRange.representable resolved units limitNonneg limitLt
      (heldNonneg.trans_eq held.symm) validTuple validCost (by omega)
      (by rw [Call.moment_now, held]; exact nextLt)
  simp only [Call.moment_now, held] at charged
  constructor
  · simp only [perform, isCharge, charged, FixedWindow.respond, FixedWindow.validates, validTuple,
      validCost, capped, Prod.map_apply]
  · refine Or.inr ⟨_, by simp only [perform, isCharge, charged, Prod.map_apply, id_eq]; rfl,
      ?_, ?_, ?_⟩
    · simp only [chargedEntry, held, FixedWindow.respond, FixedWindow.validates, isCharge,
        validTuple, validCost, capped]
    · simp only [chargedEntry, held]
      omega
    · intro due set
      simp only [chargedEntry, Option.some.injEq] at set
      subst due
      cases kept : deadline keyspace (counterKey key (windowId call.now cap.timeUnit)) with
      | none => exact finish_le_newTtl period cap.timeUnit call.moment (Int.le_refl _)
      | some due =>
          exact represents.finish_le key _ period call.now names units (Int.le_refl _) inRange
            due kept

theorem conforms_refund {request : RefundRequest} (isRefund : call.rpc = .refund request) :
    Conforms call keyspace (counterKey key (windowId call.now cap.timeUnit))
      (period.finish call.now) (counters ⟨key, period, period.index call.now⟩) := by
  rcases addresses with ⟨validKey, resolved, units⟩
  rcases admitted.configured resolved with ⟨names, limitNonneg, _⟩
  have amountLt := exactNumbers.number
  have limitLt := exactNumbers.limit key cap resolved
  have capped := Call.capOf?_of_configured resolved units
  have held := represents.counter_eq key _ period call.now names units (Int.le_refl _) inRange
  have heldNonneg := represents.nonneg ⟨key, period, period.index call.now⟩
  simp only [Call.validKey?, FixedWindow.validates, isRefund] at validKey amountLt
  rcases eq_ok_of_validated validKey with ⟨validTuple, amount, validAmount⟩
  have amountBounds := validateAmount_eq_ok validAmount
  have refunded : refundOne call.resolve call.moment request keyspace = _ :=
    refundOne_eq call.moment inRange.representable resolved units limitNonneg limitLt
      (heldNonneg.trans_eq held.symm) validTuple validAmount (by omega) (held.trans_lt heldLt)
  simp only [Call.moment_now, held] at refunded
  constructor
  · simp only [perform, isRefund, refunded, FixedWindow.respond, FixedWindow.validates, validTuple,
      validAmount, capped, Prod.map_apply]
  · refine Or.inr ⟨_, by simp only [perform, isRefund, refunded, Prod.map_apply, id_eq]; rfl,
      ?_, ?_, ?_⟩
    · simp only [FixedWindow.respond, FixedWindow.validates, isRefund, validTuple, validAmount,
        capped]
    · exact le_max_right _ _
    · exact represents.finish_le key _ period call.now names units (Int.le_refl _) inRange

theorem conforms_check {request : CheckQuotaRequest} (isCheck : call.rpc = .checkQuota request) :
    Conforms call keyspace (counterKey key (windowId call.now cap.timeUnit))
      (period.finish call.now) (counters ⟨key, period, period.index call.now⟩) := by
  rcases addresses with ⟨validKey, resolved, units⟩
  rcases admitted.configured resolved with ⟨names, limitNonneg, _⟩
  have costLt := exactNumbers.number
  have limitLt := exactNumbers.limit key cap resolved
  have capped := Call.capOf?_of_configured resolved units
  have held := represents.counter_eq key _ period call.now names units (Int.le_refl _) inRange
  have heldNonneg := represents.nonneg ⟨key, period, period.index call.now⟩
  simp only [Call.validKey?, FixedWindow.validates, isCheck] at validKey costLt
  rcases eq_ok_of_validated validKey with ⟨validTuple, cost, validCost⟩
  have costBounds := normalizeCost_eq_ok validCost
  have checked : checkOne call.resolve call.moment request keyspace = _ :=
    checkOne_eq call.moment inRange.representable resolved units limitNonneg limitLt
      (heldNonneg.trans_eq held.symm) validTuple validCost (by omega) (held.trans_lt heldLt)
  simp only [Call.moment_now, held] at checked
  constructor
  · simp only [perform, isCheck, checked, FixedWindow.respond, FixedWindow.validates, validTuple,
      validCost, capped, Prod.map_apply]
  · refine Or.inl ⟨by simp only [perform, isCheck, checked, Prod.map_apply, id_eq], ?_⟩
    simp only [FixedWindow.respond, FixedWindow.validates, isCheck, validTuple, validCost, capped]

omit exactNumbers heldLt in
theorem conforms_getUsage {request : GetUsageRequest} (isUsage : call.rpc = .getUsage request) :
    Conforms call keyspace (counterKey key (windowId call.now cap.timeUnit))
      (period.finish call.now) (counters ⟨key, period, period.index call.now⟩) := by
  rcases addresses with ⟨validKey, resolved, units⟩
  rcases admitted.configured resolved with ⟨names, _⟩
  have capped := Call.capOf?_of_configured resolved units
  have held := represents.counter_eq key _ period call.now names units (Int.le_refl _) inRange
  simp only [Call.validKey?, FixedWindow.validates, isUsage] at validKey
  have validTuple : validateKey request.key = .ok key := by
    cases valid : validateKey request.key with
    | error error => simp [valid, Except.toOption] at validKey
    | ok found =>
        simp only [valid, Except.toOption, Option.some.injEq] at validKey
        exact congrArg _ validKey
  have used : getUsage call.resolve call.moment request keyspace = _ :=
    getUsage_eq call.moment inRange.representable resolved units validTuple
  simp only [Call.moment_now, held] at used
  constructor
  · simp only [perform, isUsage, used, FixedWindow.respond, FixedWindow.validates, validTuple,
      capped, Prod.map_apply]
  · refine Or.inl ⟨by simp only [perform, isUsage, used, Prod.map_apply, id_eq], ?_⟩
    simp only [FixedWindow.respond, FixedWindow.validates, isUsage, validTuple, capped]

theorem conforms
    (nextLt : (FixedWindow.respond call (counters ⟨key, period, period.index call.now⟩)).2
      < 2 ^ 53) :
    Conforms call keyspace (counterKey key (windowId call.now cap.timeUnit))
      (period.finish call.now) (counters ⟨key, period, period.index call.now⟩) := by
  cases isRpc : call.rpc with
  | charge request =>
      exact conforms_charge represents inRange admitted exactNumbers addresses heldLt isRpc nextLt
  | refund request =>
      exact conforms_refund represents inRange admitted exactNumbers addresses heldLt isRpc
  | checkQuota request =>
      exact conforms_check represents inRange admitted exactNumbers addresses heldLt isRpc
  | getUsage request => exact conforms_getUsage represents inRange admitted addresses isRpc

end Addressed

/-- One call: the answers are equal and the states stay related. -/
theorem perform_refines {call : Call} {keyspace : Keyspace} {counters : FixedWindow.Counters}
    (represents : Represents call.now keyspace counters) (inRange : FourDigitYear call.now)
    (admitted : call.Admitted) (exactNumbers : call.Exact)
    (countersLt : ∀ id, counters id < 2 ^ 53)
    (nextLt : ∀ id, (FixedWindow.perform call counters).2 id < 2 ^ 53) :
    (perform call keyspace).1 = (FixedWindow.perform call counters).1 ∧
      Represents call.now (perform call keyspace).2 (FixedWindow.perform call counters).2 := by
  cases addressed : FixedWindow.counterId? call with
  | none =>
      simp only [perform_of_unaddressed admitted addressed, FixedWindow.perform, addressed,
        true_and]
      exact represents
  | some id =>
      rcases exists_addresses addressed with ⟨key, cap, period, addresses, rfl⟩
      have nextHere := nextLt ⟨key, period, period.index call.now⟩
      simp only [FixedWindow.perform, addressed, Function.update_self] at nextHere
      rcases conforms represents inRange admitted exactNumbers addresses (countersLt _) nextHere
        with ⟨replyEq, ⟨unchanged, same⟩ | ⟨entry, written, value, nonneg, lasting⟩⟩
      · simp only [FixedWindow.perform, addressed, replyEq, unchanged, same,
          Function.update_eq_self, true_and]
        exact represents
      · simp only [FixedWindow.perform, addressed, replyEq, written, ← value, true_and]
        exact represents.update (admitted.configured addresses.resolved).1 addresses.units inRange
          nonneg lasting

/-- All numbers of a run are exact doubles, the abstract counters included. -/
def ExactRun (counters : FixedWindow.Counters) (calls : List Call) : Prop :=
  (∀ call ∈ calls, call.Exact) ∧
    ∀ before, before <+: calls → ∀ id, FixedWindow.countersAfter counters before id < 2 ^ 53

theorem ExactRun.tail {counters : FixedWindow.Counters} {call : Call} {rest : List Call}
    (bounded : ExactRun counters (call :: rest)) :
    ExactRun (FixedWindow.perform call counters).2 rest := by
  refine ⟨fun other mem => bounded.1 other (List.mem_cons_of_mem _ mem), ?_⟩
  intro before isPrefix
  exact bounded.2 (call :: before) (List.cons_prefix_cons.mpr ⟨rfl, isPrefix⟩)

/-- A run is exact if each of its calls is and all its costs together are. -/
theorem exactRun_of_costs {calls : List Call} (exactCalls : ∀ call ∈ calls, call.Exact)
    (costs : (calls.map Call.costBound).sum < 2 ^ 53) : ExactRun (fun _ => 0) calls := by
  refine ⟨exactCalls, ?_⟩
  intro before isPrefix id
  rcases isPrefix with ⟨rest, rfl⟩
  have bounded := @FixedWindow.countersAfter_le before id (fun _ => 0) fun _ => Int.le_refl 0
  have rest_nonneg : 0 ≤ (rest.map Call.costBound).sum := by
    apply List.sum_nonneg
    intro cost mem
    rcases List.mem_map.mp mem with ⟨call, _, rfl⟩
    exact call.costBound_nonneg
  simp only [List.map_append, List.sum_append] at costs
  omega

theorem replies_eq {events : List Event} : ∀ {clock : ℤ} {keyspace : Keyspace}
    {counters : FixedWindow.Counters}, Lawful clock keyspace events →
    Represents clock keyspace counters → ExactRun counters (Event.calls events) →
    Event.replies keyspace events = FixedWindow.replies counters (Event.calls events) := by
  induction events with
  | nil =>
      intros
      rfl
  | cons event rest ih =>
      intro clock keyspace counters lawful represents bounded
      cases lawful with
      | call later inRange admitted next =>
          rename_i call
          have exactNumbers := bounded.1 call (List.mem_cons_self ..)
          have countersLt := bounded.2 [] List.nil_prefix
          have nextLt := bounded.tail.2 [] List.nil_prefix
          rcases perform_refines (represents.mono later) inRange admitted exactNumbers countersLt
            nextLt with ⟨replyEq, represented⟩
          simp only [Event.replies, Event.calls, FixedWindow.replies, replyEq]
          rw [ih next represented bounded.tail]
      | drop later due next => exact ih next (represents.drop later due) bounded

/-- The enforcer answers like the fixed-window specification, and the answer on one counter
depends on the earlier calls that address that counter and on no others. -/
theorem enforcer_refines_fixedWindow {clock : ℤ} {events : List Event}
    (lawful : Lawful clock (fun _ => none) events)
    (bounded : ExactRun (fun _ => 0) (Event.calls events)) :
    Event.replies (fun _ => none) events =
        FixedWindow.replies (fun _ => 0) (Event.calls events) ∧
      ∀ before call after id, Event.calls events = before ++ call :: after →
        FixedWindow.counterId? call = some id →
        (Event.replies (fun _ => none) events)[before.length]? =
          some (FixedWindow.respond call (FixedWindow.countersAfter (fun _ => 0)
            (before.filter fun other => FixedWindow.counterId? other = some id) id)).1 := by
  have same := replies_eq lawful (Represents.empty clock) bounded
  refine ⟨same, ?_⟩
  intro before call after id split addressed
  rw [same, split, FixedWindow.replies_getElem?]
  simp only [FixedWindow.perform, addressed]
  rw [FixedWindow.countersAfter_filter before id (fun _ => 0) (fun _ => 0) rfl]

section Witness

/-- One default row: ten calls a minute. -/
def sampleRow : LimitRow := ⟨1, "search", "*", "query", 10, .minute⟩

def sampleResolve (key : LimitKey) : Resolved :=
  ((queryDb (some [sampleRow]) key).toOption).getD .unconfigured

def sampleCharge : Call :=
  ⟨0, 7, sampleResolve, .charge ⟨some ⟨"search", "acme|eu", "query"⟩, 0⟩⟩

def sampleUsage : Call :=
  ⟨120000000000, 0, sampleResolve, .getUsage ⟨some ⟨"search", "acme|eu", "query"⟩⟩⟩

/-- A charge, the loss of its counter at the deadline, and a usage request in a later window. -/
def sampleEvents : List Event :=
  [.call sampleCharge,
    .drop (counterKey ⟨"search", "acme|eu", "query"⟩ "197001010000") 72000000000,
    .call sampleUsage]

theorem sampleResolve_admitted {call : Call} (resolves : call.resolve = sampleResolve) :
    call.Admitted := by
  intro key cap resolved
  refine ⟨[sampleRow], by decide, ?_⟩
  rw [resolves, sampleResolve] at resolved
  cases queried : queryDb (some [sampleRow]) key with
  | error error => simp [queried, Except.toOption] at resolved
  | ok found =>
      simp only [queried, Except.toOption, Option.getD_some] at resolved
      rw [resolved]

theorem sampleResolve_limit {key : LimitKey} {cap : Cap}
    (resolved : sampleResolve key = .configured cap) : cap.limitValue < 2 ^ 53 := by
  simp only [sampleResolve, queryDb] at resolved
  split at resolved
  · simp only [Except.toOption, Option.getD_some, resolution] at resolved
    cases found : lookupRow [sampleRow] key with
    | none => simp [found] at resolved
    | some row =>
        have isSample := List.mem_singleton.mp (lookupRow_mem found).1
        simp only [found, isSample, Resolved.configured.injEq] at resolved
        rw [← resolved]
        decide
  · simp [Except.toOption] at resolved

theorem sampleEvents_lawful : Lawful 0 (fun _ => none) sampleEvents := by
  refine .call (by decide) (by decide) (sampleResolve_admitted rfl) ?_
  refine .drop (by decide) ⟨72000, by decide +kernel, by decide⟩ ?_
  exact .call (by decide) (by decide) (sampleResolve_admitted rfl) .nil

theorem sampleEvents_exact : ExactRun (fun _ => 0) (Event.calls sampleEvents) := by
  have charged : ∀ id, (FixedWindow.perform sampleCharge (fun _ => 0)).2 id = 0 ∨
      (FixedWindow.perform sampleCharge (fun _ => 0)).2 id = 1 := by
    intro id
    rw [FixedWindow.perform_apply]
    split
    · exact Or.inr (by decide)
    · exact Or.inl rfl
  have used : ∀ id, (FixedWindow.perform sampleUsage
      (FixedWindow.perform sampleCharge (fun _ => 0)).2).2 id < 2 ^ 53 := by
    intro id
    rw [FixedWindow.perform_apply]
    rcases charged id with value | value <;> rw [value] <;> split <;> decide
  constructor
  · intro call mem
    rcases List.mem_pair.mp mem with rfl | rfl
    · exact ⟨fun _ _ => sampleResolve_limit, (by decide : (0 : ℤ) < 2 ^ 53)⟩
    · exact ⟨fun _ _ => sampleResolve_limit, trivial⟩
  · intro before isPrefix id
    rcases List.prefix_cons_iff.mp isPrefix with rfl | ⟨tail, rfl, isTail⟩
    · exact (by decide : (0 : ℤ) < 2 ^ 53)
    · rcases List.prefix_cons_iff.mp isTail with rfl | ⟨_, rfl, isNil⟩
      · rcases charged id with value | value
        · exact value.trans_lt (by decide)
        · exact value.trans_lt (by decide)
      · rw [List.prefix_nil.mp isNil]
        exact used id

theorem enforcer_refines_fixedWindow_sample :
    Event.replies (fun _ => none) sampleEvents =
      [.charge (.ok ⟨9, 10, some 60000000000⟩),
        .getUsage (.ok ⟨0, 10, 10, some 180000000000, true⟩)] := by
  rw [(enforcer_refines_fixedWindow sampleEvents_lawful sampleEvents_exact).1]
  decide +kernel

end Witness

end RateLimiter.Enforcer
