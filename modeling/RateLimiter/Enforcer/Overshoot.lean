import Mathlib.Algebra.BigOperators.Fin
import Mathlib.Algebra.Order.BigOperators.Group.Finset
import Mathlib.Data.Fintype.Card
import Mathlib.Logic.Relation
import Mathlib.Tactic.Linarith
import RateLimiter.Enforcer.Service

/-!
# Overshoot is bounded by concurrency

A check reserves nothing, so several clients may be allowed the same remaining
quota. The clients of one configured key are interleaved at every point where
another script may run: a request samples its window first and its script
executes later, possibly after the window has closed. What a client may still
charge to the current window is its `pending` cost; the counter together with
all pending costs never exceeds the bound.
-/

namespace RateLimiter.Enforcer

open CivilTime Redis

/-- One configured key with a fixed limit, and the largest cost its clients use. -/
structure Contention where
  key : LimitKey
  cap : Cap
  period : Period
  maxCost : ℤ
  keySet : validateKey (some key) = .ok key
  units : period? cap.timeUnit = some period
  limitNonneg : 0 ≤ cap.limitValue
  maxCostPos : 1 ≤ maxCost

/-- Where a client stands in its check-then-charge loop. -/
inductive Phase where
  | idle
  /-- A check has sampled its window; its script has not run yet. -/
  | checking (cost sampledAt : ℤ)
  /-- The check was allowed and the charge is still to come. -/
  | allowed (cost : ℤ)
  /-- A charge has sampled its window; its script has not run yet. -/
  | charging (cost sampledAt : ℤ) (draw : ℕ)
deriving DecidableEq

structure World (ι : Type) where
  clock : ℤ
  keyspace : Keyspace
  phase : ι → Phase

namespace Contention

variable (contention : Contention)

def resolve (_ : LimitKey) : Resolved :=
  .configured contention.cap

def slot (instant : ℤ) : String :=
  counterKey contention.key (windowId instant contention.cap.timeUnit)

def check (cost sampledAt redisMillis : ℤ) : Keyspace →
    Except EnforcerError CheckQuotaResponse × Keyspace :=
  checkOne contention.resolve ⟨sampledAt, redisMillis, 0⟩ ⟨some contention.key, cost⟩

def charge (cost sampledAt redisMillis : ℤ) (draw : ℕ) : Keyspace →
    Except EnforcerError RemainingResponse × Keyspace :=
  chargeOne contention.resolve ⟨sampledAt, redisMillis, draw⟩ defaultGraceSecs
    ⟨some contention.key, cost⟩

def refund (amount sampledAt redisMillis : ℤ) : Keyspace →
    Except EnforcerError RemainingResponse × Keyspace :=
  refundOne contention.resolve ⟨sampledAt, redisMillis, 0⟩ ⟨some contention.key, amount⟩

/-- A client charges only after an answer that allows. -/
def afterCheck (cost : ℤ) : Except EnforcerError CheckQuotaResponse → Phase
  | .ok response => if response.allowed then .allowed cost else .idle
  | .error _ => .idle

variable {ι : Type} [DecidableEq ι]

/-- What can happen next. The clock of Redis is not related to the wall clock. -/
inductive Step : World ι → World ι → Prop where
  | tick {world : World ι} {clock : ℤ} (later : world.clock ≤ clock)
      (inRange : Representable clock) : Step world { world with clock := clock }
  | startCheck {world : World ι} (client : ι) (cost : ℤ) (idle : world.phase client = .idle)
      (atLeast : 1 ≤ cost) (atMost : cost ≤ contention.maxCost) :
      Step world { world with
        phase := Function.update world.phase client (.checking cost world.clock) }
  | finishCheck {world : World ι} (client : ι) (redisMillis : ℤ) {cost sampledAt : ℤ}
      (checking : world.phase client = .checking cost sampledAt) :
      Step world { world with
        keyspace := (contention.check cost sampledAt redisMillis world.keyspace).2
        phase := Function.update world.phase client
          (afterCheck cost (contention.check cost sampledAt redisMillis world.keyspace).1) }
  | startCharge {world : World ι} (client : ι) (draw : ℕ) {cost : ℤ}
      (allowed : world.phase client = .allowed cost) :
      Step world { world with
        phase := Function.update world.phase client (.charging cost world.clock draw) }
  | finishCharge {world : World ι} (client : ι) (redisMillis : ℤ) {cost sampledAt : ℤ}
      {draw : ℕ} (charging : world.phase client = .charging cost sampledAt draw) :
      Step world { world with
        keyspace := (contention.charge cost sampledAt redisMillis draw world.keyspace).2
        phase := Function.update world.phase client .idle }
  | refund {world : World ι} {amount sampledAt : ℤ} (redisMillis : ℤ)
      (sampled : sampledAt ≤ world.clock) (inRange : Representable sampledAt)
      (exactAmount : amount < 2 ^ 53) :
      Step world { world with
        keyspace := (contention.refund amount sampledAt redisMillis world.keyspace).2 }
  /-- Traffic on other keys, and keys of closed windows that are dropped. -/
  | elsewhere {world : World ι} {keyspace : Keyspace}
      (untouched : ∀ instant, world.clock ≤ instant →
        keyspace (contention.slot instant) = world.keyspace (contention.slot instant)) :
      Step world { world with keyspace := keyspace }

/-- Every client is idle and no window that is still open has a counter. -/
structure Initial (world : World ι) : Prop where
  inRange : Representable world.clock
  idle : ∀ client, world.phase client = .idle
  absent : ∀ instant, world.clock ≤ instant → world.keyspace (contention.slot instant) = none

def consumed (world : World ι) : ℤ :=
  counter world.keyspace (contention.slot world.clock)

/-- The most the counter of a window may reach. -/
def overshootBound (clients : ℕ) : ℤ :=
  max contention.cap.limitValue contention.maxCost + (clients - 1) * contention.maxCost

/-- What a client in this phase may still add to the window of `clock`. -/
def pending (clock : ℤ) : Phase → ℤ
  | .idle => 0
  | .checking cost sampledAt =>
      -- the answer of a check on the current window is still to be decided by the counter
      if contention.period.index sampledAt = contention.period.index clock then 0 else cost
  | .allowed cost => cost
  | .charging cost _ _ => cost

/-- The cost and the sampled instant of a phase are in range. -/
def PhaseOk (clock : ℤ) : Phase → Prop
  | .idle => True
  | .checking cost sampledAt =>
      (1 ≤ cost ∧ cost ≤ contention.maxCost) ∧ sampledAt ≤ clock ∧ Representable sampledAt
  | .allowed cost => 1 ≤ cost ∧ cost ≤ contention.maxCost
  | .charging cost sampledAt _ =>
      (1 ≤ cost ∧ cost ≤ contention.maxCost) ∧ sampledAt ≤ clock ∧ Representable sampledAt

structure Bounded [Fintype ι] (world : World ι) : Prop where
  inRange : Representable world.clock
  phases : ∀ client, contention.PhaseOk world.clock (world.phase client)
  nonneg : 0 ≤ contention.consumed world
  /-- No window that lies ahead has a counter. -/
  ahead : ∀ instant, world.clock ≤ instant →
    contention.period.index world.clock ≠ contention.period.index instant →
    world.keyspace (contention.slot instant) = none
  potential : contention.consumed world +
    ∑ client, contention.pending world.clock (world.phase client) ≤
      contention.overshootBound (Fintype.card ι)

theorem slot_eq_iff {first second : ℤ} :
    contention.slot first = contention.slot second ↔
      contention.period.index first = contention.period.index second := by
  constructor
  · intro equal
    apply index_eq_of_windowId_eq contention.units
    have lists := congrArg String.toList equal
    simp only [slot, toList_counterKey, List.append_cancel_left_eq, List.cons.injEq,
      true_and] at lists
    exact String.toList_inj.mp lists
  · intro same
    simp only [slot, windowId_congr contention.units same]

theorem pending_bounds {clock : ℤ} {phase : Phase} (ok : contention.PhaseOk clock phase) :
    0 ≤ contention.pending clock phase ∧
      contention.pending clock phase ≤ contention.maxCost := by
  have positive := contention.maxCostPos
  cases phase with
  | idle => exact ⟨Int.le_refl 0, by simp only [pending]; omega⟩
  | checking cost sampledAt =>
      rcases ok with ⟨⟨lower, upper⟩, _⟩
      simp only [pending]
      split <;> omega
  | allowed cost => exact ⟨by simp only [pending]; have := ok.1; omega, ok.2⟩
  | charging cost sampledAt draw =>
      exact ⟨by simp only [pending]; have := ok.1.1; omega, ok.1.2⟩

theorem afterCheck_cases (cost : ℤ) (result : Except EnforcerError CheckQuotaResponse) :
    afterCheck cost result = .allowed cost ∨ afterCheck cost result = .idle := by
  simp only [afterCheck]
  split
  · split
    · exact Or.inl rfl
    · exact Or.inr rfl
  · exact Or.inr rfl

section Operations

variable {keyspace : Keyspace} {cost amount sampledAt redisMillis : ℤ} {draw : ℕ}

/-- A check on the counter of its window allows only what still fits. -/
theorem afterCheck_check (inRange : Representable sampledAt) (positive : 1 ≤ cost)
    (limitLt : contention.cap.limitValue < 2 ^ 53) (costLt : cost < 2 ^ 53)
    (nonneg : 0 ≤ counter keyspace (contention.slot sampledAt))
    (counterLt : counter keyspace (contention.slot sampledAt) < 2 ^ 53) :
    afterCheck cost (contention.check cost sampledAt redisMillis keyspace).1 =
      if counter keyspace (contention.slot sampledAt) + cost ≤ contention.cap.limitValue then
        .allowed cost
      else .idle := by
  have checked : contention.check cost sampledAt redisMillis keyspace = _ :=
    checkOne_eq ⟨sampledAt, redisMillis, 0⟩ inRange rfl contention.units contention.limitNonneg
      limitLt nonneg contention.keySet (normalizeCost_of_pos positive) costLt counterLt
  simp only [checked, afterCheck, decide_eq_true_eq, slot]
  rfl

theorem counter_charge (inRange : Representable sampledAt) (positive : 1 ≤ cost)
    (limitLt : contention.cap.limitValue < 2 ^ 53) (costLt : cost < 2 ^ 53)
    (nonneg : 0 ≤ counter keyspace (contention.slot sampledAt))
    (sumLt : counter keyspace (contention.slot sampledAt) + cost < 2 ^ 53) :
    counter (contention.charge cost sampledAt redisMillis draw keyspace).2
        (contention.slot sampledAt) =
      counter keyspace (contention.slot sampledAt) + cost := by
  have charged : contention.charge cost sampledAt redisMillis draw keyspace = _ :=
    chargeOne_eq ⟨sampledAt, redisMillis, draw⟩ inRange rfl contention.units
      contention.limitNonneg limitLt nonneg contention.keySet (normalizeCost_of_pos positive)
      costLt sumLt
  rw [charged]
  exact counter_update_self _ _ _

/-- A refund takes its amount off the counter of its window, down to zero; a negative amount is
rejected and takes nothing. -/
theorem counter_refund (inRange : Representable sampledAt)
    (limitLt : contention.cap.limitValue < 2 ^ 53) (amountLt : amount < 2 ^ 53)
    (nonneg : 0 ≤ counter keyspace (contention.slot sampledAt))
    (counterLt : counter keyspace (contention.slot sampledAt) < 2 ^ 53) :
    counter (contention.refund amount sampledAt redisMillis keyspace).2
        (contention.slot sampledAt) =
      max (counter keyspace (contention.slot sampledAt) - max amount 0) 0 := by
  by_cases negative : amount < 0
  · have rejected : contention.refund amount sampledAt redisMillis keyspace =
        (.error (.invalidArgument "amount must be >= 0"), keyspace) := by
      simp only [refund, refundOne, contention.keySet, validateAmount, negative, if_true]
    rw [rejected]
    dsimp only
    omega
  · have validAmount : validateAmount amount = .ok amount := by
      simp only [validateAmount, negative, if_false]
    have refunded : contention.refund amount sampledAt redisMillis keyspace = _ :=
      refundOne_eq ⟨sampledAt, redisMillis, 0⟩ inRange rfl contention.units
        contention.limitNonneg limitLt nonneg contention.keySet validAmount amountLt counterLt
    rw [refunded]
    have written : ∀ entry : Entry, counter (Function.update keyspace
        (contention.slot sampledAt) (some entry)) (contention.slot sampledAt) = entry.value :=
      counter_update_self _ _
    simp only [slot] at written ⊢
    rw [written]
    dsimp only
    omega

theorem charge_apply_of_ne (inRange : Representable sampledAt) {other : String}
    (different : other ≠ contention.slot sampledAt) :
    (contention.charge cost sampledAt redisMillis draw keyspace).2 other = keyspace other :=
  @chargeOne_confined contention.resolve ⟨sampledAt, redisMillis, draw⟩ _ _ _ _ _ _ _ inRange rfl
    contention.units contention.keySet different

theorem refund_apply_of_ne (inRange : Representable sampledAt) {other : String}
    (different : other ≠ contention.slot sampledAt) :
    (contention.refund amount sampledAt redisMillis keyspace).2 other = keyspace other :=
  @refundOne_confined contention.resolve ⟨sampledAt, redisMillis, 0⟩ _ _ _ _ _ _ inRange rfl
    contention.units contention.keySet different

theorem check_readOnly :
    (contention.check cost sampledAt redisMillis keyspace).2 = keyspace :=
  checkOne_readOnly _ _ _ _

end Operations

theorem index_ne_of_ahead {clock sampledAt instant : ℤ} (sampled : sampledAt ≤ clock)
    (after : clock ≤ instant)
    (isAhead : contention.period.index clock ≠ contention.period.index instant) :
    contention.slot instant ≠ contention.slot sampledAt := by
  have := contention.period.index_mono sampled
  have := contention.period.index_mono after
  rw [ne_eq, slot_eq_iff]
  omega

theorem pending_congr {first second : ℤ} (phase : Phase)
    (same : contention.period.index first = contention.period.index second) :
    contention.pending first phase = contention.pending second phase := by
  cases phase <;> simp only [pending, same]

theorem PhaseOk.mono {contention : Contention} {first second : ℤ} {phase : Phase}
    (ok : contention.PhaseOk first phase) (later : first ≤ second) :
    contention.PhaseOk second phase := by
  cases phase with
  | idle => trivial
  | checking cost sampledAt => exact ⟨ok.1, ok.2.1.trans later, ok.2.2⟩
  | allowed cost => exact ok
  | charging cost sampledAt draw => exact ⟨ok.1, ok.2.1.trans later, ok.2.2⟩

section Potential

variable [Fintype ι] {clock : ℤ} {phase : ι → Phase}

/-- What the clients but one may still add. -/
def pendingOthers (clock : ℤ) (phase : ι → Phase) (client : ι) : ℤ :=
  ∑ other ∈ Finset.univ.erase client, contention.pending clock (phase other)

theorem sum_pending (clock : ℤ) (phase : ι → Phase) (client : ι) :
    ∑ other, contention.pending clock (phase other) =
      contention.pending clock (phase client) + contention.pendingOthers clock phase client :=
  (Finset.add_sum_erase _ _ (Finset.mem_univ client)).symm

theorem sum_pending_update (clock : ℤ) (phase : ι → Phase) (client : ι) (next : Phase) :
    ∑ other, contention.pending clock (Function.update phase client next other) =
      contention.pending clock next + contention.pendingOthers clock phase client := by
  rw [contention.sum_pending clock _ client, Function.update_self]
  refine congrArg (contention.pending clock next + ·) (Finset.sum_congr rfl ?_)
  intro other mem
  rw [Function.update_of_ne (Finset.ne_of_mem_erase mem)]

theorem pendingOthers_nonneg (phases : ∀ client, contention.PhaseOk clock (phase client))
    (client : ι) : 0 ≤ contention.pendingOthers clock phase client :=
  Finset.sum_nonneg fun other _ => (contention.pending_bounds (phases other)).1

theorem pendingOthers_le (phases : ∀ client, contention.PhaseOk clock (phase client))
    (client : ι) : contention.pendingOthers clock phase client ≤
      (Fintype.card ι - 1) * contention.maxCost := by
  have each := Finset.sum_le_card_nsmul (Finset.univ.erase client)
    (fun other => contention.pending clock (phase other)) contention.maxCost
    fun other _ => (contention.pending_bounds (phases other)).2
  have inhabited : 1 ≤ Fintype.card ι := Fintype.card_pos_iff.mpr ⟨client⟩
  rw [Finset.card_erase_of_mem (Finset.mem_univ client), Finset.card_univ, nsmul_eq_mul,
    Nat.cast_sub inhabited, Nat.cast_one] at each
  exact each

/-- All clients together may add no more than the bound to an empty window. -/
theorem sum_pending_le [Nonempty ι]
    (phases : ∀ client, contention.PhaseOk clock (phase client)) :
    ∑ client, contention.pending clock (phase client) ≤
      contention.overshootBound (Fintype.card ι) := by
  rcases ‹Nonempty ι› with ⟨client⟩
  have one := (contention.pending_bounds (phases client)).2
  have others := contention.pendingOthers_le phases client
  have := le_max_right contention.cap.limitValue contention.maxCost
  rw [contention.sum_pending clock phase client, overshootBound]
  omega

omit [DecidableEq ι] in
theorem max_le_overshootBound [Nonempty ι] :
    contention.cap.limitValue ≤ contention.overshootBound (Fintype.card ι) ∧
      contention.maxCost ≤ contention.overshootBound (Fintype.card ι) := by
  have inhabited : (1 : ℤ) ≤ Fintype.card ι := by
    exact_mod_cast Fintype.card_pos_iff.mpr ‹Nonempty ι›
  have positive := contention.maxCostPos
  have extra : 0 ≤ ((Fintype.card ι : ℤ) - 1) * contention.maxCost :=
    mul_nonneg (by omega) (by omega)
  have := le_max_left contention.cap.limitValue contention.maxCost
  have := le_max_right contention.cap.limitValue contention.maxCost
  rw [overshootBound]
  exact ⟨by omega, by omega⟩

end Potential

namespace Bounded

variable {contention} [Fintype ι] [Nonempty ι] {world : World ι}

omit [Nonempty ι] in
/-- A client moves to another phase while the counters of open windows change. -/
theorem move {keyspace : Keyspace} {client : ι} {next : Phase}
    (bounded : contention.Bounded world) (ok : contention.PhaseOk world.clock next)
    (nonneg : 0 ≤ counter keyspace (contention.slot world.clock))
    (ahead : ∀ instant, world.clock ≤ instant →
      contention.period.index world.clock ≠ contention.period.index instant →
      keyspace (contention.slot instant) = world.keyspace (contention.slot instant))
    (potential : counter keyspace (contention.slot world.clock) +
        (contention.pending world.clock next +
          contention.pendingOthers world.clock world.phase client) ≤
      contention.overshootBound (Fintype.card ι)) :
    contention.Bounded
      { world with keyspace := keyspace, phase := Function.update world.phase client next } where
  inRange := bounded.inRange
  phases := by
    intro other
    by_cases same : other = client
    · subst other
      simp only [Function.update_self]
      exact ok
    · simp only [Function.update_of_ne same]
      exact bounded.phases other
  nonneg := nonneg
  ahead instant after isAhead :=
    (ahead instant after isAhead).trans (bounded.ahead instant after isAhead)
  potential := by
    rw [← contention.sum_pending_update] at potential
    exact potential

omit [DecidableEq ι] [Nonempty ι] in
/-- The counters of open windows change while every client keeps its phase. -/
theorem settle {keyspace : Keyspace} (bounded : contention.Bounded world)
    (nonneg : 0 ≤ counter keyspace (contention.slot world.clock))
    (le : counter keyspace (contention.slot world.clock) ≤ contention.consumed world)
    (ahead : ∀ instant, world.clock ≤ instant →
      contention.period.index world.clock ≠ contention.period.index instant →
      keyspace (contention.slot instant) = world.keyspace (contention.slot instant)) :
    contention.Bounded { world with keyspace := keyspace } where
  inRange := bounded.inRange
  phases := bounded.phases
  nonneg := nonneg
  ahead instant after isAhead :=
    (ahead instant after isAhead).trans (bounded.ahead instant after isAhead)
  potential := by
    refine le_trans ?_ bounded.potential
    exact add_le_add_left le _

omit [DecidableEq ι] in
theorem initial (start : contention.Initial world) : contention.Bounded world where
  inRange := start.inRange
  phases client := by
    rw [start.idle client]
    trivial
  nonneg := by
    simp only [consumed, counter, start.absent world.clock (Int.le_refl _)]
    exact Int.le_refl 0
  ahead instant after _ := start.absent instant after
  potential := by
    have absent := start.absent world.clock (Int.le_refl _)
    have positive := contention.maxCostPos
    have := (contention.max_le_overshootBound (ι := ι)).2
    simp only [consumed, counter, absent, start.idle, pending, Finset.sum_const_zero]
    simp only [Option.map_none, Option.getD_none]
    omega

omit [Nonempty ι] in
/-- A pending cost is added to the counter, so the potential bounds every sum of the two. -/
theorem consumed_add_pending_le (bounded : contention.Bounded world) (client : ι) :
    contention.consumed world + contention.pending world.clock (world.phase client) +
        contention.pendingOthers world.clock world.phase client ≤
      contention.overshootBound (Fintype.card ι) := by
  have potential := bounded.potential
  rw [contention.sum_pending world.clock world.phase client] at potential
  omega

/-- When the window rolls over, the new counter is absent and all that is pending fits. -/
theorem tick {clock : ℤ} (bounded : contention.Bounded world) (later : world.clock ≤ clock)
    (inRange : Representable clock) : contention.Bounded { world with clock := clock } := by
  have phases : ∀ client, contention.PhaseOk clock (world.phase client) :=
    fun client => (bounded.phases client).mono later
  have mono := contention.period.index_mono later
  have ahead : ∀ instant, clock ≤ instant →
      contention.period.index clock ≠ contention.period.index instant →
      world.keyspace (contention.slot instant) = none := by
    intro instant after isAhead
    have := contention.period.index_mono after
    exact bounded.ahead instant (later.trans after) (by omega)
  by_cases same : contention.period.index world.clock = contention.period.index clock
  · have sameSlot := contention.slot_eq_iff.mpr same
    refine ⟨inRange, phases, ?_, ahead, ?_⟩
    · have nonneg := bounded.nonneg
      simp only [consumed, sameSlot] at nonneg
      exact nonneg
    · have potential := bounded.potential
      simp only [consumed, sameSlot, contention.pending_congr _ same] at potential
      exact potential
  · have absent := bounded.ahead clock later same
    have empty : counter world.keyspace (contention.slot clock) = 0 := by
      simp only [counter, absent, Option.map_none, Option.getD_none]
    refine ⟨inRange, phases, empty.ge, ahead, ?_⟩
    simp only [consumed, empty, zero_add]
    exact contention.sum_pending_le phases

section Exact

variable (boundLt : contention.overshootBound (Fintype.card ι) < 2 ^ 53)
include boundLt

theorem finishCheck {client : ι} {cost sampledAt redisMillis : ℤ}
    (bounded : contention.Bounded world)
    (checking : world.phase client = .checking cost sampledAt) :
    contention.Bounded { world with
      keyspace := (contention.check cost sampledAt redisMillis world.keyspace).2
      phase := Function.update world.phase client
        (afterCheck cost (contention.check cost sampledAt redisMillis world.keyspace).1) } := by
  have phase := bounded.phases client
  have total := bounded.consumed_add_pending_le client
  have others := contention.pendingOthers_le bounded.phases client
  have othersNonneg := contention.pendingOthers_nonneg bounded.phases client
  have fits := contention.max_le_overshootBound (ι := ι)
  have nonneg := bounded.nonneg
  rw [checking] at phase total
  rcases phase with ⟨⟨positive, atMost⟩, sampled, inRange⟩
  rw [check_readOnly]
  by_cases same : contention.period.index sampledAt = contention.period.index world.clock
  · -- the counter of the current window decides
    have sameSlot := contention.slot_eq_iff.mpr same
    simp only [pending, same, if_true, consumed, ← sameSlot] at total nonneg
    rw [contention.afterCheck_check inRange positive (by omega) (by omega) nonneg (by omega)]
    split
    · rename_i allowed
      refine bounded.move ⟨positive, atMost⟩ bounded.nonneg (fun _ _ _ => rfl) ?_
      have := le_max_left contention.cap.limitValue contention.maxCost
      simp only [pending, ← sameSlot, overshootBound]
      omega
    · refine bounded.move trivial bounded.nonneg (fun _ _ _ => rfl) ?_
      simp only [pending, ← sameSlot]
      omega
  · -- a stale answer adds nothing to what was already pending
    simp only [pending, same, if_false, consumed] at total
    rcases afterCheck_cases cost
      (contention.check cost sampledAt redisMillis world.keyspace).1 with allowed | idle
    · rw [allowed]
      refine bounded.move ⟨positive, atMost⟩ bounded.nonneg (fun _ _ _ => rfl) ?_
      simp only [pending]
      omega
    · rw [idle]
      refine bounded.move trivial bounded.nonneg (fun _ _ _ => rfl) ?_
      simp only [pending]
      omega

theorem finishCharge {client : ι} {cost sampledAt redisMillis : ℤ} {draw : ℕ}
    (bounded : contention.Bounded world)
    (charging : world.phase client = .charging cost sampledAt draw) :
    contention.Bounded { world with
      keyspace := (contention.charge cost sampledAt redisMillis draw world.keyspace).2
      phase := Function.update world.phase client .idle } := by
  have phase := bounded.phases client
  have total := bounded.consumed_add_pending_le client
  have othersNonneg := contention.pendingOthers_nonneg bounded.phases client
  have fits := contention.max_le_overshootBound (ι := ι)
  have nonneg := bounded.nonneg
  rw [charging] at phase total
  rcases phase with ⟨⟨positive, atMost⟩, sampled, inRange⟩
  simp only [pending, consumed] at total nonneg
  have ahead : ∀ instant, world.clock ≤ instant →
      contention.period.index world.clock ≠ contention.period.index instant →
      (contention.charge cost sampledAt redisMillis draw world.keyspace).2
        (contention.slot instant) = world.keyspace (contention.slot instant) :=
    fun instant after isAhead => contention.charge_apply_of_ne inRange
      (contention.index_ne_of_ahead sampled after isAhead)
  by_cases same : contention.period.index sampledAt = contention.period.index world.clock
  · have sameSlot := contention.slot_eq_iff.mpr same
    rw [← sameSlot] at total nonneg
    have charged := @counter_charge contention world.keyspace cost sampledAt redisMillis draw
      inRange positive (by omega) (by omega) nonneg (by omega)
    refine bounded.move trivial ?_ ahead ?_
    · rw [← sameSlot, charged]
      omega
    · rw [← sameSlot, charged]
      simp only [pending]
      omega
  · have kept : counter (contention.charge cost sampledAt redisMillis draw world.keyspace).2
        (contention.slot world.clock) = counter world.keyspace (contention.slot world.clock) :=
      counter_congr (contention.charge_apply_of_ne inRange
        (mt contention.slot_eq_iff.mp (Ne.symm same)))
    refine bounded.move trivial ?_ ahead ?_
    · rw [kept]
      exact nonneg
    · rw [kept]
      simp only [pending]
      omega

omit [DecidableEq ι] in
theorem refund {amount sampledAt redisMillis : ℤ} (bounded : contention.Bounded world)
    (sampled : sampledAt ≤ world.clock) (inRange : Representable sampledAt)
    (exactAmount : amount < 2 ^ 53) :
    contention.Bounded { world with
      keyspace := (contention.refund amount sampledAt redisMillis world.keyspace).2 } := by
  have fits := contention.max_le_overshootBound (ι := ι)
  have nonneg := bounded.nonneg
  have ahead : ∀ instant, world.clock ≤ instant →
      contention.period.index world.clock ≠ contention.period.index instant →
      (contention.refund amount sampledAt redisMillis world.keyspace).2
        (contention.slot instant) = world.keyspace (contention.slot instant) :=
    fun instant after isAhead => contention.refund_apply_of_ne inRange
      (contention.index_ne_of_ahead sampled after isAhead)
  by_cases same : contention.period.index sampledAt = contention.period.index world.clock
  · have sameSlot := contention.slot_eq_iff.mpr same
    have consumedLt : contention.consumed world < 2 ^ 53 := by
      have := bounded.potential
      have := Finset.sum_nonneg fun client (_ : client ∈ Finset.univ) =>
        (contention.pending_bounds (bounded.phases client)).1
      omega
    simp only [consumed, ← sameSlot] at nonneg consumedLt
    have refunded := @counter_refund contention world.keyspace amount sampledAt redisMillis
      inRange (by omega) exactAmount nonneg consumedLt
    refine bounded.settle ?_ ?_ ahead
    · rw [← sameSlot, refunded]
      exact le_max_right _ _
    · rw [consumed, ← sameSlot, refunded]
      omega
  · have kept : counter (contention.refund amount sampledAt redisMillis world.keyspace).2
        (contention.slot world.clock) = counter world.keyspace (contention.slot world.clock) :=
      counter_congr (contention.refund_apply_of_ne inRange
        (mt contention.slot_eq_iff.mp (Ne.symm same)))
    exact bounded.settle (kept.symm ▸ nonneg) kept.le ahead

theorem step {next : World ι} (bounded : contention.Bounded world)
    (taken : contention.Step world next) : contention.Bounded next := by
  cases taken with
  | tick later inRange => exact bounded.tick later inRange
  | startCheck client cost idle atLeast atMost =>
      have total := bounded.consumed_add_pending_le client
      rw [idle] at total
      refine bounded.move ⟨⟨atLeast, atMost⟩, Int.le_refl _, bounded.inRange⟩ bounded.nonneg
        (fun _ _ _ => rfl) ?_
      simp only [pending, if_true, consumed] at total ⊢
      omega
  | finishCheck client redisMillis checking => exact bounded.finishCheck boundLt checking
  | startCharge client draw allowed =>
      have phase := bounded.phases client
      have total := bounded.consumed_add_pending_le client
      rw [allowed] at phase total
      refine bounded.move ⟨phase, Int.le_refl _, bounded.inRange⟩ bounded.nonneg
        (fun _ _ _ => rfl) ?_
      simp only [pending, consumed] at total ⊢
      omega
  | finishCharge client redisMillis charging => exact bounded.finishCharge boundLt charging
  | refund redisMillis sampled inRange exactAmount =>
      exact bounded.refund boundLt sampled inRange exactAmount
  | elsewhere untouched =>
      have current : counter _ (contention.slot world.clock) = contention.consumed world :=
        counter_congr (untouched world.clock (Int.le_refl _))
      exact bounded.settle (current.symm ▸ bounded.nonneg) current.le
        fun instant after _ => untouched instant after

theorem run {start : World ι} (bounded : contention.Bounded start)
    (reached : Relation.ReflTransGen contention.Step start world) :
    contention.Bounded world := by
  induction reached with
  | refl => exact bounded
  | tail _ taken ih => exact ih.step boundLt taken

end Exact

end Bounded

/-- In every reachable state the counter of the current window stays below the limit, or the
largest cost, plus one cost for every other client. -/
theorem consumed_le_overshootBound [Fintype ι] [Nonempty ι] {start world : World ι}
    (initial : contention.Initial start)
    (reached : Relation.ReflTransGen contention.Step start world)
    (exactCounter : contention.consumed world < 2 ^ 53) :
    contention.consumed world ≤
      max contention.cap.limitValue contention.maxCost +
        (Fintype.card ι - 1) * contention.maxCost := by
  by_cases boundLt : contention.overshootBound (Fintype.card ι) < 2 ^ 53
  · have bounded := (Bounded.initial initial).run boundLt reached
    have pendingNonneg := Finset.sum_nonneg fun client (_ : client ∈ Finset.univ) =>
      (contention.pending_bounds (bounded.phases client)).1
    have potential := bounded.potential
    rw [overshootBound] at potential
    omega
  · rw [overshootBound] at boundLt
    omega

/-- Two clients of a limit of one call a minute. -/
def pair : Contention where
  key := ⟨"search", "acme", "query"⟩
  cap := ⟨1, .minute⟩
  period := .minute
  maxCost := 1
  keySet := by decide
  units := rfl
  limitNonneg := by decide
  maxCostPos := by decide

def pairStart : World (Fin 2) := ⟨0, fun _ => none, fun _ => .idle⟩

/-- Both clients are allowed the one remaining call, so the bound is reached. -/
theorem consumed_le_overshootBound_pair :
    ∃ world, Relation.ReflTransGen pair.Step pairStart world ∧ pair.consumed world = 2 ∧
      pair.consumed world ≤ max 1 1 + (Fintype.card (Fin 2) - 1) * 1 := by
  have bothChecking := (Relation.ReflTransGen.refl (r := pair.Step)).tail
      (Step.startCheck 0 1 rfl (by decide) (by decide) : pair.Step pairStart _)
    |>.tail (.startCheck 1 1 rfl (by decide) (by decide))
  have bothAllowed := bothChecking.tail (.finishCheck 0 0 rfl) |>.tail (.finishCheck 1 0 rfl)
  have bothCharging := bothAllowed.tail (.startCharge 0 0 (by decide +kernel : _ = Phase.allowed 1))
    |>.tail (.startCharge 1 0 (by decide +kernel : _ = Phase.allowed 1))
  have reached := bothCharging.tail (.finishCharge 0 0 rfl) |>.tail (.finishCharge 1 0 rfl)
  refine ⟨_, reached, by decide +kernel, ?_⟩
  exact consumed_le_overshootBound pair ⟨by decide, fun _ => rfl, fun _ _ => rfl⟩ reached
    (by decide +kernel)

end Contention

end RateLimiter.Enforcer
