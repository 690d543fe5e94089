import RateLimiter.Enforcer.Overshoot

/-!
# What can be charged in a short time

A counter says what is left of one window, not what was charged: charges may
run after their window has closed, and an interval may lie across a boundary.
The ledger records every charge and every refund under the instant at which it
sampled its window. In any interval no longer than the shortest window, the
clients charge at most twice the overshoot bound, apart from what is refunded.
-/

namespace CivilTime.Period

/-- A length that no window of the period falls short of. -/
def shortest : Period → ℤ
  | .minute => 60000000000
  | .day => 86400000000000
  | .month => 28 * 86400000000000

theorem shortest_le_length (period : Period) (instant : ℤ) :
    period.shortest ≤ period.length instant := by
  cases period with
  | minute => exact Int.le_refl _
  | day => exact Int.le_refl _
  | month =>
      have days : 28 ≤ Gregorian.daysInMonth (date instant).year (date instant).month := by
        have := Gregorian.leapDay_nonneg (date instant).year
        have pos := (date instant).month_pos
        have le := (date instant).month_le
        generalize (date instant).month = month at pos le
        interval_cases month <;> simp only [Gregorian.daysInMonth] <;> omega
      simp only [shortest, length]
      omega

/-- An interval no longer than the shortest window meets two windows at most. -/
theorem index_of_short (period : Period) {first last instant : ℤ}
    (short : last ≤ first + period.shortest) (after : first ≤ instant) (before : instant ≤ last) :
    period.index instant = period.index first ∨
      period.index instant = period.index (period.finish first) := by
  by_cases within : instant < period.finish first
  · left
    have := period.start_le first
    exact period.index_eq_iff.mpr ⟨by omega, within⟩
  · right
    have := period.lt_finish first
    have := period.shortest_le_length (period.finish first)
    have := period.finish_sub_start (period.finish first)
    have := period.start_finish first
    exact period.index_eq_iff.mpr ⟨by omega, by omega⟩

end CivilTime.Period

namespace RateLimiter.Enforcer

open CivilTime Redis

/-- A charge or a refund that ran, under the instant at which it sampled its window. -/
structure Posting where
  sampledAt : ℤ
  amount : ℤ

/-- The clients with what they have charged and refunded so far. -/
structure Ledger (ι : Type) where
  world : World ι
  charges : List Posting
  refunds : List Posting

namespace Contention

variable (contention : Contention) {ι : Type} [DecidableEq ι]

/-- The sum of the postings that are selected. -/
def total (selects : Posting → Bool) (postings : List Posting) : ℤ :=
  ((postings.filter selects).map Posting.amount).sum

def inWindow (window : ℤ) (posting : Posting) : Bool :=
  contention.period.index posting.sampledAt = window

/-- A step of the clients, entered in the ledger. -/
inductive Entry : Ledger ι → Ledger ι → Prop where
  | charge {ledger : Ledger ι} (client : ι) (redisMillis : ℤ) {cost sampledAt : ℤ} {draw : ℕ}
      (charging : ledger.world.phase client = .charging cost sampledAt draw) :
      Entry ledger { ledger with
        world := { ledger.world with
          keyspace := (contention.charge cost sampledAt redisMillis draw ledger.world.keyspace).2
          phase := Function.update ledger.world.phase client .idle }
        charges := ledger.charges ++ [⟨sampledAt, cost⟩] }
  | refund {ledger : Ledger ι} {amount sampledAt : ℤ} (redisMillis : ℤ)
      (sampled : sampledAt ≤ ledger.world.clock) (inRange : Representable sampledAt)
      (exactAmount : amount < 2 ^ 53) :
      Entry ledger { ledger with
        world := { ledger.world with
          keyspace := (contention.refund amount sampledAt redisMillis ledger.world.keyspace).2 }
        refunds := ledger.refunds ++ [⟨sampledAt, max amount 0⟩] }
  /-- Nobody's charge runs, and the counters of open windows stay. -/
  | other {ledger : Ledger ι} {next : World ι} (taken : contention.Step ledger.world next)
      (unfinished : ∀ client cost sampledAt draw,
        ledger.world.phase client = .charging cost sampledAt draw →
        next.phase client = .charging cost sampledAt draw)
      (untouched : ∀ instant, ledger.world.clock ≤ instant →
        counter next.keyspace (contention.slot instant) =
          counter ledger.world.keyspace (contention.slot instant)) :
      Entry ledger { ledger with world := next }

/-- What a client may still charge to a window that has closed. -/
def late (window : ℤ) : Phase → ℤ
  | .charging cost sampledAt _ =>
      if contention.period.index sampledAt = window then cost else 0
  | _ => 0

/-- No window was charged more than the bound and what was refunded to it. -/
structure Accounted [Fintype ι] (ledger : Ledger ι) : Prop where
  bounded : contention.Bounded ledger.world
  charges : ∀ posting ∈ ledger.charges,
    posting.sampledAt ≤ ledger.world.clock ∧ 0 ≤ posting.amount
  refunds : ∀ posting ∈ ledger.refunds, 0 ≤ posting.amount
  current : total (contention.inWindow (contention.period.index ledger.world.clock))
      ledger.charges ≤
    contention.consumed ledger.world +
      total (contention.inWindow (contention.period.index ledger.world.clock)) ledger.refunds
  closed : ∀ window < contention.period.index ledger.world.clock,
    total (contention.inWindow window) ledger.charges +
        ∑ client, contention.late window (ledger.world.phase client) ≤
      contention.overshootBound (Fintype.card ι) +
        total (contention.inWindow window) ledger.refunds

section Totals

theorem total_append (selects : Posting → Bool) (postings : List Posting) (posting : Posting) :
    total selects (postings ++ [posting]) =
      total selects postings + if selects posting then posting.amount else 0 := by
  by_cases selected : selects posting = true
  · simp [total, List.filter_append, selected]
  · simp [total, List.filter_append, selected]

theorem total_nonneg {selects : Posting → Bool} {postings : List Posting}
    (nonneg : ∀ posting ∈ postings, 0 ≤ posting.amount) : 0 ≤ total selects postings := by
  apply List.sum_nonneg
  intro amount mem
  rcases List.mem_map.mp mem with ⟨posting, isPosting, rfl⟩
  exact nonneg posting (List.mem_of_mem_filter isPosting)

theorem total_eq_zero {selects : Posting → Bool} {postings : List Posting}
    (none : ∀ posting ∈ postings, selects posting = false) : total selects postings = 0 := by
  have empty : postings.filter selects = [] := by
    apply List.filter_eq_nil_iff.mpr
    intro posting mem
    simp [none posting mem]
  simp [total, empty]

/-- What is selected belongs to one of two other selections. -/
theorem total_le_add {selects first second : Posting → Bool} {postings : List Posting}
    (nonneg : ∀ posting ∈ postings, 0 ≤ posting.amount)
    (covers : ∀ posting, selects posting = true → first posting = true ∨ second posting = true) :
    total selects postings ≤ total first postings + total second postings := by
  induction postings using List.reverseRecOn with
  | nil => simp [total]
  | append_singleton before posting ih =>
      have earlier := ih fun other mem => nonneg other (List.mem_append_left _ mem)
      have amount := nonneg posting (by simp)
      have cover := covers posting
      rw [total_append, total_append, total_append]
      cases isSelected : selects posting <;> cases isFirst : first posting <;>
        cases isSecond : second posting <;> simp [isSelected, isFirst, isSecond] at cover ⊢ <;>
        omega

end Totals

/-- Every step of the clients can be entered. -/
theorem exists_entry {ledger : Ledger ι} {next : World ι}
    (taken : contention.Step ledger.world next) :
    ∃ after, contention.Entry ledger after ∧ after.world = next := by
  have moved : ∀ (client : ι) (phase : Phase),
      (∀ cost sampledAt draw, ledger.world.phase client ≠ .charging cost sampledAt draw) →
      ∀ other cost sampledAt draw, ledger.world.phase other = .charging cost sampledAt draw →
        Function.update ledger.world.phase client phase other =
          .charging cost sampledAt draw := by
    intro client phase notCharging other cost sampledAt draw charging
    by_cases same : other = client
    · exact absurd (same ▸ charging) (notCharging cost sampledAt draw)
    · rw [Function.update_of_ne same]
      exact charging
  cases taken with
  | tick later inRange =>
      exact ⟨_, .other (.tick later inRange) (fun _ _ _ _ same => same) (fun _ _ => rfl), rfl⟩
  | startCheck client cost idle atLeast atMost =>
      refine ⟨_, .other (.startCheck client cost idle atLeast atMost) ?_ (fun _ _ => rfl), rfl⟩
      exact moved client _ (by simp [idle])
  | finishCheck client redisMillis checking =>
      refine ⟨_, .other (.finishCheck client redisMillis checking) ?_ ?_, rfl⟩
      · exact moved client _ (by simp [checking])
      · intro instant _
        rw [check_readOnly]
  | startCharge client draw allowed =>
      refine ⟨_, .other (.startCharge client draw allowed) ?_ (fun _ _ => rfl), rfl⟩
      exact moved client _ (by simp [allowed])
  | finishCharge client redisMillis charging =>
      exact ⟨_, .charge client redisMillis charging, rfl⟩
  | refund redisMillis sampled inRange exactAmount =>
      exact ⟨_, .refund redisMillis sampled inRange exactAmount, rfl⟩
  | elsewhere untouched =>
      refine ⟨_, .other (.elsewhere untouched) (fun _ _ _ _ same => same) ?_, rfl⟩
      exact fun instant after => counter_congr (untouched instant after)

section Late

variable {contention} {world next : World ι} {clock window : ℤ}

theorem late_bounds (window : ℤ) {phase : Phase} (ok : contention.PhaseOk clock phase) :
    0 ≤ contention.late window phase ∧
      contention.late window phase ≤ contention.pending clock phase := by
  have bounds := contention.pending_bounds ok
  cases phase with
  | charging cost sampledAt draw =>
      have positive := ok.1.1
      simp only [late, pending]
      split <;> omega
  | _ => exact ⟨Int.le_refl _, bounds.1⟩

/-- A charge that is late was sampled before. -/
theorem late_eq_zero {phase : Phase} (ok : contention.PhaseOk clock phase)
    (ahead : contention.period.index clock < window) : contention.late window phase = 0 := by
  cases phase with
  | charging cost sampledAt draw =>
      have := contention.period.index_mono ok.2.1
      have other : contention.period.index sampledAt ≠ window := by omega
      simp only [late, other, if_false]
  | _ => rfl

/-- No step makes more charges late for a window that has closed. -/
theorem late_step (taken : contention.Step world next)
    (phases : ∀ client, contention.PhaseOk world.clock (world.phase client))
    (isClosed : window < contention.period.index next.clock) (client : ι) :
    contention.late window (next.phase client) ≤
      contention.late window (world.phase client) := by
  have nonneg := (late_bounds window (phases client)).1
  have moved : ∀ (mover : ι) (phase : Phase), contention.late window phase = 0 →
      contention.late window (Function.update world.phase mover phase client) ≤
        contention.late window (world.phase client) := by
    intro mover phase zero
    by_cases same : client = mover
    · subst mover
      rw [Function.update_self, zero]
      exact nonneg
    · rw [Function.update_of_ne same]
  cases taken with
  | tick _ _ => exact Int.le_refl _
  | startCheck mover _ _ _ _ => exact moved mover _ rfl
  | finishCheck mover redisMillis checking =>
      apply moved mover
      rcases afterCheck_cases _
        (contention.check _ _ redisMillis world.keyspace).1 with allowed | idle
      · rw [allowed]
        rfl
      · rw [idle]
        rfl
  | startCharge mover _ _ =>
      apply moved mover
      have other : contention.period.index world.clock ≠ window := ne_of_gt isClosed
      simp only [late, other, if_false]
  | finishCharge mover _ _ => exact moved mover _ rfl
  | refund _ _ _ _ => exact Int.le_refl _
  | elsewhere _ => exact Int.le_refl _

/-- A client whose charge has run is no longer late. -/
theorem sum_late_idle [Fintype ι] (window : ℤ) (phase : ι → Phase) (client : ι) :
    ∑ other, contention.late window (Function.update phase client .idle other) +
        contention.late window (phase client) =
      ∑ other, contention.late window (phase other) := by
  have others : ∑ other ∈ Finset.univ.erase client,
      contention.late window (Function.update phase client .idle other) =
        ∑ other ∈ Finset.univ.erase client, contention.late window (phase other) := by
    apply Finset.sum_congr rfl
    intro other mem
    rw [Function.update_of_ne (Finset.ne_of_mem_erase mem)]
  rw [← Finset.add_sum_erase _ _ (Finset.mem_univ client), others, Function.update_self,
    ← Finset.add_sum_erase Finset.univ (fun other => contention.late window (phase other))
      (Finset.mem_univ client)]
  simp only [late]
  omega

theorem clock_le_step (taken : contention.Step world next) : world.clock ≤ next.clock := by
  cases taken with
  | tick later _ => exact later
  | _ => exact Int.le_refl _

end Late

namespace Accounted

variable {contention} [Fintype ι] [Nonempty ι] {ledger : Ledger ι}

omit [DecidableEq ι] in
theorem initial {start : World ι} (isInitial : contention.Initial start) :
    contention.Accounted ⟨start, [], []⟩ where
  bounded := .initial isInitial
  charges := by simp
  refunds := by simp
  current := by
    have nonneg := (Bounded.initial isInitial).nonneg
    simpa [total] using nonneg
  closed := by
    intro window _
    have := contention.maxCostPos
    have := (contention.max_le_overshootBound (ι := ι)).2
    simp only [isInitial.idle, late, Finset.sum_const_zero, total, List.filter_nil,
      List.map_nil, List.sum_nil]
    omega

section Steps

variable (accounted : contention.Accounted ledger)
  (boundLt : contention.overshootBound (Fintype.card ι) < 2 ^ 53)

include accounted

omit [DecidableEq ι] [Nonempty ι] in
/-- Of a window ahead, nothing is charged yet. -/
theorem ahead {window : ℤ} (isAhead : contention.period.index ledger.world.clock < window) :
    total (contention.inWindow window) ledger.charges = 0 := by
  apply total_eq_zero
  intro posting mem
  have := contention.period.index_mono (accounted.charges posting mem).1
  simp only [inWindow, decide_eq_false_iff_not]
  omega

omit [DecidableEq ι] in
/-- Every window keeps to the bound. -/
theorem charged_le (window : ℤ) :
    total (contention.inWindow window) ledger.charges ≤
      contention.overshootBound (Fintype.card ι) +
        total (contention.inWindow window) ledger.refunds := by
  have bound := (contention.max_le_overshootBound (ι := ι)).2
  have positive := contention.maxCostPos
  have refunded : 0 ≤ total (contention.inWindow window) ledger.refunds :=
    total_nonneg accounted.refunds
  rcases Int.lt_trichotomy window (contention.period.index ledger.world.clock) with
    closed | rfl | isAhead
  · have lateNonneg : 0 ≤ ∑ client, contention.late window (ledger.world.phase client) :=
      Finset.sum_nonneg fun client _ => (late_bounds window (accounted.bounded.phases client)).1
    have := accounted.closed window closed
    omega
  · have pendingNonneg : 0 ≤
        ∑ client, contention.pending ledger.world.clock (ledger.world.phase client) :=
      Finset.sum_nonneg fun client _ =>
        (contention.pending_bounds (accounted.bounded.phases client)).1
    have := accounted.bounded.potential
    have := accounted.current
    omega
  · rw [accounted.ahead isAhead]
    omega

include boundLt

theorem other {next : World ι} (taken : contention.Step ledger.world next)
    (untouched : ∀ instant, ledger.world.clock ≤ instant →
      counter next.keyspace (contention.slot instant) =
        counter ledger.world.keyspace (contention.slot instant)) :
    contention.Accounted { ledger with world := next } := by
  have bounded := accounted.bounded.step boundLt taken
  have later := clock_le_step taken
  have mono := contention.period.index_mono later
  refine ⟨bounded, ?_, accounted.refunds, ?_, ?_⟩
  · intro posting mem
    rcases accounted.charges posting mem with ⟨sampled, nonneg⟩
    exact ⟨sampled.trans later, nonneg⟩
  · rcases Int.le_iff_lt_or_eq.mp mono with isAhead | same
    · have nonneg := bounded.nonneg
      have refunded : 0 ≤ total (contention.inWindow (contention.period.index next.clock))
          ledger.refunds := total_nonneg accounted.refunds
      simp only [accounted.ahead isAhead]
      omega
    · have sameSlot := contention.slot_eq_iff.mpr same.symm
      have kept := untouched ledger.world.clock (Int.le_refl _)
      have current := accounted.current
      simp only [consumed] at current
      simp only [consumed, sameSlot, kept, ← same]
      exact current
  · intro window isClosed
    have lates : ∑ client, contention.late window (next.phase client) ≤
        ∑ client, contention.late window (ledger.world.phase client) :=
      Finset.sum_le_sum fun client _ =>
        late_step taken accounted.bounded.phases isClosed client
    suffices contained : total (contention.inWindow window) ledger.charges +
        ∑ client, contention.late window (ledger.world.phase client) ≤
      contention.overshootBound (Fintype.card ι) +
        total (contention.inWindow window) ledger.refunds by
      simp only
      omega
    rcases Int.lt_trichotomy window (contention.period.index ledger.world.clock) with
      closed | rfl | isAhead
    · exact accounted.closed window closed
    · -- the window closes now, and all that is pending may still be charged to it
      have pendings := Finset.sum_le_sum fun client (_ : client ∈ Finset.univ) =>
        (late_bounds (contention.period.index ledger.world.clock)
          (accounted.bounded.phases client)).2
      have := accounted.bounded.potential
      have := accounted.current
      omega
    · have bound := (contention.max_le_overshootBound (ι := ι)).2
      have positive := contention.maxCostPos
      have refunded : 0 ≤ total (contention.inWindow window) ledger.refunds :=
        total_nonneg accounted.refunds
      have none : ∑ client, contention.late window (ledger.world.phase client) = 0 :=
        Finset.sum_eq_zero fun client _ =>
          late_eq_zero (accounted.bounded.phases client) isAhead
      rw [accounted.ahead isAhead, none]
      omega

theorem charge {client : ι} {redisMillis cost sampledAt : ℤ} {draw : ℕ}
    (charging : ledger.world.phase client = .charging cost sampledAt draw) :
    contention.Accounted { ledger with
      world := { ledger.world with
        keyspace := (contention.charge cost sampledAt redisMillis draw ledger.world.keyspace).2
        phase := Function.update ledger.world.phase client .idle }
      charges := ledger.charges ++ [⟨sampledAt, cost⟩] } := by
  have bounded := accounted.bounded.step boundLt (.finishCharge client redisMillis charging)
  have phase := accounted.bounded.phases client
  rw [charging] at phase
  rcases phase with ⟨⟨positive, atMost⟩, sampled, inRange⟩
  have total := accounted.bounded.consumed_add_pending_le client
  have othersNonneg := contention.pendingOthers_nonneg accounted.bounded.phases client
  have fits := contention.max_le_overshootBound (ι := ι)
  rw [charging] at total
  simp only [pending] at total
  refine ⟨bounded, ?_, accounted.refunds, ?_, ?_⟩
  · intro posting mem
    rcases List.mem_append.mp mem with earlier | here
    · exact accounted.charges posting earlier
    · rw [List.mem_singleton.mp here]
      exact ⟨sampled, by simp only; omega⟩
  · have current := accounted.current
    have nonneg := accounted.bounded.nonneg
    rw [total_append]
    by_cases same : contention.period.index sampledAt = contention.period.index ledger.world.clock
    · have sameSlot := contention.slot_eq_iff.mpr same
      simp only [consumed, ← sameSlot] at total nonneg current
      have charged := @counter_charge contention ledger.world.keyspace cost sampledAt redisMillis
        draw inRange positive (by omega) (by omega) nonneg (by omega)
      simp only [consumed, ← sameSlot, charged, inWindow, same, decide_true, if_true]
      omega
    · have kept : counter (contention.charge cost sampledAt redisMillis draw
          ledger.world.keyspace).2 (contention.slot ledger.world.clock) =
          counter ledger.world.keyspace (contention.slot ledger.world.clock) :=
        counter_congr (contention.charge_apply_of_ne inRange
          (mt contention.slot_eq_iff.mp (Ne.symm same)))
      simp only [consumed] at current
      simp only [consumed, kept, inWindow, same, decide_false, Bool.false_eq_true, if_false,
        add_zero]
      exact current
  · intro window isClosed
    have closed := accounted.closed window isClosed
    have lates := @sum_late_idle contention ι _ _ window ledger.world.phase client
    have isLate : contention.late window (.charging cost sampledAt draw) =
        if contention.period.index sampledAt = window then cost else 0 := rfl
    rw [charging, isLate] at lates
    rw [total_append]
    simp only [inWindow, decide_eq_true_eq]
    omega

theorem refund {redisMillis amount sampledAt : ℤ} (sampled : sampledAt ≤ ledger.world.clock)
    (inRange : Representable sampledAt) (exactAmount : amount < 2 ^ 53) :
    contention.Accounted { ledger with
      world := { ledger.world with
        keyspace := (contention.refund amount sampledAt redisMillis ledger.world.keyspace).2 }
      refunds := ledger.refunds ++ [⟨sampledAt, max amount 0⟩] } := by
  have bounded := accounted.bounded.step boundLt (.refund redisMillis sampled inRange exactAmount)
  have nonneg := accounted.bounded.nonneg
  refine ⟨bounded, accounted.charges, ?_, ?_, ?_⟩
  · intro posting mem
    rcases List.mem_append.mp mem with earlier | here
    · exact accounted.refunds posting earlier
    · rw [List.mem_singleton.mp here]
      exact le_max_right _ _
  · have current := accounted.current
    rw [total_append]
    by_cases same : contention.period.index sampledAt = contention.period.index ledger.world.clock
    · have sameSlot := contention.slot_eq_iff.mpr same
      have fits := contention.max_le_overshootBound (ι := ι)
      have consumedLe : contention.consumed ledger.world ≤
          contention.overshootBound (Fintype.card ι) := by
        have pendingNonneg := Finset.sum_nonneg fun client (_ : client ∈ Finset.univ) =>
          (contention.pending_bounds (accounted.bounded.phases client)).1
        have := accounted.bounded.potential
        omega
      simp only [consumed, ← sameSlot] at nonneg current consumedLe
      have refunded := @counter_refund contention ledger.world.keyspace amount sampledAt
        redisMillis inRange (by omega) exactAmount nonneg (by omega)
      simp only [consumed, ← sameSlot, inWindow, same, decide_true, if_true, refunded]
      omega
    · have kept : counter (contention.refund amount sampledAt redisMillis
          ledger.world.keyspace).2 (contention.slot ledger.world.clock) =
          counter ledger.world.keyspace (contention.slot ledger.world.clock) :=
        counter_congr (contention.refund_apply_of_ne inRange
          (mt contention.slot_eq_iff.mp (Ne.symm same)))
      simp only [consumed] at current
      simp only [consumed, kept, inWindow, same, decide_false, Bool.false_eq_true, if_false,
        add_zero]
      exact current
  · intro window isClosed
    have closed := accounted.closed window isClosed
    rw [total_append]
    have := le_max_right amount 0
    simp only
    split <;> omega

theorem entry {after : Ledger ι} (entered : contention.Entry ledger after) :
    contention.Accounted after := by
  cases entered with
  | charge client redisMillis charging => exact accounted.charge boundLt charging
  | refund redisMillis sampled inRange exactAmount =>
      exact accounted.refund boundLt sampled inRange exactAmount
  | other taken unfinished untouched => exact accounted.other boundLt taken untouched

theorem run {later : Ledger ι} (reached : Relation.ReflTransGen contention.Entry ledger later) :
    contention.Accounted later := by
  induction reached with
  | refl => exact accounted
  | tail _ entered ih => exact ih.entry boundLt entered

end Steps

end Accounted

/-- The charges that sampled their windows from the first to the last instant. -/
def between (first last : ℤ) (posting : Posting) : Bool :=
  first ≤ posting.sampledAt && posting.sampledAt ≤ last

section Sample

/-- One client of a limit of one call a minute. -/
def solo : Contention := pair

def soloStart : World (Fin 1) := ⟨59000000000, fun _ => none, fun _ => .idle⟩

theorem solo_other {ledger : Ledger (Fin 1)} {next : World (Fin 1)} {phase : Phase}
    (taken : solo.Step ledger.world next) (here : ledger.world.phase 0 = phase)
    (quiet : ∀ cost sampledAt draw, phase ≠ .charging cost sampledAt draw)
    (same : next.keyspace = ledger.world.keyspace) :
    solo.Entry ledger { ledger with world := next } := by
  apply Entry.other taken
  · intro client cost sampledAt draw charging
    rw [Subsingleton.elim client 0, here] at charging
    exact absurd charging (quiet cost sampledAt draw)
  · intro instant _
    rw [same]

/-- The client checks and charges one call. -/
theorem solo_call {ledger : Ledger (Fin 1)} (idle : ledger.world.phase 0 = .idle)
    (fits : afterCheck 1 (solo.check 1 ledger.world.clock 0 ledger.world.keyspace).1 =
      .allowed 1) :
    ∃ later, Relation.ReflTransGen solo.Entry ledger later ∧
      later.charges = ledger.charges ++ [⟨ledger.world.clock, 1⟩] ∧
      later.refunds = ledger.refunds ∧ later.world.clock = ledger.world.clock ∧
      later.world.phase 0 = .idle ∧
      later.world.keyspace =
        (solo.charge 1 ledger.world.clock 0 0 ledger.world.keyspace).2 := by
  rcases ledger with ⟨⟨clock, keyspace, phase⟩, charges, refunds⟩
  have isChecking : Function.update phase 0 (.checking 1 clock) 0 = .checking 1 clock :=
    Function.update_self ..
  have isAllowed : Function.update (Function.update phase 0 (.checking 1 clock)) 0 (.allowed 1) 0 =
      .allowed 1 := Function.update_self ..
  have checking : solo.Step ⟨clock, keyspace, phase⟩
      ⟨clock, keyspace, Function.update phase 0 (.checking 1 clock)⟩ :=
    .startCheck 0 1 idle (by decide) (by decide)
  have allowing : solo.Step ⟨clock, keyspace, Function.update phase 0 (.checking 1 clock)⟩
      ⟨clock, keyspace,
        Function.update (Function.update phase 0 (.checking 1 clock)) 0 (.allowed 1)⟩ := by
    have finished : solo.Step ⟨clock, keyspace, Function.update phase 0 (.checking 1 clock)⟩ _ :=
      .finishCheck 0 0 isChecking
    rw [fits, check_readOnly] at finished
    exact finished
  have checked := (Relation.ReflTransGen.refl (r := solo.Entry)
      (a := ⟨⟨clock, keyspace, phase⟩, charges, refunds⟩)).tail
    (solo_other checking idle (by simp) rfl)
  have allowed := checked.tail (solo_other allowing isChecking (by simp) rfl)
  have charging := allowed.tail
    (solo_other (.startCharge 0 0 isAllowed) isAllowed (by simp) rfl)
  have isCharging : Function.update (Function.update (Function.update phase 0
      (.checking 1 clock)) 0 (.allowed 1)) 0 (.charging 1 clock 0) 0 = .charging 1 clock 0 :=
    Function.update_self ..
  have charged := charging.tail (.charge 0 0 isCharging)
  refine ⟨_, charged, rfl, rfl, rfl, ?_, rfl⟩
  simp

end Sample

end Contention

end RateLimiter.Enforcer
