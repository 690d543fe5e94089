import RateLimiter.Enforcer.Service
import RateLimiter.Lib.Machine

/-!
# Quota arithmetic beyond 53 bits

`GetUsage` subtracts 64-bit integers, while the scripts of `CheckQuota`,
`Charge` and `Refund` subtract doubles. This file says on which caps, counters
and costs the two agree, and when the floor of a refund holds: a decrement by
a rounded amount is undone by a reply that was rounded again.
-/

namespace RateLimiter.Enforcer

open CivilTime Redis Double

section Scripts

variable (keyspace : Keyspace) (key : String)

theorem checkScript_run (limit cost : ℤ) :
    checkScript key limit cost keyspace =
      (.ok ⟨decide (roundInt cost ≤
          roundInt (roundInt limit - roundInt (counter keyspace key))),
        reply (roundInt (roundInt limit - roundInt (counter keyspace key)))⟩, keyspace) :=
  rfl

/-- A charge succeeds exactly when the rounded cost keeps the counter in 64 bits. -/
theorem chargeScript_run {cost ttlSecs : ℤ} (limit nowMillis : ℤ)
    (ttlPos : 0 < toNumber ttlSecs) :
    (¬ (isInt64 (roundInt cost) = true ∧
        isInt64 (counter keyspace key + roundInt cost) = true) ∧
      ∃ error, chargeScript key cost limit ttlSecs nowMillis keyspace =
        (.error error, keyspace)) ∨
    (isInt64 (roundInt cost) = true ∧
        isInt64 (counter keyspace key + roundInt cost) = true) ∧
      ∃ rest, chargeScript key cost limit ttlSecs nowMillis keyspace =
          (.ok (reply (roundInt (roundInt limit -
            roundInt (counter keyspace key + roundInt cost)))), rest) ∧
        counter rest key = counter keyspace key + roundInt cost := by
  rcases incrBy_cases keyspace key (toNumber cost) with
    ⟨beyond, error, failed⟩ | ⟨within, increment⟩
  · refine Or.inl ⟨beyond, error, ?_⟩
    rw [chargeScript, Script.bind_apply_error failed]
  · refine Or.inr ⟨within, ?_⟩
    have present := Function.update_self key
      (some (Entry.mk (counter keyspace key + toNumber cost) (deadline keyspace key))) keyspace
    rcases ttl_of_some nowMillis present with ⟨left, ttlRan, _⟩
    rw [chargeScript, Script.bind_apply_ok increment, Script.bind_apply_ok ttlRan]
    split
    · rw [Script.bind_apply_ok (expire_of_some nowMillis present ttlPos)]
      exact ⟨_, rfl, counter_update_self _ _ _⟩
    · exact ⟨_, rfl, counter_update_self _ _ _⟩

end Scripts

theorem reply_eq_iff {number result : ℤ} (lower : -2 ^ 63 < result) (upper : result < 2 ^ 63) :
    reply number = result ↔ number = result := by
  simp only [reply, isInt64, Bool.and_eq_true, decide_eq_true_eq]
  split <;> omega

/-- The answer of a script is exact when the subtraction of its doubles is. -/
theorem reply_roundInt_eq_iff {limit consumed : ℤ} (limitNonneg : 0 ≤ limit)
    (limitLt : limit < 2 ^ 63) (consumedNonneg : 0 ≤ consumed) (consumedLt : consumed < 2 ^ 63) :
    reply (roundInt (roundInt limit - roundInt consumed)) = limit - consumed ↔
      ExactSub limit consumed := by
  rw [reply_eq_iff (by omega) (by omega), roundInt_sub_eq_iff]

/-- Rounding does no harm to the numbers of a check and of a charge. -/
structure RoundingHarmless (limit consumed cost : ℤ) : Prop where
  remaining : ExactSub limit consumed
  /-- A cost beyond the remaining quota is not rounded down to it. -/
  decision : limit - consumed < cost → limit - consumed < roundInt cost
  /-- A charge that does not overflow adds an exact cost. -/
  charge : consumed + roundInt cost < 2 ^ 63 →
    error cost = 0 ∧ ExactSub limit (consumed + cost)

/-- What `CheckQuota`, `GetUsage` and `Charge` promise of the counter of one window. -/
def QuotaExact (resolve : LimitKey → Resolved) (moment : Moment) (keyspace : Keyspace)
    (key : LimitKey) (cap : Cap) (cost : ℤ) : Prop :=
  let name := counterKey key (windowId moment.now cap.timeUnit)
  (∃ check usage,
      (checkOne resolve moment ⟨some key, cost⟩ keyspace).1 = .ok check ∧
      (getUsage resolve moment ⟨some key⟩ keyspace).1 = .ok usage ∧
      check.remaining = usage.remaining ∧
      usage.remaining = cap.limitValue - counter keyspace name ∧
      (check.allowed = true ↔ cost ≤ cap.limitValue - counter keyspace name)) ∧
    ∀ charge rest,
      chargeOne resolve moment defaultGraceSecs ⟨some key, cost⟩ keyspace = (.ok charge, rest) →
      counter rest name = counter keyspace name + cost ∧
        charge.remaining = cap.limitValue - counter rest name

section Rpcs

variable {resolve : LimitKey → Resolved} {moment : Moment} (keyspace : Keyspace)
  {key : LimitKey} {cap : Cap} {period : Period} {cost : ℤ}
  (inRange : Representable moment.now) (resolved : resolve key = .configured cap)
  (units : period? cap.timeUnit = some period) (validKey : validateKey (some key) = .ok key)
  (costPos : 1 ≤ cost)

include inRange resolved units validKey costPos

theorem checkOne_run :
    (checkOne resolve moment ⟨some key, cost⟩ keyspace).1 =
      .ok ⟨decide (roundInt cost ≤ roundInt (roundInt cap.limitValue -
          roundInt (counter keyspace (counterKey key (windowId moment.now cap.timeUnit))))),
        reply (roundInt (roundInt cap.limitValue -
          roundInt (counter keyspace (counterKey key (windowId moment.now cap.timeUnit))))),
        cap.limitValue, some (period.finish moment.now)⟩ := by
  simp only [checkOne, validKey, normalizeCost_of_pos costPos, target?_eq inRange resolved units,
    runScript, checkScript_run]

/-- A charge that succeeds adds the rounded cost. -/
theorem chargeOne_run :
    let name := counterKey key (windowId moment.now cap.timeUnit)
    (¬ (isInt64 (roundInt cost) = true ∧
        isInt64 (counter keyspace name + roundInt cost) = true) ∧
      ∃ error, chargeOne resolve moment defaultGraceSecs ⟨some key, cost⟩ keyspace =
        (.error error, keyspace)) ∨
    (isInt64 (roundInt cost) = true ∧
        isInt64 (counter keyspace name + roundInt cost) = true) ∧
      ∃ rest, chargeOne resolve moment defaultGraceSecs ⟨some key, cost⟩ keyspace =
          (.ok ⟨reply (roundInt (roundInt cap.limitValue -
            roundInt (counter keyspace name + roundInt cost))), cap.limitValue,
            some (period.finish moment.now)⟩, rest) ∧
        counter rest name = counter keyspace name + roundInt cost := by
  intro name
  have ttlPos : 0 < toNumber (jitteredTtl ((period.finish moment.now - moment.now) / 1000000000)
      defaultGraceSecs (jitterCapSecs cap.timeUnit) moment.draw) := by
    have lower := one_le_jitteredTtl ((period.finish moment.now - moment.now) / 1000000000)
      defaultGraceSecs (jitterCapSecs cap.timeUnit) moment.draw
    have upper := jitteredTtl_lt period moment.now cap.timeUnit moment.draw
    rw [toNumber_eq_self (by omega) (by omega)]
    exact lower
  simp only [chargeOne, validKey, normalizeCost_of_pos costPos, target?_eq inRange resolved units,
    runScript]
  rcases @chargeScript_run keyspace name cost _ cap.limitValue moment.redisMillis ttlPos with
    ⟨beyond, error, failed⟩ | ⟨within, rest, ran, stored⟩
  · exact Or.inl ⟨beyond, .store error, by rw [failed]⟩
  · exact Or.inr ⟨within, rest, by rw [ran], stored⟩

omit inRange resolved units validKey in
/-- Once the remaining quota is exact, a decision is wrong only for a cost that is rounded
down to it. -/
theorem decision_iff {remaining : ℤ} (isDouble : roundInt remaining = remaining) :
    (roundInt cost ≤ remaining ↔ cost ≤ remaining) ↔
      (remaining < cost → remaining < roundInt cost) := by
  constructor
  · intro agree beyond
    by_contra notBeyond
    exact absurd (agree.mp (by omega)) (by omega)
  · intro beyond
    constructor
    · intro allowed
      by_contra refused
      exact absurd (beyond (by omega)) (by omega)
    · exact fun allowed => roundInt_le (by omega) allowed isDouble

/-- The three RPCs agree on one counter, exactly, if and only if rounding does no harm. -/
theorem quota_arithmetic_exact_iff (limitNonneg : 0 ≤ cap.limitValue)
    (limitLt : cap.limitValue < 2 ^ 63)
    (consumedNonneg : 0 ≤ counter keyspace (counterKey key (windowId moment.now cap.timeUnit)))
    (consumedLt : counter keyspace (counterKey key (windowId moment.now cap.timeUnit)) < 2 ^ 63)
    (costLt : cost < 2 ^ 63) :
    QuotaExact resolve moment keyspace key cap cost ↔
      RoundingHarmless cap.limitValue
        (counter keyspace (counterKey key (windowId moment.now cap.timeUnit))) cost := by
  have checked := checkOne_run keyspace inRange resolved units validKey costPos
  have used := @getUsage_eq _ moment keyspace _ _ _ inRange resolved units ⟨some key⟩ validKey
  have charged := chargeOne_run keyspace inRange resolved units validKey costPos
  simp only [QuotaExact]
  generalize counterKey key (windowId moment.now cap.timeUnit) = name at *
  have exactRemaining := reply_roundInt_eq_iff limitNonneg limitLt consumedNonneg consumedLt
  have rounded := roundInt_nonneg (show 0 ≤ cost by omega)
  constructor
  · rintro ⟨⟨check, usage, isCheck, isUsage, same, exact, allowed⟩, exactCharge⟩
    rw [checked, Except.ok.injEq] at isCheck
    subst isCheck
    dsimp only at same allowed
    have harmless := exactRemaining.mp (same.trans exact)
    have difference := roundInt_sub_eq_iff.mpr harmless
    rw [difference, decide_eq_true_eq,
      decision_iff costPos (difference ▸ roundInt_roundInt _)] at allowed
    refine ⟨harmless, allowed, ?_⟩
    intro fits
    rcases charged with ⟨beyond, _⟩ | ⟨_, rest, ran, stored⟩
    · simp only [isInt64, Bool.and_eq_true, decide_eq_true_eq] at beyond
      omega
    · rcases exactCharge _ _ ran with ⟨added, remaining⟩
      have exactCost : roundInt cost = cost := by omega
      rw [added, exactCost, reply_roundInt_eq_iff limitNonneg limitLt (by omega) (by omega)]
        at remaining
      exact ⟨by simp only [error, exactCost, Int.sub_self], remaining⟩
  · rintro ⟨harmless, decision, exactCharge⟩
    have difference := roundInt_sub_eq_iff.mpr harmless
    refine ⟨⟨_, _, checked, congrArg Prod.fst used, exactRemaining.mpr harmless, rfl, ?_⟩, ?_⟩
    · rw [difference, decide_eq_true_eq]
      exact (decision_iff costPos (difference ▸ roundInt_roundInt _)).mpr decision
    · intro charge rest isCharge
      rcases charged with ⟨_, error, failed⟩ | ⟨within, rest', ran, stored⟩
      · rw [failed] at isCharge
        simp at isCharge
      · rw [ran, Prod.mk.injEq, Except.ok.injEq] at isCharge
        rcases isCharge with ⟨rfl, rfl⟩
        simp only [isInt64, Bool.and_eq_true, decide_eq_true_eq] at within
        rcases exactCharge within.2.2 with ⟨noError, exactNew⟩
        have exactCost : roundInt cost = cost := by
          simp only [error] at noError
          omega
        rw [stored, exactCost]
        refine ⟨rfl, ?_⟩
        exact (reply_roundInt_eq_iff limitNonneg limitLt (by omega) (by omega)).mpr exactNew

end Rpcs

section Refunds

/-- Numbers below `2 ^ 63` have at most ten bits too many. -/
theorem spacing_dvd_1024 {number : ℤ} (nonneg : 0 ≤ number) (lt : number < 2 ^ 63) :
    spacing number ∣ 1024 := by
  have divides := spacing_dvd nonneg (show number ≤ 2 ^ 63 - 1 by omega)
  rw [show spacing (2 ^ 63 - 1) = 1024 by decide] at divides
  exact divides

/-- The last 512 numbers of 64 bits are rounded out of the range. -/
theorem roundInt_eq_two_pow_iff {number : ℤ} (nonneg : 0 ≤ number) (lt : number < 2 ^ 63) :
    roundInt number = 2 ^ 63 ↔ 2 ^ 63 - 512 ≤ number := by
  have small := Nat.le_of_dvd (by decide) (spacing_dvd_1024 nonneg lt)
  rw [roundInt_eq_iff]
  constructor
  · intro nearest
    have := nearest.near
    omega
  · intro near
    have top : spacing number = 1024 := by
      apply Nat.dvd_antisymm (spacing_dvd_1024 nonneg lt)
      have divides := spacing_dvd (show 0 ≤ (2 : ℤ) ^ 63 - 512 by decide) near
      rw [show spacing (2 ^ 63 - 512) = 1024 by decide] at divides
      exact divides
    refine ⟨?_, ?_, fun _ => ?_⟩
    · rw [top]
      decide
    · omega
    · rw [top]
      decide

theorem roundInt_le_two_pow {number : ℤ} (nonneg : 0 ≤ number) (lt : number < 2 ^ 63) :
    roundInt number ≤ 2 ^ 63 :=
  roundInt_le nonneg (by omega) (by decide)

theorem two_pow_le_roundInt {number : ℤ} (le : 2 ^ 53 ≤ number) (lt : number < 2 ^ 63) :
    2 ^ 53 ≤ roundInt number := by
  apply le_roundInt_of_dvd _ le
  exact Int.dvd_trans (Int.natCast_dvd_natCast.mpr (spacing_dvd_1024 (by omega) lt)) (by decide)

variable {keyspace : Keyspace} {key : String} {amount : ℤ} (amountNonneg : 0 ≤ amount)
  (amountLt : amount < 2 ^ 63) (counterNonneg : 0 ≤ counter keyspace key)
  (counterLe : counter keyspace key ≤ 2 ^ 53)

include amountNonneg amountLt counterNonneg counterLe

omit counterNonneg in
/-- Rounding the amount does not move the floor. -/
theorem floor_roundInt :
    max 0 (counter keyspace key - roundInt amount) = max 0 (counter keyspace key - amount) := by
  by_cases small : amount ≤ 2 ^ 53
  · rw [roundInt_eq_self (by omega) small]
  · have := two_pow_le_roundInt (show 2 ^ 53 ≤ amount by omega) amountLt
    omega

/-- A refund answers with the floored counter, but stores what the rounding of the reply in
between has left over. -/
theorem refundScript_run (limit : ℤ) :
    (2 ^ 63 - 512 ≤ amount ∧
      ∃ error, refundScript key amount limit keyspace = (.error error, keyspace)) ∨
    amount < 2 ^ 63 - 512 ∧
      ∃ rest, refundScript key amount limit keyspace =
          (.ok (reply (roundInt (roundInt limit - max 0 (counter keyspace key - amount)))),
            rest) ∧
        counter rest key = max 0 (counter keyspace key - amount) +
          error (roundInt amount - counter keyspace key) := by
  have rounded := roundInt_nonneg amountNonneg
  have roundedLe := roundInt_le_two_pow amountNonneg amountLt
  have top := roundInt_eq_two_pow_iff amountNonneg amountLt
  rw [← floor_roundInt amountNonneg amountLt counterLe]
  rcases decrBy_cases keyspace key (roundInt amount) with
    ⟨beyond, problem, failed⟩ | ⟨within, decrement⟩
  · refine Or.inl ⟨?_, problem, Script.bind_apply_error failed⟩
    simp only [isInt64, Bool.and_eq_true, decide_eq_true_eq] at beyond
    omega
  · simp only [isInt64, Bool.and_eq_true, decide_eq_true_eq] at within
    refine Or.inr ⟨by omega, ?_⟩
    have ran : refundScript key amount limit keyspace = _ := Script.bind_apply_ok decrement
    have opposite := roundInt_neg (roundInt amount - counter keyspace key)
    rw [Int.neg_sub] at opposite
    rw [ran, opposite]
    by_cases below : counter keyspace key < roundInt amount
    · have positive : 0 < roundInt (roundInt amount - counter keyspace key) := by
        by_cases small : roundInt amount - counter keyspace key ≤ 2 ^ 53
        · rw [roundInt_eq_self (by omega) small]
          omega
        · have := @two_pow_le_roundInt (roundInt amount - counter keyspace key) (by omega)
            (by omega)
          omega
      have upper : roundInt (roundInt amount - counter keyspace key) ≤ roundInt amount :=
        roundInt_le (by omega) (by omega) (roundInt_roundInt amount)
      have floored : max 0 (counter keyspace key - roundInt amount) = 0 := by omega
      rw [if_pos (by omega), Int.neg_neg, floored]
      rcases incrBy_cases
        (Function.update keyspace key
          (some ⟨counter keyspace key - roundInt amount, deadline keyspace key⟩)) key
        (roundInt (roundInt amount - counter keyspace key)) with
        ⟨beyond, _⟩ | ⟨_, correction⟩
      · simp only [counter_update_self, isInt64, Bool.and_eq_true, decide_eq_true_eq] at beyond
        omega
      · refine ⟨_, Script.bind_apply_ok correction, ?_⟩
        simp only [counter_update_self, error]
        omega
    · have kept : max 0 (counter keyspace key - roundInt amount) =
          counter keyspace key - roundInt amount := by omega
      have exactReply : roundInt (roundInt amount - counter keyspace key) =
          roundInt amount - counter keyspace key := roundInt_eq_self (by omega) (by omega)
      rw [exactReply, if_neg (by omega), kept, Int.neg_sub]
      refine ⟨_, rfl, ?_⟩
      simp only [counter_update_self, error, exactReply]
      omega

/-- What a refund promises of the counter it addresses, whether or not its script succeeds. -/
def RefundExact (keyspace : Keyspace) (key : String) (amount limit : ℤ) : Prop :=
  (∀ remaining rest, refundScript key amount limit keyspace = (.ok remaining, rest) →
      counter rest key = max 0 (counter keyspace key - amount) ∧
        remaining = limit - counter rest key) ∧
    ∀ error rest, refundScript key amount limit keyspace = (.error error, rest) →
      counter rest key = counter keyspace key

/-- The amount is rounded out of the range, so that the script fails at once, or nothing is lost:
neither when the reply of the decrement is read back nor from the limit. -/
def RefundHarmless (limit consumed amount : ℤ) : Prop :=
  2 ^ 63 - 512 ≤ amount ∨
    error (roundInt amount - consumed) = 0 ∧ ExactSub limit (max 0 (consumed - amount))

theorem refundExact_iff {limit : ℤ} (limitNonneg : 0 ≤ limit) (limitLt : limit < 2 ^ 63) :
    RefundExact keyspace key amount limit ↔
      RefundHarmless limit (counter keyspace key) amount := by
  have floorLe : max 0 (counter keyspace key - amount) ≤ 2 ^ 53 := by omega
  have exactRemaining := @reply_roundInt_eq_iff limit (max 0 (counter keyspace key - amount))
    limitNonneg limitLt (by omega) (by omega)
  rw [roundInt_eq_self (by omega) floorLe] at exactRemaining
  rcases refundScript_run amountNonneg amountLt counterNonneg counterLe limit with
    ⟨top, problem, failed⟩ | ⟨notTop, rest, ran, stored⟩
  · refine iff_of_true ⟨?_, ?_⟩ (Or.inl top)
    · simp [failed]
    · intro error rest isFailed
      rw [failed, Prod.mk.injEq] at isFailed
      rw [isFailed.2]
  · constructor
    · rintro ⟨succeeds, _⟩
      rcases succeeds _ _ ran with ⟨floored, remaining⟩
      rw [floored, exactRemaining] at remaining
      exact Or.inr ⟨by omega, remaining⟩
    · rintro (top | ⟨noError, exactLimit⟩)
      · omega
      · refine ⟨?_, by simp [ran]⟩
        intro remaining other isRun
        rw [ran, Prod.mk.injEq, Except.ok.injEq] at isRun
        rcases isRun with ⟨rfl, rfl⟩
        rw [stored, noError, Int.add_zero]
        exact ⟨rfl, exactRemaining.mpr exactLimit⟩

/-- A harmless refund leaves the counter between zero and where it was. -/
theorem counter_refund_bounds {limit : ℤ}
    (harmless : RefundHarmless limit (counter keyspace key) amount) :
    0 ≤ counter (refundScript key amount limit keyspace).2 key ∧
      counter (refundScript key amount limit keyspace).2 key ≤ counter keyspace key := by
  rcases refundScript_run amountNonneg amountLt counterNonneg counterLe limit with
    ⟨_, problem, failed⟩ | ⟨notTop, rest, ran, stored⟩
  · rw [failed]
    exact ⟨counterNonneg, le_refl _⟩
  · rcases harmless with top | ⟨noError, _⟩
    · omega
    · rw [ran]
      dsimp only
      omega

end Refunds

/-- A refund as it reaches the script, with the cap of its limit. -/
structure Refund where
  amount : ℤ
  limit : ℤ
deriving DecidableEq

namespace Refund

/-- The amount is one that `validateAmount` accepts, the limit one of the control plane. -/
def Admitted (refund : Refund) : Prop :=
  validateAmount refund.amount = .ok refund.amount ∧ refund.amount < 2 ^ 63 ∧
    0 ≤ refund.limit ∧ refund.limit < 2 ^ 63

def step (key : String) (keyspace : Keyspace) (refund : Refund) : Keyspace :=
  (refundScript key refund.amount refund.limit keyspace).2

def Harmless (key : String) (keyspace : Keyspace) (refund : Refund) : Prop :=
  RefundHarmless refund.limit (counter keyspace key) refund.amount

/-- The counter lies in the range in which doubles count. -/
def Countable (key : String) (keyspace : Keyspace) : Prop :=
  0 ≤ counter keyspace key ∧ counter keyspace key ≤ 2 ^ 53

open Machine

variable {key : String} {keyspace : Keyspace} {refunds : List Refund}

theorem countable_after (start : Countable key keyspace)
    (meets : ∀ turn (refund : Refund), refunds[turn]? = some refund →
      refund.Admitted ∧ refund.Harmless key (after (step key) keyspace (refunds.take turn))) :
    Countable key (after (step key) keyspace refunds) := by
  apply conditional_invariant
    (fun keyspace (refund : Refund) => refund.Admitted ∧ refund.Harmless key keyspace)
    (fun _ keyspace => Countable key keyspace) start _ meets
  rintro before refund ⟨nonneg, le⟩ ⟨⟨accepted, amountLt, _, _⟩, harmless⟩
  rcases counter_refund_bounds (validateAmount_eq_ok accepted).1 amountLt nonneg le harmless with
    ⟨lower, upper⟩
  exact ⟨lower, upper.trans le⟩

theorem countable_after_take (start : Countable key keyspace)
    (meets : ∀ turn (refund : Refund), refunds[turn]? = some refund →
      refund.Admitted ∧ refund.Harmless key (after (step key) keyspace (refunds.take turn)))
    (turn : ℕ) : Countable key (after (step key) keyspace (refunds.take turn)) := by
  apply countable_after start
  intro earlier refund isNext
  rw [List.getElem?_take] at isNext
  split at isNext
  · rename_i before
    rw [List.take_take, Nat.min_eq_left (Nat.le_of_lt before)]
    exact meets earlier refund isNext
  · simp at isNext

end Refund

open Machine in
/-- A refund of a counter up to `2 ^ 53` floors at zero exactly when rounding loses nothing, and
in a run of such refunds the counter is never negative. -/
theorem refunds_floor_at_zero (key : String) (keyspace : Keyspace)
    (start : Refund.Countable key keyspace) :
    (∀ refund : Refund, refund.Admitted →
      (RefundExact keyspace key refund.amount refund.limit ↔ refund.Harmless key keyspace)) ∧
    ∀ refunds : List Refund,
      (∀ turn (refund : Refund), refunds[turn]? = some refund → refund.Admitted ∧
        refund.Harmless key (after (Refund.step key) keyspace (refunds.take turn))) →
      ∀ turn, 0 ≤ counter (after (Refund.step key) keyspace (refunds.take turn)) key ∧
        ∀ refund, refunds[turn]? = some refund →
          RefundExact (after (Refund.step key) keyspace (refunds.take turn)) key refund.amount
            refund.limit := by
  have exactIff : ∀ {keyspace : Keyspace} {refund : Refund}, Refund.Countable key keyspace →
      refund.Admitted →
      (RefundExact keyspace key refund.amount refund.limit ↔ refund.Harmless key keyspace) := by
    rintro keyspace refund ⟨nonneg, le⟩ ⟨accepted, amountLt, limitNonneg, limitLt⟩
    exact refundExact_iff (validateAmount_eq_ok accepted).1 amountLt nonneg le limitNonneg limitLt
  constructor
  · exact fun refund admitted => exactIff start admitted
  · intro refunds meets turn
    have countable := Refund.countable_after_take start meets turn
    refine ⟨countable.1, ?_⟩
    intro refund isNext
    rcases meets turn refund isNext with ⟨admitted, harmless⟩
    exact (exactIff countable admitted).mpr harmless

section Sample

/-- 2026-03-14T09:26:00Z, with an idle Redis. -/
def quotaMoment : Moment := ⟨1773480360000000000, 1773480360000, 0⟩

def quotaKey : LimitKey := ⟨"search", "acme", "query"⟩

/-- A cap of `2 ^ 62` and a cost of `2 ^ 52` are doubles, and so is what remains. -/
theorem quota_arithmetic_exact_iff_sample :
    QuotaExact (fun _ => .configured ⟨2 ^ 62, .minute⟩) quotaMoment (fun _ => none) quotaKey
      ⟨2 ^ 62, .minute⟩ (2 ^ 52) := by
  apply (quota_arithmetic_exact_iff (fun _ => none) (by decide +kernel) rfl rfl rfl (by decide)
    (by decide) (by decide) (by decide) (by decide) (by decide)).mpr
  refine ⟨roundInt_sub_eq_iff.mp (by decide +kernel), by decide +kernel, fun _ => ?_⟩
  exact ⟨by decide +kernel, roundInt_sub_eq_iff.mp (by decide +kernel)⟩

/-- A check of a cap of `2 ^ 53 + 1` reports one unit less than `GetUsage` does. -/
theorem large_cap_rounded :
    (checkOne (fun _ => .configured ⟨2 ^ 53 + 1, .minute⟩) quotaMoment ⟨some quotaKey, 1⟩
        (fun _ => none)).1.toOption.map CheckQuotaResponse.remaining = some (2 ^ 53) ∧
      (getUsage (fun _ => .configured ⟨2 ^ 53 + 1, .minute⟩) quotaMoment ⟨some quotaKey⟩
        (fun _ => none)).1.toOption.map GetUsageResponse.remaining = some (2 ^ 53 + 1) ∧
      ¬ QuotaExact (fun _ => .configured ⟨2 ^ 53 + 1, .minute⟩) quotaMoment (fun _ => none)
        quotaKey ⟨2 ^ 53 + 1, .minute⟩ 1 := by
  have checked : (checkOne (fun _ => .configured ⟨2 ^ 53 + 1, .minute⟩) quotaMoment
      ⟨some quotaKey, 1⟩ (fun _ => none)).1.toOption.map CheckQuotaResponse.remaining =
        some (2 ^ 53) := by
    decide +kernel
  refine ⟨checked, by decide +kernel, ?_⟩
  rintro ⟨⟨check, usage, isCheck, _, same, exact, _⟩, _⟩
  rw [isCheck] at checked
  simp only [Except.toOption, Option.map_some, Option.some.injEq] at checked
  rw [checked, exact] at same
  exact absurd same (by decide +kernel)

/-- A refund of a power of two far above an empty counter. -/
theorem refunds_floor_at_zero_sample :
    RefundExact (fun _ => none) "cnt" (2 ^ 60) 100 ∧
      0 ≤ counter (Refund.step "cnt" (fun _ => none) ⟨2 ^ 60, 100⟩) "cnt" := by
  have floors := refunds_floor_at_zero "cnt" (fun _ => none) ⟨by decide, by decide⟩
  have admitted : Refund.Admitted ⟨2 ^ 60, 100⟩ := ⟨rfl, by decide, by decide, by decide⟩
  have harmless : Refund.Harmless "cnt" (fun _ => none) ⟨2 ^ 60, 100⟩ :=
    Or.inr ⟨by decide +kernel, exactSub_of_le (by decide) (by decide) (by decide) (by decide)⟩
  refine ⟨(floors.1 _ admitted).mpr harmless, (floors.2 [⟨2 ^ 60, 100⟩] ?_ 1).1⟩
  intro turn refund isNext
  cases turn with
  | zero =>
      rw [← Option.some.inj isNext]
      exact ⟨admitted, harmless⟩
  | succ turn => simp at isNext

/-- A refund of `2 ^ 53 + 2` to a counter that holds one leaves minus one: the decrement replies
an odd number above `2 ^ 53`, which is read as `2 ^ 53`. -/
theorem large_refund_below_zero :
    Refund.Admitted ⟨2 ^ 53 + 2, 100⟩ ∧
      counter (Refund.step "cnt" (fun _ => some ⟨1, none⟩) ⟨2 ^ 53 + 2, 100⟩) "cnt" = -1 ∧
      ¬ RefundExact (fun _ => some ⟨1, none⟩) "cnt" (2 ^ 53 + 2) 100 := by
  have answered : (refundScript "cnt" (2 ^ 53 + 2) 100 (fun _ => some ⟨1, none⟩)).1 = .ok 100 := by
    decide +kernel
  have stored : counter (refundScript "cnt" (2 ^ 53 + 2) 100 (fun _ => some ⟨1, none⟩)).2 "cnt" =
      -1 := by
    decide +kernel
  refine ⟨⟨rfl, by decide, by decide, by decide⟩, stored, ?_⟩
  rintro ⟨succeeds, _⟩
  rcases ran : refundScript "cnt" (2 ^ 53 + 2) 100 (fun _ => some ⟨1, none⟩) with ⟨result, rest⟩
  rw [ran] at answered stored succeeds
  have floored := (succeeds 100 rest (by rw [← answered])).1
  rw [stored] at floored
  exact absurd floored (by decide +kernel)

end Sample

end RateLimiter.Enforcer
