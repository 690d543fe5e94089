import Mathlib.Algebra.BigOperators.Group.List.Basic
import Mathlib.Algebra.Order.Ring.Int
import Mathlib.Data.List.Infix
import RateLimiter.Enforcer.Store
import RateLimiter.Lib.FloorCounter

/-!
# One counter under serialised scripts

The callers of one counter are serialised by Redis into a sequence of charge
and refund scripts. The counter that results is the level of a counter floored
at zero, so the order matters only through the suffix totals.
-/

namespace RateLimiter.Enforcer

open Redis FloorCounter

/-- A script on one counter key, with its arguments. -/
inductive CounterOp where
  | charge (cost limit ttlSecs nowMillis : ℤ)
  | refund (amount limit : ℤ)
deriving DecidableEq

namespace CounterOp

def script (key : String) : CounterOp → Script ℤ
  | .charge cost limit ttlSecs nowMillis => chargeScript key cost limit ttlSecs nowMillis
  | .refund amount limit => refundScript key amount limit

def limit : CounterOp → ℤ
  | .charge _ limit _ _ => limit
  | .refund _ limit => limit

def cost : CounterOp → ℤ
  | .charge cost _ _ _ => cost
  | .refund _ _ => 0

def amount : CounterOp → ℤ
  | .charge _ _ _ _ => 0
  | .refund amount _ => amount

/-- The arguments are in the ranges of the service, and exact doubles. -/
def Valid : CounterOp → Prop
  | .charge cost limit ttlSecs _ =>
      (0 < cost ∧ cost < 2 ^ 53) ∧ (0 ≤ limit ∧ limit < 2 ^ 53) ∧ 1 ≤ ttlSecs ∧ ttlSecs < 2 ^ 53
  | .refund amount limit => (0 ≤ amount ∧ amount < 2 ^ 53) ∧ 0 ≤ limit ∧ limit < 2 ^ 53

instance (op : CounterOp) : Decidable op.Valid := by
  cases op <;> exact inferInstanceAs (Decidable (_ ∧ _))

def change (op : CounterOp) : ℤ :=
  op.cost - op.amount

def keyspaceAfter (key : String) (keyspace : Keyspace) (ops : List CounterOp) : Keyspace :=
  ops.foldl (fun keyspace op => (op.script key keyspace).2) keyspace

def replies (key : String) (keyspace : Keyspace) : List CounterOp → List (Except Error ℤ)
  | [] => []
  | op :: rest =>
      (op.script key keyspace).1 :: replies key (op.script key keyspace).2 rest

/-- One script moves the counter by its change, down to zero at most, and answers what is left. -/
theorem script_spec {key : String} {keyspace : Keyspace} {op : CounterOp} (valid : op.Valid)
    (nonneg : 0 ≤ counter keyspace key) (counterLt : counter keyspace key < 2 ^ 53)
    (nextLt : bump (counter keyspace key) op.change < 2 ^ 53) :
    (op.script key keyspace).1 = .ok (op.limit - bump (counter keyspace key) op.change) ∧
      counter (op.script key keyspace).2 key = bump (counter keyspace key) op.change := by
  cases op with
  | charge cost limit ttlSecs nowMillis =>
      rcases valid with ⟨⟨costPos, costLt⟩, ⟨limitNonneg, limitLt⟩, ttlPos, ttlLt⟩
      have bumped : bump (counter keyspace key) (change (.charge cost limit ttlSecs nowMillis)) =
          counter keyspace key + cost := by
        simp only [bump, change, CounterOp.cost, CounterOp.amount]
        omega
      rw [bumped] at nextLt ⊢
      have ran := @chargeScript_eq keyspace key cost limit ttlSecs nowMillis costPos costLt
        limitNonneg limitLt ttlPos ttlLt nonneg nextLt
      simp only [script, ran, counter_update_self, chargedEntry, CounterOp.limit, and_self]
  | refund amount limit =>
      rcases valid with ⟨⟨amountNonneg, amountLt⟩, limitNonneg, limitLt⟩
      have bumped : bump (counter keyspace key) (change (.refund amount limit)) =
          max (counter keyspace key - amount) 0 := by
        simp only [bump, change, CounterOp.cost, CounterOp.amount]
        omega
      rw [bumped]
      have ran := @refundScript_eq keyspace key amount limit amountNonneg amountLt limitNonneg
        limitLt nonneg counterLt
      simp only [script, ran, counter_update_self, CounterOp.limit, and_self]

@[simp]
theorem keyspaceAfter_append (key : String) (keyspace : Keyspace) (before after : List CounterOp) :
    keyspaceAfter key keyspace (before ++ after) =
      keyspaceAfter key (keyspaceAfter key keyspace before) after := by
  simp [keyspaceAfter]

theorem replies_getElem? (key : String) (op : CounterOp) (before after : List CounterOp) :
    ∀ keyspace : Keyspace, (replies key keyspace (before ++ op :: after))[before.length]? =
      some (op.script key (keyspaceAfter key keyspace before)).1 := by
  induction before with
  | nil => exact fun _ => rfl
  | cons first rest ih => exact fun keyspace => ih (first.script key keyspace).2

section Serialised

variable {key : String} {keyspace : Keyspace} {ops : List CounterOp}

/-- After any sequence the counter is the floored level of its changes. -/
theorem counter_keyspaceAfter (absent : keyspace key = none)
    (bounded : ∀ before, before <+: ops → level (before.map change) < 2 ^ 53)
    (valid : ∀ op ∈ ops, op.Valid) :
    counter (keyspaceAfter key keyspace ops) key = level (ops.map change) := by
  induction ops using List.reverseRecOn with
  | nil => simp [keyspaceAfter, counter, absent]
  | append_singleton before op ih =>
      have held := ih
        (fun shorter isPrefix => bounded shorter (isPrefix.trans (List.prefix_append _ _)))
        (fun other mem => valid other (List.mem_append_left _ mem))
      have heldLt := bounded before (List.prefix_append _ _)
      have nextLt := bounded (before ++ [op]) List.prefix_rfl
      rw [List.map_append, List.map_singleton, level_append_singleton] at nextLt ⊢
      rw [← held] at heldLt nextLt ⊢
      have nonneg := level_nonneg (before.map change)
      rw [← held] at nonneg
      rw [keyspaceAfter_append]
      exact (script_spec (valid op (by simp)) nonneg heldLt nextLt).2

/-- Every script answers its limit minus the counter right after it. -/
theorem reply_after {before after : List CounterOp} {op : CounterOp} (absent : keyspace key = none)
    (bounded : ∀ shorter, shorter <+: before ++ op :: after →
      level (shorter.map change) < 2 ^ 53)
    (valid : ∀ other ∈ before ++ op :: after, other.Valid) :
    (replies key keyspace (before ++ op :: after))[before.length]? =
      some (.ok (op.limit - counter (keyspaceAfter key keyspace (before ++ [op])) key)) := by
  have isPrefix : before ++ [op] <+: before ++ op :: after :=
    (List.prefix_append_right_inj before).mpr ⟨after, rfl⟩
  have held := counter_keyspaceAfter absent
    (fun shorter shorterPrefix => bounded shorter (shorterPrefix.trans (List.prefix_append _ _)))
    (fun other mem => valid other (List.mem_append_left _ mem))
  have next := counter_keyspaceAfter absent
    (fun shorter shorterPrefix => bounded shorter (shorterPrefix.trans isPrefix))
    (fun other mem => valid other (isPrefix.subset mem))
  have nextLt := bounded _ isPrefix
  rw [List.map_append, List.map_singleton, level_append_singleton, ← held] at next nextLt
  have spec := script_spec (valid op (by simp)) ((level_nonneg _).trans_eq held.symm)
    (held.trans_lt (bounded before (List.prefix_append _ _))) nextLt
  rw [replies_getElem?, spec.1, next]

theorem sum_map_change (ops : List CounterOp) :
    (ops.map change).sum = (ops.map cost).sum - (ops.map amount).sum := by
  induction ops with
  | nil => rfl
  | cons op rest ih =>
      simp only [List.map_cons, List.sum_cons, ih, change]
      omega

theorem suffixSums_map_change (ops : List CounterOp) :
    suffixSums (ops.map change) =
      { total | ∃ tail, tail <:+ ops ∧ (tail.map cost).sum - (tail.map amount).sum = total } := by
  ext total
  constructor
  · rintro ⟨_, isSuffix, rfl⟩
    rcases List.suffix_map_iff.mp isSuffix with ⟨tail, tailSuffix, rfl⟩
    exact ⟨tail, tailSuffix, (sum_map_change tail).symm⟩
  · rintro ⟨tail, isSuffix, rfl⟩
    exact ⟨tail.map change, isSuffix.map change, sum_map_change tail⟩

theorem cost_nonneg {op : CounterOp} (valid : op.Valid) : 0 ≤ op.cost ∧ 0 ≤ op.amount := by
  cases op with
  | charge cost limit ttlSecs nowMillis => exact ⟨valid.1.1.le, Int.le_refl 0⟩
  | refund amount limit => exact ⟨Int.le_refl 0, valid.1.1⟩

theorem level_le_sum_cost (valid : ∀ op ∈ ops, op.Valid) :
    level (ops.map change) ≤ (ops.map cost).sum := by
  refine (level_le_sum_positive _).trans ?_
  rw [List.map_map]
  apply List.sum_le_sum
  intro op mem
  have := cost_nonneg (valid op mem)
  simp only [Function.comp_apply, change]
  omega

end Serialised

/-- In every serialisation the final counter is the largest suffix total, every script answers
its limit minus the counter right after it, and the counter stays between the order-independent
bounds. -/
theorem counter_serialisation_law {key : String} {keyspace : Keyspace}
    {ops serialised : List CounterOp} (absent : keyspace key = none)
    (order : serialised.Perm ops) (valid : ∀ op ∈ ops, op.Valid)
    (bounded : ∀ before, before <+: serialised → level (before.map change) < 2 ^ 53) :
    IsGreatest { total | ∃ tail, tail <:+ serialised ∧
        (tail.map cost).sum - (tail.map amount).sum = total }
      (counter (keyspaceAfter key keyspace serialised) key) ∧
    (∀ before op after, serialised = before ++ op :: after →
      (replies key keyspace serialised)[before.length]? =
        some (.ok (op.limit - counter (keyspaceAfter key keyspace (before ++ [op])) key))) ∧
    max 0 ((ops.map cost).sum - (ops.map amount).sum) ≤
      counter (keyspaceAfter key keyspace serialised) key ∧
    counter (keyspaceAfter key keyspace serialised) key ≤ (ops.map cost).sum ∧
    ((∀ op ∈ ops, op.amount = 0) →
      counter (keyspaceAfter key keyspace serialised) key = (ops.map cost).sum) := by
  have validSerial : ∀ op ∈ serialised, op.Valid := fun op mem => valid op (order.mem_iff.mp mem)
  have final := counter_keyspaceAfter absent bounded validSerial
  have costs : (serialised.map cost).sum = (ops.map cost).sum := (order.map cost).sum_eq
  have amounts : (serialised.map amount).sum = (ops.map amount).sum := (order.map amount).sum_eq
  have lower := sum_le_level (serialised.map change)
  have upper := level_le_sum_cost validSerial
  rw [sum_map_change, costs, amounts] at lower
  rw [costs] at upper
  rw [final]
  refine ⟨?_, ?_, max_le (level_nonneg _) lower, upper, ?_⟩
  · rw [← suffixSums_map_change]
    exact isGreatest_level _
  · rintro before op after rfl
    exact reply_after absent bounded validSerial
  · intro noRefunds
    apply le_antisymm upper
    have noAmounts : (ops.map amount).sum = 0 := List.sum_eq_zero (by
      intro total mem
      rcases List.mem_map.mp mem with ⟨op, opMem, rfl⟩
      exact noRefunds op opMem)
    rw [noAmounts] at lower
    omega

/-- A refund that comes first is lost at the floor. -/
theorem counter_serialisation_law_sample :
    max 0 (7 - 3) ≤ counter (keyspaceAfter "key" (fun _ => none)
      [.refund 3 10, .charge 5 10 65 0, .charge 2 10 65 1000]) "key" ∧
    counter (keyspaceAfter "key" (fun _ => none)
      [.refund 3 10, .charge 5 10 65 0, .charge 2 10 65 1000]) "key" = 7 := by
  refine ⟨(@counter_serialisation_law "key" (fun _ => none)
    [.charge 5 10 65 0, .refund 3 10, .charge 2 10 65 1000] _ rfl
    (List.Perm.swap _ _ _) (by decide) ?_).2.2.1, by decide +kernel⟩
  intro before isPrefix
  have bounded : ∀ shorter ∈ List.inits
      [CounterOp.refund 3 10, .charge 5 10 65 0, .charge 2 10 65 1000],
      level (shorter.map change) < 2 ^ 53 := by decide
  exact bounded before ((List.mem_inits before _).mpr isPrefix)

end CounterOp

end RateLimiter.Enforcer
