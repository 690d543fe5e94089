import Mathlib.Data.List.Sort
import Mathlib.Order.BooleanAlgebra.Basic
import RateLimiter.Common

/-!
# The read-through config cache

`config.rs`: the exact-then-default query, the cache entries with their
jittered expiry, and `resolve`, which never fails. Times are nanoseconds of a
monotonic clock. A lookup fails when Postgres is unreachable, and also when a
text parameter contains U+0000, which Postgres rejects.
-/

namespace RateLimiter.Enforcer

structure Cap where
  limitValue : ℤ
  timeUnit : TimeUnit
deriving DecidableEq

/-- Outcome of resolving a key against the configuration. -/
inductive Resolved where
  /-- A row matched: enforce this cap. -/
  | configured (cap : Cap)
  /-- No row matched, or nothing is known: allow. -/
  | unconfigured
deriving DecidableEq

inductive QueryError where
  | unreachable
  | invalidText
deriving DecidableEq

/-- Maps the text of the Postgres enum to the protobuf one. -/
def parseTimeUnit (text : String) : TimeUnit :=
  if text = "MINUTE" then .minute
  else if text = "DAY" then .day
  else if text = "MONTH" then .month
  else .unspecified

/-- `WHERE service_name = $1 AND rate_limit_id = $2 AND customer_id IN ($3, '*')` -/
def matchesLookup (key : LimitKey) (row : LimitRow) : Bool :=
  row.serviceName = key.serviceName && row.rateLimitId = key.rateLimitId &&
    (row.customerId = key.customerId || row.customerId = defaultCustomer)

/-- `ORDER BY (customer_id = '*') LIMIT 1` over the matching rows. -/
def lookupRow (rows : List LimitRow) (key : LimitKey) : Option LimitRow :=
  ((rows.filter (matchesLookup key)).insertionSort
    fun first second => first.isDefault ≤ second.isDefault).head?

def resolution (rows : List LimitRow) (key : LimitKey) : Resolved :=
  match lookupRow rows key with
  | some row => .configured ⟨row.limitValue, parseTimeUnit row.timeUnit.text⟩
  | none => .unconfigured

/-- The exact-then-default query; `database` is absent while Postgres is unreachable. -/
def queryDb (database : Option (List LimitRow)) (key : LimitKey) : Except QueryError Resolved :=
  match database with
  | none => .error .unreachable
  | some rows =>
      if isPostgresText key.serviceName && isPostgresText key.rateLimitId &&
          isPostgresText key.customerId then
        .ok (resolution rows key)
      else .error .invalidText

/-- A cached outcome and the instant from which it is stale. -/
structure CacheEntry where
  resolved : Resolved
  expiresAt : ℕ
deriving DecidableEq

abbrev Cache := LimitKey → Option CacheEntry

/-- The configured lifetimes, in nanoseconds. -/
structure CacheSettings where
  positiveTtl : ℕ
  negativeTtl : ℕ
  jitter : ℕ

/-- `Settings::from_env`: 30 s, 5 s and 5 s. -/
def defaultCacheSettings : CacheSettings :=
  ⟨30000000000, 5000000000, 5000000000⟩

namespace Cache

def getFresh (cache : Cache) (now : ℕ) (key : LimitKey) : Option Resolved :=
  ((cache key).filter fun entry => now < entry.expiresAt).map CacheEntry.resolved

/-- Last-known-good regardless of expiry. -/
def getAny (cache : Cache) (key : LimitKey) : Option Resolved :=
  (cache key).map CacheEntry.resolved

/-- The random part of a lifetime, drawn in whole milliseconds. -/
def jitterDraw (settings : CacheSettings) (draw : ℕ) : ℕ :=
  if settings.jitter = 0 then 0
  else draw % (settings.jitter / 1000000 % 2 ^ 64 + 1) * 1000000

def baseTtl (settings : CacheSettings) : Resolved → ℕ
  | .configured _ => settings.positiveTtl
  | .unconfigured => settings.negativeTtl

/-- Stores an outcome; `draw` is the random 64-bit number of its jitter. -/
def store (cache : Cache) (settings : CacheSettings) (now draw : ℕ) (key : LimitKey)
    (resolved : Resolved) : Cache :=
  Function.update cache key
    (some ⟨resolved, now + baseTtl settings resolved + jitterDraw settings draw⟩)

/-- Resolves a key in one go: fresh entry, else query, else last-known-good, else allow. -/
def resolve (cache : Cache) (settings : CacheSettings) (now draw : ℕ)
    (database : Option (List LimitRow)) (key : LimitKey) : Resolved × Cache :=
  match cache.getFresh now key with
  | some hit => (hit, cache)
  | none =>
      match queryDb database key with
      | .ok resolved => (resolved, cache.store settings now draw key resolved)
      | .error _ => ((cache.getAny key).getD .unconfigured, cache)

theorem jitterDraw_le (settings : CacheSettings) (draw : ℕ) :
    jitterDraw settings draw ≤ settings.jitter := by
  unfold jitterDraw
  split
  · exact Nat.zero_le _
  · have drawn := Nat.lt_succ_iff.mp
      (Nat.mod_lt draw (Nat.succ_pos (settings.jitter / 1000000 % 2 ^ 64)))
    have reduced := drawn.trans (Nat.mod_le (settings.jitter / 1000000) (2 ^ 64))
    exact (Nat.mul_le_mul_right 1000000 reduced).trans
      (Nat.div_mul_le_self settings.jitter 1000000)

theorem baseTtl_le (settings : CacheSettings) (resolved : Resolved) :
    baseTtl settings resolved ≤ max settings.positiveTtl settings.negativeTtl := by
  cases resolved with
  | configured cap => exact le_max_left _ _
  | unconfigured => exact le_max_right _ _

end Cache

theorem lookupRow_mem {rows : List LimitRow} {key : LimitKey} {row : LimitRow}
    (found : lookupRow rows key = some row) : row ∈ rows ∧ matchesLookup key row = true := by
  have inSorted := List.mem_of_mem_head? found
  rw [List.mem_insertionSort] at inSorted
  exact List.mem_filter.mp inSorted

theorem parseTimeUnit_text (label : TimeUnitLabel) :
    parseTimeUnit label.text = match label with
      | .minute => .minute
      | .day => .day
      | .month => .month := by
  cases label <;> decide

end RateLimiter.Enforcer
