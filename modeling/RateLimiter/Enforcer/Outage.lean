import RateLimiter.Enforcer.Staleness
import RateLimiter.Enforcer.Service
import RateLimiter.Management.Resolution

/-!
# Serving without the database

When its query fails, a `resolve` call answers with what was stored last for
its key, however old that is, and leaves the cache as it is. So a key whose
last stored lookup is configured stays configured throughout an outage. The
same branch is taken when the query fails for another reason: Postgres refuses
a key that contains U+0000, and such a caller is not limited at all.
-/

namespace RateLimiter.Enforcer

open Machine

namespace ConfigState

/-- The lookup that an event stores in the cache. -/
def stored? (state : ConfigState) (event : ConfigEvent) : Option (LimitKey × Resolved) :=
  match event.action with
  | .finish id _ =>
      match state.flights id with
      | some ⟨key, some (.ok resolved)⟩ => some (key, resolved)
      | _ => none
  | _ => none

/-- The key of the call that an event answers. -/
def callKey? (state : ConfigState) (event : ConfigEvent) : Option LimitKey :=
  match event.action with
  | .start key => some key
  | .finish id _ => (state.flights id).map Flight.key
  | _ => none

variable (settings : CacheSettings)

/-- The lookups that a run stores, in order. -/
def stores : ConfigState → List ConfigEvent → List (LimitKey × Resolved)
  | _, [] => []
  | state, event :: rest =>
      (state.stored? event).toList ++ stores (state.step settings event) rest

end ConfigState

/-- The most recent one of some stored lookups that is for exactly this key. -/
def lastStored (lookups : List (LimitKey × Resolved)) (key : LimitKey) : Option Resolved :=
  ((lookups.filter fun lookup => lookup.1 = key).getLast?).map Prod.snd

section LastStored

variable {lookups : List (LimitKey × Resolved)} {key : LimitKey}

theorem lastStored_append (first second : List (LimitKey × Resolved)) (key : LimitKey) :
    lastStored (first ++ second) key = (lastStored second key).or (lastStored first key) := by
  simp only [lastStored, List.filter_append, List.getLast?_append, Option.map_or]

theorem mem_of_lastStored {resolved : Resolved} (last : lastStored lookups key = some resolved) :
    (key, resolved) ∈ lookups := by
  simp only [lastStored, Option.map_eq_some_iff] at last
  rcases last with ⟨⟨storedKey, stored⟩, isLast, rfl⟩
  rcases List.mem_filter.mp (List.mem_of_getLast? isLast) with ⟨mem, isKey⟩
  rw [decide_eq_true_eq] at isKey
  exact isKey ▸ mem

end LastStored

namespace ConfigState

variable {settings : CacheSettings}

theorem stores_append (state : ConfigState) (first second : List ConfigEvent) :
    stores settings state (first ++ second) =
      stores settings state first ++
        stores settings (after (step settings) state first) second := by
  induction first generalizing state with
  | nil => rfl
  | cons event rest ih => simp only [List.cons_append, stores, ih, after_cons, List.append_assoc]

/-- A call that stores nothing changes no entry. -/
theorem cache_step_of_stored?_none {state : ConfigState} {event : ConfigEvent}
    (nothing : state.stored? event = none) : (state.step settings event).cache = state.cache := by
  rcases cache_step_cases settings state event with
    same | ⟨id, draw, key, resolved, isFinish, present, _⟩
  · exact same
  · simp [stored?, isFinish, present] at nothing

theorem cache_step_of_stored?_some (settings : CacheSettings) {state : ConfigState}
    {event : ConfigEvent} {key : LimitKey} {resolved : Resolved}
    (stored : state.stored? event = some (key, resolved)) :
    ∃ draw, (state.step settings event).cache =
      state.cache.store settings event.instant draw key resolved := by
  cases action : event.action with
  | commit _ | start _ | query _ | disconnect _ => simp [stored?, action] at stored
  | finish id draw =>
      simp only [stored?, action] at stored
      split at stored
      · rename_i storedKey outcome present
        simp only [Option.some.injEq, Prod.mk.injEq] at stored
        rcases stored with ⟨rfl, rfl⟩
        exact ⟨draw, by simp only [step, action, present]⟩
      · simp at stored

/-- Regardless of expiry, the cache changes by exactly what an event stores. -/
theorem getAny_step (settings : CacheSettings) (state : ConfigState) (event : ConfigEvent)
    (key : LimitKey) : (state.step settings event).cache.getAny key =
      (lastStored (state.stored? event).toList key).or (state.cache.getAny key) := by
  cases stored : state.stored? event with
  | none => rw [cache_step_of_stored?_none stored]; rfl
  | some lookup =>
      rcases cache_step_of_stored?_some settings stored with ⟨draw, storing⟩
      by_cases here : key = lookup.1
      · simp [storing, Cache.getAny, Cache.store, lastStored, here]
      · simp [storing, Cache.getAny, Cache.store, lastStored, here, Ne.symm here]

/-- After every run the cache holds what the run has stored last. -/
theorem getAny_after (settings : CacheSettings) (state : ConfigState) (events : List ConfigEvent)
    (key : LimitKey) : (after (step settings) state events).cache.getAny key =
      (lastStored (stores settings state events) key).or (state.cache.getAny key) := by
  induction events generalizing state with
  | nil => rfl
  | cons event rest ih =>
      rw [after_cons, ih, getAny_step, stores, lastStored_append, Option.or_assoc]

theorem getAny_after_initial (settings : CacheSettings) (rows : List LimitRow)
    (events : List ConfigEvent) (key : LimitKey) :
    (after (step settings) (initial rows) events).cache.getAny key =
      lastStored (stores settings (initial rows) events) key := by
  rw [getAny_after]
  exact Option.or_none

/-- While the last stored lookup of a key is configured, so is every answer to a call for it,
except where the call's own query has just found no row. -/
theorem answer?_of_configured {state : ConfigState} {event : ConfigEvent} {key : LimitKey}
    {cap : Cap} (known : state.cache.getAny key = some (.configured cap)) {id : ℕ}
    {value : Resolved} (answered : state.answer? event = some (id, value))
    (isCall : state.callKey? event = some key) :
    (∃ other, value = .configured other) ∨
      value = .unconfigured ∧ state.flights id = some ⟨key, some (.ok .unconfigured)⟩ := by
  rcases answer?_cases answered with ⟨other, isStart, _, hit⟩ | ⟨draw, other, isFinish, present⟩ |
    ⟨draw, other, error, isFinish, present, served⟩
  · simp only [callKey?, isStart, Option.some.injEq] at isCall
    subst other
    simp only [Cache.getFresh, Option.map_eq_some_iff, Option.filter_eq_some_iff] at hit
    rcases hit with ⟨entry, ⟨cached, _⟩, rfl⟩
    simp only [Cache.getAny, cached, Option.map_some, Option.some.injEq] at known
    exact Or.inl ⟨cap, known⟩
  · simp only [callKey?, isFinish, present, Option.map_some, Option.some.injEq] at isCall
    subst other
    cases value with
    | configured other => exact Or.inl ⟨other, rfl⟩
    | unconfigured => exact Or.inr ⟨rfl, present⟩
  · simp only [callKey?, isFinish, present, Option.map_some, Option.some.injEq] at isCall
    subst other
    rw [known, Option.getD_some] at served
    exact Or.inl ⟨cap, served⟩

end ConfigState

open ConfigState

/-- In every run, a call whose query has failed answers with what was stored last for its key and
changes no entry. From when a configured lookup is stored until one that is not, every answer to a
call for the key is configured, except that of a call whose own query has found no row. -/
theorem outages_serve_last_known_good (settings : CacheSettings) (rows : List LimitRow) :
    (∀ before event id draw key error, event.action = .finish id draw →
      (after (step settings) (initial rows) before).flights id =
        some ⟨key, some (.error error)⟩ →
      (after (step settings) (initial rows) before).answer? event =
          some (id, (lastStored (stores settings (initial rows) before) key).getD .unconfigured) ∧
        (after (step settings) (initial rows) (before ++ [event])).cache =
          (after (step settings) (initial rows) before).cache) ∧
    ∀ earlier later key cap,
      lastStored (stores settings (initial rows) earlier) key = some (.configured cap) →
      (∀ resolved, (key, resolved) ∈
        stores settings (after (step settings) (initial rows) earlier) later →
        ∃ other, resolved = .configured other) →
      ∀ event id value,
        (after (step settings) (initial rows) (earlier ++ later)).answer? event =
          some (id, value) →
        (after (step settings) (initial rows) (earlier ++ later)).callKey? event = some key →
        (∃ other, value = .configured other) ∨
          value = .unconfigured ∧
            (after (step settings) (initial rows) (earlier ++ later)).flights id =
              some ⟨key, some (.ok .unconfigured)⟩ := by
  constructor
  · intro before event id draw key error isFinish failed
    rw [after_concat, ← getAny_after_initial settings rows before key]
    constructor
    · simp only [answer?, isFinish, failed]
    · apply cache_step_of_stored?_none
      simp only [stored?, isFinish, failed]
  · intro earlier later key cap known onlyConfigured event id value answered isCall
    have cached := getAny_after_initial settings rows (earlier ++ later) key
    rw [stores_append, lastStored_append, known] at cached
    cases last : lastStored (stores settings (after (step settings) (initial rows) earlier) later)
        key with
    | none =>
        rw [last] at cached
        exact answer?_of_configured cached answered isCall
    | some resolved =>
        rcases onlyConfigured resolved (mem_of_lastStored last) with ⟨other, rfl⟩
        rw [last] at cached
        exact answer?_of_configured cached answered isCall

section Sample

/-- A lookup stored at 2 has long expired when the connection of the next call is lost. -/
def outageRun : List ConfigEvent :=
  [⟨0, .start sampleKey⟩, ⟨1, .query 0⟩, ⟨2, .finish 0 0⟩, ⟨1000, .start sampleKey⟩,
    ⟨1001, .disconnect 1⟩]

theorem outages_serve_last_known_good_sample :
    (after (step sampleSettings) (initial (sampleRows 10)) outageRun).answer? ⟨1002, .finish 1 0⟩ =
        some (1, .configured ⟨10, .minute⟩) ∧
      ∃ other, Resolved.configured ⟨10, .minute⟩ = .configured other := by
  have serves := outages_serve_last_known_good sampleSettings (sampleRows 10)
  have fallsBack := serves.1 outageRun ⟨1002, .finish 1 0⟩ 1 0 sampleKey .unreachable rfl
    (by decide +kernel)
  have answered := fallsBack.1.trans (show _ = some (1, Resolved.configured ⟨10, .minute⟩) by
    decide +kernel)
  refine ⟨answered, ?_⟩
  have stays := serves.2 (outageRun.take 3) (outageRun.drop 3) sampleKey ⟨10, .minute⟩
    (by decide +kernel) (by
      rw [show stores sampleSettings (after (step sampleSettings) (initial (sampleRows 10))
        (outageRun.take 3)) (outageRun.drop 3) = [] by decide +kernel]
      simp)
  rcases stays ⟨1002, .finish 1 0⟩ 1 _ answered (by decide +kernel) with configured | ⟨wrong, _⟩
  · exact configured
  · simp at wrong

end Sample

section Evasion

open Query Management

/-- The cap of a row. -/
def capOf (row : LimitRow) : Cap :=
  ⟨row.limitValue, unitOf row.timeUnit⟩

/-- The table holds only texts that Postgres can hold. -/
def TextsHeld (rows : List LimitRow) : Prop :=
  ∀ row ∈ rows, isPostgresText row.serviceName = true ∧ isPostgresText row.customerId = true ∧
    isPostgresText row.rateLimitId = true

/-- A key with a default row is limited: by the row of its customer, else by the default row. -/
structure Limited (rows : List LimitRow) (key : LimitKey) (fallback : LimitRow)
    (answer : Resolved) : Prop where
  exact : ∀ row ∈ rows, row.key = key → answer = .configured (capOf row)
  default : (∀ row ∈ rows, row.key ≠ key) → answer = .configured (capOf fallback)
  configured : answer ≠ .unconfigured

theorem resolution_eq {rows : List LimitRow} {key : LimitKey} (keyed : Keyed LimitRow.key rows) :
    resolution rows key =
      match (rows.find? fun row => row.key = key).or
        (rows.find? fun row => row.key = defaultKey key) with
      | some row => .configured (capOf row)
      | none => .unconfigured := by
  simp only [resolution, lookupRow_eq_or keyed, parseTimeUnit_eq]
  rfl

theorem resolve_empty (settings : CacheSettings) (now draw : ℕ) (rows : List LimitRow)
    (key : LimitKey) :
    (Cache.resolve (fun _ => none) settings now draw (some rows) key).1 =
      if isPostgresText key.serviceName && isPostgresText key.rateLimitId &&
          isPostgresText key.customerId then resolution rows key
      else .unconfigured := by
  simp only [Cache.resolve, Cache.getFresh, Option.filter_none, Option.map_none, queryDb]
  by_cases texts : isPostgresText key.serviceName && isPostgresText key.rateLimitId &&
      isPostgresText key.customerId
  · simp only [texts, if_true]
  · simp only [texts]
    rfl

/-- On an empty cache and with Postgres reachable, a key that has a default row is limited exactly
when its customer id is a text that Postgres can hold. -/
theorem default_enforced_iff (settings : CacheSettings) (now draw : ℕ) (rows : List LimitRow)
    (key : LimitKey) (fallback : LimitRow) (keyed : Keyed LimitRow.key rows)
    (held : TextsHeld rows) (mem : fallback ∈ rows) (isDefault : fallback.key = defaultKey key) :
    Limited rows key fallback
        (Cache.resolve (fun _ => none) settings now draw (some rows) key).1 ↔
      isPostgresText key.customerId = true := by
  have fallbackTexts := held fallback mem
  have service : isPostgresText key.serviceName = true := by
    rw [← show fallback.serviceName = key.serviceName from congrArg LimitKey.serviceName isDefault]
    exact fallbackTexts.1
  have rateLimit : isPostgresText key.rateLimitId = true := by
    rw [← show fallback.rateLimitId = key.rateLimitId from congrArg LimitKey.rateLimitId isDefault]
    exact fallbackTexts.2.2
  have foundDefault := find?_of_mem keyed mem
  rw [isDefault] at foundDefault
  rw [resolve_empty, service, rateLimit, Bool.true_and, Bool.true_and]
  constructor
  · intro limited
    by_contra refused
    exact limited.configured (if_neg refused)
  · intro customer
    rw [if_pos customer, resolution_eq keyed, foundDefault]
    constructor
    · intro row rowMem isExact
      have found := find?_of_mem keyed rowMem
      rw [isExact] at found
      rw [found, Option.some_or]
    · intro noExact
      have absent : rows.find? (fun row => row.key = key) = none := by
        apply List.find?_eq_none.mpr
        simpa using noExact
      rw [absent, Option.none_or]
    · cases rows.find? (fun row => row.key = key) <;> simp

/-- A customer with a limit of its own and one on the default. -/
theorem default_enforced_iff_sample :
    (Cache.resolve (fun _ => none) defaultCacheSettings 0 0
      (some [⟨1, "search", "*", "query", 10, .minute⟩, ⟨2, "search", "acme", "query", 20, .day⟩])
      ⟨"search", "acme", "query"⟩).1 = .configured ⟨20, .day⟩ := by
  have limited := (default_enforced_iff defaultCacheSettings 0 0
    [⟨1, "search", "*", "query", 10, .minute⟩, ⟨2, "search", "acme", "query", 20, .day⟩]
    ⟨"search", "acme", "query"⟩ ⟨1, "search", "*", "query", 10, .minute⟩ (by decide)
    (by simp only [TextsHeld]; decide) (by decide) rfl).mpr (by decide)
  exact limited.exact ⟨2, "search", "acme", "query", 20, .day⟩ (by decide) rfl

/-- A customer id with U+0000 passes `validateKey`, and no default limit is applied to it. -/
theorem nul_customer_unlimited :
    validateKey (some ⟨"search", "a\x00", "query"⟩) = .ok ⟨"search", "a\x00", "query"⟩ ∧
      (Cache.resolve (fun _ => none) defaultCacheSettings 0 0
        (some [⟨1, "search", "*", "query", 10, .minute⟩]) ⟨"search", "a\x00", "query"⟩).1 =
          .unconfigured ∧
      ¬ Limited [⟨1, "search", "*", "query", 10, .minute⟩] ⟨"search", "a\x00", "query"⟩
        ⟨1, "search", "*", "query", 10, .minute⟩
        (Cache.resolve (fun _ => none) defaultCacheSettings 0 0
          (some [⟨1, "search", "*", "query", 10, .minute⟩]) ⟨"search", "a\x00", "query"⟩).1 := by
  have evades : (Cache.resolve (fun _ => none) defaultCacheSettings 0 0
      (some [⟨1, "search", "*", "query", 10, .minute⟩]) ⟨"search", "a\x00", "query"⟩).1 =
        .unconfigured := by
    decide +kernel
  exact ⟨rfl, evades, fun limited => limited.configured evades⟩

end Evasion

end RateLimiter.Enforcer
