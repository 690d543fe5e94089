import Mathlib.Data.List.ReduceOption
import RateLimiter.Enforcer.Refinement
import RateLimiter.Enforcer.Staleness
import RateLimiter.Lib.Observation

/-!
# A fleet of enforcers

The instances of one region share the counters and the database; each keeps a
config cache of its own, and a load balancer sends every request to any one of
them. A request that passes validation resolves its cap through the cache of
its instance. It may find Postgres unreachable, and its instance has a
monotonic clock of its own.
-/

namespace RateLimiter.Enforcer

open CivilTime Machine Redis

/-- A request at one instance, with the clocks, the randomness and the database it meets. -/
structure Arrival where
  pod : ℕ
  now : ℤ
  draw : ℕ
  /-- `Instant::now()` of the instance, in nanoseconds. -/
  monotonic : ℕ
  /-- The random 64-bit number of the lifetime of a new cache entry. -/
  configDraw : ℕ
  /-- The rows of `limit_config`; absent while Postgres is unreachable. -/
  database : Option (List LimitRow)
  rpc : Rpc

inductive FleetEvent where
  | arrive (arrival : Arrival)
  | drop (key : String) (instant : ℤ)

structure Fleet where
  caches : ℕ → Cache
  keyspace : Keyspace

/-- The key that the service looks up for a request, which it validates first. -/
def Rpc.key? : Rpc → Option LimitKey
  | .charge request | .checkQuota request => do
      let key ← (validateKey request.key).toOption
      let _ ← (normalizeCost request.cost).toOption
      some key
  | .refund request => do
      let key ← (validateKey request.key).toOption
      let _ ← (validateAmount request.amount).toOption
      some key
  | .getUsage request => (validateKey request.key).toOption

theorem Call.validKey?_eq (call : Call) : call.validKey? = call.rpc.key? := by
  rcases call with ⟨now, draw, resolve, rpc⟩
  cases rpc with
  | charge request | checkQuota request =>
      simp only [validKey?, Rpc.key?, FixedWindow.validates]
      cases validateKey request.key with
      | error error => rfl
      | ok key => cases normalizeCost request.cost <;> rfl
  | refund request =>
      simp only [validKey?, Rpc.key?, FixedWindow.validates]
      cases validateKey request.key with
      | error error => rfl
      | ok key => cases validateAmount request.amount <;> rfl
  | getUsage request => simp only [validKey?, Rpc.key?, FixedWindow.validates]

namespace Arrival

def call (arrival : Arrival) (resolve : LimitKey → Resolved) : Call :=
  ⟨arrival.now, arrival.draw, resolve, arrival.rpc⟩

def key? (arrival : Arrival) : Option LimitKey :=
  arrival.rpc.key?

/-- What a request looks up is what it is about. -/
theorem key?_of_validKey? {arrival : Arrival} {resolve : LimitKey → Resolved} {key : LimitKey}
    (valid : (arrival.call resolve).validKey? = some key) : arrival.key? = some key :=
  (Call.validKey?_eq (arrival.call resolve)).symm.trans valid

end Arrival

namespace Fleet

def initial : Fleet := ⟨fun _ _ => none, fun _ => none⟩

variable (settings : CacheSettings)

/-- What the instance of a request resolves a key to, and the cache this leaves. -/
def resolve (fleet : Fleet) (arrival : Arrival) (key : LimitKey) : Resolved × Cache :=
  (fleet.caches arrival.pod).resolve settings arrival.monotonic arrival.configDraw
    arrival.database key

/-- The request as its instance executes it. -/
def callOf (fleet : Fleet) (arrival : Arrival) : Call :=
  arrival.call fun key => (resolve settings fleet arrival key).1

def cachesAfter (fleet : Fleet) (arrival : Arrival) : ℕ → Cache :=
  match arrival.key? with
  | none => fleet.caches
  | some key =>
      Function.update fleet.caches arrival.pod (resolve settings fleet arrival key).2

def react (fleet : Fleet) : FleetEvent → Option Reply × Fleet
  | .arrive arrival =>
      let answered := perform (fleet.callOf settings arrival) fleet.keyspace
      (some answered.1, ⟨fleet.cachesAfter settings arrival, answered.2⟩)
  | .drop key _ => (none, { fleet with keyspace := Redis.drop fleet.keyspace key })

def replies (fleet : Fleet) (events : List FleetEvent) : List Reply :=
  (outputs (react settings) fleet events).reduceOption

def fleetAfter (fleet : Fleet) (events : List FleetEvent) : Fleet :=
  after (fun state event => (react settings state event).2) fleet events

end Fleet

/-- What a request would be told without any cache: text that Postgres refuses matches no row. -/
def tableResolve (rows : List LimitRow) (key : LimitKey) : Resolved :=
  ((queryDb (some rows) key).toOption).getD .unconfigured

/-- The fleet without caches: `loaded` tells which keys an instance has read at least once. -/
structure Uncached where
  loaded : ℕ → LimitKey → Bool
  keyspace : Keyspace

namespace Uncached

variable (rows : List LimitRow)

/-- An instance that has never reached the database for a key lets it pass. -/
def resolve (loaded : ℕ → LimitKey → Bool) (arrival : Arrival) (key : LimitKey) : Resolved :=
  if arrival.database.isSome || loaded arrival.pod key then tableResolve rows key
  else .unconfigured

def loadedAfter (loaded : ℕ → LimitKey → Bool) (arrival : Arrival) : ℕ → LimitKey → Bool :=
  fun pod key => loaded pod key ||
    (arrival.database.isSome && pod = arrival.pod && arrival.key? = some key)

def react (state : Uncached) : FleetEvent → Option Reply × Uncached
  | .arrive arrival =>
      let answered := perform (arrival.call (resolve rows state.loaded arrival)) state.keyspace
      (some answered.1, ⟨loadedAfter state.loaded arrival, answered.2⟩)
  | .drop key _ => (none, { state with keyspace := Redis.drop state.keyspace key })

/-- The run of the uncached fleet as a run of one enforcer. -/
def events (loaded : ℕ → LimitKey → Bool) : List FleetEvent → List Event
  | [] => []
  | .arrive arrival :: rest =>
      .call (arrival.call (resolve rows loaded arrival)) ::
        events (loadedAfter loaded arrival) rest
  | .drop key instant :: rest => .drop key instant :: events loaded rest

theorem replies_events (events : List FleetEvent) : ∀ state : Uncached,
    (outputs (react rows) state events).reduceOption =
      Event.replies state.keyspace (Uncached.events rows state.loaded events) := by
  induction events with
  | nil => exact fun _ => rfl
  | cons event rest ih =>
      intro state
      cases event with
      | arrive arrival =>
          simp only [outputs, react, List.reduceOption_cons_of_some, ih, Uncached.events,
            Event.replies]
      | drop key instant =>
          simp only [outputs, react, List.reduceOption_cons_of_none, ih, Uncached.events,
            Event.replies]

end Uncached

/-- No text of the key contains U+0000. -/
def LimitKey.Storable (key : LimitKey) : Prop :=
  (isPostgresText key.serviceName && isPostgresText key.rateLimitId &&
    isPostgresText key.customerId) = true

theorem queryDb_some (rows : List LimitRow) (key : LimitKey) :
    (LimitKey.Storable key ∧ queryDb (some rows) key = .ok (tableResolve rows key)) ∨
      (¬LimitKey.Storable key ∧ queryDb (some rows) key = .error .invalidText ∧
        tableResolve rows key = .unconfigured) := by
  by_cases storable : LimitKey.Storable key
  · left
    refine ⟨storable, ?_⟩
    simp only [LimitKey.Storable] at storable
    simp [tableResolve, queryDb, storable, Except.toOption]
  · right
    refine ⟨storable, ?_⟩
    simp only [LimitKey.Storable] at storable
    simp [tableResolve, queryDb, storable, Except.toOption]

namespace Cache

variable {settings : CacheSettings} {cache : Cache} {now draw : ℕ}
  {database : Option (List LimitRow)} {key : LimitKey}

/-- A lookup serves a fresh entry, reads the database, or falls back on what it has. -/
theorem resolve_cases (settings : CacheSettings) (cache : Cache) (now draw : ℕ)
    (database : Option (List LimitRow)) (key : LimitKey) :
    (∃ entry, cache key = some entry ∧ now < entry.expiresAt ∧
        cache.resolve settings now draw database key = (entry.resolved, cache)) ∨
      ((∀ entry, cache key = some entry → entry.expiresAt ≤ now) ∧
        ((∃ resolved, queryDb database key = .ok resolved ∧
            cache.resolve settings now draw database key =
              (resolved, cache.store settings now draw key resolved)) ∨
          ∃ error, queryDb database key = .error error ∧
            cache.resolve settings now draw database key =
              ((cache.getAny key).getD .unconfigured, cache))) := by
  cases held : cache key with
  | none =>
      right
      refine ⟨by simp, ?_⟩
      have missed : cache.getFresh now key = none := by simp [getFresh, held]
      cases queried : queryDb database key with
      | ok resolved => exact Or.inl ⟨resolved, rfl, by simp only [resolve, missed, queried]⟩
      | error error => exact Or.inr ⟨error, rfl, by simp only [resolve, missed, queried]⟩
  | some entry =>
      by_cases fresh : now < entry.expiresAt
      · left
        have hit : cache.getFresh now key = some entry.resolved := by simp [getFresh, held, fresh]
        exact ⟨entry, rfl, fresh, by simp only [resolve, hit]⟩
      · right
        have missed : cache.getFresh now key = none := by
          simp [getFresh, held, Nat.le_of_not_lt fresh]
        refine ⟨fun other same => by cases same; exact Nat.le_of_not_lt fresh, ?_⟩
        cases queried : queryDb database key with
        | ok resolved => exact Or.inl ⟨resolved, rfl, by simp only [resolve, missed, queried]⟩
        | error error => exact Or.inr ⟨error, rfl, by simp only [resolve, missed, queried]⟩

end Cache

namespace Fleet

variable {settings : CacheSettings} {rows : List LimitRow} {fleet : Fleet}

/-- What one request does to one entry of one cache. -/
theorem cachesAfter_cases (settings : CacheSettings) (fleet : Fleet) (arrival : Arrival)
    (pod : ℕ) (key : LimitKey) :
    (fleet.cachesAfter settings arrival pod key = fleet.caches pod key ∧
        ¬(pod = arrival.pod ∧ arrival.key? = some key)) ∨
      (pod = arrival.pod ∧ arrival.key? = some key ∧
        ((∃ entry, fleet.caches pod key = some entry ∧
            fleet.cachesAfter settings arrival pod key = some entry) ∨
          (∃ resolved, queryDb arrival.database key = .ok resolved ∧
            fleet.cachesAfter settings arrival pod key = some ⟨resolved, arrival.monotonic +
              Cache.baseTtl settings resolved +
              Cache.jitterDraw settings arrival.configDraw⟩) ∨
          ∃ error, queryDb arrival.database key = .error error ∧
            fleet.cachesAfter settings arrival pod key = fleet.caches pod key)) := by
  cases isKey : arrival.key? with
  | none =>
      left
      refine ⟨by simp only [cachesAfter, isKey], by simp⟩
  | some requested =>
      simp only [cachesAfter, isKey, resolve, Option.some.injEq]
      by_cases here : pod = arrival.pod
      · subst pod
        by_cases same : requested = key
        · subst requested
          right
          refine ⟨rfl, rfl, ?_⟩
          rw [Function.update_self]
          rcases Cache.resolve_cases settings (fleet.caches arrival.pod) arrival.monotonic
            arrival.configDraw arrival.database key with ⟨entry, held, _, hit⟩ |
            ⟨_, ⟨resolved, queried, stored⟩ | ⟨error, failed, fallback⟩⟩
          · exact Or.inl ⟨entry, held, by rw [hit]; exact held⟩
          · refine Or.inr (Or.inl ⟨resolved, queried, ?_⟩)
            simp only [stored, Cache.store, Function.update_self]
          · exact Or.inr (Or.inr ⟨error, failed, by rw [fallback]⟩)
        · left
          refine ⟨?_, by simp [same]⟩
          rw [Function.update_self]
          rcases Cache.resolve_cases settings (fleet.caches arrival.pod) arrival.monotonic
            arrival.configDraw arrival.database requested with ⟨entry, _, _, hit⟩ |
            ⟨_, ⟨resolved, _, stored⟩ | ⟨error, _, fallback⟩⟩
          · rw [hit]
          · simp only [stored, Cache.store, Function.update_of_ne (Ne.symm same)]
          · rw [fallback]
      · left
        exact ⟨by rw [Function.update_of_ne here], by simp [here]⟩

/-- The caches hold what the table says, for the keys that their instances have read. -/
structure Tracks (rows : List LimitRow) (fleet : Fleet) (uncached : Uncached) : Prop where
  keyspace : fleet.keyspace = uncached.keyspace
  cached : ∀ pod key entry, fleet.caches pod key = some entry →
    entry.resolved = tableResolve rows key ∧ uncached.loaded pod key = true
  loaded : ∀ pod key, uncached.loaded pod key = true →
    (∃ entry, fleet.caches pod key = some entry) ∨ tableResolve rows key = .unconfigured

/-- A request finds the table as it is, or does not reach it. -/
def Reads (rows : List LimitRow) : FleetEvent → Prop
  | .arrive arrival => arrival.database = none ∨ arrival.database = some rows
  | .drop _ _ => True

section Unchanged

variable {uncached : Uncached} {arrival : Arrival}
  (tracks : Tracks rows fleet uncached) (reads : Reads rows (.arrive arrival))

include tracks reads

theorem resolve_tracked (key : LimitKey) :
    (resolve settings fleet arrival key).1 =
      Uncached.resolve rows uncached.loaded arrival key := by
  simp only [resolve, Uncached.resolve]
  rcases Cache.resolve_cases settings (fleet.caches arrival.pod) arrival.monotonic
    arrival.configDraw arrival.database key with ⟨entry, held, _, hit⟩ |
    ⟨_, ⟨resolved, queried, stored⟩ | ⟨error, failed, fallback⟩⟩
  · rcases tracks.cached arrival.pod key entry held with ⟨value, known⟩
    simp [hit, value, known]
  · rcases reads with absent | present
    · simp [absent, queryDb] at queried
    · rw [present] at queried
      rw [stored]
      simp [present, tableResolve, queried, Except.toOption]
  · rw [fallback]
    cases held : fleet.caches arrival.pod key with
    | some entry =>
        rcases tracks.cached arrival.pod key entry held with ⟨value, known⟩
        simp [Cache.getAny, held, value, known]
    | none =>
        have unread : uncached.loaded arrival.pod key = true →
            tableResolve rows key = .unconfigured := by
          intro known
          rcases tracks.loaded arrival.pod key known with ⟨entry, cached⟩ | unlimited
          · simp [held] at cached
          · exact unlimited
        rcases reads with absent | present
        · simp only [Cache.getAny, held, Option.map_none, Option.getD_none, absent,
            Option.isSome_none, Bool.false_or]
          split
          · rename_i known
            exact (unread known).symm
          · rfl
        · rw [present] at failed
          simp [Cache.getAny, held, present, tableResolve, failed, Except.toOption]

theorem callOf_tracked :
    fleet.callOf settings arrival =
      arrival.call (Uncached.resolve rows uncached.loaded arrival) := by
  simp only [callOf, resolve_tracked tracks reads]

theorem cachesAfter_tracked {keyspace : Keyspace} :
    Tracks rows ⟨fleet.cachesAfter settings arrival, keyspace⟩
      ⟨Uncached.loadedAfter uncached.loaded arrival, keyspace⟩ := by
  refine ⟨rfl, ?_, ?_⟩
  · intro pod key entry cached
    simp only at cached ⊢
    rcases cachesAfter_cases settings fleet arrival pod key with ⟨same, _⟩ |
      ⟨here, isKey, ⟨kept, held, same⟩ | ⟨resolved, queried, stored⟩ | ⟨error, failed, same⟩⟩
    · rw [same] at cached
      rcases tracks.cached pod key entry cached with ⟨value, known⟩
      exact ⟨value, by simp [Uncached.loadedAfter, known]⟩
    · rw [same, ← held] at cached
      rcases tracks.cached pod key entry cached with ⟨value, known⟩
      exact ⟨value, by simp [Uncached.loadedAfter, known]⟩
    · rw [stored, Option.some.injEq] at cached
      subst entry
      rcases reads with absent | present
      · simp [absent, queryDb] at queried
      · rw [present] at queried
        refine ⟨by simp [tableResolve, queried, Except.toOption], ?_⟩
        simp [Uncached.loadedAfter, here, isKey, present]
    · rw [same] at cached
      rcases tracks.cached pod key entry cached with ⟨value, known⟩
      exact ⟨value, by simp [Uncached.loadedAfter, known]⟩
  · intro pod key known
    simp only [Uncached.loadedAfter, Bool.or_eq_true, Bool.and_eq_true, decide_eq_true_eq]
      at known
    rcases cachesAfter_cases settings fleet arrival pod key with ⟨same, elsewhere⟩ |
      ⟨here, isKey, ⟨kept, held, same⟩ | ⟨resolved, queried, stored⟩ | ⟨error, failed, same⟩⟩
    · rcases known with before | ⟨⟨_, here⟩, isKey⟩
      · simp only [same]
        exact tracks.loaded pod key before
      · exact absurd ⟨here, isKey⟩ elsewhere
    · exact Or.inl ⟨kept, same⟩
    · exact Or.inl ⟨_, stored⟩
    · rcases known with before | ⟨⟨reached, _⟩, _⟩
      · simp only [same]
        exact tracks.loaded pod key before
      · rcases reads with absent | present
        · simp [absent] at reached
        · rw [present] at failed
          exact Or.inr (by simp [tableResolve, failed, Except.toOption])

end Unchanged

theorem simulates_uncached (settings : CacheSettings) (rows : List LimitRow) :
    Simulates (react settings) (Uncached.react rows) (Reads rows) (Tracks rows) where
  output := by
    intro fleet uncached event reads tracks
    cases event with
    | arrive arrival =>
        simp only [react, Uncached.react, callOf_tracked tracks reads, tracks.keyspace]
    | drop key instant => rfl
  next := by
    intro fleet uncached event reads tracks
    cases event with
    | arrive arrival =>
        simp only [react, Uncached.react, callOf_tracked tracks reads, tracks.keyspace]
        exact cachesAfter_tracked tracks reads
    | drop key instant =>
        refine ⟨?_, tracks.cached, tracks.loaded⟩
        simp only [react, Uncached.react, tracks.keyspace]

/-- While the table does not change, no reply shows which instance gave it or what it cached. -/
theorem replies_eq_uncached {events : List FleetEvent}
    (reads : ∀ event ∈ events, Reads rows event) :
    replies settings initial events =
      Event.replies (fun _ => none) (Uncached.events rows (fun _ _ => false) events) := by
  have tracks : Tracks rows initial ⟨fun _ _ => false, fun _ => none⟩ := by
    refine ⟨rfl, ?_, ?_⟩
    · intro pod key entry cached
      simp [initial] at cached
    · intro pod key known
      simp at known
  simp only [replies, (simulates_uncached settings rows).outputs_eq reads tracks,
    Uncached.replies_events]

/-- Any number of instances, with any routing, caches and outages, count like one fixed-window
counter: a request is unlimited until its instance has once read its key, and from then on it
meets the cap of the table. -/
theorem fleet_refines_fixedWindow {clock : ℤ} {events : List FleetEvent}
    (reads : ∀ event ∈ events, Reads rows event)
    (lawful : Lawful clock (fun _ => none) (Uncached.events rows (fun _ _ => false) events))
    (bounded : ExactRun (fun _ => 0)
      (Event.calls (Uncached.events rows (fun _ _ => false) events))) :
    replies settings initial events = FixedWindow.replies (fun _ => 0)
      (Event.calls (Uncached.events rows (fun _ _ => false) events)) :=
  (replies_eq_uncached reads).trans (replies_eq lawful (Represents.empty clock) bounded)

/-- The longest time that an entry can live. -/
def maxLifetime (settings : CacheSettings) : ℕ :=
  max settings.positiveTtl settings.negativeTtl + settings.jitter

/-- A request that its instance serves no later than at `latest`. -/
def ServedBy (latest : ℕ → ℕ) : FleetEvent → Prop
  | .arrive arrival => arrival.monotonic ≤ latest arrival.pod
  | .drop _ _ => True

/-- A request that reaches the table after the entries made before `latest` have expired. -/
def Converged (settings : CacheSettings) (rows : List LimitRow) (latest : ℕ → ℕ) :
    FleetEvent → Prop
  | .arrive arrival => arrival.database = some rows ∧
      latest arrival.pod + maxLifetime settings ≤ arrival.monotonic
  | .drop _ _ => True

/-- Every entry says what the table says, or has expired. -/
structure Ageing (settings : CacheSettings) (rows : List LimitRow) (latest : ℕ → ℕ)
    (fleet : Fleet) (uncached : Uncached) : Prop where
  keyspace : fleet.keyspace = uncached.keyspace
  loaded : ∀ pod key, uncached.loaded pod key = true
  cached : ∀ pod key entry, fleet.caches pod key = some entry → LimitKey.Storable key ∧
    (entry.resolved = tableResolve rows key ∨
      entry.expiresAt ≤ latest pod + maxLifetime settings)

section Changed

variable {latest : ℕ → ℕ}

/-- Every entry was read from the database and expires one longest lifetime after `latest`. -/
def Expiring (settings : CacheSettings) (latest : ℕ → ℕ) (fleet : Fleet) : Prop :=
  ∀ pod key entry, fleet.caches pod key = some entry →
    LimitKey.Storable key ∧ entry.expiresAt ≤ latest pod + maxLifetime settings

theorem expiring_react {event : FleetEvent} (expiring : Expiring settings latest fleet)
    (served : ServedBy latest event) : Expiring settings latest (react settings fleet event).2 := by
  intro pod key entry cached
  cases event with
  | drop dropped instant => exact expiring pod key entry cached
  | arrive arrival =>
      simp only [react] at cached
      rcases cachesAfter_cases settings fleet arrival pod key with ⟨same, _⟩ |
        ⟨here, _, ⟨kept, isKept, same⟩ | ⟨resolved, queried, stored⟩ | ⟨error, _, same⟩⟩
      · rw [same] at cached
        exact expiring pod key entry cached
      · rw [same, ← isKept] at cached
        exact expiring pod key entry cached
      · rw [stored, Option.some.injEq] at cached
        subst entry
        constructor
        · cases reached : arrival.database with
          | none => simp [reached, queryDb] at queried
          | some present =>
              rw [reached] at queried
              rcases queryDb_some present key with ⟨storable, _⟩ | ⟨_, failed, _⟩
              · exact storable
              · simp [failed] at queried
        · have short := ConfigState.expiresAt_store_le settings arrival.monotonic
            arrival.configDraw resolved
          simp only [ServedBy, ← here] at served
          simp only [maxLifetime]
          omega
      · rw [same] at cached
        exact expiring pod key entry cached

theorem fleetAfter_expiring {earlier : List FleetEvent} :
    ∀ {fleet : Fleet}, Expiring settings latest fleet →
      (∀ event ∈ earlier, ServedBy latest event) →
      Expiring settings latest (fleetAfter settings fleet earlier) := by
  induction earlier with
  | nil => exact fun expiring _ => expiring
  | cons event rest ih =>
      intro fleet expiring served
      apply ih
      · exact expiring_react expiring (served event (List.mem_cons_self ..))
      · exact fun later mem => served later (List.mem_cons_of_mem _ mem)

variable {uncached : Uncached} {arrival : Arrival}
  (ageing : Ageing settings rows latest fleet uncached)
  (converged : Converged settings rows latest (.arrive arrival))

include ageing converged

theorem resolve_converged (key : LimitKey) :
    (resolve settings fleet arrival key).1 =
      Uncached.resolve rows uncached.loaded arrival key := by
  rcases converged with ⟨present, late⟩
  simp only [resolve, Uncached.resolve, ageing.loaded, Bool.or_true, if_true]
  rcases Cache.resolve_cases settings (fleet.caches arrival.pod) arrival.monotonic
    arrival.configDraw arrival.database key with ⟨entry, held, fresh, hit⟩ |
    ⟨_, ⟨resolved, queried, stored⟩ | ⟨error, failed, fallback⟩⟩
  · rcases (ageing.cached arrival.pod key entry held).2 with value | expired
    · rw [hit, value]
    · omega
  · rw [present] at queried
    rw [stored]
    simp [tableResolve, queried, Except.toOption]
  · rw [present] at failed
    rcases queryDb_some rows key with ⟨_, succeeds⟩ | ⟨unstorable, _, unlimited⟩
    · simp [succeeds] at failed
    · cases held : fleet.caches arrival.pod key with
      | some entry => exact absurd (ageing.cached arrival.pod key entry held).1 unstorable
      | none => simp [fallback, Cache.getAny, held, unlimited]

theorem cachesAfter_converged {keyspace : Keyspace} :
    Ageing settings rows latest ⟨fleet.cachesAfter settings arrival, keyspace⟩
      ⟨Uncached.loadedAfter uncached.loaded arrival, keyspace⟩ := by
  rcases converged with ⟨present, late⟩
  refine ⟨rfl, fun pod key => by simp [Uncached.loadedAfter, ageing.loaded], ?_⟩
  intro pod key entry cached
  simp only at cached
  rcases cachesAfter_cases settings fleet arrival pod key with ⟨same, _⟩ |
    ⟨here, isKey, ⟨kept, held, same⟩ | ⟨resolved, queried, stored⟩ | ⟨error, failed, same⟩⟩
  · rw [same] at cached
    exact ageing.cached pod key entry cached
  · rw [same, ← held] at cached
    exact ageing.cached pod key entry cached
  · rw [stored, Option.some.injEq] at cached
    subst entry
    rw [present] at queried
    rcases queryDb_some rows key with ⟨storable, succeeds⟩ | ⟨_, fails, _⟩
    · rw [queried, Except.ok.injEq] at succeeds
      exact ⟨storable, Or.inl succeeds⟩
    · simp [fails] at queried
  · rw [same] at cached
    exact ageing.cached pod key entry cached

end Changed

theorem simulates_converged (settings : CacheSettings) (rows : List LimitRow)
    (latest : ℕ → ℕ) :
    Simulates (react settings) (Uncached.react rows) (Converged settings rows latest)
      (Ageing settings rows latest) where
  output := by
    intro fleet uncached event converged ageing
    cases event with
    | arrive arrival =>
        simp only [react, Uncached.react, callOf, resolve_converged ageing converged,
          ageing.keyspace]
    | drop key instant => rfl
  next := by
    intro fleet uncached event converged ageing
    cases event with
    | arrive arrival =>
        simp only [react, Uncached.react, callOf, resolve_converged ageing converged,
          ageing.keyspace]
        exact cachesAfter_converged ageing converged
    | drop key instant =>
        refine ⟨?_, ageing.loaded, ageing.cached⟩
        simp only [react, Uncached.react, ageing.keyspace]

end Fleet

section Exactness

/-- Caps that were read from accepted rows are admitted, and so is no cap. -/
theorem Uncached.resolve_admitted {rows : List LimitRow} (arrival : Arrival)
    (loaded : ℕ → LimitKey → Bool)
    (accepted : ∀ row ∈ rows, Management.LimitValidator.validateLimitWrite row.key
      row.limitValue (.known (parseTimeUnit row.timeUnit.text)) = .ok ()) :
    (arrival.call (Uncached.resolve rows loaded arrival)).Admitted := by
  intro key cap resolved
  refine ⟨rows, accepted, ?_⟩
  simp only [Arrival.call, Uncached.resolve] at resolved
  split at resolved
  · rcases queryDb_some rows key with ⟨_, queried⟩ | ⟨_, _, unlimited⟩
    · exact queried.trans (congrArg Except.ok resolved)
    · simp [unlimited] at resolved
  · simp at resolved

theorem Uncached.resolve_limit {rows : List LimitRow} {arrival : Arrival}
    {loaded : ℕ → LimitKey → Bool} {key : LimitKey} {cap : Cap} {bound : ℤ}
    (below : ∀ row ∈ rows, row.limitValue < bound)
    (resolved : (arrival.call (Uncached.resolve rows loaded arrival)).resolve key =
      .configured cap) : cap.limitValue < bound := by
  simp only [Arrival.call, Uncached.resolve] at resolved
  split at resolved
  · simp only [tableResolve, queryDb] at resolved
    split at resolved
    · simp only [Except.toOption, Option.getD_some, resolution] at resolved
      cases found : lookupRow rows key with
      | none => simp [found] at resolved
      | some row =>
          simp only [found, Resolved.configured.injEq] at resolved
          have inside := below row (lookupRow_mem found).1
          rw [← resolved]
          exact inside
    · simp [Except.toOption] at resolved
  · simp at resolved

end Exactness

section Witness

def sampleArrival (pod : ℕ) (now : ℤ) (database : Option (List LimitRow)) (rpc : Rpc) :
    FleetEvent :=
  .arrive ⟨pod, now, 7, now.toNat, 3, database, rpc⟩

/-- Two instances charge one tuple; the second one meets an outage before it has read its cap,
the first one after it. -/
def sampleFleetEvents : List FleetEvent :=
  [sampleArrival 0 0 (some [sampleRow]) (.charge ⟨some ⟨"search", "acme|eu", "query"⟩, 0⟩),
    sampleArrival 1 1 none (.charge ⟨some ⟨"search", "acme|eu", "query"⟩, 5⟩),
    sampleArrival 1 2 (some [sampleRow]) (.charge ⟨some ⟨"search", "acme|eu", "query"⟩, 3⟩),
    sampleArrival 0 3 none (.getUsage ⟨some ⟨"search", "acme|eu", "query"⟩⟩)]

theorem sampleFleetEvents_lawful :
    Lawful 0 (fun _ => none)
      (Uncached.events [sampleRow] (fun _ _ => false) sampleFleetEvents) := by
  have admitted : ∀ (arrival : Arrival) loaded,
      (arrival.call (Uncached.resolve [sampleRow] loaded arrival)).Admitted :=
    fun arrival loaded => Uncached.resolve_admitted arrival loaded (by decide)
  refine .call (by decide) (by decide) (admitted _ _) ?_
  refine .call (by decide) (by decide) (admitted _ _) ?_
  refine .call (by decide) (by decide) (admitted _ _) ?_
  exact .call (by decide) (by decide) (admitted _ _) .nil

theorem sampleFleetEvents_exact :
    ExactRun (fun _ => 0) (Event.calls
      (Uncached.events [sampleRow] (fun _ _ => false) sampleFleetEvents)) := by
  have below : ∀ row ∈ [sampleRow], row.limitValue < 2 ^ 53 := by decide
  refine exactRun_of_costs ?_ (by decide)
  intro call mem
  simp only [sampleFleetEvents, sampleArrival, Uncached.events, Event.calls, List.mem_cons,
    List.not_mem_nil, or_false] at mem
  rcases mem with rfl | rfl | rfl | rfl
  · exact ⟨fun _ _ => Uncached.resolve_limit below, (by decide : (0 : ℤ) < 2 ^ 53)⟩
  · exact ⟨fun _ _ => Uncached.resolve_limit below, (by decide : (5 : ℤ) < 2 ^ 53)⟩
  · exact ⟨fun _ _ => Uncached.resolve_limit below, (by decide : (3 : ℤ) < 2 ^ 53)⟩
  · exact ⟨fun _ _ => Uncached.resolve_limit below, trivial⟩

theorem fleet_refines_fixedWindow_sample :
    Fleet.replies defaultCacheSettings Fleet.initial sampleFleetEvents =
      [.charge (.ok ⟨9, 10, some 60000000000⟩), .charge (.ok unlimited),
        .charge (.ok ⟨6, 10, some 60000000000⟩),
        .getUsage (.ok ⟨4, 6, 10, some 60000000000, true⟩)] := by
  have reads : ∀ event ∈ sampleFleetEvents, Fleet.Reads [sampleRow] event := by
    simp [sampleFleetEvents, sampleArrival, Fleet.Reads]
  rw [Fleet.fleet_refines_fixedWindow reads sampleFleetEvents_lawful sampleFleetEvents_exact]
  decide +kernel

end Witness

end RateLimiter.Enforcer
