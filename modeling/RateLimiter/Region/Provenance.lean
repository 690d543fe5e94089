import RateLimiter.Enforcer.Outage
import RateLimiter.Management.AuditTrail

/-!
# Every enforced cap can be accounted for

One region: the control plane with its tables, and any number of enforcers that
read `limit_config` through caches of their own. Calls of administrators
interleave with every step of every lookup. Whatever cap an enforcer answers
with was effective at some earlier moment, and the audit table names the call
that wrote it and who made that call.
-/

namespace RateLimiter.Region

open Machine Enforcer Management

/-- One step of a lookup at an enforcer; the configuration is changed by calls only. -/
inductive ResolveAction where
  | start (key : LimitKey)
  | query (id : ℕ)
  | disconnect (id : ℕ)
  | finish (id draw : ℕ)

def ResolveAction.toConfig : ResolveAction → ConfigAction
  | .start key => .start key
  | .query id => .query id
  | .disconnect id => .disconnect id
  | .finish id draw => .finish id draw

inductive RegionEvent where
  /-- An administrator calls the control plane. -/
  | admin (call : AdminCall)
  /-- An enforcer takes a step of one of its lookups. -/
  | resolve (pod instant : ℕ) (action : ResolveAction)

structure Deployment where
  plane : ControlPlane
  pods : ℕ → ConfigState

namespace Deployment

def initial (pool : ℕ → Connection) : Deployment :=
  ⟨⟨pool, .empty⟩, fun _ => ConfigState.initial []⟩

variable (backend : Backend) (settings : CacheSettings)

def step (region : Deployment) : RegionEvent → Deployment
  | .admin call =>
      let plane := (serve backend region.plane call).2
      ⟨plane, fun pod => (region.pods pod).step settings ⟨0, .commit plane.database.limits⟩⟩
  | .resolve pod instant action =>
      { region with
        pods := Function.update region.pods pod
          ((region.pods pod).step settings ⟨instant, action.toConfig⟩) }

/-- The key and the outcome of the lookup that an event answers. -/
def answer? (region : Deployment) : RegionEvent → Option (LimitKey × Resolved)
  | .admin _ => none
  | .resolve pod instant action => do
      let key ← (region.pods pod).callKey? ⟨instant, action.toConfig⟩
      let (_, resolved) ← (region.pods pod).answer? ⟨instant, action.toConfig⟩
      pure (key, resolved)

end Deployment

def adminCalls (events : List RegionEvent) : List AdminCall :=
  events.filterMap fun event =>
    match event with
    | .admin call => some call
    | .resolve _ _ _ => none

section Provenance

variable {backend : Backend} {settings : CacheSettings} {pool : ℕ → Connection}

/-- The outcome was effective after some of the calls. -/
def Effective (backend : Backend) (pool : ℕ → Connection) (calls : List AdminCall)
    (key : LimitKey) (resolved : Resolved) : Prop :=
  ∃ earlier, earlier <+: calls ∧
    resolved = resolution (planeAfter backend ⟨pool, .empty⟩ earlier).database.limits key

theorem Effective.mono {calls more : List AdminCall} {key : LimitKey} {resolved : Resolved}
    (effective : Effective backend pool calls key resolved) :
    Effective backend pool (calls ++ more) key resolved := by
  rcases effective with ⟨earlier, isPrefix, isResolution⟩
  exact ⟨earlier, isPrefix.trans (List.prefix_append _ _), isResolution⟩

/-- What one enforcer knows was effective once. -/
structure PodSourced (backend : Backend) (pool : ℕ → Connection) (calls : List AdminCall)
    (pod : ConfigState) : Prop where
  cache : ∀ key entry, pod.cache key = some entry →
    Effective backend pool calls key entry.resolved
  flights : ∀ id key resolved, pod.flights id = some ⟨key, some (.ok resolved)⟩ →
    Effective backend pool calls key resolved

/-- The enforcers read the table of the control plane. -/
structure Sourced (backend : Backend) (pool : ℕ → Connection) (calls : List AdminCall)
    (region : Deployment) : Prop where
  plane : region.plane = planeAfter backend ⟨pool, .empty⟩ calls
  database : ∀ pod, (region.pods pod).database = region.plane.database.limits
  pods : ∀ pod, PodSourced backend pool calls (region.pods pod)

theorem podSourced_step {calls : List AdminCall} {pod : ConfigState} (event : ConfigEvent)
    (table : pod.database = (planeAfter backend ⟨pool, .empty⟩ calls).database.limits)
    (sourced : PodSourced backend pool calls pod) :
    PodSourced backend pool calls (pod.step settings event) := by
  constructor
  · intro key entry cached
    rcases ConfigState.cache_step_cases settings pod event with
      same | ⟨id, draw, storedKey, resolved, _, flying, stored⟩
    · rw [same] at cached
      exact sourced.cache key entry cached
    · simp only [stored, Cache.store] at cached
      by_cases here : key = storedKey
      · subst storedKey
        rw [Function.update_self, Option.some.injEq] at cached
        subst entry
        exact sourced.flights id key resolved flying
      · rw [Function.update_of_ne here] at cached
        exact sourced.cache key entry cached
  · intro id key resolved flying
    rcases ConfigState.flights_step_cases settings pod event id with same |
      ⟨started, _, _, isStart⟩ | ⟨queried, _, _, isQuery⟩ | ⟨flight, _, _, lost⟩ | ⟨_, _, ended⟩
    · rw [same] at flying
      exact sourced.flights id key resolved flying
    · simp [isStart] at flying
    · simp only [isQuery, Option.some.injEq, Flight.mk.injEq] at flying
      rcases flying with ⟨rfl, outcome⟩
      refine ⟨calls, List.prefix_rfl, ?_⟩
      rw [← table]
      exact ConfigState.queryDb_eq_ok outcome
    · simp [lost] at flying
    · simp [ended] at flying

theorem database_step_resolve (pod : ConfigState) (instant : ℕ) (action : ResolveAction) :
    (pod.step settings ⟨instant, action.toConfig⟩).database = pod.database := by
  rcases ConfigState.database_step settings pod ⟨instant, action.toConfig⟩ with same | isCommit
  · exact same
  · cases action <;> simp [ResolveAction.toConfig] at isCommit

theorem sourced_after (events : List RegionEvent) :
    Sourced backend pool (adminCalls events)
      (after (Deployment.step backend settings) (Deployment.initial pool) events) := by
  refine history_invariant (fun events => Sourced backend pool (adminCalls events)) ?_ ?_ events
  · refine ⟨rfl, fun _ => rfl, fun pod => ⟨?_, ?_⟩⟩
    · intro key entry cached
      simp [Deployment.initial, ConfigState.initial] at cached
    · intro id key resolved flying
      simp [Deployment.initial, ConfigState.initial] at flying
  · intro before event sourced
    cases event with
    | admin call =>
        have calls : adminCalls (before ++ [.admin call]) = adminCalls before ++ [call] := by
          simp [adminCalls]
        have plane : (serve backend (after (Deployment.step backend settings)
            (Deployment.initial pool) before).plane call).2 =
              planeAfter backend ⟨pool, .empty⟩ (adminCalls before ++ [call]) := by
          rw [planeAfter_concat, sourced.plane]
        refine ⟨?_, fun _ => rfl, fun pod => ⟨?_, ?_⟩⟩
        · rw [calls]
          exact plane
        · intro key entry cached
          rw [calls]
          exact ((sourced.pods pod).cache key entry cached).mono
        · intro id key resolved flying
          rw [calls]
          exact ((sourced.pods pod).flights id key resolved flying).mono
    | resolve pod instant action =>
        have calls : adminCalls (before ++ [.resolve pod instant action]) = adminCalls before := by
          simp [adminCalls]
        rw [calls]
        refine ⟨sourced.plane, ?_, ?_⟩
        · intro other
          by_cases here : other = pod
          · subst other
            simp only [Deployment.step, Function.update_self, database_step_resolve]
            exact sourced.database pod
          · simp only [Deployment.step, Function.update_of_ne here]
            exact sourced.database other
        · intro other
          by_cases here : other = pod
          · subst other
            simp only [Deployment.step, Function.update_self]
            apply podSourced_step _ _ (sourced.pods pod)
            rw [sourced.database pod, sourced.plane]
          · simp only [Deployment.step, Function.update_of_ne here]
            exact sourced.pods other

/-- A row that is in the table was written by the last entry of its config id. -/
theorem exists_entry_of_mem {database : Database} {row : LimitRow} (traced : Traced database)
    (mem : row ∈ database.limits) : ∃ entry ∈ database.audit,
      entry.operation ≠ .delete ∧ entry.newRow = some (Jsonb.ofRow row) := by
  have life := traced.lives row.configId
  rw [rowOf, Query.find?_of_mem traced.distinct mem] at life
  have inside : ∀ entry ∈ historyOf database.audit row.configId, entry ∈ database.audit :=
    fun entry listed => (List.mem_filter.mp listed).1
  generalize historyOf database.audit row.configId = history at life inside
  cases life with
  | @born entry _ operation _ newRow =>
      exact ⟨entry, inside entry (by simp), by simp [operation], newRow⟩
  | @updated earlier entry _ _ _ operation _ newRow _ =>
      exact ⟨entry, inside entry (by simp), by simp [operation], newRow⟩

theorem answer?_sourced {calls : List AdminCall} {pod : ConfigState} {event : ConfigEvent}
    (sourced : PodSourced backend pool calls pod) {key : LimitKey} {id : ℕ} {cap : Cap}
    (isKey : pod.callKey? event = some key)
    (answered : pod.answer? event = some (id, .configured cap)) :
    Effective backend pool calls key (.configured cap) := by
  rcases ConfigState.answer?_cases answered with ⟨started, isStart, _, hit⟩ |
    ⟨draw, flown, isFinish, flying⟩ | ⟨draw, flown, error, isFinish, flying, fallback⟩
  · simp only [ConfigState.callKey?, isStart, Option.some.injEq] at isKey
    subst key
    simp only [Cache.getFresh, Option.map_eq_some_iff, Option.filter_eq_some_iff] at hit
    rcases hit with ⟨entry, ⟨held, _⟩, value⟩
    rw [← value]
    exact sourced.cache started entry held
  · simp only [ConfigState.callKey?, isFinish, flying, Option.map_some, Option.some.injEq]
      at isKey
    subst key
    exact sourced.flights id flown _ flying
  · simp only [ConfigState.callKey?, isFinish, flying, Option.map_some, Option.some.injEq]
      at isKey
    subst key
    cases held : pod.cache flown with
    | none => simp [Cache.getAny, held] at fallback
    | some entry =>
        simp only [Cache.getAny, held, Option.map_some, Option.getD_some] at fallback
        rw [fallback]
        exact sourced.cache flown entry held

/-- The call creates or updates a limit. -/
def SetsLimit (call : AdminCall) : Prop :=
  (∃ key limitValue timeUnit, call.request = .write (.createLimit key limitValue timeUnit)) ∨
    ∃ key limitValue timeUnit createIfAbsent,
      call.request = .write (.updateLimit key limitValue timeUnit createIfAbsent)

/-- An entry that is no deletion stems from a call that sets a limit. -/
theorem setsLimit_of_stemsFrom {start : ControlPlane} {calls : List AdminCall} {entry : AuditRow}
    {index : ℕ} (stems : StemsFrom backend start calls entry index)
    (notDeleted : entry.operation ≠ .delete) :
    ∃ call, calls[index]? = some call ∧ SetsLimit call := by
  rcases stems with ⟨call, _, _, request, isCall, _, _, isWrite, attributed, _⟩
  refine ⟨call, isCall, ?_⟩
  have runs := attributed.runs
  cases request with
  | createLimit key limitValue timeUnit => exact Or.inl ⟨_, _, _, isWrite⟩
  | updateLimit key limitValue timeUnit createIfAbsent => exact Or.inr ⟨_, _, _, _, isWrite⟩
  | deleteLimit key allowMissing => exact absurd runs notDeleted
  | registerService service => exact runs.elim

/-- A cap that any enforcer answers with was the effective one after some of the calls, and the
audit table holds the entry that wrote it, which stems from a call that creates or updates a limit
and is by a principal who may edit the service. -/
theorem enforced_cap_accountable {events : List RegionEvent} {pod instant : ℕ}
    {action : ResolveAction} {key : LimitKey} {cap : Cap}
    (answered : (after (Deployment.step backend settings) (Deployment.initial pool) events).answer?
      (.resolve pod instant action) = some (key, .configured cap)) :
    ∃ earlier row entry index, earlier <+: adminCalls events ∧
      lookupRow (planeAfter backend ⟨pool, .empty⟩ earlier).database.limits key = some row ∧
      cap = ⟨row.limitValue, parseTimeUnit row.timeUnit.text⟩ ∧
      entry ∈ (after (Deployment.step backend settings) (Deployment.initial pool)
        events).plane.database.audit ∧
      entry.operation ≠ .delete ∧ entry.newRow = some (Jsonb.ofRow row) ∧
      StemsFrom backend ⟨pool, .empty⟩ (adminCalls events) entry index ∧
      ∃ call, (adminCalls events)[index]? = some call ∧ SetsLimit call := by
  have sourced := @sourced_after backend settings pool events
  simp only [Deployment.answer?, Option.bind_eq_bind, Option.bind_eq_some_iff, Option.pure_def,
    Option.some.injEq, Prod.mk.injEq] at answered
  rcases answered with ⟨found, isKey, ⟨id, resolved⟩, isAnswer, rfl, rfl⟩
  rcases answer?_sourced (sourced.pods pod) isKey isAnswer with
    ⟨earlier, ⟨rest, isPrefix⟩, isResolution⟩
  simp only [resolution] at isResolution
  split at isResolution
  · rename_i row found
    have traced : Traced (planeAfter backend ⟨pool, .empty⟩ earlier).database :=
      Traced.run backend Traced.empty earlier
    rcases exists_entry_of_mem traced (lookupRow_mem found).1 with
      ⟨entry, written, notDeleted, newRow⟩
    have kept : entry ∈ (planeAfter backend ⟨pool, .empty⟩ (adminCalls events)).database.audit := by
      rw [← isPrefix]
      exact (audit_grows backend ⟨pool, .empty⟩ earlier rest).subset written
    rcases exists_stemsFrom backend rfl (adminCalls events) entry kept with ⟨index, stems⟩
    refine ⟨earlier, row, entry, index, ⟨rest, isPrefix⟩, found, ?_, ?_, notDeleted, newRow, stems,
      setsLimit_of_stemsFrom stems notDeleted⟩
    · exact Resolved.configured.inj isResolution
    · rw [sourced.plane]
      exact kept
  · simp at isResolution

end Provenance

section Witness

/-- The default is created, an enforcer reads it, and the administrator raises it. -/
def sampleRegionEvents : List RegionEvent :=
  (sampleCalls.map .admin) ++
    [.resolve 3 0 (.start ⟨"search", "acme", "query"⟩), .resolve 3 1 (.query 0),
      .admin (sampleCall "alice" (.updateLimit ⟨"search", "*", "query"⟩ 20 (.known .day) false))]

theorem enforced_cap_accountable_sample :
    ∃ earlier row entry index, earlier <+: adminCalls sampleRegionEvents ∧
      lookupRow (planeAfter sampleBackend ⟨samplePlane.pool, .empty⟩ earlier).database.limits
        ⟨"search", "acme", "query"⟩ = some row ∧
      (⟨10, .minute⟩ : Cap) = ⟨row.limitValue, parseTimeUnit row.timeUnit.text⟩ ∧
      entry ∈ (after (Deployment.step sampleBackend defaultCacheSettings)
        (Deployment.initial samplePlane.pool) sampleRegionEvents).plane.database.audit ∧
      entry.operation ≠ .delete ∧ entry.newRow = some (Jsonb.ofRow row) ∧
      StemsFrom sampleBackend ⟨samplePlane.pool, .empty⟩ (adminCalls sampleRegionEvents) entry
        index ∧
      ∃ call, (adminCalls sampleRegionEvents)[index]? = some call ∧ SetsLimit call :=
  @enforced_cap_accountable sampleBackend defaultCacheSettings samplePlane.pool
    sampleRegionEvents 3 2 (.finish 0 0) ⟨"search", "acme", "query"⟩ ⟨10, .minute⟩
    (by decide +kernel)

end Witness

end RateLimiter.Region
