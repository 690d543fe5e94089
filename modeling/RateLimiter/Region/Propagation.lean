import RateLimiter.Enforcer.Fleet
import RateLimiter.Management.Resolution
import RateLimiter.Region.Provenance

/-!
# An accepted limit is enforced everywhere

Once `CreateLimit` or `UpdateLimit` has been answered with OK, every lookup
that begins afterwards and reaches the database finds the new cap, at every
enforcer, and one longest cache lifetime later so does every lookup that is
answered from the cache. This lasts until somebody writes one of the two rows
that the key can fall back on.
-/

namespace RateLimiter.Region

open Machine Enforcer Management Database

/-- What one enforcer sees of a run: every call may commit another table. -/
def podEvents (backend : Backend) (pod : ℕ) : ControlPlane → List RegionEvent →
    List ConfigEvent
  | _, [] => []
  | plane, .admin call :: rest =>
      ⟨0, .commit (serve backend plane call).2.database.limits⟩ ::
        podEvents backend pod (serve backend plane call).2 rest
  | plane, .resolve other instant action :: rest =>
      if other = pod then ⟨instant, action.toConfig⟩ :: podEvents backend pod plane rest
      else podEvents backend pod plane rest

section Projection

variable {backend : Backend} {settings : CacheSettings} {pod : ℕ}

theorem pods_after (events : List RegionEvent) : ∀ region : Deployment,
    (after (Deployment.step backend settings) region events).pods pod =
      after (ConfigState.step settings) (region.pods pod)
        (podEvents backend pod region.plane events) := by
  induction events with
  | nil => exact fun _ => rfl
  | cons event rest ih =>
      intro region
      rw [after_cons, ih]
      cases event with
      | admin call => rfl
      | resolve other instant action =>
          by_cases here : other = pod
          · subst other
            simp only [Deployment.step, podEvents, if_true, after_cons, Function.update_self]
          · simp only [Deployment.step, podEvents, here, if_false,
              Function.update_of_ne (Ne.symm here)]

theorem plane_after (events : List RegionEvent) : ∀ region : Deployment,
    (after (Deployment.step backend settings) region events).plane =
      planeAfter backend region.plane (adminCalls events) := by
  induction events with
  | nil => exact fun _ => rfl
  | cons event rest ih =>
      intro region
      rw [after_cons, ih]
      cases event with
      | admin call => rfl
      | resolve other instant action => rfl

theorem podEvents_append (first second : List RegionEvent) : ∀ plane : ControlPlane,
    podEvents backend pod plane (first ++ second) = podEvents backend pod plane first ++
      podEvents backend pod (planeAfter backend plane (adminCalls first)) second := by
  induction first with
  | nil => exact fun _ => rfl
  | cons event rest ih =>
      intro plane
      cases event with
      | admin call =>
          simp only [List.cons_append, podEvents, ih]
          rfl
      | resolve other instant action =>
          simp only [List.cons_append, podEvents, ih]
          split <;> rfl

/-- An event that an enforcer sees is a commit, or a step of one of its own lookups. -/
theorem podEvents_split {events : List RegionEvent} {event : ConfigEvent} :
    ∀ {plane : ControlPlane} {before rest : List ConfigEvent},
      podEvents backend pod plane events = before ++ event :: rest →
      (event.instant = 0 ∧ ∃ rows, event.action = .commit rows) ∨
        ∃ mid action later, events = mid ++ .resolve pod event.instant action :: later ∧
          event.action = ResolveAction.toConfig action ∧
          podEvents backend pod plane mid = before := by
  induction events with
  | nil => simp [podEvents]
  | cons first events ih =>
      intro plane before rest split
      cases first with
      | admin call =>
          simp only [podEvents] at split
          cases before with
          | nil =>
              simp only [List.nil_append, List.cons.injEq] at split
              rw [← split.1]
              exact Or.inl ⟨rfl, _, rfl⟩
          | cons head before =>
              simp only [List.cons_append, List.cons.injEq] at split
              rcases ih split.2 with commit | ⟨mid, action, later, rfl, isAction, isBefore⟩
              · exact Or.inl commit
              · exact Or.inr ⟨.admin call :: mid, action, later, rfl, isAction,
                  by simp only [podEvents, isBefore, split.1]⟩
      | resolve other instant action =>
          simp only [podEvents] at split
          split at split
          · rename_i here
            subst other
            cases before with
            | nil =>
                simp only [List.nil_append, List.cons.injEq] at split
                exact Or.inr ⟨[], action, events, by simp [← split.1], by simp [← split.1], rfl⟩
            | cons head before =>
                simp only [List.cons_append, List.cons.injEq] at split
                rcases ih split.2 with commit | ⟨mid, found, later, rfl, isAction, isBefore⟩
                · exact Or.inl commit
                · exact Or.inr ⟨.resolve pod instant action :: mid, found, later, rfl, isAction,
                    by simp only [podEvents, if_true, isBefore, split.1]⟩
          · rename_i elsewhere
            rcases ih split with commit | ⟨mid, found, later, rfl, isAction, isBefore⟩
            · exact Or.inl commit
            · exact Or.inr ⟨.resolve other instant action :: mid, found, later, rfl, isAction,
                by simp only [podEvents, elsewhere, if_false, isBefore]⟩

end Projection

section Tables

variable {backend : Backend} {plane : ControlPlane} {key written : LimitKey}

theorem sane_serve (sane : Sane plane.database) (call : AdminCall) :
    Sane (serve backend plane call).2.database := by
  rcases serve_cases backend plane call with ⟨_, _, same⟩ |
    ⟨_, _, _, _, ⟨_, _, unchanged⟩ | ⟨_, _, accepted⟩⟩
  · exact sane_of_same sane same.services same.limits
  · rw [unchanged]
    exact sane
  · exact sane_of_accepted sane accepted

/-- The call writes neither the exact nor the default row of the key. -/
def Spares (key : LimitKey) (call : AdminCall) : Prop :=
  ∀ request, call.request = .write request →
    request.limitKey? ≠ some key ∧ request.limitKey? ≠ some (defaultKey key)

theorem resolution_eq_effective {database : Database} (sane : Sane database) (key : LimitKey) :
    resolution database.limits key = match database.effective key with
      | some row => .configured ⟨row.limitValue, parseTimeUnit row.timeUnit.text⟩
      | none => .unconfigured := by
  have looked : lookupRow database.limits key = database.effective key :=
    lookupRow_eq_effective sane
  cases isEffective : database.effective key with
  | none => simp only [resolution, looked, isEffective]
  | some row => simp only [resolution, looked, isEffective]

theorem effective_spared (sane : Sane plane.database) {call : AdminCall}
    (spares : Spares key call) :
    (serve backend plane call).2.database.effective key = plane.database.effective key := by
  cases isRequest : call.request with
  | read request =>
      rcases serve_cases backend plane call with ⟨_, _, same⟩ |
        ⟨_, _, _, _, ⟨_, _, unchanged⟩ | ⟨_, isWrite, _⟩⟩
      · simp only [Database.effective, findLimit, same.limits]
      · rw [unchanged]
      · simp [isRequest] at isWrite
  | write request =>
      rcases spares request isRequest with ⟨notExact, notDefault⟩
      simp only [Database.effective, findLimit_serve sane isRequest notExact,
        findLimit_serve sane isRequest notDefault]

/-- All tables that are committed while the key is spared resolve it alike. -/
theorem resolution_spared {pod : ℕ} {events : List RegionEvent} :
    ∀ {plane : ControlPlane}, Sane plane.database →
      (∀ call ∈ adminCalls events, Spares key call) →
      ∀ table ∈ commits (podEvents backend pod plane events),
        resolution table key = resolution plane.database.limits key := by
  induction events with
  | nil => simp [podEvents, commits]
  | cons event rest ih =>
      intro plane sane spares table mem
      cases event with
      | admin call =>
          have here := spares call (by simp [adminCalls])
          have later : ∀ other ∈ adminCalls rest, Spares key other := by
            intro other inside
            apply spares
            simp only [adminCalls, List.filterMap_cons]
            exact List.mem_cons_of_mem _ inside
          have saneNext := @sane_serve backend plane sane call
          have same : resolution (serve backend plane call).2.database.limits key =
              resolution plane.database.limits key := by
            rw [resolution_eq_effective saneNext, resolution_eq_effective sane,
              effective_spared sane here]
          simp only [podEvents, commits, List.filterMap_cons, List.mem_cons] at mem
          rcases mem with rfl | inside
          · exact same
          · exact (ih saneNext later table inside).trans same
      | resolve other instant action =>
          have later : ∀ call ∈ adminCalls rest, Spares key call := spares
          have notCommit : commits (podEvents backend pod plane
              (.resolve other instant action :: rest)) =
              commits (podEvents backend pod plane rest) := by
            simp only [podEvents]
            split
            · cases action <;> rfl
            · rfl
          rw [notCommit] at mem
          exact ih sane later table mem

/-- The request writes a cap for the tuple. -/
def Sets (written : LimitKey) (cap : Cap) : WriteRequest → Prop
  | .createLimit key limitValue timeUnit | .updateLimit key limitValue timeUnit _ =>
      key = written ∧ limitValue = cap.limitValue ∧ timeUnit = .known cap.timeUnit
  | _ => False

/-- The row of the written tuple decides about the key. -/
def Governs (database : Database) (written key : LimitKey) : Prop :=
  key = written ∨ defaultKey key = written ∧ database.findLimit key = none

theorem parseTimeUnit_toTimeUnitLabel (unit : TimeUnit) :
    parseTimeUnit (ProtoMappers.toTimeUnitLabel (.known unit)) = unit := by
  cases unit <;> decide

/-- A write that is answered with OK is effective at once. -/
theorem resolution_of_accepted (sane : Sane plane.database) {call : AdminCall}
    {request : WriteRequest} {response : AdminResponse} {cap : Cap}
    (isWrite : call.request = .write request) (sets : Sets written cap request)
    (accepted : (serve backend plane call).1 = .ok response)
    (governs : Governs plane.database written key) :
    resolution (serve backend plane call).2.database.limits key = .configured cap := by
  have isKey : request.limitKey? = some written := by
    cases request with
    | createLimit other limitValue timeUnit => exact congrArg some sets.1
    | updateLimit other limitValue timeUnit createIfAbsent => exact congrArg some sets.1
    | _ => exact absurd sets id
  rcases serve_cases backend plane call with ⟨_, failed, _⟩ |
    ⟨_, principal, _, authenticated, _⟩
  · rw [accepted] at failed
    simp at failed
  rcases @serve_write backend plane call principal request authenticated isWrite with
    ⟨sameResult, sameDatabase⟩
  rcases @write_leaves principal call.conditions (plane.pool call.connection) plane.database
    written sane request isKey with ⟨_, failed, _⟩ | ⟨_, _, leaves, _⟩
  · rw [← sameResult, accepted] at failed
    simp at failed
  · rw [← sameDatabase] at leaves
    have stored : ∃ row, (serve backend plane call).2.database.findLimit =
        Function.update plane.database.findLimit written (some row) ∧
        (⟨row.limitValue, parseTimeUnit row.timeUnit.text⟩ : Cap) = cap := by
      cases request with
      | createLimit other limitValue timeUnit =>
          rcases sets with ⟨rfl, rfl, rfl⟩
          rcases leaves with ⟨row, stores, isUpdate, _⟩
          refine ⟨row, isUpdate, ?_⟩
          rw [stores.limitValue, stores.timeUnit, parseTimeUnit_toTimeUnitLabel]
      | updateLimit other limitValue timeUnit createIfAbsent =>
          rcases sets with ⟨rfl, rfl, rfl⟩
          rcases leaves with ⟨row, stores, isUpdate, _⟩
          refine ⟨row, isUpdate, ?_⟩
          rw [stores.limitValue, stores.timeUnit, parseTimeUnit_toTimeUnitLabel]
      | _ => exact absurd sets id
    rcases stored with ⟨row, isUpdate, isCap⟩
    have effective : (serve backend plane call).2.database.effective key = some row := by
      rcases governs with rfl | ⟨rfl, absent⟩
      · simp [Database.effective, isUpdate]
      · by_cases own : key = defaultKey key
        · simp [Database.effective, isUpdate, ← own]
        · simp [Database.effective, isUpdate, Function.update_of_ne own, absent]
    simp only [resolution_eq_effective (sane_serve sane call), effective, isCap]

end Tables

section Propagation

variable {backend : Backend} {settings : CacheSettings} {pool : ℕ → Connection}
  {key written : LimitKey} {cap : Cap} {pod : ℕ}

/-- The region after some events. -/
def reach (backend : Backend) (settings : CacheSettings) (pool : ℕ → Connection)
    (events : List RegionEvent) : Deployment :=
  after (Deployment.step backend settings) (Deployment.initial pool) events

theorem reach_append (first second : List RegionEvent) :
    reach backend settings pool (first ++ second) =
      after (Deployment.step backend settings) (reach backend settings pool first) second :=
  after_append _ _ _ _

theorem sane_reach (events : List RegionEvent) :
    Sane (reach backend settings pool events).plane.database := by
  rw [reach, plane_after]
  exact sane_planeAfter backend pool _

/-- A lookup that begins after some event: it is answered from the cache `settled` or later, or
its query has succeeded and was not yet running then. -/
def Timely (settled : ℕ) (atWrite : ConfigState) (state : ConfigState) (instant : ℕ)
    (key : LimitKey) : ResolveAction → Prop
  | .start _ => settled ≤ instant
  | .finish id _ => atWrite.flights id = none ∧
      ∃ value, state.flights id = some ⟨key, some (.ok value)⟩
  | _ => True

theorem answer?_fresh {atCommit state : ConfigState} {deadline instant : ℕ}
    {action : ResolveAction} {committed : List (List LimitRow)} {resolved : Resolved} {id : ℕ}
    (fresh : ConfigState.Fresh settings key atCommit deadline committed state)
    (timely : Timely (deadline + Fleet.maxLifetime settings) atCommit state instant key action)
    (isKey : state.callKey? ⟨instant, action.toConfig⟩ = some key)
    (answered : state.answer? ⟨instant, action.toConfig⟩ = some (id, resolved)) :
    ∃ rows ∈ committed, resolved = resolution rows key := by
  rcases ConfigState.answer?_cases answered with ⟨other, isStart, _, hit⟩ |
    ⟨draw, other, isFinish, flying⟩ | ⟨draw, other, error, isFinish, flying, _⟩
  · cases action <;> simp only [ResolveAction.toConfig, reduceCtorEq] at isStart
    simp only [ConfigState.callKey?, ResolveAction.toConfig, Option.some.injEq] at isKey
    simp only [ConfigAction.start.injEq] at isStart
    rw [isKey] at isStart
    subst isStart
    refine fresh.hit ?_ hit
    simp only [Timely, Fleet.maxLifetime] at timely
    simp only
    omega
  · cases action <;> simp only [ResolveAction.toConfig, reduceCtorEq] at isFinish
    simp only [ConfigAction.finish.injEq] at isFinish
    rcases isFinish with ⟨rfl, rfl⟩
    simp only [ConfigState.callKey?, ResolveAction.toConfig, flying, Option.map_some,
      Option.some.injEq] at isKey
    subst other
    exact fresh.queried timely.1 flying
  · cases action <;> simp only [ResolveAction.toConfig, reduceCtorEq] at isFinish
    simp only [ConfigAction.finish.injEq] at isFinish
    rcases isFinish with ⟨rfl, rfl⟩
    rcases timely.2 with ⟨value, succeeded⟩
    simp [flying] at succeeded

/-- By `settled` the pod has done what it did before the call, and has stored the results of the
queries that were running then. -/
structure Settles (backend : Backend) (settings : CacheSettings) (pool : ℕ → Connection) (pod : ℕ)
    (key : LimitKey) (earlier : List RegionEvent) (call : AdminCall) (later : List RegionEvent)
    (settled : ℕ) : Prop where
  before : ∀ instant action, .resolve pod instant action ∈ earlier → instant ≤ settled
  stored : ∀ mid rest instant id draw resolved,
    later = mid ++ .resolve pod instant (.finish id draw) :: rest →
    ((reach backend settings pool earlier).pods pod).flights id =
      some ⟨key, some (.ok resolved)⟩ →
    ((reach backend settings pool (earlier ++ .admin call :: mid)).pods pod).flights id =
      ((reach backend settings pool earlier).pods pod).flights id → instant ≤ settled

/-- The lookups of the key that begin after the call find the cap: from the database at once, from
the cache a longest lifetime after `settled`. -/
def Enforces (backend : Backend) (settings : CacheSettings) (pool : ℕ → Connection) (pod : ℕ)
    (key : LimitKey) (earlier : List RegionEvent) (call : AdminCall) (later : List RegionEvent)
    (settled : ℕ) (cap : Cap) : Prop :=
  ∀ mid rest instant action resolved, later = mid ++ .resolve pod instant action :: rest →
    Timely (settled + Fleet.maxLifetime settings) ((reach backend settings pool earlier).pods pod)
      ((reach backend settings pool (earlier ++ .admin call :: mid)).pods pod) instant key
      action →
    (reach backend settings pool (earlier ++ .admin call :: mid)).answer?
      (.resolve pod instant action) = some (key, resolved) →
    resolved = .configured cap

/-- What a call has made effective is enforced, until the key is written again. -/
theorem enforces_of_effective {earlier later : List RegionEvent} {call : AdminCall} {settled : ℕ}
    (effective : resolution (serve backend (reach backend settings pool earlier).plane
      call).2.database.limits key = .configured cap)
    (spared : ∀ other ∈ adminCalls later, Spares key other)
    (settles : Settles backend settings pool pod key earlier call later settled) :
    Enforces backend settings pool pod key earlier call later settled cap := by
  rcases settles with ⟨before, stored⟩
  intro mid rest instant action resolved split timely answered
  have sane := @sane_reach backend settings pool earlier
  have history : (reach backend settings pool earlier).pods pod =
      after (ConfigState.step settings) (ConfigState.initial [])
        (podEvents backend pod ⟨pool, .empty⟩ earlier) := pods_after earlier _
  have afterWrite : ∀ mid, (reach backend settings pool (earlier ++ .admin call :: mid)).pods pod =
      after (ConfigState.step settings)
        (((reach backend settings pool earlier).step backend settings (.admin call)).pods pod)
        (podEvents backend pod
          (serve backend (reach backend settings pool earlier).plane call).2 mid) := by
    intro mid
    rw [reach_append, after_cons, pods_after]
    rfl
  generalize reach backend settings pool earlier = region at *
  have saneAfter := @sane_serve backend region.plane sane call
  generalize isPlane : (serve backend region.plane call).2 = plane at *
  have sameFlights : ((region.step backend settings (.admin call)).pods pod).flights =
      (region.pods pod).flights := rfl
  have commitStep : (region.step backend settings (.admin call)).pods pod =
      after (ConfigState.step settings) (ConfigState.initial [])
        (podEvents backend pod ⟨pool, .empty⟩ earlier ++
          [⟨settled, .commit plane.database.limits⟩]) := by
    rw [after_concat, ← history, ← isPlane]
    rfl
  have ordered : ∀ event ∈ podEvents backend pod ⟨pool, .empty⟩ earlier,
      event.instant ≤ settled := by
    intro event mem
    rcases List.append_of_mem mem with ⟨first, last, isSplit⟩
    rcases podEvents_split isSplit with ⟨atZero, _⟩ | ⟨_, action, _, rfl, _⟩
    · omega
    · exact before event.instant action (by simp)
  have start := @ConfigState.fresh_commit settings key [] plane.database.limits _ settled 0 ordered
  rw [← commitStep] at start
  have fresh : ConfigState.Fresh settings key
      ((region.step backend settings (.admin call)).pods pod) settled
      (plane.database.limits :: commits (podEvents backend pod plane mid))
      ((reach backend settings pool (earlier ++ .admin call :: mid)).pods pod) := by
    rw [afterWrite mid]
    refine ConfigState.fresh_after start ?_ (show podEvents backend pod plane mid <+:
      podEvents backend pod plane later from ?_)
    · intro first event last id draw value isSplit isFinish flying same
      rcases podEvents_split isSplit with ⟨_, _, isCommit⟩ |
        ⟨before, found, rest, isLater, isAction, isFirst⟩
      · simp [isCommit] at isFinish
      · rw [isAction] at isFinish
        cases found <;> simp only [ResolveAction.toConfig, reduceCtorEq] at isFinish
        simp only [ConfigAction.finish.injEq] at isFinish
        rcases isFinish with ⟨rfl, rfl⟩
        apply stored before rest event.instant _ _ value isLater flying
        rw [afterWrite before, isFirst]
        exact same
    · rw [split, podEvents_append]
      exact List.prefix_append _ _
  simp only [Deployment.answer?, Option.bind_eq_bind, Option.bind_eq_some_iff, Option.pure_def,
    Option.some.injEq, Prod.mk.injEq] at answered
  rcases answered with ⟨found, isKey, ⟨id, value⟩, isAnswer, rfl, rfl⟩
  rcases answer?_fresh fresh timely isKey isAnswer with ⟨table, mem, isResolution⟩
  rw [isResolution]
  rcases List.mem_cons.mp mem with rfl | inside
  · exact effective
  · have sparedMid : ∀ other ∈ adminCalls mid, Spares found other := by
      intro other isOther
      apply spared
      rw [split, adminCalls, List.filterMap_append]
      exact List.mem_append_left _ isOther
    rw [resolution_spared saneAfter sparedMid table inside]
    exact effective

/-- After an accepted write, and until one of the two rows of the key is written again, every
lookup of the key that begins later finds the new cap. -/
theorem accepted_limit_enforced {earlier later : List RegionEvent} {call : AdminCall}
    {request : WriteRequest} {response : AdminResponse} {settled : ℕ}
    (isWrite : call.request = .write request) (sets : Sets written cap request)
    (accepted : (serve backend (reach backend settings pool earlier).plane call).1 =
      .ok response)
    (governs : Governs (reach backend settings pool earlier).plane.database written key)
    (spared : ∀ other ∈ adminCalls later, Spares key other)
    (settles : Settles backend settings pool pod key earlier call later settled) :
    Enforces backend settings pool pod key earlier call later settled cap := by
  have sane := @sane_reach backend settings pool earlier
  exact enforces_of_effective (resolution_of_accepted sane isWrite sets accepted governs) spared
    settles

end Propagation

section Witness

def samplePropagationKey : LimitKey := ⟨"search", "acme", "query"⟩

/-- An enforcer has found no limit, and remembers that. -/
def samplePropagationEarlier : List RegionEvent :=
  [.admin (sampleCall "root" (.registerService ⟨"search", "Search", "team-search"⟩)),
    .resolve 3 0 (.start samplePropagationKey), .resolve 3 1 (.query 0),
    .resolve 3 2 (.finish 0 0)]

/-- It is asked again when it has forgotten. -/
def samplePropagationLater : List RegionEvent :=
  [.resolve 3 50000000000 (.start samplePropagationKey), .resolve 3 50000000001 (.query 1),
    .resolve 3 50000000002 (.finish 1 0)]

/-- In between, its default is created. -/
def samplePropagationWrite : WriteRequest :=
  .createLimit ⟨"search", "*", "query"⟩ 10 (.known .minute)

theorem accepted_limit_enforced_sample :
    ∃ resolved, (reach sampleBackend defaultCacheSettings samplePlane.pool
      (samplePropagationEarlier ++ .admin (sampleCall "alice" samplePropagationWrite) ::
        samplePropagationLater.take 2)).answer? (.resolve 3 50000000002 (.finish 1 0)) =
        some (samplePropagationKey, resolved) ∧ resolved = .configured ⟨10, .minute⟩ := by
  refine ⟨.configured ⟨10, .minute⟩, by decide +kernel, ?_⟩
  refine @accepted_limit_enforced sampleBackend defaultCacheSettings samplePlane.pool
    samplePropagationKey ⟨"search", "*", "query"⟩ ⟨10, .minute⟩ 3 samplePropagationEarlier
    samplePropagationLater (sampleCall "alice" samplePropagationWrite) samplePropagationWrite
    (.limit ⟨⟨"search", "*", "query"⟩, 10, .minute, 1⟩) 2 rfl
    ⟨rfl, rfl, rfl⟩ (by decide +kernel) (Or.inr ⟨rfl, by decide +kernel⟩)
    (by simp [samplePropagationLater, adminCalls]) ⟨?_, ?_⟩ (samplePropagationLater.take 2) []
    50000000002 (.finish 1 0) _ rfl
    ⟨by decide +kernel, .configured ⟨10, .minute⟩, by decide +kernel⟩ (by decide +kernel)
  · intro instant action mem
    simp only [samplePropagationEarlier, List.mem_cons, List.not_mem_nil, or_false, reduceCtorEq,
      false_or, RegionEvent.resolve.injEq] at mem
    omega
  · -- the lookup of the default had ended before the write
    intro mid rest instant id draw resolved split flying _
    have ended : ((reach sampleBackend defaultCacheSettings samplePlane.pool
        samplePropagationEarlier).pods 3).flights = Function.update (Function.update
          (Function.update (fun _ => none) 0 (some ⟨samplePropagationKey, none⟩)) 0
            (some ⟨samplePropagationKey, some (.ok .unconfigured)⟩)) 0 none := rfl
    rw [ended] at flying
    by_cases isZero : id = 0 <;> simp [Function.update, isZero] at flying

end Witness

end RateLimiter.Region
