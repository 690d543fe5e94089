import RateLimiter.Enforcer.Config
import RateLimiter.Lib.Machine

/-!
# Bounded staleness of the config cache

Concurrent `resolve` calls of one instance, cut at the points where another
call may run: the fresh test at the start, the snapshot of the query, and the
store, or the fall-back, at the end. A slow query may overwrite a newer entry
with an older row; it does so with a full lifetime counted from the store.
-/

namespace RateLimiter.Enforcer

open Machine

/-- A call that missed the cache, and the outcome of its query once that is known. -/
structure Flight where
  key : LimitKey
  outcome : Option (Except QueryError Resolved)
deriving DecidableEq

inductive ConfigAction where
  /-- The control plane commits a new configuration. -/
  | commit (rows : List LimitRow)
  /-- A call begins with its fresh test. -/
  | start (key : LimitKey)
  /-- The query of a call takes its snapshot. -/
  | query (id : ℕ)
  /-- The connection of a call is lost. -/
  | disconnect (id : ℕ)
  /-- A call stores its outcome, or falls back, and returns. -/
  | finish (id draw : ℕ)

structure ConfigEvent where
  instant : ℕ
  action : ConfigAction

/-- One instance and the database it reads; calls are numbered as they start. -/
structure ConfigState where
  database : List LimitRow
  cache : Cache
  started : ℕ
  flights : ℕ → Option Flight

namespace ConfigState

def initial (rows : List LimitRow) : ConfigState :=
  ⟨rows, fun _ => none, 0, fun _ => none⟩

/-- The call that an event answers, and the answer. -/
def answer? (state : ConfigState) (event : ConfigEvent) : Option (ℕ × Resolved) :=
  match event.action with
  | .start key => (state.cache.getFresh event.instant key).map fun hit => (state.started, hit)
  | .finish id _ =>
      match state.flights id with
      | some ⟨_, some (.ok resolved)⟩ => some (id, resolved)
      | some ⟨key, some (.error _)⟩ => some (id, (state.cache.getAny key).getD .unconfigured)
      | _ => none
  | _ => none

variable (settings : CacheSettings)

def step (state : ConfigState) (event : ConfigEvent) : ConfigState :=
  match event.action with
  | .commit rows => { state with database := rows }
  | .start key =>
      match state.cache.getFresh event.instant key with
      | some _ => { state with started := state.started + 1 }
      | none =>
          { state with
            started := state.started + 1
            flights := Function.update state.flights state.started (some ⟨key, none⟩) }
  | .query id =>
      match state.flights id with
      | some ⟨key, none⟩ =>
          { state with
            flights := Function.update state.flights id
              (some ⟨key, some (queryDb (some state.database) key)⟩) }
      | _ => state
  | .disconnect id =>
      match state.flights id with
      | some flight =>
          { state with
            flights := Function.update state.flights id
              (some ⟨flight.key, some (.error .unreachable)⟩) }
      | none => state
  | .finish id draw =>
      match state.flights id with
      | some ⟨key, some (.ok resolved)⟩ =>
          { state with
            cache := state.cache.store settings event.instant draw key resolved
            flights := Function.update state.flights id none }
      | some ⟨_, some (.error _)⟩ =>
          { state with flights := Function.update state.flights id none }
      | _ => state

end ConfigState

def commits (events : List ConfigEvent) : List (List LimitRow) :=
  events.filterMap fun event =>
    match event.action with
    | .commit rows => some rows
    | _ => none

namespace ConfigState

section Steps

variable {settings : CacheSettings} {state : ConfigState} {event : ConfigEvent}

/-- The flights after an event: a new call, a snapshot, a lost connection or an end. -/
theorem flights_step_cases (settings : CacheSettings) (state : ConfigState) (event : ConfigEvent)
    (id : ℕ) : (state.step settings event).flights id = state.flights id ∨
      (∃ key, event.action = .start key ∧ id = state.started ∧
        (state.step settings event).flights id = some ⟨key, none⟩) ∨
      (∃ key, event.action = .query id ∧ state.flights id = some ⟨key, none⟩ ∧
        (state.step settings event).flights id =
          some ⟨key, some (queryDb (some state.database) key)⟩) ∨
      (∃ flight, event.action = .disconnect id ∧ state.flights id = some flight ∧
        (state.step settings event).flights id =
          some ⟨flight.key, some (.error .unreachable)⟩) ∨
      (∃ draw, event.action = .finish id draw ∧
        (state.step settings event).flights id = none) := by
  cases action : event.action with
  | commit rows => simp [step, action]
  | start key =>
      simp only [step, action]
      split
      · exact Or.inl rfl
      · by_cases here : id = state.started
        · exact Or.inr (Or.inl ⟨key, rfl, here, by simp [here]⟩)
        · exact Or.inl (by simp [here])
  | query other =>
      simp only [step, action]
      split
      · rename_i key present
        by_cases here : id = other
        · subst other
          exact Or.inr (Or.inr (Or.inl ⟨key, rfl, present, by simp⟩))
        · exact Or.inl (by simp [here])
      · exact Or.inl rfl
  | disconnect other =>
      simp only [step, action]
      split
      · rename_i flight present
        by_cases here : id = other
        · subst other
          exact Or.inr (Or.inr (Or.inr (Or.inl ⟨flight, rfl, present, by simp⟩)))
        · exact Or.inl (by simp [here])
      · exact Or.inl rfl
  | finish other draw =>
      by_cases here : id = other
      · subst other
        simp only [step, action]
        split
        · exact Or.inr (Or.inr (Or.inr (Or.inr ⟨draw, rfl, by simp⟩)))
        · exact Or.inr (Or.inr (Or.inr (Or.inr ⟨draw, rfl, by simp⟩)))
        · exact Or.inl rfl
      · simp only [step, action]
        split
        · exact Or.inl (by simp [here])
        · exact Or.inl (by simp [here])
        · exact Or.inl rfl

/-- The cache changes only when a call stores the outcome of its query. -/
theorem cache_step_cases (settings : CacheSettings) (state : ConfigState) (event : ConfigEvent) :
    (state.step settings event).cache = state.cache ∨
      ∃ id draw key resolved, event.action = .finish id draw ∧
        state.flights id = some ⟨key, some (.ok resolved)⟩ ∧
        (state.step settings event).cache =
          state.cache.store settings event.instant draw key resolved := by
  cases action : event.action with
  | commit rows => simp [step, action]
  | start key =>
      simp only [step, action]
      split <;> exact Or.inl rfl
  | query id =>
      simp only [step, action]
      split <;> exact Or.inl rfl
  | disconnect id =>
      simp only [step, action]
      split <;> exact Or.inl rfl
  | finish id draw =>
      simp only [step, action]
      split
      · rename_i key resolved present
        exact Or.inr ⟨id, draw, key, resolved, rfl, present, rfl⟩
      · exact Or.inl rfl
      · exact Or.inl rfl

theorem started_le_step (settings : CacheSettings) (state : ConfigState) (event : ConfigEvent) :
    state.started ≤ (state.step settings event).started := by
  simp only [step]
  split
  · exact le_refl _
  · split <;> exact Nat.le_succ _
  · split <;> exact le_refl _
  · split <;> exact le_refl _
  · split <;> exact le_refl _

theorem database_step (settings : CacheSettings) (state : ConfigState) (event : ConfigEvent) :
    (state.step settings event).database = state.database ∨
      event.action = .commit (state.step settings event).database := by
  cases action : event.action with
  | commit rows => exact Or.inr (by simp [step, action])
  | start key =>
      simp only [step, action]
      split <;> exact Or.inl rfl
  | query id =>
      simp only [step, action]
      split <;> exact Or.inl rfl
  | disconnect id =>
      simp only [step, action]
      split <;> exact Or.inl rfl
  | finish id draw =>
      simp only [step, action]
      split <;> exact Or.inl rfl

end Steps

/-- Entries expire soon after an event that has happened, and numbers not given yet are free. -/
structure Sound (settings : CacheSettings) (events : List ConfigEvent) (state : ConfigState) :
    Prop where
  expiry : ∀ key entry, state.cache key = some entry → ∃ event ∈ events,
    entry.expiresAt ≤
      event.instant + max settings.positiveTtl settings.negativeTtl + settings.jitter
  free : ∀ id, state.started ≤ id → state.flights id = none

theorem expiresAt_store_le (settings : CacheSettings) (now draw : ℕ) (resolved : Resolved) :
    now + Cache.baseTtl settings resolved + Cache.jitterDraw settings draw ≤
      now + max settings.positiveTtl settings.negativeTtl + settings.jitter := by
  have := Cache.baseTtl_le settings resolved
  have := Cache.jitterDraw_le settings draw
  omega

theorem free_step {settings : CacheSettings} {state : ConfigState} (event : ConfigEvent)
    (free : ∀ id, state.started ≤ id → state.flights id = none) :
    ∀ id, (state.step settings event).started ≤ id →
      (state.step settings event).flights id = none := by
  intro id unused
  have grown := started_le_step settings state event
  have before := free id (grown.trans unused)
  rcases flights_step_cases settings state event id with same | ⟨key, isStart, here, _⟩ |
    ⟨key, _, present, _⟩ | ⟨flight, _, present, _⟩ | ⟨draw, _, ended⟩
  · exact same.trans before
  · have advanced : (state.step settings event).started = state.started + 1 := by
      simp only [step, isStart]
      split <;> rfl
    omega
  · rw [before] at present
    simp at present
  · rw [before] at present
    simp at present
  · exact ended

theorem sound_after (settings : CacheSettings) (rows : List LimitRow)
    (events : List ConfigEvent) :
    Sound settings events (after (step settings) (initial rows) events) := by
  refine history_invariant (Sound settings) ?_ ?_ events
  · exact ⟨fun key entry cached => by simp [initial] at cached, fun _ _ => rfl⟩
  · intro before event sound
    refine ⟨?_, free_step event sound.free⟩
    intro key entry cached
    have earlier : ∀ entry, (after (step settings) (initial rows) before).cache key =
        some entry → ∃ other ∈ before ++ [event], entry.expiresAt ≤
          other.instant + max settings.positiveTtl settings.negativeTtl + settings.jitter := by
      intro entry held
      rcases sound.expiry key entry held with ⟨other, mem, soon⟩
      exact ⟨other, List.mem_append_left _ mem, soon⟩
    rcases cache_step_cases settings (after (step settings) (initial rows) before) event with
      same | ⟨id, draw, storedKey, resolved, _, _, stored⟩
    · rw [same] at cached
      exact earlier entry cached
    · rw [stored, Cache.store] at cached
      by_cases here : key = storedKey
      · subst storedKey
        rw [Function.update_self, Option.some.injEq] at cached
        subst entry
        exact ⟨event, by simp, expiresAt_store_le settings _ _ _⟩
      · rw [Function.update_of_ne here] at cached
        exact earlier entry cached

/-- What is known about one key after a commit: `committed` are the configurations since then. -/
structure Fresh (settings : CacheSettings) (key : LimitKey) (atCommit : ConfigState)
    (deadline : ℕ) (committed : List (List LimitRow)) (state : ConfigState) : Prop where
  database : state.database ∈ committed
  /-- A query of the key that has read its snapshot read a new one, or was in flight before. -/
  flights : ∀ id resolved, state.flights id = some ⟨key, some (.ok resolved)⟩ →
    (∃ rows ∈ committed, resolved = resolution rows key) ∨
      atCommit.flights id = some ⟨key, some (.ok resolved)⟩
  cache : ∀ entry, state.cache key = some entry →
    (∃ rows ∈ committed, entry.resolved = resolution rows key) ∨
      entry.expiresAt ≤
        deadline + max settings.positiveTtl settings.negativeTtl + settings.jitter
  started : atCommit.started ≤ state.started

theorem queryDb_eq_ok {rows : List LimitRow} {key : LimitKey} {resolved : Resolved}
    (queried : queryDb (some rows) key = .ok resolved) : resolved = resolution rows key := by
  simp only [queryDb] at queried
  split at queried
  · exact (Except.ok.inj queried).symm
  · simp at queried

/-- Who has been answered: a call with a fresh entry, or one whose query is over. -/
theorem answer?_cases {state : ConfigState} {event : ConfigEvent} {id : ℕ} {value : Resolved}
    (answered : state.answer? event = some (id, value)) :
    (∃ key, event.action = .start key ∧ id = state.started ∧
        state.cache.getFresh event.instant key = some value) ∨
      (∃ draw key, event.action = .finish id draw ∧
        state.flights id = some ⟨key, some (.ok value)⟩) ∨
      ∃ draw key error, event.action = .finish id draw ∧
        state.flights id = some ⟨key, some (.error error)⟩ ∧
        value = (state.cache.getAny key).getD .unconfigured := by
  cases action : event.action with
  | commit _ | query _ | disconnect _ => simp [answer?, action] at answered
  | start key =>
      simp only [answer?, action, Option.map_eq_some_iff, Prod.mk.injEq] at answered
      rcases answered with ⟨hit, isHit, rfl, rfl⟩
      exact Or.inl ⟨key, rfl, rfl, isHit⟩
  | finish other draw =>
      simp only [answer?, action] at answered
      split at answered
      · rename_i key resolved present
        simp only [Option.some.injEq, Prod.mk.injEq] at answered
        rcases answered with ⟨rfl, rfl⟩
        exact Or.inr (Or.inl ⟨draw, key, rfl, present⟩)
      · rename_i key error present
        simp only [Option.some.injEq, Prod.mk.injEq] at answered
        rcases answered with ⟨rfl, rfl⟩
        exact Or.inr (Or.inr ⟨draw, key, error, rfl, present, rfl⟩)
      · simp at answered

namespace Fresh

variable {settings : CacheSettings} {key : LimitKey} {atCommit state : ConfigState}
  {deadline : ℕ} {committed : List (List LimitRow)}

theorem mono (fresh : Fresh settings key atCommit deadline committed state)
    {more : List (List LimitRow)} (grows : committed ⊆ more) :
    Fresh settings key atCommit deadline more state := by
  have still : ∀ value, (∃ rows ∈ committed, value = resolution rows key) →
      ∃ rows ∈ more, value = resolution rows key := by
    rintro value ⟨rows, mem, equal⟩
    exact ⟨rows, grows mem, equal⟩
  constructor
  · exact grows fresh.database
  · intro id resolved present
    exact (fresh.flights id resolved present).imp_left (still resolved)
  · intro entry cached
    exact (fresh.cache entry cached).imp_left (still entry.resolved)
  · exact fresh.started

/-- A query reads the database as it is now; all other flights stay as they are or end. -/
theorem flights_step (fresh : Fresh settings key atCommit deadline committed state)
    (event : ConfigEvent) {id : ℕ} {resolved : Resolved}
    (present : (state.step settings event).flights id = some ⟨key, some (.ok resolved)⟩) :
    (∃ rows ∈ committed, resolved = resolution rows key) ∨
      atCommit.flights id = some ⟨key, some (.ok resolved)⟩ := by
  rcases flights_step_cases settings state event id with same | ⟨other, _, _, begun⟩ |
    ⟨other, _, _, queried⟩ | ⟨flight, _, _, lost⟩ | ⟨draw, _, ended⟩
  · exact fresh.flights id resolved (same ▸ present)
  · simp [begun] at present
  · rw [queried] at present
    simp only [Option.some.injEq, Flight.mk.injEq] at present
    rcases present with ⟨rfl, read⟩
    exact Or.inl ⟨_, fresh.database, queryDb_eq_ok read⟩
  · simp [lost] at present
  · simp [ended] at present

/-- An old row may still be stored, but no later than the deadline. -/
theorem cache_step (fresh : Fresh settings key atCommit deadline committed state)
    {event : ConfigEvent}
    (stored : ∀ id draw resolved, event.action = .finish id draw →
      atCommit.flights id = some ⟨key, some (.ok resolved)⟩ →
      state.flights id = atCommit.flights id → event.instant ≤ deadline)
    {entry : CacheEntry} (cached : (state.step settings event).cache key = some entry) :
    (∃ rows ∈ committed, entry.resolved = resolution rows key) ∨
      entry.expiresAt ≤
        deadline + max settings.positiveTtl settings.negativeTtl + settings.jitter := by
  rcases cache_step_cases settings state event with
    same | ⟨id, draw, storedKey, resolved, isFinish, present, storing⟩
  · exact fresh.cache entry (same ▸ cached)
  · rw [storing, Cache.store] at cached
    by_cases here : key = storedKey
    · subst storedKey
      rw [Function.update_self, Option.some.injEq] at cached
      subst entry
      rcases fresh.flights id resolved present with new | old
      · exact Or.inl new
      · have early := stored id draw resolved isFinish old (present.trans old.symm)
        have := expiresAt_store_le settings event.instant draw resolved
        exact Or.inr (by dsimp only; omega)
    · rw [Function.update_of_ne here] at cached
      exact fresh.cache entry cached

theorem step {before : List ConfigEvent} {rows : List LimitRow} {event : ConfigEvent}
    (fresh : Fresh settings key atCommit deadline (rows :: commits before) state)
    (stored : ∀ id draw resolved, event.action = .finish id draw →
      atCommit.flights id = some ⟨key, some (.ok resolved)⟩ →
      state.flights id = atCommit.flights id → event.instant ≤ deadline) :
    Fresh settings key atCommit deadline (rows :: commits (before ++ [event]))
      (state.step settings event) := by
  have grown : Fresh settings key atCommit deadline (rows :: commits (before ++ [event]))
      state := by
    apply fresh.mono
    rw [commits, commits, List.filterMap_append]
    exact List.cons_subset_cons _ (List.subset_append_left _ _)
  refine ⟨?_, fun id resolved => grown.flights_step event, fun entry => grown.cache_step stored,
    fresh.started.trans (started_le_step settings state event)⟩
  rcases database_step settings state event with same | isCommit
  · rw [same]
    exact grown.database
  · simp [commits, isCommit]

/-- Once the deadline and a lifetime have passed, a fresh entry has a recent origin. -/
theorem hit (fresh : Fresh settings key atCommit deadline committed state) {now : ℕ}
    (late : deadline + max settings.positiveTtl settings.negativeTtl + settings.jitter ≤ now)
    {value : Resolved} (isHit : state.cache.getFresh now key = some value) :
    ∃ rows ∈ committed, value = resolution rows key := by
  simp only [Cache.getFresh, Option.map_eq_some_iff, Option.filter_eq_some_iff,
    decide_eq_true_eq] at isHit
  rcases isHit with ⟨entry, ⟨cached, unexpired⟩, rfl⟩
  rcases fresh.cache entry cached with new | soon
  · exact new
  · omega

/-- So does the outcome of a call that was not in flight at the commit. -/
theorem queried (fresh : Fresh settings key atCommit deadline committed state) {id : ℕ}
    {value : Resolved} (absent : atCommit.flights id = none)
    (present : state.flights id = some ⟨key, some (.ok value)⟩) :
    ∃ rows ∈ committed, value = resolution rows key := by
  rcases fresh.flights id value present with new | old
  · exact new
  · rw [absent] at old
    simp at old

end Fresh

theorem fresh_after {settings : CacheSettings} {key : LimitKey} {atCommit : ConfigState}
    {deadline : ℕ} {rows : List LimitRow} {later : List ConfigEvent}
    (start : Fresh settings key atCommit deadline [rows] atCommit)
    (stored : ∀ mid event rest id draw resolved, later = mid ++ event :: rest →
      event.action = .finish id draw → atCommit.flights id = some ⟨key, some (.ok resolved)⟩ →
      (after (step settings) atCommit mid).flights id = atCommit.flights id →
      event.instant ≤ deadline) {mid : List ConfigEvent} (isPrefix : mid <+: later) :
    Fresh settings key atCommit deadline (rows :: commits mid)
      (after (step settings) atCommit mid) := by
  refine history_invariant (fun events state => events <+: later →
    Fresh settings key atCommit deadline (rows :: commits events) state) ?_ ?_ mid isPrefix
  · exact fun _ => start
  · intro before event ih extended
    rcases extended with ⟨rest, rfl⟩
    refine (ih ⟨event :: rest, by simp⟩).step ?_
    intro id draw resolved isFinish old same
    exact stored before event rest id draw resolved (by simp) isFinish old same

/-- Right after the commit, everything in the cache expires before the deadline has passed by
a lifetime. -/
theorem fresh_commit (settings : CacheSettings) (key : LimitKey) {initialRows rows : List LimitRow}
    {earlier : List ConfigEvent} {w : ℕ} (d : ℕ)
    (ordered : ∀ event ∈ earlier, event.instant ≤ w) :
    Fresh settings key
      (after (step settings) (initial initialRows) (earlier ++ [⟨w, .commit rows⟩])) (w + d) [rows]
      (after (step settings) (initial initialRows) (earlier ++ [⟨w, .commit rows⟩])) := by
  have sound := sound_after settings initialRows (earlier ++ [⟨w, .commit rows⟩])
  refine ⟨?_, fun _ _ present => Or.inr present, ?_, le_refl _⟩
  · rw [after_concat]
    exact List.mem_singleton_self rows
  · intro entry cached
    rcases sound.expiry key entry cached with ⟨event, mem, soon⟩
    have notLater : event.instant ≤ w := by
      rcases List.mem_append.mp mem with before | here
      · exact ordered event before
      · rw [List.mem_singleton.mp here]
    exact Or.inr (by omega)

/-- A call keeps its number and its key until it returns. -/
theorem owned_after (settings : CacheSettings) {state : ConfigState} (key : LimitKey)
    (instant : ℕ) (free : ∀ id, state.started ≤ id → state.flights id = none)
    (events : List ConfigEvent) :
    state.started < (after (step settings) (state.step settings ⟨instant, .start key⟩)
        events).started ∧
      ∀ flight, (after (step settings) (state.step settings ⟨instant, .start key⟩) events).flights
        state.started = some flight → flight.key = key := by
  refine history_invariant (fun _ (current : ConfigState) =>
    state.started < current.started ∧
      ∀ flight, current.flights state.started = some flight → flight.key = key) ?_ ?_ events
  · have advanced : (state.step settings ⟨instant, .start key⟩).started = state.started + 1 := by
      simp only [step]
      split <;> rfl
    refine ⟨by omega, ?_⟩
    intro flight present
    simp only [step] at present
    split at present
    · simp [free state.started (le_refl _)] at present
    · simp only [Function.update_self, Option.some.injEq] at present
      rw [← present]
  · rintro before event ⟨numbered, owned⟩
    refine ⟨numbered.trans_le (started_le_step settings _ event), ?_⟩
    intro flight present
    rcases flights_step_cases settings _ event state.started with same | ⟨_, _, here, _⟩ |
      ⟨other, _, held, queried⟩ | ⟨other, _, held, lost⟩ | ⟨draw, _, ended⟩
    · exact owned flight (same ▸ present)
    · omega
    · rw [queried, Option.some.injEq] at present
      rw [← present]
      exact (owned _ held : other = key)
    · rw [lost, Option.some.injEq] at present
      rw [← present]
      exact (owned _ held : other.key = key)
    · simp [ended] at present

end ConfigState

open ConfigState

/-- After a commit at `w`, once the queries that were in flight have stored and the longest
lifetime has passed, every call that starts returns what some configuration since `w` says. -/
theorem resolve_bounded_staleness (settings : CacheSettings) (key : LimitKey)
    (initialRows rows : List LimitRow) (earlier later : List ConfigEvent) (w d : ℕ)
    (atCommit : ConfigState)
    (isCommit : atCommit =
      after (step settings) (initial initialRows) (earlier ++ [⟨w, .commit rows⟩]))
    (ordered : (earlier ++ ⟨w, .commit rows⟩ :: later).Pairwise
      fun first second => first.instant ≤ second.instant)
    (stored : ∀ mid event rest id draw resolved, later = mid ++ event :: rest →
      event.action = .finish id draw → atCommit.flights id = some ⟨key, some (.ok resolved)⟩ →
      (after (step settings) atCommit mid).flights id = atCommit.flights id →
      event.instant ≤ w + d)
    (healthy : ∀ mid event rest id draw error, later = mid ++ event :: rest →
      event.action = .finish id draw →
      (after (step settings) atCommit mid).flights id ≠ some ⟨key, some (.error error)⟩) :
    ∀ mid rest t, later = mid ++ ⟨t, .start key⟩ :: rest →
      w + d + max settings.positiveTtl settings.negativeTtl + settings.jitter ≤ t →
      ∀ pre event post value, ⟨t, .start key⟩ :: rest = pre ++ event :: post →
        (after (step settings) atCommit (mid ++ pre)).answer? event =
          some ((after (step settings) atCommit mid).started, value) →
        ∃ table ∈ rows :: commits (mid ++ pre), value = resolution table key := by
  have free : ∀ mid id, (after (step settings) atCommit mid).started ≤ id →
      (after (step settings) atCommit mid).flights id = none := by
    intro mid
    rw [isCommit, ← after_append]
    exact (sound_after settings initialRows _).free
  have start : Fresh settings key atCommit (w + d) [rows] atCommit := by
    rw [isCommit]
    apply fresh_commit
    intro event mem
    exact (List.pairwise_append.mp ordered).2.2 event mem _ (List.mem_cons_self ..)
  rintro mid rest t rfl late pre event post value split answered
  have freshMid := fresh_after start stored (List.prefix_append mid (⟨t, .start key⟩ :: rest))
  cases pre with
  | nil =>
      simp only [List.nil_append, List.cons.injEq] at split
      rcases split with ⟨rfl, rfl⟩
      rw [List.append_nil] at answered ⊢
      rcases answer?_cases answered with ⟨_, isStart, _, isHit⟩ | ⟨_, _, isFinish, _⟩ |
        ⟨_, _, _, isFinish, _⟩
      · cases isStart
        exact freshMid.hit late isHit
      · cases isFinish
      · cases isFinish
  | cons first pre =>
      simp only [List.cons_append, List.cons.injEq] at split
      rcases split with ⟨rfl, rfl⟩
      have freshHere := fresh_after start stored
        ((List.prefix_append_right_inj mid).mpr
          (show ⟨t, .start key⟩ :: pre <+: ⟨t, .start key⟩ :: (pre ++ event :: post) from
            ⟨event :: post, by simp⟩))
      rcases owned_after settings key t (free mid) pre with ⟨numbered, owned⟩
      rw [← after_cons, ← after_append] at numbered owned
      rcases answer?_cases answered with ⟨_, _, sameNumber, _⟩ | ⟨draw, other, isFinish, present⟩ |
        ⟨draw, other, error, isFinish, present, _⟩
      · omega
      · obtain rfl : other = key := owned _ present
        -- the call started after the commit, so it was not in flight then
        exact freshHere.queried (free [] _ freshMid.started) present
      · obtain rfl : other = key := owned _ present
        exact absurd present
          (healthy (mid ++ ⟨t, .start other⟩ :: pre) event post _ draw error (by simp) isFinish)

section Sample

def sampleSettings : CacheSettings := ⟨30, 5, 0⟩

def sampleKey : LimitKey := ⟨"search", "acme", "query"⟩

def sampleRows (limitValue : ℤ) : List LimitRow :=
  [⟨1, "search", "*", "query", limitValue, .minute⟩]

/-- A query that read the old limit is still in flight when the limit changes. -/
def sampleEarlier : List ConfigEvent :=
  [⟨0, .start sampleKey⟩, ⟨1, .query 0⟩]

/-- It stores the old limit two units later; a call started after the bound reads the new one. -/
def sampleLater : List ConfigEvent :=
  [⟨12, .finish 0 0⟩, ⟨42, .start sampleKey⟩, ⟨43, .query 1⟩, ⟨44, .finish 1 0⟩]

def sampleCommit : ConfigState :=
  after (step sampleSettings) (initial (sampleRows 10))
    (sampleEarlier ++ [⟨10, .commit (sampleRows 20)⟩])

theorem resolve_bounded_staleness_sample :
    ∃ value, (after (step sampleSettings) sampleCommit
        [⟨12, .finish 0 0⟩, ⟨42, .start sampleKey⟩, ⟨43, .query 1⟩]).answer? ⟨44, .finish 1 0⟩ =
          some (1, value) ∧ ∃ table ∈ [sampleRows 20], value = resolution table sampleKey := by
  refine ⟨.configured ⟨20, .minute⟩, by decide +kernel, ?_⟩
  refine resolve_bounded_staleness sampleSettings sampleKey (sampleRows 10) (sampleRows 20)
    sampleEarlier sampleLater 10 2 sampleCommit rfl ?_ ?_ ?_
    [⟨12, .finish 0 0⟩] [⟨43, .query 1⟩, ⟨44, .finish 1 0⟩] 42 rfl (by decide)
    [⟨42, .start sampleKey⟩, ⟨43, .query 1⟩] ⟨44, .finish 1 0⟩ [] _ rfl (by decide +kernel)
  · simp [sampleEarlier, sampleLater]
  · intro mid event rest id draw resolved split isFinish inFlight _
    have mem : event ∈ sampleLater := split ▸ by simp
    simp only [sampleLater, List.mem_cons, List.not_mem_nil, or_false] at mem
    rcases mem with rfl | rfl | rfl | rfl
    · decide
    · simp at isFinish
    · simp at isFinish
    · simp only [ConfigAction.finish.injEq] at isFinish
      rw [← isFinish.1, show sampleCommit.flights 1 = none by decide +kernel] at inFlight
      simp at inFlight
  · intro mid event rest id draw error split isFinish failed
    rcases mid with _ | ⟨first, _ | ⟨second, _ | ⟨third, _ | ⟨fourth, mid⟩⟩⟩⟩ <;>
      simp only [sampleLater, List.nil_append, List.cons_append, List.cons.injEq, List.nil_eq,
        List.append_eq_nil_iff, reduceCtorEq, and_false] at split
    · rcases split with ⟨rfl, _⟩
      simp only [ConfigAction.finish.injEq] at isFinish
      rw [← isFinish.1] at failed
      revert failed
      cases error <;> decide +kernel
    · rcases split with ⟨_, rfl, _⟩
      simp at isFinish
    · rcases split with ⟨_, _, rfl, _⟩
      simp at isFinish
    · rcases split with ⟨rfl, rfl, rfl, rfl, _⟩
      simp only [ConfigAction.finish.injEq] at isFinish
      rw [← isFinish.1] at failed
      revert failed
      cases error <;> decide +kernel

end Sample

end RateLimiter.Enforcer
