import Mathlib.Data.Finset.Card
import RateLimiter.Enforcer.Staleness

/-!
# The load on the database

Lookups of one key that miss the cache at the same time all go to the database:
nothing makes the later ones wait for the first. But the first of them that
stores an outcome answers everything that begins within its lifetime. So the
lookups of a key that reach the database in one shortest lifetime are no more
than are in flight at a time, and those that have failed in between.
-/

namespace RateLimiter.Enforcer.ConfigState

open Machine

variable (settings : CacheSettings) (key : LimitKey)

/-- The event begins a lookup of the key that misses the cache. -/
def misses (state : ConfigState) (event : ConfigEvent) : Bool :=
  match event.action with
  | .start other => other = key && (state.cache.getFresh event.instant key).isNone
  | _ => false

/-- The event ends a lookup of the key whose query has failed. -/
def fails (state : ConfigState) (event : ConfigEvent) : Bool :=
  match event.action with
  | .finish id _ => (state.flights id).any fun flight =>
      flight.key = key && flight.outcome.any fun outcome => !outcome.isOk
  | _ => false

/-- The lookups of the key that are on their way to the database or back. -/
def inFlight (state : ConfigState) : Finset ℕ :=
  (Finset.range state.started).filter fun id => (state.flights id).any fun flight =>
    flight.key = key

/-- What the cache knows of the key holds until then. -/
def Lasting (deadline : ℕ) (state : ConfigState) : Prop :=
  ∃ entry, state.cache key = some entry ∧ deadline ≤ entry.expiresAt

/-- The shortest time for which an outcome is kept. -/
def shortestLifetime : ℕ := min settings.positiveTtl settings.negativeTtl

variable {settings key}

section Steps

variable {state : ConfigState} {event : ConfigEvent}

/-- What an event does to the lookups of the key. -/
inductive LookupStep (settings : CacheSettings) (key : LimitKey) (state : ConfigState)
    (event : ConfigEvent) : Prop where
  | misses (miss : state.misses key event = true) (noFailure : state.fails key event = false)
      (grows : ((state.step settings event).inFlight key).card = (state.inFlight key).card + 1)
  | fails (noMiss : state.misses key event = false) (failure : state.fails key event = true)
      (shrinks : ((state.step settings event).inFlight key).card + 1 = (state.inFlight key).card)
  | stores (noMiss : state.misses key event = false) (noFailure : state.fails key event = false)
      (lasts : (state.step settings event).Lasting key
        (event.instant + shortestLifetime settings))
  | idle (noMiss : state.misses key event = false) (noFailure : state.fails key event = false)
      (same : (state.step settings event).inFlight key = state.inFlight key)

theorem mem_inFlight {id : ℕ} :
    id ∈ state.inFlight key ↔ id < state.started ∧ ∃ flight, state.flights id = some flight ∧
      flight.key = key := by
  simp [inFlight, Option.any_eq_true]

theorem shortestLifetime_le (settings : CacheSettings) (resolved : Resolved) :
    shortestLifetime settings ≤ Cache.baseTtl settings resolved := by
  cases resolved with
  | configured cap => exact min_le_left _ _
  | unconfigured => exact min_le_right _ _

/-- Only the keys of the lookups matter. -/
theorem inFlight_congr {other : ConfigState} (numbers : other.started = state.started)
    (keys : ∀ id, (other.flights id).map Flight.key = (state.flights id).map Flight.key) :
    other.inFlight key = state.inFlight key := by
  have known : ∀ current : ConfigState, ∀ id, (current.flights id).any
      (fun flight => flight.key = key) = ((current.flights id).map Flight.key).any (· = key) := by
    intro current id
    rw [Option.any_map]
  ext id
  simp only [inFlight, numbers, known, keys]

/-- A lookup that ends is no longer on its way. -/
theorem inFlight_ended {cache : Cache} (id : ℕ) :
    ConfigState.inFlight key
      { state with cache := cache, flights := Function.update state.flights id none } =
      (state.inFlight key).erase id := by
  ext found
  rw [Finset.mem_erase, mem_inFlight, mem_inFlight]
  by_cases here : found = id
  · simp [here]
  · simp [here]

theorem lookup_begun (free : ∀ id, state.started ≤ id → state.flights id = none)
    {other : LimitKey} (isStart : event.action = .start other) :
    LookupStep settings key state event := by
  have noFailure : state.fails key event = false := by simp [fails, isStart]
  cases fresh : state.cache.getFresh event.instant other with
  | some hit =>
      apply LookupStep.idle _ noFailure
      · ext id
        simp only [mem_inFlight, step, isStart, fresh]
        constructor
        · rintro ⟨_, flight, flying, isKey⟩
          refine ⟨?_, flight, flying, isKey⟩
          by_contra beyond
          rw [free id (by omega)] at flying
          cases flying
        · rintro ⟨below, flying⟩
          exact ⟨by omega, flying⟩
      · by_cases isKey : other = key
        · subst other
          simp [misses, isStart, fresh]
        · simp [misses, isStart, isKey]
  | none =>
      by_cases isKey : other = key
      · subst other
        apply LookupStep.misses _ noFailure
        · have grown : (state.step settings event).inFlight key =
              insert state.started (state.inFlight key) := by
            ext id
            simp only [Finset.mem_insert, mem_inFlight, step, isStart, fresh]
            by_cases here : id = state.started
            · simp [here]
            · simp only [Function.update_of_ne here, here, false_or]
              exact and_congr_left fun _ => by omega
          rw [grown]
          apply Finset.card_insert_of_notMem
          simp [mem_inFlight]
        · simp [misses, isStart, fresh]
      · apply LookupStep.idle _ noFailure
        · ext id
          simp only [mem_inFlight, step, isStart, fresh]
          by_cases here : id = state.started
          · simp [here, isKey]
          · simp only [Function.update_of_ne here]
            exact and_congr_left fun _ => by omega
        · simp [misses, isStart, isKey]

theorem lookup_ended (free : ∀ id, state.started ≤ id → state.flights id = none)
    {id draw : ℕ} (isFinish : event.action = .finish id draw) :
    LookupStep settings key state event := by
  have noMiss : state.misses key event = false := by simp [misses, isFinish]
  cases flying : state.flights id with
  | none =>
      apply LookupStep.idle noMiss
      · simp [fails, isFinish, flying]
      · simp only [step, isFinish, flying]
  | some flight =>
      rcases flight with ⟨other, outcome⟩
      rcases outcome with _ | outcome
      · apply LookupStep.idle noMiss
        · simp [fails, isFinish, flying]
        · simp only [step, isFinish, flying]
      have away : other ≠ key → (state.inFlight key).erase id = state.inFlight key := by
        intro isOther
        apply Finset.erase_eq_of_notMem
        rw [mem_inFlight]
        rintro ⟨_, flight, found, isKey⟩
        rw [flying, Option.some.injEq] at found
        subst flight
        exact isOther isKey
      cases outcome with
      | ok resolved =>
          have noFailure : state.fails key event = false := by
            simp [fails, isFinish, flying, Except.isOk, Except.toBool]
          by_cases isKey : other = key
          · subst other
            apply LookupStep.stores noMiss noFailure
            simp only [step, isFinish, flying]
            refine ⟨_, Function.update_self .., ?_⟩
            have := shortestLifetime_le settings resolved
            dsimp only
            omega
          · apply LookupStep.idle noMiss noFailure
            simp only [step, isFinish, flying]
            rw [inFlight_ended, away isKey]
      | error error =>
          by_cases isKey : other = key
          · subst other
            apply LookupStep.fails noMiss
            · simp [fails, isFinish, flying, Except.isOk, Except.toBool]
            · simp only [step, isFinish, flying]
              rw [inFlight_ended]
              apply Finset.card_erase_add_one
              rw [mem_inFlight]
              refine ⟨?_, _, flying, rfl⟩
              by_contra beyond
              rw [free id (by omega)] at flying
              cases flying
          · apply LookupStep.idle noMiss
            · simp [fails, isFinish, flying, isKey]
            · simp only [step, isFinish, flying]
              rw [inFlight_ended, away isKey]

/-- Every event does one of these. -/
theorem lookup_step (free : ∀ id, state.started ≤ id → state.flights id = none)
    (event : ConfigEvent) : LookupStep settings key state event := by
  cases isAction : event.action with
  | commit rows =>
      apply LookupStep.idle
      · simp [misses, isAction]
      · simp [fails, isAction]
      · simp [inFlight, step, isAction]
  | start other => exact lookup_begun free isAction
  | query id =>
      apply LookupStep.idle
      · simp [misses, isAction]
      · simp [fails, isAction]
      · simp only [step, isAction]
        split
        · rename_i other flying
          refine inFlight_congr ?_ ?_
          · rfl
          · intro found
            by_cases here : found = id
            · simp [here, flying]
            · simp [here]
        · rfl
  | disconnect id =>
      apply LookupStep.idle
      · simp [misses, isAction]
      · simp [fails, isAction]
      · simp only [step, isAction]
        split
        · rename_i flight flying
          refine inFlight_congr ?_ ?_
          · rfl
          · intro found
            by_cases here : found = id
            · simp [here, flying]
            · simp [here]
        · rfl
  | finish id draw => exact lookup_ended free isAction

/-- What the cache knows keeps holding. -/
theorem Lasting.step {start deadline : ℕ} (lasting : state.Lasting key deadline)
    (soon : deadline ≤ start + shortestLifetime settings) (notBefore : start ≤ event.instant) :
    (state.step settings event).Lasting key deadline := by
  rcases cache_step_cases settings state event with
    same | ⟨_, draw, stored, resolved, _, _, storing⟩
  · rw [Lasting, same]
    exact lasting
  · rw [Lasting, storing, Cache.store]
    by_cases here : key = stored
    · subst stored
      refine ⟨_, Function.update_self .., ?_⟩
      have := shortestLifetime_le settings resolved
      dsimp only
      omega
    · rw [Function.update_of_ne here]
      exact lasting

/-- A lookup does not miss what the cache knows. -/
theorem Lasting.hit {deadline : ℕ} (lasting : state.Lasting key deadline)
    (before : event.instant < deadline) : state.misses key event = false := by
  rcases lasting with ⟨entry, cached, lasts⟩
  have unexpired : event.instant < entry.expiresAt := before.trans_le lasts
  unfold misses
  split
  · simp [Cache.getFresh, cached, Option.filter, unexpired]
  · rfl

end Steps

theorem free_after {state : ConfigState}
    (free : ∀ id, state.started ≤ id → state.flights id = none) (events : List ConfigEvent) :
    ∀ id, (after (step settings) state events).started ≤ id →
      (after (step settings) state events).flights id = none := by
  refine history_invariant (fun _ (current : ConfigState) =>
    ∀ id, current.started ≤ id → current.flights id = none) free ?_ events
  intro before event ih
  exact free_step event ih

/-- Once the cache knows the key until the end of a stretch, no lookup of it misses. -/
theorem misses_of_lasting {start : ℕ} : ∀ {state : ConfigState} {stretch : List ConfigEvent},
    state.Lasting key (start + shortestLifetime settings) →
    (∀ event ∈ stretch, start ≤ event.instant ∧
      event.instant < start + shortestLifetime settings) →
    tally (step settings) (misses key) state stretch = 0
  | _, [], _, _ => rfl
  | state, event :: rest, lasting, within => by
      rcases within event (List.mem_cons_self ..) with ⟨notBefore, before⟩
      rw [tally, lasting.hit before, misses_of_lasting (lasting.step (le_refl _) notBefore)]
      · rfl
      · intro other mem
        exact within other (List.mem_cons_of_mem _ mem)

/-- Within a shortest lifetime, a lookup that misses was let in, or one that failed has made
room for it. -/
theorem misses_of_lifetime {start bound : ℕ} : ∀ {state : ConfigState}
    {stretch : List ConfigEvent}, (∀ id, state.started ≤ id → state.flights id = none) →
    (∀ event ∈ stretch, start ≤ event.instant ∧
      event.instant < start + shortestLifetime settings) →
    (∀ done, done <+: stretch → ((after (step settings) state done).inFlight key).card ≤ bound) →
    tally (step settings) (misses key) state stretch + (state.inFlight key).card ≤
      bound + tally (step settings) (fails key) state stretch
  | state, [], _, _, bounded => by
      have := bounded [] (List.prefix_refl [])
      simp only [tally, after_nil] at this ⊢
      omega
  | state, event :: rest, free, within, bounded => by
      rcases within event (List.mem_cons_self ..) with ⟨notBefore, before⟩
      have now := bounded [] List.nil_prefix
      have later : ∀ other ∈ rest, start ≤ other.instant ∧
          other.instant < start + shortestLifetime settings :=
        fun other mem => within other (List.mem_cons_of_mem _ mem)
      have ih := misses_of_lifetime (free_step event free) later fun done isPrefix =>
        bounded (event :: done) ((List.prefix_cons_inj event).mpr isPrefix)
      rw [after_nil] at now
      rw [tally, tally]
      have stepped : LookupStep settings key state event := lookup_step free event
      cases stepped with
      | misses miss noFailure grows =>
          rw [miss, noFailure, Bool.toNat_true, Bool.toNat_false]
          omega
      | fails noMiss failure shrinks =>
          rw [noMiss, failure, Bool.toNat_true, Bool.toNat_false]
          omega
      | stores noMiss noFailure lasts =>
          -- the stored outcome answers all that follow
          rcases lasts with ⟨entry, cached, lasts⟩
          have answered : (state.step settings event).Lasting key
              (start + shortestLifetime settings) := ⟨entry, cached, by omega⟩
          rw [noMiss, noFailure, misses_of_lasting answered later, Bool.toNat_false]
          omega
      | idle noMiss noFailure same =>
          rw [noMiss, noFailure, Bool.toNat_false]
          rw [same] at ih
          omega

/-- Over any number of shortest lifetimes the misses add up. -/
theorem misses_of_lifetimes {bound : ℕ} (count : ℕ) : ∀ {start : ℕ} {state : ConfigState}
    {stretch : List ConfigEvent}, (∀ id, state.started ≤ id → state.flights id = none) →
    (stretch.Pairwise fun first second => first.instant ≤ second.instant) →
    (∀ event ∈ stretch, start ≤ event.instant ∧
      event.instant < start + count * shortestLifetime settings) →
    (∀ done, done <+: stretch → ((after (step settings) state done).inFlight key).card ≤ bound) →
    tally (step settings) (misses key) state stretch ≤
      count * bound + tally (step settings) (fails key) state stretch := by
  induction count with
  | zero =>
      intro start state stretch _ _ within _
      cases stretch with
      | nil => simp [tally]
      | cons event rest =>
          have := within event (List.mem_cons_self ..)
          omega
  | succ count ih =>
      intro start state stretch free ordered within bounded
      rcases exists_split (start + shortestLifetime settings) ordered with
        ⟨early, late, rfl, before, notBefore⟩
      have first : tally (step settings) (misses key) state early + (state.inFlight key).card ≤
          bound + tally (step settings) (fails key) state early := by
        apply misses_of_lifetime free
        · intro event mem
          exact ⟨(within event (List.mem_append_left _ mem)).1, before event mem⟩
        · intro done isPrefix
          exact bounded done (isPrefix.trans (List.prefix_append _ _))
      have others : tally (step settings) (misses key) (after (step settings) state early) late ≤
          count * bound +
            tally (step settings) (fails key) (after (step settings) state early) late := by
        apply ih (free_after free early) (List.pairwise_append.mp ordered).2.1
        · intro event mem
          refine ⟨notBefore event mem, ?_⟩
          have := (within event (List.mem_append_right _ mem)).2
          rw [Nat.succ_mul] at this
          omega
        · intro done isPrefix
          rw [← after_append]
          exact bounded _ ((List.prefix_append_right_inj early).mpr isPrefix)
      rw [tally_append, tally_append, Nat.succ_mul]
      omega

end RateLimiter.Enforcer.ConfigState

namespace RateLimiter.Enforcer

open Machine ConfigState

/-- In any stretch of a run that lasts no longer than a number of shortest lifetimes, the
lookups of a key that go to the database are no more than that number times the lookups of it
that are under way at once, and those that have failed in the stretch. -/
theorem database_load_le (settings : CacheSettings) (key : LimitKey) (rows : List LimitRow)
    (earlier stretch : List ConfigEvent) (start count bound : ℕ) (state : ConfigState)
    (reached : state = after (step settings) (initial rows) earlier)
    (ordered : stretch.Pairwise fun first second => first.instant ≤ second.instant)
    (within : ∀ event ∈ stretch, start ≤ event.instant ∧
      event.instant < start + count * shortestLifetime settings)
    (concurrency : ∀ done, done <+: stretch →
      ((after (step settings) state done).inFlight key).card ≤ bound) :
    tally (step settings) (misses key) state stretch ≤
      count * bound + tally (step settings) (fails key) state stretch := by
  subst state
  exact misses_of_lifetimes count (sound_after settings rows earlier).free ordered within
    concurrency

section Sample

/-- Two lookups miss at once; a third one hits. A fourth one fails after the first outcome has
expired, and a fifth one goes to the database again. -/
def sampleStretch : List ConfigEvent :=
  [⟨0, .start sampleKey⟩, ⟨1, .start sampleKey⟩, ⟨1, .query 0⟩, ⟨2, .query 1⟩, ⟨2, .finish 0 0⟩,
    ⟨3, .finish 1 0⟩, ⟨4, .start sampleKey⟩, ⟨8, .start sampleKey⟩, ⟨8, .disconnect 3⟩,
    ⟨9, .finish 3 0⟩, ⟨9, .start sampleKey⟩]

theorem database_load_le_sample :
    tally (step sampleSettings) (misses sampleKey) (initial []) sampleStretch = 4 ∧
      tally (step sampleSettings) (fails sampleKey) (initial []) sampleStretch = 1 ∧
      tally (step sampleSettings) (misses sampleKey) (initial []) sampleStretch ≤
        2 * 2 + tally (step sampleSettings) (fails sampleKey) (initial []) sampleStretch := by
  refine ⟨by decide +kernel, by decide +kernel, ?_⟩
  apply database_load_le sampleSettings sampleKey [] [] sampleStretch 0 2 2 (initial []) rfl
  · decide
  · decide
  · intro done isPrefix
    have bounded : ∀ done ∈ sampleStretch.inits,
        ((after (step sampleSettings) (initial []) done).inFlight sampleKey).card ≤ 2 := by
      decide +kernel
    exact bounded done ((List.mem_inits done sampleStretch).mpr isPrefix)

end Sample

end RateLimiter.Enforcer
