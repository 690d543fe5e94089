import RateLimiter.Lib.Turns

/-!
# What handlers change on arrival only

A handler that gives up control finds another store when it goes on. A part of
the store that every handler changes in its first turn only, and leaves alone
from its first call on, does not notice: in every run it is the state of a
sequential machine that steps on the requests, in the order of their arrival.
-/

namespace EventLoop

open Machine

universe u

variable {Store Call Reply Moment Error Value Result : Type} {View : Type u}

namespace Handler

/-- Any call may be sent, and the view stays as it is. -/
def leaving (view : Store → View) : Contract Store Call Reply where
  sends _ _ _ := True
  changes _ before after := view after = view before
  refl _ _ := rfl
  trans _ _ _ _ earlier later := later.trans earlier

/-- The view survives whatever the others do in between. -/
def Leaves (view : Store → View) (handler : Handler Store Call Reply Moment Error Value)
    (past : List (Call × Reply)) (store : Store) : Prop :=
  wp (fun _ _ => True) (leaving view) handler past store fun _ _ _ => True

/-- The first turn takes the view to a value, and no later turn changes it. -/
structure Arrives (view : Store → View) (moment : Moment) (store : Store) (value : View)
    (handler : Handler Store Call Reply Moment Error Value) : Prop where
  first : view (handler.advance moment store).1 = value
  rest : ∀ request resume, (handler.advance moment store).2 = .waiting request resume →
    ∀ reply later, (resume reply).Leaves view [(request, reply)] later

section Rules

variable {view : Store → View} {moment : Moment} {store : Store} {value : View}
  {handler : Handler Store Call Reply Moment Error Value} {past : List (Call × Reply)}

/-- One turn of a handler that leaves the view alone. -/
theorem Leaves.advance (leaves : handler.Leaves view past store) (moment : Moment) :
    view (handler.advance moment store).1 = view store ∧
      ∀ request resume, (handler.advance moment store).2 = .waiting request resume →
        ∀ reply later, (resume reply).Leaves view (past ++ [(request, reply)]) later := by
  rcases advance_sound moment leaves with ⟨same, stopped⟩
  refine ⟨same, ?_⟩
  intro request resume isWaiting reply later
  rw [isWaiting] at stopped
  exact stopped.2 reply later trivial

theorem Leaves.arrives (leaves : handler.Leaves view [] store) :
    Arrives view moment store (view store) handler :=
  ⟨(leaves.advance moment).1, (leaves.advance moment).2⟩

/-- An error is turned into a value without access to the store. -/
theorem Arrives.recover {respond : Error → Value}
    (arrives : Arrives view moment store value handler) :
    Arrives view moment store value
      (tryCatch handler fun error => Pure.pure (respond error)) := by
  change Arrives view moment store value (handler.handle fun error => .done (.ok (respond error)))
  induction handler generalizing store with
  | done outcome =>
      cases outcome with
      | ok result => exact ⟨arrives.first, by simp [Handler.handle, Handler.advance]⟩
      | error error => exact ⟨arrives.first, by simp [Handler.handle, Handler.advance]⟩
  | call request resume _ =>
      refine ⟨arrives.first, ?_⟩
      intro other continuation isWaiting reply later
      cases isWaiting
      apply wp_handle.mpr
      apply wp_mono _ (arrives.rest request resume rfl reply later)
      intro outcome past store _
      cases outcome <;> trivial
  | access update following ih =>
      rcases ih moment store ⟨arrives.first, arrives.rest⟩ with ⟨first, rest⟩
      exact ⟨first, rest⟩

/-- An action comes first. -/
theorem Arrives.atomically {action : Moment → Store → Result × Store}
    {next : Result → Handler Store Call Reply Moment Error Value}
    (arrives : Arrives view moment (action moment store).2 value
      (next (action moment store).1)) :
    Arrives view moment store value (Handler.atomically action >>= next) :=
  ⟨arrives.first, arrives.rest⟩

end Rules

end Handler

namespace Loop

variable {Request : Type}

/-- The sequential machine that steps on the requests alone. -/
def arriving (arrive : Moment → Request → View → View) (value : View) :
    Event Request Reply Moment → View
  | .request moment request => arrive moment request value
  | .reply _ _ _ => value

section Settle

variable {loop : Loop Store Call Reply Moment Error Value} {handler : ℕ}
  {past : List (Call × Reply)} {turn : Store × Pause Store Call Reply Moment Error Value}

theorem store_settle : (loop.settle handler past turn).store = turn.1 := by
  rcases turn with ⟨store, pause⟩
  cases pause <;> rfl

theorem waiting_settle {other : ℕ} {waiting : Waiting Store Call Reply Moment Error Value}
    (isWaiting : (loop.settle handler past turn).waiting other = some waiting) :
    loop.waiting other = some waiting ∨
      turn.2 = .waiting waiting.request waiting.resume ∧ waiting.past = past := by
  rcases turn with ⟨store, pause⟩
  by_cases isHandler : other = handler
  · subst other
    cases pause with
    | finished outcome => simp [settle] at isWaiting
    | waiting request resume =>
        simp only [settle, Function.update_self, Option.some.injEq] at isWaiting
        subst waiting
        exact Or.inr ⟨rfl, rfl⟩
  · cases pause <;> simp only [settle, Function.update_of_ne isHandler] at isWaiting <;>
      exact Or.inl isWaiting

end Settle

section Runs

variable {serve : Request → Handler Store Call Reply Moment Error Value}
  {view : Store → View} {arrive : Moment → Request → View → View}

/-- Nobody who waits will change the view. -/
def Unhurried (view : Store → View) (loop : Loop Store Call Reply Moment Error Value) : Prop :=
  ∀ handler waiting, loop.waiting handler = some waiting → ∀ reply later,
    (waiting.resume reply).Leaves view (waiting.past ++ [(waiting.request, reply)]) later

variable (arrives : ∀ moment request store,
  Handler.Arrives view moment store (arrive moment request (view store)) (serve request))

include arrives

theorem arriving_step {loop : Loop Store Call Reply Moment Error Value}
    (unhurried : Unhurried view loop) (event : Event Request Reply Moment) :
    view (step serve loop event).store = arriving arrive (view loop.store) event ∧
      Unhurried view (step serve loop event) := by
  cases event with
  | request moment request =>
      rcases arrives moment request loop.store with ⟨first, rest⟩
      refine ⟨?_, ?_⟩
      · rw [step, store_settle]
        exact first
      · intro handler waiting isWaiting
        rcases waiting_settle isWaiting with earlier | ⟨here, isPast⟩
        · exact unhurried handler waiting earlier
        · rw [isPast]
          exact rest _ _ here
  | reply moment handler reply =>
      cases isWaiting : loop.waiting handler with
      | none =>
          simp only [step, isWaiting]
          exact ⟨rfl, unhurried⟩
      | some waiting =>
          have leaves := unhurried handler waiting isWaiting reply loop.store
          rcases leaves.advance moment with ⟨same, rest⟩
          simp only [step, isWaiting]
          refine ⟨?_, ?_⟩
          · rw [store_settle]
            exact same
          · intro other later isLater
            rcases waiting_settle isLater with earlier | ⟨here, isPast⟩
            · exact unhurried other later earlier
            · rw [isPast]
              exact rest _ _ here

/-- In every run, the view is the state of the sequential machine. -/
theorem view_run (start : Store) (events : List (Event Request Reply Moment)) :
    view (run serve start events).store = after (arriving arrive) (view start) events := by
  have kept : view (run serve start events).store = after (arriving arrive) (view start) events ∧
      Unhurried view (run serve start events) := by
    apply history_invariant fun past (loop : Loop Store Call Reply Moment Error Value) =>
      view loop.store = after (arriving arrive) (view start) past ∧ Unhurried view loop
    · exact ⟨rfl, by simp [Unhurried, initial]⟩
    · rintro before event ⟨same, unhurried⟩
      rcases arriving_step arrives unhurried event with ⟨first, rest⟩
      refine ⟨?_, rest⟩
      rw [first, same, after_concat]
  exact kept.1

theorem view_storeAt (start : Store) (events : List (Event Request Reply Moment)) (turn : ℕ) :
    view (storeAt serve start events turn) =
      after (arriving arrive) (view start) (events.take turn) :=
  view_run arrives start (events.take turn)

end Runs

section Answers

variable (serve : Request → Handler Store Call Reply Moment Error Value) (start : Store)

theorem turns_run (events : List (Event Request Reply Moment)) :
    (run serve start events).turns = events.length := by
  induction events using List.reverseRecOn with
  | nil => rfl
  | append_singleton before event ih =>
      rw [run_concat, List.length_append, List.length_singleton, ← ih]
      cases event with
      | request moment request => exact turns_settle _
      | reply moment handler reply =>
          rw [step]
          split
          · rfl
          · exact turns_settle _

theorem answers_settle (loop : Loop Store Call Reply Moment Error Value) (handler : ℕ)
    (past : List (Call × Reply)) (turn : Store × Pause Store Call Reply Moment Error Value) :
    loop.answers <+: (loop.settle handler past turn).answers := by
  rcases turn with ⟨store, pause⟩
  cases pause with
  | finished outcome => exact List.prefix_append _ _
  | waiting request resume => exact List.prefix_rfl

/-- What was answered stays answered. -/
theorem answers_grows (events later : List (Event Request Reply Moment)) :
    (run serve start events).answers <+: (run serve start (events ++ later)).answers := by
  induction later using List.reverseRecOn with
  | nil => simp
  | append_singleton later event ih =>
      rw [← List.append_assoc, run_concat]
      refine ih.trans ?_
      cases event with
      | request moment request => exact answers_settle _ _ _ _
      | reply moment handler reply =>
          rw [step]
          split
          · exact List.prefix_rfl
          · exact answers_settle _ _ _ _

variable {serve start}

/-- A request whose handler ends in its first turn is answered there. -/
theorem answered_on_arrival {events : List (Event Request Reply Moment)} {turn : ℕ}
    {moment : Moment} {request : Request} {store : Store} {outcome : Except Error Value}
    (isRequest : events[turn]? = some (.request moment request))
    (ends : (serve request).advance moment (storeAt serve start events turn) =
      (store, .finished outcome)) :
    ⟨turn, turn, outcome⟩ ∈ (run serve start events).answers ∧
      storeAt serve start events (turn + 1) = store := by
  rcases List.getElem?_eq_some_iff.mp isRequest with ⟨inside, isEvent⟩
  have length : (events.take turn).length = turn := List.length_take_of_le (Nat.le_of_lt inside)
  have split : events.take (turn + 1) = events.take turn ++ [.request moment request] := by
    rw [List.take_succ_eq_append_getElem inside, isEvent]
  have stepped : run serve start (events.take (turn + 1)) =
      (run serve start (events.take turn)).settle turn [] (store, .finished outcome) := by
    rw [split, run_concat, step, turns_run, length]
    exact congrArg _ ends
  refine ⟨?_, ?_⟩
  · have grows := answers_grows serve start (events.take (turn + 1)) (events.drop (turn + 1))
    rw [List.take_append_drop, stepped] at grows
    apply grows.subset
    simp [settle, turns_run, length]
  · rw [storeAt, stepped]
    rfl

end Answers

end Loop

end EventLoop
