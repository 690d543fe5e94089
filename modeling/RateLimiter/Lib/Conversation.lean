import RateLimiter.Lib.EventLoop

/-!
# A handler alone with its backend

When no other turn comes between, a handler and the backend that answers its
calls alternate until the handler ends. The moments are those of the turns: the
turn in which the handler starts and one for each reply.
-/

namespace EventLoop

/-- What was said, and how both sides are left. -/
structure Conversation (State Store Call Reply Error Value : Type) where
  exchanges : List (Call × Reply)
  outcome : Except Error Value
  state : State
  store : Store

variable {State Store Call Reply Moment Error Value Result : Type}

namespace Conversation

/-- Continues a conversation that ended with a value. -/
def andThen (first : Conversation State Store Call Reply Error Value)
    (next : Value → ℕ → State → Store → Conversation State Store Call Reply Error Result) :
    Conversation State Store Call Reply Error Result :=
  match first.outcome with
  | .ok value =>
      let rest := next value first.exchanges.length first.state first.store
      { rest with exchanges := first.exchanges ++ rest.exchanges }
  | .error error => { first with outcome := .error error }

/-- Turns an error into a value. -/
def recover (conversation : Conversation State Store Call Reply Error Value)
    (answer : Error → Value) : Conversation State Store Call Reply Error Value :=
  match conversation.outcome with
  | .ok _ => conversation
  | .error error => { conversation with outcome := .ok (answer error) }

@[simp]
theorem exchanges_recover (conversation : Conversation State Store Call Reply Error Value)
    (answer : Error → Value) :
    (conversation.recover answer).exchanges = conversation.exchanges := by
  rw [recover]
  split <;> rfl

@[simp]
theorem state_recover (conversation : Conversation State Store Call Reply Error Value)
    (answer : Error → Value) : (conversation.recover answer).state = conversation.state := by
  rw [recover]
  split <;> rfl

@[simp]
theorem store_recover (conversation : Conversation State Store Call Reply Error Value)
    (answer : Error → Value) : (conversation.recover answer).store = conversation.store := by
  rw [recover]
  split <;> rfl

end Conversation

namespace Handler

variable (answer : State → Call → Reply × State) (moments : ℕ → Moment)

def converse : Handler Store Call Reply Moment Error Value → ℕ → State → Store →
    Conversation State Store Call Reply Error Value
  | .done outcome, _, state, store => ⟨[], outcome, state, store⟩
  | .call request resume, turn, state, store =>
      let rest := converse (resume (answer state request).1) (turn + 1)
        (answer state request).2 store
      { rest with exchanges := (request, (answer state request).1) :: rest.exchanges }
  | .access update next, turn, state, store =>
      converse (next (moments turn) store) turn state (update (moments turn) store)

variable {answer moments} {turn : ℕ} {state : State} {store : Store}

@[simp]
theorem converse_pure {value : Value} :
    (pure value : Handler Store Call Reply Moment Error Value).converse answer moments turn state
      store = ⟨[], .ok value, state, store⟩ := rfl

@[simp]
theorem converse_await {request : Call} :
    (await request : Handler Store Call Reply Moment Error Reply).converse answer moments turn
        state store =
      ⟨[(request, (answer state request).1)], .ok (answer state request).1,
        (answer state request).2, store⟩ := rfl

@[simp]
theorem converse_atomically_bind {action : Moment → Store → Value × Store}
    {next : Value → Handler Store Call Reply Moment Error Result} :
    (atomically action >>= next).converse answer moments turn state store =
      (next (action (moments turn) store).1).converse answer moments turn state
        (action (moments turn) store).2 := rfl

theorem converse_bind {handler : Handler Store Call Reply Moment Error Value}
    {next : Value → Handler Store Call Reply Moment Error Result} :
    (handler >>= next).converse answer moments turn state store =
      (handler.converse answer moments turn state store).andThen fun value later =>
        (next value).converse answer moments (turn + later) := by
  change (handler.bind next).converse answer moments turn state store = _
  induction handler generalizing turn state store with
  | done outcome => cases outcome <;> rfl
  | call request resume ih =>
      simp only [bind, converse, ih, Conversation.andThen]
      cases ((resume (answer state request).1).converse answer moments (turn + 1)
        (answer state request).2 store).outcome with
      | error error => rfl
      | ok value => simp [Nat.add_assoc, Nat.add_comm 1]
  | access update rest ih => exact ih _ _

theorem converse_handle {handler : Handler Store Call Reply Moment Error Value}
    {answered : Error → Value} :
    (tryCatch handler fun error => pure (answered error)).converse answer moments turn state
        store =
      (handler.converse answer moments turn state store).recover answered := by
  change (handler.handle _).converse answer moments turn state store = _
  induction handler generalizing turn state store with
  | done outcome => cases outcome <;> rfl
  | call request resume ih =>
      simp only [handle, converse, ih, Conversation.recover]
      split <;> rename_i isOutcome <;> simp only [isOutcome]
  | access update rest ih => exact ih _ _

/-- The handler sends nothing, whatever happens. -/
def Silent (handler : Handler Store Call Reply Moment Error Value) : Prop :=
  ∀ (State : Type) (answer : State → Call → Reply × State) moments turn state store,
    (handler.converse answer moments turn state store).exchanges = []

theorem Silent.pure (value : Value) :
    Silent (pure value : Handler Store Call Reply Moment Error Value) :=
  fun _ _ _ _ _ _ => rfl

theorem Silent.throw (error : Error) :
    Silent (throw error : Handler Store Call Reply Moment Error Value) :=
  fun _ _ _ _ _ _ => rfl

theorem Silent.atomically (action : Moment → Store → Value × Store) :
    Silent (atomically action : Handler Store Call Reply Moment Error Value) :=
  fun _ _ _ _ _ _ => rfl

/-- What a handler says is not changed by silence that follows. -/
theorem exchanges_bind {handler : Handler Store Call Reply Moment Error Value}
    {next : Value → Handler Store Call Reply Moment Error Result}
    (silent : ∀ value, Silent (next value)) :
    ((handler >>= next).converse answer moments turn state store).exchanges =
      (handler.converse answer moments turn state store).exchanges := by
  simp only [converse_bind, Conversation.andThen]
  cases (handler.converse answer moments turn state store).outcome with
  | error error => rfl
  | ok value => simp only [silent value _, List.append_nil]

theorem Silent.bind {handler : Handler Store Call Reply Moment Error Value}
    {next : Value → Handler Store Call Reply Moment Error Result} (first : Silent handler)
    (rest : ∀ value, Silent (next value)) : Silent (handler >>= next) := by
  intro State answer moments turn state store
  rw [exchanges_bind rest]
  exact first State answer moments turn state store

end Handler

end EventLoop
