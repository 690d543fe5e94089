import Mathlib.Logic.Function.Basic
import RateLimiter.Lib.Machine

/-!
# Handlers on an event loop

A single-threaded server runs one handler for each request. A handler touches
the shared store freely, but gives up control only when it sends a call to the
outside and waits for the reply; any number of other turns may come first.

A `Contract` says which calls a handler may send and how it may change the
store. `Handler.wp` is the weakest precondition of a handler under a contract
and a relation that bounds the interference of the others. `Loop.sound` turns
the contracts of all handlers into facts about every run.
-/

namespace EventLoop

open Machine

/-- The code of a handler: it ends, sends a call and waits, or accesses the store. -/
inductive Handler (Store Call Reply Moment Error Value : Type) where
  | done (outcome : Except Error Value)
  | call (request : Call) (resume : Reply → Handler Store Call Reply Moment Error Value)
  | access (update : Moment → Store → Store)
      (next : Moment → Store → Handler Store Call Reply Moment Error Value)

/-- What a handler may do. Its past is the calls it has sent and their replies; a call may depend
on it and on the store in which the handler gives up control. -/
structure Contract (Store Call Reply : Type) where
  sends : List (Call × Reply) → Store → Call → Prop
  changes : List (Call × Reply) → Store → Store → Prop
  refl : ∀ past store, changes past store store
  trans : ∀ past first second third, changes past first second → changes past second third →
    changes past first third

/-- Where a turn of a handler stops. -/
inductive Pause (Store Call Reply Moment Error Value : Type) where
  | finished (outcome : Except Error Value)
  | waiting (request : Call) (resume : Reply → Handler Store Call Reply Moment Error Value)

variable {Store Call Reply Moment Error Value Result : Type}

namespace Handler

def bind (handler : Handler Store Call Reply Moment Error Value)
    (next : Value → Handler Store Call Reply Moment Error Result) :
    Handler Store Call Reply Moment Error Result :=
  match handler with
  | .done (.ok value) => next value
  | .done (.error error) => .done (.error error)
  | .call request resume => .call request fun reply => (resume reply).bind next
  | .access update rest => .access update fun moment store => (rest moment store).bind next

/-- `try .. catch` -/
def handle (handler : Handler Store Call Reply Moment Error Value)
    (recover : Error → Handler Store Call Reply Moment Error Value) :
    Handler Store Call Reply Moment Error Value :=
  match handler with
  | .done (.ok value) => .done (.ok value)
  | .done (.error error) => recover error
  | .call request resume => .call request fun reply => (resume reply).handle recover
  | .access update rest => .access update fun moment store => (rest moment store).handle recover

instance : Monad (Handler Store Call Reply Moment Error) where
  pure value := .done (.ok value)
  bind := bind

instance : MonadExceptOf Error (Handler Store Call Reply Moment Error) where
  throw error := .done (.error error)
  tryCatch := handle

/-- Sends a call and waits for its reply. -/
def await (request : Call) : Handler Store Call Reply Moment Error Reply :=
  .call request fun reply => .done (.ok reply)

/-- An action on the store that nothing can interrupt. -/
def atomically (action : Moment → Store → Value × Store) :
    Handler Store Call Reply Moment Error Value :=
  .access (fun moment store => (action moment store).2)
    fun moment store => .done (.ok (action moment store).1)

/-- Runs a handler until it ends or waits. -/
def advance (moment : Moment) :
    Handler Store Call Reply Moment Error Value → Store →
      Store × Pause Store Call Reply Moment Error Value
  | .done outcome, store => (store, .finished outcome)
  | .call request resume, store => (store, .waiting request resume)
  | .access update next, store => advance moment (next moment store) (update moment store)

section Wp

variable (rely : Store → Store → Prop) (contract : Contract Store Call Reply)

/-- The weakest precondition of a handler that keeps its contract. -/
def wp : Handler Store Call Reply Moment Error Value → List (Call × Reply) → Store →
    (Except Error Value → List (Call × Reply) → Store → Prop) → Prop
  | .done outcome, past, store, post => post outcome past store
  | .call request resume, past, store, post =>
      contract.sends past store request ∧ ∀ reply later, rely store later →
        wp (resume reply) (past ++ [(request, reply)]) later post
  | .access update next, past, store, post =>
      ∀ moment, contract.changes past store (update moment store) ∧
        wp (next moment store) past (update moment store) post

variable {rely contract} {past : List (Call × Reply)} {store : Store}

@[simp]
theorem wp_pure {value : Value}
    {post : Except Error Value → List (Call × Reply) → Store → Prop} :
    wp rely contract (pure value : Handler Store Call Reply Moment Error Value) past store post ↔
      post (.ok value) past store := Iff.rfl

@[simp]
theorem wp_throw {error : Error}
    {post : Except Error Value → List (Call × Reply) → Store → Prop} :
    wp rely contract (throw error : Handler Store Call Reply Moment Error Value) past store post ↔
      post (.error error) past store := Iff.rfl

@[simp]
theorem wp_await {request : Call}
    {post : Except Error Reply → List (Call × Reply) → Store → Prop} :
    wp rely contract (await request : Handler Store Call Reply Moment Error Reply) past store
        post ↔
      contract.sends past store request ∧ ∀ reply later, rely store later →
        post (.ok reply) (past ++ [(request, reply)]) later := Iff.rfl

@[simp]
theorem wp_atomically {action : Moment → Store → Value × Store}
    {post : Except Error Value → List (Call × Reply) → Store → Prop} :
    wp rely contract
        (atomically action : Handler Store Call Reply Moment Error Value) past store post ↔
      ∀ moment, contract.changes past store (action moment store).2 ∧
        post (.ok (action moment store).1) past (action moment store).2 := Iff.rfl

theorem wp_mono {handler : Handler Store Call Reply Moment Error Value}
    {post weaker : Except Error Value → List (Call × Reply) → Store → Prop}
    (weaken : ∀ outcome past store, post outcome past store → weaker outcome past store)
    (holds : wp rely contract handler past store post) :
    wp rely contract handler past store weaker := by
  induction handler generalizing past store with
  | done outcome => exact weaken outcome past store holds
  | call request resume ih =>
      refine ⟨holds.1, ?_⟩
      intro reply later interfered
      exact ih reply (holds.2 reply later interfered)
  | access update next ih =>
      intro moment
      exact ⟨(holds moment).1, ih moment store (holds moment).2⟩

/-- What comes after an outcome: the rest of the code, unless it is an error. -/
def continued (rely : Store → Store → Prop) (contract : Contract Store Call Reply)
    (next : Value → Handler Store Call Reply Moment Error Result)
    (post : Except Error Result → List (Call × Reply) → Store → Prop) :
    Except Error Value → List (Call × Reply) → Store → Prop
  | .ok value, past, store => wp rely contract (next value) past store post
  | .error error, past, store => post (.error error) past store

@[simp]
theorem wp_bind {handler : Handler Store Call Reply Moment Error Value}
    {next : Value → Handler Store Call Reply Moment Error Result}
    {post : Except Error Result → List (Call × Reply) → Store → Prop} :
    wp rely contract (handler >>= next) past store post ↔
      wp rely contract handler past store (continued rely contract next post) := by
  change wp rely contract (handler.bind next) past store post ↔ _
  induction handler generalizing past store with
  | done outcome => cases outcome <;> rfl
  | call request resume ih =>
      simp only [bind, wp, ih]
  | access update rest ih =>
      simp only [bind, wp, ih]

theorem wp_handle {handler : Handler Store Call Reply Moment Error Value}
    {recover : Error → Handler Store Call Reply Moment Error Value}
    {post : Except Error Value → List (Call × Reply) → Store → Prop} :
    wp rely contract (tryCatch handler recover) past store post ↔
      wp rely contract handler past store fun outcome past store =>
        match outcome with
        | .ok value => post (.ok value) past store
        | .error error => wp rely contract (recover error) past store post := by
  change wp rely contract (handler.handle recover) past store post ↔ _
  induction handler generalizing past store with
  | done outcome => cases outcome <;> rfl
  | call request resume ih =>
      simp only [handle, wp, ih]
  | access update rest ih =>
      simp only [handle, wp, ih]

/-- A stronger contract, among handlers that interfere less. An invariant of the store that both
sides preserve may be used. -/
theorem wp_refine {handler : Handler Store Call Reply Moment Error Value}
    {post : Except Error Value → List (Call × Reply) → Store → Prop}
    {narrower : Store → Store → Prop} {wider : Contract Store Call Reply}
    (invariant : Store → Prop)
    (stable : ∀ before after, invariant before → narrower before after →
      rely before after ∧ invariant after)
    (sends : ∀ past store call, invariant store → contract.sends past store call →
      wider.sends past store call)
    (changes : ∀ past before after, invariant before → contract.changes past before after →
      wider.changes past before after ∧ invariant after)
    (holds : wp rely contract handler past store post) (initially : invariant store) :
    wp narrower wider handler past store post := by
  induction handler generalizing past store with
  | done outcome => exact holds
  | call request resume ih =>
      refine ⟨sends past store request initially holds.1, ?_⟩
      intro reply later interfered
      rcases stable store later initially interfered with ⟨relied, still⟩
      exact ih reply (holds.2 reply later relied) still
  | access update next ih =>
      intro moment
      rcases changes past store _ initially (holds moment).1 with ⟨changed, still⟩
      exact ⟨changed, ih moment store (holds moment).2 still⟩

/-- One turn keeps the contract and leaves a handler that will. -/
theorem advance_sound {handler : Handler Store Call Reply Moment Error Value} (moment : Moment)
    {post : Except Error Value → List (Call × Reply) → Store → Prop}
    (holds : wp rely contract handler past store post) :
    contract.changes past store (handler.advance moment store).1 ∧
      match (handler.advance moment store).2 with
      | .finished outcome => post outcome past (handler.advance moment store).1
      | .waiting request resume =>
          contract.sends past (handler.advance moment store).1 request ∧
            ∀ reply later, rely (handler.advance moment store).1 later →
              wp rely contract (resume reply) (past ++ [(request, reply)]) later post := by
  induction handler generalizing store with
  | done outcome => exact ⟨contract.refl past store, holds⟩
  | call request resume _ => exact ⟨contract.refl past store, holds⟩
  | access update next ih =>
      rcases holds moment with ⟨changed, rest⟩
      rcases ih moment store rest with ⟨later, paused⟩
      exact ⟨contract.trans past _ _ _ changed later, paused⟩

end Wp

section Keeps

/-- The handler keeps the contract from any store, whatever it has sent before. -/
def Keeps (rely : Store → Store → Prop) (contract : Contract Store Call Reply)
    (handler : Handler Store Call Reply Moment Error Value) : Prop :=
  ∀ past store, wp rely contract handler past store fun _ _ _ => True

namespace Keeps

variable {rely : Store → Store → Prop} {contract : Contract Store Call Reply}

theorem pure (value : Value) :
    Keeps rely contract (pure value : Handler Store Call Reply Moment Error Value) :=
  fun _ _ => trivial

theorem throw (error : Error) :
    Keeps rely contract (throw error : Handler Store Call Reply Moment Error Value) :=
  fun _ _ => trivial

theorem bind {handler : Handler Store Call Reply Moment Error Value}
    {next : Value → Handler Store Call Reply Moment Error Result}
    (first : Keeps rely contract handler) (rest : ∀ value, Keeps rely contract (next value)) :
    Keeps rely contract (handler >>= next) := by
  intro past store
  rw [wp_bind]
  apply wp_mono _ (first past store)
  intro outcome past store _
  cases outcome with
  | ok value => exact rest value past store
  | error error => trivial

theorem handle {handler : Handler Store Call Reply Moment Error Value}
    {recover : Error → Handler Store Call Reply Moment Error Value}
    (first : Keeps rely contract handler) (rest : ∀ error, Keeps rely contract (recover error)) :
    Keeps rely contract (tryCatch handler recover) := by
  intro past store
  rw [wp_handle]
  apply wp_mono _ (first past store)
  intro outcome past store _
  cases outcome with
  | ok value => trivial
  | error error => exact rest error past store

end Keeps

end Keeps

end Handler

/-- A request arrives, or the reply to the call of a waiting handler. -/
inductive Event (Request Reply Moment : Type) where
  | request (moment : Moment) (request : Request)
  | reply (moment : Moment) (handler : ℕ) (reply : Reply)

/-- A call as it was sent. Handlers are named by the turn in which they started. -/
structure Sending (Call Reply : Type) where
  handler : ℕ
  turn : ℕ
  past : List (Call × Reply)
  call : Call

structure Waiting (Store Call Reply Moment Error Value : Type) where
  past : List (Call × Reply)
  request : Call
  resume : Reply → Handler Store Call Reply Moment Error Value

structure Answer (Error Value : Type) where
  handler : ℕ
  turn : ℕ
  outcome : Except Error Value

/-- The state of the loop with what it has sent and answered so far. -/
structure Loop (Store Call Reply Moment Error Value : Type) where
  store : Store
  turns : ℕ
  waiting : ℕ → Option (Waiting Store Call Reply Moment Error Value)
  sent : List (Sending Call Reply)
  answers : List (Answer Error Value)

namespace Loop

variable {Request : Type}

def initial (store : Store) : Loop Store Call Reply Moment Error Value :=
  ⟨store, 0, fun _ => none, [], []⟩

def settle (loop : Loop Store Call Reply Moment Error Value) (handler : ℕ)
    (past : List (Call × Reply)) (turn : Store × Pause Store Call Reply Moment Error Value) :
    Loop Store Call Reply Moment Error Value :=
  match turn with
  | (store, .finished outcome) =>
      { loop with
        store := store
        turns := loop.turns + 1
        waiting := Function.update loop.waiting handler none
        answers := loop.answers ++ [⟨handler, loop.turns, outcome⟩] }
  | (store, .waiting request resume) =>
      { loop with
        store := store
        turns := loop.turns + 1
        waiting := Function.update loop.waiting handler (some ⟨past, request, resume⟩)
        sent := loop.sent ++ [⟨handler, loop.turns, past, request⟩] }

/-- One turn of the loop. A reply that nobody waits for is dropped. -/
def step (serve : Request → Handler Store Call Reply Moment Error Value)
    (loop : Loop Store Call Reply Moment Error Value) :
    Event Request Reply Moment → Loop Store Call Reply Moment Error Value
  | .request moment request =>
      loop.settle loop.turns [] ((serve request).advance moment loop.store)
  | .reply moment handler reply =>
      match loop.waiting handler with
      | none => { loop with turns := loop.turns + 1 }
      | some waiting =>
          loop.settle handler (waiting.past ++ [(waiting.request, reply)])
            ((waiting.resume reply).advance moment loop.store)

section Runs

variable (serve : Request → Handler Store Call Reply Moment Error Value) (start : Store)

def run (events : List (Event Request Reply Moment)) :
    Loop Store Call Reply Moment Error Value :=
  after (step serve) (initial start) events

/-- The store before the turn of the given number. -/
def storeAt (events : List (Event Request Reply Moment)) (turn : ℕ) : Store :=
  (run serve start (events.take turn)).store

theorem run_concat (events : List (Event Request Reply Moment))
    (event : Event Request Reply Moment) :
    run serve start (events ++ [event]) = step serve (run serve start events) event :=
  after_concat _ _ _ _

theorem sent_settle (loop : Loop Store Call Reply Moment Error Value) (handler : ℕ)
    (past : List (Call × Reply)) (turn : Store × Pause Store Call Reply Moment Error Value) :
    loop.sent <+: (loop.settle handler past turn).sent := by
  rcases turn with ⟨store, pause⟩
  cases pause with
  | finished outcome => exact List.prefix_rfl
  | waiting request resume => exact List.prefix_append _ _

/-- What was sent stays sent. -/
theorem sent_grows (events later : List (Event Request Reply Moment)) :
    (run serve start events).sent <+: (run serve start (events ++ later)).sent := by
  induction later using List.reverseRecOn with
  | nil => simp
  | append_singleton later event ih =>
      rw [← List.append_assoc, run_concat]
      refine ih.trans ?_
      cases event with
      | request moment request => exact sent_settle _ _ _ _
      | reply moment handler reply =>
          rw [step]
          split
          · exact List.prefix_rfl
          · exact sent_settle _ _ _ _

theorem storeAt_length (events : List (Event Request Reply Moment)) :
    storeAt serve start events events.length = (run serve start events).store := by
  rw [storeAt, List.take_length]

theorem storeAt_append {events later : List (Event Request Reply Moment)} {turn : ℕ}
    (le : turn ≤ events.length) :
    storeAt serve start (events ++ later) turn = storeAt serve start events turn := by
  rw [storeAt, storeAt, List.take_append_of_le_length le]

theorem storeAt_succ_length (events : List (Event Request Reply Moment))
    (event : Event Request Reply Moment) :
    storeAt serve start (events ++ [event]) (events.length + 1) =
      (step serve (run serve start events) event).store := by
  rw [← run_concat, ← storeAt_length]
  simp

end Runs

section Soundness

variable (serve : Request → Handler Store Call Reply Moment Error Value) (start : Store)
  (rely : Store → Store → Prop) (contract : Store → Request → Contract Store Call Reply)

/-- The handler of that number serves the request under its contract. -/
def Serves (events : List (Event Request Reply Moment)) (handler : ℕ)
    (agreed : Contract Store Call Reply) : Prop :=
  ∃ moment request, events[handler]? = some (.request moment request) ∧
    agreed = contract (storeAt serve start events handler) request

/-- The call was sent under the contract of its handler. -/
def Kept (events : List (Event Request Reply Moment)) (sending : Sending Call Reply) : Prop :=
  sending.handler ≤ sending.turn ∧ sending.turn < events.length ∧
    ∃ agreed, Serves serve start contract events sending.handler agreed ∧
      agreed.sends sending.past (storeAt serve start events (sending.turn + 1)) sending.call

/-- The handler has sent a call in its first turn. -/
def Opened (sent : List (Sending Call Reply)) (handler : ℕ) : Prop :=
  ∃ opening ∈ sent, opening.handler = handler ∧ opening.turn = handler

/-- A waiting handler will keep its contract, and knows all the calls it has sent. -/
def Awaits (events : List (Event Request Reply Moment)) (store : Store)
    (sent : List (Sending Call Reply)) (handler : ℕ)
    (waiting : Waiting Store Call Reply Moment Error Value) : Prop :=
  ∃ agreed, Serves serve start contract events handler agreed ∧
    (∀ reply later, rely store later →
      Handler.wp rely agreed (waiting.resume reply) (waiting.past ++ [(waiting.request, reply)])
        later fun _ _ _ => True) ∧
    (∀ sending ∈ sent, sending.handler = handler →
      sending.call ∈ waiting.past.map Prod.fst ∨ sending.call = waiting.request) ∧
    Opened sent handler

/-- All handlers have kept their contracts, and those that wait will. -/
structure Sound (events : List (Event Request Reply Moment))
    (loop : Loop Store Call Reply Moment Error Value) : Prop where
  turns : loop.turns = events.length
  waits : ∀ handler waiting, loop.waiting handler = some waiting →
    Awaits serve start rely contract events loop.store loop.sent handler waiting
  sends : ∀ sending ∈ loop.sent, Kept serve start contract events sending
  opens : ∀ sending ∈ loop.sent, Opened loop.sent sending.handler
  ordered : loop.sent.Pairwise fun first second => first.turn < second.turn ∧
    (first.handler = second.handler → first.call ∈ second.past.map Prod.fst)
  changes : ∀ turn < events.length,
    storeAt serve start events (turn + 1) = storeAt serve start events turn ∨
      ∃ handler ≤ turn, ∃ agreed past, Serves serve start contract events handler agreed ∧
        agreed.changes past (storeAt serve start events turn)
          (storeAt serve start events (turn + 1))

variable {serve start rely contract} {events : List (Event Request Reply Moment)}

theorem Serves.lt_length {handler : ℕ} {agreed : Contract Store Call Reply}
    (serves : Serves serve start contract events handler agreed) : handler < events.length := by
  rcases serves with ⟨_, _, isRequest, _⟩
  exact (List.getElem?_eq_some_iff.mp isRequest).1

theorem Serves.append {handler : ℕ} {agreed : Contract Store Call Reply}
    (serves : Serves serve start contract events handler agreed)
    (later : List (Event Request Reply Moment)) :
    Serves serve start contract (events ++ later) handler agreed := by
  have inside := serves.lt_length
  rcases serves with ⟨moment, request, isRequest, isContract⟩
  refine ⟨moment, request, ?_, ?_⟩
  · rw [List.getElem?_append_left inside]
    exact isRequest
  · rw [storeAt_append serve start (Nat.le_of_lt inside)]
    exact isContract

theorem Kept.append {sending : Sending Call Reply}
    (kept : Kept serve start contract events sending)
    (later : List (Event Request Reply Moment)) :
    Kept serve start contract (events ++ later) sending := by
  rcases kept with ⟨started, bounded, agreed, serves, allowed⟩
  refine ⟨started, ?_, agreed, serves.append later, ?_⟩
  · rw [List.length_append]
    omega
  · rw [storeAt_append serve start bounded]
    exact allowed

theorem Opened.append {sent : List (Sending Call Reply)} {handler : ℕ}
    (opened : Opened sent handler) (later : List (Sending Call Reply)) :
    Opened (sent ++ later) handler := by
  rcases opened with ⟨opening, mem, isFirst⟩
  exact ⟨opening, List.mem_append_left _ mem, isFirst⟩

section Awaits

variable {store : Store} {sent : List (Sending Call Reply)} {handler : ℕ}
  {waiting : Waiting Store Call Reply Moment Error Value}
  (awaits : Awaits serve start rely contract events store sent handler waiting)

include awaits

/-- It waits on through a turn of another handler. -/
theorem Awaits.interfered
    (trans : ∀ first second third, rely first second → rely second third → rely first third)
    {changed : Store} (interference : rely store changed)
    (event : Event Request Reply Moment) :
    Awaits serve start rely contract (events ++ [event]) changed sent handler waiting := by
  rcases awaits with ⟨agreed, serves, will, rest⟩
  refine ⟨agreed, serves.append _, ?_, rest⟩
  intro reply later interfered
  exact will reply later (trans _ _ _ interference interfered)

/-- The calls of others are none of its own. -/
theorem Awaits.sent_concat {sending : Sending Call Reply} (other : sending.handler ≠ handler) :
    Awaits serve start rely contract events store (sent ++ [sending]) handler waiting := by
  rcases awaits with ⟨agreed, serves, will, calls, opened⟩
  refine ⟨agreed, serves, will, ?_, opened.append _⟩
  intro one mem sameHandler
  rcases List.mem_append.mp mem with earlier | here
  · exact calls one earlier sameHandler
  · cases List.mem_singleton.mp here
    exact absurd sameHandler other

end Awaits

namespace Sound

theorem initial : Sound serve start rely contract [] (Loop.initial start) where
  turns := rfl
  waits := by simp [Loop.initial]
  sends := by simp [Loop.initial]
  opens := by simp [Loop.initial]
  ordered := List.Pairwise.nil
  changes := by simp

section Turn

variable {event : Event Request Reply Moment}
  (sound : Sound serve start rely contract events (run serve start events))

include sound

theorem changes_concat (event : Event Request Reply Moment)
    (last : (step serve (run serve start events) event).store = (run serve start events).store ∨
      ∃ handler ≤ events.length, ∃ agreed past,
        Serves serve start contract (events ++ [event]) handler agreed ∧
        agreed.changes past (run serve start events).store
          (step serve (run serve start events) event).store) :
    ∀ turn < (events ++ [event]).length,
      storeAt serve start (events ++ [event]) (turn + 1) =
          storeAt serve start (events ++ [event]) turn ∨
        ∃ handler ≤ turn, ∃ agreed past,
          Serves serve start contract (events ++ [event]) handler agreed ∧
          agreed.changes past (storeAt serve start (events ++ [event]) turn)
            (storeAt serve start (events ++ [event]) (turn + 1)) := by
  intro turn below
  simp only [List.length_append, List.length_singleton] at below
  rcases Nat.lt_or_eq_of_le (Nat.le_of_lt_succ below) with earlier | rfl
  · rw [storeAt_append serve start (Nat.le_of_lt earlier), storeAt_append serve start earlier]
    rcases sound.changes turn earlier with same | ⟨handler, started, agreed, past, serves, kept⟩
    · exact Or.inl same
    · exact Or.inr ⟨handler, started, agreed, past, serves.append _, kept⟩
  · rw [storeAt_succ_length, storeAt_append serve start (Nat.le_refl _), storeAt_length]
    exact last

/-- A turn in which nothing happens. -/
theorem idle (isIdle : step serve (run serve start events) event =
      { run serve start events with turns := (run serve start events).turns + 1 }) :
    Sound serve start rely contract (events ++ [event])
      (step serve (run serve start events) event) := by
  have changes := sound.changes_concat event (Or.inl (by rw [isIdle]))
  rw [isIdle]
  refine ⟨?_, ?_, fun sending mem => (sound.sends sending mem).append _, sound.opens,
    sound.ordered, changes⟩
  · simp [sound.turns]
  · intro handler waiting isWaiting
    rcases sound.waits handler waiting isWaiting with ⟨agreed, serves, rest⟩
    exact ⟨agreed, serves.append _, rest⟩

section Settle

variable {handler : ℕ} {past : List (Call × Reply)} {agreed : Contract Store Call Reply}
  {store : Store} (started : handler ≤ events.length)
  (serves : Serves serve start contract (events ++ [event]) handler agreed)
  (changed : agreed.changes past (run serve start events).store store)
  (others : ∀ other waiting, (run serve start events).waiting other = some waiting →
    Awaits serve start rely contract (events ++ [event]) store (run serve start events).sent
      other waiting)

include started serves changed others

theorem finished {outcome : Except Error Value}
    (isTurn : step serve (run serve start events) event =
      (run serve start events).settle handler past (store, .finished outcome)) :
    Sound serve start rely contract (events ++ [event])
      (step serve (run serve start events) event) := by
  have changes := sound.changes_concat event
    (Or.inr ⟨handler, started, agreed, past, serves, by rwa [isTurn]⟩)
  rw [isTurn]
  refine ⟨?_, ?_, fun sending mem => (sound.sends sending mem).append _, sound.opens,
    sound.ordered, changes⟩
  · simp [Loop.settle, sound.turns]
  · intro other waiting isWaiting
    by_cases isHandler : other = handler
    · simp [Loop.settle, isHandler] at isWaiting
    · simp only [Loop.settle, Function.update_of_ne isHandler] at isWaiting
      exact others other waiting isWaiting

theorem paused {request : Call} {resume : Reply → Handler Store Call Reply Moment Error Value}
    (allowed : agreed.sends past store request)
    (will : ∀ reply later, rely store later →
      Handler.wp rely agreed (resume reply) (past ++ [(request, reply)]) later fun _ _ _ => True)
    (recalls : ∀ sending ∈ (run serve start events).sent, sending.handler = handler →
      sending.call ∈ past.map Prod.fst)
    (opened : handler = events.length ∨ Opened (run serve start events).sent handler)
    (isTurn : step serve (run serve start events) event =
      (run serve start events).settle handler past (store, .waiting request resume)) :
    Sound serve start rely contract (events ++ [event])
      (step serve (run serve start events) event) := by
  have changes := sound.changes_concat event
    (Or.inr ⟨handler, started, agreed, past, serves, by rwa [isTurn]⟩)
  have sameStore : (step serve (run serve start events) event).store = store := by
    rw [isTurn]
    rfl
  have opens : Opened ((run serve start events).sent ++
      [⟨handler, (run serve start events).turns, past, request⟩]) handler := by
    rcases opened with isNew | earlier
    · refine ⟨_, List.mem_append_right _ (List.mem_singleton_self _), rfl, ?_⟩
      rw [sound.turns, isNew]
    · exact earlier.append _
  rw [isTurn]
  refine ⟨?_, ?_, ?_, ?_, ?_, changes⟩
  · simp [Loop.settle, sound.turns]
  · intro other waiting isWaiting
    by_cases isHandler : other = handler
    · subst other
      simp only [Loop.settle, Function.update_self, Option.some.injEq] at isWaiting
      subst waiting
      refine ⟨agreed, serves, will, ?_, opens⟩
      intro sending mem sameHandler
      rcases List.mem_append.mp mem with earlier | here
      · exact Or.inl (recalls sending earlier sameHandler)
      · cases List.mem_singleton.mp here
        exact Or.inr rfl
    · simp only [Loop.settle, Function.update_of_ne isHandler] at isWaiting
      exact (others other waiting isWaiting).sent_concat (Ne.symm isHandler)
  · intro sending mem
    rcases List.mem_append.mp mem with earlier | here
    · exact (sound.sends sending earlier).append _
    · cases List.mem_singleton.mp here
      refine ⟨?_, ?_, agreed, serves, ?_⟩
      · rw [sound.turns]
        exact started
      · simp [sound.turns]
      · rw [sound.turns, storeAt_succ_length, sameStore]
        exact allowed
  · intro sending mem
    rcases List.mem_append.mp mem with earlier | here
    · exact (sound.opens sending earlier).append _
    · cases List.mem_singleton.mp here
      exact opens
  · refine List.pairwise_append.mpr ⟨sound.ordered, List.pairwise_singleton _ _, ?_⟩
    intro first mem second isSecond
    cases List.mem_singleton.mp isSecond
    refine ⟨?_, recalls first mem⟩
    rw [sound.turns]
    exact (sound.sends first mem).2.1

end Settle

/-- A turn of a handler that keeps its contract. -/
theorem settled {handler : ℕ} {past : List (Call × Reply)} {agreed : Contract Store Call Reply}
    {code : Handler Store Call Reply Moment Error Value} (moment : Moment)
    (trans : ∀ first second third, rely first second → rely second third → rely first third)
    (within : ∀ before after, agreed.changes past before after → rely before after)
    (started : handler ≤ events.length)
    (serves : Serves serve start contract (events ++ [event]) handler agreed)
    (keeps : Handler.wp rely agreed code past (run serve start events).store fun _ _ _ => True)
    (recalls : ∀ sending ∈ (run serve start events).sent, sending.handler = handler →
      sending.call ∈ past.map Prod.fst)
    (opened : handler = events.length ∨ Opened (run serve start events).sent handler)
    (isTurn : step serve (run serve start events) event =
      (run serve start events).settle handler past
        (code.advance moment (run serve start events).store)) :
    Sound serve start rely contract (events ++ [event])
      (step serve (run serve start events) event) := by
  rcases Handler.advance_sound moment keeps with ⟨changed, stopped⟩
  -- the others still wait, in a store that is related to the one they left
  have others : ∀ other waiting, (run serve start events).waiting other = some waiting →
      Awaits serve start rely contract (events ++ [event])
        (code.advance moment (run serve start events).store).1
        (run serve start events).sent other waiting := by
    intro other waiting isWaiting
    exact (sound.waits other waiting isWaiting).interfered trans (within _ _ changed) event
  cases advanced : code.advance moment (run serve start events).store with
  | mk store pause =>
      rw [advanced] at stopped others changed isTurn
      cases pause with
      | finished outcome => exact sound.finished started serves changed others isTurn
      | waiting request resume =>
          exact sound.paused started serves changed others stopped.1 stopped.2 recalls opened
            isTurn

end Turn

end Sound

/-- Every run is sound when every handler keeps its contract from any store. -/
theorem sound (refl : ∀ store, rely store store)
    (trans : ∀ first second third, rely first second → rely second third → rely first third)
    (within : ∀ store request past before after,
      (contract store request).changes past before after → rely before after)
    (keeps : ∀ store request, Handler.wp rely (contract store request) (serve request) [] store
      fun _ _ _ => True)
    (events : List (Event Request Reply Moment)) :
    Sound serve start rely contract events (run serve start events) := by
  apply history_invariant (Sound serve start rely contract) Sound.initial
  intro before event ih
  change Sound serve start rely contract before (run serve start before) at ih
  change Sound serve start rely contract (before ++ [event])
    (step serve (run serve start before) event)
  have unstarted : ∀ sending ∈ (run serve start before).sent,
      sending.handler ≠ before.length := by
    intro sending mem
    have started := (ih.sends sending mem).1
    have bounded := (ih.sends sending mem).2.1
    omega
  cases event with
  | request moment request =>
      have serves : Serves serve start contract (before ++ [.request moment request])
          before.length (contract (run serve start before).store request) := by
        refine ⟨moment, request, by simp, ?_⟩
        rw [storeAt_append serve start (Nat.le_refl _), storeAt_length]
      refine ih.settled moment trans (within _ _ _) (Nat.le_refl _) serves (keeps _ request) ?_
        (Or.inl rfl) ?_
      · intro sending mem isNew
        exact absurd isNew (unstarted sending mem)
      · rw [step, ih.turns]
  | reply moment handler reply =>
      cases isWaiting : (run serve start before).waiting handler with
      | none => exact ih.idle (by simp only [step, isWaiting])
      | some waiting =>
          rcases ih.waits handler waiting isWaiting with ⟨agreed, serves, will, calls, opened⟩
          have started := serves.lt_length
          have isContract := serves
          rcases isContract with ⟨_, request, _, rfl⟩
          refine ih.settled moment trans (within _ _ _) (Nat.le_of_lt started) (serves.append _)
            (will reply _ (refl _)) ?_ (Or.inr opened) (by simp only [step, isWaiting])
          intro sending mem sameHandler
          rw [List.map_append, List.mem_append]
          rcases calls sending mem sameHandler with earlier | last
          · exact Or.inl earlier
          · exact Or.inr (by simp [last])

/-- The stores of a run are related in the order of the turns. -/
theorem Sound.storeAt_rely {loop : Loop Store Call Reply Moment Error Value}
    (sound : Sound serve start rely contract events loop) (refl : ∀ store, rely store store)
    (trans : ∀ first second third, rely first second → rely second third → rely first third)
    (within : ∀ store request past before after,
      (contract store request).changes past before after → rely before after)
    {first second : ℕ} (le : first ≤ second) (bounded : second ≤ events.length) :
    rely (storeAt serve start events first) (storeAt serve start events second) := by
  induction le with
  | refl => exact refl _
  | @step turn _ ih =>
      apply trans _ _ _ (ih (Nat.le_of_succ_le bounded))
      rcases sound.changes turn bounded with same | ⟨_, _, _, past, ⟨_, request, _, rfl⟩, kept⟩
      · rw [same]
        exact refl _
      · exact within _ request past _ _ kept

end Soundness

end Loop

end EventLoop
