import Mathlib.Data.List.Basic
import RateLimiter.Lib.EventLoop

/-!
# Handlers turn by turn

A contract bounds what a handler may do, and is closed under doing it twice. A
`TurnSpec` says exactly what one turn does: it relates the store before the
turn, the store after it and the call the turn stops at, given the past of the
handler, which ends with the reply that the turn began with.

`Loop.exchanges` lists the replies that were received, in their order, and
`Loop.step_turn` says what each event of a run does.
-/

namespace EventLoop

/-- What a turn may do. It stops at a call, or ends the handler. -/
abbrev TurnSpec (Store Call Reply : Type) :=
  List (Call × Reply) → Store → Store → Option Call → Prop

variable {Store Call Reply Moment Error Value Result : Type}

namespace Handler

/-- The weakest precondition of a handler whose turns keep a specification. The two stores are
that before the present turn and the present one. -/
def wpTurn (spec : TurnSpec Store Call Reply) :
    Handler Store Call Reply Moment Error Value → List (Call × Reply) → Store → Store →
      (Except Error Value → List (Call × Reply) → Store → Store → Prop) → Prop
  | .done outcome, past, before, now, post => post outcome past before now
  | .call request resume, past, before, now, post =>
      spec past before now (some request) ∧ ∀ reply later,
        wpTurn spec (resume reply) (past ++ [(request, reply)]) later later post
  | .access update next, past, before, now, post =>
      ∀ moment, wpTurn spec (next moment now) past before (update moment now) post

/-- All turns of the handler keep the specification, the last one included. -/
def KeepsTurns (spec : TurnSpec Store Call Reply)
    (handler : Handler Store Call Reply Moment Error Value) (past : List (Call × Reply))
    (before now : Store) : Prop :=
  wpTurn spec handler past before now fun _ past before now => spec past before now none

section Rules

variable {spec : TurnSpec Store Call Reply} {past : List (Call × Reply)} {before now : Store}

theorem wpTurn_mono {handler : Handler Store Call Reply Moment Error Value}
    {wider : TurnSpec Store Call Reply}
    {post weaker : Except Error Value → List (Call × Reply) → Store → Store → Prop}
    (widen : ∀ past before now stop, spec past before now stop → wider past before now stop)
    (weaken : ∀ outcome past before now, post outcome past before now →
      weaker outcome past before now)
    (holds : wpTurn spec handler past before now post) :
    wpTurn wider handler past before now weaker := by
  induction handler generalizing past before now with
  | done outcome => exact weaken outcome past before now holds
  | call request resume ih =>
      refine ⟨widen _ _ _ _ holds.1, ?_⟩
      intro reply later
      exact ih reply (holds.2 reply later)
  | access update next ih =>
      intro moment
      exact ih moment now (holds moment)

theorem wpTurn_bind {handler : Handler Store Call Reply Moment Error Value}
    {next : Value → Handler Store Call Reply Moment Error Result}
    {post : Except Error Result → List (Call × Reply) → Store → Store → Prop} :
    wpTurn spec (handler >>= next) past before now post ↔
      wpTurn spec handler past before now fun outcome past before now =>
        match outcome with
        | .ok value => wpTurn spec (next value) past before now post
        | .error error => post (.error error) past before now := by
  change wpTurn spec (handler.bind next) past before now post ↔ _
  induction handler generalizing past before now with
  | done outcome => cases outcome <;> rfl
  | call request resume ih => simp only [bind, wpTurn, ih]
  | access update rest ih => simp only [bind, wpTurn, ih]

theorem wpTurn_atomically {action : Moment → Store → Value × Store}
    {next : Value → Handler Store Call Reply Moment Error Result}
    {post : Except Error Result → List (Call × Reply) → Store → Store → Prop} :
    wpTurn spec (atomically action >>= next) past before now post ↔
      ∀ moment, wpTurn spec (next (action moment now).1) past before (action moment now).2 post :=
  Iff.rfl

theorem wpTurn_handle {handler : Handler Store Call Reply Moment Error Value}
    {recover : Error → Handler Store Call Reply Moment Error Value}
    {post : Except Error Value → List (Call × Reply) → Store → Store → Prop} :
    wpTurn spec (tryCatch handler recover) past before now post ↔
      wpTurn spec handler past before now fun outcome past before now =>
        match outcome with
        | .ok value => post (.ok value) past before now
        | .error error => wpTurn spec (recover error) past before now post := by
  change wpTurn spec (handler.handle recover) past before now post ↔ _
  induction handler generalizing past before now with
  | done outcome => cases outcome <;> rfl
  | call request resume ih => simp only [handle, wpTurn, ih]
  | access update rest ih => simp only [handle, wpTurn, ih]

/-- A turn that follows with no access to the store changes nothing. -/
theorem KeepsTurns.map {handler : Handler Store Call Reply Moment Error Value}
    {respond : Value → Result} (keeps : KeepsTurns spec handler past before now) :
    KeepsTurns spec (do return respond (← handler)) past before now := by
  rw [KeepsTurns, wpTurn_bind]
  apply wpTurn_mono (fun _ _ _ _ kept => kept) _ keeps
  intro outcome past before now kept
  cases outcome <;> exact kept

theorem KeepsTurns.recover {handler : Handler Store Call Reply Moment Error Value}
    {respond : Error → Value} (keeps : KeepsTurns spec handler past before now) :
    KeepsTurns spec (tryCatch handler fun error => pure (respond error)) past before now := by
  rw [KeepsTurns, wpTurn_handle]
  apply wpTurn_mono (fun _ _ _ _ kept => kept) _ keeps
  intro outcome past before now kept
  cases outcome <;> exact kept

theorem KeepsTurns.mono {handler : Handler Store Call Reply Moment Error Value}
    {wider : TurnSpec Store Call Reply}
    (widen : ∀ past before now stop, spec past before now stop → wider past before now stop)
    (keeps : KeepsTurns spec handler past before now) :
    KeepsTurns wider handler past before now :=
  wpTurn_mono widen (fun _ past before now => widen past before now none) keeps

/-- The first turn is the one without a past. -/
theorem KeepsTurns.started {handler : Handler Store Call Reply Moment Error Value} (store : Store)
    (keeps : KeepsTurns spec handler past before now) (isStart : past = [] → before = store) :
    KeepsTurns (fun past before now stop => spec past before now stop ∧
      (past = [] → before = store)) handler past before now := by
  induction handler generalizing past before now with
  | done outcome => exact ⟨keeps, isStart⟩
  | call request resume ih =>
      refine ⟨⟨keeps.1, isStart⟩, ?_⟩
      intro reply later
      exact ih reply (keeps.2 reply later) (by simp)
  | access update next ih =>
      intro moment
      exact ih moment now (keeps moment) isStart

/-- One turn keeps the specification and leaves a handler that will. -/
theorem KeepsTurns.advance {handler : Handler Store Call Reply Moment Error Value}
    (moment : Moment) (keeps : KeepsTurns spec handler past before now) :
    match (handler.advance moment now).2 with
    | .finished _ => spec past before (handler.advance moment now).1 none
    | .waiting request resume =>
        spec past before (handler.advance moment now).1 (some request) ∧ ∀ reply later,
          KeepsTurns spec (resume reply) (past ++ [(request, reply)]) later later := by
  induction handler generalizing now with
  | done outcome => exact keeps
  | call request resume _ => exact keeps
  | access update next ih => exact ih moment now (keeps moment)

end Rules

end Handler

/-- A reply that a handler received in a turn, with the call it answers and what came before. -/
structure Exchange (Call Reply : Type) where
  handler : ℕ
  turn : ℕ
  past : List (Call × Reply)
  call : Call
  reply : Reply

namespace Loop

open Machine

variable {Request : Type}

/-- The reply that the event brings to a waiting handler. -/
def exchange? (loop : Loop Store Call Reply Moment Error Value) :
    Event Request Reply Moment → Option (Exchange Call Reply)
  | .request _ _ => none
  | .reply _ handler reply => (loop.waiting handler).map fun waiting =>
      ⟨handler, loop.turns, waiting.past, waiting.request, reply⟩

/-- The call at which a handler waits. -/
def stop (loop : Loop Store Call Reply Moment Error Value) (handler : ℕ) : Option Call :=
  (loop.waiting handler).map Waiting.request

section Runs

variable (serve : Request → Handler Store Call Reply Moment Error Value) (start : Store)

/-- The replies of a run, in the order in which they were received. -/
def exchanges (events : List (Event Request Reply Moment)) : List (Exchange Call Reply) :=
  (List.range events.length).filterMap fun turn =>
    events[turn]?.bind (run serve start (events.take turn)).exchange?

theorem exchanges_concat (events : List (Event Request Reply Moment))
    (event : Event Request Reply Moment) :
    exchanges serve start (events ++ [event]) =
      exchanges serve start events ++ ((run serve start events).exchange? event).toList := by
  have earlier : ∀ turn ∈ List.range events.length,
      (events ++ [event])[turn]?.bind
          (run serve start ((events ++ [event]).take turn)).exchange? =
        events[turn]?.bind (run serve start (events.take turn)).exchange? := by
    intro turn mem
    have below := List.mem_range.mp mem
    rw [List.getElem?_append_left below, List.take_append_of_le_length (Nat.le_of_lt below)]
  rw [exchanges, List.length_append, List.length_singleton, List.range_succ,
    List.filterMap_append, List.filterMap_congr earlier]
  cases isExchange : (run serve start events).exchange? event <;>
    simp [exchanges, isExchange]

theorem mem_exchanges_concat {events : List (Event Request Reply Moment)}
    {event : Event Request Reply Moment} {exchange : Exchange Call Reply}
    (mem : exchange ∈ exchanges serve start (events ++ [event])) :
    exchange ∈ exchanges serve start events ∨
      (run serve start events).exchange? event = some exchange := by
  rw [exchanges_concat, List.mem_append, Option.mem_toList] at mem
  exact mem

end Runs

theorem exchange?_eq_some {loop : Loop Store Call Reply Moment Error Value}
    {event : Event Request Reply Moment} {exchange : Exchange Call Reply}
    (isExchange : loop.exchange? event = some exchange) :
    ∃ waiting moment, event = .reply moment exchange.handler exchange.reply ∧
      loop.waiting exchange.handler = some waiting ∧ waiting.past = exchange.past ∧
      waiting.request = exchange.call ∧ exchange.turn = loop.turns := by
  cases event with
  | request moment request => simp [exchange?] at isExchange
  | reply moment handler reply =>
      rcases Option.map_eq_some_iff.mp isExchange with ⟨waiting, isWaiting, rfl⟩
      exact ⟨waiting, moment, rfl, isWaiting, rfl, rfl, rfl⟩

section Specified

variable (serve : Request → Handler Store Call Reply Moment Error Value) (start : Store)
  (spec : Store → Request → TurnSpec Store Call Reply)

/-- The handler of that number serves the request. -/
def ServesRequest (events : List (Event Request Reply Moment)) (handler : ℕ)
    (request : Request) : Prop :=
  ∃ moment, events[handler]? = some (.request moment request)

/-- A handler that waits will keep its specification, has sent the call it waits for and recalls
all that it has received. -/
structure Ready (events : List (Event Request Reply Moment)) (sent : List (Sending Call Reply))
    (handler : ℕ) (waiting : Waiting Store Call Reply Moment Error Value) : Prop where
  will : ∃ request, ServesRequest events handler request ∧ ∀ reply later,
    Handler.KeepsTurns (spec (storeAt serve start events handler) request)
      (waiting.resume reply) (waiting.past ++ [(waiting.request, reply)]) later later
  sends : ∃ turn, ⟨handler, turn, waiting.past, waiting.request⟩ ∈ sent
  recalls : ∀ exchange ∈ exchanges serve start events, exchange.handler = handler →
    (exchange.call, exchange.reply) ∈ waiting.past

/-- Every handler that waits is ready, and every exchange goes back to a request and a call. -/
structure Turning (events : List (Event Request Reply Moment))
    (loop : Loop Store Call Reply Moment Error Value) : Prop where
  turns : loop.turns = events.length
  ready : ∀ handler waiting, loop.waiting handler = some waiting →
    Ready serve start spec events loop.sent handler waiting
  exchanged : ∀ exchange ∈ exchanges serve start events,
    (∃ request, ServesRequest events exchange.handler request) ∧
    (∃ turn, ⟨exchange.handler, turn, exchange.past, exchange.call⟩ ∈ loop.sent) ∧
    exchange.turn < events.length
  ordered : (exchanges serve start events).Pairwise fun first second =>
    first.turn < second.turn ∧
      (first.handler = second.handler → (first.call, first.reply) ∈ second.past)

/-- The handler takes a turn in which it keeps its specification, and nobody else does. -/
structure TakesTurn (events : List (Event Request Reply Moment))
    (event : Event Request Reply Moment) (handler : ℕ) (request : Request)
    (past : List (Call × Reply)) : Prop where
  kept : spec (storeAt serve start events handler) request past (run serve start events).store
    (run serve start (events ++ [event])).store
    ((run serve start (events ++ [event])).stop handler)
  recalls : ∀ waiting, (run serve start (events ++ [event])).waiting handler = some waiting →
    waiting.past = past
  others : ∀ other ≠ handler, (run serve start (events ++ [event])).waiting other =
    (run serve start events).waiting other

/-- What an event does in a run: it starts a handler, is dropped, or resumes a handler. -/
inductive TurnOf (events : List (Event Request Reply Moment))
    (event : Event Request Reply Moment) : Prop where
  | starts (moment : Moment) (request : Request) (isRequest : event = .request moment request)
      (isNone : (run serve start events).exchange? event = none)
      (turn : TakesTurn serve start spec events event events.length request [])
  | dropped (isNone : (run serve start events).exchange? event = none)
      (notRequest : ∀ moment request, event ≠ .request moment request)
      (store : (run serve start (events ++ [event])).store = (run serve start events).store)
      (waiting : (run serve start (events ++ [event])).waiting =
        (run serve start events).waiting)
  | resumes (exchange : Exchange Call Reply) (request : Request)
      (isExchange : (run serve start events).exchange? event = some exchange)
      (serves : ServesRequest events exchange.handler request)
      (turn : TakesTurn serve start spec events event exchange.handler request
        (exchange.past ++ [(exchange.call, exchange.reply)]))

variable {serve start spec} {events : List (Event Request Reply Moment)}

theorem ServesRequest.append {handler : ℕ} {request : Request}
    (serves : ServesRequest events handler request) (later : List (Event Request Reply Moment)) :
    ServesRequest (events ++ later) handler request := by
  rcases serves with ⟨moment, isRequest⟩
  refine ⟨moment, ?_⟩
  rw [List.getElem?_append_left (List.getElem?_eq_some_iff.mp isRequest).1]
  exact isRequest

theorem ServesRequest.lt_length {handler : ℕ} {request : Request}
    (serves : ServesRequest events handler request) : handler < events.length := by
  rcases serves with ⟨_, isRequest⟩
  exact (List.getElem?_eq_some_iff.mp isRequest).1

section Settle

variable {loop : Loop Store Call Reply Moment Error Value} {handler : ℕ}
  {past : List (Call × Reply)} {code : Handler Store Call Reply Moment Error Value}
  {turnSpec : TurnSpec Store Call Reply}

theorem waiting_settle_of_ne {other : ℕ} (ne : other ≠ handler)
    (turn : Store × Pause Store Call Reply Moment Error Value) :
    (loop.settle handler past turn).waiting other = loop.waiting other := by
  rcases turn with ⟨store, pause⟩
  cases pause <;> simp [settle, ne]

theorem turns_settle (turn : Store × Pause Store Call Reply Moment Error Value) :
    (loop.settle handler past turn).turns = loop.turns + 1 := by
  rcases turn with ⟨store, pause⟩
  cases pause <;> rfl

variable (moment : Moment)
  (keeps : Handler.KeepsTurns turnSpec code past loop.store loop.store)

include keeps

theorem settle_kept :
    turnSpec past loop.store (loop.settle handler past (code.advance moment loop.store)).store
      ((loop.settle handler past (code.advance moment loop.store)).stop handler) := by
  have advanced := keeps.advance moment
  generalize code.advance moment loop.store = turn at advanced ⊢
  rcases turn with ⟨store, pause⟩
  cases pause with
  | finished outcome => simpa [settle, stop] using advanced
  | waiting request resume => simpa [settle, stop] using advanced.1

theorem settle_waits {waiting : Waiting Store Call Reply Moment Error Value}
    (waits : (loop.settle handler past (code.advance moment loop.store)).waiting handler =
      some waiting) :
    waiting.past = past ∧
      ⟨handler, loop.turns, past, waiting.request⟩ ∈
        (loop.settle handler past (code.advance moment loop.store)).sent ∧
      ∀ reply later, Handler.KeepsTurns turnSpec (waiting.resume reply)
        (past ++ [(waiting.request, reply)]) later later := by
  have advanced := keeps.advance moment
  generalize code.advance moment loop.store = turn at advanced waits ⊢
  rcases turn with ⟨store, pause⟩
  cases pause with
  | finished outcome => simp [settle] at waits
  | waiting request resume =>
      simp only [settle, Function.update_self, Option.some.injEq] at waits
      subst waits
      exact ⟨rfl, by simp [settle], advanced.2⟩

end Settle

theorem takesTurn_of_settle {event : Event Request Reply Moment} {handler : ℕ} {request : Request}
    {past : List (Call × Reply)} {code : Handler Store Call Reply Moment Error Value}
    (moment : Moment)
    (keeps : Handler.KeepsTurns (spec (storeAt serve start events handler) request) code past
      (run serve start events).store (run serve start events).store)
    (isTurn : run serve start (events ++ [event]) = (run serve start events).settle handler past
      (code.advance moment (run serve start events).store)) :
    TakesTurn serve start spec events event handler request past := by
  constructor
  · rw [isTurn]
    exact settle_kept moment keeps
  · intro waiting isWaiting
    rw [isTurn] at isWaiting
    exact (settle_waits moment keeps isWaiting).1
  · intro other ne
    rw [isTurn]
    exact waiting_settle_of_ne ne _

/-- The reply of an event that resumes nobody is dropped; otherwise a handler takes a turn. -/
theorem step_turn (turning : Turning serve start spec events (run serve start events))
    (keeps : ∀ store request,
      Handler.KeepsTurns (spec store request) (serve request) [] store store)
    (event : Event Request Reply Moment) : TurnOf serve start spec events event := by
  cases event with
  | request moment request =>
      have starts : Handler.KeepsTurns
          (spec (storeAt serve start events events.length) request) (serve request) []
          (run serve start events).store (run serve start events).store := by
        rw [storeAt_length]
        exact keeps _ request
      refine .starts moment request rfl rfl (takesTurn_of_settle moment starts ?_)
      rw [run_concat, step, turning.turns]
  | reply moment handler reply =>
      cases isWaiting : (run serve start events).waiting handler with
      | none =>
          refine .dropped ?_ (by simp) ?_ ?_
          · simp [exchange?, isWaiting]
          · simp [run_concat, step, isWaiting]
          · simp [run_concat, step, isWaiting]
      | some waiting =>
          rcases (turning.ready handler waiting isWaiting).will with ⟨request, serves, will⟩
          refine .resumes ⟨handler, (run serve start events).turns, waiting.past,
            waiting.request, reply⟩ request ?_ serves
            (takesTurn_of_settle moment (will reply _) ?_)
          · simp [exchange?, isWaiting]
          · simp only [run_concat, step, isWaiting]

namespace Turning

theorem initial : Turning serve start spec [] (Loop.initial start) where
  turns := rfl
  ready := by simp [Loop.initial]
  exchanged := by simp [exchanges]
  ordered := List.Pairwise.nil

section Turn

variable (turning : Turning serve start spec events (run serve start events))
  {event : Event Request Reply Moment}

include turning

theorem exchanged_concat (event : Event Request Reply Moment) :
    ∀ exchange ∈ exchanges serve start (events ++ [event]),
      (∃ request, ServesRequest (events ++ [event]) exchange.handler request) ∧
      (∃ turn, ⟨exchange.handler, turn, exchange.past, exchange.call⟩ ∈
        (run serve start (events ++ [event])).sent) ∧
      exchange.turn < (events ++ [event]).length := by
  have grows := (sent_grows serve start events [event]).subset
  intro exchange mem
  rcases mem_exchanges_concat serve start mem with earlier | last
  · rcases turning.exchanged exchange earlier with ⟨⟨request, serves⟩, ⟨turn, isSent⟩, bounded⟩
    refine ⟨⟨request, serves.append _⟩, ⟨turn, grows isSent⟩, ?_⟩
    rw [List.length_append]
    omega
  · rcases exchange?_eq_some last with ⟨waiting, _, _, isWaiting, isPast, isCall, isTurn⟩
    rcases turning.ready _ waiting isWaiting with ⟨⟨request, serves, _⟩, ⟨turn, isSent⟩, _⟩
    rw [isPast, isCall] at isSent
    refine ⟨⟨request, serves.append _⟩, ⟨turn, grows isSent⟩, ?_⟩
    rw [isTurn, turning.turns]
    simp

theorem ordered_concat (event : Event Request Reply Moment) :
    (exchanges serve start (events ++ [event])).Pairwise fun first second =>
      first.turn < second.turn ∧
        (first.handler = second.handler → (first.call, first.reply) ∈ second.past) := by
  rw [exchanges_concat]
  refine List.pairwise_append.mpr ⟨turning.ordered, ?_, ?_⟩
  · cases (run serve start events).exchange? event <;> simp
  · intro first firstMem second secondMem
    have last : (run serve start events).exchange? event = some second :=
      Option.mem_toList.mp secondMem
    rcases exchange?_eq_some last with ⟨waiting, _, _, isWaiting, isPast, _, isTurn⟩
    constructor
    · rw [isTurn, turning.turns]
      exact (turning.exchanged first firstMem).2.2
    · intro sameHandler
      rw [← isPast]
      exact (turning.ready _ waiting isWaiting).recalls first firstMem sameHandler

/-- A handler that takes no part in a turn waits on. -/
theorem ready_concat {handler : ℕ} {waiting : Waiting Store Call Reply Moment Error Value}
    (isWaiting : (run serve start events).waiting handler = some waiting)
    (apart : ∀ exchange, (run serve start events).exchange? event = some exchange →
      exchange.handler ≠ handler) :
    Ready serve start spec (events ++ [event]) (run serve start (events ++ [event])).sent handler
      waiting := by
  rcases turning.ready handler waiting isWaiting with
    ⟨⟨request, serves, will⟩, ⟨turn, isSent⟩, recalls⟩
  refine ⟨⟨request, serves.append _, ?_⟩,
    ⟨turn, (sent_grows serve start events [event]).subset isSent⟩, ?_⟩
  · rw [storeAt_append serve start (Nat.le_of_lt serves.lt_length)]
    exact will
  · intro exchange mem sameHandler
    rcases mem_exchanges_concat serve start mem with earlier | last
    · exact recalls exchange earlier sameHandler
    · exact absurd sameHandler (apart exchange last)

/-- A reply that nobody waits for. -/
theorem dropped (isDropped : (run serve start events).exchange? event = none)
    (isTurn : run serve start (events ++ [event]) =
      { run serve start events with turns := (run serve start events).turns + 1 }) :
    Turning serve start spec (events ++ [event]) (run serve start (events ++ [event])) := by
  refine ⟨?_, ?_, turning.exchanged_concat event, turning.ordered_concat event⟩
  · rw [isTurn]
    simp [turning.turns]
  · intro handler waiting isWaiting
    rw [isTurn] at isWaiting
    apply turning.ready_concat isWaiting
    intro exchange isExchange
    simp [isDropped] at isExchange

/-- A turn of one handler, while the others wait on. -/
theorem settled {handler : ℕ} {past : List (Call × Reply)} {request : Request}
    {code : Handler Store Call Reply Moment Error Value} (moment : Moment)
    (serves : ServesRequest (events ++ [event]) handler request)
    (keeps : Handler.KeepsTurns
      (spec (storeAt serve start (events ++ [event]) handler) request) code past
      (run serve start events).store (run serve start events).store)
    (recalls : ∀ exchange ∈ exchanges serve start (events ++ [event]),
      exchange.handler = handler → (exchange.call, exchange.reply) ∈ past)
    (apart : ∀ exchange, (run serve start events).exchange? event = some exchange →
      exchange.handler = handler)
    (isTurn : run serve start (events ++ [event]) =
      (run serve start events).settle handler past
        (code.advance moment (run serve start events).store)) :
    Turning serve start spec (events ++ [event]) (run serve start (events ++ [event])) := by
  refine ⟨?_, ?_, turning.exchanged_concat event, turning.ordered_concat event⟩
  · rw [isTurn, turns_settle, turning.turns]
    simp
  · intro other waiting isWaiting
    by_cases isHandler : other = handler
    · subst other
      have settled : _ := isWaiting
      rw [isTurn] at settled
      rcases settle_waits moment keeps settled with ⟨rfl, isSent, will⟩
      rw [← isTurn] at isSent
      exact ⟨⟨request, serves, will⟩, ⟨_, isSent⟩, recalls⟩
    · rw [isTurn, waiting_settle_of_ne isHandler] at isWaiting
      apply turning.ready_concat isWaiting
      intro exchange isExchange
      rw [apart exchange isExchange]
      exact Ne.symm isHandler

end Turn

end Turning

/-- In every run all turns keep the specifications. -/
theorem turning (keeps : ∀ store request,
      Handler.KeepsTurns (spec store request) (serve request) [] store store)
    (events : List (Event Request Reply Moment)) :
    Turning serve start spec events (run serve start events) := by
  induction events using List.reverseRecOn with
  | nil => exact Turning.initial
  | append_singleton before event ih =>
      cases event with
      | request moment request =>
          have started : storeAt serve start (before ++ [.request moment request]) before.length =
              (run serve start before).store := by
            rw [storeAt_append serve start (Nat.le_refl _), storeAt_length]
          have serves : ServesRequest (before ++ [.request moment request]) before.length
              request := ⟨moment, by simp⟩
          refine ih.settled moment serves (by rw [started]; exact keeps _ request) ?_ ?_ ?_
          · intro exchange mem isNew
            rcases mem_exchanges_concat serve start mem with earlier | last
            · rcases (ih.exchanged exchange earlier).1 with ⟨_, served⟩
              exact absurd isNew (Nat.ne_of_lt served.lt_length)
            · simp [exchange?] at last
          · intro exchange last
            simp [exchange?] at last
          · rw [run_concat, step, ih.turns]
      | reply moment handler reply =>
          cases isWaiting : (run serve start before).waiting handler with
          | none =>
              apply ih.dropped
              · simp [exchange?, isWaiting]
              · rw [run_concat, step, isWaiting]
          | some waiting =>
              rcases ih.ready handler waiting isWaiting with ⟨⟨request, serves, will⟩, _, recalls⟩
              have resumed : ∀ exchange, (run serve start before).exchange?
                  (.reply moment handler reply : Event Request Reply Moment) = some exchange →
                  exchange.handler = handler ∧ (exchange.call, exchange.reply) ∈
                    waiting.past ++ [(waiting.request, reply)] := by
                intro exchange last
                simp only [exchange?, isWaiting, Option.map_some, Option.some.injEq] at last
                subst last
                simp
              refine ih.settled moment (serves.append _) ?_ ?_
                (fun exchange last => (resumed exchange last).1)
                (by rw [run_concat, step, isWaiting])
              · rw [storeAt_append serve start (Nat.le_of_lt serves.lt_length)]
                exact will reply _
              · intro exchange mem sameHandler
                rcases mem_exchanges_concat serve start mem with earlier | last
                · exact List.mem_append_left _ (recalls exchange earlier sameHandler)
                · exact (resumed exchange last).2

end Specified

end Loop

end EventLoop
