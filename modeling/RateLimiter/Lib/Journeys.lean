import RateLimiter.Lib.Turns

/-!
# What a request has done when it is answered

A handler is answered at most once, and what it has received by then is all
that it will ever receive. So a condition that every way through the code of a
handler ends with, whatever the replies are and whatever the others do to the
store in between, holds of each answer of a run and the exchanges of its
request.
-/

namespace EventLoop

variable {Store Call Reply Moment Error Value Result Request : Type}

namespace Handler

/-- Every way through the handler, whatever the store is at first and after each call, ends with
an outcome and a past of that kind. -/
def Concludes (post : Except Error Value → List (Call × Reply) → Prop)
    (handler : Handler Store Call Reply Moment Error Value) (past : List (Call × Reply)) : Prop :=
  ∀ before now, wpTurn (fun _ _ _ _ => True) handler past before now
    fun outcome past _ _ => post outcome past

section Rules

variable {handler : Handler Store Call Reply Moment Error Value} {past : List (Call × Reply)}
  {post weaker : Except Error Value → List (Call × Reply) → Prop}

/-- The handler ends in its next turn, or goes on after a call. -/
theorem wpTurn_advance {spec : TurnSpec Store Call Reply} {before now : Store}
    {post : Except Error Value → List (Call × Reply) → Store → Store → Prop} (moment : Moment)
    (holds : wpTurn spec handler past before now post) :
    match (handler.advance moment now).2 with
    | .finished outcome => post outcome past before (handler.advance moment now).1
    | .waiting request resume => ∀ reply later,
        wpTurn spec (resume reply) (past ++ [(request, reply)]) later later post := by
  induction handler generalizing now with
  | done outcome => exact holds
  | call request resume _ => exact holds.2
  | access update next ih => exact ih moment now (holds moment)

theorem Concludes.mono (concludes : Concludes post handler past)
    (weaken : ∀ outcome past, post outcome past → weaker outcome past) :
    Concludes weaker handler past :=
  fun before now => wpTurn_mono (fun _ _ _ _ _ => trivial)
    (fun outcome past _ _ => weaken outcome past) (concludes before now)

theorem Concludes.bind {next : Value → Handler Store Call Reply Moment Error Result}
    {later : Except Error Result → List (Call × Reply) → Prop}
    (concludes : Concludes (fun outcome past =>
      match outcome with
      | .ok value => Concludes later (next value) past
      | .error error => later (.error error) past) handler past) :
    Concludes later (handler >>= next) past := by
  intro before now
  rw [wpTurn_bind]
  apply wpTurn_mono (fun _ _ _ _ _ => trivial) _ (concludes before now)
  intro outcome past before now holds
  cases outcome with
  | ok value => exact holds before now
  | error error => exact holds

theorem Concludes.atomically {action : Moment → Store → Result × Store}
    {next : Result → Handler Store Call Reply Moment Error Value}
    (concludes : ∀ moment store, Concludes post (next (action moment store).1) past) :
    Concludes post (Handler.atomically action >>= next) past :=
  fun before now moment => concludes moment now before _

theorem Concludes.recover {respond : Error → Value}
    (concludes : Concludes (fun outcome past =>
      match outcome with
      | .ok value => post (.ok value) past
      | .error error => post (.ok (respond error)) past) handler past) :
    Concludes post (tryCatch handler fun error => pure (respond error)) past := by
  intro before now
  rw [wpTurn_handle]
  apply wpTurn_mono (fun _ _ _ _ _ => trivial) _ (concludes before now)
  intro outcome past before now holds
  cases outcome <;> exact holds

end Rules

end Handler

namespace Loop

section Runs

variable (serve : Request → Handler Store Call Reply Moment Error Value) (start : Store)

/-- What a handler has received, with the calls it answers. -/
def received (events : List (Event Request Reply Moment)) (handler : ℕ) : List (Call × Reply) :=
  ((exchanges serve start events).filter fun exchange => exchange.handler = handler).map
    fun exchange => (exchange.call, exchange.reply)

/-- The calls that a handler has sent. -/
def callsOf (sent : List (Sending Call Reply)) (handler : ℕ) : List Call :=
  (sent.filter fun sending => sending.handler = handler).map Sending.call

theorem received_concat (events : List (Event Request Reply Moment))
    (event : Event Request Reply Moment) (handler : ℕ) :
    received serve start (events ++ [event]) handler = received serve start events handler ++
      (((run serve start events).exchange? event).toList.filter fun exchange =>
        exchange.handler = handler).map fun exchange => (exchange.call, exchange.reply) := by
  rw [received, exchanges_concat, List.filter_append, List.map_append]
  rfl

/-- What is known of the handlers of a run: those that wait will end as they should, and those that
were answered have ended so. -/
structure Journeys (post : Request → Except Error Value → List (Call × Reply) → Prop)
    (events : List (Event Request Reply Moment))
    (loop : Loop Store Call Reply Moment Error Value) : Prop where
  turns : loop.turns = events.length
  begun : ∀ handler, received serve start events handler ≠ [] ∨ callsOf loop.sent handler ≠ [] →
    handler < events.length
  waits : ∀ handler waiting, loop.waiting handler = some waiting →
    waiting.past = received serve start events handler ∧
    callsOf loop.sent handler = waiting.past.map Prod.fst ++ [waiting.request] ∧
    ∃ request, ServesRequest events handler request ∧ ∀ reply store,
      Handler.wpTurn (fun _ _ _ _ => True) (waiting.resume reply)
        (waiting.past ++ [(waiting.request, reply)]) store store
        fun outcome past _ _ => post request outcome past
  answered : ∀ answer ∈ loop.answers, loop.waiting answer.handler = none ∧
    callsOf loop.sent answer.handler =
      (received serve start events answer.handler).map Prod.fst ∧
    ∃ request, ServesRequest events answer.handler request ∧
      post request answer.outcome (received serve start events answer.handler)
  once : (loop.answers.map Answer.handler).Nodup

variable {serve start} {post : Request → Except Error Value → List (Call × Reply) → Prop}
  {events : List (Event Request Reply Moment)} {event : Event Request Reply Moment}

namespace Journeys

theorem initial : Journeys serve start post [] (Loop.initial start) where
  turns := rfl
  begun := by simp [received, callsOf, exchanges, Loop.initial]
  waits := by simp [Loop.initial]
  answered := by simp [Loop.initial]
  once := List.nodup_nil

section Turn

variable (journeys : Journeys serve start post events (run serve start events))

include journeys

/-- A reply that nobody waits for. -/
theorem dropped (isDropped : (run serve start events).exchange? event = none)
    (isTurn : run serve start (events ++ [event]) =
      { run serve start events with turns := (run serve start events).turns + 1 }) :
    Journeys serve start post (events ++ [event]) (run serve start (events ++ [event])) := by
  have same : ∀ handler, received serve start (events ++ [event]) handler =
      received serve start events handler := by
    intro handler
    simp [received_concat, isDropped]
  rw [isTurn]
  refine ⟨by simp [journeys.turns], ?_, ?_, ?_, journeys.once⟩
  · intro handler exchanged
    rw [same] at exchanged
    have bounded := journeys.begun handler exchanged
    simp only [List.length_append]
    omega
  · intro handler waiting isWaiting
    rcases journeys.waits handler waiting isWaiting with ⟨past, calls, request, serves, will⟩
    exact ⟨past.trans (same handler).symm, calls, request, serves.append _, will⟩
  · intro answer mem
    rcases journeys.answered answer mem with ⟨idle, calls, request, serves, holds⟩
    rw [same]
    exact ⟨idle, calls, request, serves.append _, holds⟩

/-- A turn of one handler. -/
theorem settled {handler : ℕ} {past : List (Call × Reply)} {request : Request}
    {code : Handler Store Call Reply Moment Error Value} (moment : Moment)
    (isTurn : run serve start (events ++ [event]) = (run serve start events).settle handler past
      (code.advance moment (run serve start events).store))
    (concludes : Handler.wpTurn (fun _ _ _ _ => True) code past (run serve start events).store
      (run serve start events).store fun outcome past _ _ => post request outcome past)
    (serves : ServesRequest (events ++ [event]) handler request)
    (isPast : received serve start (events ++ [event]) handler = past)
    (others : ∀ other ≠ handler, received serve start (events ++ [event]) other =
      received serve start events other)
    (calls : callsOf (run serve start events).sent handler = past.map Prod.fst)
    (unanswered : ∀ answer ∈ (run serve start events).answers, answer.handler ≠ handler) :
    Journeys serve start post (events ++ [event]) (run serve start (events ++ [event])) := by
  have advanced := Handler.wpTurn_advance moment concludes
  have inside := serves.lt_length
  have length : (events ++ [event]).length = events.length + 1 := by simp
  rw [isTurn]
  generalize code.advance moment (run serve start events).store = turn at advanced
  rcases turn with ⟨store, pause⟩
  cases pause with
  | finished outcome =>
      refine ⟨by simp [settle, journeys.turns], ?_, ?_, ?_, ?_⟩
      · intro other exchanged
        by_cases isHandler : other = handler
        · exact isHandler ▸ inside
        · rw [others other isHandler] at exchanged
          have bounded := journeys.begun other exchanged
          omega
      · intro other waiting isWaiting
        by_cases isHandler : other = handler
        · subst other
          simp [settle] at isWaiting
        · simp only [settle, Function.update_of_ne isHandler] at isWaiting
          rcases journeys.waits other waiting isWaiting with
            ⟨past, calls, request, serves, will⟩
          exact ⟨past.trans (others other isHandler).symm, calls, request, serves.append _, will⟩
      · intro answer mem
        simp only [settle, List.mem_append, List.mem_singleton] at mem
        rcases mem with earlier | rfl
        · have isOther := unanswered answer earlier
          rcases journeys.answered answer earlier with ⟨idle, calls, request, serves, holds⟩
          rw [others _ isOther]
          refine ⟨?_, calls, request, serves.append _, holds⟩
          simpa only [settle, Function.update_of_ne isOther] using idle
        · simp only [isPast]
          exact ⟨by simp [settle], calls, request, serves, advanced⟩
      · simp only [settle, List.map_append, List.map_cons, List.map_nil]
        refine List.nodup_append.mpr ⟨journeys.once, by simp, ?_⟩
        intro first firstMem second isHandler
        rcases List.mem_map.mp firstMem with ⟨answer, earlier, rfl⟩
        rw [List.mem_singleton.mp isHandler]
        exact unanswered answer earlier
  | waiting call resume =>
      have callsOf_settle : ∀ other, callsOf ((run serve start events).settle handler past
          (store, .waiting call resume)).sent other = callsOf (run serve start events).sent other ++
            if other = handler then [call] else [] := by
        intro other
        by_cases isHandler : other = handler
        · simp [settle, callsOf, isHandler]
        · simp [settle, callsOf, isHandler, Ne.symm isHandler]
      refine ⟨by simp [settle, journeys.turns], ?_, ?_, ?_, journeys.once⟩
      · intro other exchanged
        by_cases isHandler : other = handler
        · exact isHandler ▸ inside
        · rw [others other isHandler, callsOf_settle, if_neg isHandler, List.append_nil]
            at exchanged
          have bounded := journeys.begun other exchanged
          omega
      · intro other waiting isWaiting
        rw [callsOf_settle]
        by_cases isHandler : other = handler
        · subst other
          simp only [settle, Function.update_self, Option.some.injEq] at isWaiting
          subst waiting
          refine ⟨isPast.symm, ?_, request, serves, advanced⟩
          rw [if_pos rfl, calls]
        · simp only [settle, Function.update_of_ne isHandler] at isWaiting
          rcases journeys.waits other waiting isWaiting with
            ⟨past, calls, request, serves, will⟩
          rw [if_neg isHandler, List.append_nil]
          exact ⟨past.trans (others other isHandler).symm, calls, request, serves.append _, will⟩
      · intro answer mem
        have earlier : answer ∈ (run serve start events).answers := mem
        have isOther := unanswered answer earlier
        rcases journeys.answered answer earlier with ⟨idle, calls, request, serves, holds⟩
        rw [others _ isOther, callsOf_settle, if_neg isOther, List.append_nil]
        refine ⟨?_, calls, request, serves.append _, holds⟩
        simpa only [settle, Function.update_of_ne isOther] using idle

end Turn

end Journeys

/-- In every run, each answer concludes the exchanges of its request. -/
theorem journeys (concludes : ∀ request, Handler.Concludes (post request) (serve request) [])
    (events : List (Event Request Reply Moment)) :
    Journeys serve start post events (run serve start events) := by
  induction events using List.reverseRecOn with
  | nil => exact .initial
  | append_singleton before event ih =>
      cases event with
      | request moment request =>
          have same : ∀ handler,
              received serve start (before ++ [.request moment request]) handler =
                received serve start before handler := by
            intro handler
            simp [received_concat, exchange?]
          have unbegun : ∀ {calls : List Call} {replies : List (Call × Reply)},
              (replies ≠ [] ∨ calls ≠ [] → before.length < before.length) →
                replies = [] ∧ calls = [] := by
            intro calls replies bounded
            by_contra some
            have := bounded (by tauto)
            omega
          rcases unbegun (ih.begun before.length) with ⟨noReply, noCall⟩
          have serves : ServesRequest (before ++ [.request moment request]) before.length
              request := ⟨moment, by simp⟩
          apply ih.settled moment _ (concludes request _ _) serves
          · rw [same, noReply]
          · exact fun other _ => same other
          · rw [noCall]
            rfl
          · intro answer mem isHandler
            rcases (ih.answered answer mem).2.2 with ⟨_, serves, _⟩
            have := serves.lt_length
            omega
          · rw [run_concat, step, ih.turns]
      | reply moment handler reply =>
          cases isWaiting : (run serve start before).waiting handler with
          | none =>
              apply ih.dropped
              · simp [exchange?, isWaiting]
              · rw [run_concat, step, isWaiting]
          | some waiting =>
              rcases ih.waits handler waiting isWaiting with
                ⟨isPast, calls, request, serves, will⟩
              apply ih.settled moment _ (will reply _) (serves.append _)
              · simp [received_concat, exchange?, isWaiting, isPast]
              · intro other isOther
                simp [received_concat, exchange?, isWaiting, Ne.symm isOther]
              · simp [calls]
              · intro answer mem isHandler
                have idle := (ih.answered answer mem).1
                rw [isHandler, isWaiting] at idle
                cases idle
              · rw [run_concat, step, isWaiting]

end Runs

end Loop

end EventLoop
