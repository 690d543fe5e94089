import RateLimiter.Console.ActionLog
import RateLimiter.Console.Authority

/-!
# Approved and applied

The decision on a review is recorded before the backend is called. As long as
no call that an approval depends on fails, every review that is recorded as
approved has been applied once its approval is through. A failure in between
leaves a review that is approved, was never applied and cannot be decided again.
-/

namespace RateLimiter.Console

open EventLoop JavaScript

variable (deps : Deps) (sessions : Map Session) (events : List ConsoleEvent)

/-- The handler of that number serves a request to approve a review. -/
def Approving (handler : ℕ) : Prop :=
  ∃ request id, Serving events handler request ∧ request.route = .approve id

/-- The handler has approved the review at a place. -/
def ApprovedBy (handler place : ℕ) : Prop :=
  ∃ request session review, Serving events handler request ∧
    Authentic (consoleAt deps sessions events handler) request session ∧
    Approval deps (consoleAt deps sessions events handler) request session place review ∧
    ApprovedAt (consoleAt deps sessions events (handler + 1)) place

/-- The calls on which an approval depends are its first one and its mutation. The last read of a
reset comes after the fact. -/
def decisive (past : List (Call × Reply)) (call : Call) : Bool :=
  past.isEmpty || call.rpc.isMutation

/-- A call fails on which an approval depends. -/
def FailsApproval (exchange : Exchange Call Reply) : Prop :=
  Approving events exchange.handler ∧ decisive exchange.past exchange.call = true ∧
    exchange.reply.isOk = false

/-- No request to approve a review is in progress. -/
def NoneApproving : Prop :=
  ∀ handler waiting, (consoleAfter deps sessions events).waiting handler = some waiting →
    ¬Approving events handler

/-- The mutation of the review at a place succeeded exactly once, or its reset is completed since
there was nothing to refund. -/
def AppliedOnce (place : ℕ) (op : PendingOp) : Prop :=
  (∃! exchange, exchange ∈ exchanges deps sessions events ∧
      ApprovedBy deps sessions events exchange.handler place ∧ confirms exchange = true ∧
      op.Carries exchange.call.rpc) ∨
    (∃ key, op = .opReset key) ∧ ∃ exchange ∈ exchanges deps sessions events,
      ApprovedBy deps sessions events exchange.handler place ∧
      nothingToReset deps sessions events exchange = true

variable {deps sessions events}

section Handlers

variable (deps sessions events)

/-- How far the handler of an approval has come. -/
inductive Stage (handler : ℕ) : Prop where
  | refused (same : (consoleAt deps sessions events (handler + 1)).reviews =
      (consoleAt deps sessions events handler).reviews)
  | waiting (waiting : Waiting Store Call Reply Moment Thrown Response)
      (isWaiting : (consoleAfter deps sessions events).waiting handler = some waiting)
      (isDecisive : decisive waiting.past waiting.request = true)
  | applied (exchange : Exchange Call Reply) (mem : exchange ∈ exchanges deps sessions events)
      (isHandler : exchange.handler = handler)
      (isExecution : (confirms exchange ||
        nothingToReset deps sessions events exchange) = true)
  | failed (exchange : Exchange Call Reply) (mem : exchange ∈ exchanges deps sessions events)
      (isHandler : exchange.handler = handler)
      (isDecisive : decisive exchange.past exchange.call = true)
      (isError : exchange.reply.isOk = false)

variable {deps sessions events}

theorem exchanges_concat (event : ConsoleEvent) :
    exchanges deps sessions (events ++ [event]) = exchanges deps sessions events ++
      ((consoleAfter deps sessions events).exchange? event).toList :=
  Loop.exchanges_concat _ _ _ _

theorem mem_exchanges_append {exchange : Exchange Call Reply} {event : ConsoleEvent}
    (mem : exchange ∈ exchanges deps sessions events) :
    exchange ∈ exchanges deps sessions (events ++ [event]) := by
  rw [exchanges_concat]
  exact List.mem_append_left _ mem

theorem mem_exchanges_last {exchange : Exchange Call Reply} {event : ConsoleEvent}
    (isExchange : (consoleAfter deps sessions events).exchange? event = some exchange) :
    exchange ∈ exchanges deps sessions (events ++ [event]) := by
  rw [exchanges_concat, isExchange]
  simp

theorem nothingToReset_append {exchange : Exchange Call Reply}
    (inside : exchange.handler < events.length) (event : ConsoleEvent) :
    nothingToReset deps sessions (events ++ [event]) exchange =
      nothingToReset deps sessions events exchange := by
  rw [nothingToReset, resetting_append inside, nothingToReset]

/-- Only a handler that waits can come to another stage. -/
theorem Stage.append {handler : ℕ} (stage : Stage deps sessions events handler)
    (inside : handler < events.length) {event : ConsoleEvent}
    (goesOn : ∀ waiting, (consoleAfter deps sessions events).waiting handler = some waiting →
      decisive waiting.past waiting.request = true →
      Stage deps sessions (events ++ [event]) handler) :
    Stage deps sessions (events ++ [event]) handler := by
  cases stage with
  | refused same =>
      apply Stage.refused
      rw [consoleAt_append inside, consoleAt_append (Nat.le_of_lt inside)]
      exact same
  | waiting waiting isWaiting isDecisive =>
      exact goesOn waiting isWaiting isDecisive
  | applied exchange mem isHandler isExecution =>
      apply Stage.applied exchange (mem_exchanges_append mem) isHandler
      rw [nothingToReset_append (isHandler ▸ inside)]
      exact isExecution
  | failed exchange mem isHandler isDecisive isError =>
      exact .failed exchange (mem_exchanges_append mem) isHandler isDecisive isError

/-- The turn in which an approval receives a reply that it depends on. -/
theorem stage_of_resumed {event : ConsoleEvent} {exchange : Exchange Call Reply}
    {request : Request} {id : String}
    (isExchange : (consoleAfter deps sessions events).exchange? event = some exchange)
    (serving : Serving events exchange.handler request) (route : request.route = .approve id)
    (turn : Loop.TakesTurn (app deps) (.fresh sessions) (AppTurn deps) events event
      exchange.handler request (exchange.past ++ [(exchange.call, exchange.reply)]))
    (isDecisive : decisive exchange.past exchange.call = true) :
    Stage deps sessions (events ++ [event]) exchange.handler := by
  have inside := serving_lt serving
  have mem := mem_exchanges_last isExchange
  cases isReply : exchange.reply with
  | error failure => exact .failed exchange mem rfl isDecisive (by rw [isReply]; rfl)
  | ok message =>
      cases isMutation : exchange.call.rpc.isMutation with
      | true =>
          apply Stage.applied exchange mem rfl
          simp [confirms, isMutation, isReply, Except.isOk, Except.toBool]
      | false =>
          -- a read that an approval depends on is the first read of a reset
          have isFirst : exchange.past = [] := by
            simpa [decisive, isMutation] using isDecisive
          have isPast : exchange.past ++ [(exchange.call, exchange.reply)] =
              [(exchange.call, .ok message)] := by
            rw [isFirst, isReply]
            rfl
          rcases turn.kept.continues ⟨id, route⟩ exchange.call message isPast isMutation with
            ⟨isReset, continues⟩
          have isResetting : resetting deps sessions events exchange.handler = true :=
            (resetting_of_serving serving).trans isReset
          cases consumed : (Number.finite 0).lt (consumedOf message) with
          | false =>
              apply Stage.applied exchange mem rfl
              rw [nothingToReset_append inside]
              simp [nothingToReset, isResetting, isFirst, isReply, consumed]
          | true =>
              rcases continues consumed with ⟨next, isNext, nextMutates⟩
              rcases Option.map_eq_some_iff.mp isNext with ⟨waiting, isWaiting, rfl⟩
              exact .waiting waiting isWaiting (by simp [decisive, nextMutates])

theorem consoleAt_succ_length (event : ConsoleEvent) :
    consoleAt deps sessions (events ++ [event]) (events.length + 1) =
      (consoleAfter deps sessions (events ++ [event])).store := by
  rw [consoleAt, Loop.storeAt_succ_length, consoleAfter, Loop.run_concat]

/-- The first turn of an approval. -/
theorem stage_of_started {event : ConsoleEvent} {request : Request} {id : String}
    (route : request.route = .approve id)
    (turn : Loop.TakesTurn (app deps) (.fresh sessions) (AppTurn deps) events event events.length
      request []) : Stage deps sessions (events ++ [event]) events.length := by
  cases isWaiting : (consoleAfter deps sessions (events ++ [event])).waiting events.length with
  | none =>
      have stops : (consoleAfter deps sessions (events ++ [event])).stop events.length = none := by
        rw [Loop.stop, isWaiting]
        rfl
      apply Stage.refused
      rw [consoleAt_succ_length, consoleAt_append (Nat.le_refl _)]
      exact turn.kept.refused rfl stops ⟨id, route⟩
  | some waiting =>
      have isFirst := turn.recalls waiting isWaiting
      exact .waiting waiting isWaiting (by simp [decisive, isFirst])

theorem stage_of_earlier {event : ConsoleEvent} {handler : ℕ} {request : Request} {id : String}
    (serving : Serving events handler request) (route : request.route = .approve id)
    (stage : Stage deps sessions events handler) :
    Stage deps sessions (events ++ [event]) handler := by
  apply stage.append (serving_lt serving)
  intro waiting isWaiting isDecisive
  cases Loop.step_turn (console_turning deps sessions events) (app_turns deps) event with
  | starts _ _ _ _ turn =>
      have waits := turn.others handler (Nat.ne_of_lt (serving_lt serving))
      exact .waiting waiting (waits.trans isWaiting) isDecisive
  | dropped _ _ _ same =>
      exact .waiting waiting ((congrFun same handler).trans isWaiting) isDecisive
  | resumes exchange resumed isExchange serves turn =>
      by_cases isHandler : handler = exchange.handler
      · subst isHandler
        have same := eq_of_serving serves serving
        subst same
        rcases Loop.exchange?_eq_some isExchange with ⟨other, _, _, isOther, isPast, isCall, _⟩
        have sameWaiting := Option.some.inj (isOther.symm.trans isWaiting)
        subst sameWaiting
        rw [isPast, isCall] at isDecisive
        exact stage_of_resumed isExchange serving route turn isDecisive
      · exact .waiting waiting ((turn.others handler isHandler).trans isWaiting) isDecisive

/-- Every approval is at one of the stages. -/
theorem stage_of_approving (events : List ConsoleEvent) :
    ∀ handler, Approving events handler → Stage deps sessions events handler := by
  induction events using List.reverseRecOn with
  | nil =>
      rintro handler ⟨_, _, ⟨_, isRequest⟩, _⟩
      simp at isRequest
  | append_singleton before event ih =>
      rintro handler ⟨request, id, ⟨moment, isRequest⟩, route⟩
      by_cases isNew : handler = before.length
      · subst isNew
        simp only [List.getElem?_concat_length, Option.some.injEq] at isRequest
        subst isRequest
        cases Loop.step_turn (console_turning deps sessions before) (app_turns deps)
          (.request moment request) with
        | starts _ started isStarted _ turn =>
            cases isStarted
            exact stage_of_started route turn
        | dropped _ notRequest _ _ => exact absurd rfl (notRequest moment request)
        | resumes exchange _ isExchange _ _ => simp [Loop.exchange?] at isExchange
      · have inside := (List.getElem?_eq_some_iff.mp isRequest).1
        rw [List.length_append, List.length_singleton] at inside
        rw [List.getElem?_append_left (by omega)] at isRequest
        have serving : Serving before handler request := ⟨moment, isRequest⟩
        exact stage_of_earlier serving route (ih handler ⟨request, id, serving, route⟩)

end Handlers

section Places

/-- Every review that is approved was approved by a handler. -/
theorem exists_approvedBy (events : List ConsoleEvent) :
    ∀ place, ApprovedAt (consoleAfter deps sessions events).store place →
      ∃ handler, ApprovedBy deps sessions events handler place := by
  induction events using List.reverseRecOn with
  | nil =>
      rintro place ⟨review, found, _⟩
      simp [consoleAfter, Loop.run, Loop.initial, Store.fresh] at found
  | append_singleton before event ih =>
      intro place approved
      have earlier : ApprovedAt (consoleAfter deps sessions before).store place →
          ∃ handler, ApprovedBy deps sessions (before ++ [event]) handler place := by
        intro before_approved
        rcases ih place before_approved with
          ⟨handler, request, session, review, serving, rest⟩
        have inside := serving_lt serving
        refine ⟨handler, request, session, review, serving_append serving _, ?_⟩
        rw [consoleAt_append (Nat.le_of_lt inside), consoleAt_append inside]
        exact rest
      cases Loop.step_turn (console_turning deps sessions before) (app_turns deps) event with
      | starts moment request isRequest _ turn =>
          rcases turn.kept.approves rfl place approved with
            already | ⟨_, session, review, authentic, approval⟩
          · rw [Loop.storeAt_length] at already
            exact earlier already
          · refine ⟨before.length, request, session, review, ⟨moment, ?_⟩, ?_⟩
            · rw [List.getElem?_concat_length, isRequest]
            · rw [consoleAt_append (Nat.le_refl _), consoleAt_succ_length]
              exact ⟨authentic, approval, approved⟩
      | dropped _ _ same _ =>
          have same : (consoleAfter deps sessions (before ++ [event])).store =
              (consoleAfter deps sessions before).store := same
          rw [same] at approved
          exact earlier approved
      | resumes exchange request isExchange serves turn =>
          have same : (consoleAfter deps sessions (before ++ [event])).store.reviews =
              (consoleAfter deps sessions before).store.reviews := turn.kept.later (by simp)
          rw [ApprovedAt, same] at approved
          exact earlier approved

/-- A review is approved by one handler only: another would find it decided. -/
theorem approvedBy_unique {first second place : ℕ}
    (isFirst : ApprovedBy deps sessions events first place)
    (isSecond : ApprovedBy deps sessions events second place) : first = second := by
  have ordered : ∀ {earlier later : ℕ}, ApprovedBy deps sessions events earlier place →
      ApprovedBy deps sessions events later place → ¬earlier < later := by
    rintro earlier later ⟨_, _, _, _, _, _, approved⟩
      ⟨_, _, review, serving, _, ⟨⟨_, _, found⟩, pending, _, _⟩, _⟩ less
    rcases approvedAt_stable approved
      (evolves_consoleAt deps sessions events less (Nat.le_of_lt (serving_lt serving))) with
      ⟨decided, isDecided, isApproved⟩
    have same := (getElem?_of_get found).symm.trans isDecided
    rw [Option.some.injEq] at same
    rw [same, isApproved] at pending
    simp at pending
  rcases Nat.lt_trichotomy first second with less | same | greater
  · exact absurd less (ordered isFirst isSecond)
  · exact same
  · exact absurd greater (ordered isSecond isFirst)

/-- A handler has at most one mutation confirmed. -/
theorem confirms_unique {first second : Exchange Call Reply}
    (firstMem : first ∈ exchanges deps sessions events)
    (secondMem : second ∈ exchanges deps sessions events)
    (sameHandler : first.handler = second.handler) (firstConfirms : confirms first = true)
    (secondConfirms : confirms second = true) : first = second := by
  have turning := console_turning deps sessions events
  have isMutation : ∀ {exchange : Exchange Call Reply}, confirms exchange = true →
      exchange.call.rpc.isMutation = true := by
    intro exchange isConfirmed
    simp only [confirms, Bool.and_eq_true] at isConfirmed
    exact isConfirmed.1
  -- a mutation is sent only by a handler that has sent none
  have excluded : ∀ {earlier later : Exchange Call Reply},
      later ∈ exchanges deps sessions events → confirms earlier = true →
      confirms later = true → (earlier.call, earlier.reply) ∉ later.past := by
    intro earlier later mem earlierConfirms laterConfirms recalled
    rcases (turning.exchanged later mem).2.1 with ⟨turn, isSent⟩
    rcases origin_of_sent isSent with ⟨_, _, _, _, _, _, _, rest⟩
    have isRead := (rest (isMutation laterConfirms)).2 _ recalled
    rw [isMutation earlierConfirms] at isRead
    simp at isRead
  rcases List.mem_iff_getElem.mp firstMem with ⟨i, iBound, rfl⟩
  rcases List.mem_iff_getElem.mp secondMem with ⟨j, jBound, rfl⟩
  have ordered := List.pairwise_iff_getElem.mp turning.ordered
  rcases Nat.lt_trichotomy i j with less | rfl | greater
  · exact absurd ((ordered i j iBound jBound less).2 sameHandler)
      (excluded secondMem firstConfirms secondConfirms)
  · rfl
  · exact absurd ((ordered j i jBound iBound greater).2 sameHandler.symm)
      (excluded firstMem secondConfirms firstConfirms)

/-- What the handler of an approval executes is the mutation of the review. -/
theorem carries_of_approvedBy {exchange : Exchange Call Reply}
    (mem : exchange ∈ exchanges deps sessions events) {place : ℕ}
    (approvedBy : ApprovedBy deps sessions events exchange.handler place) {review : Review}
    (found : (consoleAfter deps sessions events).store.reviews.objects[place]? = some review) :
    (confirms exchange = true → review.op.Carries exchange.call.rpc) ∧
      (nothingToReset deps sessions events exchange = true →
        ∃ key, review.op = .opReset key) := by
  rcases approvedBy with ⟨request, session, pending, serving, authentic, approval, _⟩
  rcases approval.route with ⟨id, route, isPending⟩
  -- the review has kept its mutation since
  have sameOp : review.op = pending.op := by
    have evolved := evolves_consoleAt deps sessions events (Nat.le_of_lt (serving_lt serving))
      (Nat.le_refl _)
    rcases evolved place pending (getElem?_of_get isPending) with ⟨later, isLater, moved⟩
    rw [consoleAt, Loop.storeAt_length] at isLater
    rw [Option.some.inj (found.symm.trans isLater), moved.op]
  constructor
  · intro isConfirmed
    simp only [confirms, Bool.and_eq_true] at isConfirmed
    rcases ((console_turning deps sessions events).exchanged exchange mem).2.1 with ⟨turn, isSent⟩
    rcases approval_of_sent isSent serving route authentic with
      ⟨otherPlace, other, ⟨⟨otherId, otherRoute, isOther⟩, _⟩, _, carries⟩
    rw [route] at otherRoute
    cases otherRoute
    have same := Option.some.inj (isOther.symm.trans isPending)
    simp only [Prod.mk.injEq] at same
    rw [sameOp, ← same.2]
    exact carries isConfirmed.1
  · intro isIdle
    simp only [nothingToReset, Bool.and_eq_true] at isIdle
    have isReset := isIdle.1.1
    rw [resetting_of_serving serving, resetsIn] at isReset
    split at isReset
    · rename_i key isOp
      simp only [opOf, route, reviewOf, isPending, Option.map_some, Option.some.injEq] at isOp
      exact ⟨key, sameOp.trans isOp⟩
    · simp at isReset

end Places

/-- As long as no call fails on which an approval depends, every review that is recorded as
approved has been applied once, when no approval is in progress; and an attempt to approve that
has applied nothing has left the reviews as they were. -/
theorem approved_applied (deps : Deps) (sessions : Map Session) (events : List ConsoleEvent)
    (untroubled : ∀ exchange ∈ exchanges deps sessions events, ¬FailsApproval events exchange)
    (settled : NoneApproving deps sessions events) :
    (∀ (place : ℕ) review,
      (consoleAfter deps sessions events).store.reviews.objects[place]? = some review →
      review.status = .approved → AppliedOnce deps sessions events place review.op) ∧
    ∀ handler, Approving events handler →
      (∀ exchange ∈ exchanges deps sessions events, exchange.handler = handler →
        (confirms exchange || nothingToReset deps sessions events exchange) = false) →
      (consoleAt deps sessions events (handler + 1)).reviews =
        (consoleAt deps sessions events handler).reviews := by
  have stages : ∀ handler, Approving events handler →
      (consoleAt deps sessions events (handler + 1)).reviews =
          (consoleAt deps sessions events handler).reviews ∨
        ∃ exchange ∈ exchanges deps sessions events, exchange.handler = handler ∧
          (confirms exchange || nothingToReset deps sessions events exchange) = true := by
    intro handler approving
    cases @stage_of_approving deps sessions events handler approving with
    | refused same => exact Or.inl same
    | waiting waiting isWaiting _ => exact absurd approving (settled handler waiting isWaiting)
    | applied exchange mem isHandler isExecution =>
        exact Or.inr ⟨exchange, mem, isHandler, isExecution⟩
    | failed exchange mem isHandler isDecisive isError =>
        exact absurd ⟨isHandler ▸ approving, isDecisive, isError⟩ (untroubled exchange mem)
  constructor
  · intro place review found approved
    rcases exists_approvedBy events place ⟨review, found, approved⟩ with ⟨handler, approvedBy⟩
    have isApproved := approvedBy
    rcases isApproved with ⟨request, _, pending, serving, _, approval, decided⟩
    rcases approval.route with ⟨id, route, isPending⟩
    rcases stages handler ⟨request, id, serving, route⟩ with
      same | ⟨exchange, mem, rfl, isExecution⟩
    · -- a handler that was refused has approved nothing
      rcases decided with ⟨other, isOther, isApproved⟩
      rw [same, getElem?_of_get isPending, Option.some.injEq] at isOther
      have isPending := approval.pending
      rw [isOther, isApproved] at isPending
      simp at isPending
    · rcases carries_of_approvedBy mem approvedBy found with ⟨carries, isReset⟩
      rcases Bool.or_eq_true_iff.mp isExecution with isConfirmed | isIdle
      · refine Or.inl ⟨exchange, ⟨mem, approvedBy, isConfirmed, carries isConfirmed⟩, ?_⟩
        rintro other ⟨otherMem, otherApproves, otherConfirmed, _⟩
        exact confirms_unique otherMem mem (approvedBy_unique otherApproves approvedBy)
          otherConfirmed isConfirmed
      · exact Or.inr ⟨isReset isIdle, exchange, mem, approvedBy, isIdle⟩
  · intro handler approving nothing
    rcases stages handler approving with same | ⟨exchange, mem, isHandler, isExecution⟩
    · exact same
    · simp [nothing exchange mem isHandler] at isExecution

section Sample

/-- The change of a default is approved, and the backend answers. -/
def sampleAnswered (reply : Reply) : List ConsoleEvent :=
  sampleEvents ++ [.reply (sampleMoment "" "") 3 reply]

def sampleSuccess : Reply := .ok (.limit ⟨⟨"search", "*", "query"⟩, 10, "MINUTE", 1⟩)

def sampleFailure : Reply :=
  .error ⟨.unavailable, "connection refused", "14 UNAVAILABLE: connection refused"⟩

theorem sampleAnswered_settled {reply : Reply}
    (isDone : ((consoleAfter sampleDeps [] (sampleAnswered reply)).waiting 3).isNone = true) :
    NoneApproving sampleDeps [] (sampleAnswered reply) := by
  rintro handler waiting isWaiting ⟨request, id, ⟨moment, isRequest⟩, route⟩
  -- the fourth event is the only approval
  match handler with
  | 0 | 1 | 2 =>
      cases isRequest
      simp [sampleRequest] at route
  | 3 => simp [isWaiting] at isDone
  | 4 => simp [sampleAnswered, sampleEvents] at isRequest
  | later + 5 => simp [sampleAnswered, sampleEvents] at isRequest

theorem approved_applied_sample :
    ∃ review,
      (consoleAfter sampleDeps [] (sampleAnswered sampleSuccess)).store.reviews.objects[0]? =
        some review ∧ review.status = .approved ∧
      AppliedOnce sampleDeps [] (sampleAnswered sampleSuccess) 0 review.op := by
  have succeeded : ((exchanges sampleDeps [] (sampleAnswered sampleSuccess)).all
      fun exchange => exchange.reply.isOk) = true := by decide +kernel
  have approved : ((consoleAfter sampleDeps []
      (sampleAnswered sampleSuccess)).store.reviews.objects[0]?.any
        fun review => review.status = .approved) = true := by decide +kernel
  rcases (Option.any_eq_true _ _).mp approved with ⟨review, found, isApproved⟩
  have isApproved := of_decide_eq_true isApproved
  refine ⟨review, found, isApproved, ?_⟩
  apply (approved_applied sampleDeps [] (sampleAnswered sampleSuccess) _ _).1 0 review found
    isApproved
  · rintro exchange mem ⟨_, _, isError⟩
    rw [List.all_eq_true.mp succeeded exchange mem] at isError
    simp at isError
  · exact sampleAnswered_settled (by decide +kernel)

/-- The backend is away when the approval reaches it: the review stays approved. -/
theorem approved_unapplied :
    NoneApproving sampleDeps [] (sampleAnswered sampleFailure) ∧
      ∃ review, (consoleAfter sampleDeps []
          (sampleAnswered sampleFailure)).store.reviews.objects[0]? = some review ∧
        review.status = .approved ∧
        ¬AppliedOnce sampleDeps [] (sampleAnswered sampleFailure) 0 review.op := by
  have failed : ((exchanges sampleDeps [] (sampleAnswered sampleFailure)).all fun exchange =>
      !(confirms exchange || nothingToReset sampleDeps [] (sampleAnswered sampleFailure)
        exchange)) = true := by decide +kernel
  have approved : ((consoleAfter sampleDeps []
      (sampleAnswered sampleFailure)).store.reviews.objects[0]?.any
        fun review => review.status = .approved) = true := by decide +kernel
  rcases (Option.any_eq_true _ _).mp approved with ⟨review, found, isApproved⟩
  have nothing : ∀ exchange ∈ exchanges sampleDeps [] (sampleAnswered sampleFailure),
      confirms exchange = false ∧
        nothingToReset sampleDeps [] (sampleAnswered sampleFailure) exchange = false := by
    intro exchange mem
    have isNothing := List.all_eq_true.mp failed exchange mem
    simpa [Bool.or_eq_false_iff] using isNothing
  refine ⟨sampleAnswered_settled (by decide +kernel), review, found,
    of_decide_eq_true isApproved, ?_⟩
  rintro (⟨exchange, ⟨mem, _, isConfirmed, _⟩, _⟩ | ⟨_, exchange, mem, _, isIdle⟩)
  · simp [(nothing exchange mem).1] at isConfirmed
  · simp [(nothing exchange mem).2] at isIdle

end Sample

end RateLimiter.Console
