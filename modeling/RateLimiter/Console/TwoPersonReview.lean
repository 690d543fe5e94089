import RateLimiter.Console.AppContract

/-!
# Two-person review

A mutation that needs a review is sent only by the handler that approves it,
for a user other than its initiator, and only once, however the handlers of the
requests interleave. Reviews are told apart by their places, not by their ids.
-/

namespace RateLimiter.Console

open EventLoop JavaScript

variable (deps : Deps) (sessions : Map Session) (events : List ConsoleEvent)

def Serving (handler : ℕ) (request : Request) : Prop :=
  ∃ moment, events[handler]? = some (.request moment request)

/-- A call that the handler of an approval sends for the review at a place. -/
structure Applies (sending : Sending Call Reply) (place : ℕ) : Prop where
  approval : ∃ request session review, Serving events sending.handler request ∧
    Authentic (consoleAt deps sessions events sending.handler) request session ∧
    Approval deps (consoleAt deps sessions events sending.handler) request session place review ∧
    (sending.call.rpc.isMutation = true → review.op.Carries sending.call.rpc) ∧
    ∃ submission < sending.handler, ∃ submitting, Serving events submission submitting ∧
      Submitted deps (consoleAt deps sessions events submission) submitting review
  decided : ApprovedAt (consoleAt deps sessions events (sending.turn + 1)) place
  opened : ApprovedAt (consoleAt deps sessions events (sending.handler + 1)) place

/-- The mutations of the routes that never hold anything for a review. -/
def Ungated (request : Request) (rpc : Rpc) : Prop :=
  request.route = .createLimit ∧
      (∃ key limitValue timeUnit, rpc = .createLimit key limitValue timeUnit) ∨
    (request.route = .createService ∨ ∃ name, request.route = .editService name) ∧
      ∃ service, rpc = .registerService service

/-- A mutation that its own request sends, since it needs no review. -/
def SentDirectly (request : Request) (rpc : Rpc) : Prop :=
  ∃ op, request.op? = some op ∧ reviewReason op deps.reviewPolicy = none ∧ op.Carries rpc

variable {deps sessions events}

theorem eq_of_serving {handler : ℕ} {first second : Request}
    (isFirst : Serving events handler first) (isSecond : Serving events handler second) :
    first = second := by
  rcases isFirst with ⟨_, isFirst⟩
  rcases isSecond with ⟨_, isSecond⟩
  rw [isFirst] at isSecond
  cases isSecond
  rfl

theorem origin_of_sent {sending : Sending Call Reply}
    (mem : sending ∈ (consoleAfter deps sessions events).sent) :
    sending.handler ≤ sending.turn ∧ sending.turn < events.length ∧
      ∃ request session, Serving events sending.handler request ∧
        Authentic (consoleAt deps sessions events sending.handler) request session ∧
        Origin deps (consoleAt deps sessions events sending.handler) request session
          (consoleAt deps sessions events (sending.turn + 1)) sending.call.rpc ∧
        (sending.call.rpc.isMutation = true →
          sending.call.actor = some session.user.email ∧ Unmutated sending.past) := by
  rcases (console_sound deps sessions events).sends sending mem with
    ⟨started, bounded, _, ⟨moment, request, isRequest, rfl⟩, session, authentic, origin, rest⟩
  exact ⟨started, bounded, request, session, ⟨moment, isRequest⟩, authentic, origin, rest⟩

theorem op?_of_approve {request : Request} {id : String} (route : request.route = .approve id) :
    request.op? = none := by
  cases hasBody : request.body <;> simp [Request.op?, hasBody, route, Except.toOption]

/-- What an approval sends comes from the review that it approves. -/
theorem Origin.approval_of_route {store now : Store} {request : Request} {session : Session}
    {rpc : Rpc} (origin : Origin deps store request session now rpc) {id : String}
    (route : request.route = .approve id) :
    ∃ place review, Approval deps store request session place review ∧ ApprovedAt now place ∧
      (rpc.isMutation = true → review.op.Carries rpc) := by
  cases origin with
  | reading _ notApproval => exact absurd route (notApproval id)
  | creation isRoute _ _ => simp [isRoute] at route
  | registration _ isRoute _ _ =>
      rcases isRoute with ⟨isRoute, _⟩ | ⟨⟨_, isRoute⟩, _⟩ <;> simp [isRoute] at route
  | direct _ isOp _ _ _ => simp [op?_of_approve route] at isOp
  | approval place review approval decided carries =>
      exact ⟨place, review, approval, decided, carries⟩

/-- A handler that approves a review has it approved from its first turn on. -/
theorem approvedAt_first {sending : Sending Call Reply}
    (mem : sending ∈ (consoleAfter deps sessions events).sent) {request : Request} {id : String}
    (serving : Serving events sending.handler request) (route : request.route = .approve id)
    {place : ℕ} {review : Review}
    (found : (consoleAt deps sessions events sending.handler).reviews.get id =
      some (place, review)) :
    ApprovedAt (consoleAt deps sessions events (sending.handler + 1)) place := by
  rcases (console_sound deps sessions events).opens sending mem with
    ⟨opening, openingMem, sameHandler, sameTurn⟩
  rcases origin_of_sent openingMem with
    ⟨_, _, other, session, otherServing, authentic, origin, _⟩
  rw [sameHandler] at otherServing origin
  rw [sameTurn] at origin
  have same := eq_of_serving otherServing serving
  subst same
  rcases origin.approval_of_route route with ⟨thePlace, theReview, approval, decided, _⟩
  rcases approval.route with ⟨theId, isRoute, isFound⟩
  rw [route] at isRoute
  cases isRoute
  rw [found] at isFound
  cases isFound
  exact decided

/-- Every mutation is ungated, sent directly without need of a review, or applies a review. -/
theorem sent_cases {sending : Sending Call Reply}
    (mem : sending ∈ (consoleAfter deps sessions events).sent)
    (isMutation : sending.call.rpc.isMutation = true) {request : Request}
    (serving : Serving events sending.handler request) :
    Ungated request sending.call.rpc ∨ SentDirectly deps request sending.call.rpc ∨
      ∃ place, Applies deps sessions events sending place := by
  rcases origin_of_sent mem with
    ⟨started, bounded, other, session, otherServing, authentic, origin, _⟩
  have same := eq_of_serving otherServing serving
  subst same
  cases origin with
  | reading isRead _ => simp [isRead] at isMutation
  | creation route isCreation _ => exact Or.inl (Or.inl ⟨route, isCreation⟩)
  | registration _ route isRegistration _ =>
      rcases route with ⟨route, _⟩ | ⟨route, _⟩
      · exact Or.inl (Or.inr ⟨Or.inl route, isRegistration⟩)
      · exact Or.inl (Or.inr ⟨Or.inr route, isRegistration⟩)
  | direct op isOp unreviewed carries _ =>
      exact Or.inr (Or.inl ⟨op, isOp, unreviewed, carries isMutation⟩)
  | approval place review approval decided carries =>
      rcases approval.route with ⟨id, route, found⟩
      have handlerBounded : sending.handler ≤ events.length := by omega
      rcases exists_submission deps sessions events handlerBounded place review
        (getElem?_of_get found) with ⟨submission, before, moment, submitting, isRequest, submitted⟩
      refine Or.inr (Or.inr ⟨place, ⟨other, session, review, serving, authentic, approval,
        carries, submission, before, submitting, ⟨moment, isRequest⟩, submitted⟩, decided, ?_⟩)
      exact approvedAt_first mem serving route found

theorem place_unique {sending : Sending Call Reply} {first second : ℕ}
    (appliesFirst : Applies deps sessions events sending first)
    (appliesSecond : Applies deps sessions events sending second) : first = second := by
  rcases appliesFirst.approval with ⟨request, _, _, serving, _, ⟨⟨id, route, found⟩, _, _, _⟩, _⟩
  rcases appliesSecond.approval with
    ⟨other, _, _, otherServing, _, ⟨⟨otherId, otherRoute, otherFound⟩, _, _, _⟩, _⟩
  have same := eq_of_serving otherServing serving
  subst same
  rw [route] at otherRoute
  cases otherRoute
  rw [found] at otherFound
  cases otherFound
  rfl

/-- One review is applied by one handler: the second would find it decided. -/
theorem handler_unique {first second : Sending Call Reply} {place : ℕ}
    (firstBounded : first.handler < events.length) (secondBounded : second.handler < events.length)
    (appliesFirst : Applies deps sessions events first place)
    (appliesSecond : Applies deps sessions events second place) :
    first.handler = second.handler := by
  have ordered : ∀ {earlier later : Sending Call Reply}, later.handler < events.length →
      Applies deps sessions events earlier place → Applies deps sessions events later place →
      ¬earlier.handler < later.handler := by
    intro earlier later bounded appliesEarlier appliesLater less
    rcases appliesLater.approval with
      ⟨_, _, review, _, _, ⟨⟨_, _, found⟩, pending, _, _⟩, _⟩
    rcases approvedAt_stable appliesEarlier.opened
      (evolves_consoleAt deps sessions events less (Nat.le_of_lt bounded)) with
      ⟨decided, isDecided, isApproved⟩
    have same := (getElem?_of_get found).symm.trans isDecided
    rw [Option.some.injEq] at same
    rw [same, isApproved] at pending
    simp at pending
  rcases Nat.lt_trichotomy first.handler second.handler with less | same | greater
  · exact absurd less (ordered secondBounded appliesFirst appliesSecond)
  · exact same
  · exact absurd greater (ordered firstBounded appliesSecond appliesFirst)

theorem mutation_unique {first second : Sending Call Reply}
    (firstMem : first ∈ (consoleAfter deps sessions events).sent)
    (secondMem : second ∈ (consoleAfter deps sessions events).sent)
    (sameHandler : first.handler = second.handler)
    (firstMutates : first.call.rpc.isMutation = true)
    (secondMutates : second.call.rpc.isMutation = true) : first = second := by
  have excluded : ∀ {earlier later : Sending Call Reply},
      later ∈ (consoleAfter deps sessions events).sent →
      earlier.call.rpc.isMutation = true → later.call.rpc.isMutation = true →
      earlier.call ∉ later.past.map Prod.fst := by
    intro earlier later mem earlierMutates laterMutates recalled
    rcases origin_of_sent mem with ⟨_, _, _, _, _, _, _, rest⟩
    rcases List.mem_map.mp recalled with ⟨exchange, exchangeMem, isCall⟩
    have isRead := (rest laterMutates).2 exchange exchangeMem
    rw [isCall, earlierMutates] at isRead
    simp at isRead
  have ordered := (console_sound deps sessions events).ordered
  rcases List.mem_iff_getElem.mp firstMem with ⟨i, iBound, rfl⟩
  rcases List.mem_iff_getElem.mp secondMem with ⟨j, jBound, rfl⟩
  rcases Nat.lt_trichotomy i j with less | rfl | greater
  · exact absurd ((List.pairwise_iff_getElem.mp ordered i j iBound jBound less).2 sameHandler)
      (excluded secondMem firstMutates secondMutates)
  · rfl
  · exact absurd ((List.pairwise_iff_getElem.mp ordered j i jBound iBound greater).2
      sameHandler.symm) (excluded firstMem secondMutates firstMutates)

/-- The request of a mutation that needs a review does not send it. -/
theorem held_mutates_nothing {sending : Sending Call Reply}
    (mem : sending ∈ (consoleAfter deps sessions events).sent) {request : Request}
    {op : PendingOp} (serving : Serving events sending.handler request)
    (isOp : request.op? = some op) (needsReview : reviewReason op deps.reviewPolicy ≠ none) :
    sending.call.rpc.isMutation = false := by
  rcases origin_of_sent mem with ⟨_, _, other, session, otherServing, _, origin, _⟩
  have same := eq_of_serving otherServing serving
  subst same
  cases origin with
  | reading isRead _ => exact isRead
  | creation route _ _ =>
      cases hasBody : other.body <;> simp [Request.op?, hasBody, route, Except.toOption] at isOp
  | registration _ route _ _ =>
      rcases route with ⟨route, _⟩ | ⟨⟨_, route⟩, _⟩ <;> cases hasBody : other.body <;>
        simp [Request.op?, hasBody, route, Except.toOption] at isOp
  | direct op' isOp' unreviewed _ _ =>
      rw [isOp, Option.some.injEq] at isOp'
      subst isOp'
      exact absurd unreviewed needsReview
  | approval _ _ approval _ _ =>
      rcases approval.route with ⟨_, route, _⟩
      simp [op?_of_approve route] at isOp

variable (deps sessions events)

/-- What two-person review promises about a run. -/
structure ReviewSafety : Prop where
  /-- A request whose mutation needs a review does not send it. -/
  held : ∀ sending ∈ (consoleAfter deps sessions events).sent, ∀ request op,
    Serving events sending.handler request → request.op? = some op →
    reviewReason op deps.reviewPolicy ≠ none → sending.call.rpc.isMutation = false
  /-- Any mutation that is not sent directly applies exactly one review. -/
  sent : ∀ sending ∈ (consoleAfter deps sessions events).sent,
    sending.call.rpc.isMutation = true → ∀ request, Serving events sending.handler request →
    Ungated request sending.call.rpc ∨ SentDirectly deps request sending.call.rpc ∨
      ∃! place, Applies deps sessions events sending place
  /-- A review is applied by one handler, with one mutation. -/
  once : ∀ first ∈ (consoleAfter deps sessions events).sent,
    ∀ second ∈ (consoleAfter deps sessions events).sent, ∀ place,
    Applies deps sessions events first place → Applies deps sessions events second place →
    first.handler = second.handler ∧
      (first.call.rpc.isMutation = true → second.call.rpc.isMutation = true → first = second)
  /-- A review that is pending or rejected has not been applied. -/
  undecided : ∀ (turn : ℕ) (place : ℕ) review, turn ≤ events.length →
    (consoleAt deps sessions events turn).reviews.objects[place]? = some review →
    review.status ≠ .approved → ∀ sending ∈ (consoleAfter deps sessions events).sent,
    sending.turn < turn → ¬Applies deps sessions events sending place

theorem two_person_review : ReviewSafety deps sessions events where
  held _ mem _ _ serving isOp needsReview := held_mutates_nothing mem serving isOp needsReview
  sent sending mem isMutation request serving := by
    rcases sent_cases mem isMutation serving with ungated | directly | ⟨place, applies⟩
    · exact Or.inl ungated
    · exact Or.inr (Or.inl directly)
    · exact Or.inr (Or.inr ⟨place, applies, fun _ other => place_unique other applies⟩)
  once first firstMem second secondMem place appliesFirst appliesSecond := by
    have bounded : ∀ sending ∈ (consoleAfter deps sessions events).sent,
        sending.handler < events.length := by
      intro sending mem
      have := (origin_of_sent mem).1
      have := (origin_of_sent mem).2.1
      omega
    have sameHandler := handler_unique (bounded first firstMem) (bounded second secondMem)
      appliesFirst appliesSecond
    exact ⟨sameHandler, mutation_unique firstMem secondMem sameHandler⟩
  undecided turn place review bounded found notApproved sending mem before applies := by
    rcases approvedAt_stable applies.decided
      (evolves_consoleAt deps sessions events before bounded) with ⟨later, isLater, isApproved⟩
    rw [found, Option.some.injEq] at isLater
    exact notApproved (isLater ▸ isApproved)

end RateLimiter.Console
