import RateLimiter.Console.Authority
import RateLimiter.Console.Sessions

/-!
# The queue of reviews

`GET /api/reviews` lists what awaits a decision. `awaiting` says what that is
from the requests of a run alone: the reviews that were submitted, in their
order, without those that an entitled user other than the initiator has decided
since. The listing is that queue, whatever else the console is serving.
-/

namespace RateLimiter.Console

open EventLoop EventLoop.Handler JavaScript

/-- The id of a review and what the request wants it to become. -/
def Request.decision? (request : Request) : Option (String × ReviewStatus) :=
  match request.route with
  | .approve id => some (id, .approved)
  | .reject id => some (id, .rejected)
  | _ => none

namespace Desk

/-- The review that an event submits. -/
def submitted? (deps : Deps) (desk : Desk) : ConsoleEvent → Option Review
  | .request moment request =>
      match desk.errand deps request with
      | .submit op reason initiator =>
          some ⟨moment.random 0, op, reason, initiator, .pending, moment.isoNow, none, none⟩
      | _ => none
  | .reply _ _ _ => none

/-- The event names the review in a decision of an entitled user other than its initiator. -/
def decides (deps : Deps) (desk : Desk) (event : ConsoleEvent) (review : Review) : Bool :=
  match event with
  | .request _ request =>
      request.body.isOk && request.decision?.map Prod.fst = some review.id &&
        (desk.session? request).any fun session =>
          authorize session.user .reviewApprove none deps.policy = .ok () &&
            session.user.email ≠ review.initiator
  | .reply _ _ _ => false

/-- The map refers to the reviews by their ids, all of which differ. -/
structure Indexed (reviews : ReviewStore) : Prop where
  byId : reviews.byId = (reviews.objects.map Review.id).zipIdx
  distinct : (reviews.objects.map Review.id).Nodup

end Desk

section Index

variable {reviews : ReviewStore}

theorem byId_ids (indexed : Desk.Indexed reviews) :
    reviews.byId.map Prod.fst = reviews.objects.map Review.id := by
  rw [indexed.byId]
  exact List.zipIdx_map_fst 0 _

theorem get_iff (indexed : Desk.Indexed reviews) {id : String} {place : ℕ} {review : Review} :
    reviews.get id = some (place, review) ↔
      reviews.objects[place]? = some review ∧ review.id = id := by
  have named : ∀ place, reviews.byId.get id = some place ↔
      ∃ other, reviews.objects[place]? = some other ∧ other.id = id := by
    intro place
    have distinct := byId_ids indexed ▸ indexed.distinct
    rw [Map.get_eq_some_iff distinct, indexed.byId, List.mem_zipIdx_iff_getElem?,
      List.getElem?_map, Option.map_eq_some_iff]
  simp only [ReviewStore.get, Option.bind_eq_bind, Option.bind_eq_some_iff, named]
  constructor
  · rintro ⟨found, ⟨other, isOther, isId⟩, review, isReview, same⟩
    cases same
    rw [isOther, Option.some.injEq] at isReview
    subst other
    exact ⟨isOther, isId⟩
  · rintro ⟨found, isId⟩
    exact ⟨place, ⟨review, found, isId⟩, review, found, rfl⟩

theorem listPending_eq (indexed : Desk.Indexed reviews) :
    reviews.listPending = reviews.objects.filter fun review => review.status = .pending := by
  have here : ∀ entry ∈ reviews.objects.zipIdx,
      ((fun entry : String × ℕ => reviews.objects[entry.2]?) ∘ Prod.map Review.id id) entry =
        (some ∘ Prod.fst) entry :=
    fun entry mem => List.mem_zipIdx_iff_getElem?.mp mem
  rw [ReviewStore.listPending, indexed.byId, List.zipIdx_map, List.filterMap_map,
    List.filterMap_congr here, List.filterMap_eq_map, List.zipIdx_map_fst]

/-- Taking one element to the other side of a filter takes out the elements of its key. -/
theorem filter_set {α β : Type} [DecidableEq β] {key : α → β} {accepts : α → Bool} {items : List α}
    (distinct : (items.map key).Nodup) {place : ℕ} {old new : α} (isOld : items[place]? = some old)
    (rejected : accepts new = false) :
    (items.set place new).filter accepts =
      (items.filter accepts).filter fun item => key item ≠ key old := by
  induction items generalizing place with
  | nil => simp at isOld
  | cons head tail ih =>
      rcases List.nodup_cons.mp distinct with ⟨absent, tailDistinct⟩
      cases place with
      | zero =>
          simp only [List.getElem?_cons_zero, Option.some.injEq] at isOld
          subst head
          have others : ∀ item ∈ tail.filter accepts, decide (key item ≠ key old) = true := by
            intro item mem
            apply decide_eq_true
            intro same
            exact absent (same ▸ List.mem_map_of_mem (List.mem_of_mem_filter mem))
          have remains := List.filter_eq_self.mpr others
          rw [List.set_cons_zero, List.filter_cons_of_neg (by simp [rejected]), List.filter_cons]
          split
          · rw [List.filter_cons_of_neg (by simp), remains]
          · rw [remains]
      | succ place =>
          simp only [List.getElem?_cons_succ] at isOld
          have apart : key head ≠ key old :=
            fun same => absent (same ▸ List.mem_map_of_mem (List.mem_of_getElem? isOld))
          simp only [List.set_cons_succ, List.filter_cons, ih tailDistinct isOld]
          split
          · simp [apart]
          · rfl

end Index

section Steps

variable {deps : Deps} {desk : Desk}

theorem errand_of_decision {request : Request} {body : Fields} {id : String}
    {decision : ReviewStatus} (hasBody : request.body = .ok body)
    (isDecision : request.decision? = some (id, decision)) :
    desk.errand deps request = ((desk.session? request).map fun session =>
      desk.deciding deps session id decision).getD .nothing := by
  unfold Request.decision? at isDecision
  split at isDecision
  · rename_i route
    cases isDecision
    simp only [Desk.errand, hasBody, route, Desk.asked]
  · rename_i route
    cases isDecision
    simp only [Desk.errand, hasBody, route, Desk.asked]
  · cases isDecision

theorem decision?_ne_pending {request : Request} {id : String} {decision : ReviewStatus}
    (isDecision : request.decision? = some (id, decision)) : decision ≠ .pending := by
  unfold Request.decision? at isDecision
  split at isDecision <;> cases isDecision <;> simp

/-- A request that decides nothing settles nothing. -/
theorem errand_ne_settle {request : Request} (noDecision : request.decision? = none) {place : ℕ}
    {review : Review} {decision : ReviewStatus} {approver : String} :
    desk.errand deps request ≠ .settle place review decision approver := by
  have submits : ∀ session op, Desk.submitting deps session op ≠
      .settle place review decision approver := by
    intro session op
    unfold Desk.submitting
    split <;> simp
  unfold Desk.errand
  split
  · simp
  · split
    · rename_i body _ _ _
      cases deps.loginUser? body <;> simp
    · unfold Desk.closing
      split
      · split <;> simp
      · simp
    · cases desk.session? request with
      | none => simp
      | some session =>
          simp only [Option.map_some, Option.getD_some]
          unfold Desk.asked
          split
          · rename_i route
            simp [Request.decision?, route] at noDecision
          · rename_i route
            simp [Request.decision?, route] at noDecision
          · cases request.op? with
            | none => simp
            | some op => exact submits session op

variable (indexed : Desk.Indexed desk.reviews)

/-- What an event does to the reviews. -/
inductive QueueStep (deps : Deps) (desk : Desk) (event : ConsoleEvent) (after : ReviewStore) :
    Prop where
  | submits (fresh : Review) (isFresh : desk.submitted? deps event = some fresh)
      (isPending : fresh.status = .pending)
      (undecided : ∀ review, desk.decides deps event review = false)
      (isAfter : after = ⟨desk.reviews.objects ++ [fresh],
        desk.reviews.byId.set fresh.id desk.reviews.objects.length⟩)
  | settles (place : ℕ) (review decided : Review)
      (found : desk.reviews.objects[place]? = some review)
      (isDecided : decided.status ≠ .pending) (sameId : decided.id = review.id)
      (noFresh : desk.submitted? deps event = none)
      (decides : ∀ other ∈ desk.reviews.objects, desk.decides deps event other = true ↔
        other.id = review.id)
      (isAfter : after = { desk.reviews with objects := desk.reviews.objects.set place decided })
  | keeps (noFresh : desk.submitted? deps event = none)
      (undecided : ∀ review ∈ desk.reviews.objects, review.status = .pending →
        desk.decides deps event review = false)
      (isAfter : after = desk.reviews)

include indexed

omit indexed in
/-- Who decides, and what: the id names the review, and the user is entitled. -/
theorem decides_iff {moment : Moment} {request : Request} {body : Fields}
    (hasBody : request.body = .ok body) {id : String} {decision : ReviewStatus}
    (isDecision : request.decision? = some (id, decision)) {review : Review} :
    desk.decides deps (.request moment request) review = true ↔
      review.id = id ∧ ∃ session, desk.session? request = some session ∧
        Granted deps session.user .reviewApprove none ∧
        session.user.email ≠ review.initiator := by
  simp only [Desk.decides, hasBody, isDecision, Except.isOk, Except.toBool, Option.map_some,
    Option.some.injEq, Bool.true_and, Bool.and_eq_true, decide_eq_true_eq, Option.any_eq_true,
    ne_eq, decide_not, Bool.not_eq_true', decide_eq_false_iff_not, Granted]
  rw [eq_comm]

omit indexed in
theorem QueueStep.idle {moment : Moment} {request : Request}
    (isNothing : desk.errand deps request = .nothing)
    (undecided : ∀ review ∈ desk.reviews.objects, review.status = .pending →
      desk.decides deps (.request moment request) review ≠ true) :
    QueueStep deps desk (.request moment request)
      (desk.run moment (desk.errand deps request)).reviews := by
  apply QueueStep.keeps
  · simp [Desk.submitted?, isNothing]
  · exact fun review mem pending => Bool.eq_false_iff.mpr (undecided review mem pending)
  · rw [isNothing]
    rfl

theorem queue_step_of_decision {moment : Moment} {request : Request} {body : Fields}
    (hasBody : request.body = .ok body) {id : String} {decision : ReviewStatus}
    (isDecision : request.decision? = some (id, decision)) :
    QueueStep deps desk (.request moment request)
      (desk.run moment (desk.errand deps request)).reviews := by
  have isErrand : desk.errand deps request = _ := errand_of_decision hasBody isDecision
  cases isSession : desk.session? request with
  | none =>
      rw [isSession] at isErrand
      apply QueueStep.idle isErrand
      intro review _ _ decides
      rcases (decides_iff hasBody isDecision).mp decides with ⟨_, session, isLive, _⟩
      rw [isSession] at isLive
      cases isLive
  | some session =>
      simp only [isSession, Option.map_some, Option.getD_some, Desk.deciding] at isErrand
      -- a decision is the session's, about the review that the id names
      have entitled : ∀ review ∈ desk.reviews.objects,
          desk.decides deps (.request moment request) review = true →
          Granted deps session.user .reviewApprove none ∧
            session.user.email ≠ review.initiator ∧
            ∃ place, desk.reviews.get id = some (place, review) := by
        intro review mem decides
        rcases (decides_iff hasBody isDecision).mp decides with ⟨isId, other, isOther, rest⟩
        rw [isSession, Option.some.injEq] at isOther
        subst other
        rcases List.getElem?_of_mem mem with ⟨place, isReview⟩
        exact ⟨rest.1, rest.2, place, (get_iff indexed).mpr ⟨isReview, isId⟩⟩
      cases granted : authorize session.user .reviewApprove none deps.policy with
      | error reason =>
          simp only [granted] at isErrand
          apply QueueStep.idle isErrand
          intro review mem _ decides
          have isGranted := (entitled review mem decides).1
          simp [Granted, granted] at isGranted
      | ok _ =>
          cases found : desk.reviews.get id with
          | none =>
              simp only [granted, found] at isErrand
              apply QueueStep.idle isErrand
              intro review mem _ decides
              rcases (entitled review mem decides).2.2 with ⟨place, isReview⟩
              rw [found] at isReview
              cases isReview
          | some entry =>
              rcases entry with ⟨place, review⟩
              simp only [granted, found] at isErrand
              split at isErrand
              · rename_i isOpen
                rcases (get_iff indexed).mp found with ⟨isReview, rfl⟩
                have noFresh : desk.submitted? deps (.request moment request) = none := by
                  simp [Desk.submitted?, isErrand]
                rw [isErrand]
                refine .settles place review _ isReview ?_ ?_ noFresh ?_ rfl
                · exact decision?_ne_pending isDecision
                · rfl
                · intro other mem
                  constructor
                  · exact fun decides => ((decides_iff hasBody isDecision).mp decides).1
                  · intro sameId
                    rcases List.getElem?_of_mem mem with ⟨otherPlace, isOther⟩
                    have named := (get_iff indexed).mpr ⟨isOther, sameId⟩
                    rw [found] at named
                    cases named
                    exact (decides_iff hasBody isDecision).mpr
                      ⟨rfl, session, isSession, granted, Ne.symm isOpen.2⟩
              · rename_i closed
                apply QueueStep.idle isErrand
                intro other mem pending decides
                rcases entitled other mem decides with ⟨_, notOwn, place, isReview⟩
                rw [found] at isReview
                cases isReview
                exact closed ⟨pending, Ne.symm notOwn⟩

theorem queue_step (event : ConsoleEvent) :
    QueueStep deps desk event (Loop.arriving (Desk.serve deps) desk event).reviews := by
  cases event with
  | reply moment handler reply => exact .keeps rfl (fun _ _ _ => rfl) rfl
  | request moment request =>
      simp only [Loop.arriving, Desk.serve]
      cases hasBody : request.body with
      | error message =>
          have isErrand : desk.errand deps request = .nothing := by
            simp [Desk.errand, hasBody]
          rw [isErrand]
          apply QueueStep.keeps
          · simp [Desk.submitted?, isErrand]
          · intro review _ _
            simp [Desk.decides, hasBody, Except.isOk, Except.toBool]
          · rfl
      | ok body =>
          cases isDecision : request.decision? with
          | some named => exact queue_step_of_decision indexed hasBody isDecision
          | none =>
              have undecided : ∀ review,
                  desk.decides deps (.request moment request) review = false := by
                simp [Desk.decides, isDecision]
              cases isErrand : desk.errand deps request with
              | submit op reason initiator =>
                  apply QueueStep.submits _ _ _ undecided
                  · rfl
                  · simp [Desk.submitted?, isErrand]
                  · rfl
              | settle place review decision approver =>
                  exact absurd isErrand (errand_ne_settle isDecision)
              | _ =>
                  apply QueueStep.keeps
                  · simp [Desk.submitted?, isErrand]
                  · exact fun review _ _ => undecided review
                  · rfl

/-- One event on the queue: what it decides leaves, what it submits joins at the end. -/
theorem queue_after {event : ConsoleEvent}
    (fresh : ∀ review, desk.submitted? deps event = some review →
      review.id ∉ desk.reviews.objects.map Review.id) :
    Desk.Indexed (Loop.arriving (Desk.serve deps) desk event).reviews ∧
    (Loop.arriving (Desk.serve deps) desk event).reviews.objects.map Review.id =
      desk.reviews.objects.map Review.id ++
        (desk.submitted? deps event).toList.map Review.id ∧
    ((Loop.arriving (Desk.serve deps) desk event).reviews.objects.filter fun review =>
        review.status = .pending) =
      ((desk.reviews.objects.filter fun review => review.status = .pending).filter fun review =>
        !desk.decides deps event review) ++ (desk.submitted? deps event).toList := by
  have remains : ∀ accepts : Review → Bool, (∀ review ∈ desk.reviews.objects,
      review.status = .pending → accepts review = true) →
      (desk.reviews.objects.filter fun review => review.status = .pending).filter accepts =
        desk.reviews.objects.filter fun review => review.status = .pending := by
    intro accepts all
    apply List.filter_eq_self.mpr
    intro review mem
    rcases List.mem_filter.mp mem with ⟨isReview, pending⟩
    exact all review isReview (of_decide_eq_true pending)
  have steps : QueueStep deps desk event (Loop.arriving (Desk.serve deps) desk event).reviews :=
    queue_step indexed event
  cases steps with
  | submits review isFresh isPending undecided isAfter =>
      rw [isAfter, isFresh, remains _ (by simp [undecided])]
      have absent := fresh review isFresh
      refine ⟨⟨?_, ?_⟩, ?_, ?_⟩
      · rw [Map.set_eq_append (byId_ids indexed ▸ absent), indexed.byId]
        simp [List.zipIdx_append]
      · rw [List.map_append]
        exact List.nodup_append.mpr ⟨indexed.distinct, by simp, by simpa using absent⟩
      · simp
      · simp [isPending]
  | settles place review decided found isDecided sameId noFresh decides isAfter =>
      rw [isAfter, noFresh]
      have ids : (desk.reviews.objects.set place decided).map Review.id =
          desk.reviews.objects.map Review.id := by
        rcases List.getElem?_eq_some_iff.mp found with ⟨inside, isReview⟩
        have insideIds : place < (desk.reviews.objects.map Review.id).length := by
          simpa using inside
        have same : (desk.reviews.objects.map Review.id)[place] = decided.id := by
          rw [List.getElem_map, isReview, sameId]
        rw [List.map_set, ← same, List.set_getElem_self]
      refine ⟨⟨ids ▸ indexed.byId, ids ▸ indexed.distinct⟩, by simp [ids], ?_⟩
      rw [filter_set indexed.distinct found (by simpa using isDecided), Option.toList_none,
        List.append_nil]
      apply List.filter_congr
      intro other mem
      have isOther := decides other (List.mem_of_mem_filter mem)
      cases isDecides : desk.decides deps event other with
      | false => simpa [isDecides] using isOther
      | true => simpa [isDecides] using isOther
  | keeps noFresh undecided isAfter =>
      rw [isAfter, noFresh, remains _ (by simpa using undecided)]
      exact ⟨indexed, by simp, by simp⟩

end Steps

variable (deps : Deps) (sessions : Map Session) (events : List ConsoleEvent)

/-- The review that the request of a turn submits. -/
def submitted? (turn : ℕ) : Option Review :=
  events[turn]?.bind ((deskAfter deps sessions (events.take turn)).submitted? deps)

/-- The request of a turn decides the review. -/
def decides (turn : ℕ) (review : Review) : Bool :=
  events[turn]?.any fun event =>
    (deskAfter deps sessions (events.take turn)).decides deps event review

/-- What was submitted before a turn, in its order. -/
def submissions (turn : ℕ) : List Review :=
  (List.range turn).filterMap (submitted? deps sessions events)

/-- What awaits a decision at a turn, in the order of submission. -/
def awaiting (turn : ℕ) : List Review :=
  (List.range turn).filterMap fun submission =>
    (submitted? deps sessions events submission).filter fun review =>
      (List.range turn).all fun later =>
        later ≤ submission || !decides deps sessions events later review

theorem filterMap_range_succ (turn : ℕ) (pick : ℕ → Option Review) :
    (List.range (turn + 1)).filterMap pick =
      (List.range turn).filterMap pick ++ (pick turn).toList := by
  rw [List.range_succ, List.filterMap_append]
  cases isPicked : pick turn <;> simp [isPicked]

theorem awaiting_succ (turn : ℕ) : awaiting deps sessions events (turn + 1) =
    (awaiting deps sessions events turn).filter
        (fun review => !decides deps sessions events turn review) ++
      (submitted? deps sessions events turn).toList := by
  rw [awaiting, filterMap_range_succ, awaiting, List.filter_filterMap, List.range_succ]
  congr 1
  · apply List.filterMap_congr
    intro submission mem
    have earlier := List.mem_range.mp mem
    rw [Option.filter_filter]
    congr 1
    funext review
    simp [List.all_append, Nat.not_le.mpr earlier]
  · have latest : ∀ review, ((List.range turn ++ [turn]).all fun later =>
        later ≤ turn || !decides deps sessions events later review) = true := by
      intro review
      apply List.all_eq_true.mpr
      intro later mem
      simp only [List.mem_append, List.mem_range, List.mem_singleton] at mem
      simp only [Bool.or_eq_true, decide_eq_true_eq]
      omega
    cases submitted? deps sessions events turn with
    | none => rfl
    | some review => simp [Option.filter, latest]

/-- The queue of the desk, as long as no id is drawn twice. -/
theorem queue_invariant {turn : ℕ} (inside : turn ≤ events.length)
    (fresh : ((submissions deps sessions events turn).map Review.id).Nodup) :
    Desk.Indexed (deskAfter deps sessions (events.take turn)).reviews ∧
    (deskAfter deps sessions (events.take turn)).reviews.objects.map Review.id =
      (submissions deps sessions events turn).map Review.id ∧
    ((deskAfter deps sessions (events.take turn)).reviews.objects.filter fun review =>
      review.status = .pending) = awaiting deps sessions events turn := by
  induction turn with
  | zero => exact ⟨⟨rfl, List.nodup_nil⟩, rfl, rfl⟩
  | succ turn ih =>
      have isEvent : events[turn]? = some events[turn] := List.getElem?_eq_getElem inside
      have isSubmitted : submitted? deps sessions events turn =
          (deskAfter deps sessions (events.take turn)).submitted? deps events[turn] := by
        rw [submitted?, isEvent]
        rfl
      have isDecided : ∀ review, decides deps sessions events turn review =
          (deskAfter deps sessions (events.take turn)).decides deps events[turn] review := by
        intro review
        rw [decides, isEvent]
        rfl
      have isSplit : submissions deps sessions events (turn + 1) =
          submissions deps sessions events turn ++
            (submitted? deps sessions events turn).toList :=
        filterMap_range_succ turn _
      rw [isSplit, List.map_append] at fresh
      rcases List.nodup_append.mp fresh with ⟨before, _, apart⟩
      rcases ih (Nat.le_of_succ_le inside) before with ⟨indexed, ids, pending⟩
      have isNew : ∀ review, (deskAfter deps sessions (events.take turn)).submitted? deps
          events[turn] = some review →
          review.id ∉ (deskAfter deps sessions (events.take turn)).reviews.objects.map
            Review.id := by
        intro review isReview mem
        rw [ids] at mem
        exact apart _ mem review.id (by simp [isSubmitted, isReview]) rfl
      rw [List.take_succ_eq_append_getElem inside, deskAfter, Machine.after_concat, isSplit,
        awaiting_succ, ← pending, List.map_append, ← ids, isSubmitted]
      simp only [isDecided]
      exact queue_after indexed isNew

variable {deps sessions events}

/-- Whoever may decide reviews is shown the queue, whatever else is going on. -/
theorem review_queue_exact {turn : ℕ} {moment : Moment} {request : Request} {session : Session}
    {body : Fields} (isRequest : events[turn]? = some (.request moment request))
    (route : request.route = .listReviews) (hasBody : request.body = .ok body)
    (authentic : Authentic (consoleAt deps sessions events turn) request session)
    (granted : Granted deps session.user .reviewApprove none)
    (fresh : ((submissions deps sessions events turn).map Review.id).Nodup) :
    ⟨turn, turn, .ok (.json 200 (.object
        [("reviews", .array ((awaiting deps sessions events turn).map Review.json))]))⟩ ∈
      (consoleAfter deps sessions events).answers ∧
    consoleAt deps sessions events (turn + 1) = consoleAt deps sessions events turn := by
  have inside : turn ≤ events.length :=
    Nat.le_of_lt (List.getElem?_eq_some_iff.mp isRequest).1
  rcases queue_invariant deps sessions events inside fresh with ⟨indexed, _, pending⟩
  have isQueue : (consoleAt deps sessions events turn).reviews.listPending =
      awaiting deps sessions events turn := by
    have followed := console_follows_desk deps sessions events turn
    rw [← pending, ← listPending_eq indexed, ← followed]
    rfl
  apply Loop.answered_on_arrival isRequest
  change (app deps request).advance moment (consoleAt deps sessions events turn) = _
  rw [advance_checked hasBody (by rw [route]; rfl), authentic.1, ← isQueue]
  simp only [authentic.2, if_true, api, route, ReviewsRouter.list, guard]
  rw [granted]
  rfl

section Sample

/-- The editor submits two changes of defaults; the operator rejects the first and looks. -/
def sampleQueueEvents : List ConsoleEvent :=
  let edit (id rateLimitId : String) : ConsoleEvent :=
    .request (sampleMoment id "") (sampleRequest .updateLimit "bob"
      [("service_name", .string "search"), ("customer_id", .string "*"),
        ("rate_limit_id", .string rateLimitId), ("limit_value", .number (.finite 10)),
        ("time_unit", .string "MINUTE")])
  sampleEvents.take 2 ++ [edit "review-1" "query", edit "review-2" "index",
    .request (sampleMoment "" "") (sampleRequest (.reject "review-1") "alice" []),
    .request (sampleMoment "" "") (sampleRequest .listReviews "alice" [])]

theorem review_queue_exact_sample :
    (awaiting sampleDeps [] sampleQueueEvents 5).map Review.id = ["review-2"] ∧
    ⟨5, 5, .ok (.json 200 (.object [("reviews",
        .array ((awaiting sampleDeps [] sampleQueueEvents 5).map Review.json))]))⟩ ∈
      (consoleAfter sampleDeps [] sampleQueueEvents).answers := by
  have isRequest : sampleQueueEvents[5]? = some (.request (sampleMoment "" "")
      (sampleRequest .listReviews "alice" [])) := rfl
  have authentic : Authentic (consoleAt sampleDeps [] sampleQueueEvents 5)
      (sampleRequest .listReviews "alice" [])
      ⟨"sid-alice", ⟨"alice", "alice@corp", [⟨.operator, none⟩]⟩, "csrf-alice"⟩ :=
    ⟨by decide +kernel, by decide⟩
  have fresh : ((submissions sampleDeps [] sampleQueueEvents 5).map Review.id).Nodup := by
    decide +kernel
  exact ⟨by decide +kernel, (review_queue_exact isRequest rfl rfl authentic rfl fresh).1⟩

end Sample

end RateLimiter.Console
