import RateLimiter.Console.Desk
import RateLimiter.Console.ReviewedPath
import RateLimiter.Console.TwoPersonReview

/-!
# The life of a session

A session lives from the request that signs its user in to the first one that
signs out with its cookie. Nothing else opens, ends or changes a session, and a
request that arrives without a live session, or without its token where one is
needed, is refused in its first turn: it sends nothing and changes nothing.
-/

namespace RateLimiter.Console

open EventLoop EventLoop.Handler JavaScript

variable {deps : Deps} {sessions : Map Session} {events : List ConsoleEvent}

/-- The event signs a user in, who is given the session. -/
def SignsIn (deps : Deps) (event : ConsoleEvent) (session : Session) : Prop :=
  ∃ moment request body user, event = .request moment request ∧ request.body = .ok body ∧
    request.route = .login ∧ deps.loginUser? body = some user ∧
    session = ⟨moment.random 0, user, moment.random 1⟩

/-- The event signs out the session that its cookie names. -/
def SignsOut (event : ConsoleEvent) (id : String) : Prop :=
  ∃ moment request body, event = .request moment request ∧ request.body = .ok body ∧
    request.route = .logout ∧ request.cookie = .string id ∧ id ≠ ""

/-- After the event, the id does not name the session that it named before. -/
def Retires (deps : Deps) (event : ConsoleEvent) (id : String) : Prop :=
  SignsOut event id ∨ ∃ session, SignsIn deps event session ∧ session.id = id

/-- The session was opened under the id, by a login or before the run, and has not ended since. -/
def Live (deps : Deps) (sessions : Map Session) (events : List ConsoleEvent) (id : String)
    (session : Session) : Prop :=
  (∃ (turn : ℕ) (event : ConsoleEvent), events[turn]? = some event ∧
    SignsIn deps event session ∧ session.id = id ∧
    ∀ (later : ℕ) other, turn < later → events[later]? = some other → ¬Retires deps other id) ∨
  (sessions.get id = some session ∧ ∀ event ∈ events, ¬Retires deps event id)

section Errands

variable {desk : Desk} {request : Request}

theorem deciding_keeps_sessions (moment : Moment) (session : Session) (id : String)
    (decision : ReviewStatus) :
    (desk.run moment (desk.deciding deps session id decision)).sessions = desk.sessions := by
  unfold Desk.deciding
  split
  · split <;> rfl
  · rfl

theorem submitting_keeps_sessions (moment : Moment) (session : Session) (op : PendingOp) :
    (desk.run moment (Desk.submitting deps session op)).sessions = desk.sessions := by
  unfold Desk.submitting
  split <;> rfl

theorem asked_keeps_sessions (moment : Moment) (session : Session) :
    (desk.run moment (desk.asked deps session request)).sessions = desk.sessions := by
  unfold Desk.asked
  split
  · exact deciding_keeps_sessions _ _ _ _
  · exact deciding_keeps_sessions _ _ _ _
  · cases request.op? with
    | none => rfl
    | some op => exact submitting_keeps_sessions _ _ _

theorem get_of_signsIn {event : ConsoleEvent} {session : Session}
    (signs : SignsIn deps event session) :
    (Loop.arriving (Desk.serve deps) desk event).sessions.get session.id = some session := by
  rcases signs with ⟨moment, request, body, user, rfl, hasBody, route, isUser, rfl⟩
  simp only [Loop.arriving, Desk.serve, Desk.errand, hasBody, route, isUser, Option.map_some,
    Option.getD_some, Desk.run]
  exact Map.get_set _ _ _

theorem get_of_signsOut {event : ConsoleEvent} {id : String} (signs : SignsOut event id) :
    (Loop.arriving (Desk.serve deps) desk event).sessions.get id = none := by
  rcases signs with ⟨moment, request, body, rfl, hasBody, route, isCookie, notEmpty⟩
  simp only [Loop.arriving, Desk.serve, Desk.errand, hasBody, route, isCookie, Desk.closing,
    notEmpty, if_false, Desk.run]
  exact Map.get_delete _ _

theorem get_of_stays {event : ConsoleEvent} {id : String} (stays : ¬Retires deps event id) :
    (Loop.arriving (Desk.serve deps) desk event).sessions.get id = desk.sessions.get id := by
  cases event with
  | reply moment handler reply => rfl
  | request moment request =>
      simp only [Loop.arriving, Desk.serve, Desk.errand]
      cases hasBody : request.body with
      | error message => rfl
      | ok body =>
          dsimp only
          split
          · rename_i route
            cases isUser : deps.loginUser? body with
            | none => rfl
            | some user =>
                apply Map.get_set_of_ne
                rintro rfl
                exact stays (Or.inr ⟨_, ⟨moment, request, body, user, rfl, hasBody, route, isUser,
                  rfl⟩, rfl⟩)
          · rename_i route
            unfold Desk.closing
            split
            · rename_i other isCookie
              split
              · rfl
              · rename_i notEmpty
                apply Map.get_delete_of_ne
                rintro rfl
                exact stays (Or.inl ⟨moment, request, body, rfl, hasBody, route, isCookie,
                  notEmpty⟩)
            · rfl
          · cases desk.session? request with
            | none => rfl
            | some session =>
                exact congrArg (fun map => Map.get map id) (asked_keeps_sessions moment session)

end Errands

theorem signsIn_unique {event : ConsoleEvent} {first second : Session}
    (isFirst : SignsIn deps event first) (isSecond : SignsIn deps event second) :
    first = second := by
  rcases isFirst with ⟨moment, request, body, user, rfl, hasBody, _, isUser, rfl⟩
  rcases isSecond with ⟨_, _, other, otherUser, same, otherBody, _, isOther, rfl⟩
  cases same
  rw [hasBody] at otherBody
  cases otherBody
  rw [isUser] at isOther
  cases isOther
  rfl

theorem not_signsIn_of_signsOut {event : ConsoleEvent} {id : String} (signs : SignsOut event id)
    (session : Session) : ¬SignsIn deps event session := by
  rintro ⟨_, _, _, _, isRequest, _, isLogin, _⟩
  rcases signs with ⟨_, _, _, rfl, _, isLogout, _⟩
  cases isRequest
  rw [isLogout] at isLogin
  cases isLogin

/-- One more event retires the id, opens a session under it, or leaves it alone. -/
theorem live_concat {event : ConsoleEvent} {id : String} {session : Session} :
    Live deps sessions (events ++ [event]) id session ↔
      SignsIn deps event session ∧ session.id = id ∨
        Live deps sessions events id session ∧ ¬Retires deps event id := by
  have last : (events ++ [event])[events.length]? = some event := by simp
  constructor
  · rintro (⟨turn, opening, isOpening, signs, isId, lasts⟩ | ⟨initially, lasts⟩)
    · rcases Nat.lt_trichotomy turn events.length with inside | rfl | beyond
      · rw [List.getElem?_append_left inside] at isOpening
        refine Or.inr ⟨Or.inl ⟨turn, opening, isOpening, signs, isId, ?_⟩, ?_⟩
        · intro later other less isOther
          apply lasts later other less
          rw [List.getElem?_append_left (List.getElem?_eq_some_iff.mp isOther).1]
          exact isOther
        · exact lasts events.length event inside last
      · rw [last, Option.some.injEq] at isOpening
        subst opening
        exact Or.inl ⟨signs, isId⟩
      · rw [List.getElem?_eq_none (by simp; omega)] at isOpening
        simp at isOpening
    · refine Or.inr ⟨Or.inr ⟨initially, ?_⟩, ?_⟩
      · exact fun other mem => lasts other (List.mem_append_left _ mem)
      · exact lasts event (by simp)
  · rintro (⟨signs, isId⟩ | ⟨⟨turn, opening, isOpening, signs, isId, lasts⟩ | ⟨initially, lasts⟩,
      stays⟩)
    · refine Or.inl ⟨events.length, event, last, signs, isId, ?_⟩
      intro later other beyond isOther
      rw [List.getElem?_eq_none (by simp; omega)] at isOther
      simp at isOther
    · have inside := (List.getElem?_eq_some_iff.mp isOpening).1
      refine Or.inl ⟨turn, opening, ?_, signs, isId, ?_⟩
      · rw [List.getElem?_append_left inside]
        exact isOpening
      · intro later other less isOther
        rcases Nat.lt_trichotomy later events.length with within | rfl | beyond
        · rw [List.getElem?_append_left within] at isOther
          exact lasts later other less isOther
        · rw [last, Option.some.injEq] at isOther
          subst other
          exact stays
        · rw [List.getElem?_eq_none (by simp; omega)] at isOther
          simp at isOther
    · refine Or.inr ⟨initially, ?_⟩
      intro other mem
      rcases List.mem_append.mp mem with earlier | here
      · exact lasts other earlier
      · rw [List.mem_singleton.mp here]
        exact stays

variable (deps sessions events)

/-- The console knows the sessions that are live, and no others. -/
theorem get_desk_iff (id : String) (session : Session) :
    (deskAfter deps sessions events).sessions.get id = some session ↔
      Live deps sessions events id session := by
  induction events using List.reverseRecOn with
  | nil => simp [deskAfter, Live]
  | append_singleton before event ih =>
      rw [deskAfter, Machine.after_concat, live_concat, ← ih]
      by_cases retires : Retires deps event id
      · rcases retires with signsOut | ⟨opened, signsIn, rfl⟩
        · rw [get_of_signsOut signsOut]
          simp [not_signsIn_of_signsOut signsOut, Retires, signsOut]
        · have isRetired : Retires deps event opened.id := Or.inr ⟨opened, signsIn, rfl⟩
          rw [get_of_signsIn signsIn, Option.some.injEq]
          constructor
          · rintro rfl
            exact Or.inl ⟨signsIn, rfl⟩
          · rintro (⟨same, _⟩ | ⟨_, stays⟩)
            · exact signsIn_unique signsIn same
            · exact absurd isRetired stays
      · rw [get_of_stays retires]
        constructor
        · intro found
          exact Or.inr ⟨found, retires⟩
        · rintro (⟨signs, isId⟩ | ⟨found, _⟩)
          · exact absurd (Or.inr ⟨session, signs, isId⟩) retires
          · exact found

/-- The request was answered in its first turn; it sent nothing and changed nothing. -/
structure Refused (turn : ℕ) (response : Response) : Prop where
  answered : ⟨turn, turn, .ok response⟩ ∈ (consoleAfter deps sessions events).answers
  unchanged : consoleAt deps sessions events (turn + 1) = consoleAt deps sessions events turn
  silent : ∀ sending ∈ (consoleAfter deps sessions events).sent, sending.handler ≠ turn

/-- What becomes of a session in a run, and what it is needed for. -/
structure SessionLifecycle : Prop where
  /-- The console knows the live sessions, and no others. -/
  live : ∀ turn id session, (consoleAt deps sessions events turn).sessions.get id = some session ↔
    Live deps sessions (events.take turn) id session
  /-- A call is sent only for a request that came with a live session and, if needed, its token. -/
  sends : ∀ sending ∈ (consoleAfter deps sessions events).sent, ∃ request id session,
    Serving events sending.handler request ∧ request.cookie = .string id ∧
    Live deps sessions (events.take sending.handler) id session ∧ csrfOk session request = true
  /-- A request without a live session is refused. -/
  unauthenticated : ∀ (turn : ℕ) moment request body,
    events[turn]? = some (.request moment request) → request.body = .ok body →
    request.route.behindAuth = true →
    (∀ id session, request.cookie = .string id →
      ¬Live deps sessions (events.take turn) id session) →
    Refused deps sessions events turn (.error 401 "not authenticated")
  /-- A request without the token of its session is refused. -/
  forged : ∀ (turn : ℕ) moment request body id session,
    events[turn]? = some (.request moment request) → request.body = .ok body →
    request.route.behindAuth = true → request.cookie = .string id → id ≠ "" →
    Live deps sessions (events.take turn) id session → csrfOk session request = false →
    Refused deps sessions events turn (.error 403 "bad or missing CSRF token")

variable {deps sessions events}

theorem live_iff (turn : ℕ) (id : String) (session : Session) :
    (consoleAt deps sessions events turn).sessions.get id = some session ↔
      Live deps sessions (events.take turn) id session := by
  rw [← get_desk_iff, ← console_follows_desk]
  rfl

/-- The first turn of a route behind the checks starts with them. -/
theorem advance_checked {moment : Moment} {store : Store} {request : Request} {body : Fields}
    (hasBody : request.body = .ok body) (behindAuth : request.route.behindAuth = true) :
    (app deps request).advance moment store =
      Handler.advance moment (tryCatch
        (match SessionStore.get store request.cookie with
          | none => pure (.error 401 "not authenticated")
          | some session =>
              if csrfOk session request then api deps session request body
              else pure (.error 403 "bad or missing CSRF token"))
        fun error => pure (errorMiddleware error)) store := by
  rw [app, routes_eq hasBody behindAuth]
  rfl

theorem refused_of_advance {turn : ℕ} {moment : Moment} {request : Request} {response : Response}
    (isRequest : events[turn]? = some (.request moment request))
    (unauthentic : ∀ session,
      ¬Authentic (consoleAt deps sessions events turn) request session)
    (ends : (app deps request).advance moment (consoleAt deps sessions events turn) =
      (consoleAt deps sessions events turn, .finished (.ok response))) :
    Refused deps sessions events turn response := by
  rcases Loop.answered_on_arrival isRequest ends with ⟨answered, unchanged⟩
  refine ⟨answered, unchanged, ?_⟩
  rintro sending mem rfl
  rcases (console_sound deps sessions events).sends sending mem with
    ⟨_, _, _, ⟨_, other, isOther, rfl⟩, session, authentic, _⟩
  rw [isRequest] at isOther
  cases isOther
  exact unauthentic session authentic

variable (deps sessions events)

theorem session_lifecycle : SessionLifecycle deps sessions events where
  live := live_iff
  sends sending mem := by
    rcases (console_sound deps sessions events).sends sending mem with
      ⟨_, _, _, ⟨moment, request, isRequest, rfl⟩, session, ⟨isLive, checked⟩, _⟩
    cases isCookie : request.cookie with
    | string id =>
        refine ⟨request, id, session, ⟨moment, isRequest⟩, isCookie, (live_iff _ _ _).mp ?_,
          checked⟩
        simp only [SessionStore.get, isCookie] at isLive
        split at isLive
        · cases isLive
        · exact isLive
    | _ => simp [SessionStore.get, isCookie] at isLive
  unauthenticated turn moment request body isRequest hasBody behindAuth dead := by
    have noSession : SessionStore.get (consoleAt deps sessions events turn) request.cookie =
        none := by
      cases isCookie : request.cookie with
      | string id =>
          simp only [SessionStore.get]
          split
          · rfl
          · apply Option.eq_none_iff_forall_ne_some.mpr
            intro session found
            exact dead id session isCookie ((live_iff _ _ _).mp found)
      | _ => rfl
    apply refused_of_advance isRequest (by simp [Authentic, noSession])
    rw [advance_checked hasBody behindAuth, noSession]
    rfl
  forged turn moment request body id session isRequest hasBody behindAuth isCookie notEmpty isLive
      unchecked := by
    have isSession : SessionStore.get (consoleAt deps sessions events turn) request.cookie =
        some session := by
      simp only [SessionStore.get, isCookie, notEmpty, if_false]
      exact (live_iff _ _ _).mpr isLive
    apply refused_of_advance isRequest (by simp [Authentic, isSession, unchecked])
    rw [advance_checked hasBody behindAuth, isSession]
    simp only [unchecked]
    rfl

end RateLimiter.Console
