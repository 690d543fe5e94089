import RateLimiter.Console.Rbac
import RateLimiter.Console.Rpc
import RateLimiter.Lib.EventLoop

/-!
# The state of the console

`SessionStore` of `session.ts`, `ReviewStore` of `reviews.ts` and `ActionLog`
of `actionlog.ts`. Reviews are objects that the map refers to: an id that is
drawn a second time hides the earlier review, which stays as it is.
-/

namespace RateLimiter.Console

open JavaScript

structure Session where
  id : String
  user : User
  csrfToken : String
deriving DecidableEq

inductive ReviewStatus where
  | pending
  | approved
  | rejected
deriving DecidableEq

def ReviewStatus.text : ReviewStatus → String
  | .pending => "pending"
  | .approved => "approved"
  | .rejected => "rejected"

structure Review where
  id : String
  op : PendingOp
  reason : String
  initiator : String
  status : ReviewStatus
  createdAt : String
  decidedBy : Option String
  decidedAt : Option String
deriving DecidableEq

/-- The reviews in the order of their creation, and the map from ids to them. -/
structure ReviewStore where
  objects : List Review
  byId : Map ℕ

inductive Action where
  | limitCreate
  | limitUpdate
  | limitDelete
  | opRefund
  | opReset
  | serviceCreate
  | serviceEdit
deriving DecidableEq

def Action.text : Action → String
  | .limitCreate => "limit:create"
  | .limitUpdate => "limit:update"
  | .limitDelete => "limit:delete"
  | .opRefund => "op:refund"
  | .opReset => "op:reset"
  | .serviceCreate => "service:create"
  | .serviceEdit => "service:edit"

inductive Target where
  | limit (key : LimitKey)
  | service (serviceName : String)
deriving DecidableEq

inductive Details where
  | limit (limitValue : Number) (timeUnit : TimeUnitLabel)
  | amount (amount : Number)
  | refunded (amount : Number)
  | service (displayName owner : String)
deriving DecidableEq

/-- What a caller of `append` supplies. -/
structure ActionLogRecord where
  actor : String
  action : Action
  target : Target
  details : Option Details
  requestId : Option String
  initiator : Option String
  approver : Option String
deriving DecidableEq

structure ActionLogEntry extends ActionLogRecord where
  seq : ℕ
  at_ : String
deriving DecidableEq

structure ActionLog where
  entries : List ActionLogEntry
  seq : ℕ
deriving DecidableEq

structure Store where
  sessions : Map Session
  reviews : ReviewStore
  actionLog : ActionLog

/-- The clock, in milliseconds, and the random texts of one turn. -/
structure Moment where
  now : ℤ
  random : ℕ → String

/-- `new Date().toISOString()` -/
def Moment.isoNow (moment : Moment) : String :=
  (toIsoString moment.now).getD ""

def Store.fresh (sessions : Map Session) : Store :=
  ⟨sessions, ⟨[], []⟩, ⟨[], 0⟩⟩

namespace SessionStore

def create (moment : Moment) (user : User) (store : Store) : Session × Store :=
  let session : Session := ⟨moment.random 0, user, moment.random 1⟩
  (session, { store with sessions := store.sessions.set session.id session })

/-- Only texts are keys; the empty one is no id. -/
def get (store : Store) (id : Value) : Option Session :=
  match id with
  | .string id => if id = "" then none else store.sessions.get id
  | _ => none

def destroy (id : Value) (store : Store) : Store :=
  match id with
  | .string id =>
      if id = "" then store else { store with sessions := store.sessions.delete id }
  | _ => store

end SessionStore

namespace ReviewStore

def create (moment : Moment) (op : PendingOp) (initiator reason : String) (store : Store) :
    Review × Store :=
  let review : Review :=
    ⟨moment.random 0, op, reason, initiator, .pending, moment.isoNow, none, none⟩
  (review, { store with
    reviews := ⟨store.reviews.objects ++ [review],
      store.reviews.byId.set review.id store.reviews.objects.length⟩ })

def get (reviews : ReviewStore) (id : String) : Option (ℕ × Review) := do
  let place ← reviews.byId.get id
  let review ← reviews.objects[place]?
  return (place, review)

/-- `[...this.reviews.values()].filter((r) => r.status === "pending")` -/
def listPending (reviews : ReviewStore) : List Review :=
  (reviews.byId.filterMap fun entry => reviews.objects[entry.2]?).filter
    fun review => review.status = .pending

structure Refusal where
  status : ℕ
  error : String
deriving DecidableEq

/-- A decision is final, and not the initiator's. -/
def decide (moment : Moment) (id approver : String) (decision : ReviewStatus) (store : Store) :
    Except Refusal Review × Store :=
  match store.reviews.get id with
  | none => (.error ⟨404, "review not found"⟩, store)
  | some (place, review) =>
      if review.status ≠ .pending then
        (.error ⟨409, "review already " ++ review.status.text⟩, store)
      else if review.initiator = approver then
        (.error ⟨403, "the initiator may not approve their own change"⟩, store)
      else
        let decided := { review with
          status := decision
          decidedBy := some approver
          decidedAt := some moment.isoNow }
        (.ok decided, { store with
          reviews := { store.reviews with
            objects := store.reviews.objects.set place decided } })

end ReviewStore

namespace ActionLog

def append (moment : Moment) (record : ActionLogRecord) (store : Store) : Store :=
  let seq := store.actionLog.seq + 1
  { store with
    actionLog := ⟨store.actionLog.entries ++ [⟨record, seq, moment.isoNow⟩], seq⟩ }

/-- Newest first. -/
def list (log : ActionLog) (limit : ℕ) : List ActionLogEntry :=
  log.entries.reverse.take limit

end ActionLog

/-- The code of the routes and of what they call. -/
abbrev Async := EventLoop.Handler Store Call Reply Moment Thrown

/-- An unary call, whose error is thrown. -/
def call (rpc : Rpc) (actor : Option String) : Async Message := do
  match ← EventLoop.Handler.await ⟨rpc, actor⟩ with
  | .ok message => pure message
  | .error failure => throw (rpcError failure)

def orThrow {α : Type} (result : Except Thrown α) : Async α :=
  match result with
  | .ok value => pure value
  | .error error => throw error

end RateLimiter.Console
