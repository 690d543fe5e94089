import RateLimiter.Console.Store

/-!
# The executors of mutations

`operations.ts`: each sends its calls with the actor attached and records an
entry of the action log after the mutation has succeeded. The direct routes and
the approval of a review run the same code.
-/

namespace RateLimiter.Console

open EventLoop JavaScript

/-- On the reviewed path the initiator and the approver are set. -/
structure OpContext where
  actor : String
  initiator : Option String
  approver : Option String
deriving DecidableEq

namespace OpContext

def log (context : OpContext) (action : Action) (target : Target) (details : Option Details)
    (requestId : Option String) : Async Unit :=
  .atomically fun moment store =>
    ((), ActionLog.append moment ⟨context.actor, action, target, details, requestId,
      context.initiator, context.approver⟩ store)

end OpContext

def reqId : Async String :=
  .atomically fun moment store => ("quotaui-" ++ moment.random 0, store)

def isoNow : Async String :=
  .atomically fun moment store => (moment.isoNow, store)

def createLimit (context : OpContext) (input : ValidatedLimit) : Async Value := do
  let message ← call (.createLimit input.key input.limitValue input.timeUnit) (some context.actor)
  context.log .limitCreate (.limit input.key) (some (.limit input.limitValue input.timeUnit)) none
  match message with
  | .limit limit => pure (.object (toLimitView limit none))
  | _ => throw unexpectedReply

def updateLimit (context : OpContext) (input : ValidatedLimit) (createIfAbsent : Bool) :
    Async Value := do
  let message ← call (.updateLimit input.key input.limitValue input.timeUnit createIfAbsent)
    (some context.actor)
  context.log .limitUpdate (.limit input.key) (some (.limit input.limitValue input.timeUnit)) none
  match message with
  | .limit limit => pure (.object (toLimitView limit none))
  | _ => throw unexpectedReply

def deleteLimit (context : OpContext) (key : LimitKey) (allowMissing : Bool) : Async Unit := do
  let _ ← call (.deleteLimit key allowMissing) (some context.actor)
  context.log .limitDelete (.limit key) none none

def refund (context : OpContext) (key : LimitKey) (amount : Number) : Async Value := do
  let requestId ← reqId
  let message ← call (.refund key amount requestId) (some context.actor)
  context.log .opRefund (.limit key) (some (.amount amount)) (some requestId)
  match message with
  | .refunded remaining limit resetAt => do
      let resetAt ← orThrow (timestampToIso resetAt)
      pure (.object [("remaining", num remaining), ("limit", num limit), ("reset_at", resetAt),
        ("request_id", .string requestId)])
  | _ => throw unexpectedReply

/-- `Number(usage.consumed)` -/
def consumedOf : Message → Number
  | .usage usage => .ofInt usage.consumed
  | _ => .nan

def readUsage (key : LimitKey) (fetchedAt : String) : Async Value := do
  match ← call (.getUsage key) none with
  | .usage usage => orThrow (toUsageView key usage fetchedAt)
  | _ => throw unexpectedReply

/-- Refunds what a first read finds consumed, and reads again. -/
def resetWindow (context : OpContext) (key : LimitKey) : Async Value := do
  let fetchedAt ← isoNow
  let usage ← call (.getUsage key) none
  let consumed := consumedOf usage
  let requestId ← reqId
  if (Number.finite 0).lt consumed then
    let _ ← call (.refund key consumed requestId) (some context.actor)
  context.log .opReset (.limit key) (some (.refunded consumed.maxZero)) (some requestId)
  readUsage key fetchedAt

def executePendingOp (context : OpContext) : PendingOp → Async Value
  | .limitUpdate limit => updateLimit context limit true
  | .limitDelete key => do
      deleteLimit context key false
      pure .undefined
  | .opRefund key amount => refund context key amount
  | .opReset key => resetWindow context key

end RateLimiter.Console
