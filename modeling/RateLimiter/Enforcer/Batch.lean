import RateLimiter.Enforcer.Execution
import RateLimiter.Enforcer.Fleet

/-!
# Batches of checks

`check_quota_batch` runs the checks of its batch one after the other, and other
requests may come between any two of them. A turn of the service is a request
of its own, the arrival of a batch or the next check of one. Batches go by
names, so that a run speaks of the same batch whatever else is left out of it.
-/

namespace RateLimiter.Enforcer

open Machine Redis

/-- What one check of a batch meets when it is its turn. -/
structure Circumstance where
  now : ℤ
  draw : ℕ
  monotonic : ℕ
  configDraw : ℕ
  database : Option (List LimitRow)

/-- The check as a request of its own at the instance of its batch. -/
def Circumstance.arrival (circumstance : Circumstance) (pod : ℕ) (request : CheckQuotaRequest) :
    Arrival :=
  ⟨pod, circumstance.now, circumstance.draw, circumstance.monotonic, circumstance.configDraw,
    circumstance.database, .checkQuota request⟩

/-- `check_quota_batch` between two of its checks. -/
inductive Progress where
  | running (results : List CheckQuotaResponse) (rest : List CheckQuotaRequest)
  | answered (reply : Except Status (List CheckQuotaResponse))
deriving DecidableEq

structure Batch where
  pod : ℕ
  progress : Progress
deriving DecidableEq

namespace Progress

def proceed (results : List CheckQuotaResponse) : List CheckQuotaRequest → Progress
  | [] => .answered (.ok results)
  | request :: rest => .running results (request :: rest)

/-- `max_batch_size`; the settings have 100. -/
def start (maxBatchSize : ℕ) (requests : List CheckQuotaRequest) : Progress :=
  if maxBatchSize < requests.length then
    .answered (.error (EnforcerError.invalidArgument
      s!"batch size {requests.length} exceeds max {maxBatchSize}").toStatus)
  else proceed [] requests

/-- `results.push(self.check_one(r).await?)` -/
def resume (results : List CheckQuotaResponse) (rest : List CheckQuotaRequest) :
    Except EnforcerError CheckQuotaResponse → Progress
  | .ok response => proceed (results ++ [response]) rest
  | .error error => .answered (.error error.toStatus)

end Progress

inductive Turn where
  | single (event : FleetEvent)
  /-- A batch arrives; a name that is taken is not given again. -/
  | submit (batch pod : ℕ) (requests : List CheckQuotaRequest)
  /-- The batch goes on, if it has arrived and has not been answered. -/
  | check (batch : ℕ) (circumstance : Circumstance)

/-- The batch that a turn is about. -/
def Turn.batch? : Turn → Option ℕ
  | .single _ => none
  | .submit batch _ _ | .check batch _ => some batch

/-- The fleet and the batches that have been sent to it. -/
structure Serving where
  fleet : Fleet
  batches : ℕ → Option Batch

namespace Serving

def initial : Serving := ⟨Fleet.initial, fun _ => none⟩

variable (settings : CacheSettings) (maxBatchSize : ℕ)

/-- `check_one` at one instance. -/
def checkOne (fleet : Fleet) (circumstance : Circumstance) (pod : ℕ)
    (request : CheckQuotaRequest) : Except EnforcerError CheckQuotaResponse × Fleet :=
  let arrival := circumstance.arrival pod request
  let call := fleet.callOf settings arrival
  let answered := Enforcer.checkOne call.resolve call.moment request fleet.keyspace
  (answered.1, ⟨fleet.cachesAfter settings arrival, answered.2⟩)

/-- The check that a batch makes next. -/
def next? (state : Serving) (batch : ℕ) :
    Option (ℕ × List CheckQuotaResponse × CheckQuotaRequest × List CheckQuotaRequest) :=
  match state.batches batch with
  | some ⟨pod, .running results (request :: rest)⟩ => some (pod, results, request, rest)
  | _ => none

def setBatch (state : Serving) (batch : ℕ) (changed : Batch) : Serving :=
  { state with batches := Function.update state.batches batch (some changed) }

/-- One turn; it answers the request that it is, if it is one. -/
def react (state : Serving) : Turn → Option Reply × Serving
  | .single event =>
      let answered := Fleet.react settings state.fleet event
      (answered.1, { state with fleet := answered.2 })
  | .submit batch pod requests =>
      match state.batches batch with
      | none => (none, state.setBatch batch ⟨pod, Progress.start maxBatchSize requests⟩)
      | some _ => (none, state)
  | .check batch circumstance =>
      match state.next? batch with
      | none => (none, state)
      | some (pod, results, request, rest) =>
          let checked := checkOne settings state.fleet circumstance pod request
          (none, { state with fleet := checked.2 }.setBatch batch
            ⟨pod, Progress.resume results rest checked.1⟩)

def stateAfter (state : Serving) (turns : List Turn) : Serving :=
  after (fun state turn => (react settings maxBatchSize state turn).2) state turns

/-- The requests that a turn executes, with the batch that each belongs to. -/
def executed (state : Serving) : Turn → List (Option ℕ × FleetEvent)
  | .single event => [(none, event)]
  | .submit _ _ _ => []
  | .check batch circumstance =>
      match state.next? batch with
      | none => []
      | some (pod, _, request, _) => [(some batch, .arrive (circumstance.arrival pod request))]

/-- The run as a run of the fleet, every check of a batch being a request of its own. -/
def trace (state : Serving) : List Turn → List (Option ℕ × FleetEvent)
  | [] => []
  | turn :: rest =>
      executed state turn ++ trace (react settings maxBatchSize state turn).2 rest

/-- One request of the trace. -/
def execute (fleet : Fleet) (owned : Option ℕ × FleetEvent) : Option Reply × Fleet :=
  Fleet.react settings fleet owned.2

def ownedBy (batch : ℕ) (owned : Option ℕ × FleetEvent) : Bool :=
  owned.1 = some batch

/-- The requests that a turn sends in a batch. -/
def sends (batch : ℕ) : Turn → Option (ℕ × List CheckQuotaRequest)
  | .submit other pod requests => if other = batch then some (pod, requests) else none
  | .single _ | .check _ _ => none

/-- The requests that a run sends in a batch. -/
def submitted (turns : List Turn) (batch : ℕ) : Option (ℕ × List CheckQuotaRequest) :=
  turns.findSome? (sends batch)

end Serving

/-- The check of one request of a batch. -/
def checkEvent (pod : ℕ) (asked : Circumstance × CheckQuotaRequest) : FleetEvent :=
  .arrive (asked.1.arrival pod asked.2)

/-- What has become of a batch, given its checks and the replies to them: it is refused before its
first check, or its requests are checked in their order until the first error. -/
inductive Conducted (maxBatchSize pod : ℕ) (requests : List CheckQuotaRequest) :
    List FleetEvent → List (Option Reply) → Progress → Prop where
  | refused (tooLarge : maxBatchSize < requests.length) :
      Conducted maxBatchSize pod requests [] []
        (.answered (.error ⟨.invalidArgument,
          .plain s!"batch size {requests.length} exceeds max {maxBatchSize}"⟩))
  | running {asked : List (Circumstance × CheckQuotaRequest)} {responses : List CheckQuotaResponse}
      {request : CheckQuotaRequest} {rest : List CheckQuotaRequest}
      (inSize : requests.length ≤ maxBatchSize)
      (inOrder : requests = asked.map Prod.snd ++ request :: rest)
      (answers : responses.length = asked.length) :
      Conducted maxBatchSize pod requests (asked.map (checkEvent pod))
        (responses.map fun response => some (.checkQuota (.ok response)))
        (.running responses (request :: rest))
  | completed {asked : List (Circumstance × CheckQuotaRequest)}
      {responses : List CheckQuotaResponse} (inSize : requests.length ≤ maxBatchSize)
      (inOrder : requests = asked.map Prod.snd) (answers : responses.length = asked.length) :
      Conducted maxBatchSize pod requests (asked.map (checkEvent pod))
        (responses.map fun response => some (.checkQuota (.ok response)))
        (.answered (.ok responses))
  | failed {asked : List (Circumstance × CheckQuotaRequest)} {responses : List CheckQuotaResponse}
      {error : EnforcerError} {rest : List CheckQuotaRequest}
      (inSize : requests.length ≤ maxBatchSize) (inOrder : requests = asked.map Prod.snd ++ rest)
      (answers : responses.length + 1 = asked.length) :
      Conducted maxBatchSize pod requests (asked.map (checkEvent pod))
        ((responses.map fun response => some (.checkQuota (.ok response))) ++
          [some (.checkQuota (.error error))])
        (.answered (.error error.toStatus))

section Conduct

variable {maxBatchSize pod : ℕ} {requests : List CheckQuotaRequest}

theorem conducted_proceed {asked : List (Circumstance × CheckQuotaRequest)}
    {responses : List CheckQuotaResponse} {rest : List CheckQuotaRequest}
    (inSize : requests.length ≤ maxBatchSize) (inOrder : requests = asked.map Prod.snd ++ rest)
    (answers : responses.length = asked.length) :
    Conducted maxBatchSize pod requests (asked.map (checkEvent pod))
      (responses.map fun response => some (.checkQuota (.ok response)))
      (Progress.proceed responses rest) := by
  cases rest with
  | nil => exact .completed inSize (by simpa using inOrder) answers
  | cons request rest => exact .running inSize inOrder answers

theorem conducted_start (maxBatchSize pod : ℕ) (requests : List CheckQuotaRequest) :
    Conducted maxBatchSize pod requests [] [] (Progress.start maxBatchSize requests) := by
  simp only [Progress.start]
  split
  · rename_i tooLarge
    exact .refused tooLarge
  · rename_i inSize
    exact @conducted_proceed maxBatchSize pod requests [] [] requests (Nat.le_of_not_lt inSize)
      rfl rfl

/-- One more check moves a batch on. -/
theorem conducted_resume {checks : List FleetEvent} {replies : List (Option Reply)}
    {results : List CheckQuotaResponse} {request : CheckQuotaRequest}
    {rest : List CheckQuotaRequest}
    (conducted : Conducted maxBatchSize pod requests checks replies
      (.running results (request :: rest)))
    (circumstance : Circumstance) (result : Except EnforcerError CheckQuotaResponse) :
    Conducted maxBatchSize pod requests
      (checks ++ [.arrive (circumstance.arrival pod request)])
      (replies ++ [some (.checkQuota result)]) (Progress.resume results rest result) := by
  cases conducted with
  | @running asked _ _ _ inSize inOrder answers =>
      have askedNow : requests = (asked ++ [(circumstance, request)]).map Prod.snd ++ rest := by
        simp [inOrder]
      have checksNow : asked.map (checkEvent pod) ++ [.arrive (circumstance.arrival pod request)] =
          (asked ++ [(circumstance, request)]).map (checkEvent pod) := by
        simp [checkEvent]
      rw [checksNow]
      cases result with
      | ok response =>
          have repliesNow : (results.map fun response =>
              some (Reply.checkQuota (.ok response))) ++ [some (.checkQuota (.ok response))] =
              (results ++ [response]).map fun response => some (.checkQuota (.ok response)) := by
            simp
          rw [repliesNow]
          exact conducted_proceed inSize askedNow (by simp [answers])
      | error error => exact .failed inSize askedNow (by simp [answers])

end Conduct

namespace Serving

variable {settings : CacheSettings} {maxBatchSize : ℕ}

theorem trace_append (first second : List Turn) : ∀ state : Serving,
    trace settings maxBatchSize state (first ++ second) =
      trace settings maxBatchSize state first ++
        trace settings maxBatchSize (stateAfter settings maxBatchSize state first) second := by
  induction first with
  | nil => exact fun _ => rfl
  | cons turn rest ih =>
      intro state
      simp only [List.cons_append, trace, ih, List.append_assoc]
      rfl

theorem trace_concat (state : Serving) (before : List Turn) (turn : Turn) :
    trace settings maxBatchSize state (before ++ [turn]) =
      trace settings maxBatchSize state before ++
        executed (stateAfter settings maxBatchSize state before) turn := by
  simp only [trace_append, trace, List.append_nil]

theorem submitted_concat (before : List Turn) (turn : Turn) (batch : ℕ) :
    submitted (before ++ [turn]) batch = (submitted before batch).or (sends batch turn) := by
  simp only [submitted, List.findSome?_append, List.findSome?_singleton]

/-- The checks of a batch in a run, and the replies to them. -/
def checksOf (batch : ℕ) (owned : List (Option ℕ × FleetEvent)) : List FleetEvent :=
  (owned.filter (ownedBy batch)).map Prod.snd

def repliesTo (settings : CacheSettings) (batch : ℕ) (owned : List (Option ℕ × FleetEvent)) :
    List (Option Reply) :=
  visibleOutputs (execute settings) (ownedBy batch) Fleet.initial owned

/-- The state is that of the fleet after the trace, and every batch is conducted in it. -/
structure Conducting (settings : CacheSettings) (maxBatchSize : ℕ) (turns : List Turn)
    (state : Serving) : Prop where
  fleet : state.fleet = after (fun fleet owned => (execute settings fleet owned).2) Fleet.initial
    (trace settings maxBatchSize initial turns)
  unsent : ∀ batch, submitted turns batch = none → state.batches batch = none ∧
    ∀ owned ∈ trace settings maxBatchSize initial turns, owned.1 ≠ some batch
  conducted : ∀ (batch pod : ℕ) (requests : List CheckQuotaRequest),
    submitted turns batch = some (pod, requests) →
    ∃ progress, state.batches batch = some ⟨pod, progress⟩ ∧
      Conducted maxBatchSize pod requests
        (checksOf batch (trace settings maxBatchSize initial turns))
        (repliesTo settings batch (trace settings maxBatchSize initial turns)) progress

theorem next?_eq_some {state : Serving} {batch pod : ℕ} {results : List CheckQuotaResponse}
    {request : CheckQuotaRequest} {rest : List CheckQuotaRequest}
    (isNext : state.next? batch = some (pod, results, request, rest)) :
    state.batches batch = some ⟨pod, .running results (request :: rest)⟩ := by
  simp only [next?] at isNext
  split at isNext
  · rename_i found
    simp only [Option.some.injEq, Prod.mk.injEq] at isNext
    rcases isNext with ⟨rfl, rfl, rfl, rfl⟩
    exact found
  · simp at isNext

section Owned

variable {batch : ℕ} {owned : List (Option ℕ × FleetEvent)} {last : Option ℕ × FleetEvent}

theorem repliesTo_concat : repliesTo settings batch (owned ++ [last]) =
    repliesTo settings batch owned ++
      if ownedBy batch last then
        [(execute settings
          (after (fun fleet owned => (execute settings fleet owned).2) Fleet.initial owned) last).1]
      else [] := by
  simp only [repliesTo, visibleOutputs_append, visibleOutputs]

theorem checksOf_concat : checksOf batch (owned ++ [last]) =
    checksOf batch owned ++ if ownedBy batch last then [last.2] else [] := by
  simp only [checksOf, List.filter_append, List.map_append, List.filter_singleton]
  cases ownedBy batch last <;> rfl

/-- A run without requests of a batch has no checks of it and no replies to them. -/
theorem not_owned (stranger : ∀ request ∈ owned, request.1 ≠ some batch) :
    checksOf batch owned = [] ∧ repliesTo settings batch owned = [] := by
  have hidden : ∀ request ∈ owned, ownedBy batch request = false := by
    intro request mem
    exact decide_eq_false (stranger request mem)
  refine ⟨?_, visibleOutputs_eq_nil hidden⟩
  simp only [checksOf, List.map_eq_nil_iff, List.filter_eq_nil_iff]
  intro request mem
  simp only [hidden request mem, Bool.false_eq_true, not_false_iff]

end Owned

section Steps

variable {before : List Turn} {state : Serving}
  (conducting : Conducting settings maxBatchSize before state)

include conducting

theorem conducting_single (event : FleetEvent) :
    Conducting settings maxBatchSize (before ++ [.single event])
      (react settings maxBatchSize state (.single event)).2 := by
  have traced : trace settings maxBatchSize initial (before ++ [.single event]) =
      trace settings maxBatchSize initial before ++ [(none, event)] := by
    simp only [trace_concat, executed]
  have sent : submitted (before ++ [.single event]) = submitted before := by
    funext batch
    simp only [submitted_concat, sends, Option.or_none]
  refine ⟨?_, ?_, ?_⟩
  · rw [traced, after_concat, ← conducting.fleet]
    rfl
  · intro batch notSent
    rw [sent] at notSent
    rcases conducting.unsent batch notSent with ⟨absent, stranger⟩
    refine ⟨absent, ?_⟩
    intro owned mem
    rw [traced, List.mem_append, List.mem_singleton] at mem
    rcases mem with earlier | rfl
    · exact stranger owned earlier
    · simp
  · intro batch pod requests isSent
    rw [sent] at isSent
    rcases conducting.conducted batch pod requests isSent with ⟨progress, held, conducted⟩
    refine ⟨progress, held, ?_⟩
    have stranger : ownedBy batch (none, event) = false := by simp [ownedBy]
    simpa only [traced, checksOf_concat, repliesTo_concat, stranger, Bool.false_eq_true, if_false,
      List.append_nil] using conducted

theorem conducting_submit (batch pod : ℕ) (requests : List CheckQuotaRequest) :
    Conducting settings maxBatchSize (before ++ [.submit batch pod requests])
      (react settings maxBatchSize state (.submit batch pod requests)).2 := by
  have traced : trace settings maxBatchSize initial (before ++ [.submit batch pod requests]) =
      trace settings maxBatchSize initial before := by
    simp only [trace_concat, executed, List.append_nil]
  have sentElsewhere : ∀ other, other ≠ batch →
      submitted (before ++ [.submit batch pod requests]) other = submitted before other := by
    intro other different
    simp only [submitted_concat, sends, Ne.symm different, if_false, Option.or_none]
  cases already : submitted before batch with
  | some earlier =>
      -- the name is taken: nothing happens
      have sent : submitted (before ++ [.submit batch pod requests]) = submitted before := by
        funext other
        by_cases same : other = batch
        · rw [same, submitted_concat, already, Option.some_or]
        · exact sentElsewhere other same
      rcases conducting.conducted batch earlier.1 earlier.2 already with ⟨progress, held, _⟩
      simp only [react, held]
      exact ⟨by rw [traced]; exact conducting.fleet, by rw [sent, traced]; exact conducting.unsent,
        by rw [sent, traced]; exact conducting.conducted⟩
  | none =>
      rcases conducting.unsent batch already with ⟨absent, stranger⟩
      have sentHere : submitted (before ++ [.submit batch pod requests]) batch =
          some (pod, requests) := by
        simp only [submitted_concat, already, sends, if_true, Option.none_or]
      simp only [react, absent]
      refine ⟨by rw [traced]; exact conducting.fleet, ?_, ?_⟩
      · intro other notSent
        have different : other ≠ batch := by
          rintro rfl
          simp [sentHere] at notSent
        rw [sentElsewhere other different] at notSent
        simp only [setBatch, Function.update_of_ne different, traced]
        exact conducting.unsent other notSent
      · intro other otherPod others isSent
        rw [traced]
        by_cases same : other = batch
        · subst other
          rw [sentHere, Option.some.injEq, Prod.mk.injEq] at isSent
          rcases isSent with ⟨rfl, rfl⟩
          refine ⟨Progress.start maxBatchSize requests, Function.update_self .., ?_⟩
          rcases @not_owned settings _ _ stranger with ⟨noChecks, noReplies⟩
          rw [noChecks, noReplies]
          exact conducted_start maxBatchSize pod requests
        · rw [sentElsewhere other same] at isSent
          rcases conducting.conducted other otherPod others isSent with ⟨progress, held, conducted⟩
          refine ⟨progress, ?_, conducted⟩
          simp only [setBatch, Function.update_of_ne same]
          exact held

theorem conducting_check (reached : state = stateAfter settings maxBatchSize initial before)
    (batch : ℕ) (circumstance : Circumstance) :
    Conducting settings maxBatchSize (before ++ [.check batch circumstance])
      (react settings maxBatchSize state (.check batch circumstance)).2 := by
  have sent : submitted (before ++ [.check batch circumstance]) = submitted before := by
    funext other
    simp only [submitted_concat, sends, Option.or_none]
  cases isNext : state.next? batch with
  | none =>
      have traced : trace settings maxBatchSize initial (before ++ [.check batch circumstance]) =
          trace settings maxBatchSize initial before := by
        simp only [trace_concat, executed, ← reached, isNext, List.append_nil]
      simp only [react, isNext]
      exact ⟨by rw [traced]; exact conducting.fleet, by rw [sent, traced]; exact conducting.unsent,
        by rw [sent, traced]; exact conducting.conducted⟩
  | some found =>
      rcases found with ⟨pod, results, request, rest⟩
      have held := next?_eq_some isNext
      have traced : trace settings maxBatchSize initial (before ++ [.check batch circumstance]) =
          trace settings maxBatchSize initial before ++
            [(some batch, .arrive (circumstance.arrival pod request))] := by
        simp only [trace_concat, executed, ← reached, isNext]
      simp only [react, isNext]
      refine ⟨?_, ?_, ?_⟩
      · rw [traced, after_concat, ← conducting.fleet]
        rfl
      · intro other notSent
        rw [sent] at notSent
        rcases conducting.unsent other notSent with ⟨absent, stranger⟩
        have different : other ≠ batch := by
          rintro rfl
          simp [held] at absent
        simp only [setBatch, Function.update_of_ne different]
        refine ⟨absent, ?_⟩
        intro owned mem
        rw [traced, List.mem_append, List.mem_singleton] at mem
        rcases mem with earlier | rfl
        · exact stranger owned earlier
        · simpa using Ne.symm different
      · intro other otherPod requests isSent
        rw [sent] at isSent
        rcases conducting.conducted other otherPod requests isSent with
          ⟨progress, current, conducted⟩
        rw [traced, checksOf_concat, repliesTo_concat, ← conducting.fleet]
        by_cases same : other = batch
        · subst other
          rw [held, Option.some.injEq, Batch.mk.injEq] at current
          rcases current with ⟨rfl, rfl⟩
          refine ⟨_, Function.update_self .., ?_⟩
          have mine : ownedBy batch
              (some batch, .arrive (circumstance.arrival pod request)) = true := by
            simp [ownedBy]
          simp only [mine, if_true]
          exact conducted_resume conducted circumstance _
        · refine ⟨progress, ?_, ?_⟩
          · simp only [setBatch, Function.update_of_ne same]
            exact current
          · have stranger : ownedBy other
                (some batch, .arrive (circumstance.arrival pod request)) = false := by
              simp [ownedBy, Ne.symm same]
            simpa only [stranger, Bool.false_eq_true, if_false, List.append_nil] using conducted

end Steps

theorem conducting_after (settings : CacheSettings) (maxBatchSize : ℕ) (turns : List Turn) :
    Conducting settings maxBatchSize turns (stateAfter settings maxBatchSize initial turns) := by
  apply history_invariant (Conducting settings maxBatchSize)
  · refine ⟨rfl, ?_, ?_⟩
    · exact fun batch _ => ⟨rfl, by simp [trace]⟩
    · intro batch pod requests isSent
      simp [submitted] at isSent
  · intro before turn conducting
    cases turn with
    | single event => exact conducting_single conducting event
    | submit batch pod requests => exact conducting_submit conducting batch pod requests
    | check batch circumstance => exact conducting_check conducting rfl batch circumstance

def Turn.isSingle : Turn → Bool
  | .single _ => true
  | .submit _ _ _ | .check _ _ => false

/-- A request of its own is answered as in the trace. -/
theorem singles_eq (turns : List Turn) : ∀ state : Serving,
    visibleOutputs (react settings maxBatchSize) Turn.isSingle state turns =
      visibleOutputs (execute settings) (fun owned => owned.1.isNone) state.fleet
        (trace settings maxBatchSize state turns) := by
  induction turns with
  | nil => exact fun _ => rfl
  | cons turn rest ih =>
      intro state
      cases turn with
      | single event =>
          simp only [visibleOutputs, Turn.isSingle, trace, executed, if_true, List.cons_append,
            List.nil_append, Option.isNone_none, ih]
          rfl
      | submit batch pod requests =>
          simp only [visibleOutputs, Turn.isSingle, trace, executed, Bool.false_eq_true, if_false,
            List.nil_append, ih]
          cases held : state.batches batch with
          | none => simp only [react, held, setBatch]
          | some _ => simp only [react, held]
      | check batch circumstance =>
          simp only [visibleOutputs, Turn.isSingle, trace, Bool.false_eq_true, if_false, ih]
          cases isNext : state.next? batch with
          | none => simp only [executed, react, isNext, List.nil_append]
          | some found =>
              rcases found with ⟨pod, results, request, rest⟩
              simp only [executed, react, isNext, List.cons_append, List.nil_append,
                visibleOutputs, Option.isNone_some, Bool.false_eq_true, if_false]
              rfl

/-- However their checks are interleaved with each other and with other requests, batches are
answered from single checks at the same places: a request of its own cannot tell a check of a
batch from another, and a batch gets the replies to its requests in their order, up to the first
error, which is then its own answer. -/
theorem batches_refine_checks (settings : CacheSettings) (maxBatchSize : ℕ) (turns : List Turn) :
    visibleOutputs (react settings maxBatchSize) Turn.isSingle initial turns =
        visibleOutputs (execute settings) (fun owned => owned.1.isNone) Fleet.initial
          (trace settings maxBatchSize initial turns) ∧
      ∀ (batch pod : ℕ) (requests : List CheckQuotaRequest),
        submitted turns batch = some (pod, requests) →
        ∃ progress,
          (stateAfter settings maxBatchSize initial turns).batches batch =
            some ⟨pod, progress⟩ ∧
          Conducted maxBatchSize pod requests
            (checksOf batch (trace settings maxBatchSize initial turns))
            (repliesTo settings batch (trace settings maxBatchSize initial turns)) progress :=
  ⟨singles_eq turns initial, (conducting_after settings maxBatchSize turns).conducted⟩

end Serving

namespace Serving

/-- The reply to a batch that has ended. -/
def reply? (state : Serving) (batch : ℕ) : Option (Except Status (List CheckQuotaResponse)) :=
  match state.batches batch with
  | some ⟨_, .answered reply⟩ => some reply
  | _ => none

/-- What goes out in a turn: the reply to a request of its own, or that to the batch it ends. -/
inductive Sent where
  | single (reply : Reply)
  | batch (batch : ℕ) (reply : Except Status (List CheckQuotaResponse))
deriving DecidableEq

/-- One turn with all that it sends; a batch is answered in the turn of its last check. -/
def serve (settings : CacheSettings) (maxBatchSize : ℕ) (state : Serving) (turn : Turn) :
    Option Sent × Serving :=
  let answered := react settings maxBatchSize state turn
  match turn.batch? with
  | none => (answered.1.map .single, answered.2)
  | some batch =>
      if (state.reply? batch).isSome then (none, answered.2)
      else ((answered.2.reply? batch).map (.batch batch), answered.2)

end Serving

section Reads

/-- A turn that only reads: a check, a usage request, or a part of a batch. -/
def Turn.isRead : Turn → Bool
  | .single (.arrive arrival) => arrival.rpc.isRead
  | .single (.drop _ _) => false
  | .submit _ _ _ | .check _ _ => true

/-- The turn finds the table, if it looks anything up. -/
def Turn.Reaches (rows : List LimitRow) : Turn → Prop
  | .single (.arrive arrival) => arrival.database = some rows
  | .check _ circumstance => circumstance.database = some rows
  | .single (.drop _ _) | .submit _ _ _ => True

variable {settings : CacheSettings} {maxBatchSize : ℕ} {rows : List LimitRow}

/-- Every cached cap is that of the table. -/
def Fleet.Settled (rows : List LimitRow) (fleet : Fleet) : Prop :=
  ∃ uncached, Fleet.Tracks rows fleet uncached

theorem Fleet.settled_react {fleet : Fleet} {event : FleetEvent} (settled : fleet.Settled rows)
    (reads : Fleet.Reads rows event) : (Fleet.react settings fleet event).2.Settled rows := by
  rcases settled with ⟨uncached, tracks⟩
  exact ⟨_, (simulates_uncached settings rows).next fleet uncached event reads tracks⟩

theorem Fleet.callOf_settled {fleet : Fleet} {arrival : Arrival} (settled : fleet.Settled rows)
    (reached : arrival.database = some rows) :
    fleet.callOf settings arrival = arrival.call (tableResolve rows) := by
  rcases settled with ⟨uncached, tracks⟩
  rw [callOf_tracked tracks (Or.inr reached)]
  apply congrArg arrival.call
  funext key
  simp [Uncached.resolve, reached]

namespace Serving

/-- Both fleets have the same counters, their caches tell the truth, and the batches that are kept
have come equally far. -/
structure Agree (rows : List LimitRow) (kept : ℕ → Bool) (first second : Serving) : Prop where
  left : first.fleet.Settled rows
  right : second.fleet.Settled rows
  keyspace : first.fleet.keyspace = second.fleet.keyspace
  batches : ∀ batch, kept batch = true → first.batches batch = second.batches batch

variable {kept : ℕ → Bool} {state other : Serving} {turn : Turn} {batch : ℕ}

theorem settled_react (settled : state.fleet.Settled rows) (reaches : turn.Reaches rows) :
    (react settings maxBatchSize state turn).2.fleet.Settled rows := by
  cases turn with
  | single event =>
      apply Fleet.settled_react settled
      cases event with
      | arrive arrival => exact Or.inr reaches
      | drop key instant => exact trivial
  | submit batch pod requests =>
      simp only [react]
      split <;> exact settled
  | check batch circumstance =>
      cases isNext : state.next? batch with
      | none =>
          simp only [react, isNext]
          exact settled
      | some found =>
          rcases found with ⟨pod, results, request, rest⟩
          simp only [react, isNext]
          have reads : Fleet.Reads rows (.arrive (circumstance.arrival pod request)) :=
            Or.inr reaches
          exact @Fleet.settled_react settings rows _ _ settled reads

theorem keyspace_of_read (read : turn.isRead = true) :
    (react settings maxBatchSize state turn).2.fleet.keyspace = state.fleet.keyspace := by
  cases turn with
  | single event =>
      cases event with
      | arrive arrival => exact @perform_readOnly (state.fleet.callOf settings arrival) read _
      | drop key instant => simp [Turn.isRead] at read
  | submit batch pod requests =>
      simp only [react]
      split <;> rfl
  | check batch circumstance =>
      cases isNext : state.next? batch with
      | none => simp only [react, isNext]
      | some found =>
          rcases found with ⟨pod, results, request, rest⟩
          simp only [react, isNext, checkOne, setBatch]
          exact checkOne_readOnly _ _ _ _

/-- A turn leaves every batch alone but its own. -/
theorem batches_of_ne (stranger : turn.batch? ≠ some batch) :
    (react settings maxBatchSize state turn).2.batches batch = state.batches batch := by
  cases turn with
  | single event => rfl
  | submit own pod requests =>
      have different : batch ≠ own := fun same => stranger (by rw [Turn.batch?, same])
      simp only [react]
      split
      · simp only [setBatch, Function.update_of_ne different]
      · rfl
  | check own circumstance =>
      have different : batch ≠ own := fun same => stranger (by rw [Turn.batch?, same])
      simp only [react]
      split
      · rfl
      · simp only [setBatch, Function.update_of_ne different]

theorem next?_congr (same : state.batches batch = other.batches batch) :
    state.next? batch = other.next? batch := by
  simp only [next?, same]

theorem reply?_congr (same : state.batches batch = other.batches batch) :
    state.reply? batch = other.reply? batch := by
  simp only [reply?, same]

/-- Where the fleets agree, a check gets the same answer. -/
theorem checkOne_agree (agree : Agree rows kept state other) {circumstance : Circumstance}
    (reached : circumstance.database = some rows) (pod : ℕ) (request : CheckQuotaRequest) :
    (checkOne settings state.fleet circumstance pod request).1 =
      (checkOne settings other.fleet circumstance pod request).1 := by
  have finds : (circumstance.arrival pod request).database = some rows := reached
  simp only [checkOne, Fleet.callOf_settled agree.left finds,
    Fleet.callOf_settled agree.right finds, agree.keyspace]

/-- Where the fleets agree, a turn that is not about a batch left out gets the same reply, and
leaves the same counters and the same batches. -/
theorem react_agree (agree : Agree rows kept state other) (reaches : turn.Reaches rows)
    (isKept : ∀ batch, turn.batch? = some batch → kept batch = true) :
    (react settings maxBatchSize state turn).1 = (react settings maxBatchSize other turn).1 ∧
      (react settings maxBatchSize state turn).2.fleet.keyspace =
        (react settings maxBatchSize other turn).2.fleet.keyspace ∧
      ∀ batch, kept batch = true → (react settings maxBatchSize state turn).2.batches batch =
        (react settings maxBatchSize other turn).2.batches batch := by
  have elsewhere : ∀ batch, kept batch = true → turn.batch? ≠ some batch →
      (react settings maxBatchSize state turn).2.batches batch =
        (react settings maxBatchSize other turn).2.batches batch := by
    intro batch isKept stranger
    rw [batches_of_ne stranger, batches_of_ne stranger, agree.batches batch isKept]
  cases turn with
  | single event =>
      refine ⟨?_, ?_, fun batch isKept => elsewhere batch isKept (by simp [Turn.batch?])⟩
      · cases event with
        | arrive arrival =>
            simp only [react, Fleet.react, Fleet.callOf_settled agree.left reaches,
              Fleet.callOf_settled agree.right reaches, agree.keyspace]
        | drop key instant => rfl
      · cases event with
        | arrive arrival =>
            simp only [react, Fleet.react, Fleet.callOf_settled agree.left reaches,
              Fleet.callOf_settled agree.right reaches, agree.keyspace]
        | drop key instant => simp only [react, Fleet.react, agree.keyspace]
  | submit own pod requests =>
      have held := agree.batches own (isKept own rfl)
      refine ⟨?_, ?_, ?_⟩
      · simp only [react, held]
        split <;> rfl
      · rw [keyspace_of_read rfl, keyspace_of_read rfl, agree.keyspace]
      · intro batch batchKept
        by_cases same : own = batch
        · subst batch
          simp only [react, held]
          split
          · simp only [setBatch, Function.update_self]
          · exact held
        · exact elsewhere batch batchKept fun isOwn => same (Option.some.inj isOwn)
  | check own circumstance =>
      have held := agree.batches own (isKept own rfl)
      have sameNext := next?_congr held
      refine ⟨?_, ?_, ?_⟩
      · simp only [react, sameNext]
        split <;> rfl
      · rw [keyspace_of_read rfl, keyspace_of_read rfl, agree.keyspace]
      · intro batch batchKept
        by_cases same : own = batch
        · subst batch
          simp only [react, sameNext, checkOne_agree agree reaches]
          split
          · exact held
          · simp only [setBatch, Function.update_self]
        · exact elsewhere batch batchKept fun isOwn => same (Option.some.inj isOwn)

/-- The same for all that the turn sends. -/
theorem serve_agree (agree : Agree rows kept state other) (reaches : turn.Reaches rows)
    (isKept : ∀ batch, turn.batch? = some batch → kept batch = true) :
    (serve settings maxBatchSize state turn).1 = (serve settings maxBatchSize other turn).1 := by
  rcases @react_agree settings maxBatchSize rows kept state other turn agree reaches isKept with
    ⟨sameReply, _, sameBatches⟩
  simp only [serve]
  split
  · rw [sameReply]
  · rename_i batch isOwn
    have earlier := reply?_congr (agree.batches batch (isKept batch isOwn))
    have later := reply?_congr (sameBatches batch (isKept batch isOwn))
    rw [earlier, later]
    split <;> rfl

theorem serve_snd (state : Serving) (turn : Turn) :
    (serve settings maxBatchSize state turn).2 = (react settings maxBatchSize state turn).2 := by
  simp only [serve]
  split
  · rfl
  · split <;> rfl

/-- The condition on a turn: it finds the table, only reads are left out, and a batch is kept or
left out as a whole. -/
structure Leaves (rows : List LimitRow) (keeps : Turn → Bool) (kept : ℕ → Bool) (turn : Turn) :
    Prop where
  reaches : turn.Reaches rows
  reads : keeps turn = false → turn.isRead = true
  whole : ∀ batch, turn.batch? = some batch → keeps turn = kept batch

theorem unwinding_reads (settings : CacheSettings) (maxBatchSize : ℕ) (rows : List LimitRow)
    (keeps : Turn → Bool) (kept : ℕ → Bool) :
    Unwinding (serve settings maxBatchSize) keeps (Leaves rows keeps kept) (Agree rows kept) where
  output := by
    intro first second turn leaves visible agree
    exact serve_agree agree leaves.reaches fun batch isOwn =>
      (leaves.whole batch isOwn).symm.trans visible
  next := by
    intro first second turn leaves visible agree
    rcases @react_agree settings maxBatchSize rows kept first second turn agree leaves.reaches
      (fun batch isOwn => (leaves.whole batch isOwn).symm.trans visible) with
      ⟨_, sameKeyspace, sameBatches⟩
    rw [serve_snd, serve_snd]
    exact ⟨settled_react agree.left leaves.reaches, settled_react agree.right leaves.reaches,
      sameKeyspace, sameBatches⟩
  hidden := by
    intro first second turn leaves isHidden agree
    rw [serve_snd]
    refine ⟨settled_react agree.left leaves.reaches, agree.right, ?_, ?_⟩
    · rw [keyspace_of_read (leaves.reads isHidden), agree.keyspace]
    · intro batch isKept
      have stranger : turn.batch? ≠ some batch := by
        intro isOwn
        have := leaves.whole batch isOwn
        simp [isHidden, isKept] at this
      rw [batches_of_ne stranger, agree.batches batch isKept]

/-- While the table is reached and does not change, nothing that is sent shows whether other
checks, usage requests or batches have been served: any of them can be left out of a run, and all
that stay, batches included, are answered as before. -/
theorem reads_unobservable {turns : List Turn} {keeps : Turn → Bool} {kept : ℕ → Bool}
    (leaves : ∀ turn ∈ turns, Leaves rows keeps kept turn) :
    visibleOutputs (serve settings maxBatchSize) keeps initial turns =
      outputs (serve settings maxBatchSize) initial (turns.filter keeps) := by
  have settled : Fleet.initial.Settled rows := by
    refine ⟨⟨fun _ _ => false, fun _ => none⟩, rfl, ?_, ?_⟩
    · intro pod key entry cached
      simp [Fleet.initial] at cached
    · intro pod key known
      simp at known
  exact (unwinding_reads settings maxBatchSize rows keeps kept).visibleOutputs_eq leaves
    ⟨settled, settled, rfl, fun _ _ => rfl⟩

end Serving

def sampleTenant : LimitKey := ⟨"search", "acme|eu", "query"⟩

/-- Between two charges of one counter stand two batches, their checks in turns, and a usage
request. -/
def sampleTurns : List Turn :=
  [.single (sampleArrival 0 0 (some [sampleRow]) (.charge ⟨some sampleTenant, 4⟩)),
    .submit 0 0 [⟨some sampleTenant, 0⟩, ⟨none, 1⟩],
    .submit 1 1 [⟨some sampleTenant, 6⟩, ⟨some sampleTenant, 7⟩],
    .check 0 ⟨1, 7, 1, 3, some [sampleRow]⟩,
    .check 1 ⟨1, 7, 1, 3, some [sampleRow]⟩,
    .single (sampleArrival 1 2 (some [sampleRow]) (.getUsage ⟨some sampleTenant⟩)),
    .check 0 ⟨3, 7, 3, 3, some [sampleRow]⟩,
    .single (sampleArrival 0 4 (some [sampleRow]) (.charge ⟨some sampleTenant, 3⟩)),
    .check 1 ⟨5, 7, 5, 3, some [sampleRow]⟩]

/-- The charges and the second batch. -/
def sampleKeeps (turn : Turn) : Bool :=
  !turn.isRead || turn.batch? == some 1

theorem reads_unobservable_sample :
    visibleOutputs (Serving.serve defaultCacheSettings 100) sampleKeeps Serving.initial
        sampleTurns =
      [some (.single (.charge (.ok ⟨6, 10, some 60000000000⟩))), none, none,
        some (.single (.charge (.ok ⟨3, 10, some 60000000000⟩))),
        some (.batch 1 (.ok [⟨true, 6, 10, some 60000000000⟩,
          ⟨false, 3, 10, some 60000000000⟩]))] := by
  have leaves : ∀ turn ∈ sampleTurns,
      Serving.Leaves [sampleRow] sampleKeeps (fun batch => batch == 1) turn := by
    intro turn mem
    refine ⟨?_, ?_, ?_⟩
    · revert turn
      simp [sampleTurns, sampleArrival, Turn.Reaches]
    · simp +contextual [sampleKeeps]
    · intro batch isOwn
      have reads : turn.isRead = true := by
        cases turn with
        | single event => simp [Turn.batch?] at isOwn
        | submit own pod requests => rfl
        | check own circumstance => rfl
      simp [sampleKeeps, reads, isOwn]
  rw [@Serving.reads_unobservable defaultCacheSettings 100 [sampleRow] sampleTurns _ _ leaves]
  decide +kernel

end Reads

end RateLimiter.Enforcer
