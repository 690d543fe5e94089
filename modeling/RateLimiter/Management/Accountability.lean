import Mathlib.Data.String.Basic
import RateLimiter.Lib.Machine
import RateLimiter.Management.Transition

/-!
# Writes are authorised, attributed and atomic

Over a run of calls the audit table only grows, by one row for each accepted
change of a limit, and the row names the principal of the call. The connections
of the pool may carry any session value of `app.actor`.
-/

namespace RateLimiter.Management

open Machine Database

def planeAfter (backend : Backend) (start : ControlPlane) (calls : List AdminCall) :
    ControlPlane :=
  after (fun plane call => (serve backend plane call).2) start calls

@[simp]
theorem Jsonb.textField_ofRow (row : LimitRow) :
    (Jsonb.ofRow row).textField "service_name" = some row.serviceName ∧
      (Jsonb.ofRow row).textField "customer_id" = some row.customerId ∧
      (Jsonb.ofRow row).textField "rate_limit_id" = some row.rateLimitId := by
  simp [Jsonb.textField, Jsonb.ofRow]

structure Attributed (principal : Principal) (request : WriteRequest) (row : AuditRow) : Prop where
  isLimit : request.limitKey?.isSome
  runs : request.Runs row.operation
  changedBy : row.changedBy = principal.name
  canEdit : ∃ serviceName, row.snapshotField "service_name" = some serviceName ∧
    principal.canEdit serviceName = true

/-- The audit table grows by at most one row, which gets the next id and is attributed. -/
theorem audit_of_accepted {principal : Principal} {now : ℤ} {before after : Database}
    {request : WriteRequest} (accepted : Accepted principal now before after request) :
    after.audit = before.audit ∨ ∃ row, after.audit = before.audit ++ [row] ∧
      row.auditId = before.nextAuditId ∧ row.auditId < after.nextAuditId ∧
      Attributed principal request row := by
  cases accepted with
  | missing same => exact Or.inl same.audit
  | registered _ effect => exact Or.inl effect.audit
  | inserted isLimit canEdit effect runs =>
      rename_i row
      refine Or.inr ⟨_, effect.audit, rfl, effect.auditAdvanced, by simp [isLimit], runs, rfl,
        row.serviceName, ?_, canEdit⟩
      simp [AuditRow.snapshotField]
  | updated isLimit canEdit effect runs =>
      rename_i old row
      refine Or.inr ⟨_, effect.audit, rfl, effect.auditAdvanced, by simp [isLimit], runs, rfl,
        row.serviceName, ?_, canEdit⟩
      simp [AuditRow.snapshotField]
  | deleted isLimit canEdit effect runs =>
      rename_i old
      refine Or.inr ⟨_, effect.audit, rfl, effect.auditAdvanced, by simp [isLimit], runs, rfl,
        old.serviceName, ?_, canEdit⟩
      simp [AuditRow.snapshotField]

theorem grown_of_accepted {principal : Principal} {now : ℤ} {before after : Database}
    {request : WriteRequest} (accepted : Accepted principal now before after request) :
    Grown before after := by
  cases accepted with
  | missing same => exact same.toGrown
  | registered _ effect => exact effect.toGrown
  | inserted _ _ effect => exact effect.toGrown
  | updated _ _ effect => exact effect.toGrown
  | deleted _ _ effect => exact effect.toGrown

/-- Which call of a run wrote an audit row. -/
def StemsFrom (backend : Backend) (start : ControlPlane) (calls : List AdminCall)
    (row : AuditRow) (index : ℕ) : Prop :=
  ∃ call response principal request, calls[index]? = some call ∧
    (serve backend (planeAfter backend start (calls.take index)) call).1 = .ok response ∧
    authenticateCall call.authorizer call.header = .ok principal ∧
    call.request = .write request ∧ Attributed principal request row ∧
    row ∉ (planeAfter backend start (calls.take index)).database.audit ∧
    row ∈ (planeAfter backend start (calls.take (index + 1))).database.audit

section Runs

variable (backend : Backend) (start : ControlPlane)

theorem planeAfter_concat (calls : List AdminCall) (call : AdminCall) :
    planeAfter backend start (calls ++ [call]) =
      (serve backend (planeAfter backend start calls) call).2 :=
  after_concat _ _ _ _

/-- The rule for invariants of the tables: a call that leaves them alone keeps the invariant, and
so does every write that is accepted. -/
theorem planeAfter_invariant (invariant : Database → Prop) (initial : invariant start.database)
    (same : ∀ before after, SameTables before after → invariant before → invariant after)
    (accepted : ∀ principal now before after request,
      Accepted principal now before after request → invariant before → invariant after)
    (calls : List AdminCall) : invariant (planeAfter backend start calls).database := by
  apply history_invariant (fun _ (plane : ControlPlane) => invariant plane.database) initial
  intro earlier call held
  rcases serve_cases backend _ call with ⟨_, _, isSame⟩ |
    ⟨_, principal, _, _, ⟨_, _, unchanged⟩ | ⟨request, _, isAccepted⟩⟩
  · exact same _ _ isSame held
  · rw [unchanged]
    exact held
  · exact accepted _ _ _ _ _ isAccepted held

/-- One call: the audit table keeps its rows, and a new one stems from the call. -/
theorem audit_serve (plane : ControlPlane) (call : AdminCall) :
    (serve backend plane call).2.database.audit = plane.database.audit ∧
        plane.database.nextAuditId ≤ (serve backend plane call).2.database.nextAuditId ∨
      ∃ row response principal request,
        (serve backend plane call).2.database.audit = plane.database.audit ++ [row] ∧
        row.auditId = plane.database.nextAuditId ∧
        row.auditId < (serve backend plane call).2.database.nextAuditId ∧
        (serve backend plane call).1 = .ok response ∧
        authenticateCall call.authorizer call.header = .ok principal ∧
        call.request = .write request ∧ Attributed principal request row := by
  rcases serve_cases backend plane call with ⟨_, _, same⟩ |
    ⟨response, principal, isOk, authenticated, ⟨_, _, unchanged⟩ | ⟨request, isWrite, accepted⟩⟩
  · exact Or.inl ⟨same.audit, same.auditIds⟩
  · rw [unchanged]
    exact Or.inl ⟨rfl, Int.le_refl _⟩
  · rcases audit_of_accepted accepted with same | ⟨row, grew, hasId, below, attributed⟩
    · exact Or.inl ⟨same, (grown_of_accepted accepted).auditIds⟩
    · exact Or.inr ⟨row, response, principal, request, grew, hasId, below, isOk, authenticated,
        isWrite, attributed⟩

theorem audit_grows (calls more : List AdminCall) :
    (planeAfter backend start calls).database.audit <+:
      (planeAfter backend start (calls ++ more)).database.audit := by
  induction more using List.reverseRecOn with
  | nil => simp
  | append_singleton more call ih =>
      rw [← List.append_assoc, planeAfter_concat]
      refine ih.trans ?_
      rcases audit_serve backend (planeAfter backend start (calls ++ more)) call with
        ⟨same, _⟩ | ⟨row, _, _, _, grew, _⟩
      · exact same ▸ List.prefix_rfl
      · rw [grew]
        exact List.prefix_append _ _

variable {start} (noAudit : start.database.audit = [])

include noAudit in
/-- Audit ids that are in use lie below the next one. -/
theorem auditId_lt (calls : List AdminCall) :
    ∀ row ∈ (planeAfter backend start calls).database.audit,
      row.auditId < (planeAfter backend start calls).database.nextAuditId := by
  induction calls using List.reverseRecOn with
  | nil =>
      intro row mem
      simp [planeAfter, noAudit] at mem
  | append_singleton calls call ih =>
      rw [planeAfter_concat]
      intro row mem
      rcases audit_serve backend (planeAfter backend start calls) call with
        ⟨same, grown⟩ | ⟨new, _, _, _, grew, hasId, below, _⟩
      · rw [same] at mem
        exact (ih row mem).trans_le grown
      · rw [grew, List.mem_append, List.mem_singleton] at mem
        rcases mem with old | rfl
        · have := ih row old
          omega
        · exact below

include noAudit in
theorem exists_stemsFrom (calls : List AdminCall) :
    ∀ row ∈ (planeAfter backend start calls).database.audit,
      ∃ index, StemsFrom backend start calls row index := by
  induction calls using List.reverseRecOn with
  | nil =>
      intro row mem
      simp [planeAfter, noAudit] at mem
  | append_singleton calls call ih =>
      intro row mem
      have earlier : row ∈ (planeAfter backend start calls).database.audit →
          ∃ index, StemsFrom backend start (calls ++ [call]) row index := by
        intro old
        rcases ih row old with ⟨index, found, response, principal, request, isCall, rest⟩
        have inside : index < calls.length := (List.getElem?_eq_some_iff.mp isCall).1
        refine ⟨index, found, response, principal, request, ?_, ?_⟩
        · rw [List.getElem?_append_left inside]
          exact isCall
        · rw [List.take_append_of_le_length inside.le, List.take_append_of_le_length inside]
          exact rest
      rw [planeAfter_concat] at mem
      rcases audit_serve backend (planeAfter backend start calls) call with
        ⟨same, _⟩ | ⟨new, response, principal, request, grew, hasId, _, isOk, authenticated,
          isWrite, attributed⟩
      · rw [same] at mem
        exact earlier mem
      · rw [grew, List.mem_append, List.mem_singleton] at mem
        rcases mem with old | rfl
        · exact earlier old
        · refine ⟨calls.length, call, response, principal, request, by simp, ?_, authenticated,
            isWrite, attributed, ?_, ?_⟩
          · rw [List.take_left]
            exact isOk
          · rw [List.take_left]
            intro old
            have := auditId_lt backend noAudit calls row old
            omega
          · rw [List.take_of_length_le (by simp), planeAfter_concat, grew]
            simp

theorem stemsFrom_unique {calls : List AdminCall} {row : AuditRow} {first second : ℕ}
    (stemsFirst : StemsFrom backend start calls row first)
    (stemsSecond : StemsFrom backend start calls row second) : first = second := by
  have ordered : ∀ {lower upper : ℕ}, StemsFrom backend start calls row lower →
      StemsFrom backend start calls row upper → ¬lower < upper := by
    rintro lower upper ⟨_, _, _, _, _, _, _, _, _, _, present⟩
      ⟨_, _, _, _, _, _, _, _, _, absent, _⟩ less
    apply absent
    have split : calls.take upper = calls.take (lower + 1) ++
        (calls.take upper).drop (lower + 1) := by
      have cut := List.take_append_drop (lower + 1) (calls.take upper)
      rw [List.take_take, Nat.min_eq_left less] at cut
      exact cut.symm
    rw [split]
    exact (audit_grows backend start _ _).subset present
  rcases Nat.lt_trichotomy first second with less | same | greater
  · exact absurd less (ordered stemsFirst stemsSecond)
  · exact same
  · exact absurd greater (ordered stemsSecond stemsFirst)

end Runs

/-- Every audit row stems from exactly one accepted write of a limit, by a principal that may edit
the row's service and whose name the row carries; a call that fails changes no table. -/
theorem writes_accountable (backend : Backend) {start : ControlPlane}
    (noAudit : start.database.audit = []) (calls : List AdminCall) :
    (∀ row ∈ (planeAfter backend start calls).database.audit,
      ∃! index, StemsFrom backend start calls row index) ∧
    ∀ before call later error, calls = before ++ call :: later →
      (serve backend (planeAfter backend start before) call).1 = .error error →
      (planeAfter backend start (before ++ [call])).database.services =
          (planeAfter backend start before).database.services ∧
        (planeAfter backend start (before ++ [call])).database.limits =
          (planeAfter backend start before).database.limits ∧
        (planeAfter backend start (before ++ [call])).database.audit =
          (planeAfter backend start before).database.audit := by
  constructor
  · intro row mem
    rcases exists_stemsFrom backend noAudit calls row mem with ⟨index, stems⟩
    exact ⟨index, stems, fun other otherStems => stemsFrom_unique backend otherStems stems⟩
  · intro before call later error _ failed
    rw [planeAfter_concat]
    rcases serve_cases backend (planeAfter backend start before) call with
      ⟨_, _, same⟩ | ⟨response, _, isOk, _⟩
    · exact ⟨same.services, same.limits, same.audit⟩
    · rw [failed] at isOk
      simp at isOk

section Sample

/-- A database with the collation of code points. -/
def sampleBackend : Backend where
  textLe first second := decide (first ≤ second)
  textLe_total first second := by simpa using le_total first second
  textLe_trans first second third := by simpa using fun below => le_trans below
  textLe_antisymm first second := by simpa using fun below => le_antisymm below
  bindTimestamp seconds nanos := .ok (seconds * 1000000 + nanos / 1000)

/-- An administrator and an editor of one service. -/
def sampleAuthorizer : Authorizer := fun token =>
  if token = "root" then some ⟨"root", [], [], true⟩
  else if token = "alice" then some ⟨"alice@corp", ["search"], [], false⟩
  else none

def sampleCall (token : String) (request : WriteRequest) : AdminCall :=
  ⟨some ("Bearer " ++ token), sampleAuthorizer, 0, ⟨5, fun _ => none⟩, .write request⟩

/-- The session value of the pooled connection is somebody else's. -/
def samplePlane : ControlPlane := ⟨fun _ => ⟨some "mallory"⟩, .empty⟩

/-- A service is registered, a limit created, and created again in vain. -/
def sampleCalls : List AdminCall :=
  [sampleCall "root" (.registerService ⟨"search", "Search", "team-search"⟩),
    sampleCall "alice" (.createLimit ⟨"search", "*", "query"⟩ 10 (.known .minute)),
    sampleCall "alice" (.createLimit ⟨"search", "*", "query"⟩ 20 (.known .minute))]

theorem writes_accountable_sample :
    ∃! index, StemsFrom sampleBackend samplePlane sampleCalls
      ⟨1, 1, .insert, none, some (Jsonb.ofRow ⟨1, "search", "*", "query", 10, .minute⟩),
        "alice@corp", 5⟩ index :=
  (writes_accountable sampleBackend rfl sampleCalls).1 _ (by decide +kernel)

end Sample

end RateLimiter.Management
