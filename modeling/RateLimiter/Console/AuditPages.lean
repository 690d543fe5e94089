import RateLimiter.Console.Registry
import RateLimiter.Management.Paging

/-!
# The entries of the audit on the console

`ListAuditEntries`, as the routes of `routes/audit.ts` call it: from the rows
that the repository lists to the entries in a response. An entry keeps its
identities up to the console, so the entries that a response shows are told
apart by those that the control plane has sent for it.
-/

namespace RateLimiter.Console

open EventLoop EventLoop.Handler JavaScript Keyset Management Query

section Entries

/-- An entry of the audit as the console receives it. -/
def rawEntry (row : AuditRow) : RawAudit :=
  toRawAudit (ProtoMappers.toAuditEntry row)

/-- The time of a row is one that a `Date` can hold. -/
def Dated (row : AuditRow) : Prop :=
  -8640000000000000 ≤ row.changedAt / 1000 ∧ row.changedAt / 1000 ≤ 8640000000000000

instance (row : AuditRow) : Decidable (Dated row) :=
  inferInstanceAs (Decidable (_ ∧ _))

theorem toAuditView_cases (row : AuditRow) :
    Dated row ∧ (∃ view, toAuditView (rawEntry row) = .ok view) ∨
      ¬Dated row ∧ ∃ thrown, toAuditView (rawEntry row) = .error thrown := by
  have millis : row.changedAt / 1000000 * 1000 + row.changedAt % 1000000 * 1000 / 1000000 =
      row.changedAt / 1000 := by omega
  by_cases dated : Dated row
  · have inRange : ¬(row.changedAt / 1000 < -8640000000000000 ∨
        8640000000000000 < row.changedAt / 1000) := by
      have := dated.1
      have := dated.2
      omega
    refine Or.inl ⟨dated, ?_⟩
    simp only [toAuditView, rawEntry, toRawAudit, ProtoMappers.toAuditEntry, timestampToIso,
      millis, toIsoString, inRange, if_false]
    exact ⟨_, rfl⟩
  · have outOfRange : row.changedAt / 1000 < -8640000000000000 ∨
        8640000000000000 < row.changedAt / 1000 := by
      simp only [Dated] at dated
      omega
    refine Or.inr ⟨dated, ?_⟩
    simp only [toAuditView, rawEntry, toRawAudit, ProtoMappers.toAuditEntry, timestampToIso,
      millis, toIsoString, outOfRange, if_true]
    exact ⟨_, rfl⟩

/-- What a view shows of its entry. -/
theorem toAuditView_eq_ok {entry : RawAudit} {view : AuditView}
    (isView : toAuditView entry = .ok view) :
    view.operation = entry.operation ∧ view.changedBy = entry.changedBy ∧
      ∃ changedAt, view.json = .object [("audit_id", num entry.auditId),
        ("config_id", num entry.configId), ("operation", .string entry.operation),
        ("old_row", structToObject entry.oldRow), ("new_row", structToObject entry.newRow),
        ("changed_by", .string entry.changedBy), ("changed_at", changedAt)] := by
  cases time : timestampToIso entry.changedAt with
  | error thrown =>
      rw [toAuditView, time] at isView
      cases isView
  | ok changedAt =>
      rw [toAuditView, time] at isView
      cases isView
      exact ⟨rfl, rfl, changedAt, rfl⟩

theorem mapM_eq_ok_iff {α β ε : Type} {convert : α → Except ε β} {items : List α}
    {results : List β} :
    items.mapM convert = .ok results ↔
      List.Forall₂ (fun item result => convert item = .ok result) items results := by
  induction items generalizing results with
  | nil => cases results <;> simp [pure, Except.pure]
  | cons item rest ih =>
      constructor
      · intro converted
        rw [List.mapM_cons] at converted
        cases isResult : convert item with
        | error error =>
            rw [isResult] at converted
            cases converted
        | ok result =>
            cases others : rest.mapM convert with
            | error error =>
                rw [isResult, others] at converted
                cases converted
            | ok tail =>
                rw [isResult, others] at converted
                cases converted
                exact .cons isResult (ih.mp others)
      · intro related
        cases related with
        | cons isResult others =>
            rw [List.mapM_cons, isResult, ih.mpr others]
            rfl

theorem exists_of_mem_forall₂ {α β : Type} {related : α → β → Prop} {items : List α}
    {results : List β} (areRelated : List.Forall₂ related items results) :
    (∀ item ∈ items, ∃ result ∈ results, related item result) ∧
      ∀ result ∈ results, ∃ item ∈ items, related item result := by
  induction areRelated with
  | nil => simp
  | cons isRelated _ ih =>
      constructor
      · intro item mem
        rcases List.mem_cons.mp mem with rfl | inRest
        · exact ⟨_, List.mem_cons_self, isRelated⟩
        · rcases ih.1 item inRest with ⟨result, resultMem, found⟩
          exact ⟨result, List.mem_cons_of_mem _ resultMem, found⟩
      · intro result mem
        rcases List.mem_cons.mp mem with rfl | inRest
        · exact ⟨_, List.mem_cons_self, isRelated⟩
        · rcases ih.2 result inRest with ⟨item, itemMem, found⟩
          exact ⟨item, List.mem_cons_of_mem _ itemMem, found⟩

/-- The entries of a page that stand in the response, of those that the control plane has sent. -/
structure Shows (exchanges : List (Call × Reply)) (shown : List Value) (entries : List RawAudit) :
    Prop where
  sent : ∃ call sent token, exchanges = [(call, .ok (.auditEntries sent token))] ∧
    entries.Sublist sent
  rendered : ∃ views, entries.mapM toAuditView = .ok views ∧ shown = views.map AuditView.json

theorem Shows.length_eq {exchanges : List (Call × Reply)} {shown : List Value}
    {entries : List RawAudit} (shows : Shows exchanges shown entries) :
    shown.length = entries.length := by
  rcases shows.rendered with ⟨views, rendered, rfl⟩
  rw [List.length_map]
  exact (mapM_eq_ok_iff.mp rendered).length_eq.symm

section Filter

variable {keeps : String → String → Bool}

/-- Filtering the views keeps the views of the entries that the filter keeps. -/
theorem rendered_filter {entries : List RawAudit} {views : List AuditView}
    (rendered : entries.mapM toAuditView = .ok views) :
    (entries.filter fun entry => keeps entry.changedBy entry.operation).mapM toAuditView =
      .ok (views.filter fun view => keeps view.changedBy view.operation) := by
  apply mapM_eq_ok_iff.mpr
  apply List.rel_filter _ (mapM_eq_ok_iff.mp rendered)
  intro entry view isView
  rcases toAuditView_eq_ok isView with ⟨operation, changedBy, _⟩
  simp only [operation, changedBy]

theorem exists_views_iff {rows : List AuditRow} :
    (∃ views, (rows.map rawEntry).mapM toAuditView = .ok views) ↔ ∀ row ∈ rows, Dated row := by
  induction rows with
  | nil => simp [pure, Except.pure]
  | cons row rest ih =>
      rw [List.forall_mem_cons, ← ih]
      simp only [mapM_eq_ok_iff, List.map_cons]
      constructor
      · rintro ⟨_, isView | ⟨isView, others⟩⟩
        rcases toAuditView_cases row with ⟨dated, _⟩ | ⟨_, thrown, isThrown⟩
        · exact ⟨dated, _, others⟩
        · rw [isThrown] at isView
          cases isView
      · rintro ⟨dated, views, others⟩
        rcases toAuditView_cases row with ⟨_, view, isView⟩ | ⟨undated, _⟩
        · exact ⟨view :: views, .cons isView others⟩
        · exact absurd dated undated

/-- A response shows only entries that its filter keeps. -/
theorem keeps_of_rendered {sent entries : List RawAudit} {views shown : List AuditView}
    (rendered : sent.mapM toAuditView = .ok views) (areShown : entries.mapM toAuditView = .ok shown)
    (same : (views.filter fun view => keeps view.changedBy view.operation).map AuditView.json =
      shown.map AuditView.json) :
    ∀ entry ∈ entries, keeps entry.changedBy entry.operation = true := by
  intro entry mem
  rcases (exists_of_mem_forall₂ (mapM_eq_ok_iff.mp areShown)).1 entry mem with
    ⟨view, viewMem, isView⟩
  have inFilter := List.mem_map_of_mem (f := AuditView.json) viewMem
  rw [← same] at inFilter
  rcases List.mem_map.mp inFilter with ⟨other, otherMem, sameJson⟩
  rcases List.mem_filter.mp otherMem with ⟨otherIn, kept⟩
  rcases (exists_of_mem_forall₂ (mapM_eq_ok_iff.mp rendered)).2 other otherIn with
    ⟨origin, _, isOther⟩
  rcases toAuditView_eq_ok isView with ⟨_, _, _, json⟩
  rcases toAuditView_eq_ok isOther with ⟨operation, changedBy, _, otherJson⟩
  rw [operation, changedBy] at kept
  rw [json, otherJson] at sameJson
  injection sameJson with fields
  simp only [List.cons.injEq, Prod.mk.injEq, Value.string.injEq, true_and] at fields
  rcases fields with ⟨_, _, sameOperation, _, _, sameChangedBy, _⟩
  rw [sameOperation, sameChangedBy] at kept
  exact kept

theorem shows_iff {call : Call} {sent entries : List RawAudit} {token : String}
    {views : List AuditView} (rendered : sent.mapM toAuditView = .ok views) :
    Shows [(call, .ok (.auditEntries sent token))]
        ((views.filter fun view => keeps view.changedBy view.operation).map AuditView.json)
        entries ↔
      entries = sent.filter fun entry => keeps entry.changedBy entry.operation := by
  constructor
  · rintro ⟨⟨_, _, _, isExchange, within⟩, shown, areShown, same⟩
    cases isExchange
    have areKept := keeps_of_rendered rendered areShown same
    have kept : entries.filter (fun entry => keeps entry.changedBy entry.operation) = entries :=
      List.filter_eq_self.mpr areKept
    rw [← kept]
    apply List.Sublist.eq_of_length
    · exact within.filter _
    · have lengths := congrArg List.length same
      have sentLength := (mapM_eq_ok_iff.mp (@rendered_filter keeps _ _ rendered)).length_eq
      have shownLength := (mapM_eq_ok_iff.mp areShown).length_eq
      rw [List.length_map, List.length_map] at lengths
      rw [kept]
      omega
  · rintro rfl
    exact ⟨⟨call, sent, token, rfl, List.filter_sublist⟩, _, rendered_filter rendered, rfl⟩

end Filter

theorem shows_all_iff {call : Call} {sent entries : List RawAudit} {token : String}
    {views : List AuditView} (rendered : sent.mapM toAuditView = .ok views) :
    Shows [(call, .ok (.auditEntries sent token))] (views.map AuditView.json) entries ↔
      entries = sent := by
  simpa using @shows_iff (fun _ _ => true) call sent entries token views rendered

end Entries

section Order

def newestFirst (rows : List AuditRow) : List AuditRow :=
  rows.insertionSort fun first second => second.auditId ≤ first.auditId

theorem sorted_newestFirst {rows : List AuditRow} (keyed : Keyed AuditRow.auditId rows) :
    (newestFirst rows).Pairwise fun first second =>
      Before (fun first second => second ≤ first) first.auditId second.auditId := by
  have total : Std.Total fun first second : AuditRow => second.auditId ≤ first.auditId :=
    ⟨fun first second => Int.le_total second.auditId first.auditId⟩
  have trans : IsTrans AuditRow fun first second => second.auditId ≤ first.auditId :=
    ⟨fun first second third below lower => Int.le_trans lower below⟩
  have ordered := List.pairwise_insertionSort
    (fun first second : AuditRow => second.auditId ≤ first.auditId) rows
  have distinct : Keyed AuditRow.auditId (newestFirst rows) :=
    ((List.perm_insertionSort _ _).pairwise_iff fun distinct => distinct.symm).mpr keyed
  exact ordered.and distinct

theorem mem_newestFirst {rows : List AuditRow} {row : AuditRow} :
    row ∈ newestFirst rows ↔ row ∈ rows :=
  List.mem_insertionSort _

/-- Rows of one table are known by their entries. -/
theorem map_rawEntry_eq_iff {audit first second : List AuditRow}
    (keyed : Keyed AuditRow.auditId audit)
    (firstSorted : first.Pairwise fun row other =>
      Before (fun first second => second ≤ first) row.auditId other.auditId)
    (secondSorted : second.Pairwise fun row other =>
      Before (fun first second => second ≤ first) row.auditId other.auditId)
    (firstIn : ∀ row ∈ first, row ∈ audit) (secondIn : ∀ row ∈ second, row ∈ audit) :
    first.map rawEntry = second.map rawEntry ↔ ∀ row, row ∈ first ↔ row ∈ second := by
  have antisymm : Std.Antisymm fun first second : ℤ => second ≤ first :=
    ⟨fun first second below above => Int.le_antisymm above below⟩
  have found {rows others : List AuditRow} (same : rows.map rawEntry = others.map rawEntry)
      (rowsIn : ∀ row ∈ rows, row ∈ audit) (othersIn : ∀ row ∈ others, row ∈ audit)
      {row : AuditRow} (mem : row ∈ rows) : row ∈ others := by
    have entryMem := List.mem_map_of_mem (f := rawEntry) mem
    rw [same] at entryMem
    rcases List.mem_map.mp entryMem with ⟨other, otherMem, sameEntry⟩
    have sameId : other.auditId = row.auditId := congrArg RawAudit.auditId sameEntry
    rw [← keyed.eq_of_key_eq (othersIn other otherMem) (rowsIn row mem) sameId]
    exact otherMem
  constructor
  · intro same row
    exact ⟨found same firstIn secondIn, found same.symm secondIn firstIn⟩
  · intro same
    rw [eq_of_sorted firstSorted secondSorted same]

end Order

section Requests

/-- A query parameter that was given as a text; an empty one stands for none. -/
def Supplies (query : Fields) (name text : String) : Prop :=
  Value.property query name = .string text ∨
    text = "" ∧ Value.property query name = .undefined

theorem Supplies.stringIf {query : Fields} {name text : String}
    (supplies : Supplies query name text) :
    stringIf (Value.property query name) = pure text := by
  rcases supplies with isText | ⟨rfl, absent⟩
  · rw [isText, Console.stringIf]
    by_cases empty : text = ""
    · simp [empty, Value.truthy]
    · simp [empty, Value.truthy, stringOf, Value.toText]
  · rw [absent]
    rfl

/-- The number that a parameter is sent as. -/
def sentNumber (text : String) : Number :=
  if text = "" then .finite 0 else .ofText text

theorem Supplies.numberIf {query : Fields} {name text : String}
    (supplies : Supplies query name text) :
    numberIf (Value.property query name) = pure (sentNumber text) := by
  rcases supplies with isText | ⟨rfl, absent⟩
  · rw [isText, Console.numberIf]
    by_cases empty : text = ""
    · simp [empty, Value.truthy, sentNumber]
    · simp [empty, Value.truthy, sentNumber, numberOf, Value.toNumber, Value.toText]
  · rw [absent]
    rfl

theorem Supplies.truthy {query : Fields} {name text : String}
    (supplies : Supplies query name text) :
    (Value.property query name).truthy = decide (text ≠ "") := by
  rcases supplies with isText | ⟨rfl, absent⟩
  · rw [isText]
    rfl
  · rw [absent]
    rfl

/-- A user who may read the audit of a service, through a console whose principal may view it. -/
structure MayBrowse (deployment : Deployment) (store : Store) (request : Request)
    (session : Session) (serviceName : String) : Prop where
  authentic : Authentic store request session
  hasBody : ∃ body, request.body = .ok body
  isService : Value.property request.query "service_name" = .string serviceName
  valid : LimitValidator.validateServiceName serviceName = .ok ()
  granted : Granted deployment.deps session.user .auditRead (some serviceName)
  mayView : ∃ principal, deployment.principal = .ok principal ∧
    principal.canView serviceName = true

theorem errorMiddleware_ne (thrown : Thrown) {name : String} (isOther : name ≠ "error")
    (value : Value) (rest : Fields) (status : ℕ) :
    errorMiddleware thrown ≠ .json status (.object ((name, value) :: rest)) := by
  intro same
  have sameBody := congrArg Response.body same
  cases thrown with
  | rpcError httpStatus message code =>
      simp only [errorMiddleware, Response.json, Value.object.injEq, List.cons.injEq,
        Prod.mk.injEq] at sameBody
      exact isOther sameBody.1.1.symm
  | error message =>
      simp only [errorMiddleware, Response.error, Response.json, Value.object.injEq,
        List.cons.injEq, Prod.mk.injEq] at sameBody
      exact isOther sameBody.1.1.symm

namespace World

variable {deployment : Deployment} {enforcer : Call → Reply} {visit : Visit}
  {plane : ControlPlane} {serviceName token : String} {key : Option LimitKey}
  {configId pageSize : Number} {since : Option WireTimestamp} {principal : Principal}
  {instant : Option (ℤ × ℤ)}

theorem listAuditEntries_eq {backend : Backend} {conditions : Conditions} {database : Database}
    {configId pageSize : ℤ} {since : Option Timestamp}
    (valid : LimitValidator.validateServiceName serviceName = .ok ())
    (mayView : principal.canView serviceName = true)
    (isInstant : LimitAdminService.instantOf since = .ok instant) :
    LimitAdminService.listAuditEntries backend principal conditions database serviceName key
        configId since pageSize token =
      (AuditRepository.list backend conditions serviceName key
        (if configId = 0 then none else some configId) instant
        (LimitValidator.clampPageSize pageSize).toNat token database).map fun page =>
          .auditEntries (page.items.map ProtoMappers.toAuditEntry) page.nextPageToken := by
  simp only [LimitAdminService.listAuditEntries, valid, Authorizer.requireViewer, mayView,
    isInstant, if_true]
  change (AuditRepository.list _ _ _ _ _ _ _ _ _).bind _ = _
  cases AuditRepository.list backend conditions serviceName key
    (if configId = 0 then none else some configId) instant
    (LimitValidator.clampPageSize pageSize).toNat token database <;> rfl

/-- What the repository answers is what the console receives. -/
theorem answer_listAuditEntries (isPrincipal : deployment.principal = .ok principal)
    (mayView : principal.canView serviceName = true)
    (valid : LimitValidator.validateServiceName serviceName = .ok ())
    (isInstant : LimitAdminService.instantOf
      (since.map fun instant => ⟨instant.seconds, instant.nanos⟩) = .ok instant) :
    answer deployment enforcer visit plane
        ⟨.listAuditEntries serviceName key configId since pageSize token, none⟩ =
      (match AuditRepository.list deployment.backend ⟨visit.now, fun _ => none⟩ serviceName key
          (if configId.toInt64 = 0 then none else some configId.toInt64) instant
          (LimitValidator.clampPageSize pageSize.toInt32).toNat token plane.database with
        | .ok page => .ok (.auditEntries (page.items.map rawEntry) page.nextPageToken)
        | .error error => .error (toServiceError error), plane) := by
  rw [answer_read isPrincipal rfl, LimitAdminService.read,
    listAuditEntries_eq valid mayView isInstant]
  cases AuditRepository.list deployment.backend ⟨visit.now, fun _ => none⟩ serviceName key
    (if configId.toInt64 = 0 then none else some configId.toInt64) instant
    (LimitValidator.clampPageSize pageSize.toInt32).toNat token plane.database with
  | error error => rfl
  | ok page => simp [Except.map, toReply, toMessage, Except.mapError, rawEntry]

end World

theorem async_pure_bind {α β : Type} (value : α) (next : α → Async β) :
    (pure value >>= next) = next value := rfl

/-- The outcome of a request for entries, by the reply to its call. -/
def entriesOutcome (respond : List AuditView → String → Response) : Reply → Except Thrown Response
  | .ok (.auditEntries entries token) =>
      (entries.mapM toAuditView).map fun views => respond views token
  | .ok _ => .error unexpectedReply
  | .error error => .error (rpcError error)

/-- A reply to a request for entries, by what the repository answers. -/
def entriesReply : Except AppException (Page AuditRow) → Reply
  | .ok page => .ok (.auditEntries (page.items.map rawEntry) page.nextPageToken)
  | .error error => .error (toServiceError error)

/-- The response that leaves the error middleware. -/
def settled : Except Thrown Response → Response
  | .ok response => response
  | .error thrown => errorMiddleware thrown

variable {deployment : Deployment} {enforcer : Call → Reply} {world : World} {visit : Visit}
  {session : Session}

theorem exchange_of_converse {body : Fields} {exchanges : List (Call × Reply)}
    {outcome : Except Thrown Response} {later : ControlPlane} {store : Store}
    (authentic : Authentic world.store visit.request session)
    (hasBody : visit.request.body = .ok body)
    (behindAuth : visit.request.route.behindAuth = true)
    (isApi : (api deployment.deps session visit.request body).converse
      (World.answer deployment enforcer visit) visit.moments 0 world.plane world.store =
        ⟨exchanges, outcome, later, store⟩) :
    world.exchange deployment enforcer visit =
      ⟨exchanges, .ok (settled outcome), later, store⟩ := by
  rw [World.exchange, converse_app authentic hasBody behindAuth, isApi]
  cases outcome <;> rfl

/-- A response that shows entries is made from a page of the listing. -/
theorem shows_of_settled {result : Except AppException (Page AuditRow)}
    {respond : List AuditView → String → Response} {shown : List Value}
    {fields : Fields}
    (isResponse : settled (entriesOutcome respond (entriesReply result)) =
      .json 200 (.object (("entries", .array shown) :: fields))) :
    ∃ items next views, result = .ok ⟨items, next⟩ ∧
      (items.map rawEntry).mapM toAuditView = .ok views ∧
      respond views next = .json 200 (.object (("entries", .array shown) :: fields)) := by
  cases result with
  | error error =>
      change errorMiddleware (rpcError (toServiceError error)) = _ at isResponse
      exact absurd isResponse (errorMiddleware_ne _ (by decide) _ _ _)
  | ok page =>
      cases rendered : (page.items.map rawEntry).mapM toAuditView with
      | error thrown =>
          simp only [entriesReply, entriesOutcome, rendered] at isResponse
          exact absurd isResponse (errorMiddleware_ne _ (by decide) _ _ _)
      | ok views =>
          simp only [entriesReply, entriesOutcome, rendered] at isResponse
          exact ⟨page.items, page.nextPageToken, views, rfl, rendered, isResponse⟩

end Requests

section Sample

/-- An entry of a limit for queries to the search service. -/
def sampleAuditRow (auditId configId : ℤ) (customerId : String) : AuditRow :=
  ⟨auditId, configId, .insert, none,
    some (Jsonb.ofRow ⟨configId, "search", customerId, "query", 10, .minute⟩), "alice@corp", 5000⟩

def sampleAuditWorld (audit : List AuditRow) : World :=
  ⟨⟨fun _ => ⟨none⟩, { Database.empty with audit := audit }⟩, sampleStore, fun _ => none⟩

def sampleAuditDeployment : Deployment :=
  { System.sampleDeployment "svc:quotaui" with
    deps := { sampleDeps with
      dateParse := fun text => if text = "1970-01-01T00:00:00.005Z" then some 5 else none } }

/-- The operator asks about the search service. -/
def sampleAuditVisit (route : Route) (query : Fields) : Visit :=
  ⟨{ sampleRequest route "alice" [] with query := ("service_name", .string "search") :: query },
    sampleMoments, 0, 5⟩

theorem sampleAuditVisit_may (audit : List AuditRow) {route : Route} (query : Fields)
    (isGet : route.method = .get) :
    MayBrowse sampleAuditDeployment (sampleAuditWorld audit).store
      (sampleAuditVisit route query).request operatorSession "search" := by
  have noToken : route.method.needsCsrf = false := by
    rw [isGet]
    rfl
  have live : SessionStore.get sampleStore (.string "sid-alice") = some operatorSession := by
    decide +kernel
  refine ⟨⟨live, ?_⟩, ⟨[], rfl⟩, rfl, by decide +kernel, rfl, ?_⟩
  · simp [csrfOk, sampleAuditVisit, sampleRequest, noToken]
  · exact ⟨⟨"svc:quotaui", [], [], true⟩, by decide +kernel, by decide +kernel⟩

/-- The number of entries that a response shows. -/
def shownCount : Except Thrown Response → Option ℕ
  | .ok ⟨200, .object (("entries", .array shown) :: _), _⟩ => some shown.length
  | _ => none

end Sample

end RateLimiter.Console
