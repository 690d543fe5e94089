import RateLimiter.Console.AuditPages

/-!
# The audit browser

`GET /api/audit`. The console sends the control plane what the message has
fields for and filters the pages that come back by the rest. A tuple is sent
only if both of its parts are given, and an identity goes through a double.
Where this and what the user asks for select the same entries, following the
tokens lists exactly these.
-/

namespace RateLimiter.Console

open EventLoop EventLoop.Handler JavaScript Keyset Management Query

/-- The parameters of `GET /api/audit`. -/
structure AuditParams where
  serviceName : String
  customerId : String
  rateLimitId : String
  configId : String
  since : String
  changedBy : String
  operation : String
  pageSize : String

namespace AuditParams

structure Given (params : AuditParams) (query : Fields) : Prop where
  customerId : Supplies query "customer_id" params.customerId
  rateLimitId : Supplies query "rate_limit_id" params.rateLimitId
  configId : Supplies query "config_id" params.configId
  since : Supplies query "since" params.since
  changedBy : Supplies query "changed_by" params.changedBy
  operation : Supplies query "operation" params.operation
  pageSize : Supplies query "page_size" params.pageSize

/-- The identity is a positive integer, and the time an instant that is not before the epoch. -/
structure WellFormed (deps : Deps) (params : AuditParams) : Prop where
  configId : params.configId = "" ∨
    ∃ number : ℤ, 0 < number ∧ Number.literal? params.configId = some (number : ℚ)
  since : params.since = "" ∨ ∃ millis, 0 ≤ millis ∧ deps.dateParse params.since = some millis

/-- The filter on what the message has no fields for; the case of the operation does not matter. -/
def keeps (params : AuditParams) (changedBy operation : String) : Bool :=
  (params.changedBy = "" || changedBy = params.changedBy) &&
    (params.operation = "" || operation = toUpperCase params.operation)

/-- What the user asks for: every parameter that is supplied is satisfied. -/
def asks (deps : Deps) (params : AuditParams) (row : AuditRow) : Bool :=
  row.snapshotField "service_name" = some params.serviceName &&
    (params.customerId = "" || row.snapshotField "customer_id" = some params.customerId) &&
    (params.rateLimitId = "" || row.snapshotField "rate_limit_id" = some params.rateLimitId) &&
    (params.configId = "" || Number.literal? params.configId = some (row.configId : ℚ)) &&
    (params.since = "" ||
      (deps.dateParse params.since).any fun millis => millis * 1000 ≤ row.changedAt) &&
    params.keeps row.changedBy row.operation.text

/-- The tuple is sent when both of its parts are supplied. -/
def sentKey (params : AuditParams) : Option LimitKey :=
  if params.customerId ≠ "" ∧ params.rateLimitId ≠ "" then
    some ⟨params.serviceName, params.customerId, params.rateLimitId⟩
  else none

def sentConfigId (params : AuditParams) : ℤ := (sentNumber params.configId).toInt64

def sentSince (deps : Deps) (params : AuditParams) : Option ℤ :=
  if params.since = "" then none else (deps.dateParse params.since).map (· * 1000)

/-- The filters that the control plane is sent; zero is no identity. -/
def filters (deps : Deps) (params : AuditParams) : AuditRepository.Filters :=
  ⟨params.serviceName, params.sentKey,
    if params.sentConfigId = 0 then none else some params.sentConfigId, params.sentSince deps⟩

/-- The control plane lists an entry for these parameters. -/
def fetches (deps : Deps) (params : AuditParams) (row : AuditRow) : Bool :=
  (params.filters deps).accepts AuditRepository.startCursor row

/-- The pages of the console hold an entry for these parameters. -/
def lists (deps : Deps) (params : AuditParams) (row : AuditRow) : Bool :=
  params.fetches deps row && params.keeps row.changedBy row.operation.text

end AuditParams

/-- A page of the audit as the response holds it. -/
def auditPage (shown : List Value) (token : Value) : Response :=
  .json 200 (.object [("entries", .array shown), ("next_page_token", token)])

section Pages

variable {State : Type} {backend : State → Call → Reply × State} {deps : Deps} {session : Session}
  {moments : ℕ → Moment} {turn : ℕ} {state later : State} {store : Store} {query : Fields}
  {token : String} {reply : Reply}

def AuditParams.respond (params : AuditParams) (views : List AuditView) (token : String) :
    Response :=
  auditPage ((views.filter fun view => params.keeps view.changedBy view.operation).map
    AuditView.json) (nextPageToken token)

theorem keyFilter_eq {params : AuditParams} (given : params.Given query) :
    AuditRouter.keyFilter query params.serviceName = pure params.sentKey := by
  have isCustomer := given.customerId.stringIf
  have isRateLimit := given.rateLimitId.stringIf
  simp only [AuditRouter.keyFilter, given.customerId.truthy, given.rateLimitId.truthy,
    AuditParams.sentKey, Bool.and_eq_true, decide_eq_true_eq]
  split
  · rename_i both
    simp only [stringIf, given.customerId.truthy, given.rateLimitId.truthy, both.1, both.2,
      not_false_eq_true, decide_true, if_true, ne_eq] at isCustomer isRateLimit
    rw [isCustomer, isRateLimit]
    rfl
  · rfl

variable (moments turn store) in
theorem converse_list {params : AuditParams}
    (granted : Granted deps session.user .auditRead (some params.serviceName))
    (isService : Value.property query "service_name" = .string params.serviceName)
    (named : params.serviceName ≠ "") (given : params.Given query)
    (isToken : Supplies query "page_token" token)
    (isReply : backend state ⟨.listAuditEntries params.serviceName params.sentKey
      (sentNumber params.configId) (AuditRouter.isoToTimestamp deps params.since)
      (sentNumber params.pageSize) token, none⟩ = (reply, later)) :
    ∃ call, (AuditRouter.list deps session query).converse backend moments turn state store =
      ⟨[(call, reply)], entriesOutcome params.respond reply, later, store⟩ := by
  have service : stringOrEmpty (Value.property query "service_name") =
      pure params.serviceName := by
    rw [isService]
    rfl
  refine ⟨⟨.listAuditEntries params.serviceName params.sentKey (sentNumber params.configId)
    (AuditRouter.isoToTimestamp deps params.since) (sentNumber params.pageSize) token, none⟩, ?_⟩
  simp only [AuditRouter.list, service, async_pure_bind, named, if_false, guard_of_granted granted,
    keyFilter_eq given, given.configId.numberIf, given.since.stringIf, given.pageSize.numberIf,
    isToken.stringIf, converse_bind, converse_call, isReply]
  cases reply with
  | error failure => rfl
  | ok message =>
      cases message with
      | auditEntries entries next =>
          simp only [given.changedBy.stringIf, given.operation.stringIf, async_pure_bind,
            entriesOutcome, Conversation.andThen, Except.mapError]
          cases entries.mapM toAuditView <;> rfl
      | _ => rfl

end Pages

/-- What `Date.parse` gives is the time of a `Date`, and the driver sends such times exactly. -/
structure ExactInstants (deployment : Deployment) : Prop where
  dateParse_le : ∀ {text millis}, deployment.deps.dateParse text = some millis →
    millis ≤ 8640000000000000
  bindTimestamp_eq : ∀ {seconds nanos : ℤ}, 0 ≤ seconds → seconds ≤ 8640000000000 → 0 ≤ nanos →
    nanos < 1000000000 → 1000 ∣ nanos →
    deployment.backend.bindTimestamp seconds nanos = .ok (seconds * 1000000 + nanos / 1000)

/-- The visit that asks for the page of a token. -/
def Visit.withToken (visit : Visit) (token : String) : Visit :=
  { visit with request :=
    { visit.request with query := ("page_token", .string token) :: visit.request.query } }

/-- The first entries and those behind each token in turn, up to a page without one. -/
inductive Browsed (page : String → Conversation ControlPlane Store Call Reply Thrown Response) :
    String → List RawAudit → Prop where
  | last {token : String} {shown : List Value} {entries : List RawAudit}
      (answered : (page token).outcome = .ok (auditPage shown .null))
      (shows : Shows (page token).exchanges shown entries) : Browsed page token entries
  | next {token following : String} {shown : List Value} {entries rest : List RawAudit}
      (answered : (page token).outcome = .ok (auditPage shown (.string following)))
      (shows : Shows (page token).exchanges shown entries)
      (browsed : Browsed page following rest) : Browsed page token (entries ++ rest)

/-- The first page shows no more than there is to browse. -/
theorem Browsed.shownCount_le
    {page : String → Conversation ControlPlane Store Call Reply Thrown Response} {token : String}
    {entries : List RawAudit} (browsed : Browsed page token entries) {count : ℕ}
    (isCount : shownCount (page token).outcome = some count) : count ≤ entries.length := by
  cases browsed with
  | last answered shows =>
      rw [answered] at isCount
      have shown := Option.some.inj isCount
      rw [← shown, shows.length_eq]
  | next answered shows browsed =>
      rw [answered] at isCount
      have shown := Option.some.inj isCount
      rw [← shown, shows.length_eq, List.length_append]
      exact Nat.le_add_right _ _

namespace AuditParams

variable {deployment : Deployment} {params : AuditParams}

/-- An instant that is not before the epoch arrives as itself. -/
theorem since_arrives (exact : ExactInstants deployment)
    (wellFormed : params.WellFormed deployment.deps) :
    ∃ instant, LimitAdminService.instantOf ((AuditRouter.isoToTimestamp deployment.deps
        params.since).map fun instant => ⟨instant.seconds, instant.nanos⟩) = .ok instant ∧
      AuditRepository.timestampFrom instant = .ok () ∧
      (instant.mapM fun instant => deployment.backend.bindTimestamp instant.1 instant.2) =
        .ok (params.sentSince deployment.deps) := by
  by_cases absent : params.since = ""
  · refine ⟨none, ?_, rfl, ?_⟩
    · simp [AuditRouter.isoToTimestamp, absent, LimitAdminService.instantOf]
    · rw [sentSince, if_pos absent]
      rfl
  · rcases wellFormed.since.resolve_left absent with ⟨millis, nonneg, isMillis⟩
    have upper := exact.dateParse_le isMillis
    have remainder : millis.tmod 1000 = millis % 1000 := Int.tmod_eq_emod_of_nonneg nonneg
    refine ⟨some (millis / 1000, millis % 1000 * 1000000), ?_, ?_, ?_⟩
    · simp only [AuditRouter.isoToTimestamp, absent, if_false, isMillis, Option.map_some,
        remainder, LimitAdminService.instantOf]
      rw [if_pos (by omega)]
      congr 3 <;> omega
    · rw [AuditRepository.timestampFrom, if_pos (by omega)]
    · have bound := exact.bindTimestamp_eq (show 0 ≤ millis / 1000 by omega) (by omega)
        (show 0 ≤ millis % 1000 * 1000000 by omega) (by omega) (by omega)
      have whole : millis / 1000 * 1000000 + millis % 1000 * 1000000 / 1000 = millis * 1000 := by
        omega
      rw [whole] at bound
      simp only [Option.mapM_some, bound, sentSince, absent, if_false, isMillis, Option.map_some]
      rfl

/-- The listing of the control plane that the pages of the console are cut from. -/
def listing (deployment : Deployment) (params : AuditParams) (instant : Option (ℤ × ℤ)) :
    Listing AuditRow :=
  fun token snapshot => AuditRepository.list deployment.backend snapshot.conditions
    params.serviceName params.sentKey
    (if params.sentConfigId = 0 then none else some params.sentConfigId) instant
    (LimitValidator.clampPageSize (sentNumber params.pageSize).toInt32).toNat token
    snapshot.database

theorem Given.withToken {query : Fields} (given : params.Given query) (token : String) :
    params.Given (("page_token", .string token) :: query) := by
  have other {name text : String} (isOther : "page_token" ≠ name)
      (supplies : Supplies query name text) :
      Supplies (("page_token", .string token) :: query) name text := by
    simpa only [Supplies, Value.property, List.find?_cons, isOther, decide_false] using supplies
  constructor
  · exact other (by decide) given.customerId
  · exact other (by decide) given.rateLimitId
  · exact other (by decide) given.configId
  · exact other (by decide) given.since
  · exact other (by decide) given.changedBy
  · exact other (by decide) given.operation
  · exact other (by decide) given.pageSize

end AuditParams

section Page

variable {deployment : Deployment} {enforcer : Call → Reply} {world : World} {visit : Visit}
  {session : Session} {params : AuditParams} {instant : Option (ℤ × ℤ)}

variable (enforcer) in
theorem exchange_page (may : MayBrowse deployment world.store visit.request session
      params.serviceName) (given : params.Given visit.request.query)
    (isRoute : visit.request.route = .listAudit)
    (isInstant : LimitAdminService.instantOf ((AuditRouter.isoToTimestamp deployment.deps
      params.since).map fun instant => ⟨instant.seconds, instant.nanos⟩) = .ok instant)
    (token : String) :
    let reply := entriesReply (params.listing deployment instant token
      ⟨⟨visit.now, fun _ => none⟩, world.plane.database⟩)
    ∃ call, world.exchange deployment enforcer (visit.withToken token) =
      ⟨[(call, reply)], .ok (settled (entriesOutcome params.respond reply)), world.plane,
        world.store⟩ := by
  intro reply
  rcases may.hasBody with ⟨body, hasBody⟩
  rcases may.mayView with ⟨principal, isPrincipal, mayView⟩
  have named : params.serviceName ≠ "" :=
    (LimitValidator.validateText_eq_ok_iff.mp may.valid).1
  have isService : Value.property (visit.withToken token).request.query "service_name" =
      .string params.serviceName := by
    rw [← may.isService]
    rfl
  have isToken : Supplies (visit.withToken token).request.query "page_token" token := Or.inl rfl
  have isReply : World.answer deployment enforcer (visit.withToken token) world.plane
      ⟨.listAuditEntries params.serviceName params.sentKey (sentNumber params.configId)
        (AuditRouter.isoToTimestamp deployment.deps params.since) (sentNumber params.pageSize)
        token, none⟩ = (reply, world.plane) := by
    rw [World.answer_listAuditEntries isPrincipal mayView may.valid isInstant]
    rfl
  rcases converse_list visit.moments 0 world.store may.granted isService named
    (given.withToken token) isToken isReply with ⟨call, isPage⟩
  refine ⟨call, ?_⟩
  have authentic : Authentic world.store (visit.withToken token).request session := may.authentic
  have route : (visit.withToken token).request.route = .listAudit := isRoute
  apply exchange_of_converse authentic hasBody
  · rw [route]
    rfl
  · simp only [api, route]
    exact isPage

theorem filter_rawEntry (keeps : String → String → Bool) (rows : List AuditRow) :
    (rows.map rawEntry).filter (fun entry => keeps entry.changedBy entry.operation) =
      (rows.filter fun row => keeps row.changedBy row.operation.text).map rawEntry := by
  rw [List.filter_map]
  rfl

/-- A page of the console holds what its filter keeps of a page of the control plane. -/
theorem page_shows_iff {call : Call} {result : Except AppException (Page AuditRow)}
    {entries : List RawAudit} {token : Value} :
    (∃ shown, settled (entriesOutcome params.respond (entriesReply result)) =
        auditPage shown token ∧ Shows [(call, entriesReply result)] shown entries) ↔
      ∃ items next, result = .ok ⟨items, next⟩ ∧ token = nextPageToken next ∧
        (∀ row ∈ items, Dated row) ∧
        entries = (items.filter fun row =>
          params.keeps row.changedBy row.operation.text).map rawEntry := by
  constructor
  · rintro ⟨shown, isPage, shows⟩
    rcases shows_of_settled isPage with ⟨items, next, views, rfl, rendered, isResponse⟩
    simp only [AuditParams.respond, auditPage, Response.json, Response.mk.injEq,
      Value.object.injEq, List.cons.injEq, Prod.mk.injEq, Value.array.injEq, true_and,
      and_true] at isResponse
    rcases isResponse with ⟨rfl, rfl⟩
    refine ⟨items, next, rfl, rfl, exists_views_iff.mp ⟨views, rendered⟩, ?_⟩
    rw [← filter_rawEntry]
    exact (shows_iff rendered).mp shows
  · rintro ⟨items, next, rfl, rfl, dated, isEntries⟩
    rcases exists_views_iff.mpr dated with ⟨views, rendered⟩
    rw [← filter_rawEntry] at isEntries
    refine ⟨_, ?_, (shows_iff rendered).mpr isEntries⟩
    simp only [entriesReply, entriesOutcome, rendered]
    rfl

theorem nextPageToken_eq_null {token : String} : nextPageToken token = .null ↔ token = "" := by
  by_cases noToken : token = "" <;> simp [nextPageToken, noToken]

theorem nextPageToken_eq_string {token following : String} :
    nextPageToken token = .string following ↔ token ≠ "" ∧ token = following := by
  by_cases noToken : token = "" <;> simp [nextPageToken, noToken]

section Walk

variable (may : MayBrowse deployment world.store visit.request session params.serviceName)
  (given : params.Given visit.request.query) (isRoute : visit.request.route = .listAudit)
  (isInstant : LimitAdminService.instantOf ((AuditRouter.isoToTimestamp deployment.deps
    params.since).map fun instant => ⟨instant.seconds, instant.nanos⟩) = .ok instant)

include may given isRoute isInstant

theorem page_iff {token : String} {following : Value} {entries : List RawAudit} :
    (∃ shown, (world.exchange deployment enforcer (visit.withToken token)).outcome =
          .ok (auditPage shown following) ∧
        Shows (world.exchange deployment enforcer (visit.withToken token)).exchanges shown
          entries) ↔
      ∃ items next, params.listing deployment instant token
          ⟨⟨visit.now, fun _ => none⟩, world.plane.database⟩ = .ok ⟨items, next⟩ ∧
        following = nextPageToken next ∧ (∀ row ∈ items, Dated row) ∧
        entries = (items.filter fun row =>
          params.keeps row.changedBy row.operation.text).map rawEntry := by
  rcases exchange_page enforcer may given isRoute isInstant token with ⟨call, isPage⟩
  simp only [isPage, Except.ok.injEq]
  exact page_shows_iff

/-- Following tokens at the console is following them at the control plane. -/
theorem browsed_iff {token : String} {entries : List RawAudit} :
    Browsed (fun token => world.exchange deployment enforcer (visit.withToken token)) token
        entries ↔
      ∃ rows, (∃ count, TokenWalk (params.listing deployment instant) token (List.replicate count
          ⟨⟨visit.now, fun _ => none⟩, world.plane.database⟩) rows) ∧
        (∀ row ∈ rows, Dated row) ∧
        entries = (rows.filter fun row =>
          params.keeps row.changedBy row.operation.text).map rawEntry := by
  constructor
  · intro browsed
    induction browsed with
    | @last token shown entries answered shows =>
        rcases (page_iff may given isRoute isInstant).mp ⟨shown, answered, shows⟩ with
          ⟨items, next, listed, isToken, dated, rfl⟩
        rcases nextPageToken_eq_null.mp isToken.symm with rfl
        exact ⟨items, ⟨1, .last listed⟩, dated, rfl⟩
    | @next token following shown entries rest answered shows browsed ih =>
        rcases (page_iff may given isRoute isInstant).mp ⟨shown, answered, shows⟩ with
          ⟨items, next, listed, isToken, dated, rfl⟩
        rcases nextPageToken_eq_string.mp isToken.symm with ⟨more, rfl⟩
        rcases ih with ⟨rows, ⟨count, walk⟩, restDated, rfl⟩
        refine ⟨items ++ rows, ⟨count + 1, .next listed more walk⟩, ?_, ?_⟩
        · exact List.forall_mem_append.mpr ⟨dated, restDated⟩
        · rw [List.filter_append, List.map_append]
  · rintro ⟨rows, ⟨count, walk⟩, dated, rfl⟩
    have sameSnapshot : ∀ snapshot ∈ List.replicate count
        (⟨⟨visit.now, fun _ => none⟩, world.plane.database⟩ : Snapshot),
        snapshot = ⟨⟨visit.now, fun _ => none⟩, world.plane.database⟩ :=
      fun _ => List.eq_of_mem_replicate
    -- only that all snapshots are the same is kept of the list
    generalize List.replicate count _ = snapshots at walk sameSnapshot
    induction walk with
    | @last token snapshot items answered =>
        rw [sameSnapshot snapshot (List.mem_singleton_self _)] at answered
        rcases (page_iff may given isRoute isInstant).mpr
          ⟨items, "", answered, rfl, dated, rfl⟩ with ⟨shown, isPage, shows⟩
        exact .last isPage shows
    | @next token following snapshot items snapshots rest answered more walk ih =>
        rw [sameSnapshot snapshot List.mem_cons_self] at answered
        rcases List.forall_mem_append.mp dated with ⟨pageDated, restDated⟩
        rcases (page_iff may given isRoute isInstant).mpr
          ⟨items, following, answered, (nextPageToken_eq_string.mpr ⟨more, rfl⟩).symm, pageDated,
            rfl⟩ with ⟨shown, isPage, shows⟩
        rw [List.filter_append, List.map_append]
        exact .next isPage shows (ih restDated fun snapshot mem =>
          sameSnapshot snapshot (List.mem_cons_of_mem _ mem))

end Walk

end Page

namespace AuditParams

variable {deps : Deps} {params : AuditParams} {audit : List AuditRow}

/-- What is sent and what is asked for select the same entries, and all of them can be shown. -/
structure Holds (deps : Deps) (params : AuditParams) (audit : List AuditRow) : Prop where
  /-- A tuple that is sent is one that the database can look for. -/
  texts : params.customerId ≠ "" → params.rateLimitId ≠ "" →
    isPostgresText params.customerId = true ∧ isPostgresText params.rateLimitId = true
  /-- The time of each entry that is fetched can be shown. -/
  dated : ∀ row ∈ audit, params.fetches deps row = true → Dated row
  /-- One part of a tuple alone is not sent, so every entry has to have it anyway. -/
  tuple : ∀ row ∈ audit, params.lists deps row = true →
    (params.customerId = "" ∨ row.snapshotField "customer_id" = some params.customerId) ∧
      (params.rateLimitId = "" ∨ row.snapshotField "rate_limit_id" = some params.rateLimitId)
  /-- The identity is sent as it is, or there are no entries of either. -/
  configId : params.configId ≠ "" →
    Number.literal? params.configId = some (params.sentConfigId : ℚ) ∨
      ∀ row ∈ audit, params.lists deps row = false ∧ params.asks deps row = false
  /-- The largest identity is not listed. -/
  last : ∀ row ∈ audit, params.asks deps row = true → row.auditId ≠ AuditRepository.startCursor

theorem asks_iff {row : AuditRow} :
    params.asks deps row = true ↔
      row.snapshotField "service_name" = some params.serviceName ∧
      (params.customerId = "" ∨ row.snapshotField "customer_id" = some params.customerId) ∧
      (params.rateLimitId = "" ∨ row.snapshotField "rate_limit_id" = some params.rateLimitId) ∧
      (params.configId = "" ∨ Number.literal? params.configId = some (row.configId : ℚ)) ∧
      (params.since = "" ∨ (deps.dateParse params.since).any
        fun millis => decide (millis * 1000 ≤ row.changedAt)) ∧
      params.keeps row.changedBy row.operation.text = true := by
  simp only [asks, Bool.and_eq_true, Bool.or_eq_true, decide_eq_true_eq, and_assoc]

theorem lists_iff (wellFormed : params.WellFormed deps) {row : AuditRow} :
    params.lists deps row = true ↔
      row.auditId < AuditRepository.startCursor ∧
      row.snapshotField "service_name" = some params.serviceName ∧
      (params.customerId ≠ "" → params.rateLimitId ≠ "" →
        row.snapshotField "customer_id" = some params.customerId ∧
          row.snapshotField "rate_limit_id" = some params.rateLimitId) ∧
      (params.sentConfigId = 0 ∨ row.configId = params.sentConfigId) ∧
      (params.since = "" ∨ (deps.dateParse params.since).any
        fun millis => decide (millis * 1000 ≤ row.changedAt)) ∧
      params.keeps row.changedBy row.operation.text = true := by
  have config : ((if params.sentConfigId = 0 then none else some params.sentConfigId).all
      fun configId => decide (row.configId = configId)) = true ↔
        params.sentConfigId = 0 ∨ row.configId = params.sentConfigId := by
    by_cases absent : params.sentConfigId = 0 <;> simp [absent]
  have key : (params.sentKey.all fun key =>
      decide (row.snapshotField "customer_id" = some key.customerId) &&
        decide (row.snapshotField "rate_limit_id" = some key.rateLimitId)) = true ↔
        (params.customerId ≠ "" → params.rateLimitId ≠ "" →
          row.snapshotField "customer_id" = some params.customerId ∧
            row.snapshotField "rate_limit_id" = some params.rateLimitId) := by
    by_cases both : params.customerId ≠ "" ∧ params.rateLimitId ≠ ""
    · simp [sentKey, both.1, both.2]
    · rw [sentKey, if_neg both]
      simp only [Option.all_none, true_iff]
      exact fun customerId rateLimitId => absurd ⟨customerId, rateLimitId⟩ both
  have since : ((params.sentSince deps).all fun since => decide (since ≤ row.changedAt)) = true ↔
      (params.since = "" ∨ (deps.dateParse params.since).any
        fun millis => decide (millis * 1000 ≤ row.changedAt)) := by
    by_cases absent : params.since = ""
    · simp [sentSince, absent]
    · rcases wellFormed.since.resolve_left absent with ⟨millis, _, isMillis⟩
      simp [sentSince, absent, isMillis]
  simp only [lists, fetches, AuditRepository.Filters.accepts_eq,
    AuditRepository.Filters.selects, filters, Bool.and_eq_true, decide_eq_true_eq, config, key,
    since]
  constructor
  · rintro ⟨⟨below, ⟨⟨service, isConfig⟩, isKey⟩, isSince⟩, kept⟩
    exact ⟨below, service, isKey, isConfig, isSince, kept⟩
  · rintro ⟨below, service, isKey, isConfig, isSince, kept⟩
    exact ⟨⟨below, ⟨⟨service, isConfig⟩, isKey⟩, isSince⟩, kept⟩

/-- A number is sent exactly when the parameter is given: zero says that it is not. -/
theorem sentConfigId_eq_zero_iff (wellFormed : params.WellFormed deps) :
    params.sentConfigId = 0 ↔ params.configId = "" := by
  constructor
  · intro unsent
    by_contra present
    rcases wellFormed.configId.resolve_left present with ⟨number, positive, isNumber⟩
    have sentPos := Number.toInt64_ofText_pos isNumber positive
    rw [sentConfigId, sentNumber, if_neg present] at unsent
    omega
  · intro absent
    simp [sentConfigId, sentNumber, absent, Number.toInt64, Number.truncate]

/-- A number sent as it is written selects the configuration it is written for. -/
theorem config_iff_of_faithful (wellFormed : params.WellFormed deps) {row : AuditRow}
    (faithful : params.configId ≠ "" →
      Number.literal? params.configId = some (params.sentConfigId : ℚ)) :
    (params.configId = "" ∨ Number.literal? params.configId = some (row.configId : ℚ)) ↔
      (params.sentConfigId = 0 ∨ row.configId = params.sentConfigId) := by
  rw [sentConfigId_eq_zero_iff wellFormed]
  refine or_congr_right' fun present => ?_
  rw [faithful present, Option.some.injEq, Int.cast_inj]
  exact eq_comm

/-- Entry by entry, the conditions say when the pages hold what is asked for. -/
theorem asks_iff_lists (wellFormed : params.WellFormed deps)
    (identity : ∀ row ∈ audit, row.auditId ≤ AuditRepository.startCursor) :
    (∀ row ∈ audit, params.asks deps row = true ↔ params.lists deps row = true) ↔
      (∀ row ∈ audit, params.lists deps row = true →
        (params.customerId = "" ∨ row.snapshotField "customer_id" = some params.customerId) ∧
          (params.rateLimitId = "" ∨
            row.snapshotField "rate_limit_id" = some params.rateLimitId)) ∧
      (params.configId ≠ "" →
        Number.literal? params.configId = some (params.sentConfigId : ℚ) ∨
          ∀ row ∈ audit, params.lists deps row = false ∧ params.asks deps row = false) ∧
      ∀ row ∈ audit, params.asks deps row = true →
        row.auditId ≠ AuditRepository.startCursor := by
  constructor
  · intro same
    refine ⟨?_, ?_, ?_⟩
    · intro row mem listed
      have asked := asks_iff.mp ((same row mem).mpr listed)
      exact ⟨asked.2.1, asked.2.2.1⟩
    · intro present
      by_cases faithful : Number.literal? params.configId = some (params.sentConfigId : ℚ)
      · exact Or.inl faithful
      · have neither : ∀ row ∈ audit, ¬params.lists deps row = true := by
          intro row mem listed
          have asked := (asks_iff.mp ((same row mem).mpr listed)).2.2.2.1.resolve_left present
          have sent : params.sentConfigId ≠ 0 :=
            fun unsent => present ((sentConfigId_eq_zero_iff wellFormed).mp unsent)
          have config := ((lists_iff wellFormed).mp listed).2.2.2.1.resolve_left sent
          rw [config] at asked
          exact faithful asked
        refine Or.inr fun row mem => ?_
        have unlisted := neither row mem
        exact ⟨Bool.eq_false_of_not_eq_true unlisted,
          Bool.eq_false_of_not_eq_true fun asked => unlisted ((same row mem).mp asked)⟩
    · intro row mem asked
      have below := ((lists_iff wellFormed).mp ((same row mem).mp asked)).1
      omega
  · rintro ⟨tuple, config, last⟩ row mem
    have sameConfig : (params.lists deps row = true ∨ params.asks deps row = true) →
        ((params.configId = "" ∨ Number.literal? params.configId = some (row.configId : ℚ)) ↔
          (params.sentConfigId = 0 ∨ row.configId = params.sentConfigId)) := by
      intro either
      apply config_iff_of_faithful wellFormed
      intro present
      -- A number the sending changes is allowed only when no entry is asked for or listed.
      apply (config present).resolve_right
      intro neither
      rcases neither row mem with ⟨unlisted, unasked⟩
      simp [unlisted, unasked] at either
    constructor
    · intro asked
      have config := sameConfig (Or.inr asked)
      have below : row.auditId < AuditRepository.startCursor :=
        lt_of_le_of_ne (identity row mem) (last row mem asked)
      rcases asks_iff.mp asked with ⟨service, customer, rateLimit, isConfig, since, kept⟩
      apply (lists_iff wellFormed).mpr
      refine ⟨below, service, ?_, config.mp isConfig, since, kept⟩
      exact fun hasCustomer hasRateLimit =>
        ⟨customer.resolve_left hasCustomer, rateLimit.resolve_left hasRateLimit⟩
    · intro listed
      have config := sameConfig (Or.inl listed)
      rcases tuple row mem listed with ⟨customer, rateLimit⟩
      rcases (lists_iff wellFormed).mp listed with ⟨_, service, _, isConfig, since, kept⟩
      exact asks_iff.mpr ⟨service, customer, rateLimit, config.mpr isConfig, since, kept⟩

/-- What the pages hold is what is asked for when the two agree entry by entry. -/
theorem asked_eq_kept_iff (keyed : Keyed AuditRow.auditId audit) {rows : List AuditRow}
    (sorted : rows.Pairwise fun first second =>
      Before (fun first second => second ≤ first) first.auditId second.auditId)
    (exactly : ∀ row, row ∈ rows ↔ row ∈ audit ∧ params.fetches deps row = true) :
    (newestFirst (audit.filter (params.asks deps))).map rawEntry =
        (rows.filter fun row => params.keeps row.changedBy row.operation.text).map rawEntry ↔
      ∀ row ∈ audit, params.asks deps row = true ↔ params.lists deps row = true := by
  rw [map_rawEntry_eq_iff keyed (sorted_newestFirst (keyed.filter _)) (sorted.filter _)
    (fun row mem => List.mem_of_mem_filter (mem_newestFirst.mp mem))
    (fun row mem => ((exactly row).mp (List.mem_of_mem_filter mem)).1)]
  simp only [mem_newestFirst, List.mem_filter, exactly, lists, Bool.and_eq_true, and_assoc,
    and_congr_right_iff]

/-- The texts of a request are texts to the database unless those of its tuple are not. -/
theorem texts_iff (valid : LimitValidator.validateServiceName params.serviceName = .ok ()) :
    (params.serviceName :: (params.sentKey.map fun key =>
        [key.customerId, key.rateLimitId]).getD []).all isPostgresText = true ↔
      (params.customerId ≠ "" → params.rateLimitId ≠ "" →
        isPostgresText params.customerId = true ∧
          isPostgresText params.rateLimitId = true) := by
  have isText := World.isPostgresText_of_validateServiceName valid
  by_cases both : params.customerId ≠ "" ∧ params.rateLimitId ≠ ""
  · simp [sentKey, both.1, both.2, isText]
  · rw [sentKey, if_neg both]
    simp only [Option.map_none, Option.getD_none, List.all_cons, isText, List.all_nil,
      Bool.and_self, true_iff]
    exact fun customerId rateLimitId => absurd ⟨customerId, rateLimitId⟩ both

/-- The rows that are fetched, newest first, are what there is to walk through. -/
theorem exists_walk_iff {deployment : Deployment} {instant : Option (ℤ × ℤ)}
    {conditions : Conditions} {database : Database} {rows : List AuditRow}
    (binds : AuditRepository.Binds deployment.backend params.serviceName params.sentKey instant
      (params.sentSince deployment.deps)) (healthy : conditions.Healthy)
    (table : AuditTable database) :
    (∃ count, TokenWalk (params.listing deployment instant) "" (List.replicate count
        ⟨conditions, database⟩) rows) ↔
      rows.Pairwise (fun first second =>
          Before (fun first second => second ≤ first) first.auditId second.auditId) ∧
        ∀ row, row ∈ rows ↔ row ∈ database.audit ∧ params.fetches deployment.deps row = true := by
  have antisymm : Std.Antisymm fun first second : ℤ => second ≤ first :=
    ⟨fun first second below above => Int.le_antisymm above below⟩
  have paginates := AuditRepository.paginates_accepts binds
    (if params.sentConfigId = 0 then none else some params.sentConfigId)
    (LimitValidator.clampPageSize_pos (sentNumber params.pageSize).toInt32)
  have walks := @Paginates.static_iff _ _ _ _ _ _ antisymm _ _ _ rows paginates healthy table
    (table.1.filter _)
  simp only [List.mem_filter] at walks
  exact walks

end AuditParams

variable {deployment : Deployment} {world : World} {visit : Visit} {session : Session}

/-- Following the pages of the browser shows exactly the entries that are asked for, newest first,
when what is sent selects what is asked for and all of it can be shown. -/
theorem browser_exact_iff (enforcer : Call → Reply) {params : AuditParams}
    (may : MayBrowse deployment world.store visit.request session params.serviceName)
    (given : params.Given visit.request.query) (isRoute : visit.request.route = .listAudit)
    (wellFormed : params.WellFormed deployment.deps) (exact : ExactInstants deployment)
    (table : AuditTable world.plane.database) :
    Browsed (fun token => world.exchange deployment enforcer (visit.withToken token)) ""
        ((newestFirst (world.plane.database.audit.filter
          (params.asks deployment.deps))).map rawEntry) ↔
      params.Holds deployment.deps world.plane.database.audit := by
  rcases AuditParams.since_arrives exact wellFormed with ⟨instant, isInstant, fits, isBound⟩
  rw [browsed_iff may given isRoute isInstant]
  by_cases texts : params.customerId ≠ "" → params.rateLimitId ≠ "" →
      isPostgresText params.customerId = true ∧ isPostgresText params.rateLimitId = true
  · have binds : AuditRepository.Binds deployment.backend params.serviceName params.sentKey instant
        (params.sentSince deployment.deps) :=
      ⟨(AuditParams.texts_iff may.valid).mpr texts, fits, isBound⟩
    have healthy : Conditions.Healthy ⟨visit.now, fun _ => none⟩ := ⟨rfl, rfl⟩
    have entryByEntry := AuditParams.asks_iff_lists wellFormed table.auditId_le
    constructor
    · rintro ⟨rows, walks, dated, isPage⟩
      rcases (AuditParams.exists_walk_iff binds healthy table).mp walks with ⟨sorted, exactly⟩
      have sameEntries := (AuditParams.asked_eq_kept_iff table.1 sorted exactly).mp isPage
      rcases entryByEntry.mp sameEntries with ⟨tuple, configId, last⟩
      exact ⟨texts, fun row mem fetched => dated row ((exactly row).mpr ⟨mem, fetched⟩), tuple,
        configId, last⟩
    · rintro ⟨_, dated, tuple, configId, last⟩
      have sorted := sorted_newestFirst (table.1.filter (params.fetches deployment.deps))
      have exactly (row : AuditRow) : row ∈ newestFirst (world.plane.database.audit.filter
          (params.fetches deployment.deps)) ↔ row ∈ world.plane.database.audit ∧
            params.fetches deployment.deps row = true := by
        rw [mem_newestFirst, List.mem_filter]
      refine ⟨_, (AuditParams.exists_walk_iff binds healthy table).mpr ⟨sorted, exactly⟩, ?_, ?_⟩
      · intro row mem
        rcases (exactly row).mp mem with ⟨inTable, fetched⟩
        exact dated row inTable fetched
      · apply (AuditParams.asked_eq_kept_iff table.1 sorted exactly).mpr
        exact entryByEntry.mpr ⟨tuple, configId, last⟩
  · constructor
    · rintro ⟨rows, ⟨count, walk⟩, _⟩
      rcases walk.first with ⟨_, _, page, listed, _⟩
      exact absurd ((AuditParams.texts_iff may.valid).mp
        (AuditRepository.texts_of_list listed)) texts
    · intro holds
      exact absurd holds.texts texts

section Sample

def sampleBrowserAudit : List AuditRow :=
  [sampleAuditRow 1 1 "acme", sampleAuditRow 2 2 "beta", sampleAuditRow 3 1 "acme"]

/-- All parameters, with pages of one entry. -/
def sampleParams : AuditParams :=
  ⟨"search", "acme", "query", "1", "1970-01-01T00:00:00.005Z", "alice@corp", "insert", "1"⟩

def sampleQuery : Fields :=
  [("customer_id", .string "acme"), ("rate_limit_id", .string "query"),
    ("config_id", .string "1"), ("since", .string "1970-01-01T00:00:00.005Z"),
    ("changed_by", .string "alice@corp"), ("operation", .string "insert"),
    ("page_size", .string "1")]

theorem browser_exact_iff_search :
    Browsed (fun token => (sampleAuditWorld sampleBrowserAudit).exchange sampleAuditDeployment
        (fun _ => .error ⟨.unavailable, "", ""⟩)
        ((sampleAuditVisit .listAudit sampleQuery).withToken token)) ""
      ([sampleAuditRow 3 1 "acme", sampleAuditRow 1 1 "acme"].map rawEntry) := by
  have holds : sampleParams.Holds sampleAuditDeployment.deps sampleBrowserAudit := by
    refine ⟨fun _ _ => by decide +kernel, by decide +kernel, by decide +kernel, fun _ => ?_,
      by decide +kernel⟩
    exact Or.inl (by decide +kernel)
  have wellFormed : sampleParams.WellFormed sampleAuditDeployment.deps :=
    ⟨Or.inr ⟨1, by decide, by decide +kernel⟩, Or.inr ⟨5, by decide, by decide +kernel⟩⟩
  have exact : ExactInstants sampleAuditDeployment := by
    refine ⟨?_, fun _ _ _ _ _ => rfl⟩
    intro text millis isMillis
    rcases Option.ite_none_right_eq_some.mp isMillis with ⟨_, isFive⟩
    rw [← Option.some.inj isFive]
    decide
  have given : sampleParams.Given (sampleAuditVisit .listAudit sampleQuery).request.query :=
    ⟨Or.inl rfl, Or.inl rfl, Or.inl rfl, Or.inl rfl, Or.inl rfl, Or.inl rfl, Or.inl rfl⟩
  have asked : newestFirst (sampleBrowserAudit.filter
      (sampleParams.asks sampleAuditDeployment.deps)) =
        [sampleAuditRow 3 1 "acme", sampleAuditRow 1 1 "acme"] := by decide +kernel
  rw [← asked]
  exact (browser_exact_iff _ (sampleAuditVisit_may sampleBrowserAudit sampleQuery rfl) given rfl
    wellFormed exact (by decide +kernel)).mpr holds

/-- A customer without a rate limit. -/
def loneCustomer : AuditParams := ⟨"search", "acme", "", "", "", "", "", ""⟩

/-- The entries of every customer are shown. -/
theorem browser_inexact :
    MayBrowse sampleAuditDeployment (sampleAuditWorld sampleBrowserAudit).store
        (sampleAuditVisit .listAudit [("customer_id", .string "acme")]).request operatorSession
        "search" ∧
      loneCustomer.Given
        (sampleAuditVisit .listAudit [("customer_id", .string "acme")]).request.query ∧
      loneCustomer.WellFormed sampleAuditDeployment.deps ∧
      AuditTable (sampleAuditWorld sampleBrowserAudit).plane.database ∧
      ¬Browsed (fun token => (sampleAuditWorld sampleBrowserAudit).exchange sampleAuditDeployment
          (fun _ => .error ⟨.unavailable, "", ""⟩)
          ((sampleAuditVisit .listAudit [("customer_id", .string "acme")]).withToken token)) ""
        ((newestFirst (sampleBrowserAudit.filter
          (loneCustomer.asks sampleAuditDeployment.deps))).map rawEntry) := by
  refine ⟨sampleAuditVisit_may sampleBrowserAudit _ rfl,
    ⟨Or.inl rfl, Or.inr ⟨rfl, rfl⟩, Or.inr ⟨rfl, rfl⟩, Or.inr ⟨rfl, rfl⟩, Or.inr ⟨rfl, rfl⟩,
      Or.inr ⟨rfl, rfl⟩, Or.inr ⟨rfl, rfl⟩⟩, ⟨Or.inl rfl, Or.inl rfl⟩, by decide +kernel, ?_⟩
  have all : shownCount ((sampleAuditWorld sampleBrowserAudit).exchange sampleAuditDeployment
      (fun _ => .error ⟨.unavailable, "", ""⟩)
      ((sampleAuditVisit .listAudit [("customer_id", .string "acme")]).withToken "")).outcome =
        some 3 := by decide +kernel
  have asked : (newestFirst (sampleBrowserAudit.filter
      (loneCustomer.asks sampleAuditDeployment.deps))).length = 2 := by decide +kernel
  intro browsed
  have fewer := browsed.shownCount_le all
  rw [List.length_map] at fewer
  omega

end Sample

end RateLimiter.Console
