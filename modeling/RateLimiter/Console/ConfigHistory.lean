import RateLimiter.Console.AuditPages

/-!
# The history of a configuration

`GET /api/audit/config/:configId` shows the first page that the control plane
lists for the identity that the path segment converts to. A segment that is no
number is sent as zero, which lists every configuration, and a history longer
than a page is cut off.
-/

namespace RateLimiter.Console

open EventLoop EventLoop.Handler JavaScript Keyset Management Query

variable {serviceName segment : String}

section Response

variable {State : Type} {backend : State → Call → Reply × State} {deps : Deps} {session : Session}
  {moments : ℕ → Moment} {turn : ℕ} {state later : State} {store : Store} {query : Fields}
  {reply : Reply}

def respondHistory (views : List AuditView) (_ : String) : Response :=
  .json 200 (.object [("entries", .array (views.map AuditView.json))])

variable (moments turn store) in
theorem converse_configHistory
    (granted : Granted deps session.user .auditRead (some serviceName))
    (isService : Value.property query "service_name" = .string serviceName)
    (named : serviceName ≠ "")
    (isReply : backend state ⟨.listAuditEntries serviceName none (.ofText segment) none
      (.finite 0) "", none⟩ = (reply, later)) :
    ∃ call, (AuditRouter.configHistory deps session query segment).converse backend moments turn
        state store =
      ⟨[(call, reply)], entriesOutcome respondHistory reply, later, store⟩ := by
  have service : stringOrEmpty (Value.property query "service_name") = pure serviceName := by
    rw [isService]
    rfl
  refine ⟨⟨.listAuditEntries serviceName none (.ofText segment) none (.finite 0) "", none⟩, ?_⟩
  simp only [AuditRouter.configHistory, service, async_pure_bind, named, if_false,
    guard_of_granted granted, converse_bind, converse_call, isReply]
  cases reply with
  | error failure => rfl
  | ok message =>
      cases message with
      | auditEntries entries next =>
          simp only [entriesOutcome, Conversation.andThen, Except.mapError]
          cases entries.mapM toAuditView <;> rfl
      | _ => rfl

end Response

section Page

variable {deployment : Deployment} {enforcer : Call → Reply} {world : World} {visit : Visit}
  {session : Session}

variable (enforcer) in
/-- The history of a configuration is the first page of a listing. -/
theorem exchange_history
    (may : MayBrowse deployment world.store visit.request session serviceName)
    (isRoute : visit.request.route = .configHistory segment) :
    let reply := entriesReply (AuditRepository.list deployment.backend ⟨visit.now, fun _ => none⟩
      serviceName none (if (Number.ofText segment).toInt64 = 0 then none
        else some (Number.ofText segment).toInt64) none 100 "" world.plane.database)
    ∃ call, world.exchange deployment enforcer visit =
      ⟨[(call, reply)], .ok (settled (entriesOutcome respondHistory reply)), world.plane,
        world.store⟩ := by
  intro reply
  rcases may.hasBody with ⟨body, hasBody⟩
  rcases may.mayView with ⟨principal, isPrincipal, mayView⟩
  have named : serviceName ≠ "" := (LimitValidator.validateText_eq_ok_iff.mp may.valid).1
  have isReply : World.answer deployment enforcer visit world.plane
      ⟨.listAuditEntries serviceName none (.ofText segment) none (.finite 0) "", none⟩ =
        (reply, world.plane) := by
    rw [World.answer_listAuditEntries isPrincipal mayView may.valid rfl]
    rfl
  rcases converse_configHistory visit.moments 0 world.store may.granted may.isService named
    isReply with ⟨call, isPage⟩
  refine ⟨call, ?_⟩
  apply exchange_of_converse may.authentic hasBody
  · rw [isRoute]
    rfl
  · simp only [api, isRoute]
    exact isPage

theorem history_shows_iff {call : Call} {result : Except AppException (Page AuditRow)}
    {entries : List RawAudit} :
    (∃ shown, settled (entriesOutcome respondHistory (entriesReply result)) =
        .json 200 (.object [("entries", .array shown)]) ∧
          Shows [(call, entriesReply result)] shown entries) ↔
      ∃ items next, result = .ok ⟨items, next⟩ ∧ (∀ row ∈ items, Dated row) ∧
        entries = items.map rawEntry := by
  constructor
  · rintro ⟨shown, isPage, shows⟩
    rcases shows_of_settled isPage with ⟨items, next, views, rfl, rendered, isResponse⟩
    simp only [respondHistory, Response.json, Response.mk.injEq, Value.object.injEq,
      List.cons.injEq, Prod.mk.injEq, Value.array.injEq, true_and, and_true] at isResponse
    subst isResponse
    exact ⟨items, next, rfl, exists_views_iff.mp ⟨views, rendered⟩,
      (shows_all_iff rendered).mp shows⟩
  · rintro ⟨items, next, rfl, dated, rfl⟩
    rcases exists_views_iff.mpr dated with ⟨views, rendered⟩
    refine ⟨_, ?_, (shows_all_iff rendered).mpr rfl⟩
    simp only [entriesReply, entriesOutcome, rendered]
    rfl

end Page

/-- The entries of the configuration that a path segment names. -/
def historyAsks (serviceName segment : String) (row : AuditRow) : Bool :=
  row.snapshotField "service_name" = some serviceName &&
    Number.literal? segment = some (row.configId : ℚ)

/-- The identity that a path segment is sent as. -/
def segmentId (segment : String) : ℤ := (Number.ofText segment).toInt64

/-- The control plane lists an entry for a path segment; zero is no identity. -/
def historyFetches (serviceName segment : String) (row : AuditRow) : Bool :=
  AuditRepository.Filters.accepts ⟨serviceName, none,
    if segmentId segment = 0 then none else some (segmentId segment), none⟩
    AuditRepository.startCursor row

/-- The history fits a page, its entries can be shown, and the segment is an identity. -/
structure HistoryHolds (serviceName segment : String) (audit : List AuditRow) : Prop where
  short : (audit.filter (historyAsks serviceName segment)).length ≤ 100
  shown : ∀ row ∈ audit, historyAsks serviceName segment row = true →
    Dated row ∧ row.auditId ≠ AuditRepository.startCursor
  segment : Number.literal? segment = some (segmentId segment : ℚ) ∧ segmentId segment ≠ 0 ∨
    ∀ row ∈ audit, historyFetches serviceName segment row = false ∧
      historyAsks serviceName segment row = false

variable {row : AuditRow} {audit : List AuditRow}

theorem historyAsks_iff :
    historyAsks serviceName segment row = true ↔
      row.snapshotField "service_name" = some serviceName ∧
        Number.literal? segment = some (row.configId : ℚ) := by
  simp only [historyAsks, Bool.and_eq_true, decide_eq_true_eq]

theorem historyFetches_iff :
    historyFetches serviceName segment row = true ↔
      row.auditId < AuditRepository.startCursor ∧
        row.snapshotField "service_name" = some serviceName ∧
        (segmentId segment = 0 ∨ row.configId = segmentId segment) := by
  simp only [historyFetches, AuditRepository.Filters.accepts_eq, AuditRepository.Filters.selects,
    Option.all_none, Bool.and_true, Bool.and_eq_true, decide_eq_true_eq]
  by_cases absent : segmentId segment = 0 <;> simp [absent]

/-- An entry that is asked for and fetched has the identity that the segment is sent as. -/
theorem faithful_of_both (positive : 0 < row.configId)
    (asked : historyAsks serviceName segment row = true)
    (fetched : historyFetches serviceName segment row = true) :
    Number.literal? segment = some (segmentId segment : ℚ) ∧ segmentId segment ≠ 0 := by
  have isNumber := (historyAsks_iff.mp asked).2
  have sent : 0 < segmentId segment := Number.toInt64_ofText_pos isNumber positive
  rcases (historyFetches_iff.mp fetched).2.2 with absent | same
  · omega
  · rw [same] at isNumber
    exact ⟨isNumber, by omega⟩

/-- The first page of what there is to fetch. -/
def historyPage (serviceName segment : String) (audit : List AuditRow) : List AuditRow :=
  (newestFirst (audit.filter (historyFetches serviceName segment))).take 100

theorem exists_historyPage {backend : Backend} {conditions : Conditions} {database : Database}
    (valid : LimitValidator.validateServiceName serviceName = .ok ())
    (healthy : conditions.Healthy) :
    ∃ next, AuditRepository.list backend conditions serviceName none
        (if segmentId segment = 0 then none else some (segmentId segment)) none 100 "" database =
      .ok ⟨historyPage serviceName segment database.audit, next⟩ := by
  have isText := World.isPostgresText_of_validateServiceName valid
  have binds : AuditRepository.Binds backend serviceName none none none :=
    ⟨by simp [isText], rfl, rfl⟩
  have stands : Stands AuditRepository.startCursor PageToken.encodeLong Identity ""
      AuditRepository.startCursor := Or.inl ⟨rfl, rfl⟩
  have listed := (AuditRepository.keysetListing binds
    (if segmentId segment = 0 then none else some (segmentId segment)) 100).answers stands
    (show (Snapshot.mk conditions database).conditions.Healthy from healthy)
  have behind : remaining AuditRow.auditId (fun first second => second ≤ first)
      (database.audit.filter (historyFetches serviceName segment)) AuditRepository.startCursor =
        newestFirst (database.audit.filter (historyFetches serviceName segment)) :=
    remaining_filter (AuditRepository.Filters.accepts_iff _ (Int.le_refl _))
  have items := items_pageBehind AuditRow.auditId (fun first second => second ≤ first) 100
    PageToken.encodeLong (fun database => database.audit.filter
      (historyFetches serviceName segment)) ⟨conditions, database⟩ AuditRepository.startCursor
  rw [historyPage, ← behind, ← items]
  exact ⟨_, listed⟩

theorem mem_of_historyPage (mem : row ∈ historyPage serviceName segment audit) :
    row ∈ audit ∧ historyFetches serviceName segment row = true :=
  List.mem_filter.mp (mem_newestFirst.mp (List.mem_of_mem_take mem))

theorem fetches_eq_false_of_nil (noPage : historyPage serviceName segment audit = [])
    (mem : row ∈ audit) : historyFetches serviceName segment row = false := by
  have nothing := (List.take_eq_nil_iff.mp noPage).resolve_left (by decide)
  apply Bool.eq_false_of_not_eq_true
  intro fetched
  have inFetched := mem_newestFirst.mpr (List.mem_filter.mpr ⟨mem, fetched⟩)
  rw [nothing] at inFetched
  exact List.not_mem_nil inFetched

/-- A page that is the history has a segment that is an identity, or is empty with it. -/
theorem segment_of_historyPage (identity : ∀ row ∈ audit, 1 ≤ row.configId)
    (exactly : ∀ row, row ∈ newestFirst (audit.filter (historyAsks serviceName segment)) ↔
      row ∈ historyPage serviceName segment audit) :
    Number.literal? segment = some (segmentId segment : ℚ) ∧ segmentId segment ≠ 0 ∨
      ∀ row ∈ audit, historyFetches serviceName segment row = false ∧
        historyAsks serviceName segment row = false := by
  by_cases faithful : Number.literal? segment = some (segmentId segment : ℚ) ∧
      segmentId segment ≠ 0
  · exact Or.inl faithful
  · have unasked : ∀ row ∈ audit, ¬historyAsks serviceName segment row = true := by
      intro row mem asked
      have inPage := (exactly row).mp (mem_newestFirst.mpr (List.mem_filter.mpr ⟨mem, asked⟩))
      exact faithful (faithful_of_both (identity row mem) asked (mem_of_historyPage inPage).2)
    have noPage : historyPage serviceName segment audit = [] := by
      apply List.eq_nil_iff_forall_not_mem.mpr
      intro row mem
      rcases List.mem_filter.mp (mem_newestFirst.mp ((exactly row).mpr mem)) with
        ⟨inTable, asked⟩
      exact unasked row inTable asked
    refine Or.inr fun row mem => ⟨fetches_eq_false_of_nil noPage mem, ?_⟩
    exact Bool.eq_false_of_not_eq_true (unasked row mem)

theorem HistoryHolds.fetches_eq (holds : HistoryHolds serviceName segment audit)
    (upper : ∀ row ∈ audit, row.auditId ≤ AuditRepository.startCursor) :
    ∀ row ∈ audit,
      historyFetches serviceName segment row = historyAsks serviceName segment row := by
  intro row mem
  rcases holds.segment with ⟨isNumber, nonzero⟩ | neither
  · rw [Bool.eq_iff_iff, historyFetches_iff, historyAsks_iff, isNumber, Option.some.injEq,
      Int.cast_inj]
    constructor
    · rintro ⟨_, service, same⟩
      exact ⟨service, (same.resolve_left nonzero).symm⟩
    · rintro ⟨service, same⟩
      have asked := historyAsks_iff.mpr ⟨service, isNumber.trans (by rw [same])⟩
      have notLast := (holds.shown row mem asked).2
      exact ⟨lt_of_le_of_ne (upper row mem) notLast, service, Or.inr same.symm⟩
  · rw [(neither row mem).1, (neither row mem).2]

/-- The first page against the history, entry by entry. -/
theorem historyPage_iff (keyed : Keyed AuditRow.auditId audit)
    (upper : ∀ row ∈ audit, row.auditId ≤ AuditRepository.startCursor)
    (identity : ∀ row ∈ audit, 1 ≤ row.configId) :
    (∀ row ∈ historyPage serviceName segment audit, Dated row) ∧
      (newestFirst (audit.filter (historyAsks serviceName segment))).map rawEntry =
        (historyPage serviceName segment audit).map rawEntry ↔
      HistoryHolds serviceName segment audit := by
  constructor
  · rintro ⟨dated, isPage⟩
    have fetchedSorted := sorted_newestFirst (keyed.filter (historyFetches serviceName segment))
    have exactly := (map_rawEntry_eq_iff keyed
      (sorted_newestFirst (keyed.filter (historyAsks serviceName segment)))
      (fetchedSorted.sublist (List.take_sublist 100 _))
      (fun row mem => List.mem_of_mem_filter (mem_newestFirst.mp mem))
      (fun row mem => (mem_of_historyPage mem).1)).mp isPage
    refine ⟨?_, ?_, segment_of_historyPage identity exactly⟩
    · have lengths := congrArg List.length isPage
      rw [List.length_map, List.length_map, historyPage, List.length_take, newestFirst,
        List.length_insertionSort] at lengths
      omega
    · intro row mem asked
      have inPage := (exactly row).mp (mem_newestFirst.mpr (List.mem_filter.mpr ⟨mem, asked⟩))
      have below := (historyFetches_iff.mp (mem_of_historyPage inPage).2).1
      exact ⟨dated row inPage, by omega⟩
  · intro holds
    have isHistory : historyPage serviceName segment audit =
        newestFirst (audit.filter (historyAsks serviceName segment)) := by
      rw [historyPage, List.filter_congr (holds.fetches_eq upper)]
      apply List.take_of_length_le
      rw [newestFirst, List.length_insertionSort]
      exact holds.short
    rw [isHistory]
    refine ⟨?_, rfl⟩
    intro row mem
    rcases List.mem_filter.mp (mem_newestFirst.mp mem) with ⟨inTable, asked⟩
    exact (holds.shown row inTable asked).1

/-- The history of a configuration is shown in full when it fits on one page and the segment denotes
the identity that is sent. -/
theorem history_exact_iff {deployment : Deployment} (enforcer : Call → Reply) {world : World}
    {visit : Visit} {session : Session}
    (may : MayBrowse deployment world.store visit.request session serviceName)
    (isRoute : visit.request.route = .configHistory segment)
    (table : AuditTable world.plane.database)
    (identity : ∀ row ∈ world.plane.database.audit, 1 ≤ row.configId) :
    (∃ shown, (world.exchange deployment enforcer visit).outcome =
          .ok (.json 200 (.object [("entries", .array shown)])) ∧
        Shows (world.exchange deployment enforcer visit).exchanges shown
          ((newestFirst (world.plane.database.audit.filter
            (historyAsks serviceName segment))).map rawEntry)) ↔
      HistoryHolds serviceName segment world.plane.database.audit := by
  rcases exchange_history enforcer may isRoute with ⟨call, isExchange⟩
  have healthy : Conditions.Healthy ⟨visit.now, fun _ => none⟩ := ⟨rfl, rfl⟩
  rcases @exists_historyPage serviceName segment deployment.backend ⟨visit.now, fun _ => none⟩
    world.plane.database may.valid healthy with ⟨next, listed⟩
  simp only [isExchange, Except.ok.injEq]
  rw [history_shows_iff, ← historyPage_iff table.1 table.auditId_le identity]
  constructor
  · rintro ⟨items, following, isPage, dated, isHistory⟩
    cases isPage.symm.trans listed
    exact ⟨dated, isHistory⟩
  · rintro ⟨dated, isHistory⟩
    exact ⟨_, next, listed, dated, isHistory⟩

section Sample

/-- Two configurations of a service. -/
def sampleHistory : List AuditRow :=
  [sampleAuditRow 1 1 "acme", sampleAuditRow 2 2 "beta", sampleAuditRow 3 1 "acme"]

/-- One entry more than a page holds. -/
def longHistory : List AuditRow :=
  (List.range 101).map fun index => sampleAuditRow (index + 1) 1 "acme"

theorem history_exact_iff_search :
    ∃ shown, ((sampleAuditWorld sampleHistory).exchange sampleAuditDeployment
          (fun _ => .error ⟨.unavailable, "", ""⟩)
          (sampleAuditVisit (.configHistory "1") [])).outcome =
        .ok (.json 200 (.object [("entries", .array shown)])) ∧
      Shows ((sampleAuditWorld sampleHistory).exchange sampleAuditDeployment
          (fun _ => .error ⟨.unavailable, "", ""⟩)
          (sampleAuditVisit (.configHistory "1") [])).exchanges shown
        ([sampleAuditRow 3 1 "acme", sampleAuditRow 1 1 "acme"].map rawEntry) := by
  have holds : HistoryHolds "search" "1" sampleHistory :=
    ⟨by decide +kernel, by decide +kernel, Or.inl (by decide +kernel)⟩
  have asked : newestFirst (sampleHistory.filter (historyAsks "search" "1")) =
      [sampleAuditRow 3 1 "acme", sampleAuditRow 1 1 "acme"] := by decide +kernel
  rw [← asked]
  exact (history_exact_iff _ (sampleAuditVisit_may sampleHistory [] rfl) rfl (by decide +kernel)
    (by decide +kernel)).mpr holds

/-- A segment that is no number shows every configuration, and the oldest entry of a long history
is missing. -/
theorem history_inexact :
    MayBrowse sampleAuditDeployment (sampleAuditWorld sampleHistory).store
        (sampleAuditVisit (.configHistory "abc") []).request operatorSession "search" ∧
      AuditTable (sampleAuditWorld sampleHistory).plane.database ∧
      AuditTable (sampleAuditWorld longHistory).plane.database ∧
      (¬∃ shown, ((sampleAuditWorld sampleHistory).exchange sampleAuditDeployment
            (fun _ => .error ⟨.unavailable, "", ""⟩)
            (sampleAuditVisit (.configHistory "abc") [])).outcome =
          .ok (.json 200 (.object [("entries", .array shown)])) ∧
        Shows ((sampleAuditWorld sampleHistory).exchange sampleAuditDeployment
            (fun _ => .error ⟨.unavailable, "", ""⟩)
            (sampleAuditVisit (.configHistory "abc") [])).exchanges shown
          ((newestFirst (sampleHistory.filter (historyAsks "search" "abc"))).map rawEntry)) ∧
      ¬∃ shown, ((sampleAuditWorld longHistory).exchange sampleAuditDeployment
            (fun _ => .error ⟨.unavailable, "", ""⟩)
            (sampleAuditVisit (.configHistory "1") [])).outcome =
          .ok (.json 200 (.object [("entries", .array shown)])) ∧
        Shows ((sampleAuditWorld longHistory).exchange sampleAuditDeployment
            (fun _ => .error ⟨.unavailable, "", ""⟩)
            (sampleAuditVisit (.configHistory "1") [])).exchanges shown
          ((newestFirst (longHistory.filter (historyAsks "search" "1"))).map rawEntry) := by
  have unequal {exchange : Conversation ControlPlane Store Call Reply Thrown Response}
      {rows : List AuditRow} {count : ℕ} (isCount : shownCount exchange.outcome = some count)
      (other : count ≠ rows.length) :
      ¬∃ shown, exchange.outcome = .ok (.json 200 (.object [("entries", .array shown)])) ∧
        Shows exchange.exchanges shown (rows.map rawEntry) := by
    rintro ⟨shown, isResponse, shows⟩
    rw [isResponse] at isCount
    have isLength := Option.some.inj isCount
    rw [shows.length_eq, List.length_map] at isLength
    exact other isLength.symm
  refine ⟨sampleAuditVisit_may sampleHistory [] rfl, by decide +kernel, by decide +kernel, ?_, ?_⟩
  · exact @unequal _ _ 3 (by decide +kernel) (by decide +kernel)
  · exact @unequal _ _ 100 (by decide +kernel) (by decide +kernel)

end Sample

end RateLimiter.Console
