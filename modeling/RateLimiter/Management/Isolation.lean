import RateLimiter.Management.AuditTrail

/-!
# Read isolation between tenants

Two databases that agree on what a principal may view answer each of its reads
alike. The databases are arbitrary but for the primary keys and the unique
constraint of the schema, which hold in every state that is reached.
-/

namespace RateLimiter.Management

open Machine Query Database

/-- The primary keys and the unique constraint of the schema. -/
structure Constrained (database : Database) : Prop where
  services : Keyed ServiceRow.serviceName database.services
  configIds : Keyed LimitRow.configId database.limits
  tuples : Keyed LimitRow.key database.limits
  auditIds : Keyed AuditRow.auditId database.audit

/-- The same rows of all services that the principal can view. -/
structure AgreeFor (principal : Principal) (first second : Database) : Prop where
  services : ∀ row : ServiceRow, principal.canView row.serviceName = true →
    (row ∈ first.services ↔ row ∈ second.services)
  limits : ∀ row : LimitRow, principal.canView row.serviceName = true →
    (row ∈ first.limits ↔ row ∈ second.limits)
  audit : ∀ (row : AuditRow) (serviceName : String),
    row.snapshotField "service_name" = some serviceName →
    principal.canView serviceName = true → (row ∈ first.audit ↔ row ∈ second.audit)

section Reached

variable {before after : Database}

theorem tuples_of_accepted {principal : Principal} {now : ℤ} {request : WriteRequest}
    (tuples : Keyed LimitRow.key before.limits)
    (accepted : Accepted principal now before after request) :
    Keyed LimitRow.key after.limits := by
  cases accepted with
  | missing same => exact same.limits ▸ tuples
  | registered _ effect => exact effect.limits ▸ tuples
  | @inserted _ row _ _ effect =>
      rw [effect.limits]
      apply tuples.concat
      intro other mem same
      have absent := List.find?_eq_none.mp effect.fresh other mem
      simp [same] at absent
  | @updated _ old row _ _ effect =>
      rw [effect.limits]
      apply tuples.map
      intro other
      split
      · rename_i isOld
        rw [isOld, effect.key]
      · rfl
  | deleted _ _ effect =>
      rw [effect.limits]
      exact tuples.filter _

theorem services_of_accepted {principal : Principal} {now : ℤ} {request : WriteRequest}
    (services : Keyed ServiceRow.serviceName before.services)
    (accepted : Accepted principal now before after request) :
    Keyed ServiceRow.serviceName after.services := by
  cases accepted with
  | missing same => exact same.services ▸ services
  | registered _ effect =>
      rw [effect.services]
      exact services.concat effect.fresh
  | inserted _ _ effect => exact effect.services ▸ services
  | updated _ _ effect => exact effect.services ▸ services
  | deleted _ _ effect => exact effect.services ▸ services

/-- Every state that is reached meets the constraints. -/
theorem constrained_planeAfter (backend : Backend) (pool : ℕ → Connection)
    (calls : List AdminCall) :
    Constrained (planeAfter backend ⟨pool, .empty⟩ calls).database := by
  have keyed : Keyed ServiceRow.serviceName
        (planeAfter backend ⟨pool, .empty⟩ calls).database.services ∧
      Keyed LimitRow.key (planeAfter backend ⟨pool, .empty⟩ calls).database.limits := by
    apply planeAfter_invariant backend ⟨pool, .empty⟩ (fun database =>
      Keyed ServiceRow.serviceName database.services ∧ Keyed LimitRow.key database.limits)
    · exact ⟨List.Pairwise.nil, List.Pairwise.nil⟩
    · rintro before after same ⟨services, tuples⟩
      rw [same.services, same.limits]
      exact ⟨services, tuples⟩
    · rintro principal now before after request accepted ⟨services, tuples⟩
      exact ⟨services_of_accepted services accepted, tuples_of_accepted tuples accepted⟩
  have traced : Traced (planeAfter backend ⟨pool, .empty⟩ calls).database :=
    Traced.run backend Traced.empty calls
  exact ⟨keyed.1, traced.distinct, keyed.2, traced.ordered.imp ne_of_lt⟩

end Reached

section Reads

variable {backend : Backend} {principal : Principal} {conditions : Conditions}
  {first second : Database} {serviceName : String}

theorem findLimit_eq_of_agree (firstConstrained : Constrained first)
    (agree : AgreeFor principal first second) {key : LimitKey}
    (viewable : principal.canView key.serviceName = true) :
    first.findLimit key = second.findLimit key := by
  apply Query.find?_eq
  · intro row isKey
    apply agree.limits
    rw [show row.serviceName = key.serviceName from congrArg LimitKey.serviceName
      (of_decide_eq_true isKey)]
    exact viewable
  · intro row rowMem other otherMem rowKey otherKey
    exact firstConstrained.tuples.eq_of_key_eq rowMem otherMem
      ((of_decide_eq_true rowKey).trans (of_decide_eq_true otherKey).symm)

/-- The rows that `resolve` chooses from differ in being a default. -/
theorem eq_of_matchesResolve {key : LimitKey} {row other : LimitRow}
    (constrained : Constrained first) (rowMem : row ∈ first.limits)
    (otherMem : other ∈ first.limits)
    (rowMatches : LimitRepository.matchesResolve key row = true)
    (otherMatches : LimitRepository.matchesResolve key other = true)
    (same : row.isDefault = other.isDefault) : row = other := by
  apply constrained.tuples.eq_of_key_eq rowMem otherMem
  simp only [LimitRepository.matchesResolve, Bool.and_eq_true, Bool.or_eq_true,
    decide_eq_true_eq] at rowMatches otherMatches
  rcases rowMatches with ⟨⟨rowService, rowLimit⟩, rowCustomer⟩
  rcases otherMatches with ⟨⟨otherService, otherLimit⟩, otherCustomer⟩
  have customers : row.customerId = other.customerId := by
    simp only [LimitRow.isDefault, decide_eq_decide] at same
    by_cases isDefault : row.customerId = defaultCustomer
    · rw [isDefault, same.mp isDefault]
    · have otherIs : other.customerId ≠ defaultCustomer := fun is => isDefault (same.mpr is)
      rw [rowCustomer.resolve_right isDefault, otherCustomer.resolve_right otherIs]
  exact LimitKey.ext (rowService.trans otherService.symm) customers
    (rowLimit.trans otherLimit.symm)

/-- What follows the authorisation matters only where the principal can view the service. -/
theorem requireViewer_congr {α : Type} {validated : Except AppException Unit}
    {answer other : Except AppException α}
    (same : principal.canView serviceName = true → answer = other) :
    (do validated
        Authorizer.requireViewer principal serviceName
        answer) =
      (do validated
          Authorizer.requireViewer principal serviceName
          other) := by
  by_cases viewable : principal.canView serviceName = true
  · rw [same viewable]
  · cases validated with
    | error _ => rfl
    | ok _ => simp [Authorizer.requireViewer, viewable, bind, Except.bind]

variable (firstConstrained : Constrained first) (secondConstrained : Constrained second)
  (agree : AgreeFor principal first second)

include firstConstrained secondConstrained agree

theorem getLimit_eq_of_agree (key : LimitKey) (resolve : Bool) :
    LimitAdminService.getLimit principal conditions first key resolve =
      LimitAdminService.getLimit principal conditions second key resolve := by
  apply requireViewer_congr
  intro viewable
  have exact_eq : LimitRepository.getExact conditions key first =
      LimitRepository.getExact conditions key second := by
    simp only [LimitRepository.getExact]
    rw [findLimit_eq_of_agree firstConstrained agree viewable]
  have resolve_eq : LimitRepository.resolve conditions key first =
      LimitRepository.resolve conditions key second := by
    simp only [LimitRepository.resolve]
    rw [Query.sort_eq firstConstrained.tuples secondConstrained.tuples]
    · intro row isMatch
      apply agree.limits
      simp only [LimitRepository.matchesResolve, Bool.and_eq_true, decide_eq_true_eq] at isMatch
      rw [isMatch.1.1]
      exact viewable
    · intro row rowMem other otherMem rowMatches otherMatches below above
      exact eq_of_matchesResolve firstConstrained rowMem otherMem rowMatches otherMatches
        (le_antisymm below above)
  rw [exact_eq, resolve_eq]

theorem listLimits_eq_of_agree (serviceName customerId rateLimitId : String) (pageSize : ℤ)
    (pageToken : String) :
    LimitAdminService.listLimits principal conditions first serviceName customerId rateLimitId
        pageSize pageToken =
      LimitAdminService.listLimits principal conditions second serviceName customerId rateLimitId
        pageSize pageToken := by
  apply requireViewer_congr
  intro viewable
  have list_eq : ∀ size, LimitRepository.list conditions serviceName customerId rateLimitId size
        pageToken first =
      LimitRepository.list conditions serviceName customerId rateLimitId size pageToken
        second := by
    intro size
    simp only [LimitRepository.list]
    congr 1
    funext cursor
    rw [Query.sort_eq firstConstrained.configIds secondConstrained.configIds]
    · intro row passes
      apply agree.limits
      simp only [Bool.and_eq_true, decide_eq_true_eq] at passes
      rw [passes.1.1.1]
      exact viewable
    · intro row rowMem other otherMem _ _ below above
      exact firstConstrained.configIds.eq_of_key_eq rowMem otherMem (le_antisymm below above)
  rw [list_eq]

omit secondConstrained in
theorem getService_eq_of_agree (serviceName : String) :
    LimitAdminService.getService principal conditions first serviceName =
      LimitAdminService.getService principal conditions second serviceName := by
  apply requireViewer_congr
  intro viewable
  have get_eq : ServiceRepository.get conditions serviceName first =
      ServiceRepository.get conditions serviceName second := by
    simp only [ServiceRepository.get]
    rw [Query.find?_eq]
    · intro row isService
      apply agree.services
      rw [of_decide_eq_true isService]
      exact viewable
    · intro row rowMem other otherMem rowService otherService
      exact firstConstrained.services.eq_of_key_eq rowMem otherMem
        ((of_decide_eq_true rowService).trans (of_decide_eq_true otherService).symm)
  rw [get_eq]

theorem listServices_eq_of_agree (notAdmin : principal.platformAdmin = false) (pageSize : ℤ)
    (pageToken : String) :
    LimitAdminService.listServices backend principal conditions first pageSize pageToken =
      LimitAdminService.listServices backend principal conditions second pageSize pageToken := by
  have : Std.Total fun row other : ServiceRow =>
      backend.textLe row.serviceName other.serviceName = true :=
    ⟨fun row other => backend.textLe_total row.serviceName other.serviceName⟩
  have : IsTrans ServiceRow fun row other =>
      backend.textLe row.serviceName other.serviceName = true :=
    ⟨fun row other third => backend.textLe_trans row.serviceName other.serviceName
      third.serviceName⟩
  have list_eq : ∀ size, ServiceRepository.list backend conditions size pageToken
        principal.viewableServices principal.platformAdmin first =
      ServiceRepository.list backend conditions size pageToken principal.viewableServices
        principal.platformAdmin second := by
    intro size
    simp only [ServiceRepository.list]
    congr 1
    funext cursor
    rw [Query.sort_eq firstConstrained.services secondConstrained.services]
    · intro row passes
      apply agree.services
      simp only [notAdmin, Bool.false_or, Bool.and_eq_true, List.contains_iff_mem] at passes
      exact (Principal.canView_iff_of_not_admin notAdmin).mpr passes.2
    · intro row rowMem other otherMem _ _ below above
      exact firstConstrained.services.eq_of_key_eq rowMem otherMem
        (backend.textLe_antisymm _ _ below above)
  simp only [LimitAdminService.listServices, list_eq]

theorem listAuditEntries_eq_of_agree (serviceName : String) (key : Option LimitKey)
    (configId : ℤ) (since : Option Timestamp) (pageSize : ℤ) (pageToken : String) :
    LimitAdminService.listAuditEntries backend principal conditions first serviceName key configId
        since pageSize pageToken =
      LimitAdminService.listAuditEntries backend principal conditions second serviceName key
        configId since pageSize pageToken := by
  apply requireViewer_congr
  intro viewable
  have list_eq : ∀ instant size configId, AuditRepository.list backend conditions serviceName key
        configId instant size pageToken first =
      AuditRepository.list backend conditions serviceName key configId instant size pageToken
        second := by
    intro instant size configId
    simp only [AuditRepository.list]
    congr 1
    funext cursor
    have rows_eq : ∀ bound, (first.audit.filter
          (AuditRepository.Filters.accepts ⟨serviceName, key, configId, bound⟩
            cursor)).insertionSort (fun row other => other.auditId ≤ row.auditId) =
        (second.audit.filter (AuditRepository.Filters.accepts ⟨serviceName, key, configId, bound⟩
            cursor)).insertionSort (fun row other => other.auditId ≤ row.auditId) := by
      intro bound
      have : Std.Total fun row other : AuditRow => other.auditId ≤ row.auditId :=
        ⟨fun row other => le_total other.auditId row.auditId⟩
      have : IsTrans AuditRow fun row other => other.auditId ≤ row.auditId :=
        ⟨fun _ _ _ above below => le_trans below above⟩
      apply Query.sort_eq firstConstrained.auditIds secondConstrained.auditIds
      · intro row passes
        refine agree.audit row serviceName ?_ viewable
        simp only [AuditRepository.Filters.accepts, Bool.and_eq_true, decide_eq_true_eq] at passes
        exact passes.1.1.1.1
      · intro row rowMem other otherMem _ _ above below
        exact firstConstrained.auditIds.eq_of_key_eq rowMem otherMem (le_antisymm below above)
    simp only [rows_eq]
  simp only [list_eq]

end Reads

/-- A principal that is no platform admin gets the same answer to every read from two databases
that agree on the services it can view. -/
theorem reads_isolated (backend : Backend) (principal : Principal)
    (notAdmin : principal.platformAdmin = false) (conditions : Conditions)
    (first second : Database) (firstConstrained : Constrained first)
    (secondConstrained : Constrained second) (agree : AgreeFor principal first second)
    (request : ReadRequest) :
    LimitAdminService.read backend principal conditions first request =
      LimitAdminService.read backend principal conditions second request := by
  cases request with
  | getLimit key resolve =>
      exact getLimit_eq_of_agree firstConstrained secondConstrained agree key resolve
  | listLimits serviceName customerId rateLimitId pageSize pageToken =>
      exact listLimits_eq_of_agree firstConstrained secondConstrained agree serviceName customerId
        rateLimitId pageSize pageToken
  | getService serviceName =>
      exact getService_eq_of_agree firstConstrained agree serviceName
  | listServices pageSize pageToken =>
      exact listServices_eq_of_agree firstConstrained secondConstrained agree notAdmin pageSize
        pageToken
  | listAuditEntries serviceName key configId since pageSize pageToken =>
      exact listAuditEntries_eq_of_agree firstConstrained secondConstrained agree serviceName key
        configId since pageSize pageToken

section Sample

/-- A viewer of one service. -/
def isolatedViewer : Principal := ⟨"alice@corp", [], ["search"], false⟩

/-- The tables of one tenant. -/
def ownTables : Database :=
  ⟨[⟨"search", "Search", "team-search"⟩], [⟨1, "search", "*", "query", 10, .minute⟩],
    [⟨1, 1, .insert, none, some (Jsonb.ofRow ⟨1, "search", "*", "query", 10, .minute⟩), "root",
      5⟩], 2, 2⟩

/-- The same tables among those of another tenant. -/
def sharedTables : Database :=
  ⟨[⟨"billing", "Billing", "team-billing"⟩, ⟨"search", "Search", "team-search"⟩],
    [⟨2, "billing", "*", "query", 7, .day⟩, ⟨1, "search", "*", "query", 10, .minute⟩],
    [⟨1, 1, .insert, none, some (Jsonb.ofRow ⟨1, "search", "*", "query", 10, .minute⟩), "root", 5⟩,
      ⟨2, 2, .insert, none, some (Jsonb.ofRow ⟨2, "billing", "*", "query", 7, .day⟩), "root", 6⟩],
    3, 3⟩

theorem agreeFor_sharedTables : AgreeFor isolatedViewer ownTables sharedTables where
  services row viewable := by
    have isOwn : row.serviceName = "search" := by
      simpa [isolatedViewer, Principal.canView] using viewable
    refine ⟨fun mem => List.mem_cons_of_mem _ mem, fun mem => ?_⟩
    rcases List.mem_cons.mp mem with rfl | own
    · exact absurd isOwn (by decide)
    · exact own
  limits row viewable := by
    have isOwn : row.serviceName = "search" := by
      simpa [isolatedViewer, Principal.canView] using viewable
    refine ⟨fun mem => List.mem_cons_of_mem _ mem, fun mem => ?_⟩
    rcases List.mem_cons.mp mem with rfl | own
    · exact absurd isOwn (by decide)
    · exact own
  audit row serviceName isNamed viewable := by
    have isOwn : serviceName = "search" := by
      simpa [isolatedViewer, Principal.canView] using viewable
    subst serviceName
    refine ⟨fun mem => List.mem_append_left [_] mem, fun mem => ?_⟩
    rcases List.mem_cons.mp mem with rfl | other
    · exact List.mem_cons_self
    · cases List.mem_singleton.mp other
      exact absurd isNamed (by decide)

theorem reads_isolated_sample :
    LimitAdminService.read sampleBackend isolatedViewer ⟨9, fun _ => none⟩ ownTables
        (.listServices 10 "") =
      LimitAdminService.read sampleBackend isolatedViewer ⟨9, fun _ => none⟩ sharedTables
        (.listServices 10 "") ∧ ownTables ≠ sharedTables :=
  ⟨reads_isolated sampleBackend isolatedViewer rfl ⟨9, fun _ => none⟩ ownTables sharedTables
    ⟨by decide +kernel, by decide +kernel, by decide +kernel, by decide +kernel⟩
    ⟨by decide +kernel, by decide +kernel, by decide +kernel, by decide +kernel⟩
    agreeFor_sharedTables (.listServices 10 ""), by decide +kernel⟩

end Sample

end RateLimiter.Management
