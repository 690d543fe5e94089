import RateLimiter.Enforcer.Config
import RateLimiter.Management.KeyedMap

/-!
# Effective limits

Both planes resolve a key by an ordered query of their own. On a table with
unique tuples either query is the lookup of the exact row, then of the default
row, so the planes agree, and a write moves the resolution only of the keys
that fall back on its row.
-/

namespace RateLimiter.Management

open Query Database

/-- The key of the default row that a key falls back on. -/
def defaultKey (key : LimitKey) : LimitKey :=
  ⟨key.serviceName, defaultCustomer, key.rateLimitId⟩

/-- The exact row, else the default row. -/
def Database.effective (database : Database) (key : LimitKey) : Option LimitRow :=
  (database.findLimit key).or (database.findLimit (defaultKey key))

/-- The unit that a label stands for on both wires. -/
def unitOf : TimeUnitLabel → TimeUnit
  | .minute => .minute
  | .day => .day
  | .month => .month

theorem parseTimeUnit_eq (label : TimeUnitLabel) :
    Enforcer.parseTimeUnit label.text = unitOf label := by
  cases label <;> decide

theorem toLimit_eq (row : LimitRow) :
    ProtoMappers.toLimit row =
      .ok ⟨row.key, row.limitValue, unitOf row.timeUnit, row.configId⟩ := by
  have known : ProtoMappers.toTimeUnit row.timeUnit.text = .ok (unitOf row.timeUnit) := by
    cases row.timeUnit <;> decide
  simp only [ProtoMappers.toLimit, known]
  rfl

theorem mapM_toLimit (rows : List LimitRow) :
    rows.mapM ProtoMappers.toLimit = .ok (rows.map fun row =>
      ⟨row.key, row.limitValue, unitOf row.timeUnit, row.configId⟩) := by
  have isPure : ProtoMappers.toLimit = fun row => (pure ⟨row.key, row.limitValue,
      unitOf row.timeUnit, row.configId⟩ : Except AppException Limit) := by
    funext row
    exact toLimit_eq row
  rw [isPure, List.mapM_pure]
  rfl

section Lookup

variable {database : Database} {key : LimitKey}

theorem matchesLookup_iff {row : LimitRow} :
    Enforcer.matchesLookup key row = true ↔ row.key = key ∨ row.key = defaultKey key := by
  rcases key with ⟨serviceName, customerId, rateLimitId⟩
  simp only [Enforcer.matchesLookup, Bool.and_eq_true, Bool.or_eq_true, decide_eq_true_eq,
    LimitRow.key, defaultKey, LimitKey.mk.injEq]
  grind

/-- The query of the data plane is the lookup of the exact row, then of the default row. -/
theorem lookupRow_eq_or {rows : List LimitRow} (keyed : Keyed LimitRow.key rows) :
    Enforcer.lookupRow rows key =
      (rows.find? fun row => row.key = key).or
        (rows.find? fun row => row.key = defaultKey key) := by
  cases first : Enforcer.lookupRow rows key with
  | none =>
      have passesNone := head?_sort_eq_none first
      have absent : ∀ wanted, wanted = key ∨ wanted = defaultKey key →
          rows.find? (fun row => row.key = wanted) = none := by
        intro wanted isWanted
        apply List.find?_eq_none.mpr
        intro row mem isKey
        have isKey : row.key = wanted := by simpa using isKey
        have passes := matchesLookup_iff.mpr (isKey ▸ isWanted)
        rw [passesNone row mem] at passes
        simp at passes
      simp [absent key (Or.inl rfl), absent (defaultKey key) (Or.inr rfl)]
  | some row =>
      rcases head?_sort_least first with ⟨mem, passes, least⟩
      have found := find?_of_mem keyed mem
      rcases matchesLookup_iff.mp passes with isExact | isDefault
      · rw [isExact] at found
        simp [found]
      · cases exactRow : rows.find? (fun row => row.key = key) with
        | none =>
            rw [isDefault] at found
            simp [found]
        | some exact =>
            -- the default row comes first only if the exact row is a default row too
            have exactKey : exact.key = key := by simpa using List.find?_some exactRow
            have exactMem := List.mem_of_find?_eq_some exactRow
            have below := least exact exactMem (matchesLookup_iff.mpr (Or.inl exactKey))
            have rowIs : row.isDefault = true := by
              simp [LimitRow.isDefault, show row.customerId = defaultCustomer from
                congrArg LimitKey.customerId isDefault]
            have exactIs : exact.isDefault = true := by
              rw [rowIs] at below
              exact Bool.eq_true_of_true_le below
            have isStar : key.customerId = defaultCustomer := by
              have isCustomer : exact.customerId = key.customerId :=
                congrArg LimitKey.customerId exactKey
              simpa [LimitRow.isDefault, isCustomer] using exactIs
            have sameKey : row.key = key := by
              rw [isDefault]
              exact LimitKey.ext rfl isStar.symm rfl
            rw [sameKey, exactRow] at found
            simpa using found.symm

theorem lookupRow_eq_effective (sane : Sane database) :
    Enforcer.lookupRow database.limits key = database.effective key :=
  lookupRow_eq_or sane.tuples

/-- `query_db` returns the cap of the effective row. -/
theorem queryDb_eq (sane : Sane database) (texts : isPostgresText key.serviceName ∧
    isPostgresText key.customerId ∧ isPostgresText key.rateLimitId) :
    Enforcer.queryDb (some database.limits) key =
      .ok (match database.effective key with
        | some row => .configured ⟨row.limitValue, unitOf row.timeUnit⟩
        | none => .unconfigured) := by
  simp only [Enforcer.queryDb, texts, Bool.and_self, if_true, Enforcer.resolution,
    lookupRow_eq_effective sane]
  cases database.effective key with
  | none => rfl
  | some row => simp only [parseTimeUnit_eq]

theorem resolve_eq (sane : Sane database) (conditions : Conditions) :
    LimitRepository.resolve conditions key database =
      query conditions (do
        bindTexts [key.serviceName, key.rateLimitId, key.customerId]
        pure (database.effective key)) := by
  rw [← lookupRow_eq_effective sane]
  rfl

/-- The repository returns the effective row. -/
theorem resolve_eq_ok (sane : Sane database) {conditions : Conditions}
    (healthy : ∀ point, conditions.faults point = none)
    (texts : isPostgresText key.serviceName ∧ isPostgresText key.customerId ∧
      isPostgresText key.rateLimitId) :
    LimitRepository.resolve conditions key database = .ok (database.effective key) := by
  simp only [resolve_eq sane, query, healthy, bindTexts, List.all_cons, List.all_nil, texts,
    Bool.and_self, if_true]
  rfl

/-- A resolved limit that the service answers is the effective row, marked as what it is. -/
theorem getLimit_resolved (sane : Sane database) {conditions : Conditions}
    (healthy : ∀ point, conditions.faults point = none)
    (texts : isPostgresText key.serviceName ∧ isPostgresText key.customerId ∧
      isPostgresText key.rateLimitId) {principal : Principal} {response : AdminResponse}
    (answered : LimitAdminService.getLimit principal conditions database key true =
      .ok response) :
    ∃ row, database.effective key = some row ∧
      response = .resolvedLimit ⟨row.key, row.limitValue, unitOf row.timeUnit, row.configId⟩
        (row.customerId = defaultCustomer) := by
  simp only [LimitAdminService.getLimit, if_true, resolve_eq_ok sane healthy texts, bind,
    Except.bind] at answered
  split at answered
  · simp at answered
  · split at answered
    · simp at answered
    · cases found : database.effective key with
      | none => simp [found] at answered
      | some row =>
          simp only [found, toLimit_eq, pure, Except.pure, Except.ok.injEq] at answered
          exact ⟨row, rfl, answered.symm⟩

/-- A listing that the service answers is a page of the repository. -/
theorem listLimits_eq_ok {principal : Principal} {conditions : Conditions}
    {serviceName customerId rateLimitId pageToken : String} {pageSize : ℤ}
    {response : AdminResponse}
    (answered : LimitAdminService.listLimits principal conditions database serviceName customerId
      rateLimitId pageSize pageToken = .ok response) :
    ∃ page, LimitRepository.list conditions serviceName customerId rateLimitId
        (LimitValidator.clampPageSize pageSize).toNat pageToken database = .ok page ∧
      response = .limits (page.items.map fun row =>
        ⟨row.key, row.limitValue, unitOf row.timeUnit, row.configId⟩) page.nextPageToken := by
  simp only [LimitAdminService.listLimits, mapM_toLimit, bind, Except.bind] at answered
  split at answered
  · cases answered
  · split at answered
    · cases answered
    · split at answered
      · cases answered
      · rename_i page listed
        cases answered
        exact ⟨page, listed, rfl⟩

end Lookup

section Locality

variable {before after : Database}

theorem findLimit_of_accepted (sane : Sane before) {principal : Principal} {now : ℤ}
    {request : WriteRequest} (accepted : Accepted principal now before after request)
    {key : LimitKey} (elsewhere : request.limitKey? ≠ some key) :
    after.findLimit key = before.findLimit key := by
  cases accepted with
  | missing same => simp only [findLimit, same.limits]
  | registered _ effect => simp only [findLimit, effect.limits]
  | @inserted _ row isLimit _ effect =>
      rw [findLimit_of_inserted effect]
      apply Function.update_of_ne
      rintro rfl
      exact elsewhere isLimit
  | @updated _ old row isLimit _ effect =>
      rw [findLimit_of_updated sane effect]
      apply Function.update_of_ne
      rintro rfl
      exact elsewhere isLimit
  | @deleted _ old isLimit _ effect =>
      rw [findLimit_of_deleted sane effect]
      apply Function.update_of_ne
      rintro rfl
      exact elsewhere isLimit

theorem findLimit_serve {backend : Backend} {plane : ControlPlane} (sane : Sane plane.database)
    {call : AdminCall} {request : WriteRequest} (isWrite : call.request = .write request)
    {key : LimitKey} (elsewhere : request.limitKey? ≠ some key) :
    (serve backend plane call).2.database.findLimit key = plane.database.findLimit key := by
  rcases serve_cases backend plane call with ⟨_, _, same⟩ |
    ⟨_, _, _, _, ⟨_, _, unchanged⟩ | ⟨other, isOther, accepted⟩⟩
  · simp only [findLimit, same.limits]
  · rw [unchanged]
  · rw [isWrite] at isOther
    cases isOther
    exact findLimit_of_accepted sane accepted elsewhere

/-- A write moves the effective row of its own key, and of a key that falls back on it. -/
theorem effective_serve {backend : Backend} {plane : ControlPlane} (sane : Sane plane.database)
    {call : AdminCall} {request : WriteRequest} (isWrite : call.request = .write request)
    {written key : LimitKey} (isKey : request.limitKey? = some written) (notOwn : key ≠ written)
    (notDefault : defaultKey key = written → (plane.database.findLimit key).isSome) :
    (serve backend plane call).2.database.effective key = plane.database.effective key := by
  have elsewhere : ∀ other, other ≠ written →
      (serve backend plane call).2.database.findLimit other = plane.database.findLimit other := by
    intro other different
    apply findLimit_serve sane isWrite
    intro same
    rw [isKey, Option.some.injEq] at same
    exact different same.symm
  simp only [effective, elsewhere key notOwn]
  by_cases fallsBack : defaultKey key = written
  · rcases Option.isSome_iff_exists.mp (notDefault fallsBack) with ⟨row, found⟩
    simp [found]
  · rw [elsewhere _ fallsBack]

end Locality

/-- One of the two queries answers differently. -/
def Moves (before after : Database) (conditions : Conditions) (key : LimitKey) : Prop :=
  Enforcer.queryDb (some after.limits) key ≠ Enforcer.queryDb (some before.limits) key ∨
    LimitRepository.resolve conditions key after ≠ LimitRepository.resolve conditions key before

theorem effective_ne_of_moves {before after : Database} (saneBefore : Sane before)
    (saneAfter : Sane after) {conditions : Conditions} {key : LimitKey}
    (moves : Moves before after conditions key) : after.effective key ≠ before.effective key := by
  intro same
  rcases moves with differs | differs
  · apply differs
    simp only [Enforcer.queryDb, Enforcer.resolution, lookupRow_eq_effective saneBefore,
      lookupRow_eq_effective saneAfter, same]
  · apply differs
    simp only [resolve_eq saneBefore, resolve_eq saneAfter, same]

/-- In every state that is reached both planes resolve a key to the exact row, else to the default
row. A write of a customer's row moves its own key only; one of a default row moves that key and
keys of its service and rate limit without an exact row. -/
theorem resolution_exact_then_default (backend : Backend) (pool : ℕ → Connection)
    (calls : List AdminCall) {plane : ControlPlane}
    (reached : planeAfter backend ⟨pool, .empty⟩ calls = plane) :
    (∀ conditions key, (∀ point, conditions.faults point = none) →
      (isPostgresText key.serviceName ∧ isPostgresText key.customerId ∧
        isPostgresText key.rateLimitId) →
      Enforcer.queryDb (some plane.database.limits) key =
        .ok (match plane.database.effective key with
          | some row => .configured ⟨row.limitValue, unitOf row.timeUnit⟩
          | none => .unconfigured) ∧
      LimitRepository.resolve conditions key plane.database =
        .ok (plane.database.effective key) ∧
      ∀ principal response,
        LimitAdminService.getLimit principal conditions plane.database key true = .ok response →
        ∃ row, plane.database.effective key = some row ∧
          response = .resolvedLimit ⟨row.key, row.limitValue, unitOf row.timeUnit, row.configId⟩
            (row.customerId = defaultCustomer)) ∧
    ∀ call request written, call.request = .write request →
      request.limitKey? = some written → ∀ conditions key,
      Moves plane.database (serve backend plane call).2.database conditions key →
      (written.customerId ≠ defaultCustomer → key = written) ∧
      (written.customerId = defaultCustomer →
        key.serviceName = written.serviceName ∧ key.rateLimitId = written.rateLimitId ∧
          (key = written ∨ plane.database.findLimit key = none)) := by
  have sane : Sane plane.database := reached ▸ sane_planeAfter backend pool calls
  constructor
  · intro conditions key healthy texts
    refine ⟨queryDb_eq sane texts, resolve_eq_ok sane healthy texts, ?_⟩
    intro principal response answered
    exact getLimit_resolved sane healthy texts answered
  · intro call request written isWrite isKey conditions key moves
    have saneAfter : Sane (serve backend plane call).2.database := by
      have next := sane_planeAfter backend pool (calls ++ [call])
      rw [planeAfter_concat, reached] at next
      exact next
    have changed := effective_ne_of_moves sane saneAfter moves
    have cases : key = written ∨
        defaultKey key = written ∧ plane.database.findLimit key = none := by
      by_contra neither
      apply changed
      apply effective_serve sane isWrite isKey (fun own => neither (Or.inl own))
      intro fallsBack
      apply Option.isSome_iff_ne_none.mpr
      exact fun absent => neither (Or.inr ⟨fallsBack, absent⟩)
    constructor
    · intro notDefault
      rcases cases with own | ⟨rfl, _⟩
      · exact own
      · exact absurd rfl notDefault
    · intro _
      rcases cases with rfl | ⟨rfl, absent⟩
      · exact ⟨rfl, rfl, Or.inl rfl⟩
      · exact ⟨rfl, rfl, Or.inr absent⟩

section Sample

/-- The plane on which `search` has a default limit only. -/
def defaultedPlane : ControlPlane := planeAfter sampleBackend samplePlane sampleCalls

theorem resolution_exact_then_default_sample :
    Enforcer.queryDb (some defaultedPlane.database.limits) ⟨"search", "acme", "query"⟩ =
        .ok (.configured ⟨10, .minute⟩) ∧
      ∀ key, Moves defaultedPlane.database
          (serve sampleBackend defaultedPlane (sampleCall "alice" sampleUpsert)).2.database
          ⟨5, fun _ => none⟩ key →
        key = ⟨"search", "acme", "query"⟩ := by
  have resolves := resolution_exact_then_default sampleBackend _ sampleCalls
    (show planeAfter sampleBackend samplePlane sampleCalls = defaultedPlane from rfl)
  constructor
  · apply (resolves.1 ⟨5, fun _ => none⟩ _ (fun _ => rfl) (by decide +kernel)).1.trans
    decide +kernel
  · intro key moves
    exact (resolves.2 _ sampleUpsert ⟨"search", "acme", "query"⟩ rfl rfl _ key moves).1 (by decide)

/-- The default row is the exact row of its own key, so that an update of it moves a key that has
an exact row throughout. -/
theorem default_update_moves_own_key :
    ¬ ∀ conditions key,
      Moves defaultedPlane.database
        (serve sampleBackend defaultedPlane (sampleCall "alice"
          (.updateLimit ⟨"search", "*", "query"⟩ 20 (.known .minute) false))).2.database
        conditions key →
      key.serviceName = "search" ∧ key.rateLimitId = "query" ∧
        (defaultedPlane.database.findLimit key = none ∨
          (serve sampleBackend defaultedPlane (sampleCall "alice"
            (.updateLimit ⟨"search", "*", "query"⟩ 20 (.known .minute)
              false))).2.database.findLimit key = none) := by
  intro onlyInexact
  have moves := onlyInexact ⟨5, fun _ => none⟩ ⟨"search", "*", "query"⟩
    (Or.inl (by decide +kernel))
  exact absurd moves (by decide +kernel)

end Sample

end RateLimiter.Management
