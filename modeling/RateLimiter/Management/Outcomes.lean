import RateLimiter.Management.Paging
import RateLimiter.Management.Resolution

/-!
# What the control plane answers

A request about limits or their audit by somebody who may make it is answered,
or refused for a reason that the caller can act on, exactly when what the
checks let through can be carried out. Otherwise the answer is an internal
error: the checks admit texts and instants that the database does not.
-/

namespace RateLimiter.Management

open Database

/-- The statuses that tell the caller what to do; OK is none. -/
def Expected (status : Option StatusCode) : Prop :=
  status ∈ [none, some .invalidArgument, some .notFound, some .alreadyExists,
    some .failedPrecondition]

instance (status : Option StatusCode) : Decidable (Expected status) :=
  inferInstanceAs (Decidable (_ ∈ _))

/-- The requests about limits and their audit that the principal may make. -/
inductive Authorised (principal : Principal) : AdminRequest → Prop where
  | write {request : WriteRequest} {key : LimitKey} (isKey : request.limitKey? = some key)
      (canEdit : principal.canEdit key.serviceName = true) : Authorised principal (.write request)
  | getLimit {key : LimitKey} (canView : principal.canView key.serviceName = true)
      (resolve : Bool) : Authorised principal (.read (.getLimit key resolve))
  | listLimits {serviceName : String} (canView : principal.canView serviceName = true)
      (customerId rateLimitId : String) (pageSize : ℤ) (pageToken : String) :
      Authorised principal
        (.read (.listLimits serviceName customerId rateLimitId pageSize pageToken))
  | listAuditEntries {serviceName : String} (canView : principal.canView serviceName = true)
      (key : Option LimitKey) (configId : ℤ) (since : Option Timestamp) (pageSize : ℤ)
      (pageToken : String) :
      Authorised principal
        (.read (.listAuditEntries serviceName key configId since pageSize pageToken))

/-- What the checks let through can be carried out. A request that they refuse is answered
anyway; an instant that Java cannot hold fails before the page token is looked at. -/
def Admissible (backend : Backend) (principal : Principal) : AdminRequest → Prop
  | .write request => request.validate = .ok () →
      isPostgresText principal.name = true ∧
        ∀ key, request.limitKey? = some key → isPostgresText key.customerId = true
  | .read (.getLimit key _) => LimitValidator.validateKey key = .ok () →
      isPostgresText key.customerId = true
  | .read (.listLimits serviceName customerId rateLimitId _ pageToken) =>
      LimitValidator.validateServiceName serviceName = .ok () →
      ∀ cursor, PageToken.decodeLong pageToken 0 = .ok cursor →
        isPostgresText customerId = true ∧ isPostgresText rateLimitId = true
  | .read (.listAuditEntries serviceName key _ since _ pageToken) =>
      LimitValidator.validateServiceName serviceName = .ok () →
      ∃ instant, LimitAdminService.instantOf since = .ok instant ∧
        ∀ cursor, PageToken.decodeLong pageToken AuditRepository.startCursor = .ok cursor →
          ∃ bound, AuditRepository.Binds backend serviceName key instant bound
  | .read _ => True

/-- A data exception, class 22: a value that the server cannot hold. -/
def SqlException.IsData (error : SqlException) : Prop :=
  ∃ state, error.state = some state ∧ "22".toList.isPrefixOf state.toList = true

/-- An instant that does not fit in a `timestamptz` is refused as a data exception. -/
def Backend.RefusesTimestamps (backend : Backend) : Prop :=
  ∀ {seconds nanos : ℤ} {error : SqlException},
    backend.bindTimestamp seconds nanos = .error error → error.IsData

/-- A status that is expected under a condition, and an internal error without it. -/
structure Answers (condition : Prop) (status : Option StatusCode) : Prop where
  expected : condition → Expected status
  unexpected : ¬condition → status = some .internal

/-- A check that fails for the fault of its caller only. -/
def OnlyInvalid {α : Type} (check : Except AppException α) : Prop :=
  ∀ error, check = .error error → error.code = .invalidArgument

section Checks

theorem OnlyInvalid.bind {α β : Type} {check : Except AppException α}
    {rest : α → Except AppException β} (onlyInvalid : OnlyInvalid check)
    (others : ∀ value, OnlyInvalid (rest value)) : OnlyInvalid (check >>= rest) := by
  intro error failed
  cases result : check with
  | error refusal =>
      rw [result] at failed
      have same : refusal = error := Except.error.inj failed
      exact onlyInvalid error (same ▸ result)
  | ok value =>
      rw [result] at failed
      exact others value error failed

theorem onlyInvalid_validateText {field explanation text : String} {accepts : String → Bool} :
    OnlyInvalid (LimitValidator.validateText field accepts explanation text) := by
  intro error failed
  unfold LimitValidator.validateText at failed
  split at failed
  · cases failed
    rfl
  · split at failed
    · cases failed
    · cases failed
      rfl

theorem onlyInvalid_validateKey (key : LimitKey) :
    OnlyInvalid (LimitValidator.validateKey key) :=
  onlyInvalid_validateText.bind fun _ => onlyInvalid_validateText.bind fun _ =>
    onlyInvalid_validateText

theorem onlyInvalid_validateLimitWrite (key : LimitKey) (limitValue : ℤ)
    (timeUnit : WireTimeUnit) :
    OnlyInvalid (LimitValidator.validateLimitWrite key limitValue timeUnit) := by
  apply (onlyInvalid_validateKey key).bind
  intro _
  apply OnlyInvalid.bind
  · intro error failed
    unfold LimitValidator.validateLimitValue at failed
    split at failed <;> cases failed
    rfl
  · intro _ error failed
    unfold LimitValidator.validateTimeUnit at failed
    split at failed <;> cases failed <;> rfl

theorem onlyInvalid_decodeLong (token : String) (start : ℤ) :
    OnlyInvalid (PageToken.decodeLong token start) := by
  apply OnlyInvalid.bind
  · intro error failed
    unfold PageToken.decode at failed
    split at failed
    · cases failed
    · split at failed <;> cases failed
      rfl
  · intro decoded error failed
    split at failed
    · cases failed
    · split at failed <;> cases failed
      rfl

/-- A request that its check refuses is answered. -/
theorem answers_bind {α β : Type} {check : Except AppException α}
    {rest : α → Except AppException β} {condition : α → Prop} (onlyInvalid : OnlyInvalid check)
    (answers : ∀ value, check = .ok value → Answers (condition value) (statusOf (rest value))) :
    Answers (∀ value, check = .ok value → condition value) (statusOf (check >>= rest)) := by
  cases result : check with
  | error refusal =>
      have isStatus : statusOf (.error refusal >>= rest) = some .invalidArgument :=
        congrArg some (onlyInvalid refusal result)
      rw [isStatus]
      refine ⟨fun _ => by decide, fun refused => absurd (fun value isOk => ?_) refused⟩
      cases isOk
  | ok value =>
      have sameRest : statusOf (.ok value >>= rest) = statusOf (rest value) := rfl
      rw [sameRest]
      refine ⟨fun holds => (answers value result).expected (holds value rfl), fun fails => ?_⟩
      apply (answers value result).unexpected
      intro holds
      apply fails
      intro other isOk
      cases isOk
      exact holds

theorem answers_check {β : Type} {check : Except AppException Unit}
    {rest : Except AppException β} {condition : Prop} (onlyInvalid : OnlyInvalid check)
    (answers : check = .ok () → Answers condition (statusOf rest)) :
    Answers (check = .ok () → condition) (statusOf (do check; rest)) := by
  have answered := @answers_bind Unit β check (fun _ => rest) (fun _ => condition) onlyInvalid
    fun _ isOk => answers isOk
  exact ⟨fun holds => answered.expected fun _ isOk => holds isOk,
    fun fails => answered.unexpected fun holds => fails (holds ())⟩

end Checks

section Texts

/-- The grammars admit no character that Postgres refuses. -/
theorem isPostgresText_of_matchesIdentifier {extra : List Char} {most : ℕ} {text : String}
    (accepted : LimitValidator.matchesIdentifier extra most text = true)
    (foreign : Char.ofNat 0 ∉ extra) : isPostgresText text = true := by
  have absent := LimitValidator.notMem_of_matchesIdentifier accepted ⟨by decide, foreign⟩
  simpa [isPostgresText] using absent

theorem isPostgresText_of_validateServiceName {text : String}
    (valid : LimitValidator.validateServiceName text = .ok ()) : isPostgresText text = true :=
  isPostgresText_of_matchesIdentifier (LimitValidator.validateText_eq_ok_iff.mp valid).2
    (by decide)

theorem isPostgresText_of_validateRateLimitId {text : String}
    (valid : LimitValidator.validateRateLimitId text = .ok ()) : isPostgresText text = true :=
  isPostgresText_of_matchesIdentifier (LimitValidator.validateText_eq_ok_iff.mp valid).2
    (by decide)

/-- Of a valid tuple the customer alone can be no text. -/
theorem texts_of_validateKey {key : LimitKey} (valid : LimitValidator.validateKey key = .ok ())
    (customer : isPostgresText key.customerId = true) :
    isPostgresText key.serviceName ∧ isPostgresText key.customerId ∧
      isPostgresText key.rateLimitId := by
  rcases LimitValidator.validateKey_eq_ok_iff.mp valid with ⟨service, _, rateLimit⟩
  exact ⟨isPostgresText_of_validateServiceName service, customer,
    isPostgresText_of_validateRateLimitId rateLimit⟩

/-- What the database says of data it cannot hold is not translated. -/
theorem translate_isData {error : SqlException} (isData : error.IsData) :
    (SqlErrors.translate error).code = .internal := by
  rcases isData with ⟨state, isState, isClass⟩
  have other (known : String) (different : "22".toList.isPrefixOf known.toList = false) :
      state ≠ known := by
    rintro rfl
    rw [isClass] at different
    cases different
  have notConnection : "08".toList.isPrefixOf state.toList = false := by
    cases chars : state.toList with
    | nil => rfl
    | cons first rest =>
        have begins : ['2', '2'].isPrefixOf (first :: rest) = true := chars ▸ isClass
        have isTwo : '2' = first := by
          simp only [List.isPrefixOf, Bool.and_eq_true, beq_iff_eq] at begins
          exact begins.1
        subst isTwo
        rfl
  simp only [SqlErrors.translate, isState, notConnection, other "23505" (by decide),
    other "23503" (by decide), other "23514" (by decide),
    other "23502" (by decide), other "40001" (by decide),
    other "40P01" (by decide), or_self, if_false, Bool.false_eq_true]
  rfl

theorem invalidText_isData : SqlException.IsData .invalidText :=
  ⟨_, rfl, by decide⟩

theorem translate_invalidText : (SqlErrors.translate .invalidText).code = .internal :=
  translate_isData invalidText_isData

end Texts

section Writes

variable {conditions : Conditions} {connection : Connection} {database : Database}
  {key : LimitKey} {limitValue : ℤ} {timeUnit : String}
  (healthy : ∀ point, conditions.faults point = none)

theorem failure_error {ε α : Type} (error : ε) :
    failure (.error error : Except ε α) = some error := rfl

theorem translateWrite_invalidText (key : LimitKey) :
    (LimitRepository.translateWrite .invalidText key).code = .internal := by
  simp [LimitRepository.translateWrite, translate_invalidText]

theorem bindWrite_of_foreign (foreign : isPostgresText key.customerId = false) :
    bindWrite key timeUnit = .error .invalidText := by
  simp [bindWrite, foreign]

include healthy

/-- Nothing is written under a name that is no text. -/
theorem inAuditedTx_foreign {α : Type} {actor : String} (foreign : isPostgresText actor = false)
    (body : Option String → Database → Except Thrown α × Database) :
    statusOf (LimitRepository.inAuditedTx conditions actor body connection database).1 =
      some .internal := by
  simp only [LimitRepository.inAuditedTx, LimitRepository.setActor, healthy, foreign,
    Bool.false_eq_true, if_false]
  exact congrArg some translate_invalidText

variable {actor : String} (actorText : isPostgresText actor = true)
  (foreign : isPostgresText key.customerId = false)

include actorText foreign

theorem create_foreign :
    statusOf (LimitRepository.create conditions actor key limitValue timeUnit connection
      database).1 = some .internal := by
  simp only [LimitRepository.create, inAuditedTx_status healthy actorText,
    insertBody_failure healthy, insertLimit, bindWrite_of_foreign foreign, failure_error,
    Option.map_some, Thrown.code, translateWrite_invalidText]

theorem update_foreign (createIfAbsent : Bool) :
    statusOf (LimitRepository.update conditions actor key limitValue timeUnit createIfAbsent
      connection database).1 = some .internal := by
  simp only [LimitRepository.update, inAuditedTx_status healthy actorText]
  cases createIfAbsent with
  | true =>
      simp only [if_true, upsert_failure healthy, upsertLimit, bindWrite_of_foreign foreign,
        failure_error, Option.map_some, Thrown.code, translateWrite_invalidText]
  | false =>
      simp only [Bool.false_eq_true, if_false, LimitRepository.updateExisting,
        execute_healthy healthy, updateLimit, bindWrite_of_foreign foreign, failure_error,
        Option.map_some, Thrown.code, translate_invalidText]

theorem delete_foreign (allowMissing : Bool) :
    statusOf (LimitRepository.delete conditions actor key allowMissing connection database).1 =
      some .internal := by
  simp only [LimitRepository.delete, inAuditedTx_status healthy actorText,
    LimitRepository.deleteBody, execute_healthy healthy, deleteLimit, foreign, Bool.and_false,
    Bool.false_and, Bool.false_eq_true, if_false, failure_error, Option.map_some, Thrown.code,
    translate_invalidText]

end Writes

section WriteRequests

variable {principal : Principal} {conditions : Conditions} {connection : Connection}
  {database : Database} {key : LimitKey}

/-- The parameters of a valid write are bound. -/
theorem bindWrite_of_validateLimitWrite {limitValue : ℤ} {timeUnit : WireTimeUnit}
    (valid : LimitValidator.validateLimitWrite key limitValue timeUnit = .ok ())
    (customer : isPostgresText key.customerId = true) :
    0 ≤ limitValue ∧
      ∃ label, bindWrite key (ProtoMappers.toTimeUnitLabel timeUnit) = .ok label := by
  rcases LimitValidator.validateLimitWrite_eq_ok_iff.mp valid with ⟨validKey, nonnegative, isUnit⟩
  exact ⟨nonnegative, bindWrite_of_valid (texts_of_validateKey validKey customer) isUnit⟩

/-- A transaction is settled by two texts: the name it is made under and the customer. -/
theorem answers_of_texts {α : Type} {actor : String} {result : Except AppException α}
    (unnamed : isPostgresText actor = false → statusOf result = some .internal)
    (foreign : isPostgresText actor = true → isPostgresText key.customerId = false →
      statusOf result = some .internal)
    (texts : isPostgresText actor = true → isPostgresText key.customerId = true →
      Expected (statusOf result)) :
    Answers (isPostgresText actor = true ∧ isPostgresText key.customerId = true)
      (statusOf result) := by
  refine ⟨fun both => texts both.1 both.2, fun notBoth => ?_⟩
  cases isNamed : isPostgresText actor with
  | false => exact unnamed isNamed
  | true =>
      cases isCustomer : isPostgresText key.customerId with
      | false => exact foreign isNamed isCustomer
      | true => exact absurd ⟨isNamed, isCustomer⟩ notBoth

/-- For an editor a write fails as its check does, or else as its transaction does. -/
theorem guarded_status_of_editor {α : Type} {validated : Except AppException Unit}
    {action : Except AppException α × Connection × Database}
    {respond : α → Except AppException AdminResponse}
    (canEdit : principal.canEdit key.serviceName = true)
    (responds : ∀ value, ∃ response, respond value = .ok response) :
    statusOf (LimitAdminService.guarded connection database
        (do validated; Authorizer.requireEditor principal key.serviceName) action respond).1 =
      statusOf (do validated; action.1) := by
  cases result : validated with
  | error refusal => rfl
  | ok _ => exact guarded_status (admitted_of_valid rfl canEdit) responds

/-- An invalid write is refused before it is looked at further. -/
theorem guarded_answers {α : Type} {validated : Except AppException Unit}
    {action : Except AppException α × Connection × Database}
    {respond : α → Except AppException AdminResponse} {condition : Prop}
    (onlyInvalid : OnlyInvalid validated) (canEdit : principal.canEdit key.serviceName = true)
    (responds : ∀ value, ∃ response, respond value = .ok response)
    (answers : validated = .ok () → Answers condition (statusOf action.1)) :
    Answers (validated = .ok () → condition)
      (statusOf (LimitAdminService.guarded connection database
        (do validated; Authorizer.requireEditor principal key.serviceName) action respond).1) := by
  rw [guarded_status_of_editor canEdit responds]
  exact answers_check onlyInvalid answers

theorem write_answers (healthy : ∀ point, conditions.faults point = none)
    (named : principal.name ≠ "") {request : WriteRequest} (isKey : request.limitKey? = some key)
    (canEdit : principal.canEdit key.serviceName = true) :
    Answers (request.validate = .ok () →
        isPostgresText principal.name = true ∧ isPostgresText key.customerId = true)
      (statusOf (LimitAdminService.write principal conditions connection database request).1) := by
  cases request with
  | createLimit _ limitValue timeUnit =>
      cases isKey
      refine guarded_answers (onlyInvalid_validateLimitWrite key limitValue timeUnit) canEdit
        toLimit_eq_ok fun valid => ?_
      apply answers_of_texts
      · intro unnamed
        exact inAuditedTx_foreign healthy unnamed _
      · intro isNamed foreign
        exact create_foreign healthy isNamed foreign
      · intro isNamed customer
        rcases bindWrite_of_validateLimitWrite valid customer with ⟨nonnegative, label, bound⟩
        rw [create_status healthy isNamed named bound nonnegative]
        cases database.holds key <;> cases database.registers key.serviceName <;> decide
  | updateLimit _ limitValue timeUnit createIfAbsent =>
      cases isKey
      refine guarded_answers (onlyInvalid_validateLimitWrite key limitValue timeUnit) canEdit
        toLimit_eq_ok fun valid => ?_
      apply answers_of_texts
      · intro unnamed
        exact inAuditedTx_foreign healthy unnamed _
      · intro isNamed foreign
        exact update_foreign healthy isNamed foreign createIfAbsent
      · intro isNamed customer
        rcases bindWrite_of_validateLimitWrite valid customer with ⟨nonnegative, label, bound⟩
        rw [update_status healthy isNamed named bound nonnegative]
        cases database.holds key <;> cases createIfAbsent <;>
          cases database.registers key.serviceName <;> decide
  | deleteLimit _ allowMissing =>
      cases isKey
      refine guarded_answers (onlyInvalid_validateKey key) canEdit (fun _ => ⟨_, rfl⟩)
        fun valid => ?_
      apply answers_of_texts
      · intro unnamed
        exact inAuditedTx_foreign healthy unnamed _
      · intro isNamed foreign
        exact delete_foreign healthy isNamed foreign allowMissing
      · intro isNamed customer
        rw [delete_status healthy isNamed named allowMissing (texts_of_validateKey valid customer)]
        cases database.holds key <;> cases allowMissing <;> decide
  | registerService service => cases isKey

end WriteRequests

section ReadRequests

/-- A step that fails for no fault of the caller makes the answer an internal error. -/
theorem answers_exists {α β : Type} {step : Except AppException α}
    {rest : α → Except AppException β} {condition : α → Prop}
    (internal : ∀ error, step = .error error → error.code = .internal)
    (answers : ∀ value, step = .ok value → Answers (condition value) (statusOf (rest value))) :
    Answers (∃ value, step = .ok value ∧ condition value) (statusOf (step >>= rest)) := by
  cases result : step with
  | error error =>
      have isStatus : statusOf (.error error >>= rest) = some .internal :=
        congrArg some (internal error result)
      rw [isStatus]
      refine ⟨fun holds => ?_, fun _ => rfl⟩
      rcases holds with ⟨value, isOk, _⟩
      cases isOk
  | ok value =>
      have sameRest : statusOf (.ok value >>= rest) = statusOf (rest value) := rfl
      rw [sameRest]
      refine ⟨fun holds => ?_, fun fails => ?_⟩
      · rcases holds with ⟨other, isOk, condition⟩
        cases isOk
        exact (answers value result).expected condition
      · exact (answers value result).unexpected fun condition => fails ⟨value, rfl, condition⟩

theorem Answers.congr {condition other : Prop} {status : Option StatusCode}
    (answers : Answers condition status) (same : condition ↔ other) : Answers other status :=
  ⟨fun holds => answers.expected (same.mpr holds),
    fun fails => answers.unexpected fun holds => fails (same.mp holds)⟩

theorem answers_of_expected {status : Option StatusCode} (expected : Expected status) :
    Answers True status :=
  ⟨fun _ => expected, fun impossible => absurd trivial impossible⟩

theorem statusOf_bind {α β : Type} (step : Except AppException α)
    {rest : α → Except AppException β} (responds : ∀ value, ∃ response, rest value = .ok response) :
    statusOf (step >>= rest) = statusOf step := by
  cases step with
  | error error => rfl
  | ok value =>
      rcases responds value with ⟨response, responded⟩
      exact congrArg statusOf responded

theorem statusOf_bind_pure {α β : Type} (step : Except AppException α) (respond : α → β) :
    statusOf (do let value ← step; pure (respond value)) = statusOf step :=
  statusOf_bind step fun value => ⟨respond value, rfl⟩

theorem code_of_instantOf {since : Option Timestamp} {error : AppException}
    (failed : LimitAdminService.instantOf since = .error error) : error.code = .internal := by
  cases since with
  | none => cases failed
  | some timestamp =>
      simp only [LimitAdminService.instantOf] at failed
      split at failed
      · cases failed
      · cases failed
        rfl

theorem code_of_timestampFrom {instant : Option (ℤ × ℤ)} {error : AppException}
    (failed : AuditRepository.timestampFrom instant = .error error) :
    error.code = .internal := by
  unfold AuditRepository.timestampFrom at failed
  split at failed
  · cases failed
  · split at failed
    · cases failed
    · cases failed
      rfl

theorem requireViewer_eq_ok {principal : Principal} {serviceName : String}
    (canView : principal.canView serviceName = true) :
    Authorizer.requireViewer principal serviceName = .ok () := by
  simp [Authorizer.requireViewer, canView]

/-- Texts are bound, or refused as data that the database cannot hold. -/
theorem bindTexts_eq_ok_iff {α : Type} {texts : List String} {rest : Except SqlException α}
    {value : α} :
    (do bindTexts texts; rest) = .ok value ↔
      texts.all isPostgresText = true ∧ rest = .ok value := by
  unfold bindTexts
  split
  · rename_i accepted
    simp only [accepted, true_and]
    rfl
  · rename_i refused
    constructor
    · intro isOk
      cases isOk
    · intro accepted
      exact absurd accepted.1 refused

theorem bindTexts_eq_error {α : Type} {texts : List String} {rest : Except SqlException α}
    {error : SqlException} (failed : (do bindTexts texts; rest) = .error error) :
    error = .invalidText ∨ rest = .error error := by
  unfold bindTexts at failed
  split at failed
  · exact Or.inr failed
  · exact Or.inl (Except.error.inj failed).symm

/-- The bound of a statement that was refused for it is out of range. -/
theorem refused_of_bound_error {α : Type} {backend : Backend}
    (refuses : backend.RefusesTimestamps) {instant : Option (ℤ × ℤ)} {rows : Option ℤ → α}
    {error : SqlException}
    (failed : (do
        let bound ← instant.mapM fun pair : ℤ × ℤ => backend.bindTimestamp pair.1 pair.2
        pure (rows bound)) = .error error) : error.IsData := by
  cases instant with
  | none => cases failed
  | some pair =>
      cases result : backend.bindTimestamp pair.1 pair.2 with
      | error refusal =>
          simp only [Option.mapM_some, result] at failed
          have same : refusal = error := Except.error.inj failed
          exact refuses (same ▸ result)
      | ok bound =>
          simp only [Option.mapM_some, result] at failed
          cases failed

theorem bound_of_eq_ok {α : Type} {bound : Except SqlException (Option ℤ)} {rows : Option ℤ → α}
    {value : α} (fetched : (do let seconds ← bound; pure (rows seconds)) = .ok value) :
    ∃ seconds, bound = .ok seconds := by
  cases bound with
  | error error => cases fetched
  | ok seconds => exact ⟨seconds, rfl⟩

variable {backend : Backend} {principal : Principal} {conditions : Conditions}
  {database : Database} (healthy : conditions.Healthy)

include healthy

/-- A statement that fails for its data only makes the answer an internal error. -/
theorem answers_query {α β : Type} {statement : Except SqlException α}
    {rest : α → Except AppException β}
    (refuses : ∀ error, statement = .error error → error.IsData)
    (expected : ∀ value, statement = .ok value → Expected (statusOf (rest value))) :
    Answers (∃ value, statement = .ok value) (statusOf (query conditions statement >>= rest)) := by
  have answers := @answers_exists α β (query conditions statement) rest (fun _ => True)
    (fun error failed => ?_) (fun value answered => ?_)
  · apply answers.congr
    simp only [query_eq_ok_iff, healthy, true_and, and_true]
  · cases result : statement with
    | error refusal =>
        simp only [query, healthy.1, healthy.2, result] at failed
        rw [← Except.error.inj failed]
        exact translate_isData (refuses refusal result)
    | ok value =>
        rw [result, query_eq_ok_iff.mpr ⟨healthy, rfl⟩] at failed
        cases failed
  · exact answers_of_expected (expected value (query_eq_ok_iff.mp answered).2)

/-- A statement that has texts for parameters. -/
theorem answers_texts {α β : Type} {texts : List String} {value : α}
    {rest : α → Except AppException β} (expected : Expected (statusOf (rest value))) :
    Answers (texts.all isPostgresText = true)
      (statusOf (query conditions (do bindTexts texts; pure value) >>= rest)) := by
  have answers := @answers_query conditions healthy α β (do bindTexts texts; pure value) rest
    (fun error failed => ?_) (fun other isOther => ?_)
  · apply answers.congr
    simp only [bindTexts_eq_ok_iff]
    exact ⟨fun bound => bound.choose_spec.1, fun accepted => ⟨value, accepted, rfl⟩⟩
  · rcases bindTexts_eq_error failed with rfl | impossible
    · exact invalidText_isData
    · cases impossible
  · cases (bindTexts_eq_ok_iff.mp isOther).2
    exact expected

omit healthy in
/-- A limit that was looked for is shown, or is not there. -/
theorem expected_of_found (found : Option LimitRow) {missing : AppException}
    (notFound : missing.code = .notFound) :
    Expected (statusOf (match found with
      | none => .error missing
      | some row => do
          let limit ← ProtoMappers.toLimit row
          pure (.resolvedLimit limit row.isDefault) : Except AppException AdminResponse)) := by
  cases found with
  | none =>
      have isStatus : statusOf (.error missing : Except AppException AdminResponse) =
          some .notFound := congrArg some notFound
      rw [isStatus]
      decide
  | some row =>
      simp only [toLimit_eq]
      exact List.mem_cons_self

theorem getLimit_answers {key : LimitKey} (canView : principal.canView key.serviceName = true)
    (resolve : Bool) :
    Answers (LimitValidator.validateKey key = .ok () → isPostgresText key.customerId = true)
      (statusOf (LimitAdminService.getLimit principal conditions database key resolve)) := by
  apply answers_check (onlyInvalid_validateKey key)
  intro valid
  rw [requireViewer_eq_ok canView]
  have service := isPostgresText_of_validateServiceName
    (LimitValidator.validateKey_eq_ok_iff.mp valid).1
  have rateLimit := isPostgresText_of_validateRateLimitId
    (LimitValidator.validateKey_eq_ok_iff.mp valid).2.2
  have answers (texts : List String) (value : Option LimitRow) :=
    @answers_texts conditions healthy _ AdminResponse texts value (fun found =>
      match found with
      | none => .error (.of .notFound
          ("no limit for " ++ tuple key ++ if resolve then " (exact or default)" else ""))
      | some row => do
          let limit ← ProtoMappers.toLimit row
          pure (.resolvedLimit limit row.isDefault)) (expected_of_found value rfl)
  cases resolve with
  | true =>
      apply (answers [key.serviceName, key.rateLimitId, key.customerId] _).congr
      simp [service, rateLimit]
  | false =>
      apply (answers [key.serviceName, key.customerId, key.rateLimitId] _).congr
      simp [service, rateLimit]

theorem listLimits_answers {serviceName : String}
    (canView : principal.canView serviceName = true) (customerId rateLimitId : String)
    (pageSize : ℤ) (pageToken : String) :
    Answers (LimitValidator.validateServiceName serviceName = .ok () →
        ∀ cursor, PageToken.decodeLong pageToken 0 = .ok cursor →
          isPostgresText customerId = true ∧ isPostgresText rateLimitId = true)
      (statusOf (LimitAdminService.listLimits principal conditions database serviceName
        customerId rateLimitId pageSize pageToken)) := by
  apply answers_check onlyInvalid_validateText
  intro valid
  have service := isPostgresText_of_validateServiceName valid
  have sameStatus := @statusOf_bind _ AdminResponse (LimitRepository.list conditions serviceName
      customerId rateLimitId (LimitValidator.clampPageSize pageSize).toNat pageToken database)
    (fun page => do
      let limits ← page.items.mapM ProtoMappers.toLimit
      pure (.limits limits page.nextPageToken))
    (fun page => ⟨_, by rw [mapM_toLimit]; rfl⟩)
  rw [requireViewer_eq_ok canView]
  change Answers _ (statusOf (LimitRepository.list conditions serviceName customerId rateLimitId
    (LimitValidator.clampPageSize pageSize).toNat pageToken database >>= _))
  rw [sameStatus]
  apply answers_bind (onlyInvalid_decodeLong pageToken 0)
  intro cursor _
  apply (answers_texts healthy List.mem_cons_self).congr
  simp [service]

theorem listAuditEntries_answers (refuses : backend.RefusesTimestamps) {serviceName : String}
    (canView : principal.canView serviceName = true) (key : Option LimitKey) (configId : ℤ)
    (since : Option Timestamp) (pageSize : ℤ) (pageToken : String) :
    Answers (LimitValidator.validateServiceName serviceName = .ok () →
        ∃ instant, LimitAdminService.instantOf since = .ok instant ∧
          ∀ cursor, PageToken.decodeLong pageToken AuditRepository.startCursor = .ok cursor →
            ∃ bound, AuditRepository.Binds backend serviceName key instant bound)
      (statusOf (LimitAdminService.listAuditEntries backend principal conditions database
        serviceName key configId since pageSize pageToken)) := by
  apply answers_check onlyInvalid_validateText
  intro valid
  rw [requireViewer_eq_ok canView]
  apply answers_exists (fun _ => code_of_instantOf)
  intro instant _
  rw [statusOf_bind_pure]
  apply answers_bind (onlyInvalid_decodeLong pageToken AuditRepository.startCursor)
  intro cursor _
  refine (answers_exists (fun _ => code_of_timestampFrom) fun _ _ =>
    answers_query healthy ?_ fun value _ => List.mem_cons_self).congr ?_
  · intro error failed
    rcases bindTexts_eq_error failed with rfl | unbound
    · exact invalidText_isData
    · exact refused_of_bound_error refuses unbound
  · constructor
    · rintro ⟨_, fits, rows, fetched⟩
      rcases bindTexts_eq_ok_iff.mp fetched with ⟨texts, bound⟩
      rcases bound_of_eq_ok bound with ⟨seconds, isBound⟩
      exact ⟨seconds, texts, fits, isBound⟩
    · rintro ⟨bound, binds⟩
      exact ⟨(), binds.fits, _, bindTexts_eq_ok_iff.mpr
        ⟨binds.texts, congrArg (· >>= _) binds.bound_eq⟩⟩

end ReadRequests

theorem authorised_answers {backend : Backend} (refuses : backend.RefusesTimestamps)
    (plane : ControlPlane) {call : AdminCall} {principal : Principal}
    (authenticated : authenticateCall call.authorizer call.header = .ok principal)
    (named : principal.name ≠ "") (healthy : ∀ point, call.conditions.faults point = none)
    (authorised : Authorised principal call.request) :
    Answers (Admissible backend principal call.request)
      (statusOf (serve backend plane call).1) := by
  rcases call with ⟨header, authorizer, connection, conditions, request⟩
  have connected : conditions.Healthy := ⟨healthy .connect, healthy .statement⟩
  simp only [serve, authenticated]
  cases authorised with
  | write isKey canEdit =>
      apply (write_answers healthy named isKey canEdit).congr
      simp only [Admissible, isKey, Option.some.injEq, forall_eq']
  | getLimit canView resolve => exact getLimit_answers connected canView resolve
  | listLimits canView customerId rateLimitId pageSize pageToken =>
      exact listLimits_answers connected canView customerId rateLimitId pageSize pageToken
  | listAuditEntries canView key configId since pageSize pageToken =>
      exact listAuditEntries_answers connected refuses canView key configId since pageSize
        pageToken

/-- A request that its principal may make is answered, or refused for a reason of its caller's,
exactly when what the checks let through can be carried out. -/
theorem outcomes_expected_iff (backend : Backend) (refuses : backend.RefusesTimestamps)
    (plane : ControlPlane) {call : AdminCall} {principal : Principal}
    (authenticated : authenticateCall call.authorizer call.header = .ok principal)
    (named : principal.name ≠ "") (healthy : ∀ point, call.conditions.faults point = none)
    (authorised : Authorised principal call.request) :
    Expected (statusOf (serve backend plane call).1) ↔
      Admissible backend principal call.request := by
  have answers := authorised_answers refuses plane authenticated named healthy authorised
  constructor
  · intro expected
    by_contra inadmissible
    rw [answers.unexpected inadmissible] at expected
    exact absurd expected (by decide)
  · exact answers.expected

section Sample

/-- A database that refuses instants before 4714 BC and from 294277 AD on. -/
def boundedBackend : Backend :=
  { sampleBackend with
    bindTimestamp := fun seconds nanos =>
      if -210866803200 ≤ seconds ∧ seconds < 9224318016000 then
        .ok (seconds * 1000000 + nanos / 1000)
      else .error ⟨some "22008", "ERROR: timestamp out of range"⟩ }

theorem boundedBackend_refusesTimestamps : boundedBackend.RefusesTimestamps := by
  intro seconds nanos error failed
  simp only [boundedBackend] at failed
  split at failed <;> cases failed
  exact ⟨_, rfl, by decide⟩

def sampleEditor : Principal := ⟨"alice@corp", ["search"], [], false⟩

/-- An audit listing of the editor's. -/
def sinceCall (seconds : ℤ) : AdminCall :=
  { sampleCall "alice" (.deleteLimit ⟨"search", "*", "query"⟩ false) with
    request := .read (.listAuditEntries "search" none 0 (some ⟨seconds, 0⟩) 10 "") }

theorem sampleEditor_authenticated :
    authenticateCall sampleAuthorizer (some ("Bearer " ++ "alice")) = .ok sampleEditor := by
  decide +kernel

theorem outcomes_expected_iff_since :
    Expected (statusOf (serve boundedBackend samplePlane (sinceCall 1700000000)).1) ∧
      ¬ Expected (statusOf (serve boundedBackend samplePlane (sinceCall 9224318016000)).1) := by
  have authorised (seconds : ℤ) : Authorised sampleEditor (sinceCall seconds).request :=
    .listAuditEntries (by decide) none 0 (some ⟨seconds, 0⟩) 10 ""
  have outcomes (seconds : ℤ) := outcomes_expected_iff boundedBackend
    boundedBackend_refusesTimestamps samplePlane sampleEditor_authenticated (by decide)
    (fun _ => rfl) (authorised seconds)
  constructor
  · apply (outcomes 1700000000).mpr
    intro _
    exact ⟨_, rfl, fun _ _ => ⟨some 1700000000000000, by decide, by decide, rfl⟩⟩
  · intro expected
    rcases (outcomes 9224318016000).mp expected (by decide) with ⟨instant, isInstant, binds⟩
    cases isInstant
    rcases binds AuditRepository.startCursor (by decide) with ⟨bound, binds⟩
    have isBound := binds.bound_eq
    cases isBound

/-- The creation of a limit for a customer whose identity Postgres does not take. -/
def foreignCall : AdminCall :=
  sampleCall "alice" (.createLimit ⟨"search", "a\x00", "query"⟩ 10 (.known .minute))

theorem outcome_not_expected :
    authenticateCall foreignCall.authorizer foreignCall.header = .ok sampleEditor ∧
      sampleEditor.name ≠ "" ∧ Authorised sampleEditor foreignCall.request ∧
      (∀ point, foreignCall.conditions.faults point = none) ∧
      ¬ Expected (statusOf (serve boundedBackend samplePlane foreignCall).1) := by
  refine ⟨sampleEditor_authenticated, by decide, ?_, fun _ => rfl, by decide +kernel⟩
  exact .write rfl (by decide)

end Sample

end RateLimiter.Management
