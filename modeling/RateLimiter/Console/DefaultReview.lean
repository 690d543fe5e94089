import RateLimiter.Console.Attribution

/-!
# Reviews of changes to a default

Under the default policy every edit and every deletion of a `'*'` limit waits
for a second person. The policy does not speak of creations: `POST /api/limits`
sends its `CreateLimit` at once, which can only add a default that is not there.
-/

namespace RateLimiter.Console

open EventLoop JavaScript Management

/-- The call creates, replaces or removes the limit of the default customer. -/
def Rpc.writesDefault : Rpc → Bool
  | .createLimit key _ _ | .updateLimit key _ _ _ | .deleteLimit key _ =>
      key.customerId = defaultCustomer
  | _ => false

section Defaults

variable {rpc : Rpc} {op : PendingOp}

theorem Rpc.isMutation_of_writesDefault (isDefault : rpc.writesDefault = true) :
    rpc.isMutation = true := by
  cases rpc with
  | createLimit _ _ _ | updateLimit _ _ _ _ | deleteLimit _ _ => rfl
  | _ => simp [writesDefault] at isDefault

theorem PendingOp.reviewed_of_carries (carries : op.Carries rpc)
    (isDefault : rpc.writesDefault = true) : reviewReason op .default ≠ none := by
  cases op with
  | limitUpdate limit =>
      rcases carries with ⟨createIfAbsent, rfl⟩
      have isDefault : limit.key.customerId = defaultCustomer := of_decide_eq_true isDefault
      simp [reviewReason, defaultChangeReason, ReviewPolicy.default, isDefault]
  | limitDelete key =>
      rcases carries with ⟨allowMissing, rfl⟩
      have isDefault : key.customerId = defaultCustomer := of_decide_eq_true isDefault
      simp [reviewReason, defaultChangeReason, ReviewPolicy.default, isDefault]
  | opRefund key amount =>
      rcases carries with ⟨requestId, rfl⟩
      simp [Rpc.writesDefault] at isDefault
  | opReset key =>
      rcases carries with ⟨amount, requestId, rfl⟩
      simp [Rpc.writesDefault] at isDefault

end Defaults

/-- A creation keeps every row of the table, whatever becomes of it. -/
theorem limits_of_createLimit (backend : Backend) (plane : ControlPlane) {call : AdminCall}
    {key : LimitKey} {limitValue : ℤ} {timeUnit : WireTimeUnit}
    (isCreation : call.request = .write (.createLimit key limitValue timeUnit)) :
    plane.database.limits <+: (serve backend plane call).2.database.limits := by
  cases authenticated : authenticateCall call.authorizer call.header with
  | error error =>
      simp only [serve, authenticated]
      exact List.prefix_rfl
  | ok principal =>
      have settled := @guarded_settled (plane.pool call.connection) plane.database _
        (do LimitValidator.validateLimitWrite key limitValue timeUnit
            Authorizer.requireEditor principal key.serviceName)
        _ _ _ (fun after => plane.database.limits <+: after.limits)
        (@create_settled call.conditions principal.name plane.database key limitValue
          (ProtoMappers.toTimeUnitLabel timeUnit) (plane.pool call.connection))
        toLimit_eq_ok (by
          rintro _ row after ⟨_, inserted⟩
          simp [inserted.limits])
      rw [(serve_write authenticated isCreation).2]
      rcases settled with ⟨_, _, same⟩ | ⟨_, _, grown⟩
      · simp only [LimitAdminService.write, LimitAdminService.createLimit, same.limits,
          List.prefix_rfl]
      · exact grown

/-- Every call that writes a default applies a review that a second person has approved, or is the
creation that a `POST` asked for, which replaces and removes nothing. -/
theorem default_changes_reviewed (deps : Deps) (isDefault : deps.reviewPolicy = .default)
    (sessions : Map Session) (events : List ConsoleEvent) :
    (∀ sending ∈ (consoleAfter deps sessions events).sent,
      sending.call.rpc.writesDefault = true →
      (∃ place, Applies deps sessions events sending place) ∨
        ∃ request key limitValue timeUnit, Serving events sending.handler request ∧
          request.route = .createLimit ∧
          sending.call.rpc = .createLimit key limitValue timeUnit) ∧
    ∀ backend plane call, ∀ key limitValue timeUnit,
      (Rpc.createLimit key limitValue timeUnit).toAdmin? = some call.request →
      plane.database.limits <+: (serve backend plane call).2.database.limits := by
  constructor
  · intro sending mem writes
    have isMutation := Rpc.isMutation_of_writesDefault writes
    rcases origin_of_sent mem with ⟨_, _, request, _, serving, _⟩
    rcases sent_cases mem isMutation serving with ungated | directly | applied
    · rcases ungated with ⟨route, key, limitValue, timeUnit, isCreation⟩ | ⟨_, service, isRpc⟩
      · exact Or.inr ⟨request, key, limitValue, timeUnit, serving, route, isCreation⟩
      · simp [isRpc, Rpc.writesDefault] at writes
    · rcases directly with ⟨op, _, unreviewed, carries⟩
      rw [isDefault] at unreviewed
      exact absurd unreviewed (PendingOp.reviewed_of_carries carries writes)
    · exact Or.inl applied
  · intro backend plane call key limitValue timeUnit isAdmin
    apply limits_of_createLimit backend plane
    exact (Option.some.inj isAdmin).symm

section Sample

theorem default_changes_reviewed_sample :
    ∃ sending ∈ (consoleAfter sampleDeps [] sampleEvents).sent,
      sending.call.rpc = .updateLimit ⟨"search", "*", "query"⟩ (.finite 10) .minute true ∧
      ∃ place, Applies sampleDeps [] sampleEvents sending place := by
  have sent : ((consoleAfter sampleDeps [] sampleEvents).sent.any fun sending =>
      sending.call.rpc = .updateLimit ⟨"search", "*", "query"⟩ (.finite 10) .minute true) =
        true := by decide +kernel
  rcases List.any_eq_true.mp sent with ⟨sending, mem, isCall⟩
  have isCall := of_decide_eq_true isCall
  refine ⟨sending, mem, isCall, ?_⟩
  rcases (default_changes_reviewed sampleDeps rfl [] sampleEvents).1 sending mem
    (by rw [isCall]; rfl) with applied | ⟨_, _, _, _, _, _, isCreation⟩
  · exact applied
  · simp [isCall] at isCreation

/-- An editor logs in and posts a default. -/
def sampleCreation : List ConsoleEvent :=
  [.request (sampleMoment "sid-bob" "csrf-bob")
      (sampleRequest .login "" [("user", .string "bob")]),
    .request (sampleMoment "" "")
      (sampleRequest .createLimit "bob" [("service_name", .string "search"),
        ("customer_id", .string "*"), ("rate_limit_id", .string "query"),
        ("limit_value", .number (.finite 10)), ("time_unit", .string "MINUTE")])]

/-- The creation of a default is sent without a review. -/
theorem default_creation_unreviewed :
    sampleDeps.reviewPolicy = .default ∧
      ¬∀ sending ∈ (consoleAfter sampleDeps [] sampleCreation).sent,
        sending.call.rpc.writesDefault = true →
        ∃ place, Applies sampleDeps [] sampleCreation sending place := by
  refine ⟨rfl, ?_⟩
  intro reviewed
  have sent : ((consoleAfter sampleDeps [] sampleCreation).sent.any fun sending =>
      sending.call.rpc.writesDefault) = true := by decide +kernel
  rcases List.any_eq_true.mp sent with ⟨sending, mem, writes⟩
  rcases reviewed sending mem writes with ⟨place, applies⟩
  rcases applies.approval with ⟨request, _, _, ⟨moment, isRequest⟩, _, approval, _⟩
  rcases approval.route with ⟨id, route, _⟩
  -- none of the two requests is an approval
  have isEvent := List.mem_of_getElem? isRequest
  simp only [sampleCreation, List.mem_cons, Event.request.injEq, List.not_mem_nil,
    or_false] at isEvent
  rcases isEvent with ⟨_, rfl⟩ | ⟨_, rfl⟩ <;> simp [sampleRequest] at route

end Sample

end RateLimiter.Console
