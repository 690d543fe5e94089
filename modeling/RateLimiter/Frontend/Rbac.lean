import RateLimiter.Console.Rbac

/-!
# The permission mirror of the frontend

`util/rbac.ts` decides what the single-page app offers. It is a second copy of
`authorize`, which has the authority: the two are kept in step by hand, and
here they are compared.
-/

namespace RateLimiter.Frontend

open Console (Role Grant User Policy authorize)

inductive Capability where
  | limitsRead
  | usageRead
  | auditRead
  | limitWrite
  | limitDelete
  | serviceCreate
  | serviceEdit
  | opRefund
  | opReset
  | reviewApprove
  | rbacManage
deriving DecidableEq

/-- `RANK` -/
def rank : Role → ℕ
  | .viewer => 0
  | .serviceEditor => 1
  | .operator => 2
  | .admin => 3

def hasGlobalRole (grants : List Grant) (role : Role) : Bool :=
  grants.any fun grant => grant.isGlobal && rank role ≤ rank grant.role

def isOperatorOrAdmin (grants : List Grant) : Bool :=
  hasGlobalRole grants .operator

def canEditService (grants : List Grant) (service : Option String) : Bool :=
  if isOperatorOrAdmin grants then true
  else if service.getD "" = "" then false
  else grants.any fun grant => grant.role = .serviceEditor && grant.service = service

def canDo (grants : List Grant) (capability : Capability) (service : Option String)
    (allowServiceEditorCreateService : Option Bool) : Bool :=
  let anyAuthenticated : Bool := 0 < grants.length
  match capability with
  | .limitsRead | .usageRead | .auditRead => anyAuthenticated
  | .limitWrite | .limitDelete | .serviceEdit => canEditService grants service
  | .serviceCreate =>
      if isOperatorOrAdmin grants then true
      else allowServiceEditorCreateService.getD false && canEditService grants service
  | .opRefund | .opReset | .reviewApprove => isOperatorOrAdmin grants
  | .rbacManage => hasGlobalRole grants .admin

/-- The capability of the same name at the authority, which knows one more. -/
def Capability.toConsole : Capability → Console.Capability
  | .limitsRead => .limitsRead
  | .usageRead => .usageRead
  | .auditRead => .auditRead
  | .limitWrite => .limitWrite
  | .limitDelete => .limitDelete
  | .serviceCreate => .serviceCreate
  | .serviceEdit => .serviceEdit
  | .opRefund => .opRefund
  | .opReset => .opReset
  | .reviewApprove => .reviewApprove
  | .rbacManage => .rbacManage

/-- The capabilities that the authority refuses without a service, whoever asks. -/
def Capability.editsService : Capability → Bool
  | .limitWrite | .limitDelete | .serviceEdit => true
  | _ => false

section Mirror

variable (user : User)

theorem rank_eq (role : Role) : rank role = role.rank := by
  cases role <;> rfl

theorem hasGlobalRole_eq (role : Role) :
    hasGlobalRole user.grants role = Console.hasGlobalRole user role := by
  simp only [hasGlobalRole, Console.hasGlobalRole, rank_eq]

theorem isOperatorOrAdmin_eq :
    isOperatorOrAdmin user.grants = Console.isGlobalOperatorOrAdmin user :=
  hasGlobalRole_eq user .operator

/-- With a service the two agree on who may edit it. -/
theorem canEditService_named {service : Option String} (named : service.getD "" ≠ "") :
    canEditService user.grants service = Console.canEditService user (service.getD "") := by
  have isSome : service = some (service.getD "") := by
    cases service with
    | none => exact absurd rfl named
    | some name => rfl
  simp only [canEditService, Console.canEditService, isOperatorOrAdmin_eq, named, if_false,
    ← isSome]
  cases Console.isGlobalOperatorOrAdmin user <;> simp

/-- Without one the mirror still asks for a global role only. -/
theorem canEditService_absent {service : Option String} (absent : service.getD "" = "") :
    canEditService user.grants service = isOperatorOrAdmin user.grants := by
  simp only [canEditService, absent, if_true]
  cases isOperatorOrAdmin user.grants <;> simp

theorem authorize_edit_iff {capability : Capability} (edits : capability.editsService = true)
    (service : Option String) (policy : Policy) :
    authorize user capability.toConsole service policy = .ok () ↔
      service.getD "" ≠ "" ∧ canEditService user.grants service = true := by
  have isEdit : authorize user capability.toConsole service policy =
      authorize user .serviceEdit service policy := by
    cases capability <;> first | rfl | cases edits
  rw [isEdit]
  by_cases absent : service.getD "" = ""
  · simp [authorize, absent]
  · simp only [authorize, absent, if_false, ne_eq, not_false_eq_true, true_and,
      canEditService_named user absent]
    cases Console.canEditService user (service.getD "") <;> simp

theorem authorize_create_iff (service : Option String) (policy : Policy) :
    authorize user .serviceCreate service policy = .ok () ↔
      isOperatorOrAdmin user.grants = true ∨
        policy.allowServiceEditorCreateService = true ∧
          canEditService user.grants service = true := by
  by_cases absent : service.getD "" = ""
  · simp only [authorize, absent, canEditService_absent user absent, isOperatorOrAdmin_eq]
    cases Console.isGlobalOperatorOrAdmin user <;> simp
  · simp only [authorize, canEditService_named user absent, isOperatorOrAdmin_eq]
    cases Console.isGlobalOperatorOrAdmin user <;>
      cases policy.allowServiceEditorCreateService <;>
      cases Console.canEditService user (service.getD "") <;> simp [absent]

theorem authorize_ok_of_if {allowed : Bool} {reason : String} :
    (if allowed then .ok () else .error reason : Console.AuthzResult) = .ok () ↔
      allowed = true := by
  cases allowed <;> simp

end Mirror

/-- Outside of the edits the two copies decide alike. -/
theorem canDo_iff_of_not_edits (user : User) {capability : Capability}
    (other : capability.editsService = false) (service : Option String)
    (allowServiceEditorCreateService : Option Bool) :
    canDo user.grants capability service allowServiceEditorCreateService = true ↔
      authorize user capability.toConsole service
        ⟨allowServiceEditorCreateService.getD false⟩ = .ok () := by
  cases capability with
  | limitsRead | usageRead | auditRead =>
      simp only [canDo, Capability.toConsole, authorize, decide_eq_true_eq, List.length_pos_iff]
      by_cases empty : user.grants = [] <;> simp [empty]
  | limitWrite | limitDelete | serviceEdit => cases other
  | serviceCreate =>
      rw [Capability.toConsole, authorize_create_iff]
      simp only [canDo]
      cases isOperatorOrAdmin user.grants <;> simp
  | opRefund | opReset | reviewApprove =>
      simp only [canDo, Capability.toConsole, authorize, authorize_ok_of_if,
        isOperatorOrAdmin_eq]
  | rbacManage =>
      simp only [canDo, Capability.toConsole, authorize, authorize_ok_of_if, hasGlobalRole_eq]

/-- The mirror and the authority decide alike, except that an operator or admin who names no
service is offered the edits that the authority refuses without one. -/
theorem canDo_iff_authorize (user : User) (capability : Capability) (service : Option String)
    (allowServiceEditorCreateService : Option Bool) :
    (canDo user.grants capability service allowServiceEditorCreateService = true ↔
      authorize user capability.toConsole service
        ⟨allowServiceEditorCreateService.getD false⟩ = .ok ()) ↔
    (capability.editsService = true → service.getD "" = "" →
      isOperatorOrAdmin user.grants = false) := by
  by_cases edits : capability.editsService = true
  · have isEdit : canDo user.grants capability service allowServiceEditorCreateService =
        canEditService user.grants service := by
      cases capability <;> first | rfl | cases edits
    rw [isEdit, authorize_edit_iff user edits]
    by_cases absent : service.getD "" = ""
    · rw [canEditService_absent user absent]
      simp [edits, absent]
    · simp [absent]
  · have decidesAlike := canDo_iff_of_not_edits user (Bool.eq_false_iff.mpr edits) service
      allowServiceEditorCreateService
    simp [decidesAlike, edits]

/-- An operator without a service is offered to write a limit, which the authority refuses. -/
theorem canDo_not_iff_authorize :
    ¬(canDo [⟨.operator, none⟩] .limitWrite none (some false) = true ↔
      authorize ⟨"u1", "olivia@corp", [⟨.operator, none⟩]⟩ Capability.limitWrite.toConsole none
        ⟨false⟩ = .ok ()) := by
  decide

end RateLimiter.Frontend
