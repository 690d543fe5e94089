import RateLimiter.Common

/-!
# Role-based access in the console

`rbac.ts`: the decision function `authorize` that every route consults.
-/

namespace RateLimiter.Console

inductive Role where
  | viewer
  | serviceEditor
  | operator
  | admin
deriving DecidableEq

namespace Role

def rank : Role → ℕ
  | .viewer => 0
  | .serviceEditor => 1
  | .operator => 2
  | .admin => 3

def text : Role → String
  | .viewer => "viewer"
  | .serviceEditor => "service-editor"
  | .operator => "operator"
  | .admin => "admin"

end Role

/-- A role and its scope; without a service the role is global. -/
structure Grant where
  role : Role
  service : Option String
deriving DecidableEq

/-- `!grant.service`: the empty name counts as no service. -/
def Grant.isGlobal (grant : Grant) : Bool :=
  grant.service.getD "" = ""

structure User where
  id : String
  email : String
  grants : List Grant
deriving DecidableEq

inductive Capability where
  | limitsRead
  | usageRead
  | auditRead
  | observabilityRead
  | limitWrite
  | limitDelete
  | serviceCreate
  | serviceEdit
  | opRefund
  | opReset
  | reviewApprove
  | rbacManage
deriving DecidableEq

structure Policy where
  allowServiceEditorCreateService : Bool
deriving DecidableEq

def Policy.default : Policy := ⟨false⟩

def hasGlobalRole (user : User) (role : Role) : Bool :=
  user.grants.any fun grant => grant.isGlobal && role.rank ≤ grant.role.rank

def isGlobalOperatorOrAdmin (user : User) : Bool :=
  hasGlobalRole user .operator

def canEditService (user : User) (service : String) : Bool :=
  isGlobalOperatorOrAdmin user ||
    user.grants.any fun grant => grant.role = .serviceEditor && grant.service = some service

/-- The services named by the scoped editor grants, each once, in order. -/
def editableServices (user : User) : List String :=
  (user.grants.filterMap fun grant =>
    if grant.role = .serviceEditor && !grant.isGlobal then grant.service else none).foldl
    (fun services service => if services.contains service then services else services ++ [service])
    []

/-- The refusal has a reason. -/
abbrev AuthzResult := Except String Unit

def authorize (user : User) (capability : Capability) (service : Option String)
    (policy : Policy) : AuthzResult :=
  match capability with
  | .limitsRead | .usageRead | .auditRead | .observabilityRead =>
      if user.grants = [] then .error "no roles" else .ok ()
  | .limitWrite | .limitDelete | .serviceEdit =>
      let service := service.getD ""
      if service = "" then .error "service required"
      else if canEditService user service then .ok ()
      else .error ("not an editor of " ++ service)
  | .serviceCreate =>
      let service := service.getD ""
      if isGlobalOperatorOrAdmin user then .ok ()
      else if policy.allowServiceEditorCreateService && service != "" &&
          canEditService user service then .ok ()
      else .error "service creation is gated to operator/admin"
  | .opRefund | .opReset | .reviewApprove =>
      if isGlobalOperatorOrAdmin user then .ok () else .error "requires operator/admin"
  | .rbacManage => if hasGlobalRole user .admin then .ok () else .error "requires admin"

end RateLimiter.Console
