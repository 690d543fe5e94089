import RateLimiter.Management.LimitValidator

/-!
# Authentication and authorisation

`Principal.java`, `Authorizer.java`, `InMemoryAuthorizer.java` and
`AuthInterceptor.java`: a bearer token resolves to a principal, whose grants
are per service.
-/

namespace RateLimiter.Management

structure Principal where
  name : String
  editorServices : List String
  viewerServices : List String
  platformAdmin : Bool
deriving DecidableEq

namespace Principal

def canEdit (principal : Principal) (serviceName : String) : Bool :=
  principal.platformAdmin || principal.editorServices.contains serviceName

/-- Editors imply viewers. -/
def canView (principal : Principal) (serviceName : String) : Bool :=
  principal.platformAdmin || principal.editorServices.contains serviceName ||
    principal.viewerServices.contains serviceName

/-- The services listed for this principal. -/
def viewableServices (principal : Principal) : List String :=
  principal.editorServices ++ principal.viewerServices

theorem canView_iff_of_not_admin {principal : Principal} {serviceName : String}
    (notAdmin : principal.platformAdmin = false) :
    principal.canView serviceName = true ↔ serviceName ∈ principal.viewableServices := by
  simp [canView, notAdmin, viewableServices]

end Principal

/-- The principals known by their tokens. -/
abbrev Authorizer := String → Option Principal

namespace Authorizer

def authenticate (authorizer : Authorizer) (bearerToken : Option String) :
    Except AppException Principal :=
  match bearerToken with
  | none => .error (.of .unauthenticated "missing bearer token")
  | some token =>
      if token = "" then .error (.of .unauthenticated "missing bearer token")
      else
        match authorizer token with
        | none => .error (.of .unauthenticated "unknown or expired token")
        | some principal => .ok principal

def requireEditor (principal : Principal) (serviceName : String) : Except AppException Unit :=
  if principal.canEdit serviceName then .ok ()
  else .error (.of .permissionDenied
    ("identity '" ++ principal.name ++ "' is not an editor of service '" ++ serviceName ++ "'"))

def requireViewer (principal : Principal) (serviceName : String) : Except AppException Unit :=
  if principal.canView serviceName then .ok ()
  else .error (.of .permissionDenied
    ("identity '" ++ principal.name ++ "' cannot view service '" ++ serviceName ++ "'"))

def requirePlatformAdmin (principal : Principal) : Except AppException Unit :=
  if principal.platformAdmin then .ok ()
  else .error (.of .permissionDenied
    ("identity '" ++ principal.name ++ "' is not a platform admin"))

end Authorizer

/-- `String.trim()`: removes the characters up to the space at both ends. -/
def trim (text : String) : String :=
  let blank := fun char : Char => char.toNat ≤ 0x20
  String.ofList ((text.toList.dropWhile blank).reverse.dropWhile blank).reverse

/-- The token of the `authorization` header; the scheme may be left out. -/
def bearerToken (header : Option String) : Option String :=
  header.map fun raw =>
    if "Bearer ".toList.isPrefixOf raw.toList then trim (String.ofList (raw.toList.drop 7))
    else trim raw

/-- `interceptCall`: the principal a call is handled for. -/
def authenticateCall (authorizer : Authorizer) (header : Option String) :
    Except AppException Principal :=
  authorizer.authenticate (bearerToken header)

end RateLimiter.Management
