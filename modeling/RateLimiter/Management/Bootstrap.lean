import RateLimiter.Management.ServiceView

/-!
# Who may change what, from the start-up properties

`Main.java`, `seedAuthorizer`: a token of a development administrator and a file
of principals become the tokens that the control plane knows, and no call
changes them later. Reading the file, parsing its text and what the parser makes
of its elements are parameters. So the properties decide, for all runs, which
services can be changed and in whose name.
-/

namespace RateLimiter.Management

open Machine Database

/-- What `com.google.gson` makes of its elements; there is nothing where it throws. -/
structure Gson (Json : Type) where
  getAsJsonArray : Json → Option (List Json)
  /-- The members of an object, for `has` and `get`. -/
  getAsJsonObject : Json → Option (String → Option Json)
  getAsString : Json → Option String
  getAsBoolean : Json → Option Bool

/-- The last value that a list of pairs has for a name. -/
def lastOf {α : Type} (pairs : List (String × α)) (name : String) : Option α :=
  (pairs.reverse.find? fun pair => pair.1 = name).map Prod.snd

namespace Main

variable {Json : Type} (gson : Gson Json)

def names (members : String → Option Json) (field : String) : Option (List String) :=
  match members field with
  | none => some []
  | some value => do (← gson.getAsJsonArray value).mapM gson.getAsString

/-- The token and the principal of an element of the file. -/
def principalOf (element : Json) : Option (String × Principal) := do
  let members ← gson.getAsJsonObject element
  let token ← gson.getAsString (← members "token")
  let name ← gson.getAsString (← members "name")
  let admin ← ((members "platformAdmin").map gson.getAsBoolean).getD (some false)
  let editor ← names gson members "editor"
  let viewer ← names gson members "viewer"
  some (token, ⟨name, editor, viewer, admin⟩)

/-- Registers the principal of a token, or replaces it. -/
def put (authorizer : Authorizer) (token : String) (principal : Principal) : Authorizer :=
  Function.update authorizer token (some principal)

variable (property : String → Option String) (readJson : String → Option Json)

def loadPrincipalsFile (authorizer : Authorizer) (path : String) : Option Authorizer :=
  ((readJson path).bind gson.getAsJsonArray).bind fun elements =>
    elements.foldlM (fun known element =>
      (principalOf gson element).map fun entry => put known entry.1 entry.2) authorizer

def devAdmin : Principal :=
  ⟨(property "quotamgmt.auth.devAdminName").getD "dev-admin", [], [], true⟩

def seedDevAdmin : Authorizer :=
  match property "quotamgmt.auth.devAdminToken" with
  | some devToken =>
      if devToken = "" then fun _ => none else put (fun _ => none) devToken (devAdmin property)
  | none => fun _ => none

/-- Fails where the server does not start. -/
def seedAuthorizer : Option Authorizer :=
  match property "quotamgmt.auth.file" with
  | some file =>
      if file = "" then some (seedDevAdmin property)
      else loadPrincipalsFile gson readJson (seedDevAdmin property) file
  | none => some (seedDevAdmin property)

def listedDevAdmin : List (String × Principal) :=
  ((property "quotamgmt.auth.devAdminToken").filter (· ≠ "")).toList.map
    fun devToken => (devToken, devAdmin property)

/-- The tokens and the principals that the properties list, in their order. -/
def listed : Option (List (String × Principal)) :=
  match (property "quotamgmt.auth.file").filter (· ≠ "") with
  | none => some (listedDevAdmin property)
  | some file =>
      ((readJson file).bind gson.getAsJsonArray).bind fun elements =>
        (elements.mapM (principalOf gson)).map (listedDevAdmin property ++ ·)

theorem lastOf_concat {α : Type} (pairs : List (String × α)) (pair : String × α) (name : String) :
    lastOf (pairs ++ [pair]) name = if pair.1 = name then some pair.2 else lastOf pairs name := by
  simp only [lastOf, List.reverse_append, List.reverse_singleton, List.singleton_append,
    List.find?_cons]
  by_cases here : pair.1 = name
  · simp [here]
  · simp [here]

/-- Of several entries of a token the last one counts. -/
theorem foldl_put (entries : List (String × Principal)) (authorizer : Authorizer) :
    entries.foldl (fun known entry => put known entry.1 entry.2) authorizer =
      fun token => (lastOf entries token).or (authorizer token) := by
  induction entries using List.reverseRecOn with
  | nil =>
      funext token
      simp [lastOf]
  | append_singleton entries entry ih =>
      funext token
      rw [List.foldl_concat, ih, lastOf_concat, put, Function.update_apply]
      by_cases here : entry.1 = token
      · simp [here]
      · simp [here, Ne.symm here]

theorem foldlM_put (elements : List Json) (authorizer : Authorizer) :
    elements.foldlM (fun known element =>
        (principalOf gson element).map fun entry => put known entry.1 entry.2) authorizer =
      (elements.mapM (principalOf gson)).map fun entries =>
        entries.foldl (fun known entry => put known entry.1 entry.2) authorizer := by
  induction elements generalizing authorizer with
  | nil => rfl
  | cons element rest ih =>
      rw [List.foldlM_cons, List.mapM_cons]
      cases principalOf gson element with
      | none => rfl
      | some entry =>
          simp only [Option.map_some, Option.bind_eq_bind, Option.bind_some, ih]
          cases rest.mapM (principalOf gson) with
          | none => rfl
          | some entries => rfl

theorem foldl_put_empty (entries : List (String × Principal)) :
    entries.foldl (fun known entry => put known entry.1 entry.2) (fun _ => none) =
      lastOf entries := by
  rw [foldl_put]
  simp only [Option.or_none]

theorem seedDevAdmin_eq : seedDevAdmin property =
    (listedDevAdmin property).foldl (fun known entry => put known entry.1 entry.2)
      fun _ => none := by
  simp only [seedDevAdmin, listedDevAdmin]
  cases property "quotamgmt.auth.devAdminToken" with
  | none => rfl
  | some devToken =>
      by_cases empty : devToken = ""
      · subst devToken
        rfl
      · simp [empty, Option.filter]

/-- The control plane knows what the properties list. -/
theorem seedAuthorizer_eq :
    seedAuthorizer gson property readJson = (listed gson property readJson).map lastOf := by
  simp only [seedAuthorizer, listed, seedDevAdmin_eq]
  cases property "quotamgmt.auth.file" with
  | none =>
      simp only [Option.filter_none, Option.map_some, foldl_put_empty]
  | some file =>
      by_cases empty : file = ""
      · subst file
        simp only [if_true, foldl_put_empty]
        rfl
      · simp only [empty, if_false, loadPrincipalsFile, Option.filter, decide_not, decide_false,
          Bool.not_false, if_true]
        cases (readJson file).bind gson.getAsJsonArray with
        | none => rfl
        | some elements =>
            simp only [Option.bind_some, foldlM_put, Option.map_map]
            congr 1
            funext entries
            rw [Function.comp_apply, ← foldl_put_empty, List.foldl_append]

end Main

open Main

/-- The call carries a token that is listed for the principal. -/
def ActsAs (entries : List (String × Principal)) (call : AdminCall) (principal : Principal) :
    Prop :=
  ∃ token, bearerToken call.header = some token ∧ token ≠ "" ∧
    lastOf entries token = some principal

/-- The audit row is about a service that the principal of the call may edit, and names it. -/
def WrittenBy (entries : List (String × Principal)) (row : AuditRow) (call : AdminCall) : Prop :=
  ∃ principal serviceName, ActsAs entries call principal ∧ row.changedBy = principal.name ∧
    row.snapshotField "service_name" = some serviceName ∧ principal.canEdit serviceName = true

/-- A write by a principal that may not edit the service leaves it alone. -/
theorem untouched_of_accepted {principal : Principal} {now : ℤ} {before after : Database}
    {request : WriteRequest} {serviceName : String}
    (accepted : Accepted principal now before after request)
    (foreign : principal.canEdit serviceName = false) :
    Untouched serviceName before after := by
  by_cases here : request.serviceName = serviceName
  · subst serviceName
    have denied : ∀ {key : LimitKey}, request.limitKey? = some key →
        principal.canEdit key.serviceName = true → False := by
      intro key isKey canEdit
      rw [serviceName_of_limitKey? isKey, canEdit] at foreign
      cases foreign
    cases accepted with
    | missing same => exact untouched_of_same same
    | registered isAdmin _ => simp [Principal.canEdit, isAdmin] at foreign
    | inserted isLimit canEdit _ => exact (denied isLimit canEdit).elim
    | updated isLimit canEdit _ => exact (denied isLimit canEdit).elim
    | deleted isLimit canEdit _ => exact (denied isLimit canEdit).elim
  · exact untouched_of_elsewhere accepted here

section Runs

variable {backend : Backend} {property : String → Option String}
  {authorizer : Authorizer} {entries : List (String × Principal)}

/-- The principals of the control plane are those of the listed tokens. -/
theorem actsAs_of_authenticated {call : AdminCall} {principal : Principal}
    (known : call.authorizer = lastOf entries)
    (authenticated : authenticateCall call.authorizer call.header = .ok principal) :
    ActsAs entries call principal := by
  rw [known] at authenticated
  simp only [authenticateCall, Authorizer.authenticate] at authenticated
  split at authenticated
  · cases authenticated
  · rename_i token isToken
    split at authenticated
    · cases authenticated
    · rename_i nonempty
      split at authenticated
      · cases authenticated
      · rename_i other found
        cases authenticated
        exact ⟨token, isToken, nonempty, found⟩

theorem answered_actsAs {plane : ControlPlane} {call : AdminCall} {response : AdminResponse}
    (known : call.authorizer = lastOf entries)
    (answered : (serve backend plane call).1 = .ok response) :
    ∃ principal, ActsAs entries call principal := by
  rcases serve_cases backend plane call with ⟨error, failed, _⟩ |
    ⟨_, principal, _, authenticated, _⟩
  · rw [failed] at answered
    cases answered
  · exact ⟨principal, actsAs_of_authenticated known authenticated⟩

/-- One call leaves every service alone that its principal may not edit. -/
theorem untouched_serve {serviceName : String} {plane : ControlPlane} {call : AdminCall}
    (known : call.authorizer = lastOf entries)
    (foreign : ∀ principal, ActsAs entries call principal →
      principal.canEdit serviceName = false) :
    Untouched serviceName plane.database (serve backend plane call).2.database := by
  rcases serve_cases backend plane call with ⟨_, _, same⟩ |
    ⟨_, principal, _, authenticated, ⟨_, _, unchanged⟩ | ⟨_, _, accepted⟩⟩
  · exact untouched_of_same same
  · rw [unchanged]
    exact untouched_of_same (.refl _)
  · exact untouched_of_accepted accepted (foreign principal
      (actsAs_of_authenticated known authenticated))

theorem untouched_planeAfter {serviceName : String} (start : ControlPlane)
    {calls : List AdminCall} (known : ∀ call ∈ calls, call.authorizer = lastOf entries)
    (foreign : ∀ call ∈ calls, ∀ principal, ActsAs entries call principal →
      principal.canEdit serviceName = false) :
    Untouched serviceName start.database (planeAfter backend start calls).database := by
  induction calls using List.reverseRecOn with
  | nil => exact untouched_of_same (.refl _)
  | append_singleton calls call ih =>
      rw [planeAfter_concat]
      refine (ih ?_ ?_).trans (untouched_serve (known call (by simp)) (foreign call (by simp)))
      · intro other mem
        exact known other (List.mem_append_left _ mem)
      · intro other mem
        exact foreign other (List.mem_append_left _ mem)

/-- The audit rows of a run name principals that are listed. -/
theorem writtenBy_planeAfter (start : ControlPlane) {calls : List AdminCall}
    (known : ∀ call ∈ calls, call.authorizer = lastOf entries) :
    ∀ row ∈ (planeAfter backend start calls).database.audit,
      row ∈ start.database.audit ∨ ∃ call ∈ calls, WrittenBy entries row call := by
  induction calls using List.reverseRecOn with
  | nil =>
      intro row mem
      exact Or.inl mem
  | append_singleton calls last ih =>
      have earlier : ∀ row ∈ (planeAfter backend start calls).database.audit,
          row ∈ start.database.audit ∨ ∃ call ∈ calls ++ [last], WrittenBy entries row call := by
        intro row mem
        refine (ih (fun call mem => known call (List.mem_append_left _ mem)) row mem).imp_right ?_
        rintro ⟨call, callMem, written⟩
        exact ⟨call, List.mem_append_left _ callMem, written⟩
      rw [planeAfter_concat]
      intro row mem
      rcases audit_serve backend (planeAfter backend start calls) last with
        ⟨same, _⟩ | ⟨new, _, principal, _, grew, _, _, _, authenticated, _, attributed⟩
      · exact earlier row (same ▸ mem)
      · rw [grew, List.mem_append, List.mem_singleton] at mem
        rcases mem with old | rfl
        · exact earlier row old
        · rcases attributed.canEdit with ⟨serviceName, isNamed, canEdit⟩
          have acts := actsAs_of_authenticated (known last (by simp)) authenticated
          exact Or.inr ⟨last, by simp, principal, serviceName, acts, attributed.changedBy, isNamed,
            canEdit⟩

end Runs

/-- Over a run of a control plane that has started with some properties: only calls with a listed
token are answered, what is new in the audit table was written by one of them in its own name,
and a service that none of the calls may edit is left alone, to the last row that an enforcer
reads. -/
theorem bootstrap_confines (backend : Backend) {Json : Type} (gson : Gson Json)
    (property : String → Option String) (readJson : String → Option Json) (authorizer : Authorizer)
    (started : seedAuthorizer gson property readJson = some authorizer) (start : ControlPlane)
    (calls : List AdminCall) (served : ∀ call ∈ calls, call.authorizer = authorizer) :
    ∃ entries, listed gson property readJson = some entries ∧
      (∀ earlier call later response, calls = earlier ++ call :: later →
        (serve backend (planeAfter backend start earlier) call).1 = .ok response →
        ∃ principal, ActsAs entries call principal) ∧
      (∀ row ∈ (planeAfter backend start calls).database.audit,
        row ∈ start.database.audit ∨ ∃ call ∈ calls, WrittenBy entries row call) ∧
      ∀ serviceName, (∀ call ∈ calls, ∀ principal, ActsAs entries call principal →
          principal.canEdit serviceName = false) →
        Untouched serviceName start.database (planeAfter backend start calls).database ∧
        ∀ key, key.serviceName = serviceName →
          Enforcer.resolution (planeAfter backend start calls).database.limits key =
            Enforcer.resolution start.database.limits key := by
  rw [seedAuthorizer_eq, Option.map_eq_some_iff] at started
  rcases started with ⟨entries, isListed, rfl⟩
  refine ⟨entries, isListed, ?_, writtenBy_planeAfter start served, ?_⟩
  · rintro earlier call later response rfl answered
    exact answered_actsAs (served call (by simp)) answered
  · intro serviceName foreign
    have untouched : Untouched serviceName start.database
        (planeAfter backend start calls).database := untouched_planeAfter start served foreign
    exact ⟨untouched, fun key isKey => untouched.resolution isKey⟩

/-- Where neither property is set, no call is answered. -/
theorem unseeded_answers_none {Json : Type} {gson : Gson Json}
    {property : String → Option String} {readJson : String → Option Json} {authorizer : Authorizer}
    (noToken : property "quotamgmt.auth.devAdminToken" = none)
    (noFile : property "quotamgmt.auth.file" = none)
    (started : seedAuthorizer gson property readJson = some authorizer) (backend : Backend)
    (plane : ControlPlane) {call : AdminCall} (served : call.authorizer = authorizer) :
    ∃ text, (serve backend plane call).1 = .error (.of .unauthenticated text) ∧
      (serve backend plane call).2 = plane := by
  simp only [seedAuthorizer, seedDevAdmin, noToken, noFile, Option.some.injEq] at started
  subst started
  simp only [serve, authenticateCall, Authorizer.authenticate, served]
  cases bearerToken call.header with
  | none => exact ⟨_, rfl, rfl⟩
  | some token =>
      by_cases empty : token = ""
      · simp [empty]
      · simp [empty]

section Sample

/-- Elements of the kinds that a file of principals has. -/
inductive SampleJson where
  | boolean (value : Bool)
  | string (text : String)
  | array (elements : List SampleJson)
  | object (members : List (String × SampleJson))

def sampleGson : Gson SampleJson where
  getAsJsonArray
    | .array elements => some elements
    | _ => none
  getAsJsonObject
    | .object members => some (lastOf members)
    | _ => none
  getAsString
    | .string text => some text
    | .boolean value => some (if value then "true" else "false")
    | _ => none
  getAsBoolean
    | .boolean value => some value
    | _ => none

/-- The development principals of two teams. -/
def samplePrincipals : SampleJson :=
  .array
    [.object [("token", .string "admin-tok"), ("name", .string "ops@corp"),
      ("platformAdmin", .boolean true)],
    .object [("token", .string "alice-tok"), ("name", .string "alice@corp"),
      ("editor", .array [.string "search-svc"])],
    .object [("token", .string "billing-tok"), ("name", .string "billing-team"),
      ("editor", .array [.string "billing-svc"])]]

def sampleProperty (name : String) : Option String :=
  if name = "quotamgmt.auth.file" then some "dev-principals.json" else none

def samplePrincipalsFile (path : String) : Option SampleJson :=
  if path = "dev-principals.json" then some samplePrincipals else none

/-- Two services with a limit each. -/
def sampleTables : Database :=
  ⟨[⟨"search-svc", "Search", "team-search"⟩, ⟨"billing-svc", "Billing", "team-billing"⟩],
    [⟨1, "search-svc", "*", "query", 10, .minute⟩, ⟨2, "billing-svc", "*", "pay", 7, .day⟩], [],
    3, 1⟩

def sampleEntries : List (String × Principal) :=
  [("admin-tok", ⟨"ops@corp", [], [], true⟩),
    ("alice-tok", ⟨"alice@corp", ["search-svc"], [], false⟩),
    ("billing-tok", ⟨"billing-team", ["billing-svc"], [], false⟩)]

/-- An editor of one of the services changes its limit. -/
def sampleUpdate : AdminCall :=
  ⟨some "Bearer alice-tok", lastOf sampleEntries, 0, ⟨5, fun _ => none⟩,
    .write (.updateLimit ⟨"search-svc", "*", "query"⟩ 20 (.known .minute) false)⟩

theorem bootstrap_confines_sample :
    Untouched "billing-svc" sampleTables
        (planeAfter sampleBackend ⟨fun _ => ⟨none⟩, sampleTables⟩ [sampleUpdate]).database ∧
      (planeAfter sampleBackend ⟨fun _ => ⟨none⟩, sampleTables⟩ [sampleUpdate]).database ≠
        sampleTables := by
  have known : listed sampleGson sampleProperty samplePrincipalsFile = some sampleEntries := by
    decide +kernel
  have started : seedAuthorizer sampleGson sampleProperty samplePrincipalsFile =
      some (lastOf sampleEntries) := by
    rw [seedAuthorizer_eq, known, Option.map_some]
  rcases bootstrap_confines sampleBackend sampleGson sampleProperty samplePrincipalsFile _ started
    ⟨fun _ => ⟨none⟩, sampleTables⟩ [sampleUpdate] (by simp [sampleUpdate]) with
    ⟨entries, isListed, _, _, confined⟩
  rw [known, Option.some.injEq] at isListed
  subst entries
  refine ⟨(confined "billing-svc" ?_).1, by decide +kernel⟩
  intro call mem principal acts
  rw [List.mem_singleton.mp mem] at acts
  rcases acts with ⟨token, isToken, _, isPrincipal⟩
  obtain rfl : "alice-tok" = token := by
    rw [show bearerToken sampleUpdate.header = some "alice-tok" by decide +kernel] at isToken
    exact Option.some.inj isToken
  obtain rfl : (⟨"alice@corp", ["search-svc"], [], false⟩ : Principal) = principal := by
    rw [show lastOf sampleEntries "alice-tok" = some ⟨"alice@corp", ["search-svc"], [], false⟩ by
      decide +kernel] at isPrincipal
    exact Option.some.inj isPrincipal
  decide

end Sample

end RateLimiter.Management
