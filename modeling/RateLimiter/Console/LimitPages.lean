import RateLimiter.Console.AuditBrowser
import RateLimiter.Console.LimitValue

/-!
# The limits browser

`GET /api/limits`, page after page. The requests of a walk may come from
different sessions and find the tables in different states: whatever is
created, changed or deleted between two of them, no limit is shown twice, each
was in the table that its page was read from, and those that stay are not
missed.
-/

namespace RateLimiter.Console

open EventLoop EventLoop.Handler JavaScript Keyset Management Query

/-- The parameters of `GET /api/limits`. -/
structure LimitParams where
  serviceName : String
  customerId : String
  rateLimitId : String
  pageSize : String

/-- One request of a walk, and the system that it finds. -/
structure Stop where
  world : World
  visit : Visit

namespace Stop

variable (deployment : Deployment) (enforcer : Call → Reply)

def snapshot (stop : Stop) : Snapshot :=
  ⟨⟨stop.visit.now, fun _ => none⟩, stop.world.plane.database⟩

/-- The response to the page of a token. -/
def page (stop : Stop) (token : String) : Except Thrown Response :=
  (stop.world.exchange deployment enforcer (stop.visit.withToken token)).outcome

end Stop

/-- How a row of the table is shown. -/
def limitView (row : LimitRow) : Value :=
  .object (toLimitView (rawLimit row) none)

namespace LimitParams

/-- The limits that the parameters ask for; an empty one asks for nothing. -/
def matching (params : LimitParams) (database : Database) : List LimitRow :=
  database.limits.filter
    (LimitRepository.selects params.serviceName params.customerId params.rateLimitId)

/-- The listing of the control plane that the pages of the console are cut from. -/
def listing (params : LimitParams) : Listing LimitRow :=
  fun token snapshot => LimitRepository.list snapshot.conditions params.serviceName
    params.customerId params.rateLimitId
    (LimitValidator.clampPageSize (sentNumber params.pageSize).toInt32).toNat token
    snapshot.database

/-- The names are valid, and the principal of the console may view the service. -/
structure Listable (deployment : Deployment) (params : LimitParams) : Prop where
  valid : LimitValidator.validateServiceName params.serviceName = .ok ()
  texts : [params.serviceName, params.customerId, params.rateLimitId].all isPostgresText = true
  mayView : ∃ principal, deployment.principal = .ok principal ∧
    principal.canView params.serviceName = true

/-- The request has these parameters, and its user may read limits. -/
structure AskedBy (deployment : Deployment) (params : LimitParams) (stop : Stop) : Prop where
  isRoute : stop.visit.request.route = .listLimits
  may : ∃ session, Authentic stop.world.store stop.visit.request session ∧
    Granted deployment.deps session.user .limitsRead (some params.serviceName)
  hasBody : ∃ body, stop.visit.request.body = .ok body
  serviceName : Value.property stop.visit.request.query "service_name" =
    .string params.serviceName
  customerId : Supplies stop.visit.request.query "customer_id" params.customerId
  rateLimitId : Supplies stop.visit.request.query "rate_limit_id" params.rateLimitId
  pageSize : Supplies stop.visit.request.query "page_size" params.pageSize

end LimitParams

/-- What each request shows, from the page of a token up to one without a token. -/
inductive LimitsBrowsed (deployment : Deployment) (enforcer : Call → Reply) :
    String → List (Stop × List Value) → Prop where
  | last {token : String} {stop : Stop} {shown : List Value}
      (answered : stop.page deployment enforcer token = .ok (limitPage shown .null)) :
      LimitsBrowsed deployment enforcer token [(stop, shown)]
  | next {token following : String} {stop : Stop} {shown : List Value}
      {rest : List (Stop × List Value)}
      (answered : stop.page deployment enforcer token =
        .ok (limitPage shown (.string following)))
      (browsed : LimitsBrowsed deployment enforcer following rest) :
      LimitsBrowsed deployment enforcer token ((stop, shown) :: rest)

/-- The rows of a page, as they are shown. -/
def showPage (page : Stop × List LimitRow) : Stop × List Value :=
  (page.1, page.2.map limitView)

def rowsOf (pages : List (Stop × List LimitRow)) : List LimitRow :=
  pages.flatMap Prod.snd

section Page

variable {deployment : Deployment} {enforcer : Call → Reply} {params : LimitParams} {stop : Stop}
  {token : String}

theorem LimitParams.AskedBy.reads (asked : params.AskedBy deployment stop)
    (named : params.serviceName ≠ "") :
    Reads (stop.visit.withToken token).request.query params.serviceName params.customerId
      params.rateLimitId (sentNumber params.pageSize) token := by
  have other {name text : String} (isOther : "page_token" ≠ name)
      (supplies : Supplies stop.visit.request.query name text) :
      Supplies (stop.visit.withToken token).request.query name text := by
    simpa only [Visit.withToken, Supplies, Value.property, List.find?_cons, isOther,
      decide_false] using supplies
  refine ⟨?_, named, (other (by decide) asked.customerId).stringIf,
    (other (by decide) asked.rateLimitId).stringIf, (other (by decide) asked.pageSize).numberIf,
    Supplies.stringIf (Or.inl rfl)⟩
  have isService : Value.property (stop.visit.withToken token).request.query "service_name" =
      .string params.serviceName := asked.serviceName
  rw [isService]
  rfl

/-- The call behind a page. -/
def LimitParams.call (params : LimitParams) (token : String) : Call :=
  ⟨.listLimits params.serviceName params.customerId params.rateLimitId
    (sentNumber params.pageSize) token, none⟩

theorem page_eq (listable : params.Listable deployment) (asked : params.AskedBy deployment stop) :
    stop.page deployment enforcer token = .ok (settled (limitsOutcome
      (World.answer deployment enforcer (stop.visit.withToken token) stop.world.plane
        (params.call token)).1)) := by
  have named := (LimitValidator.validateText_eq_ok_iff.mp listable.valid).1
  rcases asked.may with ⟨session, authentic, granted⟩
  rcases asked.hasBody with ⟨body, hasBody⟩
  have route : (stop.visit.withToken token).request.route = .listLimits := asked.isRoute
  have behindAuth : (stop.visit.withToken token).request.route.behindAuth = true := by
    rw [route]
    rfl
  have authenticHere : Authentic stop.world.store (stop.visit.withToken token).request session :=
    authentic
  rw [Stop.page, exchange_outcome authenticHere hasBody behindAuth, api, route,
    converse_listLimits (asked.reads named) granted]
  rfl

/-- What the control plane lists is a page of the repository. -/
theorem page_of_answer {visit : Visit} {plane : ControlPlane} {limits : List RawLimit}
    {next : String}
    (answered : (World.answer deployment enforcer visit plane (params.call token)).1 =
      .ok (.limits limits next)) :
    ∃ items, params.listing token ⟨⟨visit.now, fun _ => none⟩, plane.database⟩ =
        .ok ⟨items, next⟩ ∧ limits = items.map rawLimit := by
  simp only [LimitParams.call, World.answer, Rpc.toAdmin?, serve] at answered
  split at answered
  · cases answered
  · rcases ok_of_toReply answered with ⟨response, isOk⟩
    rcases listLimits_eq_ok isOk with ⟨page, listed, rfl⟩
    rw [isOk] at answered
    cases answered
    refine ⟨page.items, listed, ?_⟩
    rw [List.map_map]
    rfl

/-- A page of the console is a page of the control plane. -/
theorem limitPage_iff (listable : params.Listable deployment)
    (asked : params.AskedBy deployment stop) {shown : List Value} {following : Value} :
    stop.page deployment enforcer token = .ok (limitPage shown following) ↔
      ∃ items next, params.listing token stop.snapshot = .ok ⟨items, next⟩ ∧
        shown = items.map limitView ∧ following = nextPageToken next := by
  rw [page_eq listable asked, Except.ok.injEq]
  constructor
  · intro isPage
    rcases reply_of_limitPage isPage with ⟨limits, next, isReply, rfl⟩
    rcases page_of_answer isReply with ⟨items, listed, rfl⟩
    rw [isReply] at isPage
    have isToken : nextPageToken next = following := by
      simpa [limitsOutcome, settled, limitPage, Response.json] using isPage
    refine ⟨items, next, listed, ?_, isToken.symm⟩
    rw [List.map_map]
    rfl
  · rintro ⟨items, next, listed, rfl, rfl⟩
    rcases listable.mayView with ⟨principal, isPrincipal, mayView⟩
    have answered := @answer_listLimits deployment enforcer (stop.visit.withToken token)
      stop.world.plane principal params.serviceName params.customerId params.rateLimitId token
      (sentNumber params.pageSize) isPrincipal mayView listable.valid items next listed
    rw [LimitParams.call, answered]
    simp only [limitsOutcome, settled, List.map_map]
    rfl

end Page

section Walk

variable {deployment : Deployment} {enforcer : Call → Reply} {params : LimitParams}
  (listable : params.Listable deployment)

include listable

/-- Following the tokens at the console is following them at the control plane, and each page has
rows of the table that it was read from. -/
theorem LimitsBrowsed.listed {token : String} {shown : List (Stop × List Value)}
    (browsed : LimitsBrowsed deployment enforcer token shown)
    (asked : ∀ page ∈ shown, params.AskedBy deployment page.1) :
    ∃ pages : List (Stop × List LimitRow), shown = pages.map showPage ∧
      TokenWalk params.listing token (pages.map fun page => page.1.snapshot) (rowsOf pages) ∧
      ∀ page ∈ pages, ∀ row ∈ page.2, row ∈ params.matching page.1.world.plane.database := by
  induction browsed with
  | @last token stop shown answered =>
      rcases (limitPage_iff listable (asked _ (List.mem_singleton_self _))).mp answered with
        ⟨items, next, listed, rfl, isToken⟩
      rcases nextPageToken_eq_null.mp isToken.symm with rfl
      refine ⟨[(stop, items)], rfl, ?_, ?_⟩
      · simp only [rowsOf, List.flatMap_singleton]
        exact .last listed
      · intro page mem row rowMem
        rcases List.mem_singleton.mp mem with rfl
        exact LimitRepository.mem_of_list listed rowMem
  | @next token following stop shown rest answered browsed ih =>
      rcases (limitPage_iff listable (asked _ List.mem_cons_self)).mp answered with
        ⟨items, next, listed, rfl, isToken⟩
      rcases nextPageToken_eq_string.mp isToken.symm with ⟨more, rfl⟩
      rcases ih fun page mem => asked page (List.mem_cons_of_mem _ mem) with
        ⟨pages, rfl, walk, sound⟩
      refine ⟨(stop, items) :: pages, rfl, ?_, ?_⟩
      · simp only [rowsOf, List.flatMap_cons]
        exact .next listed more walk
      · intro page mem row rowMem
        rcases List.mem_cons.mp mem with rfl | mem
        · exact LimitRepository.mem_of_list listed rowMem
        · exact sound page mem row rowMem

/-- What the control plane lists page after page, the console shows page after page. -/
theorem limitsBrowsed_of_walk {token : String} {snapshots : List Snapshot} {rows : List LimitRow}
    (walk : TokenWalk params.listing token snapshots rows) :
    ∀ {stops : List Stop}, snapshots = stops.map Stop.snapshot →
      (∀ stop ∈ stops, params.AskedBy deployment stop) →
      ∃ pages : List (Stop × List LimitRow), pages.map Prod.fst = stops ∧ rowsOf pages = rows ∧
        LimitsBrowsed deployment enforcer token (pages.map showPage) := by
  induction walk with
  | @last token snapshot items answered =>
      intro stops areSnapshots asked
      rcases List.map_eq_singleton_iff.mp areSnapshots.symm with ⟨stop, rfl, rfl⟩
      refine ⟨[(stop, items)], rfl, by simp only [rowsOf, List.flatMap_singleton], ?_⟩
      exact .last ((limitPage_iff listable (asked stop (List.mem_singleton_self _))).mpr
        ⟨items, "", answered, rfl, rfl⟩)
  | @next token following snapshot items snapshots rest answered more walk ih =>
      intro stops areSnapshots asked
      rcases List.map_eq_cons_iff.mp areSnapshots.symm with ⟨stop, others, rfl, rfl, areOthers⟩
      rcases ih areOthers.symm fun other mem => asked other (List.mem_cons_of_mem _ mem) with
        ⟨pages, rfl, rfl, browsed⟩
      refine ⟨(stop, items) :: pages, rfl, by simp only [rowsOf, List.flatMap_cons], ?_⟩
      exact .next ((limitPage_iff listable (asked stop List.mem_cons_self)).mpr
        ⟨items, following, answered, rfl, (nextPageToken_eq_string.mpr ⟨more, rfl⟩).symm⟩) browsed

/-- The pages that a user walks through end when the tables do not change, and are then the limits
asked for in order. Whatever changes in between, they show no limit twice, on each page only what
was asked for and was there when the page was read, and everything that stays. -/
theorem limit_pages_complete :
    (∀ stop, params.AskedBy deployment stop → LimitTable stop.world.plane.database →
      ∃ pages : List (Stop × List LimitRow), (∀ page ∈ pages, page.1 = stop) ∧
        LimitsBrowsed deployment enforcer "" (pages.map showPage) ∧
        (rowsOf pages).Pairwise (fun first second => first.configId < second.configId) ∧
        ∀ row, row ∈ rowsOf pages ↔ row ∈ params.matching stop.world.plane.database) ∧
    ∀ shown, (∀ page ∈ shown, params.AskedBy deployment page.1 ∧
        LimitTable page.1.world.plane.database) →
      LimitsBrowsed deployment enforcer "" shown →
      ∃ pages : List (Stop × List LimitRow), shown = pages.map showPage ∧
        (rowsOf pages).Pairwise (fun first second => first.configId < second.configId) ∧
        (∀ page ∈ pages, ∀ row ∈ page.2, row ∈ params.matching page.1.world.plane.database) ∧
        ∀ id, (∀ page ∈ pages, ∃ row ∈ params.matching page.1.world.plane.database,
            row.configId = id) →
          ∃ row ∈ rowsOf pages, row.configId = id := by
  have paginates : Paginates params.listing LimitRow.configId (· ≤ ·) params.matching LimitTable :=
    LimitRepository.paginates listable.texts (LimitValidator.clampPageSize_pos _)
  have ascending {rows : List LimitRow}
      (sorted : rows.Pairwise fun first second => Before (· ≤ ·) first.configId second.configId) :
      rows.Pairwise fun first second => first.configId < second.configId :=
    sorted.imp fun before => lt_of_le_of_ne before.1 before.2
  constructor
  · intro stop asked table
    rcases paginates.static ⟨stop.visit.now, fun _ => none⟩ stop.world.plane.database ⟨rfl, rfl⟩
      table with ⟨count, rows, walk, sorted, exact⟩
    have areSnapshots : List.replicate count (⟨⟨stop.visit.now, fun _ => none⟩,
        stop.world.plane.database⟩ : Snapshot) =
          (List.replicate count stop).map Stop.snapshot := by
      rw [List.map_replicate]
      rfl
    rcases limitsBrowsed_of_walk listable walk areSnapshots (fun other mem => by
      rw [List.eq_of_mem_replicate mem]
      exact asked) with ⟨pages, areStops, rfl, browsed⟩
    refine ⟨pages, ?_, browsed, ascending sorted, exact⟩
    intro page mem
    have stopMem : page.1 ∈ pages.map Prod.fst := List.mem_map_of_mem mem
    rw [areStops] at stopMem
    exact List.eq_of_mem_replicate stopMem
  · intro shown asked browsed
    rcases browsed.listed listable fun page mem => (asked page mem).1 with
      ⟨pages, rfl, walk, sound⟩
    have valid : ∀ snapshot ∈ pages.map fun page => page.1.snapshot,
        LimitTable snapshot.database := by
      intro snapshot mem
      rcases List.mem_map.mp mem with ⟨page, pageMem, rfl⟩
      exact (asked (showPage page) (List.mem_map_of_mem pageMem)).2
    rcases paginates.changing _ (rowsOf pages) valid walk with ⟨sorted, _, complete⟩
    refine ⟨pages, rfl, ascending sorted, sound, ?_⟩
    intro id present
    apply complete id
    intro snapshot mem
    rcases List.mem_map.mp mem with ⟨page, pageMem, rfl⟩
    exact present page pageMem

end Walk

section Sample

def sampleLimitRow (configId : ℤ) (customerId : String) : LimitRow :=
  ⟨configId, "search", customerId, "query", 10, .minute⟩

/-- The operator lists the limits of the search service, one a page. -/
def sampleStop (limits : List LimitRow) : Stop :=
  ⟨⟨⟨fun _ => ⟨none⟩, { Database.empty with limits := limits }⟩, sampleStore, fun _ => none⟩,
    ⟨{ sampleRequest .listLimits "alice" [] with
        query := [("service_name", .string "search"), ("page_size", .string "1")] },
      sampleMoments, 0, 5⟩⟩

def sampleLimitParams : LimitParams := ⟨"search", "", "", "1"⟩

/-- Behind the first page its row is deleted and another one is created. -/
def sampleStops : List Stop :=
  [sampleStop [sampleLimitRow 1 "*", sampleLimitRow 2 "acme"],
    sampleStop [sampleLimitRow 2 "acme", sampleLimitRow 3 "zeta"],
    sampleStop [sampleLimitRow 2 "acme", sampleLimitRow 3 "zeta"]]

theorem sampleLimitParams_listable :
    sampleLimitParams.Listable (System.sampleDeployment "svc:quotaui") :=
  ⟨by decide +kernel, by decide +kernel,
    ⟨"svc:quotaui", [], [], true⟩, by decide +kernel, by decide +kernel⟩

theorem sampleStop_asked (limits : List LimitRow) :
    sampleLimitParams.AskedBy (System.sampleDeployment "svc:quotaui") (sampleStop limits) := by
  have live : SessionStore.get sampleStore (.string "sid-alice") = some operatorSession := by
    decide +kernel
  exact ⟨rfl, ⟨operatorSession, ⟨live, rfl⟩, rfl⟩, ⟨[], rfl⟩, rfl, Or.inr ⟨rfl, rfl⟩,
    Or.inr ⟨rfl, rfl⟩, Or.inl rfl⟩

def sampleShown : List (Stop × List Value) :=
  sampleStops.zip [[limitView (sampleLimitRow 1 "*")], [limitView (sampleLimitRow 2 "acme")],
    [limitView (sampleLimitRow 3 "zeta")]]

theorem limit_pages_complete_sample :
    ∃ pages : List (Stop × List LimitRow), sampleShown = pages.map showPage ∧
      (∀ page ∈ pages, ∀ row ∈ page.2,
        row ∈ sampleLimitParams.matching page.1.world.plane.database) ∧
      ∃ row ∈ rowsOf pages, row.configId = 2 := by
  have asked : ∀ page ∈ sampleShown,
      sampleLimitParams.AskedBy (System.sampleDeployment "svc:quotaui") page.1 ∧
        LimitTable page.1.world.plane.database := by
    simp only [sampleShown, sampleStops, List.zip_cons_cons, List.zip_nil_right,
      List.forall_mem_cons]
    exact ⟨⟨sampleStop_asked _, by decide⟩, ⟨sampleStop_asked _, by decide⟩,
      ⟨sampleStop_asked _, by decide⟩, by simp⟩
  have browsed : LimitsBrowsed (System.sampleDeployment "svc:quotaui")
      (fun _ => .error (.ofStatus .unavailable "")) "" sampleShown := by
    have first : sampleLimitParams.listing "" (sampleStop
        [sampleLimitRow 1 "*", sampleLimitRow 2 "acme"]).snapshot =
          .ok ⟨[sampleLimitRow 1 "*"], PageToken.encodeLong 1⟩ := by decide +kernel
    have second : sampleLimitParams.listing (PageToken.encodeLong 1) (sampleStop
        [sampleLimitRow 2 "acme", sampleLimitRow 3 "zeta"]).snapshot =
          .ok ⟨[sampleLimitRow 2 "acme"], PageToken.encodeLong 2⟩ := by decide +kernel
    have third : sampleLimitParams.listing (PageToken.encodeLong 2) (sampleStop
        [sampleLimitRow 2 "acme", sampleLimitRow 3 "zeta"]).snapshot =
          .ok ⟨[sampleLimitRow 3 "zeta"], ""⟩ := by decide +kernel
    refine .next ((limitPage_iff sampleLimitParams_listable (sampleStop_asked _)).mpr
      ⟨_, _, first, rfl, (nextPageToken_eq_string.mpr ⟨by decide +kernel, rfl⟩).symm⟩) ?_
    refine .next ((limitPage_iff sampleLimitParams_listable (sampleStop_asked _)).mpr
      ⟨_, _, second, rfl, (nextPageToken_eq_string.mpr ⟨by decide +kernel, rfl⟩).symm⟩) ?_
    exact .last ((limitPage_iff sampleLimitParams_listable (sampleStop_asked _)).mpr
      ⟨_, "", third, rfl, rfl⟩)
  rcases (limit_pages_complete sampleLimitParams_listable).2 sampleShown asked browsed with
    ⟨pages, same, _, sound, complete⟩
  refine ⟨pages, same, sound, complete 2 ?_⟩
  have present : ∀ page ∈ sampleShown,
      ∃ row ∈ sampleLimitParams.matching page.1.world.plane.database, row.configId = 2 := by
    simp only [sampleShown, sampleStops, List.zip_cons_cons, List.zip_nil_right,
      List.forall_mem_cons]
    exact ⟨by decide +kernel, by decide +kernel, by decide +kernel, by simp⟩
  intro page mem
  have shownMem : showPage page ∈ sampleShown := same ▸ List.mem_map_of_mem mem
  exact present _ shownMem

end Sample

end RateLimiter.Console
