import Pingward.ModelForms
import Pingward.ModelPing

/-! The signed-in part of `src/web.rs`: authentication, the ownership helpers and the handlers of the
owner routes. A handler is a program over the store that ends with a response. What a request carries
apart from its route (cookies, gateway header, clock, fresh tokens, the verdicts of the CSRF guard and
of the rate limiter) is its context. A page is kept as the rows it is rendered from. -/

open StoreProgram

namespace Pingward

/-! ### Display status (`src/view.rs`) -/

inductive DisplayStatus where
  | new
  | up
  | late
  | down
  | paused
  | running
  deriving DecidableEq, Repr

/-- A start is newer than the last finish, where an instant is newer than none. -/
def isRunning (check : Check) : Bool :=
  match check.lastStartAt, check.lastPingAt with
  | none, _ => false
  | some _, none => true
  | some start, some done => done < start

def displayStatus (check : Check) (now : Instant) : Checked DisplayStatus :=
  match check.status with
  | .down => return .down
  | .paused => return .paused
  | .new => return if isRunning check then .running else .new
  | .up =>
      if isRunning check then return .running
      else
        match check.nextDueAt with
        | none => return .up
        | some due => do
            let grace ← durationSeconds check.graceSecs
            let expected ← subDuration due grace
            return if expected < now ∧ now ≤ due then .late else .up

/-! ### Responses -/

structure Confirm where
  title : String
  message : String
  button : String
  deriving DecidableEq, Repr

structure ProjectChannelRow where
  id : Int
  name : String
  kind : String
  deriving DecidableEq, Repr

structure TestResult where
  ok : Bool
  message : String
  deriving DecidableEq, Repr

/-- The edit form's view of a stored config: the plain values, and which secrets are set. -/
structure ChannelEditView where
  id : Int
  kind : String
  name : String
  telegramChatId : String
  ntfyBaseUrl : String
  ntfyTopic : String
  emailTo : String
  hasUrl : Bool
  hasToken : Bool
  hasUser : Bool
  deriving DecidableEq, Repr

structure SessionRow where
  handle : String
  createdAt : Option Instant
  lastSeenAt : Option Instant
  expiresAt : Instant
  userAgent : Option String
  ip : Option String
  current : Bool
  sso : Bool
  deriving DecidableEq, Repr

structure ApiKeyRow where
  id : Int
  name : String
  keyPrefix : String
  createdAt : Instant
  lastUsedAt : Option Instant
  expiresAt : Option Instant
  expired : Bool
  deriving DecidableEq, Repr

/-- The per-request parts of the account page. -/
structure AccountRender where
  newToken : Option String := none
  keyError : Option String := none
  passwordError : Option String := none
  passwordFlash : Option String := none
  deriving DecidableEq, Repr

inductive WebPage where
  | dashboard (groups : List (Project × List (Check × DisplayStatus)))
      (pings : List (Int × List PingSummary)) (withChannels : List Int) (q status : String)
      (notice : Option String)
  | projectForm (heading action : String) (form : ProjectForm) (error : Option String)
  | project (project : Project) (checks : List (Check × DisplayStatus)) (withChannels : List Int)
      (channels : List ProjectChannelRow) (testResult : Option TestResult)
  | checkForm (heading action : String) (form : CheckForm) (error : Option String)
  | check (check : Check) (status : DisplayStatus) (nextDue : Option Instant) (projectName : String)
      (pingUrl : String) (bound : List Int) (channels : List ProjectChannelRow)
      (recent : List PingSummary) (pings : Page Ping) (notifications : Page Notification)
      (flash : Option String)
  | pings (checkId : Int) (page : Page Ping) (recent : Option (List PingSummary))
  | notifications (checkId : Int) (page : Page Notification) (channelNames : List (Int × String))
  | channelForm (projectId : Int) (error : Option String) (smtpAvailable : Bool)
      (edit : Option ChannelEditView)
  | confirm (confirm : Confirm) (action cancel : String)
  | account (sessions : List SessionRow) (hasPassword : Bool) (keys : List ApiKeyRow)
      (parts : AccountRender)
  | admin (userError : Option String)
  | login (error : Option String)
  | setup (error : Option String)
  deriving DecidableEq, Repr

inductive Response where
  | page (page : WebPage) (isAdmin : Bool) (csrf : String)
  | redirect (location : String) (flash : Option String := none)
  | status (code : Nat) (body : String)
  | throttled (retryAfterSecs : Nat) (page : WebPage)
  | stream (checkId : Int)
  deriving DecidableEq, Repr

/-! ### Requests -/

/-- The order in which a `HashSet` of ids is walked, which is drawn anew for each. -/
structure SetOrder where
  arrange : List Int → List Int
  perm : ∀ ids, (arrange ids).Perm ids

def SetOrder.asListed : SetOrder := ⟨id, fun _ => .refl _⟩

structure WebContext where
  now : Instant
  /-- The verified session id of the request's cookie. -/
  sessionId : Option String
  /-- Whether forward auth is configured. -/
  forwardAuth : Bool
  /-- The user named by a trusted gateway header. -/
  gatewayUser : Option String
  /-- The ids a session minted for the gateway's user and an anonymous session get. -/
  freshSession : String
  anonymousSession : String
  /-- A fresh UUID. -/
  uuid : String
  /-- A fresh API key with its display prefix. -/
  newToken : String × String
  salt : String
  userAgent : Option String
  ip : Option String
  /-- Whether the request passes the CSRF guard. -/
  csrfOk : Bool
  /-- The verified flash cookie. -/
  flash : Option String
  /-- Whether the account limiter and the address limiter grant an attempt. -/
  accountLimiterOpen : Bool
  loginLimiterOpen : Bool
  /-- Whether the admin session is unlocked. -/
  elevated : Bool
  fragment : Bool
  path : String
  rawQuery : String
  forwardAuthLogoutUrl : Option String
  baseUrl : String
  /-- The instance's SMTP relay. -/
  smtp : Option SmtpConfig
  setOrder : SetOrder

def WebContext.smtpAvailable (ctx : WebContext) : Bool := ctx.smtp.isSome

structure DashboardQuery where
  q : Option String
  status : Option String
  deriving DecidableEq, Repr

/-- The history parts of a check page's query, parsed. -/
structure CheckPageQuery where
  pingCursor : PageCursor
  pingFilter : PingFilter
  notifCursor : PageCursor
  notifFilter : NotifFilter
  deriving DecidableEq, Repr

structure ChangePasswordForm where
  currentPassword : String
  newPassword : String
  confirmPassword : String
  deriving DecidableEq, Repr

structure NewApiKeyForm where
  name : String
  expiresIn : String
  currentPassword : String
  deriving DecidableEq, Repr

/-- The routes of `web::routes` for a signed-in user who is not on `/admin`. -/
inductive WebRoute where
  | dashboard (query : DashboardQuery)
  | logout
  | projectNew
  | projectCreate (form : ProjectForm)
  | projectShow (id : Int)
  | projectEdit (id : Int)
  | projectUpdate (id : Int) (form : ProjectForm)
  | projectDelete (id : Int) (confirmed : Bool)
  | checkNew (projectId : Int)
  | checkCreate (projectId : Int) (form : CheckForm)
  | checkShow (id : Int) (query : CheckPageQuery)
  | checkPings (id : Int) (query : CheckPageQuery)
  | checkEvents (id : Int)
  | checkNotifications (id : Int) (query : CheckPageQuery)
  | checkEdit (id : Int)
  | checkUpdate (id : Int) (form : CheckForm)
  | checkPause (id : Int)
  | checkResume (id : Int)
  | checkAck (id : Int)
  | checkRegenerate (id : Int) (confirmed : Bool)
  | checkDelete (id : Int) (confirmed : Bool)
  | checkSetChannels (id : Int) (channelIds : List Int)
  | channelNew (projectId : Int)
  | channelCreate (projectId : Int) (form : ChannelForm)
  | channelEdit (id : Int)
  | channelUpdate (id : Int) (form : ChannelForm)
  | channelDelete (id : Int)
  | channelTest (id : Int)
  | accountPage
  | accountPassword (form : ChangePasswordForm)
  | apiKeysCreate (form : NewApiKeyForm)
  | apiKeysDelete (id : Int) (confirmed : Bool)
  | sessionsRevoke (handle : String) (confirmed : Bool)
  | sessionsRevokeOthers (confirmed : Bool)
  deriving DecidableEq, Repr

/-- Whether the route is a `POST`, which the CSRF guard looks at. -/
def WebRoute.isPost : WebRoute → Bool
  | .logout | .projectCreate _ | .projectUpdate _ _ | .projectDelete _ _ | .checkCreate _ _
  | .checkUpdate _ _ | .checkPause _ | .checkResume _ | .checkAck _ | .checkRegenerate _ _
  | .checkDelete _ _ | .checkSetChannels _ _ | .channelCreate _ _ | .channelUpdate _ _
  | .channelDelete _ | .channelTest _ | .accountPassword _ | .apiKeysCreate _ | .apiKeysDelete _ _
  | .sessionsRevoke _ _ | .sessionsRevokeOthers _ => true
  | _ => false

/-! ### Authentication (`src/auth.rs`) -/

/-- The user a trusted gateway header names, a non-admin account without a password provisioned on
first sight. -/
def forwardAuthUser (ctx : WebContext) : StoreProg AppError (Option User) := do
  match ctx.gatewayUser with
  | none => return none
  | some username =>
      match ← attemptCall (.findUserByUsername username) with
      | .error _ => return none
      | .ok (some user) => return if user.disabled then none else some user
      | .ok none =>
          match ← attemptCall (.createUser username none false ctx.now) with
          | .error _ => return none
          | .ok id =>
              let found ← attemptCall (.findUserById id)
              return found.toOption.join

/-- Whether the request's cookie names a session that is still accepted. -/
def sessionLive (ctx : WebContext) : StoreProg AppError Bool :=
  match ctx.sessionId with
  | none => return false
  | some id => do
      let found ← attemptCall (.findSessionUser id ctx.now)
      return found.toOption.join.isSome

/-- `forward_auth_session` and `anonymous_session`: the session id the handler sees. -/
def requestSession (ctx : WebContext) : StoreProg AppError String := do
  if !ctx.forwardAuth then return ctx.sessionId.getD ctx.anonymousSession
  let live ← sessionLive ctx
  if live then return ctx.sessionId.getD ctx.anonymousSession
  match ← forwardAuthUser ctx with
  | none => return ctx.sessionId.getD ctx.anonymousSession
  | some user =>
      let session : NewSession :=
        ⟨ctx.freshSession, user.id, ctx.now + sessionIdleTtl, ctx.userAgent, ctx.ip, true⟩
      match ← attemptCall (.createSession session ctx.now) with
      | .error _ => return ctx.sessionId.getD ctx.anonymousSession
      | .ok _ => return ctx.freshSession

/-- The user of the session cookie, else of a trusted gateway header. -/
def resolveUser (ctx : WebContext) (sid : String) : StoreProg AppError (Option User) := do
  let found ← attemptCall (.findSessionUser sid ctx.now)
  match found.toOption.join with
  | some user => if user.disabled then forwardAuthUser ctx else return some user
  | none => forwardAuthUser ctx

/-! ### Ownership -/

/-- Another user's project is not found: existence is hidden. -/
def ownedProject (id userId : Int) : StoreProg AppError Project := do
  match ← store (.findProject id) with
  | none => Prog.fail .notFound
  | some project => if project.userId ≠ userId then Prog.fail .notFound else return project

/-- Owned via its project. -/
def ownedCheck (id userId : Int) : StoreProg AppError Check := do
  match ← store (.findCheck id) with
  | none => Prog.fail .notFound
  | some check =>
      let _ ← ownedProject check.projectId userId
      return check

/-- Owned via its project. -/
def ownedChannel (id userId : Int) : StoreProg AppError Channel := do
  match ← store (.findChannel id) with
  | none => Prog.fail .notFound
  | some channel =>
      let _ ← ownedProject channel.projectId userId
      return channel

/-! ### Pages -/

section Handlers

variable (X : Crates) (ctx : WebContext) (sid : String) (user : User)

def renderPage (page : WebPage) : StoreProg AppError Response :=
  return .page page user.isAdmin (X.deriveCsrf sid)

/-- The confirmation page of a destructive action, which re-posts it with the flag. -/
def confirmationPage (confirm : Confirm) (action cancel : String) : StoreProg AppError Response :=
  let sep := if action.toList.contains '?' then "&" else "?"
  renderPage X sid user (.confirm confirm (action ++ sep ++ "confirmed=1") cancel)

/-- A fixed key's message, consumed only by the page it was set for. -/
def takeFlash (surface message : String) : Option String :=
  if ctx.flash = some surface then some message else none

def displayAll (checks : List Check) : StoreProg AppError (List (Check × DisplayStatus)) :=
  match checks with
  | [] => return []
  | check :: rest => do
      let status ← Prog.orPanic (displayStatus check ctx.now)
      let others ← displayAll rest
      return (check, status) :: others

def channelRows (channels : List Channel) : List ProjectChannelRow :=
  channels.map fun channel => ⟨channel.id, channel.name, channel.kind.asStr⟩

def renderProjectPage (project : Project) (testResult : Option TestResult) :
    StoreProg AppError Response := do
  let checks ← store (.listChecksForProject project.id)
  let withChannels ← store (.checksWithChannels (checks.map Check.id))
  let shown ← displayAll ctx checks
  let channels ← store (.listChannelsForProject project.id)
  renderPage X sid user (.project project shown withChannels (channelRows channels) testResult)

/-- Whether the text has the lowercased term in it. -/
def matchesTerm (haystack needle : String) : Bool :=
  (X.toLowercase haystack).toList.tails.any fun rest => needle.toList.isPrefixOf rest

def lastActivityAt (check : Check) : Option Instant :=
  match check.lastPingAt, check.lastStartAt with
  | some ping, some start => some (max ping start)
  | some ping, none => some ping
  | none, start => start

/-- Most recent activity first; never-pinged last, ties by creation order. -/
def sortChecksByActivity (checks : List Check) : List Check :=
  checks.mergeSort fun a b =>
    match lastActivityAt a, lastActivityAt b with
    | some ta, some tb => tb < ta ∨ ta = tb ∧ a.id ≤ b.id
    | some _, none => true
    | none, some _ => false
    | none, none => a.id ≤ b.id

def sortProjectsByName (projects : List Project) : List Project :=
  projects.mergeSort fun a b =>
    X.toLowercase a.name < X.toLowercase b.name ∨
      X.toLowercase a.name = X.toLowercase b.name ∧ a.id ≤ b.id

/-- Projects with no matching check are dropped; a project-level hit keeps all its checks. -/
def filterProjectChecks (projects : List Project) (checksByProject : List (Int × List Check))
    (needle : String) : List (Project × List Check) :=
  projects.filterMap fun project =>
    let checks := sortChecksByActivity ((lookup checksByProject project.id).getD [])
    if needle = "" ∨ matchesTerm X project.name needle ∨ matchesTerm X project.description needle then
      some (project, checks)
    else
      let hits := checks.filter fun check =>
        matchesTerm X check.name needle ∨ matchesTerm X check.description needle
      if hits = [] then none else some (project, hits)

/-- The status filter of the dashboard; an unknown value is no filter. -/
def statusFilter (raw : String) : String :=
  if raw = "up" ∨ raw = "late" ∨ raw = "down" then raw else ""

def statusMatches (status : String) (shown : DisplayStatus) : Bool :=
  if status = "up" then shown = .up ∨ shown = .running
  else if status = "late" then shown = .late
  else if status = "down" then shown = .down
  else true

def displayGroups (status : String) (groups : List (Project × List Check)) :
    StoreProg AppError (List (Project × List (Check × DisplayStatus))) :=
  match groups with
  | [] => return []
  | (project, checks) :: rest => do
      let shown ← displayAll ctx checks
      let others ← displayGroups status rest
      let kept := shown.filter fun row => statusMatches status row.2
      if status ≠ "" ∧ kept = [] then return others
      return (project, kept) :: others

def forwardAuthLogoutMessage : String :=
  "Signed out locally, but you're authenticated through your reverse proxy — this app can't end that session. To sign out completely, log out at your proxy or SSO provider."

def dashboard (query : DashboardQuery) : StoreProg AppError Response := do
  if (← store .countUsers) = 0 then return .redirect "/setup"
  let q := trim (query.q.getD "")
  let status := statusFilter (query.status.getD "")
  let projects ← store (.listProjectsForUser user.id)
  let sorted := sortProjectsByName X projects
  let checksByProject ← store (.listChecksForProjects (sorted.map Project.id))
  let groups := filterProjectChecks X sorted checksByProject (X.toLowercase q)
  let checkIds := groups.flatMap fun group => group.2.map Check.id
  let pings ← store (.listRecentPingSummariesForChecks checkIds 40)
  let withChannels ← store (.checksWithChannels checkIds)
  let shown ← displayGroups ctx status groups
  renderPage X sid user (.dashboard shown pings withChannels q status
    (takeFlash ctx "forward_auth_logout" forwardAuthLogoutMessage))

/-! ### Projects -/

def confirmDeleteProject : Confirm where
  title := "Delete this project?"
  message := "Deleting a project deletes everything inside it: every check it holds, their ping history, and the notification channels configured on it. Any job still pinging one of those checks will start getting 404s. This cannot be undone."
  button := "Delete project"

def projectNew : StoreProg AppError Response :=
  renderPage X sid user (.projectForm "New project" "/projects" ⟨"", "", "", ""⟩ none)

def projectCreate (form : ProjectForm) : StoreProg AppError Response :=
  match validateProject form with
  | .error msg => renderPage X sid user (.projectForm "New project" "/projects" form (some msg))
  | .ok settings => do
      let id ← store (.createProject user.id settings ctx.now)
      return .redirect ("/projects/" ++ i64ToString id)

def projectShow (id : Int) : StoreProg AppError Response := do
  let project ← ownedProject id user.id
  renderProjectPage X ctx sid user project none

def projectEditForm (project : Project) : ProjectForm where
  name := project.name
  description := project.description
  scanIntervalSecs := (project.scanIntervalSecs.map fmtDuration).getD ""
  nagIntervalSecs := (project.nagIntervalSecs.map fmtDuration).getD ""

def projectEdit (id : Int) : StoreProg AppError Response := do
  let project ← ownedProject id user.id
  renderPage X sid user
    (.projectForm "Edit project" ("/projects/" ++ i64ToString project.id) (projectEditForm project) none)

def projectUpdate (id : Int) (form : ProjectForm) : StoreProg AppError Response := do
  let _ ← ownedProject id user.id
  match validateProject form with
  | .error msg =>
      renderPage X sid user (.projectForm "Edit project" ("/projects/" ++ i64ToString id) form (some msg))
  | .ok settings =>
      store (.updateProject id settings)
      return .redirect ("/projects/" ++ i64ToString id)

def projectDelete (id : Int) (confirmed : Bool) : StoreProg AppError Response := do
  let _ ← ownedProject id user.id
  if !confirmed then
    confirmationPage X sid user confirmDeleteProject ("/projects/" ++ i64ToString id ++ "/delete")
      ("/projects/" ++ i64ToString id)
  else
    store (.deleteProject id)
    return .redirect "/"

/-! ### Checks -/

def confirmRegenerateUrl : Confirm where
  title := "Regenerate this check's ping URL?"
  message := "The current URL stops working immediately. Every job that pings this check must be updated to the new URL, or the check will go down when its next ping never arrives."
  button := "Regenerate URL"

def confirmDeleteCheck : Confirm where
  title := "Delete this check?"
  message := "The check and its whole ping history go away, and its ping URL stops answering — a job still calling it will start getting 404s. This cannot be undone."
  button := "Delete check"

def emptyCheckForm : CheckForm :=
  ⟨"", "", "period", "", "", "5m", "UTC", "", "", ""⟩

def checkNew (projectId : Int) : StoreProg AppError Response := do
  let _ ← ownedProject projectId user.id
  renderPage X sid user (.checkForm "New check" ("/projects/" ++ i64ToString projectId ++ "/checks")
    emptyCheckForm none)

/-- Create a check and bind it to every channel of its project. -/
def checkCreateCore (base : String) (projectId : Int) (form : CheckForm) : StoreProg AppError Response :=
  match validateCheck X form with
  | .error msg =>
      renderPage X sid user
        (.checkForm "New check" (base ++ "/projects/" ++ i64ToString projectId ++ "/checks") form (some msg))
  | .ok fields => do
      let id ← store (.createCheck (fields.newCheck projectId ctx.uuid) ctx.now)
      store (.bindAllProjectChannels id projectId)
      return .redirect (base ++ "/checks/" ++ i64ToString id)

def checkCreate (projectId : Int) (form : CheckForm) : StoreProg AppError Response := do
  let _ ← ownedProject projectId user.id
  checkCreateCore X ctx sid user "" projectId form

def heartbeatWindow : Nat := 300

/-- The pings fragment; the heartbeat window is fetched when the default view needs it. -/
def buildPingsPartial (checkId : Int) (query : CheckPageQuery) (recent : Option (List PingSummary)) :
    StoreProg AppError (Page Ping × Option (List PingSummary)) := do
  let page ← store (.listPingsPage checkId query.pingCursor 20 query.pingFilter)
  if query.pingCursor = .latest ∧ query.pingFilter = ⟨[], none, none⟩ then
    match recent with
    | some recent => return (page, some recent)
    | none =>
        let fetched ← store (.listRecentPingSummaries checkId heartbeatWindow)
        return (page, some fetched)
  else return (page, none)

/-- The deadline the check page shows; nothing enforces a paused check's. -/
def nextDue (check : Check) : StoreProg AppError (Option Instant) :=
  if check.status = .paused then return none else Prog.orPanic (dueTime X check)

/-- Who looks at a check page. An administrator sees another user's ping URL once it is revealed. -/
inductive CheckPageViewer where
  | owner
  | admin (viewerId : Int) (pingUrlRevealed : Bool)
  deriving DecidableEq, Repr

def CheckPageViewer.showsUrl (viewer : CheckPageViewer) (ownerId : Int) : Bool :=
  match viewer with
  | .owner => true
  | .admin viewerId pingUrlRevealed => pingUrlRevealed || viewerId = ownerId

def renderCheckPage (viewer : CheckPageViewer) (check : Check) (query : CheckPageQuery) (flash : Option String) :
    StoreProg AppError Response := do
  match ← store (.findProject check.projectId) with
  | none => Prog.fail .notFound
  | some project =>
      let pingUrl :=
        if viewer.showsUrl project.userId then trimEndSlashes ctx.baseUrl ++ "/ping/" ++ check.pingUuid else ""
      let bound ← store (.boundChannelIds check.id)
      let channels ← store (.listChannelsForProject check.projectId)
      let recent ← store (.listRecentPingSummaries check.id heartbeatWindow)
      let status ← Prog.orPanic (displayStatus check ctx.now)
      let due ← nextDue X check
      let pings ← buildPingsPartial check.id query (some recent)
      let notifications ← store (.listNotificationsPage check.id query.notifCursor 20 query.notifFilter)
      renderPage X sid user (.check check status due project.name pingUrl bound (channelRows channels) recent
        pings.1 notifications flash)

def checkShow (id : Int) (query : CheckPageQuery) : StoreProg AppError Response := do
  let check ← ownedCheck id user.id
  renderCheckPage X ctx sid user .owner check query (takeFlash ctx "channels" "Notify channels saved.")

/-- Without script the fragment's links lead to the page that embeds it. -/
def fragmentPageRedirect (path anchor : String) : Response :=
  .redirect (path ++ (if ctx.rawQuery = "" then "" else "?") ++ ctx.rawQuery ++ "#" ++ anchor)

def checkPings (id : Int) (query : CheckPageQuery) : StoreProg AppError Response := do
  let check ← ownedCheck id user.id
  if !ctx.fragment then
    return fragmentPageRedirect ctx ("/checks/" ++ i64ToString check.id) "pings-section"
  let part ← buildPingsPartial check.id query none
  renderPage X sid user (.pings check.id part.1 part.2)

def checkEvents (id : Int) : StoreProg AppError Response := do
  let check ← ownedCheck id user.id
  return .stream check.id

def checkNotifications (id : Int) (query : CheckPageQuery) : StoreProg AppError Response := do
  let check ← ownedCheck id user.id
  if !ctx.fragment then
    return fragmentPageRedirect ctx ("/checks/" ++ i64ToString check.id) "notifs-section"
  let channels ← store (.listChannelsForProject check.projectId)
  let page ← store (.listNotificationsPage check.id query.notifCursor 20 query.notifFilter)
  renderPage X sid user (.notifications check.id page (channels.map fun c => (c.id, c.name)))

def checkEditForm (check : Check) : CheckForm where
  name := check.name
  description := check.description
  scheduleKind := check.scheduleKind.asStr
  periodSecs := (check.periodSecs.map fmtDuration).getD ""
  cronExpr := check.cronExpr.getD ""
  graceSecs := fmtDuration check.graceSecs
  timezone := check.timezone
  scanIntervalSecs := (check.scanIntervalSecs.map fmtDuration).getD ""
  maxRuntimeSecs := (check.maxRuntimeSecs.map fmtDuration).getD ""
  nagIntervalSecs := (check.nagIntervalSecs.map fmtDuration).getD ""

def checkEdit (id : Int) : StoreProg AppError Response := do
  let check ← ownedCheck id user.id
  renderPage X sid user
    (.checkForm "Edit check" ("/checks/" ++ i64ToString check.id) (checkEditForm check) none)

def checkUpdateCore (base : String) (id : Int) (form : CheckForm) : StoreProg AppError Response :=
  match validateCheck X form with
  | .error msg =>
      renderPage X sid user (.checkForm "Edit check" (base ++ "/checks/" ++ i64ToString id) form (some msg))
  | .ok fields => do
      store (.updateCheckSchedule id fields)
      return .redirect (base ++ "/checks/" ++ i64ToString id)

def checkUpdate (id : Int) (form : CheckForm) : StoreProg AppError Response := do
  let _ ← ownedCheck id user.id
  checkUpdateCore X sid user "" id form

def checkPause (id : Int) : StoreProg AppError Response := do
  let _ ← ownedCheck id user.id
  store (.setStatus id .paused)
  return .redirect ("/checks/" ++ i64ToString id)

/-- Back to `new`, whatever the check's status is. -/
def checkResume (id : Int) : StoreProg AppError Response := do
  let _ ← ownedCheck id user.id
  store (.setStatus id .new)
  return .redirect ("/checks/" ++ i64ToString id)

def checkAck (id : Int) : StoreProg AppError Response := do
  let _ ← ownedCheck id user.id
  store (.acknowledge id)
  return .redirect ("/checks/" ++ i64ToString id)

def checkRegenerate (id : Int) (confirmed : Bool) : StoreProg AppError Response := do
  let _ ← ownedCheck id user.id
  if !confirmed then
    confirmationPage X sid user confirmRegenerateUrl ("/checks/" ++ i64ToString id ++ "/regenerate")
      ("/checks/" ++ i64ToString id)
  else
    store (.regenerateUuid id ctx.uuid)
    return .redirect ("/checks/" ++ i64ToString id)

def checkDelete (id : Int) (confirmed : Bool) : StoreProg AppError Response := do
  let check ← ownedCheck id user.id
  if !confirmed then
    confirmationPage X sid user confirmDeleteCheck ("/checks/" ++ i64ToString id ++ "/delete")
      ("/checks/" ++ i64ToString id)
  else
    store (.deleteCheck id)
    return .redirect ("/projects/" ++ i64ToString check.projectId)

/-! ### Channels -/

def ChannelEditView.ofChannel (channel : Channel) : ChannelEditView :=
  let value (key : String) : String :=
    ((X.parseConfig channel.configJson).bind fun get => get key).getD ""
  { id := channel.id, kind := channel.kind.asStr, name := channel.name,
    telegramChatId := value "chat_id", ntfyBaseUrl := value "base_url", ntfyTopic := value "topic",
    emailTo := value "to", hasUrl := value "url" ≠ "", hasToken := value "token" ≠ "",
    hasUser := value "user" ≠ "" }

def channelNew (projectId : Int) : StoreProg AppError Response := do
  let _ ← ownedProject projectId user.id
  renderPage X sid user (.channelForm projectId none ctx.smtpAvailable none)

def channelCreateCore (base : String) (projectId : Int) (form : ChannelForm) :
    StoreProg AppError Response :=
  match validateChannel X form with
  | .error msg => renderPage X sid user (.channelForm projectId (some msg) ctx.smtpAvailable none)
  | .ok (kind, name, config) => do
      let _ ← store (.createChannel ⟨projectId, kind, name, config⟩ ctx.now)
      return .redirect (base ++ "/projects/" ++ i64ToString projectId)

def channelCreate (projectId : Int) (form : ChannelForm) : StoreProg AppError Response := do
  let _ ← ownedProject projectId user.id
  channelCreateCore X ctx sid user "" projectId form

def channelEdit (id : Int) : StoreProg AppError Response := do
  let channel ← ownedChannel id user.id
  renderPage X sid user
    (.channelForm channel.projectId none ctx.smtpAvailable (some (.ofChannel X channel)))

/-- Merge the form over the stored config. -/
def channelUpdateCore (base : String) (channel : Channel) (form : ChannelForm) :
    StoreProg AppError Response :=
  match validateChannelUpdate X form (some channel) with
  | .error msg =>
      renderPage X sid user
        (.channelForm channel.projectId (some msg) ctx.smtpAvailable (some (.ofChannel X channel)))
  | .ok (_, name, config) => do
      store (.updateChannel channel.id name config)
      return .redirect (base ++ "/projects/" ++ i64ToString channel.projectId)

def channelUpdate (id : Int) (form : ChannelForm) : StoreProg AppError Response := do
  let channel ← ownedChannel id user.id
  channelUpdateCore X ctx sid user "" channel form

def channelDelete (id : Int) : StoreProg AppError Response := do
  let channel ← ownedChannel id user.id
  store (.deleteChannel id)
  return .redirect ("/projects/" ++ i64ToString channel.projectId)

/-- Sends once and records nothing. -/
def runChannelTest (channel : Channel) : StoreProg AppError TestResult := do
  let _ ← attemptCall (.findProject channel.projectId)
  let _ ← (displayTimezone : StoreProg AppError (Option String))
  match notifierFor X.parseConfig channel ctx.smtp with
  | none => return ⟨false, "channel configuration is incomplete"⟩
  | some notifier =>
      match X.sendTest notifier channel.name with
      | .ok _ => return ⟨true, "Test notification sent to \"" ++ channel.name ++ "\""⟩
      | .error e => return ⟨false, "Test notification failed: notify failed: " ++ e⟩

def channelTest (id : Int) : StoreProg AppError Response := do
  match ← store (.findChannel id) with
  | none => Prog.fail .notFound
  | some channel =>
      let project ← ownedProject channel.projectId user.id
      let result ← runChannelTest X ctx channel
      renderProjectPage X ctx sid user project (some result)

/-- A loop over ids that stops at the first step that fails. -/
def forEach {A : Type} (step : Int → StoreProg A Unit) : List Int → StoreProg A Unit
  | [] => return ()
  | id :: rest => do
      step id
      forEach step rest

/-- Replace the check's bound channels. Only ids of the check's own project are honoured. -/
def bindChannels (order : SetOrder) (check : Check) (channelIds : List Int) : StoreProg AppError Unit := do
  let channels ← store (.listChannelsForProject check.projectId)
  let current ← store (.boundChannelIds check.id)
  let desired := (channelIds.filter fun id => (channels.map Channel.id).contains id).dedup
  forEach (fun id => store (.bindChannel check.id id)) (order.arrange (desired.filter fun id => !current.contains id))
  forEach (fun id => store (.unbindChannel check.id id)) (order.arrange (current.filter fun id => !desired.contains id))

def checkSetChannels (id : Int) (channelIds : List Int) : StoreProg AppError Response := do
  let check ← ownedCheck id user.id
  bindChannels ctx.setOrder check channelIds
  return .redirect ("/checks/" ++ i64ToString id) (some "channels")

end Handlers

end Pingward
