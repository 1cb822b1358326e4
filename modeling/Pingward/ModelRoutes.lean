import Pingward.ModelAccount
import Pingward.ModelApi

/-! Whole requests: the layers of `crate::app`, the extractors and the handler of the route. -/

open StoreProgram

namespace Pingward

section Web

variable (X : Crates) (ctx : WebContext) (sid : String) (user : User)

/-- The handler of an owner route. -/
def webHandle : WebRoute → StoreProg AppError Response
  | .dashboard query => dashboard X ctx sid user query
  | .logout => logout ctx sid
  | .projectNew => projectNew X sid user
  | .projectCreate form => projectCreate X ctx sid user form
  | .projectShow id => projectShow X ctx sid user id
  | .projectEdit id => projectEdit X sid user id
  | .projectUpdate id form => projectUpdate X sid user id form
  | .projectDelete id confirmed => projectDelete X sid user id confirmed
  | .checkNew projectId => checkNew X sid user projectId
  | .checkCreate projectId form => checkCreate X ctx sid user projectId form
  | .checkShow id query => checkShow X ctx sid user id query
  | .checkPings id query => checkPings X ctx sid user id query
  | .checkEvents id => checkEvents user id
  | .checkNotifications id query => checkNotifications X ctx sid user id query
  | .checkEdit id => checkEdit X sid user id
  | .checkUpdate id form => checkUpdate X sid user id form
  | .checkPause id => checkPause user id
  | .checkResume id => checkResume user id
  | .checkAck id => checkAck user id
  | .checkRegenerate id confirmed => checkRegenerate X ctx sid user id confirmed
  | .checkDelete id confirmed => checkDelete X sid user id confirmed
  | .checkSetChannels id channelIds => checkSetChannels ctx user id channelIds
  | .channelNew projectId => channelNew X ctx sid user projectId
  | .channelCreate projectId form => channelCreate X ctx sid user projectId form
  | .channelEdit id => channelEdit X ctx sid user id
  | .channelUpdate id form => channelUpdate X ctx sid user id form
  | .channelDelete id => channelDelete user id
  | .channelTest id => channelTest X ctx sid user id
  | .accountPage => accountPage X ctx sid user
  | .accountPassword form => accountPassword X ctx sid user form
  | .apiKeysCreate form => apiKeysCreate X ctx sid user form
  | .apiKeysDelete id confirmed => apiKeysDelete X sid user id confirmed
  | .sessionsRevoke handle confirmed => sessionsRevoke X ctx sid user handle confirmed
  | .sessionsRevokeOthers confirmed => sessionsRevokeOthers X sid user confirmed

/-- A request on an owner route. Signing out looks at the session id only; every other route extracts
its user, and the dashboard alone sends a visitor to the setup page of an empty instance. -/
def webRequest (route : WebRoute) : StoreProg AppError Response := do
  let sid ← requestSession ctx
  if route.isPost && !ctx.csrfOk then return .status 403 ""
  match route with
  | .logout => logout ctx sid
  | route =>
      match ← resolveUser ctx sid with
      | some user => webHandle X ctx sid user route
      | none =>
          match route with
          | .dashboard _ => return if (← store .countUsers) = 0 then .redirect "/setup" else .redirect "/login"
          | _ => return .redirect "/login"

/-! ### `/admin` -/

structure NewUserForm where
  username : String
  password : String
  isAdmin : Option String
  deriving DecidableEq, Repr

inductive AdminRoute where
  | usersCreate (form : NewUserForm)
  | usersDelete (id : Int) (confirmed : Bool)
  | usersSetPassword (id : Int) (password : String)
  | usersToggleAdmin (id : Int) (confirmed : Bool)
  | usersSetDisabled (id : Int) (confirmed : Bool)
  | settingsSave (form : SettingsForm)
  | projectShow (id : Int)
  | projectEdit (id : Int)
  | projectUpdate (id : Int) (form : ProjectForm)
  | projectDelete (id : Int) (confirmed : Bool)
  | checkNew (projectId : Int)
  | checkCreate (projectId : Int) (form : CheckForm)
  | checkRevealPingUrl (id : Int) (query : CheckPageQuery)
  | checkShow (id : Int) (query : CheckPageQuery)
  | checkPings (id : Int) (query : CheckPageQuery)
  | checkEvents (id : Int)
  | checkNotifications (id : Int) (query : CheckPageQuery)
  | checkEdit (id : Int)
  | checkUpdate (id : Int) (form : CheckForm)
  | checkPause (id : Int)
  | checkResume (id : Int)
  | checkAck (id : Int)
  | checkRegenerate (id : Int) (confirmed : Bool)
  | checkDelete (id : Int) (confirmed : Bool)
  | checkSetChannels (id : Int) (channelIds : List Int)
  | channelNew (projectId : Int)
  | channelCreate (projectId : Int) (form : ChannelForm)
  | channelEdit (id : Int)
  | channelUpdate (id : Int) (form : ChannelForm)
  | channelDelete (id : Int)
  | channelTest (id : Int)
  deriving DecidableEq, Repr

/-- Whether the route is a `POST`. -/
def AdminRoute.isPost : AdminRoute → Bool
  | .projectShow _ | .projectEdit _ | .checkNew _ | .checkShow _ _ | .checkPings _ _ | .checkEvents _
  | .checkNotifications _ _ | .checkEdit _ | .channelNew _ | .channelEdit _ => false
  | _ => true

/-- The audit row of an access through `/admin`; a read is not audited. -/
def auditAccess (method targetType : String) (targetId : Int) (owner : Option Int) : StoreProg AppError Unit := do
  if method ≠ "GET" then
    let _ ← store (.recordAudit
      ⟨user.id, user.username, "admin.access", some targetType, some targetId, owner, some method, some ctx.path,
        none⟩ ctx.now)
    return ()

/-- No owner filter. -/
def adminProject (method : String) (id : Int) : StoreProg AppError Project := do
  match ← store (.findProject id) with
  | none => Prog.fail .notFound
  | some project =>
      auditAccess ctx user method "project" project.id (some project.userId)
      return project

def adminCheck (method : String) (id : Int) : StoreProg AppError Check := do
  match ← store (.findCheck id) with
  | none => Prog.fail .notFound
  | some check =>
      let project ← store (.findProject check.projectId)
      auditAccess ctx user method "check" check.id (project.map Project.userId)
      return check

def adminChannel (method : String) (id : Int) : StoreProg AppError Channel := do
  match ← store (.findChannel id) with
  | none => Prog.fail .notFound
  | some channel =>
      let project ← store (.findProject channel.projectId)
      auditAccess ctx user method "channel" channel.id (project.map Project.userId)
      return channel

def adminProjectShow (id : Int) : StoreProg AppError Response := do
  let project ← adminProject ctx user "GET" id
  renderProjectPage X ctx sid user project none

def adminProjectEdit (id : Int) : StoreProg AppError Response := do
  let project ← adminProject ctx user "GET" id
  renderPage X sid user
    (.projectForm "Edit project" ("/admin/projects/" ++ i64ToString project.id) (projectEditForm project) none)

def adminProjectUpdate (id : Int) (form : ProjectForm) : StoreProg AppError Response := do
  let _ ← adminProject ctx user "POST" id
  match validateProject form with
  | .error msg =>
      renderPage X sid user (.projectForm "Edit project" ("/admin/projects/" ++ i64ToString id) form (some msg))
  | .ok settings =>
      store (.updateProject id settings)
      return .redirect ("/admin/projects/" ++ i64ToString id)

def adminProjectDelete (id : Int) (confirmed : Bool) : StoreProg AppError Response := do
  let _ ← adminProject ctx user "POST" id
  if !confirmed then
    confirmationPage X sid user confirmDeleteProject ("/admin/projects/" ++ i64ToString id ++ "/delete")
      ("/admin/projects/" ++ i64ToString id)
  else
    store (.deleteProject id)
    return .redirect "/admin"

def adminCheckNew (projectId : Int) : StoreProg AppError Response := do
  let _ ← adminProject ctx user "GET" projectId
  renderPage X sid user (.checkForm "New check" ("/admin/projects/" ++ i64ToString projectId ++ "/checks")
    emptyCheckForm none)

def adminCheckCreate (projectId : Int) (form : CheckForm) : StoreProg AppError Response := do
  let _ ← adminProject ctx user "POST" projectId
  checkCreateCore X ctx sid user "/admin" projectId form

/-- The one audited read: it discloses a credential. One's own check discloses nothing. -/
def adminCheckRevealPingUrl (id : Int) (query : CheckPageQuery) : StoreProg AppError Response := do
  match ← store (.findCheck id) with
  | none => Prog.fail .notFound
  | some check =>
      let project ← store (.findProject check.projectId)
      let owner := project.map Project.userId
      if owner ≠ some user.id then
        let _ ← store (.recordAudit
          ⟨user.id, user.username, "admin.ping_url_reveal", some "check", some check.id, owner, some "POST",
            some ("/admin/checks/" ++ i64ToString id ++ "/ping-url"), none⟩ ctx.now)
        renderCheckPage X ctx sid user (.admin user.id true) check query none
      else renderCheckPage X ctx sid user (.admin user.id true) check query none

def adminCheckShow (id : Int) (query : CheckPageQuery) : StoreProg AppError Response := do
  let check ← adminCheck ctx user "GET" id
  renderCheckPage X ctx sid user (.admin user.id false) check query (takeFlash ctx "channels" "Notify channels saved.")

def adminCheckPings (id : Int) (query : CheckPageQuery) : StoreProg AppError Response := do
  let check ← adminCheck ctx user "GET" id
  if !ctx.fragment then
    return fragmentPageRedirect ctx ("/admin/checks/" ++ i64ToString check.id) "pings-section"
  let part ← buildPingsPartial check.id query none
  renderPage X sid user (.pings check.id part.1 part.2)

def adminCheckEvents (id : Int) : StoreProg AppError Response := do
  let check ← adminCheck ctx user "GET" id
  return .stream check.id

def adminCheckNotifications (id : Int) (query : CheckPageQuery) : StoreProg AppError Response := do
  let check ← adminCheck ctx user "GET" id
  if !ctx.fragment then
    return fragmentPageRedirect ctx ("/admin/checks/" ++ i64ToString check.id) "notifs-section"
  let channels ← store (.listChannelsForProject check.projectId)
  let page ← store (.listNotificationsPage check.id query.notifCursor 20 query.notifFilter)
  renderPage X sid user (.notifications check.id page (channels.map fun c => (c.id, c.name)))

def adminCheckEdit (id : Int) : StoreProg AppError Response := do
  let check ← adminCheck ctx user "GET" id
  renderPage X sid user
    (.checkForm "Edit check" ("/admin/checks/" ++ i64ToString check.id) (checkEditForm check) none)

/-- A call on any user's check, after the audit. -/
def adminCheckAction (id : Int) (call : StoreProg AppError Unit) : StoreProg AppError Response := do
  let _ ← adminCheck ctx user "POST" id
  call
  return .redirect ("/admin/checks/" ++ i64ToString id)

def adminCheckPause (id : Int) : StoreProg AppError Response :=
  adminCheckAction ctx user id (store (.setStatus id .paused))

def adminCheckResume (id : Int) : StoreProg AppError Response :=
  adminCheckAction ctx user id (store (.setStatus id .new))

def adminCheckAck (id : Int) : StoreProg AppError Response :=
  adminCheckAction ctx user id (store (.acknowledge id))

def adminCheckUpdate (id : Int) (form : CheckForm) : StoreProg AppError Response := do
  let _ ← adminCheck ctx user "POST" id
  checkUpdateCore X sid user "/admin" id form

def adminCheckRegenerate (id : Int) (confirmed : Bool) : StoreProg AppError Response := do
  let _ ← adminCheck ctx user "POST" id
  if !confirmed then
    confirmationPage X sid user confirmRegenerateUrl ("/admin/checks/" ++ i64ToString id ++ "/regenerate")
      ("/admin/checks/" ++ i64ToString id)
  else
    store (.regenerateUuid id ctx.uuid)
    return .redirect ("/admin/checks/" ++ i64ToString id)

def adminCheckDelete (id : Int) (confirmed : Bool) : StoreProg AppError Response := do
  let check ← adminCheck ctx user "POST" id
  if !confirmed then
    confirmationPage X sid user confirmDeleteCheck ("/admin/checks/" ++ i64ToString id ++ "/delete")
      ("/admin/checks/" ++ i64ToString id)
  else
    store (.deleteCheck id)
    return .redirect ("/admin/projects/" ++ i64ToString check.projectId)

def adminCheckSetChannels (id : Int) (channelIds : List Int) : StoreProg AppError Response := do
  let check ← adminCheck ctx user "POST" id
  bindChannels ctx.setOrder check channelIds
  return .redirect ("/admin/checks/" ++ i64ToString id) (some "channels")

def adminChannelNew (projectId : Int) : StoreProg AppError Response := do
  let _ ← adminProject ctx user "GET" projectId
  renderPage X sid user (.channelForm projectId none ctx.smtpAvailable none)

def adminChannelCreate (projectId : Int) (form : ChannelForm) : StoreProg AppError Response := do
  let _ ← adminProject ctx user "POST" projectId
  channelCreateCore X ctx sid user "/admin" projectId form

def adminChannelEdit (id : Int) : StoreProg AppError Response := do
  let channel ← adminChannel ctx user "GET" id
  renderPage X sid user
    (.channelForm channel.projectId none ctx.smtpAvailable (some (.ofChannel X channel)))

def adminChannelUpdate (id : Int) (form : ChannelForm) : StoreProg AppError Response := do
  let channel ← adminChannel ctx user "POST" id
  channelUpdateCore X ctx sid user "/admin" channel form

def adminChannelDelete (id : Int) : StoreProg AppError Response := do
  let channel ← adminChannel ctx user "POST" id
  store (.deleteChannel id)
  return .redirect ("/admin/projects/" ++ i64ToString channel.projectId)

def adminChannelTest (id : Int) : StoreProg AppError Response := do
  let channel ← adminChannel ctx user "POST" id
  match ← store (.findProject channel.projectId) with
  | none => Prog.fail .notFound
  | some project =>
      let result ← runChannelTest X ctx channel
      renderProjectPage X ctx sid user project (some result)

/-- Why a new account is refused before anything is written. -/
def newUserError (form : NewUserForm) (username : String) (taken : Bool) : Option String :=
  if username = "" then some "username and password are required"
  else
    match validatePassword form.password with
    | .error msg => some msg
    | .ok _ => if taken then some (usernameTaken username) else none

def usersCreate (form : NewUserForm) : StoreProg AppError Response := do
  let username := trim form.username
  let found ← if username = "" then pure none else store (.findUserByUsername username)
  match newUserError form username found.isSome with
  | some error => renderPage X sid user (.admin (some error))
  | none =>
      if !elevationAllows ctx user then return adminLocked
      let phc ← hashOrFail X ctx form.password
      let isAdmin := form.isAdmin.any (· ≠ "")
      match ← attemptCall (.createUser username (some phc) isAdmin ctx.now) with
      | .error .uniqueViolation => renderPage X sid user (.admin (some (usernameTaken username)))
      | .error error => Prog.fail (.db error)
      | .ok id =>
          auditUser ctx user "user.create" id (some (if isAdmin then "admin" else "member"))
          return .redirect "/admin"

/-- The stored settings as the form shows them. -/
def loadSettingsFields : StoreProg AppError SettingsForm := do
  let scanInterval ← store (.getSetting "scan_interval")
  let nagInterval ← store (.getSetting "nag_interval")
  let pingsRetentionDays ← store (.getSetting "pings_retention_days")
  let notificationsRetentionDays ← store (.getSetting "notifications_retention_days")
  let auditRetentionDays ← store (.getSetting "audit_retention_days")
  let displayTimezone ← store (.getSetting "display_timezone")
  return {
    scanInterval := readableSettingDuration (scanInterval.getD "")
    nagInterval := readableSettingDuration (nagInterval.getD "")
    pingsRetentionDays := pingsRetentionDays.getD ""
    notificationsRetentionDays := notificationsRetentionDays.getD ""
    auditRetentionDays := auditRetentionDays.getD ""
    displayTimezone := displayTimezone.getD "" }

/-- `key=value` for each setting whose stored value differs. -/
def changedSettings : List (String × String) → StoreProg AppError (List String)
  | [] => return []
  | (key, value) :: rest => do
      let previous ← store (.getSetting key)
      let others ← changedSettings rest
      if previous.getD "" = value then return others
      return (key ++ "=" ++ if value = "" then "unset" else value) :: others

def saveSettings : List (String × String) → StoreProg AppError Unit
  | [] => return ()
  | (key, value) :: rest => do
      store (.setSetting key value)
      saveSettings rest

def settingsSave (form : SettingsForm) : StoreProg AppError Response :=
  match validateSettings X form with
  | .error msg => renderPage X sid user (.admin (some msg))
  | .ok parsed => do
      let changed ← changedSettings parsed
      saveSettings parsed
      if changed ≠ [] then
        let _ ← store (.recordAudit
          ⟨user.id, user.username, "settings.update", none, none, none, some "POST", some "/admin/settings",
            some (" ".intercalate changed)⟩ ctx.now)
        return .redirect "/admin" (some "settings")
      return .redirect "/admin" (some "settings")

def adminHandle : AdminRoute → StoreProg AppError Response
  | .usersCreate form => usersCreate X ctx sid user form
  | .usersDelete id confirmed => usersDelete X ctx sid user id confirmed
  | .usersSetPassword id password => usersSetPassword X ctx sid user id password
  | .usersToggleAdmin id confirmed => usersToggleAdmin X ctx sid user id confirmed
  | .usersSetDisabled id confirmed => usersSetDisabled X ctx sid user id confirmed
  | .settingsSave form => settingsSave X ctx sid user form
  | .projectShow id => adminProjectShow X ctx sid user id
  | .projectEdit id => adminProjectEdit X ctx sid user id
  | .projectUpdate id form => adminProjectUpdate X ctx sid user id form
  | .projectDelete id confirmed => adminProjectDelete X ctx sid user id confirmed
  | .checkNew projectId => adminCheckNew X ctx sid user projectId
  | .checkCreate projectId form => adminCheckCreate X ctx sid user projectId form
  | .checkRevealPingUrl id query => adminCheckRevealPingUrl X ctx sid user id query
  | .checkShow id query => adminCheckShow X ctx sid user id query
  | .checkPings id query => adminCheckPings X ctx sid user id query
  | .checkEvents id => adminCheckEvents ctx user id
  | .checkNotifications id query => adminCheckNotifications X ctx sid user id query
  | .checkEdit id => adminCheckEdit X ctx sid user id
  | .checkUpdate id form => adminCheckUpdate X ctx sid user id form
  | .checkPause id => adminCheckPause ctx user id
  | .checkResume id => adminCheckResume ctx user id
  | .checkAck id => adminCheckAck ctx user id
  | .checkRegenerate id confirmed => adminCheckRegenerate X ctx sid user id confirmed
  | .checkDelete id confirmed => adminCheckDelete X ctx sid user id confirmed
  | .checkSetChannels id channelIds => adminCheckSetChannels ctx user id channelIds
  | .channelNew projectId => adminChannelNew X ctx sid user projectId
  | .channelCreate projectId form => adminChannelCreate X ctx sid user projectId form
  | .channelEdit id => adminChannelEdit X ctx sid user id
  | .channelUpdate id form => adminChannelUpdate X ctx sid user id form
  | .channelDelete id => adminChannelDelete ctx user id
  | .channelTest id => adminChannelTest X ctx sid user id

/-- The layers and the `AdminUser` extractor in front of an `/admin` handler. -/
def asAdmin (isPost : Bool) (handler : String → User → StoreProg AppError Response) :
    StoreProg AppError Response := do
  let sid ← requestSession ctx
  if isPost && !ctx.csrfOk then return .status 403 ""
  match ← resolveUser ctx sid with
  | none => return .redirect "/login"
  | some user => if user.isAdmin then handler sid user else return .status 403 "admin only"

/-- A request under `/admin`. -/
def adminRequest (route : AdminRoute) : StoreProg AppError Response :=
  asAdmin ctx route.isPost fun sid user => adminHandle X ctx sid user route

end Web

end Pingward
