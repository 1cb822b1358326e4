import Pingward.ModelWeb

/-! `/api/v1`: `src/api/extract.rs`, `src/api/error.rs` and the handlers of `src/api/v1.rs`. Every
handler that takes a path id goes through `resolveProject`, `resolveCheck` or `resolveChannel`. -/

open StoreProgram

namespace Pingward

/-- The error envelope. -/
structure ApiError where
  status : Nat
  code : String
  message : String
  deriving DecidableEq, Repr

namespace ApiError

/-- Both "does not exist" and "not yours". -/
def notFound : ApiError := ⟨404, "not_found", "resource not found"⟩

def unauthorized : ApiError := ⟨401, "unauthorized", "missing or invalid API key"⟩

def badRequest (message : String) : ApiError := ⟨400, "bad_request", message⟩

def internal : ApiError := ⟨500, "internal", "internal error"⟩

end ApiError

/-- A call of an API handler; a database error is an internal error. -/
def apiStore (c : StoreCall) : StoreProg ApiError c.Res := Prog.perform (fun _ => .internal) c

/-- A row, or the given error when there is none. -/
def okOr {α : Type} (error : ApiError) : Option α → StoreProg ApiError α
  | some row => return row
  | none => Prog.fail error

/-- A validator's verdict as a bad request. -/
def orBadRequest {α : Type} : Except String α → StoreProg ApiError α
  | .ok value => return value
  | .error message => Prog.fail (.badRequest message)

/-! ### Bodies -/

structure CheckDto where
  id : Int
  projectId : Int
  name : String
  description : String
  pingUuid : String
  status : String
  scheduleKind : String
  periodSecs : Option Int
  graceSecs : Int
  cronExpr : Option String
  timezone : String
  scanIntervalSecs : Option Int
  maxRuntimeSecs : Option Int
  nagIntervalSecs : Option Int
  lastPingAt : Option Instant
  lastStartAt : Option Instant
  nextDueAt : Option Instant
  acknowledged : Bool
  createdAt : Instant
  deriving DecidableEq, Repr

def CheckDto.ofCheck (c : Check) : CheckDto :=
  ⟨c.id, c.projectId, c.name, c.description, c.pingUuid, c.status.asStr, c.scheduleKind.asStr,
    c.periodSecs, c.graceSecs, c.cronExpr, c.timezone, c.scanIntervalSecs, c.maxRuntimeSecs,
    c.nagIntervalSecs, c.lastPingAt, c.lastStartAt, c.nextDueAt, c.acknowledged, c.createdAt⟩

/-- A channel without its config, which holds secrets. -/
structure ChannelDto where
  id : Int
  projectId : Int
  kind : String
  name : String
  createdAt : Instant
  deriving DecidableEq, Repr

def ChannelDto.ofChannel (c : Channel) : ChannelDto := ⟨c.id, c.projectId, c.kind.asStr, c.name, c.createdAt⟩

/-- An API key without its hash. -/
structure ApiKeyDto where
  id : Int
  name : String
  keyPrefix : String
  createdAt : Instant
  lastUsedAt : Option Instant
  expiresAt : Option Instant
  deriving DecidableEq, Repr

def ApiKeyDto.ofKey (k : ApiKey) : ApiKeyDto := ⟨k.id, k.name, k.keyPrefix, k.createdAt, k.lastUsedAt, k.expiresAt⟩

/-- A page with the cursors of its neighbours. -/
structure PageDto (ρ : Type) where
  page : Page ρ
  nextBefore : Option Int
  nextAfter : Option Int
  deriving DecidableEq, Repr

def PageDto.ofPage {ρ : Type} (id : ρ → Int) (page : Page ρ) : PageDto ρ :=
  ⟨page, if page.hasOlder then page.items.getLast?.map id else none,
    if page.hasNewer then page.items.head?.map id else none⟩

inductive ApiResponse where
  | projects (projects : List Project)
  | project (status : Nat) (project : Project)
  | checks (checks : List CheckDto)
  | check (status : Nat) (check : CheckDto)
  | channels (channels : List ChannelDto)
  | channel (status : Nat) (channel : ChannelDto)
  | pings (page : PageDto Ping)
  | notifications (page : PageDto Notification)
  | keys (keys : List ApiKeyDto)
  | boundChannels (channelIds : List Int)
  | noContent
  deriving DecidableEq, Repr

/-! ### Requests -/

structure ApiContext where
  now : Instant
  /-- The bearer token of the request. -/
  token : Option String
  uuid : String
  path : String
  setOrder : SetOrder

/-- Keyset pagination; `before` wins if both cursors are given. -/
structure PageParams where
  before : Option Int
  after : Option Int
  limit : Option Int
  deriving DecidableEq, Repr

def PageParams.cursor (params : PageParams) : PageCursor :=
  match params.before, params.after with
  | some id, _ => .before id
  | none, some id => .after id
  | none, none => .latest

/-- Clamped to between 1 and 100, 20 by default. -/
def PageParams.pageLimit (params : PageParams) : Nat := (min (max (params.limit.getD 20) 1) 100).toNat

/-- The routes of `/api/v1`. A body that does not deserialise is its error text. -/
inductive ApiRoute where
  | listProjects
  | createProject (body : Except String ProjectInput)
  | getProject (id : Int)
  | updateProject (id : Int) (body : Except String ProjectInput)
  | deleteProject (id : Int)
  | listProjectChecks (id : Int)
  | createCheck (projectId : Int) (body : Except String CheckInput)
  | listProjectChannels (id : Int)
  | createChannel (projectId : Int) (body : Except String ChannelForm)
  | getCheck (id : Int)
  | updateCheck (id : Int) (body : Except String CheckInput)
  | deleteCheck (id : Int)
  | listCheckPings (id : Int) (params : PageParams)
  | listCheckNotifications (id : Int) (params : PageParams)
  | pauseCheck (id : Int)
  | resumeCheck (id : Int)
  | ackCheck (id : Int)
  | regenerateCheck (id : Int)
  | setCheckChannels (id : Int) (body : Except String (List Int))
  | getChannel (id : Int)
  | updateChannel (id : Int) (body : Except String ChannelForm)
  | deleteChannel (id : Int)
  | listKeys
  deriving DecidableEq

section Handlers

variable (X : Crates) (ctx : ApiContext) (user : User)

/-- The caller of a bearer key. A key outlives its owner being disabled, so that is checked again. -/
def apiUser : StoreProg ApiError User := do
  let token ← okOr .unauthorized ctx.token
  let found ← apiStore (.validateApiKey (X.hashApiKey token) ctx.now)
  let userId ← okOr .unauthorized found
  let row ← apiStore (.findUserById userId)
  okOr .unauthorized (row.filter fun account => !account.disabled)

/-- Record an admin key reaching a resource it does not own. -/
def auditCrossUser (method targetType : String) (targetId : Int) (owner : Option Int) :
    StoreProg ApiError Unit := do
  let _ ← apiStore (.recordAudit
    ⟨user.id, user.username, "admin.api.access", some targetType, some targetId, owner, some method,
      some ctx.path, none⟩ ctx.now)
  return ()

/-- Owner first, else an audited admin access, else not found. -/
def resolveOwned {α : Type} (method targetType : String) (targetId : Int) (owner : Option Int) (row : α) :
    StoreProg ApiError α := do
  if owner = some user.id then return row
  if user.isAdmin then
    auditCrossUser ctx user method targetType targetId owner
    return row
  Prog.fail .notFound

def resolveProject (method : String) (id : Int) : StoreProg ApiError Project := do
  let found ← apiStore (.findProject id)
  let project ← okOr .notFound found
  resolveOwned ctx user method "project" project.id (some project.userId) project

def resolveCheck (method : String) (id : Int) : StoreProg ApiError Check := do
  let found ← apiStore (.findCheck id)
  let check ← okOr .notFound found
  let project ← apiStore (.findProject check.projectId)
  resolveOwned ctx user method "check" check.id (project.map Project.userId) check

def resolveChannel (method : String) (id : Int) : StoreProg ApiError Channel := do
  let found ← apiStore (.findChannel id)
  let channel ← okOr .notFound found
  let project ← apiStore (.findProject channel.projectId)
  resolveOwned ctx user method "channel" channel.id (project.map Project.userId) channel

namespace V1

def reloadCheck (id : Int) : StoreProg ApiError ApiResponse := do
  let found ← apiStore (.findCheck id)
  let check ← okOr .notFound found
  return .check 200 (.ofCheck check)

def createProject (input : ProjectInput) : StoreProg ApiError ApiResponse := do
  let settings ← orBadRequest (validateProject input.form)
  let id ← apiStore (.createProject user.id settings ctx.now)
  let found ← apiStore (.findProject id)
  let project ← okOr .internal found
  return .project 201 project

def updateProject (id : Int) (input : ProjectInput) : StoreProg ApiError ApiResponse := do
  let _ ← resolveProject ctx user "PATCH" id
  let settings ← orBadRequest (validateProject input.form)
  apiStore (.updateProject id settings)
  let found ← apiStore (.findProject id)
  let project ← okOr .notFound found
  return .project 200 project

def createCheck (projectId : Int) (input : CheckInput) : StoreProg ApiError ApiResponse := do
  let _ ← resolveProject ctx user "POST" projectId
  let fields ← orBadRequest (validateCheck X input.form)
  let id ← apiStore (.createCheck (fields.newCheck projectId ctx.uuid) ctx.now)
  apiStore (.bindAllProjectChannels id projectId)
  let found ← apiStore (.findCheck id)
  let check ← okOr .internal found
  return .check 201 (.ofCheck check)

def updateCheck (id : Int) (input : CheckInput) : StoreProg ApiError ApiResponse := do
  let _ ← resolveCheck ctx user "PATCH" id
  let fields ← orBadRequest (validateCheck X input.form)
  apiStore (.updateCheckSchedule id fields)
  reloadCheck id

/-- The handlers that make one call on a check and show it again. -/
def apiCheckAction (id : Int) (action : StoreProg ApiError Unit) : StoreProg ApiError ApiResponse := do
  let _ ← resolveCheck ctx user "POST" id
  action
  reloadCheck id

def pauseCheck (id : Int) : StoreProg ApiError ApiResponse :=
  apiCheckAction ctx user id (apiStore (.setStatus id .paused))

/-- Back to `new`, whatever the check's status is. -/
def resumeCheck (id : Int) : StoreProg ApiError ApiResponse :=
  apiCheckAction ctx user id (apiStore (.setStatus id .new))

def ackCheck (id : Int) : StoreProg ApiError ApiResponse :=
  apiCheckAction ctx user id (apiStore (.acknowledge id))

def regenerateCheck (id : Int) : StoreProg ApiError ApiResponse :=
  apiCheckAction ctx user id (apiStore (.regenerateUuid id ctx.uuid))

/-- Replace the set of channels bound to a check; ids outside the check's own project are ignored. -/
def setCheckChannels (id : Int) (channelIds : List Int) : StoreProg ApiError ApiResponse := do
  let check ← resolveCheck ctx user "PUT" id
  let channels ← apiStore (.listChannelsForProject check.projectId)
  let current ← apiStore (.boundChannelIds id)
  let desired := (channelIds.filter fun channelId => (channels.map Channel.id).contains channelId).dedup
  forEach (fun channelId => apiStore (.bindChannel id channelId))
    (ctx.setOrder.arrange (desired.filter fun channelId => !current.contains channelId))
  forEach (fun channelId => apiStore (.unbindChannel id channelId))
    (ctx.setOrder.arrange (current.filter fun channelId => !desired.contains channelId))
  let bound ← apiStore (.boundChannelIds id)
  return .boundChannels bound

def createChannel (projectId : Int) (form : ChannelForm) : StoreProg ApiError ApiResponse := do
  let _ ← resolveProject ctx user "POST" projectId
  let (kind, name, config) ← orBadRequest (validateChannel X form)
  let id ← apiStore (.createChannel ⟨projectId, kind, name, config⟩ ctx.now)
  let found ← apiStore (.findChannel id)
  let channel ← okOr .internal found
  return .channel 201 (.ofChannel channel)

def updateChannel (id : Int) (form : ChannelForm) : StoreProg ApiError ApiResponse := do
  let existing ← resolveChannel ctx user "PATCH" id
  let (_, name, config) ← orBadRequest (validateChannelUpdate X form (some existing))
  apiStore (.updateChannel id name config)
  let found ← apiStore (.findChannel id)
  let channel ← okOr .internal found
  return .channel 200 (.ofChannel channel)

end V1

/-- The handler of a route, after the caller and the body have been extracted. -/
def apiHandle : ApiRoute → StoreProg ApiError ApiResponse
  | .listProjects => do
      let projects ← apiStore (.listProjectsForUser user.id)
      return .projects projects
  | .createProject body => do
      let input ← orBadRequest body
      V1.createProject ctx user input
  | .getProject id => do
      let project ← resolveProject ctx user "GET" id
      return .project 200 project
  | .updateProject id body => do
      let input ← orBadRequest body
      V1.updateProject ctx user id input
  | .deleteProject id => do
      let _ ← resolveProject ctx user "DELETE" id
      apiStore (.deleteProject id)
      return .noContent
  | .listProjectChecks id => do
      let project ← resolveProject ctx user "GET" id
      let checks ← apiStore (.listChecksForProject project.id)
      return .checks (checks.map .ofCheck)
  | .createCheck projectId body => do
      let input ← orBadRequest body
      V1.createCheck X ctx user projectId input
  | .listProjectChannels id => do
      let project ← resolveProject ctx user "GET" id
      let channels ← apiStore (.listChannelsForProject project.id)
      return .channels (channels.map .ofChannel)
  | .createChannel projectId body => do
      let form ← orBadRequest body
      V1.createChannel X ctx user projectId form
  | .getCheck id => do
      let check ← resolveCheck ctx user "GET" id
      return .check 200 (.ofCheck check)
  | .updateCheck id body => do
      let input ← orBadRequest body
      V1.updateCheck X ctx user id input
  | .deleteCheck id => do
      let _ ← resolveCheck ctx user "DELETE" id
      apiStore (.deleteCheck id)
      return .noContent
  | .listCheckPings id params => do
      let check ← resolveCheck ctx user "GET" id
      let page ← apiStore (.listPingsPage check.id params.cursor params.pageLimit ⟨[], none, none⟩)
      return .pings (.ofPage Ping.id page)
  | .listCheckNotifications id params => do
      let check ← resolveCheck ctx user "GET" id
      let page ← apiStore (.listNotificationsPage check.id params.cursor params.pageLimit ⟨[], [], none, none⟩)
      return .notifications (.ofPage Notification.id page)
  | .pauseCheck id => V1.pauseCheck ctx user id
  | .resumeCheck id => V1.resumeCheck ctx user id
  | .ackCheck id => V1.ackCheck ctx user id
  | .regenerateCheck id => V1.regenerateCheck ctx user id
  | .setCheckChannels id body => do
      let channelIds ← orBadRequest body
      V1.setCheckChannels ctx user id channelIds
  | .getChannel id => do
      let channel ← resolveChannel ctx user "GET" id
      return .channel 200 (.ofChannel channel)
  | .updateChannel id body => do
      let form ← orBadRequest body
      V1.updateChannel X ctx user id form
  | .deleteChannel id => do
      let _ ← resolveChannel ctx user "DELETE" id
      apiStore (.deleteChannel id)
      return .noContent
  | .listKeys => do
      let keys ← apiStore (.listApiKeysForUser user.id)
      return .keys (keys.map .ofKey)

/-- A whole API request. -/
def apiRequest (route : ApiRoute) : StoreProg ApiError ApiResponse := do
  let caller ← apiUser X ctx
  apiHandle X ctx caller route

end Handlers

end Pingward
