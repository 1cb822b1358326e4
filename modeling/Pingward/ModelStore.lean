import Pingward.ModelRows
import Pingward.TableBasic
import Pingward.ProgramBasic

/-! The database of `src/store.rs` and `migrations/`, and what each `Store` method does to it. A method
is one call: it answers, or fails with a database error and leaves the tables alone. Foreign keys
cascade on delete, and an insert that breaks a unique or a foreign key is refused. -/

open KeyedTable StoreProgram

namespace Pingward

/-- The order in which a query without `ORDER BY` gives the checks: the engine is free to choose it. -/
structure RowOrder where
  arrange : List Check → List Check
  perm : ∀ rows, (arrange rows).Perm rows

/-- The order of the ids. -/
def RowOrder.byId : RowOrder := ⟨id, fun _ => .refl _⟩

structure Db where
  rowOrder : RowOrder
  users : AutoTable User User.id
  projects : AutoTable Project Project.id
  checks : AutoTable Check Check.id
  channels : AutoTable Channel Channel.id
  checkChannels : Table Binding Binding id
  pings : AutoTable Ping Ping.id
  notifications : AutoTable Notification Notification.id
  sessions : Table String Session Session.id
  settings : Table String Setting Setting.key
  auditLog : AutoTable AuditLog AuditLog.id
  apiKeys : AutoTable ApiKey ApiKey.id

/-- A freshly migrated database. -/
def Db.empty : Db where
  rowOrder := .byId
  users := .empty
  projects := .empty
  checks := .empty
  channels := .empty
  checkChannels := .empty
  pings := .empty
  notifications := .empty
  sessions := .empty
  settings := .empty
  auditLog := .empty
  apiKeys := .empty

/-- `sqlx::Error`, as far as the program looks at it. -/
inductive StoreError where
  | uniqueViolation
  | foreignKeyViolation
  | unavailable
  deriving DecidableEq, Repr

/-- `ORDER BY` an integer column. -/
def orderBy {ρ : Type} (column : ρ → Int) (rows : List ρ) : List ρ :=
  rows.mergeSort fun a b => column a ≤ column b

/-- `ORDER BY` an integer column `DESC`. -/
def orderByDesc {ρ : Type} (column : ρ → Int) (rows : List ρ) : List ρ :=
  rows.mergeSort fun a b => column b ≤ column a

/-- The rows of each of the ids, an id without rows absent. -/
def groupRows {ρ : Type} (ids : List Int) (rowsOf : Int → List ρ) : List (Int × List ρ) :=
  ids.dedup.filterMap fun id => if (rowsOf id).isEmpty then none else some (id, rowsOf id)

/-! ### Pages -/

inductive PageCursor where
  | latest
  | before (id : Int)
  | after (id : Int)
  deriving DecidableEq, Repr

/-- Newest first, whichever direction was queried. -/
structure Page (ρ : Type) where
  items : List ρ
  hasNewer : Bool
  hasOlder : Bool
  deriving DecidableEq, Repr

structure PingFilter where
  kinds : List PingKind
  since : Option Instant
  until_ : Option Instant
  deriving DecidableEq, Repr

structure NotifFilter where
  events : List EventKind
  statuses : List NotifyStatus
  since : Option Instant
  until_ : Option Instant
  deriving DecidableEq, Repr

def inDates (since until_ : Option Instant) (t : Instant) : Bool :=
  since.all (· ≤ t) && until_.all (t ≤ ·)

def PingFilter.holds (filter : PingFilter) (ping : Ping) : Bool :=
  (filter.kinds.isEmpty || filter.kinds.contains ping.kind) &&
    inDates filter.since filter.until_ ping.createdAt

def NotifFilter.holds (filter : NotifFilter) (row : Notification) : Bool :=
  (filter.events.isEmpty || filter.events.contains row.event) &&
    (filter.statuses.isEmpty || filter.statuses.contains row.status) &&
    inDates filter.since filter.until_ row.createdAt

/-- `keyset_page` over the rows that match the scope and the filter: one row more than the limit is
fetched to see whether another page follows. -/
def keysetPage {ρ : Type} (id : ρ → Int) (rows : List ρ) (cursor : PageCursor) (limit : Nat) :
    Page ρ :=
  match cursor with
  | .latest =>
      let fetched := (orderByDesc id rows).take (limit + 1)
      ⟨fetched.take limit, false, limit < fetched.length⟩
  | .before cursor =>
      let fetched := (orderByDesc id (rows.filter fun row => id row < cursor)).take (limit + 1)
      ⟨fetched.take limit, true, limit < fetched.length⟩
  | .after cursor =>
      let fetched := (orderBy id (rows.filter fun row => cursor < id row)).take (limit + 1)
      ⟨(fetched.take limit).reverse, limit < fetched.length, true⟩

/-! ### Sessions (`src/auth.rs`) -/

def sessionIdleTtl : Int := 72 * 3600 * nanosPerSec
def sessionAbsoluteMax : Int := 30 * 86400 * nanosPerSec

def isPastAbsoluteCap (createdAt : Option Instant) (now : Instant) : Bool :=
  createdAt.any fun c => c + sessionAbsoluteMax ≤ now

inductive RenewalKind where
  | slid
  | clamped
  deriving DecidableEq, Repr

structure SessionRenewal where
  expiresAt : Instant
  kind : RenewalKind
  deriving DecidableEq, Repr

/-- The new `expires_at`, or `none` when no write is needed. -/
def refreshedExpiry (createdAt : Option Instant) (expiresAt now : Instant) : Option SessionRenewal :=
  let cap := createdAt.map (· + sessionAbsoluteMax)
  if cap.any (· ≤ expiresAt) then none
  else
    let next := match cap with
      | none => now + sessionIdleTtl
      | some cap => min (now + sessionIdleTtl) cap
    if next < expiresAt then some ⟨next, .clamped⟩
    else if sessionIdleTtl / 2 ≤ expiresAt - now then none
    else some ⟨next, .slid⟩

/-- Whether a `last_seen_at` or `last_used_at` is due for its once-a-minute refresh. -/
def isStale (last : Option Instant) (now : Instant) : Bool :=
  last.all fun t => 60 * nanosPerSec ≤ now - t

/-- What accepting the session writes back to its row. -/
def Session.touched (session : Session) (now : Instant) : Session :=
  match isStale session.lastSeenAt now, refreshedExpiry session.createdAt session.expiresAt now with
  | _, some renewal => { session with lastSeenAt := some now, expiresAt := renewal.expiresAt }
  | true, none => { session with lastSeenAt := some now }
  | false, none => session

theorem Session.touched_id (session : Session) (now : Instant) : (session.touched now).id = session.id := by
  unfold Session.touched
  split <;> rfl

theorem Session.touched_userId (session : Session) (now : Instant) :
    (session.touched now).userId = session.userId := by
  unfold Session.touched
  split <;> rfl

/-- An administrator who can sign in. -/
def User.isEnabledAdmin (user : User) : Bool := user.isAdmin && !user.disabled

namespace Db

/-! ### Checks -/

def findCheckByUuid (db : Db) (uuid : String) : Option Check :=
  db.checks.rows.find? fun row => row.pingUuid = uuid

def findCheck (db : Db) (id : Int) : Option Check := db.checks.find id

/-- The checks that match a condition, in the order in which the engine lists them. -/
def selectChecks (db : Db) (p : Check → Bool) : List Check := db.rowOrder.arrange (db.checks.rows.filter p)

theorem mem_selectChecks {db : Db} {p : Check → Bool} {check : Check} :
    check ∈ db.selectChecks p ↔ check ∈ db.checks.rows ∧ p check = true :=
  (db.rowOrder.perm _).mem_iff.trans List.mem_filter

def listActiveChecks (db : Db) : List Check :=
  db.selectChecks fun row => row.status = .new ∨ row.status = .up

def listDownChecks (db : Db) : List Check :=
  db.selectChecks fun row => row.status = .down

def listChecksForProject (db : Db) (projectId : Int) : List Check :=
  orderBy Check.id (db.checks.rows.filter fun row => row.projectId = projectId)

/-- `UPDATE checks SET .. WHERE id = ..`. -/
def updateCheck (db : Db) (id : Int) (f : Check → Check) (hid : ∀ row, (f row).id = row.id) : Db :=
  { db with checks := db.checks.update id f hid }

end Db

/-- The columns `mark_ping` writes. -/
def PingMark.apply (mark : PingMark) (check : Check) : Check :=
  { check with
    status := mark.status
    lastPingAt := mark.lastPingAt.or check.lastPingAt
    lastStartAt := mark.lastStartAt.or check.lastStartAt
    nextDueAt := mark.nextDueAt.bind storedInstant }

/-- The columns `update_check_schedule` writes. -/
def UpdateCheck.apply (edit : UpdateCheck) (check : Check) : Check :=
  { check with
    name := edit.name
    description := edit.description
    scheduleKind := edit.kind
    periodSecs := edit.periodSecs
    graceSecs := edit.graceSecs
    cronExpr := edit.cronExpr
    timezone := edit.timezone
    scanIntervalSecs := edit.scanIntervalSecs
    maxRuntimeSecs := edit.maxRuntimeSecs
    nagIntervalSecs := edit.nagIntervalSecs }

/-- The row `create_check` inserts. -/
def NewCheck.row (check : NewCheck) (now : Instant) (id : Int) : Check where
  id := id
  projectId := check.projectId
  name := check.name
  description := check.description
  pingUuid := check.pingUuid
  scheduleKind := check.kind
  periodSecs := check.periodSecs
  graceSecs := check.graceSecs
  cronExpr := check.cronExpr
  timezone := check.timezone
  status := .new
  lastPingAt := none
  lastStartAt := none
  nextDueAt := none
  scanIntervalSecs := check.scanIntervalSecs
  maxRuntimeSecs := check.maxRuntimeSecs
  nagIntervalSecs := check.nagIntervalSecs
  lastAlertAt := none
  acknowledged := false
  createdAt := now

namespace Db

def markPing (db : Db) (id : Int) (mark : PingMark) : Db := db.updateCheck id mark.apply fun _ => rfl

def setStatus (db : Db) (id : Int) (status : CheckStatus) : Db :=
  db.updateCheck id (fun row => { row with status := status }) fun _ => rfl

/-- Start a down incident: stamp the alert baseline and clear any prior acknowledgement. -/
def beginDownAlert (db : Db) (id : Int) (at_ : Instant) : Db :=
  db.updateCheck id (fun row => { row with lastAlertAt := some at_, acknowledged := false }) fun _ => rfl

def recordReminder (db : Db) (id : Int) (at_ : Instant) : Db :=
  db.updateCheck id (fun row => { row with lastAlertAt := some at_ }) fun _ => rfl

def clearNag (db : Db) (id : Int) : Db :=
  db.updateCheck id (fun row => { row with acknowledged := false, lastAlertAt := none }) fun _ => rfl

def acknowledge (db : Db) (id : Int) : Db :=
  db.updateCheck id (fun row => { row with acknowledged := true }) fun _ => rfl

def updateCheckSchedule (db : Db) (id : Int) (edit : UpdateCheck) : Db :=
  db.updateCheck id edit.apply fun _ => rfl

def createCheck (db : Db) (check : NewCheck) (now : Instant) : Except StoreError (Int × Db) :=
  if (db.projects.find check.projectId).isNone then .error .foreignKeyViolation
  else if (db.findCheckByUuid check.pingUuid).isSome then .error .uniqueViolation
  else .ok (db.checks.next, { db with checks := db.checks.insert (check.row now) fun _ => rfl })

def regenerateUuid (db : Db) (id : Int) (uuid : String) : Except StoreError (Unit × Db) :=
  if db.checks.rows.any fun row => row.pingUuid = uuid ∧ row.id ≠ id then .error .uniqueViolation
  else .ok ((), db.updateCheck id (fun row => { row with pingUuid := uuid }) fun _ => rfl)

/-- Delete checks, with their bindings, pings and notifications. -/
def deleteChecksWhere (db : Db) (p : Check → Bool) : Db :=
  let gone : Int → Bool := fun id => db.checks.rows.any fun row => p row ∧ row.id = id
  { db with
    checks := db.checks.deleteWhere p
    checkChannels := db.checkChannels.deleteWhere fun row => gone row.checkId
    pings := db.pings.deleteWhere fun row => gone row.checkId
    notifications := db.notifications.deleteWhere fun row => gone row.checkId }

def deleteCheck (db : Db) (id : Int) : Db := db.deleteChecksWhere fun row => row.id = id

/-! ### Channels and bindings -/

def findChannel (db : Db) (id : Int) : Option Channel := db.channels.find id

def listChannelsForProject (db : Db) (projectId : Int) : List Channel :=
  orderBy Channel.id (db.channels.rows.filter fun row => row.projectId = projectId)

def createChannel (db : Db) (channel : NewChannel) (now : Instant) : Except StoreError (Int × Db) :=
  if (db.projects.find channel.projectId).isNone then .error .foreignKeyViolation
  else .ok (db.channels.next,
    { db with
      channels := db.channels.insert
        (fun id => ⟨id, channel.projectId, channel.kind, channel.name, channel.configJson, now⟩)
        fun _ => rfl })

def updateChannel (db : Db) (id : Int) (name configJson : String) : Db :=
  { db with
    channels := db.channels.update id (fun row => { row with name := name, configJson := configJson })
      fun _ => rfl }

/-- Delete channels, with their bindings and notifications. -/
def deleteChannelsWhere (db : Db) (p : Channel → Bool) : Db :=
  let gone : Int → Bool := fun id => db.channels.rows.any fun row => p row ∧ row.id = id
  { db with
    channels := db.channels.deleteWhere p
    checkChannels := db.checkChannels.deleteWhere fun row => gone row.channelId
    notifications := db.notifications.deleteWhere fun row => gone row.channelId }

def deleteChannel (db : Db) (id : Int) : Db := db.deleteChannelsWhere fun row => row.id = id

/-- `INSERT .. ON CONFLICT DO NOTHING`. -/
def bindChannel (db : Db) (checkId channelId : Int) : Except StoreError (Unit × Db) :=
  if (db.checks.find checkId).isNone ∨ (db.channels.find channelId).isNone then
    .error .foreignKeyViolation
  else
    match db.checkChannels.insert ⟨checkId, channelId⟩ with
    | none => .ok ((), db)
    | some table => .ok ((), { db with checkChannels := table })

/-- Bind every channel of the project that is not bound yet. -/
def bindAll (db : Db) (checkId : Int) : List Int → Db
  | [] => db
  | channelId :: rest =>
      match db.checkChannels.insert ⟨checkId, channelId⟩ with
      | none => bindAll db checkId rest
      | some table => bindAll { db with checkChannels := table } checkId rest

def bindAllProjectChannels (db : Db) (checkId projectId : Int) : Except StoreError (Unit × Db) :=
  let channelIds := (db.channels.rows.filter fun row => row.projectId = projectId).map Channel.id
  if channelIds ≠ [] ∧ (db.checks.find checkId).isNone then .error .foreignKeyViolation
  else .ok ((), db.bindAll checkId channelIds)

def unbindChannel (db : Db) (checkId channelId : Int) : Db :=
  { db with
    checkChannels := db.checkChannels.deleteWhere fun row =>
      row.checkId = checkId ∧ row.channelId = channelId }

def boundChannelIds (db : Db) (checkId : Int) : List Int :=
  orderBy id ((db.checkChannels.rows.filter fun row => row.checkId = checkId).map Binding.channelId)

def checksWithChannels (db : Db) (checkIds : List Int) : List Int :=
  ((db.checkChannels.rows.map Binding.checkId).filter fun id => checkIds.contains id).dedup

def channelsForCheck (db : Db) (checkId : Int) : List Channel :=
  orderBy Channel.id (db.channels.rows.filter fun row => db.checkChannels.rows.contains ⟨checkId, row.id⟩)

/-! ### Projects -/

def findProject (db : Db) (id : Int) : Option Project := db.projects.find id

def listProjectsForUser (db : Db) (userId : Int) : List Project :=
  orderBy Project.id (db.projects.rows.filter fun row => row.userId = userId)

def createProject (db : Db) (userId : Int) (project : ProjectSettings) (now : Instant) :
    Except StoreError (Int × Db) :=
  if (db.users.find userId).isNone then .error .foreignKeyViolation
  else .ok (db.projects.next,
    { db with
      projects := db.projects.insert
        (fun id => ⟨id, userId, project.name, project.description, project.scanIntervalSecs,
          project.nagIntervalSecs, now⟩)
        fun _ => rfl })

def updateProject (db : Db) (id : Int) (project : ProjectSettings) : Db :=
  { db with
    projects := db.projects.update id
      (fun row => { row with
        name := project.name
        description := project.description
        scanIntervalSecs := project.scanIntervalSecs
        nagIntervalSecs := project.nagIntervalSecs })
      fun _ => rfl }

/-- Delete projects, with their checks and channels. -/
def deleteProjectsWhere (db : Db) (p : Project → Bool) : Db :=
  let gone : Int → Bool := fun id => db.projects.rows.any fun row => p row ∧ row.id = id
  let cascaded :=
    (db.deleteChecksWhere fun row => gone row.projectId).deleteChannelsWhere fun row => gone row.projectId
  { cascaded with projects := db.projects.deleteWhere p }

def deleteProject (db : Db) (id : Int) : Db := db.deleteProjectsWhere fun row => row.id = id

/-! ### Users, sessions and API keys -/

def findUserByUsername (db : Db) (username : String) : Option User :=
  db.users.rows.find? fun row => row.username = username

def findUserById (db : Db) (id : Int) : Option User := db.users.find id

def createUser (db : Db) (username : String) (passwordHash : Option String) (isAdmin : Bool)
    (now : Instant) : Except StoreError (Int × Db) :=
  if (db.findUserByUsername username).isSome then .error .uniqueViolation
  else .ok (db.users.next,
    { db with
      users := db.users.insert (fun id => ⟨id, username, passwordHash, isAdmin, false, now⟩)
        fun _ => rfl })

def updateUser (db : Db) (id : Int) (f : User → User) (hid : ∀ row, (f row).id = row.id) : Db :=
  { db with users := db.users.update id f hid }

def setUserDisabled (db : Db) (id : Int) (disabled : Bool) : Db :=
  db.updateUser id (fun row => { row with disabled := disabled }) fun _ => rfl

def setUserPassword (db : Db) (id : Int) (passwordHash : String) : Db :=
  db.updateUser id (fun row => { row with passwordHash := some passwordHash }) fun _ => rfl

def setUserAdmin (db : Db) (id : Int) (isAdmin : Bool) : Db :=
  db.updateUser id (fun row => { row with isAdmin := isAdmin }) fun _ => rfl

/-- Delete a user, with its projects, sessions and API keys. -/
def deleteUser (db : Db) (id : Int) : Db :=
  let cascaded := db.deleteProjectsWhere fun row => row.userId = id
  { cascaded with
    users := db.users.deleteWhere fun row => row.id = id
    sessions := db.sessions.deleteWhere fun row => row.userId = id
    apiKeys := db.apiKeys.deleteWhere fun row => row.userId = id }

def countEnabledAdmins (db : Db) : Int := ((db.users.rows.filter User.isEnabledAdmin).length : Int)

def insertApiKey (db : Db) (key : NewApiKey) (now : Instant) : Except StoreError (Int × Db) :=
  if (db.users.find key.userId).isNone then .error .foreignKeyViolation
  else if db.apiKeys.rows.any fun row => row.tokenHash = key.tokenHash then .error .uniqueViolation
  else .ok (db.apiKeys.next,
    { db with
      apiKeys := db.apiKeys.insert
        (fun id => ⟨id, key.userId, key.name, key.tokenHash, key.keyPrefix, now, none,
          key.expiresAt.bind storedInstant⟩)
        fun _ => rfl })

def listApiKeysForUser (db : Db) (userId : Int) : List ApiKey :=
  orderByDesc ApiKey.id (db.apiKeys.rows.filter fun row => row.userId = userId)

/-- Owner-scoped. -/
def deleteApiKey (db : Db) (id userId : Int) : Bool × Db :=
  (db.apiKeys.rows.any fun row => row.id = id ∧ row.userId = userId,
    { db with apiKeys := db.apiKeys.deleteWhere fun row => row.id = id ∧ row.userId = userId })

/-- The owning user id of an unexpired key, its `last_used_at` refreshed. -/
def validateApiKey (db : Db) (tokenHash : String) (now : Instant) : Option Int × Db :=
  match db.apiKeys.rows.find? fun row => row.tokenHash = tokenHash with
  | none => (none, db)
  | some key =>
      if key.expiresAt.any (· ≤ now) then (none, db)
      else if isStale key.lastUsedAt now then
        (some key.userId,
          { db with
            apiKeys := db.apiKeys.update key.id (fun row => { row with lastUsedAt := some now })
              fun _ => rfl })
      else (some key.userId, db)

def createSession (db : Db) (session : NewSession) (now : Instant) : Except StoreError (Unit × Db) :=
  if (db.users.find session.userId).isNone then .error .foreignKeyViolation
  else
    match db.sessions.insert
        ⟨session.id, session.userId, some now, none, session.expiresAt, session.userAgent, session.ip,
          session.sso⟩ with
    | none => .error .uniqueViolation
    | some table => .ok ((), { db with sessions := table })

/-- The session's user, if the session is inside its idle window and its absolute cap; its row is
touched. The statement compares the texts of the two times, which come in the order of the times as long
as every one of them is of a year 0 to 9999: `SessionDb.findSessionUser` has the texts, and
`findSessionUser_refines` ties the two. -/
def findSessionUser (db : Db) (sessionId : String) (now : Instant) : Option User × Db :=
  match db.sessions.find sessionId with
  | none => (none, db)
  | some session =>
      match db.users.find session.userId with
      | none => (none, db)
      | some user =>
          if session.expiresAt ≤ now then (none, db)
          else if isPastAbsoluteCap session.createdAt now then (none, db)
          else (some user,
            { db with
              sessions := db.sessions.update sessionId (·.touched now) fun row => row.touched_id now })

/-- The number of sessions deleted, and the rest. -/
def deleteSessionsWhere (db : Db) (p : Session → Bool) : Nat × Db :=
  (db.sessions.rows.countP p, { db with sessions := db.sessions.deleteWhere p })

/-- Unexpired sessions, newest-created first. -/
def listSessionsForUser (db : Db) (userId : Int) (now : Instant) : List Session :=
  ((db.sessions.rows.filter fun row =>
      row.userId = userId ∧ now < row.expiresAt ∧ ¬isPastAbsoluteCap row.createdAt now).mergeSort
    fun a b => a.createdAt = b.createdAt ∧ a.id ≤ b.id ∨ a.createdAt ≠ b.createdAt ∧
      (b.createdAt.all fun tb => a.createdAt.any fun ta => tb < ta))

def deleteCappedSessionsForUser (db : Db) (userId : Int) (now : Instant) : Nat × Db :=
  db.deleteSessionsWhere fun row => row.userId = userId ∧ row.createdAt.any (· ≤ now - sessionAbsoluteMax)

/-! ### Pings, notifications, settings, audit -/

def insertPing (db : Db) (ping : NewPing) (now : Instant) : Except StoreError (Unit × Db) :=
  if (db.checks.find ping.checkId).isNone then .error .foreignKeyViolation
  else .ok ((),
    { db with
      pings := db.pings.insert
        (fun id => ⟨id, ping.checkId, ping.kind, ping.exitCode, ping.body, ping.sourceIp, now⟩)
        fun _ => rfl })

def listRecentPings (db : Db) (checkId : Int) (limit : Nat) : List Ping :=
  (orderByDesc Ping.id (db.pings.rows.filter fun row => row.checkId = checkId)).take limit

def listRecentPingSummaries (db : Db) (checkId : Int) (limit : Nat) : List PingSummary :=
  (db.listRecentPings checkId limit).map fun row => ⟨row.id, row.checkId, row.kind, row.createdAt⟩

def listPingsPage (db : Db) (checkId : Int) (cursor : PageCursor) (limit : Nat) (filter : PingFilter) :
    Page Ping :=
  keysetPage Ping.id (db.pings.rows.filter fun row => row.checkId = checkId ∧ filter.holds row) cursor limit

def listNotificationsPage (db : Db) (checkId : Int) (cursor : PageCursor) (limit : Nat)
    (filter : NotifFilter) : Page Notification :=
  keysetPage Notification.id
    (db.notifications.rows.filter fun row => row.checkId = checkId ∧ filter.holds row) cursor limit

def listRecentNotifications (db : Db) (checkId : Int) (limit : Nat) : List Notification :=
  (orderByDesc Notification.id (db.notifications.rows.filter fun row => row.checkId = checkId)).take limit

def recordNotification (db : Db) (row : NewNotification) (now : Instant) : Except StoreError (Unit × Db) :=
  if (db.checks.find row.checkId).isNone ∨ (db.channels.find row.channelId).isNone then
    .error .foreignKeyViolation
  else .ok ((),
    { db with
      notifications := db.notifications.insert
        (fun id => ⟨id, row.checkId, row.channelId, row.event, row.status, row.error, now⟩) fun _ => rfl })

def getSetting (db : Db) (key : String) : Option String := (db.settings.find key).map Setting.value

/-- Upsert. -/
def setSetting (db : Db) (key value : String) : Db :=
  { db with
    settings :=
      match db.settings.insert ⟨key, value⟩ with
      | some table => table
      | none => db.settings.update key (fun row => { row with value := value }) fun _ => rfl }

def recordAudit (db : Db) (entry : NewAudit) (now : Instant) : Int × Db :=
  (db.auditLog.next,
    { db with
      auditLog := db.auditLog.insert
        (fun id => ⟨id, entry.actorUserId, entry.actorUsername, entry.action, entry.targetType,
          entry.targetId, entry.targetOwnerId, entry.method, entry.path, entry.detail, now⟩)
        fun _ => rfl })

end Db

end Pingward
