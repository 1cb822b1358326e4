import Pingward.ModelStore

/-! The methods of `Store` as calls a program can make, with the type each is answered in and its
effect on the database. -/

open KeyedTable StoreProgram

namespace Pingward

inductive StoreCall where
  -- checks
  | findCheckByUuid (uuid : String)
  | listActiveChecks
  | listDownChecks
  | insertPing (ping : NewPing) (now : Instant)
  | markPing (checkId : Int) (mark : PingMark)
  | setStatus (checkId : Int) (status : CheckStatus)
  | beginDownAlert (checkId : Int) (at_ : Instant)
  | recordReminder (checkId : Int) (at_ : Instant)
  | clearNag (checkId : Int)
  | acknowledge (checkId : Int)
  | createCheck (check : NewCheck) (now : Instant)
  | findCheck (id : Int)
  | listChecksForProject (projectId : Int)
  | listChecksForProjects (projectIds : List Int)
  | updateCheckSchedule (id : Int) (edit : UpdateCheck)
  | regenerateUuid (id : Int) (uuid : String)
  | deleteCheck (id : Int)
  -- users
  | countUsers
  | createUser (username : String) (passwordHash : Option String) (isAdmin : Bool) (now : Instant)
  | findUserByUsername (username : String)
  | findUserById (id : Int)
  | listUsers
  | deleteUser (id : Int)
  | setUserDisabled (id : Int) (disabled : Bool)
  | setUserPassword (id : Int) (passwordHash : String)
  | setUserAdmin (id : Int) (isAdmin : Bool)
  | countEnabledAdmins
  -- API keys
  | insertApiKey (key : NewApiKey) (now : Instant)
  | listApiKeysForUser (userId : Int)
  | deleteApiKey (id userId : Int)
  | validateApiKey (tokenHash : String) (now : Instant)
  -- sessions
  | createSession (session : NewSession) (now : Instant)
  | findSessionUser (sessionId : String) (now : Instant)
  | deleteSession (id : String)
  | listSessionsForUser (userId : Int) (now : Instant)
  | deleteCappedSessionsForUser (userId : Int) (now : Instant)
  | deleteSessionOwned (id : String) (userId : Int)
  | deleteOtherSessionsForUser (userId : Int) (keepId : String)
  | deleteSessionsForUser (userId : Int)
  -- projects
  | createProject (userId : Int) (project : ProjectSettings) (now : Instant)
  | findProject (id : Int)
  | listProjectsForUser (userId : Int)
  | updateProject (id : Int) (project : ProjectSettings)
  | deleteProject (id : Int)
  | allProjectNagIntervals
  | allProjectNames
  -- channels and bindings
  | createChannel (channel : NewChannel) (now : Instant)
  | findChannel (id : Int)
  | listChannelsForProject (projectId : Int)
  | updateChannel (id : Int) (name configJson : String)
  | deleteChannel (id : Int)
  | bindChannel (checkId channelId : Int)
  | bindAllProjectChannels (checkId projectId : Int)
  | checksWithChannels (checkIds : List Int)
  | unbindChannel (checkId channelId : Int)
  | boundChannelIds (checkId : Int)
  | channelsForCheck (checkId : Int)
  -- pings, notifications, settings, audit
  | listRecentPings (checkId : Int) (limit : Nat)
  | listRecentPingSummaries (checkId : Int) (limit : Nat)
  | listRecentPingSummariesForChecks (checkIds : List Int) (limit : Nat)
  | listPingsPage (checkId : Int) (cursor : PageCursor) (limit : Nat) (filter : PingFilter)
  | listNotificationsPage (checkId : Int) (cursor : PageCursor) (limit : Nat) (filter : NotifFilter)
  | listRecentNotifications (checkId : Int) (limit : Nat)
  | recordNotification (row : NewNotification) (now : Instant)
  | getSetting (key : String)
  | setSetting (key value : String)
  | recordAudit (entry : NewAudit) (now : Instant)
  deriving DecidableEq

namespace StoreCall

/-- What a method returns when it does not fail. -/
@[reducible] def Res : StoreCall → Type
  | .findCheckByUuid _ => Option Check
  | .listActiveChecks => List Check
  | .listDownChecks => List Check
  | .insertPing _ _ => Unit
  | .markPing _ _ => Unit
  | .setStatus _ _ => Unit
  | .beginDownAlert _ _ => Unit
  | .recordReminder _ _ => Unit
  | .clearNag _ => Unit
  | .acknowledge _ => Unit
  | .createCheck _ _ => Int
  | .findCheck _ => Option Check
  | .listChecksForProject _ => List Check
  | .listChecksForProjects _ => List (Int × List Check)
  | .updateCheckSchedule _ _ => Unit
  | .regenerateUuid _ _ => Unit
  | .deleteCheck _ => Unit
  | .countUsers => Int
  | .createUser _ _ _ _ => Int
  | .findUserByUsername _ => Option User
  | .findUserById _ => Option User
  | .listUsers => List User
  | .deleteUser _ => Unit
  | .setUserDisabled _ _ => Unit
  | .setUserPassword _ _ => Unit
  | .setUserAdmin _ _ => Unit
  | .countEnabledAdmins => Int
  | .insertApiKey _ _ => Int
  | .listApiKeysForUser _ => List ApiKey
  | .deleteApiKey _ _ => Bool
  | .validateApiKey _ _ => Option Int
  | .createSession _ _ => Unit
  | .findSessionUser _ _ => Option User
  | .deleteSession _ => Unit
  | .listSessionsForUser _ _ => List Session
  | .deleteCappedSessionsForUser _ _ => Nat
  | .deleteSessionOwned _ _ => Bool
  | .deleteOtherSessionsForUser _ _ => Nat
  | .deleteSessionsForUser _ => Nat
  | .createProject _ _ _ => Int
  | .findProject _ => Option Project
  | .listProjectsForUser _ => List Project
  | .updateProject _ _ => Unit
  | .deleteProject _ => Unit
  | .allProjectNagIntervals => List (Int × Option Int)
  | .allProjectNames => List (Int × String)
  | .createChannel _ _ => Int
  | .findChannel _ => Option Channel
  | .listChannelsForProject _ => List Channel
  | .updateChannel _ _ _ => Unit
  | .deleteChannel _ => Unit
  | .bindChannel _ _ => Unit
  | .bindAllProjectChannels _ _ => Unit
  | .checksWithChannels _ => List Int
  | .unbindChannel _ _ => Unit
  | .boundChannelIds _ => List Int
  | .channelsForCheck _ => List Channel
  | .listRecentPings _ _ => List Ping
  | .listRecentPingSummaries _ _ => List PingSummary
  | .listRecentPingSummariesForChecks _ _ => List (Int × List PingSummary)
  | .listPingsPage _ _ _ _ => Page Ping
  | .listNotificationsPage _ _ _ _ => Page Notification
  | .listRecentNotifications _ _ => List Notification
  | .recordNotification _ _ => Unit
  | .getSetting _ => Option String
  | .setSetting _ _ => Unit
  | .recordAudit _ _ => Int

end StoreCall

/-- A write that may be refused: a refused one leaves the database as it was. -/
def commit {α : Type} (db : Db) : Except StoreError (α × Db) → Except StoreError α × Db
  | .ok (answer, db') => (.ok answer, db')
  | .error error => (.error error, db)

/-- The store: the answer to a call and the database after it. -/
def exec : (c : StoreCall) → Db → Except StoreError c.Res × Db
  | .findCheckByUuid uuid, db => (.ok (db.findCheckByUuid uuid), db)
  | .listActiveChecks, db => (.ok db.listActiveChecks, db)
  | .listDownChecks, db => (.ok db.listDownChecks, db)
  | .insertPing ping now, db => commit db (db.insertPing ping now)
  | .markPing checkId mark, db => (.ok (), db.markPing checkId mark)
  | .setStatus checkId status, db => (.ok (), db.setStatus checkId status)
  | .beginDownAlert checkId at_, db => (.ok (), db.beginDownAlert checkId at_)
  | .recordReminder checkId at_, db => (.ok (), db.recordReminder checkId at_)
  | .clearNag checkId, db => (.ok (), db.clearNag checkId)
  | .acknowledge checkId, db => (.ok (), db.acknowledge checkId)
  | .createCheck check now, db => commit db (db.createCheck check now)
  | .findCheck id, db => (.ok (db.findCheck id), db)
  | .listChecksForProject projectId, db => (.ok (db.listChecksForProject projectId), db)
  | .listChecksForProjects projectIds, db =>
      (.ok (groupRows projectIds db.listChecksForProject), db)
  | .updateCheckSchedule id edit, db => (.ok (), db.updateCheckSchedule id edit)
  | .regenerateUuid id uuid, db => commit db (db.regenerateUuid id uuid)
  | .deleteCheck id, db => (.ok (), db.deleteCheck id)
  | .countUsers, db => (.ok (db.users.rows.length : Int), db)
  | .createUser username passwordHash isAdmin now, db =>
      commit db (db.createUser username passwordHash isAdmin now)
  | .findUserByUsername username, db => (.ok (db.findUserByUsername username), db)
  | .findUserById id, db => (.ok (db.findUserById id), db)
  | .listUsers, db => (.ok (orderBy User.id db.users.rows), db)
  | .deleteUser id, db => (.ok (), db.deleteUser id)
  | .setUserDisabled id disabled, db => (.ok (), db.setUserDisabled id disabled)
  | .setUserPassword id passwordHash, db => (.ok (), db.setUserPassword id passwordHash)
  | .setUserAdmin id isAdmin, db => (.ok (), db.setUserAdmin id isAdmin)
  | .countEnabledAdmins, db => (.ok db.countEnabledAdmins, db)
  | .insertApiKey key now, db => commit db (db.insertApiKey key now)
  | .listApiKeysForUser userId, db => (.ok (db.listApiKeysForUser userId), db)
  | .deleteApiKey id userId, db => (.ok (db.deleteApiKey id userId).1, (db.deleteApiKey id userId).2)
  | .validateApiKey tokenHash now, db =>
      (.ok (db.validateApiKey tokenHash now).1, (db.validateApiKey tokenHash now).2)
  | .createSession session now, db => commit db (db.createSession session now)
  | .findSessionUser sessionId now, db =>
      (.ok (db.findSessionUser sessionId now).1, (db.findSessionUser sessionId now).2)
  | .deleteSession id, db => (.ok (), (db.deleteSessionsWhere fun row => row.id = id).2)
  | .listSessionsForUser userId now, db => (.ok (db.listSessionsForUser userId now), db)
  | .deleteCappedSessionsForUser userId now, db =>
      (.ok (db.deleteCappedSessionsForUser userId now).1, (db.deleteCappedSessionsForUser userId now).2)
  | .deleteSessionOwned id userId, db =>
      (.ok (0 < (db.deleteSessionsWhere fun row => row.id = id ∧ row.userId = userId).1),
        (db.deleteSessionsWhere fun row => row.id = id ∧ row.userId = userId).2)
  | .deleteOtherSessionsForUser userId keepId, db =>
      (.ok (db.deleteSessionsWhere fun row => row.userId = userId ∧ row.id ≠ keepId).1,
        (db.deleteSessionsWhere fun row => row.userId = userId ∧ row.id ≠ keepId).2)
  | .deleteSessionsForUser userId, db =>
      (.ok (db.deleteSessionsWhere fun row => row.userId = userId).1,
        (db.deleteSessionsWhere fun row => row.userId = userId).2)
  | .createProject userId project now, db => commit db (db.createProject userId project now)
  | .findProject id, db => (.ok (db.findProject id), db)
  | .listProjectsForUser userId, db => (.ok (db.listProjectsForUser userId), db)
  | .updateProject id project, db => (.ok (), db.updateProject id project)
  | .deleteProject id, db => (.ok (), db.deleteProject id)
  | .allProjectNagIntervals, db => (.ok (db.projects.rows.map fun row => (row.id, row.nagIntervalSecs)), db)
  | .allProjectNames, db => (.ok (db.projects.rows.map fun row => (row.id, row.name)), db)
  | .createChannel channel now, db => commit db (db.createChannel channel now)
  | .findChannel id, db => (.ok (db.findChannel id), db)
  | .listChannelsForProject projectId, db => (.ok (db.listChannelsForProject projectId), db)
  | .updateChannel id name configJson, db => (.ok (), db.updateChannel id name configJson)
  | .deleteChannel id, db => (.ok (), db.deleteChannel id)
  | .bindChannel checkId channelId, db => commit db (db.bindChannel checkId channelId)
  | .bindAllProjectChannels checkId projectId, db => commit db (db.bindAllProjectChannels checkId projectId)
  | .checksWithChannels checkIds, db => (.ok (db.checksWithChannels checkIds), db)
  | .unbindChannel checkId channelId, db => (.ok (), db.unbindChannel checkId channelId)
  | .boundChannelIds checkId, db => (.ok (db.boundChannelIds checkId), db)
  | .channelsForCheck checkId, db => (.ok (db.channelsForCheck checkId), db)
  | .listRecentPings checkId limit, db => (.ok (db.listRecentPings checkId limit), db)
  | .listRecentPingSummaries checkId limit, db => (.ok (db.listRecentPingSummaries checkId limit), db)
  | .listRecentPingSummariesForChecks checkIds limit, db =>
      (.ok (groupRows checkIds fun id => db.listRecentPingSummaries id limit), db)
  | .listPingsPage checkId cursor limit filter, db => (.ok (db.listPingsPage checkId cursor limit filter), db)
  | .listNotificationsPage checkId cursor limit filter, db =>
      (.ok (db.listNotificationsPage checkId cursor limit filter), db)
  | .listRecentNotifications checkId limit, db => (.ok (db.listRecentNotifications checkId limit), db)
  | .recordNotification row now, db => commit db (db.recordNotification row now)
  | .getSetting key, db => (.ok (db.getSetting key), db)
  | .setSetting key value, db => (.ok (), db.setSetting key value)
  | .recordAudit entry now, db => (.ok (db.recordAudit entry now).1, (db.recordAudit entry now).2)

end Pingward
