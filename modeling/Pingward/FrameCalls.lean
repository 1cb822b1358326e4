import Pingward.ModelCall

/-! What a store call leaves alone. Each call names the tables it can change; the others are the same
before and after. -/

open KeyedTable

namespace Pingward

inductive TableName where
  | users
  | projects
  | checks
  | channels
  | checkChannels
  | pings
  | notifications
  | sessions
  | settings
  | auditLog
  | apiKeys
  deriving DecidableEq, Repr

/-- The tables a call can change, with those a delete cascades to. -/
def StoreCall.writes : StoreCall → List TableName
  | .insertPing _ _ => [.pings]
  | .markPing _ _ | .setStatus _ _ | .beginDownAlert _ _ | .recordReminder _ _ | .clearNag _
  | .acknowledge _ | .createCheck _ _ | .updateCheckSchedule _ _ | .regenerateUuid _ _ => [.checks]
  | .deleteCheck _ => [.checks, .checkChannels, .pings, .notifications]
  | .createUser _ _ _ _ | .setUserDisabled _ _ | .setUserPassword _ _ | .setUserAdmin _ _ => [.users]
  | .deleteUser _ =>
      [.users, .sessions, .apiKeys, .projects, .checks, .channels, .checkChannels, .pings, .notifications]
  | .insertApiKey _ _ | .deleteApiKey _ _ | .validateApiKey _ _ => [.apiKeys]
  | .createSession _ _ | .findSessionUser _ _ | .deleteSession _ | .deleteCappedSessionsForUser _ _
  | .deleteSessionOwned _ _ | .deleteOtherSessionsForUser _ _ | .deleteSessionsForUser _ => [.sessions]
  | .createProject _ _ _ | .updateProject _ _ => [.projects]
  | .deleteProject _ => [.projects, .checks, .channels, .checkChannels, .pings, .notifications]
  | .createChannel _ _ | .updateChannel _ _ _ => [.channels]
  | .deleteChannel _ => [.channels, .checkChannels, .notifications]
  | .bindChannel _ _ | .bindAllProjectChannels _ _ | .unbindChannel _ _ => [.checkChannels]
  | .recordNotification _ _ => [.notifications]
  | .setSetting _ _ => [.settings]
  | .recordAudit _ _ => [.auditLog]
  | _ => []

/-- The two databases have the same table. -/
def Db.Agree (a b : Db) : TableName → Prop
  | .users => b.users = a.users
  | .projects => b.projects = a.projects
  | .checks => b.checks = a.checks
  | .channels => b.channels = a.channels
  | .checkChannels => b.checkChannels = a.checkChannels
  | .pings => b.pings = a.pings
  | .notifications => b.notifications = a.notifications
  | .sessions => b.sessions = a.sessions
  | .settings => b.settings = a.settings
  | .auditLog => b.auditLog = a.auditLog
  | .apiKeys => b.apiKeys = a.apiKeys

theorem Db.Agree.refl (db : Db) (t : TableName) : db.Agree db t := by
  cases t <;> rfl

/-! ### Writes that may be refused -/

section Refused

variable (db : Db) {t : TableName}

theorem insertPing_frame (ping : NewPing) (now : Instant) (ht : t ≠ .pings) :
    db.Agree (commit db (db.insertPing ping now)).2 t := by
  unfold Db.insertPing
  split
  · exact .refl db t
  · cases t <;> first | rfl | exact absurd rfl ht

theorem createCheck_frame (check : NewCheck) (now : Instant) (ht : t ≠ .checks) :
    db.Agree (commit db (db.createCheck check now)).2 t := by
  unfold Db.createCheck
  split
  · exact .refl db t
  · split
    · exact .refl db t
    · cases t <;> first | rfl | exact absurd rfl ht

theorem regenerateUuid_frame (id : Int) (uuid : String) (ht : t ≠ .checks) :
    db.Agree (commit db (db.regenerateUuid id uuid)).2 t := by
  unfold Db.regenerateUuid
  split
  · exact .refl db t
  · cases t <;> first | rfl | exact absurd rfl ht

theorem createUser_frame (username : String) (hash : Option String) (isAdmin : Bool)
    (now : Instant) (ht : t ≠ .users) :
    db.Agree (commit db (db.createUser username hash isAdmin now)).2 t := by
  unfold Db.createUser
  split
  · exact .refl db t
  · cases t <;> first | rfl | exact absurd rfl ht

theorem insertApiKey_frame (key : NewApiKey) (now : Instant) (ht : t ≠ .apiKeys) :
    db.Agree (commit db (db.insertApiKey key now)).2 t := by
  unfold Db.insertApiKey
  split
  · exact .refl db t
  · split
    · exact .refl db t
    · cases t <;> first | rfl | exact absurd rfl ht

theorem createSession_frame (session : NewSession) (now : Instant) (ht : t ≠ .sessions) :
    db.Agree (commit db (db.createSession session now)).2 t := by
  unfold Db.createSession
  split
  · exact .refl db t
  · split
    · exact .refl db t
    · cases t <;> first | rfl | exact absurd rfl ht

theorem createProject_frame (userId : Int) (project : ProjectSettings) (now : Instant) (ht : t ≠ .projects) :
    db.Agree (commit db (db.createProject userId project now)).2 t := by
  unfold Db.createProject
  split
  · exact .refl db t
  · cases t <;> first | rfl | exact absurd rfl ht

theorem createChannel_frame (channel : NewChannel) (now : Instant) (ht : t ≠ .channels) :
    db.Agree (commit db (db.createChannel channel now)).2 t := by
  unfold Db.createChannel
  split
  · exact .refl db t
  · cases t <;> first | rfl | exact absurd rfl ht

theorem bindChannel_frame (checkId channelId : Int) (ht : t ≠ .checkChannels) :
    db.Agree (commit db (db.bindChannel checkId channelId)).2 t := by
  unfold Db.bindChannel
  split
  · exact .refl db t
  · split
    · exact .refl db t
    · cases t <;> first | rfl | exact absurd rfl ht

theorem recordNotification_frame (row : NewNotification) (now : Instant) (ht : t ≠ .notifications) :
    db.Agree (commit db (db.recordNotification row now)).2 t := by
  unfold Db.recordNotification
  split
  · exact .refl db t
  · cases t <;> first | rfl | exact absurd rfl ht

theorem validateApiKey_frame (tokenHash : String) (now : Instant) (ht : t ≠ .apiKeys) :
    db.Agree (db.validateApiKey tokenHash now).2 t := by
  unfold Db.validateApiKey
  split
  · exact .refl db t
  · split
    · exact .refl db t
    · split
      · cases t <;> first | rfl | exact absurd rfl ht
      · exact .refl db t

theorem findSessionUser_frame (sessionId : String) (now : Instant) (ht : t ≠ .sessions) :
    db.Agree (db.findSessionUser sessionId now).2 t := by
  unfold Db.findSessionUser
  split
  · exact .refl db t
  · split
    · exact .refl db t
    · split
      · exact .refl db t
      · split
        · exact .refl db t
        · cases t <;> first | rfl | exact absurd rfl ht

theorem bindAll_frame (checkId : Int) (channelIds : List Int) (ht : t ≠ .checkChannels) :
    db.Agree (db.bindAll checkId channelIds) t := by
  induction channelIds generalizing db with
  | nil => exact .refl db t
  | cons channelId rest ih =>
      unfold Db.bindAll
      split
      · exact ih db
      · rename_i table _
        have hrest := ih { db with checkChannels := table }
        cases t <;> first | exact hrest | exact absurd rfl ht

theorem bindAllProjectChannels_frame (checkId projectId : Int) (ht : t ≠ .checkChannels) :
    db.Agree (commit db (db.bindAllProjectChannels checkId projectId)).2 t := by
  unfold Db.bindAllProjectChannels
  dsimp only
  split
  · exact .refl db t
  · exact bindAll_frame db checkId _ ht

theorem bindAll_rowOrder (checkId : Int) (channelIds : List Int) :
    (db.bindAll checkId channelIds).rowOrder = db.rowOrder := by
  induction channelIds generalizing db with
  | nil => rfl
  | cons channelId rest ih =>
      unfold Db.bindAll
      split
      · exact ih db
      · exact ih _

end Refused

/-- **Frame.** A call leaves every table alone that it does not name. -/
theorem exec_frame {c : StoreCall} {t : TableName} (ht : t ∉ c.writes) (db : Db) :
    db.Agree (exec c db).2 t := by
  cases c
  case insertPing => exact insertPing_frame db _ _ (by simpa [StoreCall.writes] using ht)
  case createCheck => exact createCheck_frame db _ _ (by simpa [StoreCall.writes] using ht)
  case regenerateUuid => exact regenerateUuid_frame db _ _ (by simpa [StoreCall.writes] using ht)
  case createUser => exact createUser_frame db _ _ _ _ (by simpa [StoreCall.writes] using ht)
  case insertApiKey => exact insertApiKey_frame db _ _ (by simpa [StoreCall.writes] using ht)
  case validateApiKey => exact validateApiKey_frame db _ _ (by simpa [StoreCall.writes] using ht)
  case createSession => exact createSession_frame db _ _ (by simpa [StoreCall.writes] using ht)
  case findSessionUser => exact findSessionUser_frame db _ _ (by simpa [StoreCall.writes] using ht)
  case createProject => exact createProject_frame db _ _ _ (by simpa [StoreCall.writes] using ht)
  case createChannel => exact createChannel_frame db _ _ (by simpa [StoreCall.writes] using ht)
  case bindChannel => exact bindChannel_frame db _ _ (by simpa [StoreCall.writes] using ht)
  case bindAllProjectChannels =>
      exact bindAllProjectChannels_frame db _ _ (by simpa [StoreCall.writes] using ht)
  case recordNotification => exact recordNotification_frame db _ _ (by simpa [StoreCall.writes] using ht)
  all_goals first | exact .refl db t | (cases t <;> first | rfl | exact absurd (by simp [StoreCall.writes]) ht)

/-- No call changes how the engine orders its rows. -/
theorem exec_rowOrder (c : StoreCall) (db : Db) : (exec c db).2.rowOrder = db.rowOrder := by
  cases c
  case bindAllProjectChannels checkId projectId =>
      simp only [exec, Db.bindAllProjectChannels]
      split
      · rfl
      · exact bindAll_rowOrder db checkId _
  case findSessionUser sessionId now =>
      simp only [exec, Db.findSessionUser]
      repeat' split
      all_goals rfl
  case validateApiKey tokenHash now =>
      simp only [exec, Db.validateApiKey]
      repeat' split
      all_goals rfl
  all_goals first
    | rfl
    | (simp only [exec, Db.insertPing, Db.createCheck, Db.regenerateUuid, Db.createUser, Db.insertApiKey,
        Db.createSession, Db.createProject, Db.createChannel, Db.bindChannel, Db.recordNotification]
       repeat' split
       all_goals rfl)

/-- A call that does not write `checks` leaves them as they are. -/
theorem exec_checks {c : StoreCall} (hc : .checks ∉ c.writes) (db : Db) :
    (exec c db).2.checks = db.checks := exec_frame hc db

end Pingward
