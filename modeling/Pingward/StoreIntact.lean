import Pingward.HistoryGrowth
import Pingward.TableForeign

/-! The store keeps what its schema says, whatever runs beside each other: a row names only rows that exist, and no two
rows share what is unique. -/

open KeyedTable StoreProgram

namespace Pingward

/-- The foreign keys and the unique columns of the migrations. -/
structure Db.Intact (db : Db) : Prop where
  projectUsers : Refers Project.userId db.projects.rows db.users.keys
  checkProjects : Refers Check.projectId db.checks.rows db.projects.keys
  channelProjects : Refers Channel.projectId db.channels.rows db.projects.keys
  bindingChecks : Refers Binding.checkId db.checkChannels.rows db.checks.keys
  bindingChannels : Refers Binding.channelId db.checkChannels.rows db.channels.keys
  pingChecks : Refers Ping.checkId db.pings.rows db.checks.keys
  notificationChecks : Refers Notification.checkId db.notifications.rows db.checks.keys
  notificationChannels : Refers Notification.channelId db.notifications.rows db.channels.keys
  sessionUsers : Refers Session.userId db.sessions.rows db.users.keys
  keyUsers : Refers ApiKey.userId db.apiKeys.rows db.users.keys
  usernames : Distinct User.username db.users.rows
  pingUuids : Distinct Check.pingUuid db.checks.rows
  tokenHashes : Distinct ApiKey.tokenHash db.apiKeys.rows

theorem Db.empty_intact : Db.empty.Intact := by
  constructor <;> first | exact .nil _ _ | exact .nil _

namespace Db.Intact

section Updates

variable {db : Db} (hintact : db.Intact)

include hintact

theorem updateCheck {id : Int} {f : Check → Check} {hid : ∀ row, (f row).id = row.id}
    (hproject : ∀ row, (f row).projectId = row.projectId) (huuid : ∀ row, (f row).pingUuid = row.pingUuid) :
    (db.updateCheck id f hid).Intact := by
  have hkeys : db.checks.keys ⊆ (db.checks.update id f hid).keys := Table.keys_updateWhere _ _ hid
  exact { hintact with
    checkProjects := hintact.checkProjects.congr (Table.map_updateWhere _ _ hid hproject)
    bindingChecks := hintact.bindingChecks.mono hkeys
    pingChecks := hintact.pingChecks.mono hkeys
    notificationChecks := hintact.notificationChecks.mono hkeys
    pingUuids := hintact.pingUuids.congr (Table.map_updateWhere _ _ hid huuid) }

theorem updateUser {id : Int} {f : User → User} {hid : ∀ row, (f row).id = row.id}
    (hname : ∀ row, (f row).username = row.username) : (db.updateUser id f hid).Intact := by
  have hkeys : db.users.keys ⊆ (db.users.update id f hid).keys := Table.keys_updateWhere _ _ hid
  exact { hintact with
    projectUsers := hintact.projectUsers.mono hkeys
    sessionUsers := hintact.sessionUsers.mono hkeys
    keyUsers := hintact.keyUsers.mono hkeys
    usernames := hintact.usernames.congr (Table.map_updateWhere _ _ hid hname) }

theorem updateProject (id : Int) (project : ProjectSettings) : (db.updateProject id project).Intact := by
  have hkeys : db.projects.keys ⊆ (db.updateProject id project).projects.keys := Table.keys_updateWhere _ _ (by intro; rfl)
  exact { hintact with
    projectUsers := hintact.projectUsers.congr (Table.map_updateWhere _ _ (by intro; rfl) (by intro; rfl))
    checkProjects := hintact.checkProjects.mono hkeys
    channelProjects := hintact.channelProjects.mono hkeys }

theorem updateChannel (id : Int) (name configJson : String) : (db.updateChannel id name configJson).Intact := by
  have hkeys : db.channels.keys ⊆ (db.updateChannel id name configJson).channels.keys :=
    Table.keys_updateWhere _ _ (by intro; rfl)
  exact { hintact with
    channelProjects := hintact.channelProjects.congr (Table.map_updateWhere _ _ (by intro; rfl) (by intro; rfl))
    bindingChannels := hintact.bindingChannels.mono hkeys
    notificationChannels := hintact.notificationChannels.mono hkeys }

theorem setSetting (key value : String) : (db.setSetting key value).Intact := { hintact with }

theorem recordAudit (entry : NewAudit) (now : Instant) : (db.recordAudit entry now).2.Intact := { hintact with }

theorem validateApiKey (tokenHash : String) (now : Instant) : (db.validateApiKey tokenHash now).2.Intact := by
  unfold Db.validateApiKey
  split
  · exact hintact
  · split
    · exact hintact
    · split
      · exact { hintact with
          keyUsers := hintact.keyUsers.congr (Table.map_updateWhere _ _ (by intro; rfl) (by intro; rfl))
          tokenHashes := hintact.tokenHashes.congr (Table.map_updateWhere _ _ (by intro; rfl) (by intro; rfl)) }
      · exact hintact

theorem findSessionUser (sessionId : String) (now : Instant) : (db.findSessionUser sessionId now).2.Intact := by
  unfold Db.findSessionUser
  split
  · exact hintact
  · split
    · exact hintact
    · split
      · exact hintact
      · split
        · exact hintact
        · exact { hintact with
            sessionUsers := hintact.sessionUsers.congr
              (Table.map_updateWhere _ _ (fun row => row.touched_id now) fun row => row.touched_userId now) }

theorem regenerateUuid (id : Int) (uuid : String) : (commit db (db.regenerateUuid id uuid)).2.Intact := by
  unfold Db.regenerateUuid
  split
  · exact hintact
  · rename_i hfree
    simp only [List.any_eq_true, decide_eq_true_eq, not_exists, not_and] at hfree
    have hid : ∀ row : Check, { row with pingUuid := uuid }.id = row.id := fun _ => rfl
    have hkeys : db.checks.keys ⊆ (db.checks.update id (fun row => { row with pingUuid := uuid }) hid).keys :=
      Table.keys_updateWhere _ _ hid
    exact { hintact with
      checkProjects := hintact.checkProjects.congr (Table.map_updateWhere _ _ (by intro; rfl) (by intro; rfl))
      bindingChecks := hintact.bindingChecks.mono hkeys
      pingChecks := hintact.pingChecks.mono hkeys
      notificationChecks := hintact.notificationChecks.mono hkeys
      pingUuids := hintact.pingUuids.update hid fun _ _ other hother _ hne heq => hfree other hother heq hne }

end Updates

section Inserts

variable {db : Db} (hintact : db.Intact)

include hintact

theorem createCheck (check : NewCheck) (now : Instant) : (commit db (db.createCheck check now)).2.Intact := by
  unfold Db.createCheck
  split
  · exact hintact
  · rename_i hproject
    split
    · exact hintact
    · rename_i huuid
      have hfresh : ∀ other ∈ db.checks.rows, other.pingUuid ≠ check.pingUuid := by simpa [findCheckByUuid] using huuid
      have hkeys : db.checks.keys ⊆ (db.checks.insert (check.row now) fun _ => rfl).keys := AutoTable.keys_insert _ _ _
      exact { hintact with
        checkProjects := hintact.checkProjects.concat (Table.mem_keys hproject)
        bindingChecks := hintact.bindingChecks.mono hkeys
        pingChecks := hintact.pingChecks.mono hkeys
        notificationChecks := hintact.notificationChecks.mono hkeys
        pingUuids := hintact.pingUuids.concat hfresh }

theorem createUser (username : String) (passwordHash : Option String) (isAdmin : Bool) (now : Instant) :
    (commit db (db.createUser username passwordHash isAdmin now)).2.Intact := by
  unfold Db.createUser
  split
  · exact hintact
  · rename_i hname
    have hkeys : db.users.keys ⊆
        (db.users.insert (fun id => ⟨id, username, passwordHash, isAdmin, false, now⟩) fun _ => rfl).keys :=
        AutoTable.keys_insert _ _ _
    exact { hintact with
      projectUsers := hintact.projectUsers.mono hkeys
      sessionUsers := hintact.sessionUsers.mono hkeys
      keyUsers := hintact.keyUsers.mono hkeys
      usernames := hintact.usernames.concat (by simpa [findUserByUsername] using hname) }

theorem insertApiKey (key : NewApiKey) (now : Instant) : (commit db (db.insertApiKey key now)).2.Intact := by
  unfold Db.insertApiKey
  split
  · exact hintact
  · rename_i huser
    split
    · exact hintact
    · rename_i hhash
      exact { hintact with
        keyUsers := hintact.keyUsers.concat (Table.mem_keys huser)
        tokenHashes := hintact.tokenHashes.concat (by simpa using hhash) }

theorem createSession (session : NewSession) (now : Instant) : (commit db (db.createSession session now)).2.Intact := by
  unfold Db.createSession
  split
  · exact hintact
  · rename_i huser
    split
    · exact hintact
    · rename_i table hinsert
      have hrefers : Refers Session.userId table.rows db.users.keys := by
        rw [db.sessions.insert_rows hinsert]
        exact hintact.sessionUsers.concat (Table.mem_keys huser)
      exact { hintact with sessionUsers := hrefers }

theorem createProject (userId : Int) (project : ProjectSettings) (now : Instant) :
    (commit db (db.createProject userId project now)).2.Intact := by
  unfold Db.createProject
  split
  · exact hintact
  · rename_i huser
    have hkeys : db.projects.keys ⊆ (db.projects.insert (fun id => ⟨id, userId, project.name, project.description,
        project.scanIntervalSecs, project.nagIntervalSecs, now⟩) fun _ => rfl).keys := AutoTable.keys_insert _ _ _
    exact { hintact with
      projectUsers := hintact.projectUsers.concat (Table.mem_keys huser)
      checkProjects := hintact.checkProjects.mono hkeys
      channelProjects := hintact.channelProjects.mono hkeys }

theorem createChannel (channel : NewChannel) (now : Instant) : (commit db (db.createChannel channel now)).2.Intact := by
  unfold Db.createChannel
  split
  · exact hintact
  · rename_i hproject
    have hkeys : db.channels.keys ⊆ (db.channels.insert (fun id => ⟨id, channel.projectId, channel.kind, channel.name,
        channel.configJson, now⟩) fun _ => rfl).keys := AutoTable.keys_insert _ _ _
    exact { hintact with
      channelProjects := hintact.channelProjects.concat (Table.mem_keys hproject)
      bindingChannels := hintact.bindingChannels.mono hkeys
      notificationChannels := hintact.notificationChannels.mono hkeys }

theorem insertPing (ping : NewPing) (now : Instant) : (commit db (db.insertPing ping now)).2.Intact := by
  unfold Db.insertPing
  split
  · exact hintact
  · rename_i hcheck
    exact { hintact with
      pingChecks := hintact.pingChecks.concat (Table.mem_keys hcheck) }

theorem recordNotification (row : NewNotification) (now : Instant) : (commit db (db.recordNotification row now)).2.Intact := by
  unfold Db.recordNotification
  split
  · exact hintact
  · rename_i hboth
    rw [not_or] at hboth
    exact { hintact with
      notificationChecks := hintact.notificationChecks.concat
        (Table.mem_keys hboth.1)
      notificationChannels := hintact.notificationChannels.concat
        (Table.mem_keys hboth.2) }

/-- A binding of a check to a channel, both there. -/
theorem bound {checkId channelId : Int} (hcheck : checkId ∈ db.checks.keys) (hchannel : channelId ∈ db.channels.keys)
    {table : Table Binding Binding id} (hinsert : db.checkChannels.insert ⟨checkId, channelId⟩ = some table) :
    { db with checkChannels := table }.Intact := by
  have hrows := db.checkChannels.insert_rows hinsert
  refine { hintact with bindingChecks := ?_, bindingChannels := ?_ }
  · rw [hrows]
    exact hintact.bindingChecks.concat hcheck
  · rw [hrows]
    exact hintact.bindingChannels.concat hchannel

theorem bindChannel (checkId channelId : Int) : (commit db (db.bindChannel checkId channelId)).2.Intact := by
  unfold Db.bindChannel
  split
  · exact hintact
  · rename_i hboth
    rw [not_or] at hboth
    split
    · exact hintact
    · rename_i table hinsert
      exact hintact.bound (Table.mem_keys hboth.1)
        (Table.mem_keys hboth.2) hinsert

end Inserts

theorem bindAll {db : Db} (hintact : db.Intact) {checkId : Int} {channelIds : List Int} (hcheck : checkId ∈ db.checks.keys)
    (hchannels : channelIds ⊆ db.channels.keys) : (db.bindAll checkId channelIds).Intact := by
  induction channelIds generalizing db with
  | nil => exact hintact
  | cons channelId rest ih =>
      obtain ⟨hchannel, hrest⟩ := List.cons_subset.mp hchannels
      unfold Db.bindAll
      split
      · exact ih hintact hcheck hrest
      · rename_i table hinsert
        exact ih (hintact.bound hcheck hchannel hinsert) hcheck hrest

theorem bindAllProjectChannels {db : Db} (hintact : db.Intact) (checkId projectId : Int) :
    (commit db (db.bindAllProjectChannels checkId projectId)).2.Intact := by
  unfold Db.bindAllProjectChannels
  dsimp only
  split
  · exact hintact
  · rename_i hguard
    cases hids : (db.channels.rows.filter fun row => row.projectId = projectId).map Channel.id with
    | nil => exact hintact
    | cons channelId rest =>
        rw [hids] at hguard
        have hcheck : ¬ (db.checks.find checkId).isNone = true := fun hnone => hguard ⟨List.cons_ne_nil _ _, hnone⟩
        refine hids ▸ hintact.bindAll (Table.mem_keys hcheck) ?_
        intro id hid
        obtain ⟨row, hrow, rfl⟩ := List.mem_map.mp hid
        exact List.mem_map_of_mem (List.mem_of_mem_filter hrow)

section Deletes

variable {db : Db} (hintact : db.Intact)

include hintact

theorem deleteChecksWhere (p : Check → Bool) : (db.deleteChecksWhere p).Intact := by
  have hgone : ∀ row ∈ db.checks.rows, p row = true →
      (db.checks.rows.any fun other => p other ∧ other.id = row.id) = true := by
    intro row hrow hp
    simp only [List.any_eq_true, decide_eq_true_eq]
    exact ⟨row, hrow, hp, rfl⟩
  exact { hintact with
    checkProjects := hintact.checkProjects.sublist List.filter_sublist
    bindingChecks := hintact.bindingChecks.cascade _ hgone
    bindingChannels := hintact.bindingChannels.sublist List.filter_sublist
    pingChecks := hintact.pingChecks.cascade _ hgone
    notificationChecks := hintact.notificationChecks.cascade _ hgone
    notificationChannels := hintact.notificationChannels.sublist List.filter_sublist
    pingUuids := hintact.pingUuids.sublist List.filter_sublist }

theorem deleteChannelsWhere (p : Channel → Bool) : (db.deleteChannelsWhere p).Intact := by
  have hgone : ∀ row ∈ db.channels.rows, p row = true →
      (db.channels.rows.any fun other => p other ∧ other.id = row.id) = true := by
    intro row hrow hp
    simp only [List.any_eq_true, decide_eq_true_eq]
    exact ⟨row, hrow, hp, rfl⟩
  exact { hintact with
    channelProjects := hintact.channelProjects.sublist List.filter_sublist
    bindingChecks := hintact.bindingChecks.sublist List.filter_sublist
    bindingChannels := hintact.bindingChannels.cascade _ hgone
    notificationChecks := hintact.notificationChecks.sublist List.filter_sublist
    notificationChannels := hintact.notificationChannels.cascade _ hgone }

theorem deleteProjectsWhere (p : Project → Bool) : (db.deleteProjectsWhere p).Intact := by
  let gone : Int → Bool := fun id => db.projects.rows.any fun row => p row ∧ row.id = id
  have hgone : ∀ row ∈ db.projects.rows, p row = true → gone row.id = true := by
    intro row hrow hp
    simp only [gone, List.any_eq_true, decide_eq_true_eq]
    exact ⟨row, hrow, hp, rfl⟩
  have hchecks := hintact.deleteChecksWhere fun row => gone row.projectId
  have hchannels := hchecks.deleteChannelsWhere fun row => gone row.projectId
  exact { hchannels with
    projectUsers := hintact.projectUsers.sublist List.filter_sublist
    checkProjects := hintact.checkProjects.cascade _ hgone
    channelProjects := hintact.channelProjects.cascade _ hgone }

theorem deleteUser (id : Int) : (db.deleteUser id).Intact := by
  have hgone : ∀ row ∈ db.users.rows, decide (row.id = id) = true → decide (row.id = id) = true := fun _ _ h => h
  have hprojects := hintact.deleteProjectsWhere fun row => row.userId = id
  exact { hprojects with
    projectUsers := hintact.projectUsers.cascade (fun userId => userId = id) hgone
    sessionUsers := hintact.sessionUsers.cascade (fun userId => userId = id) hgone
    keyUsers := hintact.keyUsers.cascade (fun userId => userId = id) hgone
    usernames := hintact.usernames.sublist List.filter_sublist
    tokenHashes := hintact.tokenHashes.sublist List.filter_sublist }

theorem deleteSessionsWhere (p : Session → Bool) : (db.deleteSessionsWhere p).2.Intact :=
  { hintact with sessionUsers := hintact.sessionUsers.sublist List.filter_sublist }

theorem deleteApiKey (id userId : Int) : (db.deleteApiKey id userId).2.Intact :=
  { hintact with
    keyUsers := hintact.keyUsers.sublist List.filter_sublist
    tokenHashes := hintact.tokenHashes.sublist List.filter_sublist }

theorem unbindChannel (checkId channelId : Int) : (db.unbindChannel checkId channelId).Intact :=
  { hintact with
    bindingChecks := hintact.bindingChecks.sublist List.filter_sublist
    bindingChannels := hintact.bindingChannels.sublist List.filter_sublist }

end Deletes

end Db.Intact

/-- Every call of the store keeps it. -/
theorem exec_intact (c : StoreCall) {db : Db} (hintact : db.Intact) : (exec c db).2.Intact := by
  cases c
  case insertPing ping now => exact hintact.insertPing ping now
  case markPing id mark => exact hintact.updateCheck (fun _ => rfl) fun _ => rfl
  case setStatus id status => exact hintact.updateCheck (fun _ => rfl) fun _ => rfl
  case beginDownAlert id at_ => exact hintact.updateCheck (fun _ => rfl) fun _ => rfl
  case recordReminder id at_ => exact hintact.updateCheck (fun _ => rfl) fun _ => rfl
  case clearNag id => exact hintact.updateCheck (fun _ => rfl) fun _ => rfl
  case acknowledge id => exact hintact.updateCheck (fun _ => rfl) fun _ => rfl
  case updateCheckSchedule id edit => exact hintact.updateCheck (fun _ => rfl) fun _ => rfl
  case createCheck check now => exact hintact.createCheck check now
  case regenerateUuid id uuid => exact hintact.regenerateUuid id uuid
  case deleteCheck id => exact hintact.deleteChecksWhere _
  case createUser username hash isAdmin now => exact hintact.createUser username hash isAdmin now
  case deleteUser id => exact hintact.deleteUser id
  case setUserDisabled id disabled => exact hintact.updateUser fun _ => rfl
  case setUserPassword id hash => exact hintact.updateUser fun _ => rfl
  case setUserAdmin id isAdmin => exact hintact.updateUser fun _ => rfl
  case insertApiKey key now => exact hintact.insertApiKey key now
  case deleteApiKey id userId => exact hintact.deleteApiKey id userId
  case validateApiKey hash now => exact hintact.validateApiKey hash now
  case createSession session now => exact hintact.createSession session now
  case findSessionUser id now => exact hintact.findSessionUser id now
  case deleteSession id => exact hintact.deleteSessionsWhere _
  case deleteCappedSessionsForUser userId now => exact hintact.deleteSessionsWhere _
  case deleteSessionOwned id userId => exact hintact.deleteSessionsWhere _
  case deleteOtherSessionsForUser userId keepId => exact hintact.deleteSessionsWhere _
  case deleteSessionsForUser userId => exact hintact.deleteSessionsWhere _
  case createProject userId project now => exact hintact.createProject userId project now
  case updateProject id project => exact hintact.updateProject id project
  case deleteProject id => exact hintact.deleteProjectsWhere _
  case createChannel channel now => exact hintact.createChannel channel now
  case updateChannel id name configJson => exact hintact.updateChannel id name configJson
  case deleteChannel id => exact hintact.deleteChannelsWhere _
  case bindChannel checkId channelId => exact hintact.bindChannel checkId channelId
  case bindAllProjectChannels checkId projectId => exact hintact.bindAllProjectChannels checkId projectId
  case unbindChannel checkId channelId => exact hintact.unbindChannel checkId channelId
  case recordNotification row now => exact hintact.recordNotification row now
  case setSetting key value => exact hintact.setSetting key value
  case recordAudit entry now => exact hintact.recordAudit entry now
  -- the others only read
  all_goals exact hintact

/-- So does the prune. -/
theorem execPrune_intact (c : PruneCall) {db : Db} (hintact : db.Intact) : (execPrune c db).2.Intact := by
  cases c with
  | getSetting key => exact hintact
  | deletePingsBefore cutoff => exact { hintact with pingChecks := hintact.pingChecks.sublist List.filter_sublist }
  | deleteNotificationsBefore cutoff =>
      exact { hintact with
        notificationChecks := hintact.notificationChecks.sublist List.filter_sublist
        notificationChannels := hintact.notificationChannels.sublist List.filter_sublist }
  | deleteAuditBefore cutoff => exact { hintact with }
  | deleteExpiredSessions now capBefore => exact hintact.deleteSessionsWhere _

end Pingward
