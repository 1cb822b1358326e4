import Pingward.FrameCalls

/-! Whose row is whose. A project, an API key and a session name their user; a check and a channel belong
to the owner of their project, and a binding to the owners of its check and of its channel. A call that
stays within one user's rows leaves the rows of all the others as they are. -/

open KeyedTable StoreProgram

namespace Pingward

/-- A session with the columns blanked that accepting it may refresh, when it is one of the ids carried. -/
def Session.blank (carried : List String) (row : Session) : Session :=
  if row.id ∈ carried then { row with lastSeenAt := none, expiresAt := 0 } else row

/-- What the users other than one own. -/
@[ext]
structure Others where
  projects : List Project
  checks : List Check
  channels : List Channel
  bindings : List Binding
  apiKeys : List ApiKey
  sessions : List Session
  deriving DecidableEq, Repr

namespace Db

def otherProject (db : Db) (u id : Int) : Bool := (db.findProject id).any fun row => row.userId ≠ u

def otherCheck (db : Db) (u id : Int) : Bool := (db.findCheck id).any fun row => db.otherProject u row.projectId

def otherChannel (db : Db) (u id : Int) : Bool := (db.findChannel id).any fun row => db.otherProject u row.projectId

/-- The rows of the users other than `u`, the sessions carried by a request without their refreshed
columns. -/
def others (db : Db) (u : Int) (carried : List String) : Others where
  projects := db.projects.rows.filter fun row => row.userId ≠ u
  checks := db.checks.rows.filter fun row => db.otherProject u row.projectId
  channels := db.channels.rows.filter fun row => db.otherProject u row.projectId
  bindings := db.checkChannels.rows.filter fun row => db.otherCheck u row.checkId && db.otherChannel u row.channelId
  apiKeys := db.apiKeys.rows.filter fun row => row.userId ≠ u
  sessions := (db.sessions.rows.filter fun row => row.userId ≠ u).map (Session.blank carried)

end Db

/-! ### One table at a time -/

section Tables

variable {db : Db} {u : Int} {carried : List String}

theorem others_sessions {table : Table String Session Session.id}
    (hrows : (table.rows.filter fun row => row.userId ≠ u).map (Session.blank carried) =
      (db.sessions.rows.filter fun row => row.userId ≠ u).map (Session.blank carried)) :
    { db with sessions := table }.others u carried = db.others u carried := by
  ext1 <;> first | rfl | exact hrows

theorem others_apiKeys {table : AutoTable ApiKey ApiKey.id}
    (hrows : (table.rows.filter fun row => row.userId ≠ u) = db.apiKeys.rows.filter fun row => row.userId ≠ u) :
    { db with apiKeys := table }.others u carried = db.others u carried := by
  ext1 <;> first | rfl | exact hrows

theorem others_bindings {table : Table Binding Binding id}
    (hrows : (table.rows.filter fun row => db.otherCheck u row.checkId && db.otherChannel u row.channelId) =
      db.checkChannels.rows.filter fun row => db.otherCheck u row.checkId && db.otherChannel u row.channelId) :
    { db with checkChannels := table }.others u carried = db.others u carried := by
  ext1 <;> first | rfl | exact hrows

theorem others_checks {table : AutoTable Check Check.id}
    (hrows : (table.rows.filter fun row => db.otherProject u row.projectId) =
      db.checks.rows.filter fun row => db.otherProject u row.projectId)
    (hfind : ∀ id, ((table.find id).any fun row => db.otherProject u row.projectId) = db.otherCheck u id) :
    { db with checks := table }.others u carried = db.others u carried := by
  have hcheck : { db with checks := table }.otherCheck u = db.otherCheck u := funext hfind
  ext1
  case checks => exact hrows
  case bindings =>
      show db.checkChannels.rows.filter (fun row => { db with checks := table }.otherCheck u row.checkId &&
        db.otherChannel u row.channelId) = _
      rw [hcheck]
      rfl
  all_goals rfl

theorem others_channels {table : AutoTable Channel Channel.id}
    (hrows : (table.rows.filter fun row => db.otherProject u row.projectId) =
      db.channels.rows.filter fun row => db.otherProject u row.projectId)
    (hfind : ∀ id, ((table.find id).any fun row => db.otherProject u row.projectId) = db.otherChannel u id) :
    { db with channels := table }.others u carried = db.others u carried := by
  have hchannel : { db with channels := table }.otherChannel u = db.otherChannel u := funext hfind
  ext1
  case channels => exact hrows
  case bindings =>
      show db.checkChannels.rows.filter (fun row => db.otherCheck u row.checkId &&
        { db with channels := table }.otherChannel u row.channelId) = _
      rw [hchannel]
      rfl
  all_goals rfl

theorem others_projects {table : AutoTable Project Project.id}
    (hrows : (table.rows.filter fun row => row.userId ≠ u) = db.projects.rows.filter fun row => row.userId ≠ u)
    (hfind : ∀ id, ((table.find id).any fun row => row.userId ≠ u) = db.otherProject u id) :
    { db with projects := table }.others u carried = db.others u carried := by
  have hproject : { db with projects := table }.otherProject u = db.otherProject u := funext hfind
  have hcheck : { db with projects := table }.otherCheck u = db.otherCheck u := by
    funext id
    unfold Db.otherCheck
    rw [hproject]
    rfl
  have hchannel : { db with projects := table }.otherChannel u = db.otherChannel u := by
    funext id
    unfold Db.otherChannel
    rw [hproject]
    rfl
  unfold Db.others
  rw [hproject, hcheck, hchannel]
  ext1 <;> first | rfl | exact hrows

/-! ### Writes within one user's rows -/

theorem otherCheck_of_row {check : Check} (hrow : check ∈ db.checks.rows) :
    db.otherCheck u check.id = db.otherProject u check.projectId := by
  have hfound : db.findCheck check.id = some check := db.checks.find_eq_some_iff.mpr ⟨hrow, rfl⟩
  rw [Db.otherCheck, hfound, Option.any_some]

theorem otherChannel_of_row {channel : Channel} (hrow : channel ∈ db.channels.rows) :
    db.otherChannel u channel.id = db.otherProject u channel.projectId := by
  have hfound : db.findChannel channel.id = some channel := db.channels.find_eq_some_iff.mpr ⟨hrow, rfl⟩
  rw [Db.otherChannel, hfound, Option.any_some]

theorem otherProject_of_row {project : Project} (hrow : project ∈ db.projects.rows) :
    db.otherProject u project.id = decide (project.userId ≠ u) := by
  have hfound : db.findProject project.id = some project := db.projects.find_eq_some_iff.mpr ⟨hrow, rfl⟩
  rw [Db.otherProject, hfound, Option.any_some]

theorem others_updateCheck {id : Int} {f : Check → Check} {hid : ∀ row, (f row).id = row.id}
    (hproject : ∀ row, (f row).projectId = row.projectId) (hmine : db.otherCheck u id = false) :
    (db.updateCheck id f hid).others u carried = db.others u carried := by
  apply others_checks
  · refine Table.filter_updateWhere _ hid fun row hrow hkey => ?_
    have hfalse : db.otherProject u row.projectId = false := by
      rw [← otherCheck_of_row hrow, of_decide_eq_true hkey]
      exact hmine
    exact ⟨hfalse, by rw [hproject]; exact hfalse⟩
  · exact Table.any_find_updateWhere _ hid fun row => by rw [hproject]

theorem others_createCheck {check : NewCheck} {now : Instant} (hmine : db.otherProject u check.projectId = false) :
    (commit db (db.createCheck check now)).2.others u carried = db.others u carried := by
  unfold Db.createCheck
  split
  · rfl
  · split
    · rfl
    · exact others_checks (AutoTable.filter_insert _ hmine) (AutoTable.any_find_insert _ (by intro _; rfl) hmine)

theorem others_regenerateUuid {id : Int} {uuid : String} (hmine : db.otherCheck u id = false) :
    (commit db (db.regenerateUuid id uuid)).2.others u carried = db.others u carried := by
  unfold Db.regenerateUuid
  split
  · rfl
  · exact others_updateCheck (fun _ => rfl) hmine

theorem others_updateChannel {id : Int} {name configJson : String} (hmine : db.otherChannel u id = false) :
    (db.updateChannel id name configJson).others u carried = db.others u carried := by
  apply others_channels
  · refine Table.filter_updateWhere _ (by intro _; rfl) fun row hrow hkey => ?_
    have hfalse : db.otherProject u row.projectId = false := by
      rw [← otherChannel_of_row hrow, of_decide_eq_true hkey]
      exact hmine
    exact ⟨hfalse, hfalse⟩
  · exact Table.any_find_updateWhere _ (by intro _; rfl) fun _ => rfl

theorem others_createChannel {channel : NewChannel} {now : Instant}
    (hmine : db.otherProject u channel.projectId = false) :
    (commit db (db.createChannel channel now)).2.others u carried = db.others u carried := by
  unfold Db.createChannel
  split
  · rfl
  · exact others_channels (AutoTable.filter_insert _ hmine) (AutoTable.any_find_insert _ (by intro _; rfl) hmine)

theorem others_createProject {userId : Int} {project : ProjectSettings} {now : Instant} (hmine : userId = u) :
    (commit db (db.createProject userId project now)).2.others u carried = db.others u carried := by
  unfold Db.createProject
  split
  · rfl
  · have hnew : decide (userId ≠ u) = false := by simp [hmine]
    exact others_projects (AutoTable.filter_insert _ hnew) (AutoTable.any_find_insert _ (by intro _; rfl) hnew)

theorem others_updateProject {id : Int} {project : ProjectSettings} (hmine : db.otherProject u id = false) :
    (db.updateProject id project).others u carried = db.others u carried := by
  apply others_projects
  · refine Table.filter_updateWhere _ (by intro _; rfl) fun row hrow hkey => ?_
    have hfalse : decide (row.userId ≠ u) = false := by
      rw [← otherProject_of_row hrow, of_decide_eq_true hkey]
      exact hmine
    exact ⟨hfalse, hfalse⟩
  · exact Table.any_find_updateWhere _ (by intro _; rfl) fun _ => rfl

/-! ### Deletes -/

theorem otherCheck_deleteChecksWhere {p : Check → Bool}
    (hmine : ∀ row ∈ db.checks.rows, p row = true → db.otherProject u row.projectId = false) :
    { db with checks := db.checks.deleteWhere p }.otherCheck u = db.otherCheck u :=
  funext (Table.any_find_deleteWhere _ hmine)

theorem others_deleteChecksWhere {p : Check → Bool}
    (hmine : ∀ row ∈ db.checks.rows, p row = true → db.otherProject u row.projectId = false) :
    (db.deleteChecksWhere p).others u carried = db.others u carried := by
  have hchecks : { db with checks := db.checks.deleteWhere p }.others u carried = db.others u carried :=
    others_checks (Table.filter_deleteWhere _ hmine) (Table.any_find_deleteWhere _ hmine)
  refine Eq.trans (@others_bindings { db with checks := db.checks.deleteWhere p } u carried _ ?_) hchecks
  rw [otherCheck_deleteChecksWhere hmine]
  refine Table.filter_deleteWhere _ fun row _ hgone => ?_
  obtain ⟨check, hcheck, hgone⟩ := List.any_eq_true.mp hgone
  obtain ⟨hp, hid⟩ := of_decide_eq_true hgone
  rw [← hid, otherCheck_of_row hcheck, hmine check hcheck hp]
  rfl

theorem others_deleteChannelsWhere {p : Channel → Bool}
    (hmine : ∀ row ∈ db.channels.rows, p row = true → db.otherProject u row.projectId = false) :
    (db.deleteChannelsWhere p).others u carried = db.others u carried := by
  have hchannels : { db with channels := db.channels.deleteWhere p }.others u carried = db.others u carried :=
    others_channels (Table.filter_deleteWhere _ hmine) (Table.any_find_deleteWhere _ hmine)
  have hchannel : { db with channels := db.channels.deleteWhere p }.otherChannel u = db.otherChannel u :=
    funext (Table.any_find_deleteWhere _ hmine)
  refine Eq.trans (@others_bindings { db with channels := db.channels.deleteWhere p } u carried _ ?_) hchannels
  rw [hchannel]
  refine Table.filter_deleteWhere _ fun row _ hgone => ?_
  obtain ⟨channel, hrow, hgone⟩ := List.any_eq_true.mp hgone
  obtain ⟨hp, hid⟩ := of_decide_eq_true hgone
  rw [← hid, otherChannel_of_row hrow, hmine channel hrow hp, Bool.and_false]

theorem others_deleteProject {id : Int} (hmine : db.otherProject u id = false) :
    (db.deleteProject id).others u carried = db.others u carried := by
  have hgone : ∀ pid, (db.projects.rows.any fun row => row.id = id ∧ row.id = pid) = true →
      db.otherProject u pid = false := by
    intro pid hany
    obtain ⟨project, hrow, hany⟩ := List.any_eq_true.mp hany
    obtain ⟨hid, hpid⟩ := of_decide_eq_true hany
    rw [← hpid, hid]
    exact hmine
  have hrows : ∀ row ∈ db.projects.rows, decide (row.id = id) = true → decide (row.userId ≠ u) = false := by
    intro row hrow hid
    rw [← otherProject_of_row hrow, of_decide_eq_true hid]
    exact hmine
  unfold Db.deleteProject Db.deleteProjectsWhere
  apply (others_projects (Table.filter_deleteWhere _ hrows) (Table.any_find_deleteWhere _ hrows)).trans
  refine (others_deleteChannelsWhere fun row _ hp => ?_).trans (others_deleteChecksWhere fun row _ hp => ?_)
  · exact hgone _ (by simpa using hp)
  · exact hgone _ (by simpa using hp)

/-! ### Bindings -/

theorem others_bindChannel {checkId channelId : Int} (hmine : db.otherCheck u checkId = false) :
    (commit db (db.bindChannel checkId channelId)).2.others u carried = db.others u carried := by
  unfold Db.bindChannel
  split
  · rfl
  · split
    · rfl
    · rename_i table htable
      exact others_bindings (Table.filter_insert _ htable (by rw [hmine]; rfl))

theorem others_bindAll {checkId : Int} {channelIds : List Int} (hmine : db.otherCheck u checkId = false) :
    (db.bindAll checkId channelIds).others u carried = db.others u carried := by
  induction channelIds generalizing db with
  | nil => rfl
  | cons channelId rest ih =>
      unfold Db.bindAll
      split
      · exact ih hmine
      · rename_i table htable
        have hrest : ({ db with checkChannels := table } : Db).otherCheck u checkId = false := hmine
        apply (ih hrest).trans
        exact others_bindings (Table.filter_insert _ htable (by rw [hmine]; rfl))

theorem others_bindAllProjectChannels {checkId projectId : Int} (hmine : db.otherCheck u checkId = false) :
    (commit db (db.bindAllProjectChannels checkId projectId)).2.others u carried = db.others u carried := by
  unfold Db.bindAllProjectChannels
  dsimp only
  split
  · rfl
  · exact others_bindAll hmine

theorem others_unbindChannel {checkId channelId : Int} (hmine : db.otherCheck u checkId = false) :
    (db.unbindChannel checkId channelId).others u carried = db.others u carried := by
  refine others_bindings (Table.filter_deleteWhere _ fun row _ hrow => ?_)
  rw [(of_decide_eq_true hrow).1, hmine]
  rfl

/-! ### API keys and sessions -/

theorem others_insertApiKey {key : NewApiKey} {now : Instant} (hmine : key.userId = u) :
    (commit db (db.insertApiKey key now)).2.others u carried = db.others u carried := by
  unfold Db.insertApiKey
  split
  · rfl
  · split
    · rfl
    · exact others_apiKeys (AutoTable.filter_insert _ (by simp [hmine]))

theorem others_deleteApiKey {id : Int} : (db.deleteApiKey id u).2.others u carried = db.others u carried := by
  refine others_apiKeys (Table.filter_deleteWhere _ fun row _ hrow => ?_)
  simp [(of_decide_eq_true hrow).2]

/-- Only the key found is written. -/
theorem others_validateApiKey {tokenHash : String} {now : Instant}
    (hmine : ∀ v, (db.validateApiKey tokenHash now).1 = some v → v = u) :
    (db.validateApiKey tokenHash now).2.others u carried = db.others u carried := by
  unfold Db.validateApiKey at hmine ⊢
  split
  · rfl
  · rename_i key hkey
    simp only [hkey] at hmine
    split
    · rfl
    · rename_i hlive
      rw [if_neg hlive] at hmine
      split
      · rename_i hstale
        rw [if_pos hstale] at hmine
        have hu := hmine key.userId rfl
        refine others_apiKeys (Table.filter_updateWhere _ (by intro _; rfl) fun row hrow hid => ?_)
        have hmem := List.mem_of_find?_eq_some hkey
        have hrow' : row = key := db.apiKeys.key_inj hrow hmem (of_decide_eq_true hid)
        simp [hrow', hu]
      · rfl

theorem others_createSession {session : NewSession} {now : Instant} (hmine : session.userId = u) :
    (commit db (db.createSession session now)).2.others u carried = db.others u carried := by
  unfold Db.createSession
  split
  · rfl
  · split
    · rfl
    · rename_i table htable
      exact others_sessions (congrArg _ (Table.filter_insert _ htable (by simp [hmine])))

theorem others_deleteSessionsWhere {p : Session → Bool}
    (hmine : ∀ row ∈ db.sessions.rows, p row = true → row.userId = u) :
    (db.deleteSessionsWhere p).2.others u carried = db.others u carried := by
  refine others_sessions (congrArg _ (Table.filter_deleteWhere _ fun row hrow hp => ?_))
  simp [hmine row hrow hp]

theorem Session.blank_touched {row : Session} {now : Instant} (hid : row.id ∈ carried) :
    (row.touched now).blank carried = row.blank carried := by
  unfold Session.blank
  rw [Session.touched_id, if_pos hid, if_pos hid]
  unfold Session.touched
  split <;> rfl

/-- Accepting a session that the request carries, or that is `u`'s own, refreshes that session only. -/
theorem others_findSessionUser {sessionId : String} {now : Instant}
    (hmine : sessionId ∈ carried ∨ ∀ row, db.sessions.find sessionId = some row → row.userId = u) :
    (db.findSessionUser sessionId now).2.others u carried = db.others u carried := by
  unfold Db.findSessionUser
  split
  · rfl
  · rename_i session hsession
    split
    · rfl
    · split
      · rfl
      · split
        · rfl
        · apply others_sessions
          rw [Table.update_rows]
          rcases hmine with hcarried | hown
          · generalize db.sessions.rows = rows
            induction rows with
            | nil => rfl
            | cons row rest ih =>
                by_cases hid : row.id = sessionId
                · have hcarriedRow : row.id ∈ carried := hid ▸ hcarried
                  rw [List.map_cons, if_pos hid, List.filter_cons, List.filter_cons, Session.touched_userId]
                  split
                  · rw [List.map_cons, List.map_cons, Session.blank_touched hcarriedRow, ih]
                  · exact ih
                · rw [List.map_cons, if_neg hid, List.filter_cons, List.filter_cons]
                  split
                  · rw [List.map_cons, List.map_cons, ih]
                  · exact ih
          · rw [← Table.update_rows _ _ _ fun row => row.touched_id now]
            refine congrArg _ (Table.filter_updateWhere _ (fun row => row.touched_id now) fun row hrow hid => ?_)
            have hu := hown row (db.sessions.find_eq_some_iff.mpr ⟨hrow, of_decide_eq_true hid⟩)
            simp [Session.touched_userId, hu]

end Tables

end Pingward
