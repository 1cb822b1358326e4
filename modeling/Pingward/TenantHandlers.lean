import Pingward.FrameAuth
import Pingward.ProgramMeets
import Pingward.TenantRows

/-! The handlers of the owner routes and of `/api/v1` stay within the rows of the user they act for. Each
call is checked against the state it is made in: a write on a project, a check or a channel comes after
the lookup that found it to be the user's. -/

open KeyedTable StoreProgram

namespace Pingward

/-! ### Addresses -/

/-- The resource a path names. -/
inductive Address where
  | project (id : Int)
  | check (id : Int)
  | channel (id : Int)
  | apiKey (id : Int)
  | session (handle : String)
  deriving DecidableEq, Repr

def WebRoute.address : WebRoute → Option Address
  | .projectShow id | .projectEdit id | .projectUpdate id _ | .projectDelete id _ | .checkNew id | .checkCreate id _
  | .channelNew id | .channelCreate id _ => some (.project id)
  | .checkShow id _ | .checkPings id _ | .checkEvents id | .checkNotifications id _ | .checkEdit id | .checkUpdate id _
  | .checkPause id | .checkResume id | .checkAck id | .checkRegenerate id _ | .checkDelete id _
  | .checkSetChannels id _ => some (.check id)
  | .channelEdit id | .channelUpdate id _ | .channelDelete id | .channelTest id => some (.channel id)
  | .apiKeysDelete id _ => some (.apiKey id)
  | .sessionsRevoke handle _ => some (.session handle)
  | _ => none

def ApiRoute.address : ApiRoute → Option Address
  | .getProject id | .updateProject id _ | .deleteProject id | .listProjectChecks id | .createCheck id _
  | .listProjectChannels id | .createChannel id _ => some (.project id)
  | .getCheck id | .updateCheck id _ | .deleteCheck id | .listCheckPings id _ | .listCheckNotifications id _
  | .pauseCheck id | .resumeCheck id | .ackCheck id | .regenerateCheck id | .setCheckChannels id _ => some (.check id)
  | .getChannel id | .updateChannel id _ | .deleteChannel id => some (.channel id)
  | _ => none

/-! ### Calls -/

/-- The call touches no row of a user other than `u`. -/
def StoreCall.Mine (u : Int) (carried : List String) (db : Db) : StoreCall → Prop
  | .setStatus id _ | .acknowledge id | .updateCheckSchedule id _ | .regenerateUuid id _ | .deleteCheck id
  | .bindChannel id _ | .bindAllProjectChannels id _ | .unbindChannel id _ => db.otherCheck u id = false
  | .createCheck check _ => db.otherProject u check.projectId = false
  | .createChannel channel _ => db.otherProject u channel.projectId = false
  | .updateProject id _ | .deleteProject id => db.otherProject u id = false
  | .updateChannel id _ _ | .deleteChannel id => db.otherChannel u id = false
  | .createProject userId _ _ | .deleteApiKey _ userId | .deleteCappedSessionsForUser userId _
  | .deleteSessionOwned _ userId | .deleteOtherSessionsForUser userId _ | .deleteSessionsForUser userId => userId = u
  | .insertApiKey key _ => key.userId = u
  | .createSession session _ => session.userId = u
  | .findSessionUser id _ => id ∈ carried ∨ ∀ row, db.sessions.find id = some row → row.userId = u
  | .deleteSession id => ∀ row, db.sessions.find id = some row → row.userId = u
  | .validateApiKey tokenHash now => ∀ v, (db.validateApiKey tokenHash now).1 = some v → v = u
  | c => ∀ t ∈ [TableName.projects, .checks, .channels, .checkChannels, .apiKeys, .sessions], t ∉ c.writes

theorem others_of_agree {a b : Db} {u : Int} {carried : List String}
    (hagree : ∀ t ∈ [TableName.projects, .checks, .channels, .checkChannels, .apiKeys, .sessions], a.Agree b t) :
    b.others u carried = a.others u carried := by
  have hprojects : b.projects = a.projects := hagree .projects (by simp)
  have hchecks : b.checks = a.checks := hagree .checks (by simp)
  have hchannels : b.channels = a.channels := hagree .channels (by simp)
  have hbindings : b.checkChannels = a.checkChannels := hagree .checkChannels (by simp)
  have hkeys : b.apiKeys = a.apiKeys := hagree .apiKeys (by simp)
  have hsessions : b.sessions = a.sessions := hagree .sessions (by simp)
  unfold Db.others Db.otherCheck Db.otherChannel Db.otherProject Db.findProject Db.findCheck Db.findChannel
  rw [hprojects, hchecks, hchannels, hbindings, hkeys, hsessions]

/-- **A call within a user's rows** leaves the others' rows as they are. -/
theorem exec_mine {c : StoreCall} {u : Int} {carried : List String} {db : Db} (hmine : c.Mine u carried db) :
    (exec c db).2.others u carried = db.others u carried := by
  cases c
  case setStatus => exact others_updateCheck (fun _ => rfl) hmine
  case acknowledge => exact others_updateCheck (fun _ => rfl) hmine
  case updateCheckSchedule => exact others_updateCheck (fun _ => rfl) hmine
  case regenerateUuid => exact others_regenerateUuid hmine
  case deleteCheck id =>
      refine others_deleteChecksWhere fun row hrow hid => ?_
      rw [← otherCheck_of_row hrow, of_decide_eq_true hid]
      exact hmine
  case bindChannel => exact others_bindChannel hmine
  case bindAllProjectChannels => exact others_bindAllProjectChannels hmine
  case unbindChannel => exact others_unbindChannel hmine
  case createCheck => exact others_createCheck hmine
  case createChannel => exact others_createChannel hmine
  case updateProject => exact others_updateProject hmine
  case deleteProject => exact others_deleteProject hmine
  case updateChannel => exact others_updateChannel hmine
  case deleteChannel id =>
      refine others_deleteChannelsWhere fun row hrow hid => ?_
      rw [← otherChannel_of_row hrow, of_decide_eq_true hid]
      exact hmine
  case createProject => exact others_createProject hmine
  case deleteApiKey id userId =>
      obtain rfl : userId = u := hmine
      exact others_deleteApiKey
  case deleteCappedSessionsForUser userId now =>
      exact others_deleteSessionsWhere fun row _ hrow => (of_decide_eq_true hrow).1.trans hmine
  case deleteSessionOwned id userId =>
      exact others_deleteSessionsWhere fun row _ hrow => (of_decide_eq_true hrow).2.trans hmine
  case deleteOtherSessionsForUser userId keepId =>
      exact others_deleteSessionsWhere fun row _ hrow => (of_decide_eq_true hrow).1.trans hmine
  case deleteSessionsForUser userId =>
      exact others_deleteSessionsWhere fun row _ hrow => (of_decide_eq_true hrow).trans hmine
  case insertApiKey => exact others_insertApiKey hmine
  case createSession => exact others_createSession hmine
  case findSessionUser => exact others_findSessionUser hmine
  case deleteSession id =>
      refine others_deleteSessionsWhere fun row hrow hid => ?_
      exact hmine row (db.sessions.find_eq_some_iff.mpr ⟨hrow, of_decide_eq_true hid⟩)
  case validateApiKey => exact others_validateApiKey hmine
  all_goals exact others_of_agree fun t ht => exec_frame (hmine t ht) db

/-- A call that reads leaves the database as it is. -/
theorem exec_reads {c : StoreCall} (hreads : c.writes = []) (db : Db) : (exec c db).2 = db := by
  have hagree : ∀ t, db.Agree (exec c db).2 t := fun t => exec_frame (by rw [hreads]; exact List.not_mem_nil) db
  have hrows : (exec c db).2.rowOrder = db.rowOrder := exec_rowOrder c db
  generalize (exec c db).2 = after at hagree hrows
  have h1 : after.users = db.users := hagree .users
  have h2 : after.projects = db.projects := hagree .projects
  have h3 : after.checks = db.checks := hagree .checks
  have h4 : after.channels = db.channels := hagree .channels
  have h5 : after.checkChannels = db.checkChannels := hagree .checkChannels
  have h6 : after.pings = db.pings := hagree .pings
  have h7 : after.notifications = db.notifications := hagree .notifications
  have h8 : after.sessions = db.sessions := hagree .sessions
  have h9 : after.settings = db.settings := hagree .settings
  have h10 : after.auditLog = db.auditLog := hagree .auditLog
  have h11 : after.apiKeys = db.apiKeys := hagree .apiKeys
  cases db
  cases after
  simp only [Db.mk.injEq]
  exact ⟨hrows, h1, h2, h3, h4, h5, h6, h7, h8, h9, h10, h11⟩

/-- A program that only reads. -/
def Reads {A α : Type} (program : StoreProg A α) : Prop := program.Only (fun c => c.writes = []) fun _ => True

/-- Alone, the program changes no row of a user other than `u`. -/
def Keeps {A α : Type} (u : Int) (carried : List String) (Q : α → Db → Prop) (program : StoreProg A α) (db : Db) :
    Prop :=
  program.Meets Eq (answered exec) (fun before after => after.others u carried = before.others u carried) Q db

section Rules

variable {A α β : Type} {u : Int} {carried : List String} {db : Db}

theorem Keeps.bind {Q : α → Db → Prop} {Q' : β → Db → Prop} {program : StoreProg A α} {rest : α → StoreProg A β}
    (hprogram : Keeps u carried Q program db)
    (hrest : ∀ value after, Q value after → Keeps u carried Q' (rest value) after) :
    Keeps u carried Q' (program.bind rest) db := Prog.Meets.bind hprogram hrest

theorem Reads.keeps {program : StoreProg A α} (hreads : Reads program) :
    Keeps u carried (fun _ after => after = db) program db := by
  refine hreads.meets (I := fun after => after = db) ?_ rfl
  rintro c before moved answer after hc rfl rfl hanswer
  have hafter : after = before := by
    rw [← exec_reads hc before]
    exact (congrArg Prod.snd hanswer).symm
  exact ⟨by rw [hafter], hafter⟩

/-- In front of the rest stands a part that reads. -/
theorem Reads.keeps_bind {program : StoreProg A α} {rest : α → StoreProg A β} {Q : β → Db → Prop}
    (hreads : Reads program) (hrest : ∀ value, Keeps u carried Q (rest value) db) :
    Keeps u carried Q (program.bind rest) db :=
  hreads.keeps.bind fun value after hafter => by rw [hafter]; exact hrest value

/-- Calls that stay within `u`'s rows while an invariant holds that they keep. -/
theorem Keeps.of_only {okCall : StoreCall → Prop} {okEvent : Spawned → Prop} {I : Db → Prop}
    {program : StoreProg A α} (honly : program.Only okCall okEvent)
    (hcall : ∀ c db, okCall c → I db → c.Mine u carried db ∧ I (exec c db).2) (hinv : I db) :
    Keeps u carried (fun _ after => I after) program db := by
  refine honly.meets (I := I) ?_ hinv
  rintro c before moved answer after hc hbefore rfl hanswer
  obtain ⟨hmine, hafter⟩ := hcall c before hc hbefore
  have hstate : after = (exec c before).2 := (congrArg Prod.snd hanswer).symm
  rw [hstate]
  exact ⟨exec_mine hmine, hafter⟩

theorem keeps_perform {c : StoreCall} {wrap : StoreError → A} {Q : c.Res → Db → Prop} (hmine : c.Mine u carried db)
    (hpost : ∀ value, (exec c db).1 = .ok value → Q value (exec c db).2) :
    Keeps u carried Q (Prog.perform wrap c) db := by
  apply Prog.Meets.perform
  rintro moved rfl answer after hanswer
  have hstate : after = (exec c db).2 := (congrArg Prod.snd hanswer).symm
  have hresult : answer = (exec c db).1 := (congrArg Prod.fst hanswer).symm
  subst hstate hresult
  exact ⟨exec_mine hmine, hpost⟩

/-- A last write and what only reads or returns after it. -/
theorem keeps_perform_bind {c : StoreCall} {wrap : StoreError → A} {rest : c.Res → StoreProg A β}
    (hmine : c.Mine u carried db) (hrest : ∀ value, Reads (rest value)) :
    Keeps u carried (fun _ _ => True) ((Prog.perform wrap c).bind rest) db :=
  (keeps_perform hmine (Q := fun _ _ => True) fun _ _ => trivial).bind fun value _ _ =>
    (hrest value).keeps.mono (fun _ _ h => h) fun _ _ _ => trivial

theorem Reads.keepsAll {program : StoreProg A α} (hreads : Reads program) :
    Keeps u carried (fun _ _ => True) program db := hreads.keeps.mono (fun _ _ h => h) fun _ _ _ => trivial

/-- A program of calls on the user's own account. -/
theorem Keeps.of_own {program : StoreProg A α}
    (honly : program.Only (fun c => ∀ db, c.Mine u carried db) fun _ => True) :
    Keeps u carried (fun _ _ => True) program db :=
  Keeps.of_only (I := fun _ => True) honly (fun _ db hc _ => ⟨hc db, trivial⟩) trivial

end Rules

/-! ### Lookups -/

theorem mine_of_reads {c : StoreCall} {u : Int} {carried : List String} {db : Db} (hreads : c.writes = []) :
    c.Mine u carried db := by
  cases c <;> first | (cases hreads; done) | exact fun t _ => by rw [hreads]; exact List.not_mem_nil

section Lookups

variable {u : Int} {carried : List String} {db : Db}

/-- The row found and the database it was found in. -/
theorem keeps_read {c : StoreCall} {wrap : StoreError → A} (hreads : c.writes = []) :
    Keeps u carried (fun value after => after = db ∧ (exec c db).1 = .ok value) (Prog.perform wrap c) db :=
  keeps_perform (mine_of_reads hreads) fun _ hvalue => ⟨exec_reads hreads db, hvalue⟩

theorem otherProject_of_own {project : Project} {id : Int} (hfound : db.findProject id = some project)
    (hown : project.userId = u) : db.otherProject u id = false := by
  rw [Db.otherProject, hfound, Option.any_some]
  simp [hown]

theorem otherCheck_of_own {check : Check} {id : Int} (hfound : db.findCheck id = some check)
    (hown : db.otherProject u check.projectId = false) : db.otherCheck u id = false := by
  rw [Db.otherCheck, hfound, Option.any_some, hown]

theorem otherChannel_of_own {channel : Channel} {id : Int} (hfound : db.findChannel id = some channel)
    (hown : db.otherProject u channel.projectId = false) : db.otherChannel u id = false := by
  rw [Db.otherChannel, hfound, Option.any_some, hown]

theorem ownedProject_keeps (id : Int) :
    Keeps u carried (fun _ after => after = db ∧ db.otherProject u id = false) (ownedProject id u) db := by
  apply (keeps_read rfl).bind
  rintro found after ⟨rfl, hfound⟩
  cases found with
  | none => trivial
  | some project =>
      dsimp only
      split
      · trivial
      · rename_i hown
        exact ⟨rfl, otherProject_of_own (Except.ok.inj hfound) (not_not.mp hown)⟩

theorem ownedCheck_keeps (id : Int) :
    Keeps u carried (fun check after => after = db ∧ check.id = id ∧ db.otherProject u check.projectId = false ∧
      db.otherCheck u id = false) (ownedCheck id u) db := by
  apply (keeps_read rfl).bind
  rintro found after ⟨rfl, hfound⟩
  cases found with
  | none => trivial
  | some check =>
      have hrow : after.findCheck id = some check := Except.ok.inj hfound
      apply (ownedProject_keeps check.projectId).bind
      rintro project _ ⟨rfl, hown⟩
      exact ⟨rfl, Table.find_key _ hrow, hown, otherCheck_of_own hrow hown⟩

theorem ownedChannel_keeps (id : Int) :
    Keeps u carried (fun channel after => after = db ∧ channel.id = id ∧ db.otherChannel u id = false)
      (ownedChannel id u) db := by
  apply (keeps_read rfl).bind
  rintro found after ⟨rfl, hfound⟩
  cases found with
  | none => trivial
  | some channel =>
      have hrow : after.findChannel id = some channel := Except.ok.inj hfound
      apply (ownedProject_keeps channel.projectId).bind
      rintro project _ ⟨rfl, hown⟩
      exact ⟨rfl, Table.find_key _ hrow, otherChannel_of_own hrow hown⟩

end Lookups

/-! ### Parts that read -/

section Reading

variable (X : Crates) (ctx : WebContext) (sid : String) (user : User)

theorem Reads.bind {A α β : Type} {program : StoreProg A α} {rest : α → StoreProg A β} (hprogram : Reads program)
    (hrest : ∀ value, Reads (rest value)) : Reads (program.bind rest) := Prog.Only.bind hprogram hrest

theorem reads_store {c : StoreCall} (hreads : c.writes = []) : Reads (store c) := store_only hreads

theorem reads_apiStore {c : StoreCall} (hreads : c.writes = []) : Reads (apiStore c) := apiStore_only hreads

theorem reads_orPanic {A α P : Type} (result : Except P α) : Reads (Prog.orPanic result : StoreProg A α) :=
  Prog.Only.orPanic result

theorem ownedProject_reads (id userId : Int) : Reads (ownedProject id userId) := by
  refine (reads_store rfl).bind fun found => ?_
  split
  · trivial
  · split <;> trivial

theorem ownedCheck_reads (id userId : Int) : Reads (ownedCheck id userId) := by
  refine (reads_store rfl).bind fun found => ?_
  split
  · trivial
  · exact (ownedProject_reads _ userId).bind fun _ => trivial

theorem ownedChannel_reads (id userId : Int) : Reads (ownedChannel id userId) := by
  refine (reads_store rfl).bind fun found => ?_
  split
  · trivial
  · exact (ownedProject_reads _ userId).bind fun _ => trivial

theorem displayAll_reads (checks : List Check) : Reads (displayAll ctx checks) := by
  induction checks with
  | nil => trivial
  | cons check rest ih => exact (reads_orPanic _).bind fun _ => ih.bind fun _ => trivial

theorem displayGroups_reads (status : String) (groups : List (Project × List Check)) :
    Reads (displayGroups ctx status groups) := by
  induction groups with
  | nil => trivial
  | cons group rest ih =>
      refine (displayAll_reads ctx _).bind fun shown => ih.bind fun others => ?_
      dsimp only
      split <;> trivial

theorem renderProjectPage_reads (project : Project) (result : Option TestResult) :
    Reads (renderProjectPage X ctx sid user project result) :=
  (reads_store rfl).bind fun _ => (reads_store rfl).bind fun _ => (displayAll_reads ctx _).bind fun _ =>
    (reads_store rfl).bind fun _ => trivial

theorem dashboard_reads (query : DashboardQuery) : Reads (dashboard X ctx sid user query) := by
  refine (reads_store rfl).bind fun count => ?_
  split
  · trivial
  · exact (reads_store rfl).bind fun _ => (reads_store rfl).bind fun _ => (reads_store rfl).bind fun _ =>
      (reads_store rfl).bind fun _ => (displayGroups_reads ctx _ _).bind fun _ => trivial

theorem buildPingsPartial_reads (checkId : Int) (query : CheckPageQuery) (recent : Option (List PingSummary)) :
    Reads (buildPingsPartial checkId query recent) := by
  refine (reads_store rfl).bind fun page => ?_
  split
  · split
    · trivial
    · exact (reads_store rfl).bind fun _ => trivial
  · trivial

theorem nextDue_reads (check : Check) : Reads (nextDue X check) := by
  unfold nextDue
  split
  · trivial
  · exact reads_orPanic _

theorem renderCheckPage_reads (viewer : CheckPageViewer) (check : Check) (query : CheckPageQuery) (flash : Option String) :
    Reads (renderCheckPage X ctx sid user viewer check query flash) := by
  refine (reads_store rfl).bind fun found => ?_
  split
  · trivial
  · exact (reads_store rfl).bind fun _ => (reads_store rfl).bind fun _ => (reads_store rfl).bind fun _ =>
      (reads_orPanic _).bind fun _ => (nextDue_reads X check).bind fun _ =>
      (buildPingsPartial_reads _ _ _).bind fun _ => (reads_store rfl).bind fun _ => trivial

theorem checkPings_reads (id : Int) (query : CheckPageQuery) : Reads (checkPings X ctx sid user id query) := by
  refine (ownedCheck_reads id user.id).bind fun check => ?_
  split
  · trivial
  · exact (buildPingsPartial_reads _ _ _).bind fun _ => trivial

theorem checkNotifications_reads (id : Int) (query : CheckPageQuery) :
    Reads (checkNotifications X ctx sid user id query) := by
  refine (ownedCheck_reads id user.id).bind fun check => ?_
  split
  · trivial
  · exact (reads_store rfl).bind fun _ => (reads_store rfl).bind fun _ => trivial

theorem displayTimezone_reads {A : Type} : Reads (displayTimezone : StoreProg A (Option String)) :=
  Reads.bind (attemptCall_only rfl) fun _ => trivial

theorem runChannelTest_reads (channel : Channel) : Reads (runChannelTest X ctx channel) := by
  refine Reads.bind (attemptCall_only rfl) fun _ => displayTimezone_reads.bind fun _ => ?_
  split
  · trivial
  · split <;> trivial

theorem channelTest_reads (id : Int) : Reads (channelTest X ctx sid user id) := by
  refine (reads_store rfl).bind fun found => ?_
  split
  · trivial
  · exact (ownedProject_reads _ user.id).bind fun _ => (runChannelTest_reads X ctx _).bind fun _ =>
      renderProjectPage_reads X ctx sid user _ _

end Reading

/-! ### Writes after a lookup -/

section Writing

variable {user : User} {carried : List String} {db : Db}

/-- A write on a project that was looked up. -/
theorem ownedProject_bind_keeps {β : Type} (id : Int) {rest : Project → StoreProg AppError β}
    (hrest : db.otherProject user.id id = false → ∀ project, Keeps user.id carried (fun _ _ => True) (rest project) db) :
    Keeps user.id carried (fun _ _ => True) ((ownedProject id user.id).bind rest) db := by
  apply (ownedProject_keeps id).bind
  rintro project _ ⟨rfl, hown⟩
  exact hrest hown project

theorem ownedCheck_bind_keeps {β : Type} (id : Int) {rest : Check → StoreProg AppError β}
    (hrest : db.otherCheck user.id id = false → ∀ check, check.id = id →
      Keeps user.id carried (fun _ _ => True) (rest check) db) :
    Keeps user.id carried (fun _ _ => True) ((ownedCheck id user.id).bind rest) db := by
  apply (ownedCheck_keeps id).bind
  rintro check _ ⟨rfl, hid, _, hown⟩
  exact hrest hown check hid

theorem ownedChannel_bind_keeps {β : Type} (id : Int) {rest : Channel → StoreProg AppError β}
    (hrest : db.otherChannel user.id id = false → ∀ channel, channel.id = id →
      Keeps user.id carried (fun _ _ => True) (rest channel) db) :
    Keeps user.id carried (fun _ _ => True) ((ownedChannel id user.id).bind rest) db := by
  apply (ownedChannel_keeps id).bind
  rintro channel _ ⟨rfl, hid, hown⟩
  exact hrest hown channel hid

/-- A new check is its project's owner's. -/
theorem otherCheck_createCheck {u : Int} {check : NewCheck} {now : Instant} {id : Int}
    (hown : db.otherProject u check.projectId = false) (hok : (exec (.createCheck check now) db).1 = .ok id) :
    (exec (.createCheck check now) db).2.otherCheck u id = false := by
  simp only [exec, Db.createCheck] at hok ⊢
  split at hok
  · cases hok
  · rename_i hproject
    split at hok
    · cases hok
    · rename_i huuid
      rw [if_neg hproject, if_neg huuid]
      cases hok
      have hnone : ((db.checks.find db.checks.next).any fun row => db.otherProject u row.projectId) = false := by
        rw [AutoTable.find_next]
        rfl
      exact (AutoTable.any_find_insert _ (by intro _; rfl) hown db.checks.next).trans hnone

theorem checkCreateCore_keeps (X : Crates) (ctx : WebContext) (sid base : String) (projectId : Int) (form : CheckForm)
    (hown : db.otherProject user.id projectId = false) :
    Keeps user.id carried (fun _ _ => True) (checkCreateCore X ctx sid user base projectId form) db := by
  unfold checkCreateCore
  split
  · exact Reads.keepsAll trivial
  · rename_i fields _
    have hcreate : Keeps user.id carried (fun id after => after.otherCheck user.id id = false)
        (store (.createCheck (fields.newCheck projectId ctx.uuid) ctx.now)) db :=
      keeps_perform hown fun id hid => otherCheck_createCheck hown hid
    exact hcreate.bind fun id after hmine => keeps_perform_bind hmine fun _ => trivial

/-- A binding call on a check. -/
def BindsOn (id : Int) (c : StoreCall) : Prop := ∃ channelId, c = .bindChannel id channelId ∨ c = .unbindChannel id channelId

theorem otherCheck_of_frame {c : StoreCall} {u id : Int} (hchecks : .checks ∉ c.writes) (hprojects : .projects ∉ c.writes)
    (db : Db) : (exec c db).2.otherCheck u id = db.otherCheck u id := by
  have h1 : (exec c db).2.checks = db.checks := exec_frame hchecks db
  have h2 : (exec c db).2.projects = db.projects := exec_frame hprojects db
  unfold Db.otherCheck Db.otherProject Db.findCheck Db.findProject
  rw [h1, h2]

theorem BindsOn.mine {u id : Int} {carried : List String} {c : StoreCall}
    (hc : BindsOn id c) {db : Db}
    (hown : db.otherCheck u id = false) : c.Mine u carried db ∧ (exec c db).2.otherCheck u id = false := by
  obtain ⟨channelId, rfl | rfl⟩ := hc
  · exact ⟨hown, (otherCheck_of_frame (by simp [StoreCall.writes]) (by simp [StoreCall.writes]) db).trans hown⟩
  · exact ⟨hown, (otherCheck_of_frame (by simp [StoreCall.writes]) (by simp [StoreCall.writes]) db).trans hown⟩

/-- The binding loops work on one check, which stays its owner's. -/
theorem forEach_keeps {A : Type} {u id : Int} {carried : List String} {db : Db} {step : Int → StoreProg A Unit}
    (hstep : ∀ channelId, (step channelId).Only (BindsOn id) fun _ => True) (ids : List Int)
    (hown : db.otherCheck u id = false) :
    Keeps u carried (fun _ after => after.otherCheck u id = false) (forEach step ids) db := by
  have honly : (forEach step ids).Only (BindsOn id) fun _ => True := by
    induction ids with
    | nil => trivial
    | cons channelId rest ih => exact (hstep channelId).bind fun _ => ih
  exact Keeps.of_only honly (fun _ _ hc => hc.mine) hown

theorem bindChannels_keeps {order : SetOrder} {check : Check} {channelIds : List Int}
    (hown : db.otherCheck user.id check.id = false) :
    Keeps user.id carried (fun _ _ => True) (bindChannels order check channelIds) db := by
  refine (reads_store rfl).keeps_bind fun channels => (reads_store rfl).keeps_bind fun current => ?_
  refine (forEach_keeps (fun id => store_only ⟨id, Or.inl rfl⟩) _ hown).bind fun _ after hafter => ?_
  exact (forEach_keeps (fun id => store_only ⟨id, Or.inr rfl⟩) _ hafter).mono (fun _ _ h => h) fun _ _ _ => trivial

end Writing

/-! ### The account page -/

section Account

variable (X : Crates) (ctx : WebContext) (sid : String) (user : User) {carried : List String} {db : Db}

/-- A call on the account of a user, or a read. -/
def OnAccount (u : Int) (c : StoreCall) : Prop := ∀ carried db, c.Mine u carried db

theorem renderAccount_only (parts : AccountRender) :
    (renderAccount X ctx sid user parts).Only (OnAccount user.id) fun _ => True :=
  (store_only fun _ _ => rfl).bind fun _ => (store_only fun _ _ => mine_of_reads rfl).bind fun _ =>
    (store_only fun _ _ => mine_of_reads rfl).bind fun _ => trivial

theorem accountPassword_only (form : ChangePasswordForm) :
    (accountPassword X ctx sid user form).Only (OnAccount user.id) fun _ => True := by
  unfold accountPassword
  split
  · trivial
  · split
    · exact renderAccount_only X ctx sid user _
    · exact renderAccount_only X ctx sid user _
    · split
      · exact renderAccount_only X ctx sid user _
      · split
        · exact renderAccount_only X ctx sid user _
        · refine Prog.Only.bind ?_ fun phc => (store_only fun _ _ => ?_).bind fun _ =>
            (store_only fun _ _ => rfl).bind fun _ => (store_only fun _ _ => ?_).bind fun _ => trivial
          · unfold hashOrFail
            split <;> trivial
          · intro t ht hwrites
            rw [List.mem_singleton.mp hwrites] at ht
            simp at ht
          · intro t ht hwrites
            rw [List.mem_singleton.mp hwrites] at ht
            simp at ht

theorem apiKeysCreate_only (form : NewApiKeyForm) :
    (apiKeysCreate X ctx sid user form).Only (OnAccount user.id) fun _ => True := by
  unfold apiKeysCreate
  split
  · exact renderAccount_only X ctx sid user _
  · exact renderAccount_only X ctx sid user _
  · dsimp only
    split
    · exact renderAccount_only X ctx sid user _
    · split
      · exact renderAccount_only X ctx sid user _
      · exact (Prog.Only.orPanic _).bind fun _ => (store_only fun _ _ => rfl).bind fun _ =>
          renderAccount_only X ctx sid user _

theorem apiKeysDelete_only (id : Int) (confirmed : Bool) :
    (apiKeysDelete X sid user id confirmed).Only (OnAccount user.id) fun _ => True := by
  unfold apiKeysDelete
  split
  · trivial
  · exact (store_only fun _ _ => rfl).bind fun _ => trivial

theorem sessionsRevoke_only (handle : String) (confirmed : Bool) :
    (sessionsRevoke X ctx sid user handle confirmed).Only (OnAccount user.id) fun _ => True := by
  refine (store_only fun _ _ => mine_of_reads rfl).bind fun sessions => ?_
  split
  · trivial
  · split
    · trivial
    · refine (store_only fun _ _ => rfl).bind fun _ => ?_
      split <;> trivial

theorem sessionsRevokeOthers_only (confirmed : Bool) :
    (sessionsRevokeOthers X sid user confirmed).Only (OnAccount user.id) fun _ => True := by
  unfold sessionsRevokeOthers
  split
  · trivial
  · exact (store_only fun _ _ => rfl).bind fun _ => trivial

theorem keeps_onAccount {program : StoreProg AppError Response} (honly : program.Only (OnAccount user.id) fun _ => True) :
    Keeps user.id carried (fun _ _ => True) program db :=
  Keeps.of_own (honly.mono (fun _ hc db => hc carried db) fun _ h => h)

end Account

/-- **Owner routes.** A handler other than the sign-out changes no row of another user. -/
theorem webHandle_keeps (X : Crates) (ctx : WebContext) (sid : String) (user : User) {route : WebRoute}
    (hroute : route ≠ .logout) {carried : List String} {db : Db} :
    Keeps user.id carried (fun _ _ => True) (webHandle X ctx sid user route) db := by
  cases route with
  | logout => exact absurd rfl hroute
  | dashboard query => exact (dashboard_reads X ctx sid user query).keepsAll
  | projectNew => exact Reads.keepsAll trivial
  | projectCreate form =>
      show Keeps user.id carried _ (projectCreate X ctx sid user form) db
      unfold projectCreate
      split
      · exact Reads.keepsAll trivial
      · exact keeps_perform_bind rfl fun _ => trivial
  | projectShow id =>
      exact ((ownedProject_reads id user.id).bind fun _ => renderProjectPage_reads X ctx sid user _ _).keepsAll
  | projectEdit id => exact Reads.keepsAll (Reads.bind (ownedProject_reads id user.id) fun _ => trivial)
  | projectUpdate id form =>
      refine ownedProject_bind_keeps id fun hown _ => ?_
      split
      · exact Reads.keepsAll trivial
      · exact keeps_perform_bind hown fun _ => trivial
  | projectDelete id confirmed =>
      refine ownedProject_bind_keeps id fun hown _ => ?_
      split
      · exact Reads.keepsAll trivial
      · exact keeps_perform_bind hown fun _ => trivial
  | checkNew projectId => exact Reads.keepsAll (Reads.bind (ownedProject_reads projectId user.id) fun _ => trivial)
  | checkCreate projectId form =>
      exact ownedProject_bind_keeps projectId fun hown _ => checkCreateCore_keeps X ctx sid "" projectId form hown
  | checkShow id query =>
      exact ((ownedCheck_reads id user.id).bind fun _ => renderCheckPage_reads X ctx sid user _ _ _ _).keepsAll
  | checkPings id query => exact (checkPings_reads X ctx sid user id query).keepsAll
  | checkEvents id => exact Reads.keepsAll (Reads.bind (ownedCheck_reads id user.id) fun _ => trivial)
  | checkNotifications id query => exact (checkNotifications_reads X ctx sid user id query).keepsAll
  | checkEdit id => exact Reads.keepsAll (Reads.bind (ownedCheck_reads id user.id) fun _ => trivial)
  | checkUpdate id form =>
      refine ownedCheck_bind_keeps id fun hown _ _ => ?_
      unfold checkUpdateCore
      split
      · exact Reads.keepsAll trivial
      · exact keeps_perform_bind hown fun _ => trivial
  | checkPause id => exact ownedCheck_bind_keeps id fun hown _ _ => keeps_perform_bind hown fun _ => trivial
  | checkResume id => exact ownedCheck_bind_keeps id fun hown _ _ => keeps_perform_bind hown fun _ => trivial
  | checkAck id => exact ownedCheck_bind_keeps id fun hown _ _ => keeps_perform_bind hown fun _ => trivial
  | checkRegenerate id confirmed =>
      refine ownedCheck_bind_keeps id fun hown _ _ => ?_
      split
      · exact Reads.keepsAll trivial
      · exact keeps_perform_bind hown fun _ => trivial
  | checkDelete id confirmed =>
      refine ownedCheck_bind_keeps id fun hown _ _ => ?_
      split
      · exact Reads.keepsAll trivial
      · exact keeps_perform_bind hown fun _ => trivial
  | checkSetChannels id channelIds =>
      refine ownedCheck_bind_keeps id fun hown check hid => ?_
      exact (bindChannels_keeps (hid ▸ hown)).bind fun _ _ _ => trivial
  | channelNew projectId => exact Reads.keepsAll (Reads.bind (ownedProject_reads projectId user.id) fun _ => trivial)
  | channelCreate projectId form =>
      refine ownedProject_bind_keeps projectId fun hown _ => ?_
      unfold channelCreateCore
      split
      · exact Reads.keepsAll trivial
      · exact keeps_perform_bind hown fun _ => trivial
  | channelEdit id => exact Reads.keepsAll (Reads.bind (ownedChannel_reads id user.id) fun _ => trivial)
  | channelUpdate id form =>
      refine ownedChannel_bind_keeps id fun hown channel hid => ?_
      unfold channelUpdateCore
      split
      · exact Reads.keepsAll trivial
      · exact keeps_perform_bind (hid ▸ hown) fun _ => trivial
  | channelDelete id => exact ownedChannel_bind_keeps id fun hown _ _ => keeps_perform_bind hown fun _ => trivial
  | channelTest id => exact (channelTest_reads X ctx sid user id).keepsAll
  | accountPage => exact keeps_onAccount user (renderAccount_only X ctx sid user _)
  | accountPassword form => exact keeps_onAccount user (accountPassword_only X ctx sid user form)
  | apiKeysCreate form => exact keeps_onAccount user (apiKeysCreate_only X ctx sid user form)
  | apiKeysDelete id confirmed => exact keeps_onAccount user (apiKeysDelete_only X sid user id confirmed)
  | sessionsRevoke handle confirmed => exact keeps_onAccount user (sessionsRevoke_only X ctx sid user handle confirmed)
  | sessionsRevokeOthers confirmed => exact keeps_onAccount user (sessionsRevokeOthers_only X sid user confirmed)

/-! ### `/api/v1` -/

section Api

variable (X : Crates) (ctx : ApiContext) (user : User) {carried : List String} {db : Db}

theorem okOr_keeps {α : Type} {u : Int} (error : ApiError) (row : Option α) :
    Keeps u carried (fun value after => after = db ∧ row = some value) (okOr error row) db := by
  cases row with
  | none => trivial
  | some value => exact ⟨rfl, rfl⟩

/-- Without the admin flag a lookup that succeeds found the caller's own. -/
theorem resolveOwned_keeps {α : Type} {user : User} (hadmin : user.isAdmin = false) (method targetType : String)
    (targetId : Int) (owner : Option Int) (row : α) :
    Keeps user.id carried (fun value after => after = db ∧ value = row ∧ owner = some user.id)
      (resolveOwned ctx user method targetType targetId owner row) db := by
  unfold resolveOwned
  split
  · rename_i howner
    exact ⟨rfl, rfl, howner⟩
  · rw [hadmin]
    exact trivial

theorem otherProject_of_owner {u id : Int} (howner : (db.findProject id).map Project.userId = some u) :
    db.otherProject u id = false := by
  obtain ⟨project, hproject, hu⟩ := Option.map_eq_some_iff.mp howner
  exact otherProject_of_own hproject hu

variable {user}

theorem resolveProject_keeps (hadmin : user.isAdmin = false) (method : String) (id : Int) :
    Keeps user.id carried (fun project after => after = db ∧ project.id = id ∧ db.otherProject user.id id = false)
      (resolveProject ctx user method id) db := by
  apply (keeps_read rfl).bind
  rintro found after ⟨rfl, hfound⟩
  apply (okOr_keeps _ found).bind
  rintro project after' ⟨rfl, rfl⟩
  have hrow : after'.findProject id = some project := Except.ok.inj hfound
  refine (resolveOwned_keeps ctx hadmin method "project" project.id (some project.userId) project).mono
    (fun _ _ h => h) ?_
  rintro value after ⟨rfl, rfl, howner⟩
  exact ⟨rfl, Table.find_key _ hrow, otherProject_of_own hrow (Option.some.inj howner)⟩

/-- A row found by its id is the caller's own when the owner of its project is the caller. -/
theorem resolveRow_keeps {ρ : Type} {find : StoreProg ApiError (Option ρ)} {found : Option ρ} {projectId rowId : ρ → Int}
    {targetType : String} (hadmin : user.isAdmin = false) (method : String)
    (hfind : Keeps user.id carried (fun value after => after = db ∧ value = found) find db) :
    Keeps user.id carried
      (fun row after => after = db ∧ found = some row ∧ db.otherProject user.id (projectId row) = false)
      (find.bind fun found => (okOr .notFound found).bind fun row =>
        (apiStore (.findProject (projectId row))).bind fun project =>
          resolveOwned ctx user method targetType (rowId row) (project.map Project.userId) row) db := by
  apply hfind.bind
  rintro value after ⟨rfl, rfl⟩
  apply (okOr_keeps _ value).bind
  rintro row after' ⟨rfl, rfl⟩
  apply (keeps_read rfl).bind
  rintro project _ ⟨rfl, hproject⟩
  apply (resolveOwned_keeps ctx hadmin method targetType (rowId row) _ row).mono (fun _ _ h => h)
  rintro value after ⟨rfl, rfl, howner⟩
  rw [← Except.ok.inj hproject] at howner
  exact ⟨rfl, rfl, otherProject_of_owner howner⟩

theorem resolveCheck_keeps (hadmin : user.isAdmin = false) (method : String) (id : Int) :
    Keeps user.id carried (fun check after => after = db ∧ check.id = id ∧ db.otherCheck user.id id = false)
      (resolveCheck ctx user method id) db := by
  have hfind : Keeps user.id carried (fun value after => after = db ∧ value = db.findCheck id)
      (apiStore (.findCheck id)) db :=
    (keeps_read rfl).mono (fun _ _ h => h) fun _ _ hread => ⟨hread.1, (Except.ok.inj hread.2).symm⟩
  apply (resolveRow_keeps ctx hadmin method hfind).mono (fun _ _ h => h)
  rintro check _ ⟨rfl, hrow, hown⟩
  exact ⟨rfl, Table.find_key _ hrow, otherCheck_of_own hrow hown⟩

theorem resolveChannel_keeps (hadmin : user.isAdmin = false) (method : String) (id : Int) :
    Keeps user.id carried (fun channel after => after = db ∧ channel.id = id ∧ db.otherChannel user.id id = false)
      (resolveChannel ctx user method id) db := by
  have hfind : Keeps user.id carried (fun value after => after = db ∧ value = db.findChannel id)
      (apiStore (.findChannel id)) db :=
    (keeps_read rfl).mono (fun _ _ h => h) fun _ _ hread => ⟨hread.1, (Except.ok.inj hread.2).symm⟩
  apply (resolveRow_keeps ctx hadmin method hfind).mono (fun _ _ h => h)
  rintro channel _ ⟨rfl, hrow, hown⟩
  exact ⟨rfl, Table.find_key _ hrow, otherChannel_of_own hrow hown⟩

theorem okOr_reads {α : Type} (error : ApiError) (row : Option α) : Reads (okOr error row) := okOr_only error row

theorem orBadRequest_reads {α : Type} (result : Except String α) : Reads (orBadRequest result) := orBadRequest_only result

/-- A call that leaves the audit log alone. -/
def NoAudit (c : StoreCall) : Prop := .auditLog ∉ c.writes

theorem Reads.noAudit {A α : Type} {program : StoreProg A α} (hreads : Reads program) :
    program.Only NoAudit fun _ => True :=
  hreads.mono (fun c hc => by rw [NoAudit, hc]; exact List.not_mem_nil) fun _ h => h

/-- What follows a lookup: a program that never audits and, from a state in which the resource is the
user's, stays within the user's rows. -/
structure Contained {β : Type} (user : User) (carried : List String) (own : Db → Prop) (program : StoreProg ApiError β) :
    Prop where
  keeps : ∀ db, own db → Keeps user.id carried (fun _ _ => True) program db
  audits : program.Only NoAudit fun _ => True

section Contained

variable {β : Type} {own : Db → Prop}

theorem Contained.reads {program : StoreProg ApiError β} (hreads : Reads program) : Contained user carried own program :=
  ⟨fun _ _ => hreads.keepsAll, hreads.noAudit⟩

theorem Contained.reads_bind {α : Type} {program : StoreProg ApiError α} {rest : α → StoreProg ApiError β}
    (hreads : Reads program) (hrest : ∀ value, Contained user carried own (rest value)) :
    Contained user carried own (program.bind rest) :=
  ⟨fun db hown => hreads.keeps_bind fun value => (hrest value).keeps db hown,
    hreads.noAudit.bind fun value => (hrest value).audits⟩

/-- A write on the resource, and what only reads after it. -/
theorem Contained.write {c : StoreCall} {rest : c.Res → StoreProg ApiError β}
    (hmine : ∀ db, own db → c.Mine user.id carried db) (haudit : NoAudit c) (hrest : ∀ value, Reads (rest value)) :
    Contained user carried own ((apiStore c).bind rest) :=
  ⟨fun db hown => keeps_perform_bind (hmine db hown) hrest,
    (apiStore_only haudit).bind fun value => (hrest value).noAudit⟩

end Contained

/-- How a handler of `/api/v1` is built: from calls on the caller's account, or from the lookup of the
resource its path names and what is contained by it. A body is deserialised first. -/
inductive ApiShape (ctx : ApiContext) (user : User) (carried : List String) :
    Option Address → StoreProg ApiError ApiResponse → Prop where
  | account {program} (hown : program.Only (OnAccount user.id) fun _ => True)
      (haudit : program.Only NoAudit fun _ => True) : ApiShape ctx user carried none program
  | body {α : Type} {address} (input : Except String α) {rest}
      (hrest : ∀ value, ApiShape ctx user carried address (rest value)) :
      ApiShape ctx user carried address ((orBadRequest input).bind rest)
  | project (method : String) (id : Int) {rest}
      (hrest : ∀ project, Contained user carried (fun db => db.otherProject user.id id = false) (rest project)) :
      ApiShape ctx user carried (some (.project id)) ((resolveProject ctx user method id).bind rest)
  | check (method : String) (id : Int) {rest}
      (hrest : ∀ check, Contained user carried (fun db => db.otherCheck user.id id = false) (rest check)) :
      ApiShape ctx user carried (some (.check id)) ((resolveCheck ctx user method id).bind rest)
  | channel (method : String) (id : Int) {rest}
      (hrest : ∀ channel, Contained user carried (fun db => db.otherChannel user.id id = false) (rest channel)) :
      ApiShape ctx user carried (some (.channel id)) ((resolveChannel ctx user method id).bind rest)

theorem forEach_noAudit {A : Type} {step : Int → StoreProg A Unit} (hstep : ∀ id, (step id).Only NoAudit fun _ => True)
    (ids : List Int) : (forEach step ids).Only NoAudit fun _ => True := by
  induction ids with
  | nil => trivial
  | cons id rest ih => exact (hstep id).bind fun _ => ih

/-- Show a row again after a write. -/
theorem reload_reads {α : Type} {c : StoreCall} (hreads : c.writes = []) {pick : c.Res → Option α} {error : ApiError}
    {shown : α → ApiResponse} :
    Reads ((apiStore c).bind fun found => (okOr error (pick found)).bind fun row => .ret (shown row)) :=
  (reads_apiStore hreads).bind fun _ => (okOr_reads _ _).bind fun _ => trivial

/-- Show rows without a write. -/
theorem show_contained {own : Db → Prop} {c : StoreCall} (hreads : c.writes = []) {shown : c.Res → ApiResponse} :
    Contained user carried own ((apiStore c).bind fun rows => .ret (shown rows)) :=
  .reads ((reads_apiStore hreads).bind fun _ => trivial)

variable {ctx}

theorem setCheckChannels_shape (id : Int) (channelIds : List Int) :
    ApiShape ctx user carried (some (.check id)) (V1.setCheckChannels ctx user id channelIds) := by
  refine .check "PUT" id fun check => .reads_bind (reads_apiStore rfl) fun channels =>
    .reads_bind (reads_apiStore rfl) fun current => ⟨fun db hown => ?_, ?_⟩
  · refine (forEach_keeps (fun id => apiStore_only ⟨id, Or.inl rfl⟩) _ hown).bind fun _ after hafter => ?_
    refine (forEach_keeps (fun id => apiStore_only ⟨id, Or.inr rfl⟩) _ hafter).bind fun _ _ _ => ?_
    exact Reads.keepsAll (Reads.bind (reads_apiStore rfl) fun _ => trivial)
  · refine (forEach_noAudit (fun id => apiStore_only (by simp [NoAudit, StoreCall.writes])) _).bind fun _ => ?_
    refine (forEach_noAudit (fun id => apiStore_only (by simp [NoAudit, StoreCall.writes])) _).bind fun _ => ?_
    exact (reads_apiStore rfl).noAudit.bind fun _ => trivial

theorem createCheck_shape (projectId : Int) (input : CheckInput) :
    ApiShape ctx user carried (some (.project projectId)) (V1.createCheck X ctx user projectId input) := by
  refine .project "POST" projectId fun _ => .reads_bind (orBadRequest_reads _) fun fields => ⟨fun db hown => ?_, ?_⟩
  · have hcreate : Keeps user.id carried (fun id after => after.otherCheck user.id id = false)
        (apiStore (.createCheck (fields.newCheck projectId ctx.uuid) ctx.now)) db :=
      keeps_perform hown fun id hid => otherCheck_createCheck hown hid
    exact hcreate.bind fun id after hmine => keeps_perform_bind hmine fun _ => reload_reads rfl
  · refine (apiStore_only (by simp [NoAudit, StoreCall.writes])).bind fun id => ?_
    refine (apiStore_only (by simp [NoAudit, StoreCall.writes])).bind fun _ => ?_
    exact Reads.noAudit (reload_reads rfl)

/-- Every handler of `/api/v1` has the shape, about the resource its path names. -/
theorem apiHandle_shape (route : ApiRoute) : ApiShape ctx user carried route.address (apiHandle X ctx user route) := by
  cases route with
  | listProjects =>
      exact .account ((apiStore_only fun _ _ => mine_of_reads rfl).bind fun _ => trivial)
        (Reads.noAudit (Reads.bind (reads_apiStore rfl) fun _ => trivial))
  | createProject body =>
      refine .body body fun input => .account ?_ ?_
      · exact (orBadRequest_only _).bind fun settings => (apiStore_only fun _ _ => rfl).bind fun _ =>
          (apiStore_only fun _ _ => mine_of_reads rfl).bind fun _ => (okOr_only _ _).bind fun _ => trivial
      · exact (orBadRequest_only _).bind fun settings => (apiStore_only (by simp [NoAudit, StoreCall.writes])).bind fun _ =>
          Reads.noAudit (reload_reads rfl)
  | getProject id => exact .project "GET" id fun _ => .reads trivial
  | updateProject id body =>
      refine .body body fun input => .project "PATCH" id fun _ => .reads_bind (orBadRequest_reads _) fun settings => ?_
      exact .write (fun _ hown => hown) (by simp [NoAudit, StoreCall.writes]) fun _ => reload_reads rfl
  | deleteProject id =>
      exact .project "DELETE" id fun _ => .write (fun _ hown => hown) (by simp [NoAudit, StoreCall.writes]) fun _ => trivial
  | listProjectChecks id => exact .project "GET" id fun _ => show_contained rfl
  | createCheck projectId body => exact .body body fun input => createCheck_shape X projectId input
  | listProjectChannels id => exact .project "GET" id fun _ => show_contained rfl
  | createChannel projectId body =>
      refine .body body fun form => .project "POST" projectId fun _ => .reads_bind (orBadRequest_reads _) fun parts => ?_
      exact .write (fun _ hown => hown) (by simp [NoAudit, StoreCall.writes]) fun _ => reload_reads rfl
  | getCheck id => exact .check "GET" id fun _ => .reads trivial
  | updateCheck id body =>
      refine .body body fun input => .check "PATCH" id fun _ => .reads_bind (orBadRequest_reads _) fun fields => ?_
      exact .write (fun _ hown => hown) (by simp [NoAudit, StoreCall.writes]) fun _ => reload_reads rfl
  | deleteCheck id =>
      exact .check "DELETE" id fun _ => .write (fun _ hown => hown) (by simp [NoAudit, StoreCall.writes]) fun _ => trivial
  | listCheckPings id params => exact .check "GET" id fun _ => show_contained rfl
  | listCheckNotifications id params => exact .check "GET" id fun _ => show_contained rfl
  | pauseCheck id =>
      exact .check "POST" id fun _ =>
        .write (fun _ hown => hown) (by simp [NoAudit, StoreCall.writes]) fun _ => reload_reads rfl
  | resumeCheck id =>
      exact .check "POST" id fun _ =>
        .write (fun _ hown => hown) (by simp [NoAudit, StoreCall.writes]) fun _ => reload_reads rfl
  | ackCheck id =>
      exact .check "POST" id fun _ =>
        .write (fun _ hown => hown) (by simp [NoAudit, StoreCall.writes]) fun _ => reload_reads rfl
  | regenerateCheck id =>
      exact .check "POST" id fun _ =>
        .write (fun _ hown => hown) (by simp [NoAudit, StoreCall.writes]) fun _ => reload_reads rfl
  | setCheckChannels id body => exact .body body fun channelIds => setCheckChannels_shape id channelIds
  | getChannel id => exact .channel "GET" id fun _ => .reads trivial
  | updateChannel id body =>
      refine .body body fun form => .channel "PATCH" id fun _ => .reads_bind (orBadRequest_reads _) fun parts => ?_
      exact .write (fun _ hown => hown) (by simp [NoAudit, StoreCall.writes]) fun _ => reload_reads rfl
  | deleteChannel id =>
      exact .channel "DELETE" id fun _ => .write (fun _ hown => hown) (by simp [NoAudit, StoreCall.writes]) fun _ => trivial
  | listKeys =>
      exact .account ((apiStore_only fun _ _ => mine_of_reads rfl).bind fun _ => trivial)
        (Reads.noAudit (Reads.bind (reads_apiStore rfl) fun _ => trivial))

/-- **API routes.** A handler acting for a caller without the admin flag changes no row of another user. -/
theorem ApiShape.keeps {address : Option Address} {program : StoreProg ApiError ApiResponse}
    (hshape : ApiShape ctx user carried address program) (hadmin : user.isAdmin = false) :
    Keeps user.id carried (fun _ _ => True) program db := by
  induction hshape with
  | account hown haudit => exact Keeps.of_own (hown.mono (fun _ hc db => hc carried db) fun _ h => h)
  | body input hrest ih => exact (orBadRequest_reads input).keeps_bind ih
  | project method id hrest =>
      apply (resolveProject_keeps ctx hadmin method id).bind
      rintro project _ ⟨rfl, _, hown⟩
      exact (hrest project).keeps _ hown
  | check method id hrest =>
      apply (resolveCheck_keeps ctx hadmin method id).bind
      rintro check _ ⟨rfl, _, hown⟩
      exact (hrest check).keeps _ hown
  | channel method id hrest =>
      apply (resolveChannel_keeps ctx hadmin method id).bind
      rintro channel _ ⟨rfl, _, hown⟩
      exact (hrest channel).keeps _ hown

end Api

end Pingward
