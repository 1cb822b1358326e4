import Pingward.AuditOrder
import Pingward.StoreIntact

/-! Deleting a user. The cascades take exactly what is the user's, and what is gone stays gone: no later row names the
user, whatever runs beside each other. -/

open KeyedTable StoreProgram

namespace Pingward

/-! ### Whose a row is -/

namespace Db

/-- The database without the rows of a user. -/
structure Erased (userId : Int) (before after : Db) : Prop where
  users : after.users.rows = before.users.rows.filter fun row => row.id ≠ userId
  projects : after.projects.rows = before.projects.rows.filter fun row => row.userId ≠ userId
  checks : after.checks.rows = before.checks.rows.filter fun row => before.projectOwner row.projectId ≠ some userId
  channels : after.channels.rows = before.channels.rows.filter fun row => before.projectOwner row.projectId ≠ some userId
  bindings : after.checkChannels.rows = before.checkChannels.rows.filter fun row =>
    before.ownerOf (.check row.checkId) ≠ some userId ∧ before.ownerOf (.channel row.channelId) ≠ some userId
  pings : after.pings.rows = before.pings.rows.filter fun row => before.ownerOf (.check row.checkId) ≠ some userId
  notifications : after.notifications.rows = before.notifications.rows.filter fun row =>
    before.ownerOf (.check row.checkId) ≠ some userId ∧ before.ownerOf (.channel row.channelId) ≠ some userId
  sessions : after.sessions.rows = before.sessions.rows.filter fun row => row.userId ≠ userId
  apiKeys : after.apiKeys.rows = before.apiKeys.rows.filter fun row => row.userId ≠ userId
  settings : after.settings = before.settings
  auditLog : after.auditLog = before.auditLog

/-- Nobody has the id, and nothing is his. -/
structure Forgot (db : Db) (userId : Int) : Prop where
  user : db.users.find userId = none
  estate : ∀ address, db.ownerOf address ≠ some userId
  sessions : ∀ row ∈ db.sessions.rows, row.userId ≠ userId
  apiKeys : ∀ row ∈ db.apiKeys.rows, row.userId ≠ userId

end Db

/-! ### The cascade is the ownership -/

section Cascade

variable (db : Db) (userId : Int)

theorem gone_project (id : Int) :
    (db.projects.rows.any fun row => decide (row.userId = userId) ∧ row.id = id) =
      decide (db.projectOwner id = some userId) := by
  rw [Table.any_key]
  unfold Db.projectOwner Db.findProject
  cases db.projects.find id with
  | none => rfl
  | some row => simp

theorem gone_check (id : Int) :
    (db.checks.rows.any fun row => decide (db.projectOwner row.projectId = some userId) ∧ row.id = id) =
      decide (db.ownerOf (.check id) = some userId) := by
  rw [Table.any_key, Bool.eq_iff_iff, Option.any_eq_true, decide_eq_true_iff]
  simp only [decide_eq_true_eq]
  exact Option.bind_eq_some_iff.symm

theorem gone_channel (id : Int) :
    (db.channels.rows.any fun row => decide (db.projectOwner row.projectId = some userId) ∧ row.id = id) =
      decide (db.ownerOf (.channel id) = some userId) := by
  rw [Table.any_key, Bool.eq_iff_iff, Option.any_eq_true, decide_eq_true_iff]
  simp only [decide_eq_true_eq]
  exact Option.bind_eq_some_iff.symm

/-- The projects of a user go with what is in them. -/
theorem deleteUserProjects :
    (db.deleteProjectsWhere fun row => row.userId = userId) =
      { (db.deleteChecksWhere fun row => db.projectOwner row.projectId = some userId).deleteChannelsWhere
          (fun row => db.projectOwner row.projectId = some userId) with
        projects := db.projects.deleteWhere fun row => row.userId = userId } := by
  unfold Db.deleteProjectsWhere
  simp only [gone_project]

/-- Two deletes in turn keep what neither takes. -/
theorem filter_neither {ρ : Type} {rows : List ρ} {p q : ρ → Prop} [DecidablePred p] [DecidablePred q] {first second : ρ → Bool}
    (hfirst : ∀ row, first row = decide (p row)) (hsecond : ∀ row, second row = decide (q row)) :
    (rows.filter fun row => !first row).filter (fun row => !second row) = rows.filter fun row => ¬ p row ∧ ¬ q row := by
  rw [List.filter_filter]
  apply List.filter_congr
  intro row _
  rw [hfirst, hsecond, Bool.decide_and, Bool.and_comm, decide_not, decide_not]

theorem filter_not {ρ : Type} {rows : List ρ} {p : ρ → Prop} [DecidablePred p] {test : ρ → Bool}
    (htest : ∀ row, test row = decide (p row)) : rows.filter (fun row => !test row) = rows.filter fun row => ¬ p row := by
  apply List.filter_congr
  intro row _
  rw [htest, decide_not]

/-- The cascade of a user's delete takes the rows that are the user's. -/
theorem deleteUser_erased : db.Erased userId (db.deleteUser userId) := by
  have hcheck (id : Int) := gone_check db userId id
  have hchannel (id : Int) := gone_channel db userId id
  unfold Db.deleteUser
  rw [deleteUserProjects]
  constructor
  case users => exact filter_not fun _ => rfl
  case projects => exact filter_not fun _ => rfl
  case checks => exact filter_not fun _ => rfl
  case channels => exact filter_not fun _ => rfl
  case bindings => exact filter_neither (fun row => hcheck row.checkId) fun row => hchannel row.channelId
  case pings => exact filter_not fun row => hcheck row.checkId
  case notifications => exact filter_neither (fun row => hcheck row.checkId) fun row => hchannel row.channelId
  case sessions => exact filter_not fun _ => rfl
  case apiKeys => exact filter_not fun _ => rfl
  case settings => rfl
  case auditLog => rfl

end Cascade

/-! ### A user who is gone -/

theorem exec_later_users (c : StoreCall) (db : Db) : AutoTable.Later User.username db.users (exec c db).2.users := by
  by_cases hwrites : .users ∈ c.writes
  · cases c
    case createUser username hash isAdmin now =>
      simp only [exec, Db.createUser]
      split
      · exact .refl _
      · simp only [commit]
        exact AutoTable.later_insert _ _ fun _ => rfl
    case deleteUser id => exact AutoTable.later_deleteWhere _ _
    all_goals first | exact AutoTable.later_update _ _ fun _ => rfl | simp [StoreCall.writes] at hwrites
  · have hsame : (exec c db).2.users = db.users := exec_frame hwrites db
    rw [hsame]
    exact .refl _

theorem execPrune_users (c : PruneCall) (db : Db) : (execPrune c db).2.users = db.users := by
  cases c <;> rfl

section Intact

variable {db : Db} {userId : Int}

/-- In an intact database a user who is gone has nothing. -/
theorem Db.Intact.forgot (hintact : db.Intact) (hgone : db.users.find userId = none) : db.Forgot userId := by
  have hkey : userId ∉ db.users.keys := by
    intro hin
    obtain ⟨row, hrow, hid⟩ := List.mem_map.mp hin
    exact db.users.find_eq_none_iff.mp hgone row hrow hid
  have hproject (id : Int) : db.projectOwner id ≠ some userId := by
    intro howner
    obtain ⟨row, hfind, heq⟩ := Option.map_eq_some_iff.mp howner
    exact hkey (heq ▸ hintact.projectUsers row (db.projects.find_mem hfind))
  refine ⟨hgone, ?_, ?_, ?_⟩
  · intro address howner
    cases address with
    | project id => exact hproject id howner
    | check id =>
        obtain ⟨row, -, hrow⟩ := Option.bind_eq_some_iff.mp howner
        exact hproject row.projectId hrow
    | channel id =>
        obtain ⟨row, -, hrow⟩ := Option.bind_eq_some_iff.mp howner
        exact hproject row.projectId hrow
    | apiKey id => cases howner
    | session id => cases howner
  · intro row hrow heq
    exact hkey (heq ▸ hintact.sessionUsers row hrow)
  · intro row hrow heq
    exact hkey (heq ▸ hintact.keyUsers row hrow)

end Intact

/-! ### The law -/

section Runs

variable {ι E : Type} [DecidableEq ι] {allowed : HistoryConfig ι E → ι → Prop}

/-- Whatever runs, the store stays intact, and the users' ids are not given out again. -/
theorem intact_reach {start cfg : HistoryConfig ι E} (hintact : start.state.Intact)
    (hreach : Reach (execBoth exec execPrune) allowed start cfg) :
    cfg.state.Intact ∧ AutoTable.Later User.username start.state.users cfg.state.users := by
  refine hreach.invariant _ (fun cfg => cfg.state.Intact ∧ AutoTable.Later User.username start.state.users cfg.state.users)
    ⟨hintact, .refl _⟩ ?_
  intro cfg cfg' i hinv _ hstep
  obtain ⟨hkept, hlater⟩ := hinv
  rcases Config.advance_cases _ hstep with ⟨event, next, -, rfl⟩ | ⟨c, next, -, rfl⟩
  · exact ⟨hkept, hlater⟩
  · cases c with
    | inl c => exact ⟨exec_intact c hkept, hlater.trans (exec_later_users c cfg.state)⟩
    | inr c =>
        have husers : (execBoth exec execPrune (.inr c) cfg.state).2.users = cfg.state.users := execPrune_users c cfg.state
        exact ⟨execPrune_intact c hkept, husers ▸ hlater⟩

/-- **A deleted user is forgotten.** Whatever programs run beside each other and the prune, the store stays intact;
deleting a user takes exactly the rows that are his, down to the pings of his checks; and from then on no row is his and
nobody gets his id. -/
theorem deleted_user_forgotten {start middle cfg : HistoryConfig ι E} (hintact : start.state.Intact)
    (hfirst : Reach (execBoth exec execPrune) allowed start middle)
    (hsecond : Reach (execBoth exec execPrune) allowed middle cfg) (userId : Int) :
    cfg.state.Intact ∧ middle.state.Erased userId (exec (.deleteUser userId) middle.state).2 ∧
      (userId ∈ middle.state.users.keys → (exec (.deleteUser userId) middle.state).2.users.Retired userId) ∧
      (middle.state.users.Retired userId → cfg.state.Forgot userId) := by
  obtain ⟨hkept, hlater⟩ := intact_reach (intact_reach hintact hfirst).1 hsecond
  refine ⟨hkept, deleteUser_erased _ userId, ?_, fun hretired => hkept.forgot (hretired.later hlater).gone⟩
  intro hkey
  obtain ⟨row, hrow, rfl⟩ := List.mem_map.mp hkey
  exact AutoTable.retired_deleteWhere middle.state.users hrow (decide_eq_true rfl)

end Runs

/-- The delete of a user. -/
def deleting (userId : Int) : Prog StoreCall StoreCall.Res StoreError Empty Unit Unit :=
  .call (.deleteUser userId) fun _ => .ret ()

theorem Db.sample_intact : Db.sample.Intact := by
  have hsteps (calls : List StoreCall) {db : Db} (hintact : db.Intact) :
      (calls.foldl (fun db c => (exec c db).2) db).Intact := by
    induction calls generalizing db with
    | nil => exact hintact
    | cons c rest ih => exact ih (exec_intact c hintact)
  exact hsteps _ Db.empty_intact

/-- A user is deleted in front of a ping of his check. -/
theorem deleted_user_forgotten_pinged :
    let pool : Bool → HistoryProg Empty := fun i => if i then (pingAt 50).lift else (deleting 1).lift
    ∃ cfg, Reach (execBoth exec execPrune) (fun _ _ => True) (Config.init pool Db.sample) cfg ∧ cfg.state.Forgot 1 ∧
      cfg.state.Intact := by
  intro pool
  obtain ⟨cfg, hreach, hgone⟩ := exists_reach (execBoth exec execPrune) (fun _ _ _ => trivial : ∀ _ _, true = true → True)
    [false, true]
    (show ((Config.init pool Db.sample).advanceWhen (execBoth exec execPrune) (fun _ _ => true) [false, true]).any
      (fun cfg => decide (1 < cfg.state.users.next) && (cfg.state.users.find 1).isNone) = true by decide +kernel)
  rw [Bool.and_eq_true, decide_eq_true_eq, Option.isNone_iff_eq_none] at hgone
  obtain ⟨hintact, -, -, hforgot⟩ := deleted_user_forgotten Db.sample_intact hreach .refl 1
  exact ⟨cfg, hreach, hforgot ⟨hgone.1, hgone.2⟩, hintact⟩

end Pingward
