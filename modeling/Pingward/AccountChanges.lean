import Pingward.AuditOrder

/-! The administrator's actions on accounts and settings are chains of separate writes, with the audit row
last. Each is whole wherever the store starts to fail, except between its first change and its audit row;
the condition is exact. -/

open KeyedTable StoreProgram

namespace Pingward

/-! ### Whole actions -/

/-- The rows of the four account tables. -/
def Db.accounts (db : Db) : List User × List Setting × List Session × List ApiKey :=
  (db.users.rows, db.settings.rows, db.sessions.rows, db.apiKeys.rows)

/-- With the store failing from the `k`-th call on, no account row has changed, or every change of the
successful run is there and so is its audit row. -/
def AllOrNothing {A α : Type} (error : StoreError) (k : Nat) (program : StoreProg A α) (db : Db) : Prop :=
  (Prog.stoppedAt exec error k program db).accounts = db.accounts ∨
    (Prog.stoppedAt exec error k program db).accounts = (run exec program db).state.accounts ∧
      (Prog.stoppedAt exec error k program db).auditLog.rows = (run exec program db).state.auditLog.rows

/-- The database after some calls. -/
def Db.applied (db : Db) (queries : List StoreCall) : Db := queries.foldl (fun db c => (exec c db).2) db

section Applied

variable {db : Db} {queries : List StoreCall}

theorem applied_of_reads (hreads : ∀ c ∈ queries, c.writes = []) : db.applied queries = db := by
  induction queries with
  | nil => rfl
  | cons c rest ih =>
      have hhead : (exec c db).2 = db := exec_reads (hreads c (by simp)) db
      show Db.applied (exec c db).2 rest = db
      rw [hhead]
      exact ih fun other hother => hreads other (by simp [hother])

theorem applied_frame {t : TableName} (hwrites : ∀ c ∈ queries, t ∉ c.writes) : db.Agree (db.applied queries) t := by
  induction queries generalizing db with
  | nil => exact .refl db t
  | cons c rest ih =>
      have hhead : db.Agree (exec c db).2 t := exec_frame (hwrites c (by simp)) db
      have hrest : (exec c db).2.Agree (Db.applied (exec c db).2 rest) t :=
        ih fun other hother => hwrites other (by simp [hother])
      cases t <;> exact Eq.trans hrest hhead

end Applied

section Rules

variable {A α : Type} {error : StoreError} {k : Nat} {program : StoreProg A α} {db : Db}

theorem stoppedAt_applied : Prog.stoppedAt exec error k program db = db.applied ((calls exec program db).take k) :=
  Prog.stoppedAt_eq_foldl exec error k program db

theorem run_applied : (run exec program db).state = db.applied (calls exec program db) :=
  run_state_eq_foldl exec program db

theorem allOrNothing_of_reads (hreads : ∀ c ∈ calls exec program db, c.writes = []) : AllOrNothing error k program db := by
  refine Or.inl ?_
  rw [stoppedAt_applied, applied_of_reads fun c hc => hreads c (List.mem_of_mem_take hc)]

/-- The lookups in front of an action change nothing. -/
theorem allOrNothing_cons {β : Type} {next : StoreProg A β} (reads : List StoreCall)
    (hcalls : calls exec program db = reads ++ calls exec next db) (hreads : ∀ c ∈ reads, c.writes = []) :
    AllOrNothing error k program db ↔ AllOrNothing error (k - reads.length) next db := by
  have hstopped : Prog.stoppedAt exec error k program db = Prog.stoppedAt exec error (k - reads.length) next db := by
    rw [stoppedAt_applied, stoppedAt_applied, hcalls, List.take_append, Db.applied, List.foldl_append]
    congr 1
    exact applied_of_reads fun c hc => hreads c (List.mem_of_mem_take hc)
  have hrun : (run exec program db).state = (run exec next db).state := by
    rw [run_applied, run_applied, hcalls, Db.applied, List.foldl_append]
    congr 1
    exact applied_of_reads hreads
  rw [AllOrNothing, AllOrNothing, hstopped, hrun]

/-- Some writes, the audit row, and reads: whole before the first change and after the audit. -/
theorem allOrNothing_audited (writes : List StoreCall) {tail : List StoreCall} {entry : NewAudit} {now : Instant}
    (hcalls : calls exec program db = writes ++ .recordAudit entry now :: tail) (hwrites : ∀ c ∈ writes, NoAudit c)
    (htail : ∀ c ∈ tail, c.writes = []) :
    AllOrNothing error k program db ↔ (k ≤ writes.length → (db.applied (writes.take k)).accounts = db.accounts) := by
  have hfinal : (run exec program db).state = (exec (.recordAudit entry now) (db.applied writes)).2 := by
    rw [run_applied, hcalls, Db.applied, List.foldl_append]
    exact applied_of_reads htail
  by_cases hk : k ≤ writes.length
  · have hstopped : Prog.stoppedAt exec error k program db = db.applied (writes.take k) := by
      rw [stoppedAt_applied, hcalls, List.take_append_of_le_length hk]
    refine ⟨fun hwhole _ => ?_, fun hsame => Or.inl (hstopped ▸ hsame hk)⟩
    rcases hwhole with hsame | ⟨_, hlog⟩
    · exact hstopped ▸ hsame
    · have hnow : (db.applied (writes.take k)).auditLog = db.auditLog :=
        applied_frame (t := .auditLog) fun c hc => hwrites c (List.mem_of_mem_take hc)
      have hthen : (db.applied writes).auditLog = db.auditLog := applied_frame (t := .auditLog) hwrites
      rw [hstopped, hfinal, recordAudit_rows, hnow, hthen] at hlog
      have hlength := congrArg List.length hlog
      rw [List.length_append, List.length_singleton] at hlength
      omega
  · have hstopped : Prog.stoppedAt exec error k program db = (run exec program db).state := by
      obtain ⟨j, hj⟩ : ∃ j, k - writes.length = j + 1 := ⟨k - writes.length - 1, by omega⟩
      rw [hfinal, stoppedAt_applied, hcalls, List.take_append, List.take_of_length_le (by omega), hj,
        List.take_succ_cons, Db.applied, List.foldl_append]
      exact applied_of_reads fun c hc => htail c (List.mem_of_mem_take hc)
    exact ⟨fun _ hle => absurd hle hk, fun _ => Or.inr ⟨by rw [hstopped], by rw [hstopped]⟩⟩

/-- One write that changes something. -/
theorem allOrNothing_one {c : StoreCall} {entry : NewAudit} {now : Instant}
    (hcalls : calls exec program db = [c, .recordAudit entry now]) (hc : NoAudit c)
    (hchange : (exec c db).2.accounts ≠ db.accounts) : AllOrNothing error k program db ↔ k ≠ 1 := by
  rw [allOrNothing_audited [c] hcalls (by simpa using hc) (by simp)]
  match k with
  | 0 => simp [Db.applied]
  | 1 => simpa [Db.applied] using hchange
  | k + 2 => simp

/-- A second write after it. -/
theorem allOrNothing_two {c d : StoreCall} {entry : NewAudit} {now : Instant} (tail : List StoreCall)
    (hcalls : calls exec program db = c :: d :: .recordAudit entry now :: tail) (hc : NoAudit c) (hd : NoAudit d)
    (htail : ∀ c ∈ tail, c.writes = []) :
    AllOrNothing error k program db ↔ (k = 1 → (exec c db).2.accounts = db.accounts) ∧
      (k = 2 → (exec d (exec c db).2).2.accounts = db.accounts) := by
  rw [allOrNothing_audited [c, d] hcalls (by simpa using ⟨hc, hd⟩) htail]
  match k with
  | 0 => simp [Db.applied]
  | 1 => simp [Db.applied]
  | 2 => simp [Db.applied]
  | k + 3 => simp

end Rules

/-! ### The actions -/

inductive AccountAction where
  | usersCreate (form : NewUserForm)
  | usersDelete (id : Int) (confirmed : Bool)
  | usersSetPassword (id : Int) (password : String)
  | usersToggleAdmin (id : Int) (confirmed : Bool)
  | usersSetDisabled (id : Int) (confirmed : Bool)
  | settingsSave (form : SettingsForm)
  deriving DecidableEq, Repr

def AccountAction.route : AccountAction → AdminRoute
  | .usersCreate form => .usersCreate form
  | .usersDelete id confirmed => .usersDelete id confirmed
  | .usersSetPassword id password => .usersSetPassword id password
  | .usersToggleAdmin id confirmed => .usersToggleAdmin id confirmed
  | .usersSetDisabled id confirmed => .usersSetDisabled id confirmed
  | .settingsSave form => .settingsSave form

namespace Db

/-- The target is the last enabled administrator. -/
def lastAdmin (db : Db) (target : User) : Bool := target.isEnabledAdmin && decide (db.countEnabledAdmins ≤ 1)

/-- The stored row of a setting holds the value. -/
def Holds (db : Db) (setting : String × String) : Prop := db.getSetting setting.1 = some setting.2

/-- The value the setting is taken to have is the given one; a missing row counts as blank. -/
def Reads (db : Db) (setting : String × String) : Prop := (db.getSetting setting.1).getD "" = setting.2

end Db

/-- How many calls the guard makes. -/
def guardLookups (target : User) : Nat := if target.isEnabledAdmin then 1 else 0

section Actions

variable (X : Crates) (ctx : WebContext) (sid : String) (user : User) (db : Db)

/-- The account is not refused: the form is in order, the name is free, the actor is elevated. -/
def CreateAccepted (form : NewUserForm) : Prop :=
  newUserError form (trim form.username) (db.findUserByUsername (trim form.username)).isSome = none ∧
    elevationAllows ctx user = true ∧ (X.hashPassword ctx.salt form.password).isSome = true

/-- The store, failing from the `k`-th call on, does not cut the action in two: it fails at or before the
first change, or after the audit row, or the action is refused anyway. -/
def AccountAction.Untorn (k : Nat) : AccountAction → Prop
  | .usersCreate form => CreateAccepted X ctx user db form → k ≠ 2
  | .usersDelete id confirmed => id ≠ user.id → ∀ target, db.findUserById id = some target → db.lastAdmin target = false →
      confirmed = true → k ≠ 2 + guardLookups target
  | .usersToggleAdmin id confirmed => id ≠ user.id → ∀ target, db.findUserById id = some target →
      if target.isAdmin then db.lastAdmin target = false → confirmed = true → k ≠ 2 + guardLookups target
      else elevationAllows ctx user = true → k ≠ 2
  | .usersSetDisabled id confirmed => id ≠ user.id → ∀ target, db.findUserById id = some target →
      if target.disabled then k ≠ 2
      else db.lastAdmin target = false → confirmed = true → k ≠ 2 + guardLookups target ∧ k ≠ 3 + guardLookups target
  | .usersSetPassword id password => elevationAllows ctx user = true → validatePassword password = .ok () →
      ∀ target, db.findUserById id = some target → ∀ phc, X.hashPassword ctx.salt password = some phc →
      (k = 2 → target.passwordHash = some phc) ∧ (k = 3 → target.passwordHash = some phc ∧
        ∀ row ∈ db.sessions.rows, row.userId = id → id = user.id ∧ row.id = sid)
  | .settingsSave form => ∀ parsed, validateSettings X form = .ok parsed → k ≤ 12 →
      (∀ setting ∈ parsed.take (k - 6), db.Holds setting) ∨
        (∀ setting ∈ parsed, db.Reads setting) ∧ ∀ setting ∈ parsed.drop (k - 6), db.Holds setting

end Actions

/-! ### Changes -/

section Changes

variable {db : Db} {id : Int} {target : User}

theorem accounts_users {a b : Db} (hne : a.users.rows ≠ b.users.rows) : a.accounts ≠ b.accounts :=
  fun heq => hne (congrArg Prod.fst heq)

/-- Updating a user changes the table exactly when the found row is not what is written back. -/
theorem updateUser_users {f : User → User} {hid : ∀ row, (f row).id = row.id} (hfound : db.findUserById id = some target) :
    (db.updateUser id f hid).users.rows = db.users.rows ↔ f target = target := by
  have hrows := db.users.update_rows_eq_iff id f hid
  refine hrows.trans ⟨fun h => h target hfound, fun h row hrow => ?_⟩
  rw [Option.some.inj (hrow.symm.trans hfound), h]

theorem setUserAdmin_changes (hfound : db.findUserById id = some target) :
    (db.setUserAdmin id !target.isAdmin).accounts ≠ db.accounts := by
  refine accounts_users fun hsame => ?_
  have hrow := congrArg User.isAdmin ((updateUser_users hfound).mp hsame)
  simp at hrow

theorem setUserDisabled_changes (hfound : db.findUserById id = some target) :
    (db.setUserDisabled id !target.disabled).users.rows ≠ db.users.rows := by
  intro hsame
  have hrow := congrArg User.disabled ((updateUser_users hfound).mp hsame)
  simp at hrow

theorem setUserPassword_users (hfound : db.findUserById id = some target) (phc : String) :
    (db.setUserPassword id phc).users.rows = db.users.rows ↔ target.passwordHash = some phc := by
  refine (updateUser_users hfound).trans ⟨fun hsame => ?_, fun hsame => ?_⟩
  · exact (congrArg User.passwordHash hsame).symm
  · rw [← hsame]

theorem setUserPassword_accounts (hfound : db.findUserById id = some target) (phc : String) :
    (db.setUserPassword id phc).accounts = db.accounts ↔ target.passwordHash = some phc := by
  rw [← setUserPassword_users hfound]
  exact ⟨fun h => congrArg Prod.fst h, fun h => Prod.ext h rfl⟩

/-- The new password and the sessions that go with it. -/
theorem setUserPassword_deleteSessions (hfound : db.findUserById id = some target) (phc : String) (p : Session → Bool) :
    ((db.setUserPassword id phc).deleteSessionsWhere p).2.accounts = db.accounts ↔
      target.passwordHash = some phc ∧ ∀ row ∈ db.sessions.rows, p row = false := by
  have hsessions : db.sessions.rows.filter (fun row => !p row) = db.sessions.rows ↔
      ∀ row ∈ db.sessions.rows, p row = false := by
    simp only [List.filter_eq_self, Bool.not_eq_true']
  rw [← setUserPassword_users hfound, ← hsessions]
  refine ⟨fun h => ⟨congrArg Prod.fst h, congrArg (fun rows => rows.2.2.1) h⟩, fun h => ?_⟩
  exact Prod.ext h.1 (Prod.ext rfl (Prod.ext h.2 rfl))

theorem deleteUser_changes (hfound : db.findUserById id = some target) : (db.deleteUser id).accounts ≠ db.accounts := by
  refine accounts_users fun hrows => ?_
  have hfilter : db.users.rows.filter (fun row => !decide (row.id = id)) = db.users.rows := hrows
  have hkept := List.filter_eq_self.mp hfilter target (db.users.find_mem hfound)
  simp [db.users.find_key hfound] at hkept

end Changes

/-! ### Each action -/

section Handlers

variable {X : Crates} {ctx : WebContext} {sid : String} {user : User} {db : Db} {error : StoreError} {k : Nat}

theorem calls_store {β : Type} {c : StoreCall} {rest : c.Res → StoreProg AppError β} {answer : c.Res}
    (hok : (exec c db).1 = .ok answer) :
    calls exec ((store c).bind rest) db = c :: calls exec (rest answer) (exec c db).2 := calls_perform_bind exec hok

theorem Reads.calls {A α : Type} {program : StoreProg A α} (hreads : Pingward.Reads program) (db : Db) :
    ∀ c ∈ StoreProgram.calls exec program db, c.writes = [] := Prog.Only.calls exec hreads db

theorem allOrNothing_ret {α : Type} (value : α) : AllOrNothing error k (.ret value : StoreProg AppError α) db :=
  allOrNothing_of_reads fun c hc => by cases hc

/-- A lookup in front of the rest. -/
theorem allOrNothing_lookup {β : Type} {c : StoreCall} {rest : c.Res → StoreProg AppError β} {answer : c.Res}
    (hreads : c.writes = []) (hok : (exec c db).1 = .ok answer) :
    AllOrNothing error k ((store c).bind rest) db ↔ AllOrNothing error (k - 1) (rest answer) db := by
  refine allOrNothing_cons [c] ?_ (by simpa using hreads)
  rw [calls_store hok, exec_reads hreads]
  rfl

theorem allOrNothing_guard {β : Type} {target : User} {rest : Bool → StoreProg AppError β} :
    AllOrNothing error k ((lastAdminGuard target).bind rest) db ↔
      AllOrNothing error (k - guardLookups target) (rest (db.lastAdmin target)) db := by
  unfold lastAdminGuard guardLookups Db.lastAdmin
  cases hadmin : target.isEnabledAdmin with
  | false => simp
  | true =>
      simp only [Bool.not_true, Bool.false_eq_true, if_false, if_true, Bool.true_and, Prog.bind_eq, Prog.bind_assoc]
      exact allOrNothing_lookup rfl rfl

/-- The action of a handler on the account it finds; a missing one is answered at once. -/
theorem allOrNothing_found {id : Int} {response : Response} {act : User → StoreProg AppError Response} {P : User → Prop}
    (hact : ∀ target, db.findUserById id = some target → (AllOrNothing error (k - 1) (act target) db ↔ P target)) :
    AllOrNothing error k ((store (.findUserById id)).bind fun found =>
        match found with
        | none => .ret response
        | some target => act target) db ↔
      ∀ target, db.findUserById id = some target → P target := by
  rw [allOrNothing_lookup rfl rfl]
  cases hfound : db.findUserById id with
  | none => exact iff_of_true (allOrNothing_ret _) fun target hsome => by cases hsome
  | some target =>
      refine (hact target hfound).trans ⟨fun htarget other hother => ?_, fun hall => hall target rfl⟩
      exact Option.some.inj hother ▸ htarget

theorem usersDelete_whole (id : Int) (confirmed : Bool) : AllOrNothing error k (usersDelete X ctx sid user id confirmed) db ↔
    (AccountAction.usersDelete id confirmed).Untorn X ctx sid user db k := by
  unfold usersDelete
  simp only [AccountAction.Untorn]
  split
  · rename_i hself
    exact iff_of_true (allOrNothing_ret _) fun hne => absurd hself hne
  · rename_i hself
    rw [forall_prop_of_true hself]
    refine allOrNothing_found fun target hfound => ?_
    rw [Prog.bind_eq, allOrNothing_guard]
    cases hlast : db.lastAdmin target with
    | true => exact iff_of_true (allOrNothing_ret _) fun hfalse => by cases hfalse
    | false =>
        cases confirmed with
        | false => exact iff_of_true (allOrNothing_ret _) fun _ hfalse => by cases hfalse
        | true =>
            refine (allOrNothing_one (c := .deleteUser id) rfl (by simp [NoAudit, StoreCall.writes])
              (deleteUser_changes hfound)).trans ?_
            simp only [forall_const]
            omega

theorem usersToggleAdmin_whole (id : Int) (confirmed : Bool) :
    AllOrNothing error k (usersToggleAdmin X ctx sid user id confirmed) db ↔
      (AccountAction.usersToggleAdmin id confirmed).Untorn X ctx sid user db k := by
  unfold usersToggleAdmin
  simp only [AccountAction.Untorn]
  split
  · rename_i hself
    exact iff_of_true (allOrNothing_ret _) fun hne => absurd hself hne
  · rename_i hself
    rw [forall_prop_of_true hself]
    refine allOrNothing_found fun target hfound => ?_
    have hchange := setUserAdmin_changes hfound
    cases hadmin : target.isAdmin with
    | false =>
        rw [hadmin] at hchange
        cases helevated : elevationAllows ctx user with
        | false => exact iff_of_true (allOrNothing_ret _) fun hfalse => by cases hfalse
        | true =>
            apply (allOrNothing_one (c := .setUserAdmin id true) rfl (by simp [NoAudit, StoreCall.writes]) hchange).trans
            simp only [Bool.false_eq_true, if_false, forall_const]
            omega
    | true =>
        rw [hadmin] at hchange
        apply allOrNothing_guard.trans
        cases hlast : db.lastAdmin target with
        | true => exact iff_of_true (allOrNothing_ret _) fun hfalse => by cases hfalse
        | false =>
            cases confirmed with
            | false => exact iff_of_true (allOrNothing_ret _) fun _ hfalse => by cases hfalse
            | true =>
                refine (allOrNothing_one (c := .setUserAdmin id false) rfl (by simp [NoAudit, StoreCall.writes])
                  hchange).trans ?_
                simp only [if_true, forall_const]
                omega

theorem usersSetDisabled_whole (id : Int) (confirmed : Bool) :
    AllOrNothing error k (usersSetDisabled X ctx sid user id confirmed) db ↔
      (AccountAction.usersSetDisabled id confirmed).Untorn X ctx sid user db k := by
  unfold usersSetDisabled
  simp only [AccountAction.Untorn]
  split
  · rename_i hself
    exact iff_of_true (allOrNothing_ret _) fun hne => absurd hself hne
  · rename_i hself
    rw [forall_prop_of_true hself]
    refine allOrNothing_found fun target hfound => ?_
    have hchange := setUserDisabled_changes hfound
    cases hdisabled : target.disabled with
    | true =>
        rw [hdisabled] at hchange
        refine (allOrNothing_one (c := .setUserDisabled id false) rfl (by simp [NoAudit, StoreCall.writes])
          (accounts_users hchange)).trans ?_
        simp only [if_true]
        omega
    | false =>
        rw [hdisabled] at hchange
        apply allOrNothing_guard.trans
        cases hlast : db.lastAdmin target with
        | true => exact iff_of_true (allOrNothing_ret _) fun hfalse => by cases hfalse
        | false =>
            cases confirmed with
            | false => exact iff_of_true (allOrNothing_ret _) fun _ hfalse => by cases hfalse
            | true =>
                refine (allOrNothing_two (c := .setUserDisabled id true) (d := .deleteSessionsForUser id) [] rfl
                  (by simp [NoAudit, StoreCall.writes]) (by simp [NoAudit, StoreCall.writes]) (by simp)).trans ?_
                have hfirst : (exec (.setUserDisabled id true) db).2.accounts ≠ db.accounts := accounts_users hchange
                have hsecond : (exec (.deleteSessionsForUser id) (exec (.setUserDisabled id true) db).2).2.accounts ≠
                    db.accounts := accounts_users hchange
                simp only [hfirst, hsecond, Bool.false_eq_true, if_false, forall_const, imp_false]
                omega

/-- The insert of a name that is free. -/
theorem exec_createUser {username : String} {hash : Option String} {isAdmin : Bool} {now : Instant}
    (hfree : db.findUserByUsername username = none) :
    exec (.createUser username hash isAdmin now) db = (.ok db.users.next,
      { db with users := db.users.insert (fun id => ⟨id, username, hash, isAdmin, false, now⟩) fun _ => rfl }) := by
  simp only [exec, Db.createUser, hfree, Option.isSome_none, Bool.false_eq_true, if_false]
  rfl

theorem calls_createUser {β : Type} {username : String} {hash : Option String} {isAdmin : Bool} {now : Instant}
    {rest : Except StoreError Int → StoreProg AppError β} (hfree : db.findUserByUsername username = none) :
    calls exec ((attemptCall (.createUser username hash isAdmin now)).bind rest) db =
      .createUser username hash isAdmin now ::
        calls exec (rest (.ok db.users.next)) (exec (.createUser username hash isAdmin now) db).2 := by
  have hanswer : (exec (.createUser username hash isAdmin now) db).1 = .ok db.users.next := by
    rw [exec_createUser hfree]
  rw [← hanswer]
  rfl

theorem createUser_changes {username : String} {hash : Option String} {isAdmin : Bool} {now : Instant}
    (hfree : db.findUserByUsername username = none) :
    (exec (.createUser username hash isAdmin now) db).2.accounts ≠ db.accounts := by
  rw [exec_createUser hfree]
  refine accounts_users fun hrows => ?_
  have hlength := congrArg List.length hrows
  simp [AutoTable.insert] at hlength

theorem free_of_accepted {form : NewUserForm} {username : String} {found : Option User}
    (hnone : newUserError form username found.isSome = none) : username ≠ "" ∧ found = none := by
  unfold newUserError at hnone
  split at hnone
  · cases hnone
  · rename_i hname
    refine ⟨hname, ?_⟩
    split at hnone
    · cases hnone
    · cases found with
      | none => rfl
      | some other => simp at hnone

theorem usersCreate_whole (form : NewUserForm) : AllOrNothing error k (usersCreate X ctx sid user form) db ↔
    (AccountAction.usersCreate form).Untorn X ctx sid user db k := by
  unfold usersCreate
  simp only [AccountAction.Untorn, CreateAccepted]
  by_cases hname : trim form.username = ""
  · rw [if_pos hname]
    refine iff_of_true ?_ fun haccepted => absurd hname (free_of_accepted haccepted.1).1
    rw [hname]
    exact allOrNothing_ret _
  · rw [if_neg hname, Prog.bind_eq, allOrNothing_lookup rfl rfl]
    cases herror : newUserError form (trim form.username) (db.findUserByUsername (trim form.username)).isSome with
    | some refused => exact iff_of_true (allOrNothing_ret _) fun haccepted => by cases haccepted.1
    | none =>
        have hfree := (free_of_accepted herror).2
        cases helevated : elevationAllows ctx user with
        | false => exact iff_of_true (allOrNothing_ret _) fun haccepted => by cases haccepted.2.1
        | true =>
            unfold hashOrFail
            cases hhash : X.hashPassword ctx.salt form.password with
            | none => exact iff_of_true (allOrNothing_of_reads fun c hc => by cases hc) fun haccepted => by cases haccepted.2.2
            | some phc =>
                refine (allOrNothing_one (calls_createUser hfree) (by simp [NoAudit, StoreCall.writes])
                  (createUser_changes hfree)).trans ?_
                simp only [Option.isSome_some, and_self, forall_const]
                omega

theorem usersSetPassword_whole (id : Int) (password : String) :
    AllOrNothing error k (usersSetPassword X ctx sid user id password) db ↔
      (AccountAction.usersSetPassword id password).Untorn X ctx sid user db k := by
  unfold usersSetPassword
  simp only [AccountAction.Untorn]
  cases helevated : elevationAllows ctx user with
  | false => exact iff_of_true (allOrNothing_ret _) fun hfalse => by cases hfalse
  | true =>
      cases hpolicy : validatePassword password with
      | error msg => exact iff_of_true (allOrNothing_ret _) fun _ hfalse => by cases hfalse
      | ok _ =>
          rw [forall_prop_of_true rfl, forall_prop_of_true rfl]
          refine allOrNothing_found fun target hfound => ?_
          unfold hashOrFail
          cases hhash : X.hashPassword ctx.salt password with
          | none => exact iff_of_true (allOrNothing_of_reads fun c hc => by cases hc) fun phc hfalse => by cases hfalse
          | some phc =>
              have hphc : ∀ P : String → Prop, (∀ phc', some phc = some phc' → P phc') ↔ P phc := fun P =>
                ⟨fun h => h phc rfl, fun h phc' heq => Option.some.inj heq ▸ h⟩
              rw [hphc]
              have hfirst : (exec (.setUserPassword id phc) db).2.accounts = db.accounts ↔ target.passwordHash = some phc :=
                setUserPassword_accounts hfound phc
              have hone : k - 1 = 1 ↔ k = 2 := by omega
              have htwo : k - 1 = 2 ↔ k = 3 := by omega
              by_cases hself : id = user.id
              · rw [if_pos hself]
                refine (allOrNothing_two (c := .setUserPassword id phc) (d := .deleteOtherSessionsForUser user.id sid)
                  _ rfl (by simp [NoAudit, StoreCall.writes]) (by simp [NoAudit, StoreCall.writes]) ?_).trans ?_
                · refine Reads.calls ((reads_store rfl).bind fun keys => ?_) _
                  split <;> trivial
                · have hsecond := setUserPassword_deleteSessions hfound phc
                    fun row => decide (row.userId = user.id ∧ row.id ≠ sid)
                  simp only [decide_eq_false_iff_not, not_and, not_not] at hsecond
                  rw [hone, htwo, hfirst, hself]
                  refine and_congr_right fun _ => imp_congr_right fun _ => (hself ▸ hsecond).trans ?_
                  simp only [true_and]
              · rw [if_neg hself]
                refine (allOrNothing_two (c := .setUserPassword id phc) (d := .deleteSessionsForUser id)
                  _ rfl (by simp [NoAudit, StoreCall.writes]) (by simp [NoAudit, StoreCall.writes])
                  ?_).trans ?_
                · refine Reads.calls ((reads_store rfl).bind fun keys => ?_) _
                  split <;> trivial
                · have hsecond := setUserPassword_deleteSessions hfound phc fun row => decide (row.userId = id)
                  simp only [decide_eq_false_iff_not] at hsecond
                  rw [hone, htwo, hfirst]
                  refine and_congr_right fun _ => imp_congr_right fun _ => hsecond.trans ?_
                  simp only [hself, false_and, imp_false]

end Handlers

/-! ### Settings -/

section Settings

variable {db : Db}

theorem getSetting_setSetting (key value other : String) :
    (db.setSetting key value).getSetting other = if other = key then some value else db.getSetting other := by
  unfold Db.setSetting Db.getSetting
  cases hinsert : db.settings.insert ⟨key, value⟩ with
  | some table =>
      rw [db.settings.find_insert hinsert]
      split
      · rename_i hkey
        rw [if_pos hkey.symm]
        rfl
      · rename_i hkey
        rw [if_neg (Ne.symm hkey)]
  | none =>
      obtain ⟨row, hrow⟩ := Option.isSome_iff_exists.mp (db.settings.insert_eq_none_iff.mp hinsert)
      by_cases hkey : other = key
      · subst hkey
        rw [if_pos rfl, Table.find_update_self, hrow]
        rfl
      · rw [if_neg hkey, Table.find_update_of_ne _ hkey]

/-- Writing the value a row holds changes nothing. -/
theorem setSetting_of_holds {key value : String} (hholds : db.Holds (key, value)) : db.setSetting key value = db := by
  obtain ⟨row, hrow, hvalue⟩ := Option.map_eq_some_iff.mp hholds
  have hvalue : row.value = value := hvalue
  have hrefused : db.settings.insert ⟨key, value⟩ = none :=
    db.settings.insert_eq_none_iff.mpr (Option.isSome_iff_exists.mpr ⟨row, hrow⟩)
  have hsame : (db.settings.update key (fun row => { row with value := value }) fun _ => rfl) = db.settings := by
    apply Table.eq_of_rows
    rw [Table.update_rows_eq_iff]
    intro other hother
    obtain rfl : row = other := Option.some.inj (hrow.symm.trans hother)
    rw [← hvalue]
  unfold Db.setSetting
  rw [hrefused]
  simp only [hsame]

def saveCalls (settings : List (String × String)) : List StoreCall :=
  settings.map fun setting => .setSetting setting.1 setting.2

theorem applied_saveCalls_cons (setting : String × String) (rest : List (String × String)) :
    db.applied (saveCalls (setting :: rest)) = (db.setSetting setting.1 setting.2).applied (saveCalls rest) := rfl

theorem getSetting_applied_of_notMem {settings : List (String × String)} {key : String}
    (hkey : key ∉ settings.map Prod.fst) : (db.applied (saveCalls settings)).getSetting key = db.getSetting key := by
  induction settings generalizing db with
  | nil => rfl
  | cons setting rest ih =>
      rw [List.map_cons, List.mem_cons, not_or] at hkey
      rw [applied_saveCalls_cons, ih hkey.2, getSetting_setSetting, if_neg hkey.1]

theorem holds_applied {settings : List (String × String)} (hnodup : (settings.map Prod.fst).Nodup)
    {setting : String × String} (hmem : setting ∈ settings) : (db.applied (saveCalls settings)).Holds setting := by
  induction settings generalizing db with
  | nil => cases hmem
  | cons first rest ih =>
      rw [List.map_cons, List.nodup_cons] at hnodup
      rw [applied_saveCalls_cons]
      rcases List.mem_cons.mp hmem with rfl | hrest
      · rw [Db.Holds, getSetting_applied_of_notMem hnodup.1, getSetting_setSetting, if_pos rfl]
      · exact ih hnodup.2 hrest

/-- Saving settings changes nothing exactly when every row already holds its value. -/
theorem applied_saveCalls_accounts {settings : List (String × String)} (hnodup : (settings.map Prod.fst).Nodup) :
    (db.applied (saveCalls settings)).accounts = db.accounts ↔ ∀ setting ∈ settings, db.Holds setting := by
  constructor
  · intro hsame setting hmem
    have hrows : (db.applied (saveCalls settings)).settings.rows = db.settings.rows := congrArg (fun rows => rows.2.1) hsame
    have hholds : (db.applied (saveCalls settings)).Holds setting := holds_applied hnodup hmem
    rwa [Db.Holds, Db.getSetting, Table.find_congr hrows] at hholds
  · intro hholds
    have hsame : db.applied (saveCalls settings) = db := by
      induction settings with
      | nil => rfl
      | cons first rest ih =>
          rw [applied_saveCalls_cons, setSetting_of_holds (hholds first (by simp))]
          exact ih (List.nodup_cons.mp hnodup).2 fun setting hmem => hholds setting (by simp [hmem])
    rw [hsame]

/-- What a later setting is compared with is not touched by the earlier ones. -/
theorem holds_applied_take {settings : List (String × String)} (hnodup : (settings.map Prod.fst).Nodup) (j : Nat)
    {setting : String × String} (hmem : setting ∈ settings.drop j) :
    (db.applied (saveCalls (settings.take j))).Holds setting ↔ db.Holds setting := by
  have hsplit : (settings.take j).map Prod.fst ++ (settings.drop j).map Prod.fst = settings.map Prod.fst := by
    rw [← List.map_append, List.take_append_drop]
  rw [← hsplit, List.nodup_append] at hnodup
  have hkey : setting.1 ∉ (settings.take j).map Prod.fst := fun htake =>
    hnodup.2.2 _ htake _ (List.mem_map_of_mem hmem) rfl
  rw [Db.Holds, Db.Holds, getSetting_applied_of_notMem hkey]

/-- The settings a save reports as changed. -/
def Db.changedTexts (db : Db) : List (String × String) → List String
  | [] => []
  | (key, value) :: rest =>
      if (db.getSetting key).getD "" = value then db.changedTexts rest
      else (key ++ "=" ++ if value = "" then "unset" else value) :: db.changedTexts rest

theorem changedTexts_eq_nil_iff (settings : List (String × String)) :
    db.changedTexts settings = [] ↔ ∀ setting ∈ settings, db.Reads setting := by
  induction settings with
  | nil => simp [Db.changedTexts]
  | cons setting rest ih =>
      obtain ⟨key, value⟩ := setting
      rw [List.forall_mem_cons, ← ih, Db.changedTexts, Db.Reads]
      split
      · rename_i hsame
        exact ⟨fun h => ⟨hsame, h⟩, fun h => h.2⟩
      · rename_i hdiffers
        exact iff_of_false (by simp) fun h => hdiffers h.1

theorem changedSettings_calls {β : Type} (settings : List (String × String)) (rest : List String → StoreProg AppError β) :
    calls exec ((changedSettings settings).bind rest) db =
      settings.map (fun setting => .getSetting setting.1) ++ calls exec (rest (db.changedTexts settings)) db := by
  induction settings generalizing rest with
  | nil => rfl
  | cons setting others ih =>
      obtain ⟨key, value⟩ := setting
      unfold changedSettings Db.changedTexts
      simp only [Prog.bind_eq, Prog.bind_assoc]
      apply (calls_store rfl).trans
      rw [List.map_cons, List.cons_append]
      congr 1
      apply (ih _).trans
      congr 1
      split <;> rfl

theorem saveSettings_calls {β : Type} (settings : List (String × String)) (rest : Unit → StoreProg AppError β) :
    calls exec ((saveSettings settings).bind rest) db =
      saveCalls settings ++ calls exec (rest ()) (db.applied (saveCalls settings)) := by
  induction settings generalizing db with
  | nil => rfl
  | cons setting others ih =>
      obtain ⟨key, value⟩ := setting
      unfold saveSettings
      rw [Prog.bind_eq, Prog.bind_assoc]
      apply (calls_store rfl).trans
      rw [ih]
      rfl

/-- The keys of a save are the six of the form. -/
theorem validateSettings_keys {X : Crates} {form : SettingsForm} {parsed : List (String × String)}
    (hparsed : validateSettings X form = .ok parsed) :
    parsed.map Prod.fst = (settingFields form).map Prod.fst := by
  unfold validateSettings at hparsed
  generalize settingFields form = fields at hparsed
  induction fields generalizing parsed with
  | nil =>
      cases hparsed
      rfl
  | cons field rest ih =>
      obtain ⟨key, raw, label, kind⟩ := field
      rw [List.mapM_cons] at hparsed
      dsimp only at hparsed
      cases hvalue : validateSetting X raw label kind with
      | error msg =>
          rw [hvalue] at hparsed
          cases hparsed
      | ok value =>
          rw [hvalue] at hparsed
          generalize hothers : (List.mapM _ rest : Except String (List (String × String))) = result at hparsed
          cases result with
          | error msg => cases hparsed
          | ok others =>
              cases hparsed
              rw [List.map_cons, List.map_cons, ih hothers]

variable {X : Crates} {ctx : WebContext} {sid : String} {user : User} {error : StoreError} {k : Nat}

/-- A save that reports nothing only fills in blank rows; it is whole when all or none of them are in. -/
theorem allOrNothing_unreported {A α : Type} {program : StoreProg A α} {settings : List (String × String)}
    (hnodup : (settings.map Prod.fst).Nodup) (hcalls : calls exec program db = saveCalls settings) :
    AllOrNothing error k program db ↔
      (∀ setting ∈ settings.take k, db.Holds setting) ∨ ∀ setting ∈ settings.drop k, db.Holds setting := by
  have hstopped : Prog.stoppedAt exec error k program db = db.applied (saveCalls (settings.take k)) := by
    rw [stoppedAt_applied, hcalls, saveCalls, saveCalls, List.map_take]
  have hfinal : (run exec program db).state =
      (db.applied (saveCalls (settings.take k))).applied (saveCalls (settings.drop k)) := by
    rw [run_applied, hcalls, Db.applied, Db.applied, Db.applied, ← List.foldl_append, saveCalls, saveCalls, saveCalls,
      ← List.map_append, List.take_append_drop]
  have htake : ((settings.take k).map Prod.fst).Nodup := by
    rw [List.map_take]
    exact hnodup.sublist (List.take_sublist ..)
  have hdrop : ((settings.drop k).map Prod.fst).Nodup := by
    rw [List.map_drop]
    exact hnodup.sublist (List.drop_sublist ..)
  have hlater : (∀ setting ∈ settings.drop k, (db.applied (saveCalls (settings.take k))).Holds setting) ↔
      ∀ setting ∈ settings.drop k, db.Holds setting :=
    forall₂_congr fun setting hmem => holds_applied_take hnodup k hmem
  have hlog : ((db.applied (saveCalls (settings.take k))).applied (saveCalls (settings.drop k))).auditLog =
      (db.applied (saveCalls (settings.take k))).auditLog := by
    refine applied_frame (t := .auditLog) fun c hc => ?_
    obtain ⟨setting, _, rfl⟩ := List.mem_map.mp hc
    simp [StoreCall.writes]
  rw [AllOrNothing, hstopped, hfinal, hlog, applied_saveCalls_accounts htake, ← hlater, ← applied_saveCalls_accounts hdrop]
  exact or_congr_right ⟨fun h => h.1.symm, fun h => ⟨h.symm, rfl⟩⟩

/-- The second half of a save: the writes, and the audit row when there is something to report. -/
def saveAndReport (ctx : WebContext) (user : User) (settings : List (String × String)) (changed : List String) :
    StoreProg AppError Response := do
  saveSettings settings
  if changed ≠ [] then
    let _ ← store (.recordAudit
      ⟨user.id, user.username, "settings.update", none, none, none, some "POST", some "/admin/settings",
        some (" ".intercalate changed)⟩ ctx.now)
    return .redirect "/admin" (some "settings")
  return .redirect "/admin" (some "settings")

theorem saveAndReport_calls_nil (settings : List (String × String)) :
    calls exec (saveAndReport ctx user settings []) db = saveCalls settings := by
  apply (saveSettings_calls settings _).trans
  exact List.append_nil _

theorem saveAndReport_calls_cons (settings : List (String × String)) {changed : List String} (hchanged : changed ≠ []) :
    calls exec (saveAndReport ctx user settings changed) db = saveCalls settings ++ [.recordAudit
      ⟨user.id, user.username, "settings.update", none, none, none, some "POST", some "/admin/settings",
        some (" ".intercalate changed)⟩ ctx.now] := by
  apply (saveSettings_calls settings _).trans
  rw [if_pos hchanged]
  rfl

/-- A save with an audit row is whole before the first row it changes and after the audit. -/
theorem allOrNothing_reported {settings : List (String × String)} {changed : List String}
    (hnodup : (settings.map Prod.fst).Nodup) (hchanged : changed ≠ []) :
    AllOrNothing error k (saveAndReport ctx user settings changed) db ↔
      (k ≤ settings.length → ∀ setting ∈ settings.take k, db.Holds setting) := by
  have htake : ((settings.take k).map Prod.fst).Nodup := by
    rw [List.map_take]
    exact hnodup.sublist (List.take_sublist ..)
  refine (allOrNothing_audited (saveCalls settings) (saveAndReport_calls_cons settings hchanged) ?_ (by simp)).trans ?_
  · intro c hc
    obtain ⟨setting, _, rfl⟩ := List.mem_map.mp hc
    simp [NoAudit, StoreCall.writes]
  · rw [← applied_saveCalls_accounts htake, saveCalls, saveCalls, List.length_map, List.map_take]

theorem settingsSave_whole (form : SettingsForm) : AllOrNothing error k (settingsSave X ctx sid user form) db ↔
    (AccountAction.settingsSave form).Untorn X ctx sid user db k := by
  unfold settingsSave
  simp only [AccountAction.Untorn]
  cases hparsed : validateSettings X form with
  | error msg => exact iff_of_true (allOrNothing_ret _) fun parsed hfalse => by cases hfalse
  | ok parsed =>
      have hkeys := validateSettings_keys hparsed
      have hnodup : (parsed.map Prod.fst).Nodup := by
        rw [hkeys]
        simp [settingFields]
      have hlength : parsed.length = 6 := by simpa [settingFields] using congrArg List.length hkeys
      have hone : ∀ P : List (String × String) → Prop,
          (∀ parsed', Except.ok parsed = (.ok parsed' : Except String _) → P parsed') ↔ P parsed :=
        fun P => ⟨fun h => h parsed rfl, fun h parsed' heq => Except.ok.inj heq ▸ h⟩
      have hfront : AllOrNothing error k (do
            let changed ← changedSettings parsed
            saveAndReport ctx user parsed changed) db ↔
          AllOrNothing error (k - 6) (saveAndReport ctx user parsed (db.changedTexts parsed)) db := by
        rw [← hlength, ← List.length_map (fun setting => StoreCall.getSetting setting.1)]
        refine allOrNothing_cons _ (changedSettings_calls parsed _) fun c hc => ?_
        obtain ⟨setting, _, rfl⟩ := List.mem_map.mp hc
        rfl
      rw [hone]
      apply hfront.trans
      rw [← changedTexts_eq_nil_iff]
      by_cases hchanged : db.changedTexts parsed = []
      · rw [hchanged]
        apply (allOrNothing_unreported hnodup (saveAndReport_calls_nil parsed)).trans
        simp only [true_and]
        refine ⟨fun h _ => h, fun h => ?_⟩
        by_cases hk : k ≤ 12
        · exact h hk
        · right
          rw [List.drop_of_length_le (by omega)]
          simp
      · apply (allOrNothing_reported hnodup hchanged).trans
        have hbound : k - 6 ≤ parsed.length ↔ k ≤ 12 := by omega
        simp only [hbound, hchanged, false_and, or_false]

end Settings

/-- **Whole actions.** An administrator's action on accounts or settings leaves no half-done or untraced
change behind a failing store exactly when the store does not start to fail between the action's first
change and its audit row. -/
theorem account_action_whole_iff (X : Crates) (ctx : WebContext) (sid : String) (user : User) (db : Db)
    (action : AccountAction) (error : StoreError) (k : Nat) :
    AllOrNothing error k (adminHandle X ctx sid user action.route) db ↔ action.Untorn X ctx sid user db k := by
  cases action with
  | usersCreate form => exact usersCreate_whole form
  | usersDelete id confirmed => exact usersDelete_whole id confirmed
  | usersSetPassword id password => exact usersSetPassword_whole id password
  | usersToggleAdmin id confirmed => exact usersToggleAdmin_whole id confirmed
  | usersSetDisabled id confirmed => exact usersSetDisabled_whole id confirmed
  | settingsSave form => exact settingsSave_whole form

/-- Alice resets Bob's password; the store fails at the deletion of his sessions. The password is the new
one, Bob's session is still good, and no audit row says who changed what. -/
theorem password_reset_torn :
    ¬ AllOrNothing .unavailable 2
      (adminHandle plainCrates WebContext.sample "s1" adminAlice (.usersSetPassword 2 "correct horse battery"))
        .aliceAdmin := by
  rintro (hsame | ⟨hdone, _⟩)
  · exact absurd hsame (by decide +kernel)
  · exact absurd hdone (by decide +kernel)

end Pingward
