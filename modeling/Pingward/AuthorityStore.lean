import Pingward.ElevationFront
import Pingward.InterleaveAdmins

/-! What an administrator's credential stands for: the rows of the accounts, and the sessions of the enabled
administrators, as they were at the start. The calls of somebody without one keep both, and what the database then
answers shows no enabled administrator to anybody who does not name one. -/

open KeyedTable StoreProgram

namespace Pingward

/-- The row of an account, less the password of an ordinary one, which its owner may change. -/
def User.standing (user : User) : User := if user.isAdmin then user else { user with passwordHash := none }

/-- The session is an enabled administrator's. -/
def Db.AdminSession (db : Db) (sessionId : String) : Prop :=
  ∃ session ∈ db.sessions.rows, session.id = sessionId ∧ db.IsAdmin session.userId

/-- The accounts are those of the start, the administrators' as they were, and ordinary ones that came since. -/
def AccountsKept (start db : Db) : Prop :=
  ∃ joined, db.users.rows.map User.standing = start.users.rows.map User.standing ++ joined ∧
    ∀ user ∈ joined, user.isAdmin = false

/-- Nobody was signed in as an administrator of the start. -/
def SessionsKept (start db : Db) : Prop :=
  ∀ session ∈ db.sessions.rows, start.IsAdmin session.userId → start.AdminSession session.id

section Standing

variable {user other : User}

@[simp] theorem standing_id (user : User) : user.standing.id = user.id := by
  unfold User.standing
  split <;> rfl

@[simp] theorem standing_isAdmin (user : User) : user.standing.isAdmin = user.isAdmin := by
  unfold User.standing
  split <;> rfl

theorem standing_of_isAdmin (hadmin : user.isAdmin = true) : user.standing = user := if_pos hadmin

/-- An administrator is no other account than the one of the same standing. -/
theorem eq_of_standing (hsame : user.standing = other.standing) (hadmin : user.isAdmin = true) : user = other := by
  have hother : other.isAdmin = true := by
    rw [← standing_isAdmin other, ← hsame, standing_isAdmin]
    exact hadmin
  rw [← standing_of_isAdmin hadmin, hsame, standing_of_isAdmin hother]

end Standing

/-! ### What is known of an account -/

/-- The account is one of the start, or an ordinary one that came since. -/
def Known (start : Db) (user : User) : Prop :=
  user.standing ∈ start.users.rows.map User.standing ∨ user.isAdmin = false ∧ start.users.next ≤ user.id

/-- The account is no administrator's, and was none's at the start. -/
def Ordinary (start : Db) (user : User) : Prop :=
  user.isAdmin = false ∧ ∀ row ∈ start.users.rows, row.id = user.id → row.isAdmin = false

section Known

variable {start : Db} {user : User}

theorem Known.mem (hknown : Known start user) (hadmin : user.isAdmin = true) : user ∈ start.users.rows := by
  rcases hknown with hstanding | hnew
  · obtain ⟨row, hrow, hsame⟩ := List.mem_map.mp hstanding
    rwa [eq_of_standing hsame.symm hadmin]
  · rw [hnew.1] at hadmin
    cases hadmin

theorem Known.ordinary (hknown : Known start user) (hadmin : user.isAdmin = false) : Ordinary start user := by
  refine ⟨hadmin, fun row hrow hid => ?_⟩
  rcases hknown with hstanding | ⟨-, hnew⟩
  · obtain ⟨other, hother, hsame⟩ := List.mem_map.mp hstanding
    have hids : other.id = row.id := by rw [hid, ← standing_id other, hsame, standing_id]
    rw [← start.users.key_inj hother hrow hids, ← standing_isAdmin other, hsame, standing_isAdmin]
    exact hadmin
  · have hbelow := start.users.below row hrow
    omega

/-- Whoever is enabled and no enabled administrator is ordinary. -/
theorem Known.ordinary_of_enabled (hknown : Known start user) (henabled : user.disabled = false)
    (hadmin : user.isEnabledAdmin = false) : Ordinary start user :=
  hknown.ordinary (by simpa [User.isEnabledAdmin, henabled] using hadmin)

theorem Ordinary.not_isAdmin (hordinary : Ordinary start user) : ¬ start.IsAdmin user.id := by
  intro ⟨row, hrow, hid, hadmin⟩
  have hnone := hordinary.2 row hrow hid
  simp [User.isEnabledAdmin, hnone] at hadmin

end Known

/-! ### Calls and answers -/

/-- The calls that give nobody rights and touch no administrator. -/
def StoreCall.Within (start : Db) : StoreCall → Prop
  | .createUser _ _ isAdmin _ => isAdmin = false
  | .deleteUser _ | .setUserDisabled _ _ | .setUserAdmin _ _ => False
  | .setUserPassword id _ => ∀ row ∈ start.users.rows, row.id = id → row.isAdmin = false
  | .createSession session _ => ¬ start.IsAdmin session.userId
  | _ => True

/-- What the database answers while the accounts and the sessions are kept. -/
def Shown (start : Db) : (c : StoreCall) → Except StoreError c.Res → Prop
  | .countUsers, .ok count => start.users.rows ≠ [] → 0 < count
  | .createUser _ _ _ _, .ok id => start.users.next ≤ id
  | .findUserByUsername username, .ok (some user) => user.username = username ∧ Known start user
  | .findUserById id, .ok (some user) => user.id = id ∧ Known start user
  | .findSessionUser sessionId _, .ok (some user) =>
      Known start user ∧ (user.isEnabledAdmin = true → start.AdminSession sessionId)
  | _, _ => True

theorem within_of_reads {start : Db} {c : StoreCall} (hreads : c.writes = []) : c.Within start := by
  cases c <;> trivial

theorem Reads.within {A α : Type} {start : Db} {program : StoreProg A α} (hreads : Reads program) :
    program.Only (StoreCall.Within start) fun _ => True :=
  hreads.mono (fun _ hc => within_of_reads hc) fun _ _ => trivial

/-! ### The store -/

/-- The accounts and the sessions are kept, and no id of the start is given out again. -/
structure AuthorityKept (start db : Db) : Prop where
  accounts : AccountsKept start db
  sessions : SessionsKept start db
  next : start.users.next ≤ db.users.next
  fresh : ∀ user ∈ db.users.rows, user.standing ∉ start.users.rows.map User.standing → start.users.next ≤ user.id

section Store

variable {start db : Db}

theorem AuthorityKept.refl (db : Db) : AuthorityKept db db where
  accounts := ⟨[], (List.append_nil _).symm, by simp⟩
  sessions := fun session hsession hadmin => ⟨session, hsession, rfl, hadmin⟩
  next := Int.le_refl _
  fresh := fun user huser hnot => absurd (List.mem_map_of_mem huser) hnot

theorem AuthorityKept.known (hkept : AuthorityKept start db) {user : User} (huser : user ∈ db.users.rows) :
    Known start user := by
  obtain ⟨joined, hrows, hordinary⟩ := hkept.accounts
  by_cases hold : user.standing ∈ start.users.rows.map User.standing
  · exact .inl hold
  · refine .inr ⟨?_, hkept.fresh user huser hold⟩
    have hmem : user.standing ∈ start.users.rows.map User.standing ++ joined := hrows ▸ List.mem_map_of_mem huser
    rw [← standing_isAdmin]
    exact hordinary _ ((List.mem_append.mp hmem).resolve_left hold)

/-- Only the accounts and the sessions matter. -/
theorem AuthorityKept.of_same {db' : Db} (hkept : AuthorityKept start db) (husers : db'.users = db.users)
    (hsessions : ∀ session ∈ db'.sessions.rows, ∃ old ∈ db.sessions.rows, old.id = session.id ∧ old.userId = session.userId) :
    AuthorityKept start db' where
  accounts := by
    unfold AccountsKept
    rw [husers]
    exact hkept.accounts
  sessions := by
    intro session hsession hadmin
    obtain ⟨old, hold, hid, huser⟩ := hsessions session hsession
    rw [← hid]
    exact hkept.sessions old hold (huser ▸ hadmin)
  next := by rw [husers]; exact hkept.next
  fresh := by rw [husers]; exact hkept.fresh

theorem authorityKept_deleteSessionsWhere (hkept : AuthorityKept start db) (p : Session → Bool) :
    AuthorityKept start (db.deleteSessionsWhere p).2 :=
  hkept.of_same rfl fun session hsession => ⟨session, (List.mem_filter.mp hsession).1, rfl, rfl⟩

theorem authorityKept_createUser (hkept : AuthorityKept start db) (username : String) (hash : Option String) (now : Instant) :
    AuthorityKept start (commit db (db.createUser username hash false now)).2 := by
  unfold Db.createUser
  split
  · exact hkept
  · obtain ⟨joined, hrows, hordinary⟩ := hkept.accounts
    refine ⟨⟨joined ++ [User.standing ⟨db.users.next, username, hash, false, false, now⟩], ?_, ?_⟩, hkept.sessions,
      Int.le_trans hkept.next (Int.le_of_lt (Int.lt_succ _)), ?_⟩
    · simp only [commit, AutoTable.insert, List.map_append, hrows, List.append_assoc]
      rfl
    · intro user huser
      rcases List.mem_append.mp huser with hin | hin
      · exact hordinary user hin
      · rw [List.mem_singleton.mp hin, standing_isAdmin]
    · intro user huser hnot
      rcases List.mem_append.mp huser with hin | hin
      · exact hkept.fresh user hin hnot
      · rw [List.mem_singleton.mp hin]
        exact hkept.next

theorem authorityKept_setUserPassword (hkept : AuthorityKept start db) {id : Int} (hash : String)
    (hordinary : ∀ row ∈ start.users.rows, row.id = id → row.isAdmin = false) :
    AuthorityKept start (db.setUserPassword id hash) := by
  have hsame : ∀ row ∈ db.users.rows,
      User.standing (if row.id = id then { row with passwordHash := some hash } else row) = row.standing := by
    intro row hrow
    split
    · rename_i hid
      have hnone : row.isAdmin = false := by
        refine Bool.eq_false_iff.mpr fun hadmin => ?_
        have hnot := hordinary row ((hkept.known hrow).mem hadmin) hid
        rw [hadmin] at hnot
        cases hnot
      simp [User.standing, hnone]
    · rfl
  have hrows : (db.setUserPassword id hash).users.rows.map User.standing = db.users.rows.map User.standing := by
    simp only [Db.setUserPassword, Db.updateUser, AutoTable.update_toTable, Table.update_rows, List.map_map]
    exact List.map_congr_left hsame
  refine ⟨?_, hkept.sessions, hkept.next, ?_⟩
  · unfold AccountsKept
    rw [hrows]
    exact hkept.accounts
  · intro user huser hnot
    simp only [Db.setUserPassword, Db.updateUser, AutoTable.update_toTable, Table.update_rows, List.mem_map] at huser
    obtain ⟨row, hrow, rfl⟩ := huser
    rw [hsame row hrow] at hnot
    have hlow := hkept.fresh row hrow hnot
    split
    · exact hlow
    · exact hlow

theorem authorityKept_createSession (hkept : AuthorityKept start db) (session : NewSession) (now : Instant)
    (hordinary : ¬ start.IsAdmin session.userId) :
    AuthorityKept start (commit db (db.createSession session now)).2 := by
  unfold Db.createSession
  split
  · exact hkept
  · split
    · exact hkept
    · rename_i table htable
      refine ⟨hkept.accounts, ?_, hkept.next, hkept.fresh⟩
      intro opened hopened hadmin
      have hrows : opened ∈ table.rows := hopened
      rw [db.sessions.insert_rows htable] at hrows
      rcases List.mem_append.mp hrows with hin | hin
      · exact hkept.sessions opened hin hadmin
      · rw [List.mem_singleton.mp hin] at hadmin
        exact absurd hadmin hordinary

theorem authorityKept_findSessionUser (hkept : AuthorityKept start db) (sessionId : String) (now : Instant) :
    AuthorityKept start (db.findSessionUser sessionId now).2 := by
  unfold Db.findSessionUser
  split
  · exact hkept
  · split
    · exact hkept
    · split
      · exact hkept
      · split
        · exact hkept
        · refine hkept.of_same rfl fun session hsession => ?_
          simp only [Table.update_rows, List.mem_map] at hsession
          obtain ⟨old, hold, rfl⟩ := hsession
          refine ⟨old, hold, ?_⟩
          split
          · exact ⟨(old.touched_id now).symm, (old.touched_userId now).symm⟩
          · exact ⟨rfl, rfl⟩

/-- **A call within bounds** keeps the accounts and the sessions. -/
theorem exec_authorityKept {c : StoreCall} (hwithin : c.Within start) (hkept : AuthorityKept start db) :
    AuthorityKept start (exec c db).2 := by
  cases c
  case createUser username hash isAdmin now =>
      obtain rfl : isAdmin = false := hwithin
      exact authorityKept_createUser hkept username hash now
  case deleteUser => exact hwithin.elim
  case setUserDisabled => exact hwithin.elim
  case setUserAdmin => exact hwithin.elim
  case setUserPassword id hash => exact authorityKept_setUserPassword hkept hash hwithin
  case createSession session now => exact authorityKept_createSession hkept session now hwithin
  case findSessionUser sessionId now => exact authorityKept_findSessionUser hkept sessionId now
  case deleteSession id => exact authorityKept_deleteSessionsWhere hkept _
  case deleteCappedSessionsForUser userId now => exact authorityKept_deleteSessionsWhere hkept _
  case deleteSessionOwned id userId => exact authorityKept_deleteSessionsWhere hkept _
  case deleteOtherSessionsForUser userId keepId => exact authorityKept_deleteSessionsWhere hkept _
  case deleteSessionsForUser userId => exact authorityKept_deleteSessionsWhere hkept _
  all_goals
    refine hkept.of_same (exec_frame (t := .users) (by simp [StoreCall.writes]) db) fun session hsession => ?_
    rw [exec_frame (t := .sessions) (by simp [StoreCall.writes]) db] at hsession
    exact ⟨session, hsession, rfl, rfl⟩

/-- Its answers show nobody's rights but to whom names them. -/
theorem shown_exec (c : StoreCall) (hkept : AuthorityKept start db) : Shown start c (exec c db).1 := by
  cases c
  case countUsers =>
      intro hsome
      obtain ⟨joined, hrows, -⟩ := hkept.accounts
      have hlength := congrArg List.length hrows
      have hpos := List.length_pos_iff.mpr hsome
      simp only [List.length_map, List.length_append] at hlength
      show 0 < (db.users.rows.length : Int)
      omega
  case createUser username hash isAdmin now =>
      simp only [exec, Db.createUser]
      split
      · trivial
      · exact hkept.next
  case findUserByUsername username =>
      simp only [exec, Db.findUserByUsername]
      cases hfind : db.users.rows.find? fun row => row.username = username with
      | none => trivial
      | some user =>
          exact ⟨by simpa using List.find?_some hfind, hkept.known (List.mem_of_find?_eq_some hfind)⟩
  case findUserById id =>
      simp only [exec, Db.findUserById]
      cases hfind : db.users.find id with
      | none => trivial
      | some user => exact ⟨Table.find_key _ hfind, hkept.known (Table.find_mem _ hfind)⟩
  case findSessionUser sessionId now =>
      show Shown start (.findSessionUser sessionId now) (.ok (db.findSessionUser sessionId now).1)
      cases hfound : (db.findSessionUser sessionId now).1 with
      | none => trivial
      | some user =>
          obtain ⟨⟨session, hsession, hid, -⟩, huser⟩ := findSessionUser_some hfound
          have hknown := hkept.known (Table.find_mem _ huser)
          refine ⟨hknown, fun hadmin => ?_⟩
          have hold := hknown.mem (Bool.and_eq_true_iff.mp hadmin).1
          rw [← Table.find_key _ hsession]
          exact hkept.sessions session (Table.find_mem _ hsession) ⟨user, hold, hid.symm, hadmin⟩
  all_goals trivial

end Store

end Pingward
