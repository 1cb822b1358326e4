import Pingward.FrameAuth
import Pingward.FrameCalls
import Pingward.ProgramInterleave
import Pingward.RowOperation

/-! Signing in while the account is being revoked. A password change, a reset and a disable first update
the user and then delete its sessions; a sign-in reads the user, verifies the password and inserts its
session later. The revocation wins as long as the insert does not come after the delete. -/

open KeyedTable StoreProgram

namespace Pingward

/-! ### Requests -/

/-- Sign-ins, and the requests of a signed-in user that withdraw a credential. -/
inductive AccessRequest where
  | login (ctx : WebContext) (sid : String) (creds : Credentials)
  | changePassword (ctx : WebContext) (sid : String) (user : User) (form : ChangePasswordForm)
  | resetPassword (ctx : WebContext) (sid : String) (user : User) (id : Int) (password : String)
  | setDisabled (ctx : WebContext) (sid : String) (user : User) (id : Int) (confirmed : Bool)

def AccessRequest.program (X : Crates) : AccessRequest → StoreProg Unit Unit
  | .login ctx sid creds => (loginSubmit X ctx sid creds).erase
  | .changePassword ctx sid user form => (accountPassword X ctx sid user form).erase
  | .resetPassword ctx sid user id password => (usersSetPassword X ctx sid user id password).erase
  | .setDisabled ctx sid user id confirmed => (usersSetDisabled X ctx sid user id confirmed).erase

/-- The id a sign-in gives its session. -/
def AccessRequest.freshSession : AccessRequest → Option String
  | .login ctx _ _ => some ctx.freshSession
  | _ => none

/-! ### What the calls do -/

/-- The user whose password or access a call withdraws. -/
def StoreCall.withdraws : StoreCall → Option Int
  | .setUserPassword id _ => some id
  | .setUserDisabled id disabled => if disabled then some id else none
  | _ => none

/-- The user whose sessions a call deletes, and the one it keeps. -/
def StoreCall.endsSessions : StoreCall → Option (Int × Option String)
  | .deleteSessionsForUser id => some (id, none)
  | .deleteOtherSessionsForUser id keepId => some (id, some keepId)
  | _ => none

/-- The call by which a sign-in reads the user. -/
def StoreCall.readsAccount : StoreCall → Bool
  | .findUserByUsername _ => true
  | _ => false

/-- A call that opens no session makes none. -/
theorem exec_sessions_of_ne {c : StoreCall} (hc : ∀ session now, c ≠ .createSession session now) {db : Db} {row : Session}
    (hrow : row ∈ (exec c db).2.sessions.rows) :
    ∃ before ∈ db.sessions.rows, before.id = row.id ∧ before.userId = row.userId := by
  by_cases hwrites : TableName.sessions ∈ c.writes
  · have hdelete : ∀ p : Session → Bool, row ∈ (db.deleteSessionsWhere p).2.sessions.rows →
        ∃ before ∈ db.sessions.rows, before.id = row.id ∧ before.userId = row.userId :=
      fun p hmem => ⟨row, (List.mem_filter.mp hmem).1, rfl, rfl⟩
    cases c
    case createSession session now => exact absurd rfl (hc session now)
    case findSessionUser id now =>
      simp only [exec, Db.findSessionUser] at hrow
      split at hrow
      · exact ⟨row, hrow, rfl, rfl⟩
      · split at hrow
        · exact ⟨row, hrow, rfl, rfl⟩
        · split at hrow
          · exact ⟨row, hrow, rfl, rfl⟩
          · split at hrow
            · exact ⟨row, hrow, rfl, rfl⟩
            · simp only [Table.update_rows, List.mem_map] at hrow
              obtain ⟨before, hbefore, rfl⟩ := hrow
              refine ⟨before, hbefore, ?_⟩
              split
              · exact ⟨(before.touched_id now).symm, by simp [Session.touched]; split <;> rfl⟩
              · exact ⟨rfl, rfl⟩
    case deleteUser id => exact ⟨row, (List.mem_filter.mp hrow).1, rfl, rfl⟩
    case deleteSession id => exact hdelete _ hrow
    case deleteCappedSessionsForUser id now => exact hdelete _ hrow
    case deleteSessionOwned id userId => exact hdelete _ hrow
    case deleteOtherSessionsForUser id keepId => exact hdelete _ hrow
    case deleteSessionsForUser id => exact hdelete _ hrow
    all_goals simp [StoreCall.writes] at hwrites
  · have hsame : (exec c db).2.sessions = db.sessions := exec_frame hwrites db
    rw [hsame] at hrow
    exact ⟨row, hrow, rfl, rfl⟩

theorem exec_createSession_rows {session : NewSession} {now : Instant} {db : Db} {row : Session}
    (hrow : row ∈ (exec (.createSession session now) db).2.sessions.rows) :
    row ∈ db.sessions.rows ∨ row.id = session.id ∧ row.userId = session.userId := by
  simp only [exec, Db.createSession] at hrow
  split at hrow
  · exact Or.inl hrow
  · split at hrow
    · exact Or.inl hrow
    · rename_i table htable
      simp only [commit] at hrow
      rw [Table.insert_rows _ htable] at hrow
      rcases List.mem_append.mp hrow with hold | hnew
      · exact Or.inl hold
      · rw [List.mem_singleton.mp hnew]
        exact Or.inr ⟨rfl, rfl⟩

theorem exec_endsSessions {c : StoreCall} {uid : Int} {keep : Option String} (hc : c.endsSessions = some (uid, keep))
    {db : Db} {row : Session} (hrow : row ∈ (exec c db).2.sessions.rows) (huser : row.userId = uid) :
    keep = some row.id := by
  cases c
  case deleteSessionsForUser id =>
    cases hc
    simp [exec, Db.deleteSessionsWhere, huser] at hrow
  case deleteOtherSessionsForUser id keepId =>
    cases hc
    have hkept : row.userId = uid → row.id = keepId := by
      simpa [exec, Db.deleteSessionsWhere, imp_iff_not_or] using (List.mem_filter.mp hrow).2
    rw [hkept huser]
  all_goals cases hc

theorem findSessionUser_row {db : Db} {id : String} {now : Instant} {user : User}
    (hfound : (db.findSessionUser id now).1 = some user) :
    ∃ row ∈ db.sessions.rows, row.id = id ∧ row.userId = user.id := by
  unfold Db.findSessionUser at hfound
  split at hfound
  · cases hfound
  · rename_i session hsession
    split at hfound
    · cases hfound
    · rename_i account haccount
      split at hfound
      · cases hfound
      · split at hfound
        · cases hfound
        · cases hfound
          exact ⟨session, Table.find_mem _ hsession, Table.find_key _ hsession, (Table.find_key _ haccount).symm⟩

/-! ### What the requests do -/

section Handlers

variable {A α β : Type} {X : Crates} {ctx : WebContext} {sid : String} {user : User}

/-- Whoever withdraws a credential goes on to delete the user's sessions, and a session opened has the id
`fresh`. -/
def RevokesPromptly (fresh : Option String) (program : StoreProg A α) : Prop :=
  program.AtCalls fun c next =>
    (∀ uid, c.withdraws = some uid → ∀ answer, ∃ d rest keep, next (.ok answer) = .call d rest ∧
      d.endsSessions = some (uid, keep)) ∧
    ∀ session now, c = .createSession session now → fresh = some session.id

/-- A call that neither withdraws nor opens anything. -/
def StoreCall.Plain (c : StoreCall) : Prop := c.withdraws = none ∧ ∀ session now, c ≠ .createSession session now

variable {fresh : Option String}

theorem RevokesPromptly.bind {program : StoreProg A α} {rest : α → StoreProg A β}
    (hplain : program.Only StoreCall.Plain fun _ => True) (hrest : ∀ value, RevokesPromptly fresh (rest value)) :
    RevokesPromptly fresh (program.bind rest) := by
  refine Prog.AtCalls.bind hplain (fun c next hc => ⟨fun uid huid => ?_, fun session now hsession => ?_⟩) hrest
  · rw [hc.1] at huid
    cases huid
  · exact absurd hsession (hc.2 session now)

theorem RevokesPromptly.of_plain {program : StoreProg A α} (hplain : program.Only StoreCall.Plain fun _ => True) :
    RevokesPromptly fresh program := by
  have hbind : RevokesPromptly fresh (program.bind .ret) := RevokesPromptly.bind hplain fun _ => trivial
  rwa [Prog.bind_ret] at hbind

theorem RevokesPromptly.erase {program : StoreProg A α} (hprompt : RevokesPromptly fresh program) :
    RevokesPromptly fresh program.erase := by
  refine Prog.AtCalls.erase hprompt fun c next ⟨hwithdraws, hopens⟩ => ⟨fun uid huid answer => ?_, hopens⟩
  obtain ⟨d, rest, keep, hnext, hends⟩ := hwithdraws uid huid answer
  exact ⟨d, fun answer => (rest answer).erase, keep, congrArg Prog.erase hnext, hends⟩

theorem store_plain {c : StoreCall} (hc : c.Plain) : (store c).Only StoreCall.Plain fun _ => True := store_only hc

theorem auditUser_plain (action : String) (target : Int) (detail : Option String) :
    (auditUser ctx user action target detail).Only StoreCall.Plain fun _ => True :=
  (store_plain ⟨rfl, by simp⟩).bind fun _ => trivial

theorem lastAdminGuard_plain (target : User) : (lastAdminGuard target).Only StoreCall.Plain fun _ => True := by
  unfold lastAdminGuard
  split
  · trivial
  · exact (store_plain ⟨rfl, by simp⟩).bind fun _ => trivial

theorem renderAccount_plain (parts : AccountRender) :
    (renderAccount X ctx sid user parts).Only StoreCall.Plain fun _ => True :=
  (store_plain ⟨rfl, by simp⟩).bind fun _ => (store_plain ⟨rfl, by simp⟩).bind fun _ =>
    (store_plain ⟨rfl, by simp⟩).bind fun _ => trivial

theorem hashOrFail_plain (plain : String) : (hashOrFail X ctx plain).Only StoreCall.Plain fun _ => True := by
  unfold hashOrFail
  split <;> trivial

/-- A withdrawal and the deletion right after it. -/
theorem prompt_pair {c d : StoreCall} {uid : Int} {keep : Option String} {rest : d.Res → StoreProg AppError β}
    (hc : ∀ uid', c.withdraws = some uid' → uid' = uid) (hc' : ∀ session now, c ≠ .createSession session now)
    (hd : d.endsSessions = some (uid, keep)) (hd' : d.Plain) (hrest : ∀ answer, RevokesPromptly fresh (rest answer)) :
    RevokesPromptly fresh ((store c).bind fun _ => (store d).bind rest) := by
  refine Prog.AtCalls.perform (fun next hnext => ⟨fun uid' huid answer => ?_, fun session now hsession => ?_⟩)
    fun _ => RevokesPromptly.bind (store_plain hd') hrest
  · rw [hc uid' huid, hnext answer]
    exact ⟨d, _, keep, rfl, hd⟩
  · exact absurd hsession (hc' session now)

theorem loginSubmit_prompt (creds : Credentials) :
    RevokesPromptly (some ctx.freshSession) (loginSubmit X ctx sid creds) := by
  unfold loginSubmit
  split
  · trivial
  · split
    · trivial
    · refine RevokesPromptly.bind (store_plain ⟨rfl, by simp⟩) fun found => ?_
      split
      · trivial
      · split
        · trivial
        · split
          · trivial
          · refine Prog.AtCalls.perform (fun next _ => ⟨fun uid huid => ?_, ?_⟩) fun _ => trivial
            · cases huid
            · rintro session now ⟨⟩
              rfl

theorem accountPassword_prompt (form : ChangePasswordForm) :
    RevokesPromptly fresh (accountPassword X ctx sid user form) := by
  have herror : ∀ msg, RevokesPromptly fresh (passwordError X ctx sid user msg) := fun msg =>
    RevokesPromptly.of_plain (renderAccount_plain _)
  unfold accountPassword
  split
  · trivial
  · split
    · exact herror _
    · exact herror _
    · split
      · exact herror _
      · split
        · exact herror _
        · refine RevokesPromptly.bind (hashOrFail_plain _) fun phc => ?_
          refine prompt_pair (fun uid' huid => (Option.some.inj huid).symm) (by simp) rfl ⟨rfl, by simp⟩ fun revoked => ?_
          exact RevokesPromptly.bind (store_plain ⟨rfl, by simp⟩) fun _ => trivial

theorem usersSetPassword_prompt (id : Int) (password : String) :
    RevokesPromptly fresh (usersSetPassword X ctx sid user id password) := by
  have hrest : ∀ (target : User) (revoked : Nat), RevokesPromptly fresh (do
      auditUser ctx user "user.password_reset" id (some ("sessions_revoked=" ++ toString revoked))
      let keys ← store (.listApiKeysForUser id)
      let keyCount := keys.countP fun k => k.expiresAt.all (ctx.now < ·)
      if 0 < keyCount ∧ !target.disabled then
        return Response.redirect "/admin"
          (some ("password_reset_keys:" ++ toString revoked ++ ":" ++ toString keyCount))
      return .redirect "/admin") := fun target revoked => by
    refine RevokesPromptly.bind (auditUser_plain ..) fun _ => RevokesPromptly.bind (store_plain ⟨rfl, by simp⟩) fun keys => ?_
    dsimp only
    split <;> trivial
  unfold usersSetPassword
  split
  · trivial
  · split
    · trivial
    · refine RevokesPromptly.bind (store_plain ⟨rfl, by simp⟩) fun found => ?_
      split
      · trivial
      · rename_i target
        refine RevokesPromptly.bind (hashOrFail_plain _) fun phc => ?_
        by_cases hself : id = user.id
        · simp only [if_pos hself]
          exact prompt_pair (fun uid' huid => (Option.some.inj huid).symm.trans hself) (by simp) rfl ⟨rfl, by simp⟩
            (hrest target)
        · simp only [if_neg hself]
          exact prompt_pair (fun uid' huid => (Option.some.inj huid).symm) (by simp) rfl ⟨rfl, by simp⟩ (hrest target)

theorem usersSetDisabled_prompt (id : Int) (confirmed : Bool) :
    RevokesPromptly fresh (usersSetDisabled X ctx sid user id confirmed) := by
  unfold usersSetDisabled
  split
  · trivial
  · refine RevokesPromptly.bind (store_plain ⟨rfl, by simp⟩) fun found => ?_
    split
    · trivial
    · rename_i target
      dsimp only
      refine RevokesPromptly.bind ?_ fun blocked => ?_
      · split
        · exact lastAdminGuard_plain _
        · trivial
      · split
        · trivial
        · split
          · trivial
          · cases hdisabled : target.disabled with
            | false =>
                refine prompt_pair (fun uid' huid => ?_) (by simp) rfl ⟨rfl, by simp⟩ fun revoked => ?_
                · simpa [StoreCall.withdraws] using huid.symm
                · exact RevokesPromptly.bind (auditUser_plain ..) fun _ => trivial
            | true =>
                refine RevokesPromptly.bind (store_plain ⟨rfl, by simp⟩) fun _ => ?_
                exact RevokesPromptly.bind (auditUser_plain ..) fun _ => trivial

theorem AccessRequest.prompt (X : Crates) (request : AccessRequest) :
    RevokesPromptly request.freshSession (request.program X) := by
  cases request with
  | login ctx sid creds => exact (loginSubmit_prompt creds).erase
  | changePassword ctx sid user form => exact (accountPassword_prompt form).erase
  | resetPassword ctx sid user id password => exact (usersSetPassword_prompt id password).erase
  | setDisabled ctx sid user id confirmed => exact (usersSetDisabled_prompt id confirmed).erase

end Handlers

/-! ### Any order of steps -/

section Run

variable {ι : Type}

/-- The calls answered since `i` read its user, newest first. -/
def sinceRead [DecidableEq ι] (i : ι) (trace : List (ι × StoreCall)) : List (ι × StoreCall) :=
  trace.takeWhile fun entry => !(entry.1 = i ∧ entry.2.readsAccount)

/-- `j` withdrew a credential of the user and then deleted its sessions, within these calls. -/
def Revoked (uid : Int) (j : ι) (keep : Option String) (calls : List (ι × StoreCall)) : Prop :=
  ∃ later c earlier d, calls = later ++ (j, c) :: earlier ∧ c.endsSessions = some (uid, keep) ∧
    (j, d) ∈ earlier ∧ d.withdraws = some uid

theorem Revoked.cons {uid : Int} {j : ι} {keep : Option String} {calls : List (ι × StoreCall)}
    (hrevoked : Revoked uid j keep calls) (entry : ι × StoreCall) : Revoked uid j keep (entry :: calls) := by
  obtain ⟨later, c, earlier, d, rfl, hrest⟩ := hrevoked
  exact ⟨entry :: later, c, earlier, d, rfl, hrest⟩

/-- A call more: the revocation was complete before, or this is its deletion. -/
theorem revoked_cons {uid : Int} {j : ι} {keep : Option String} {calls : List (ι × StoreCall)} {entry : ι × StoreCall}
    (hrevoked : Revoked uid j keep (entry :: calls)) :
    Revoked uid j keep calls ∨ entry.1 = j ∧ entry.2.endsSessions = some (uid, keep) := by
  obtain ⟨later, c, earlier, d, hsplit, hends, hwithdraws⟩ := hrevoked
  cases later with
  | nil =>
      rw [List.nil_append, List.cons.injEq] at hsplit
      rw [hsplit.1]
      exact Or.inr ⟨rfl, hends⟩
  | cons head later =>
      rw [List.cons_append, List.cons.injEq] at hsplit
      exact Or.inl ⟨later, c, earlier, d, hsplit.2, hends, hwithdraws⟩

variable [DecidableEq ι]

/-- A session is opened only if no revocation of its user has been carried out since the sign-in read the
user. -/
def OpensInTime (cfg : Config ι StoreCall StoreCall.Res StoreError Spawned Unit Unit Db) (i : ι) : Prop :=
  ∀ session now next, cfg.pool i = .call (.createSession session now) next →
    ∀ j keep, ¬Revoked session.userId j keep (sinceRead i cfg.trace)

theorem mem_of_sinceRead {i : ι} {entry : ι × StoreCall} {trace : List (ι × StoreCall)}
    (hmem : entry ∈ sinceRead i trace) : entry ∈ trace := (List.takeWhile_sublist _).mem hmem

theorem sinceRead_cons (i k : ι) (c : StoreCall) (trace : List (ι × StoreCall)) :
    sinceRead i ((k, c) :: trace) = [] ∨ sinceRead i ((k, c) :: trace) = (k, c) :: sinceRead i trace := by
  unfold sinceRead
  rw [List.takeWhile_cons]
  split
  · exact Or.inr rfl
  · exact Or.inl rfl

/-- What holds along a run: the requests are what they were, who has withdrawn is about to delete or has
deleted, and the sessions opened before a revocation are gone after it. -/
structure AccessInv (fresh : ι → Option String) (cfg : Config ι StoreCall StoreCall.Res StoreError Spawned Unit Unit Db) :
    Prop where
  prompt : ∀ i, RevokesPromptly (fresh i) (cfg.pool i)
  opened : ∀ i session now, (i, .createSession session now) ∈ cfg.trace → fresh i = some session.id
  deleting : ∀ i j d uid, (j, d) ∈ sinceRead i cfg.trace → d.withdraws = some uid →
    (∃ c next keep, cfg.pool j = .call c next ∧ c.endsSessions = some (uid, keep)) ∨
      ∃ keep, Revoked uid j keep (sinceRead i cfg.trace)
  gone : ∀ i j keep session now, (i, .createSession session now) ∈ sinceRead i cfg.trace →
    Revoked session.userId j keep (sinceRead i cfg.trace) → keep ≠ some session.id →
      ∀ row ∈ cfg.state.sessions.rows, row.id = session.id → row.userId ≠ session.userId

section Step

variable {fresh : ι → Option String} {cfg : Config ι StoreCall StoreCall.Res StoreError Spawned Unit Unit Db} {k : ι}
  {c : StoreCall} {next : Except StoreError c.Res → StoreProg Unit Unit}

theorem AccessInv.deleting_call (hinv : AccessInv fresh cfg) (hpool : cfg.pool k = .call c next) (i j : ι) (d : StoreCall)
    (uid : Int) (hmem : (j, d) ∈ sinceRead i ((k, c) :: cfg.trace)) (hd : d.withdraws = some uid) :
    (∃ c' next' keep, Function.update cfg.pool k (next (exec c cfg.state).1) j = .call c' next' ∧
        c'.endsSessions = some (uid, keep)) ∨
      ∃ keep, Revoked uid j keep (sinceRead i ((k, c) :: cfg.trace)) := by
  rcases sinceRead_cons i k c cfg.trace with hnil | hcons
  · rw [hnil] at hmem
    cases hmem
  · rw [hcons] at hmem ⊢
    rcases List.mem_cons.mp hmem with heq | hbefore
    · -- The new call is the withdrawal: the deletion comes next.
      cases heq
      have hprompt := hinv.prompt k
      rw [hpool] at hprompt
      have hok : ∃ answer, (exec c cfg.state).1 = .ok answer := by
        cases c
        case setUserPassword id hash => exact ⟨(), rfl⟩
        case setUserDisabled id disabled => exact ⟨(), rfl⟩
        all_goals cases hd
      obtain ⟨answer, hok⟩ := hok
      obtain ⟨c', rest, keep, hnext, hends⟩ := hprompt.1.1 uid hd answer
      refine Or.inl ⟨c', rest, keep, ?_, hends⟩
      rw [Function.update_self, hok, hnext]
    · rcases hinv.deleting i j d uid hbefore hd with ⟨c', next', keep, hpool', hends⟩ | ⟨keep, hrevoked⟩
      · by_cases heq : j = k
        · subst heq
          rw [hpool, Prog.call.injEq] at hpool'
          obtain ⟨rfl, _⟩ := hpool'
          exact Or.inr ⟨keep, [], c, sinceRead i cfg.trace, d, rfl, hends, hbefore, hd⟩
        · exact Or.inl ⟨c', next', keep, by rw [Function.update_of_ne heq]; exact hpool', hends⟩
      · exact Or.inr ⟨keep, hrevoked.cons _⟩

theorem AccessInv.gone_call (hfresh : ∀ i j id, fresh i = some id → fresh j = some id → i = j) (hinv : AccessInv fresh cfg)
    (hallowed : OpensInTime cfg k) (hpool : cfg.pool k = .call c next) (i j : ι) (keep : Option String)
    (session : NewSession) (now : Instant)
    (hmem : (i, .createSession session now) ∈ sinceRead i ((k, c) :: cfg.trace))
    (hrevoked : Revoked session.userId j keep (sinceRead i ((k, c) :: cfg.trace))) (hkeep : keep ≠ some session.id)
    (row : Session) (hrow : row ∈ (exec c cfg.state).2.sessions.rows) (hid : row.id = session.id) :
    row.userId ≠ session.userId := by
  intro huser
  rcases sinceRead_cons i k c cfg.trace with hnil | hcons
  · rw [hnil] at hmem
    cases hmem
  · rw [hcons] at hmem hrevoked
    rcases revoked_cons hrevoked with hbefore | ⟨_, hends⟩
    · rcases List.mem_cons.mp hmem with heq | hearlier
      · -- The sign-in opens its session: no revocation stands before it.
        cases heq
        exact hallowed session now next hpool j keep hbefore
      · have hold := hinv.gone i j keep session now hearlier hbefore hkeep
        by_cases hcreate : ∃ session' now', c = .createSession session' now'
        · obtain ⟨session', now', rfl⟩ := hcreate
          rcases exec_createSession_rows hrow with hmem' | ⟨hid', huser'⟩
          · exact hold row hmem' hid huser
          · have hprompt := hinv.prompt k
            rw [hpool] at hprompt
            have hown := hprompt.1.2 session' now' rfl
            have hopened := hinv.opened i session now (mem_of_sinceRead hearlier)
            obtain rfl := hfresh k i session.id (by rw [hown, ← hid', hid]) hopened
            apply hallowed session' now' next hpool j keep
            rw [← huser', huser]
            exact hbefore
        · obtain ⟨before, hbefore', hid', huser'⟩ :=
            exec_sessions_of_ne (fun session' now' heq => hcreate ⟨session', now', heq⟩) hrow
          exact hold before hbefore' (hid'.trans hid) (huser'.trans huser)
    · exact hkeep ((exec_endsSessions hends hrow huser).trans (congrArg some hid))

end Step

theorem AccessInv.step {fresh : ι → Option String} (hfresh : ∀ i j id, fresh i = some id → fresh j = some id → i = j)
    {cfg cfg' : Config ι StoreCall StoreCall.Res StoreError Spawned Unit Unit Db} {k : ι} (hinv : AccessInv fresh cfg)
    (hallowed : OpensInTime cfg k) (hstep : cfg.advance exec k = some cfg') : AccessInv fresh cfg' := by
  have hprompt := Config.advance_inherit exec (fun _ _ _ h => h) (fun _ _ _ h => h.2) hinv.prompt hstep
  rcases Config.advance_cases exec hstep with ⟨event, next, hpool, rfl⟩ | ⟨c, next, hpool, rfl⟩
  · refine ⟨hprompt, hinv.opened, fun i j d uid hmem hd => ?_, hinv.gone⟩
    refine (hinv.deleting i j d uid hmem hd).imp_left fun ⟨c, next', keep, hpool', hends⟩ => ?_
    have hne : j ≠ k := by
      rintro rfl
      rw [hpool] at hpool'
      cases hpool'
    exact ⟨c, next', keep, (Function.update_of_ne hne next cfg.pool).trans hpool', hends⟩
  · refine ⟨hprompt, fun i session now hmem => ?_, hinv.deleting_call hpool, hinv.gone_call hfresh hallowed hpool⟩
    rcases List.mem_cons.mp hmem with heq | hmem
    · cases heq
      have hi := hinv.prompt k
      rw [hpool] at hi
      exact hi.1.2 session now rfl
    · exact hinv.opened i session now hmem

/-- **Revocation beats a sign-in** that opens its session in time: once a password change, a reset or a
disable has ended, a session of the user whose sign-in had read the user before is not accepted, at any
time after, unless the request kept it on purpose. -/
theorem revocation_beats_login (X : Crates) (start : Db) (requests : ι → AccessRequest)
    (hfresh : ∀ i j id, (requests i).freshSession = some id → (requests j).freshSession = some id → i = j)
    {cfg : Config ι StoreCall StoreCall.Res StoreError Spawned Unit Unit Db}
    (hreach : Reach exec OpensInTime (.init (fun i => (requests i).program X) start) cfg) {i j : ι} {session : NewSession}
    {now : Instant} {d : StoreCall} (hopened : (i, .createSession session now) ∈ sinceRead i cfg.trace)
    (hwithdrew : (j, d) ∈ sinceRead i cfg.trace) (hd : d.withdraws = some session.userId) (hended : cfg.Finished j)
    (hkept : (j, .deleteOtherSessionsForUser session.userId session.id) ∉ cfg.trace) (t : Instant) :
    (cfg.state.findSessionUser session.id t).1.map User.id ≠ some session.userId := by
  have hinv : AccessInv (fun i => (requests i).freshSession) cfg := hreach.invariant exec _
    ⟨fun i => (requests i).prompt X, fun _ _ _ hmem => (by cases hmem), fun _ _ _ _ hmem => (by cases hmem),
      fun _ _ _ _ _ hmem => (by cases hmem)⟩
    fun cfg cfg' k hinv hallowed hstep => hinv.step hfresh hallowed hstep
  obtain ⟨keep, hrevoked⟩ : ∃ keep, Revoked session.userId j keep (sinceRead i cfg.trace) := by
    rcases hinv.deleting i j d _ hwithdrew hd with ⟨c, next, keep, hpool, _⟩ | hrevoked
    · rcases hended with ⟨value, hret⟩ | ⟨error, hfail⟩
      · rw [hpool] at hret
        cases hret
      · rw [hpool] at hfail
        cases hfail
    · exact hrevoked
  have hkeep : keep ≠ some session.id := by
    rintro rfl
    obtain ⟨later, c, earlier, _, hsplit, hends, _⟩ := hrevoked
    have hmem : (j, c) ∈ cfg.trace := mem_of_sinceRead (hsplit ▸ List.mem_append_right _ (List.mem_cons_self ..))
    cases c
    case deleteOtherSessionsForUser id keepId =>
      simp only [StoreCall.endsSessions, Option.some.injEq, Prod.mk.injEq] at hends
      obtain ⟨rfl, rfl⟩ := hends
      exact hkept hmem
    all_goals cases hends
  intro haccepted
  obtain ⟨user, hfound, huser⟩ := Option.map_eq_some_iff.mp haccepted
  obtain ⟨row, hrow, hid, hrowUser⟩ := findSessionUser_row hfound
  exact hinv.gone i j keep session now hopened hrevoked hkeep row hrow hid (hrowUser.trans huser)

end Run

/-! ### A sign-in and a disable -/

/-- An administrator and a user with a password. -/
def Db.adminAndUser : Db :=
  [StoreCall.createUser "alice" none true 0, .createUser "bob" (some "salt$secret") false 0].foldl
    (fun db c => (exec c db).2) .empty

def alice : User := ⟨1, "alice", none, true, false, 0⟩

/-- Bob signs in; alice disables bob, and enables him again. -/
def signInAndDisable : Fin 3 → AccessRequest
  | 0 => .login { WebContext.sample with freshSession := "s9" } "s0" ⟨"bob", "secret"⟩
  | _ => .setDisabled WebContext.sample "s1" alice 2 true

def signInAndDisableStart : Config (Fin 3) StoreCall StoreCall.Res StoreError Spawned Unit Unit Db :=
  .init (fun i => (signInAndDisable i).program plainCrates) .adminAndUser

/-- The session bob's sign-in opens. -/
def bobSession : NewSession := ⟨"s9", 2, 200 * nanosPerSec + sessionIdleTtl, none, none, false⟩

/-- Bob's sign-in had read bob before the disable, the disable has ended without keeping a session, and
bob's session was opened. -/
def disableEnded (cfg : Config (Fin 3) StoreCall StoreCall.Res StoreError Spawned Unit Unit Db) : Bool :=
  decide ((0, StoreCall.createSession bobSession (200 * nanosPerSec)) ∈ sinceRead 0 cfg.trace) &&
    decide ((1, StoreCall.setUserDisabled 2 true) ∈ sinceRead 0 cfg.trace) && cfg.isFinished 1 &&
    decide ((1, StoreCall.deleteOtherSessionsForUser 2 "s9") ∉ cfg.trace)

/-- No session has been deleted since the read. -/
def nothingDeleted (cfg : Config (Fin 3) StoreCall StoreCall.Res StoreError Spawned Unit Unit Db) (i : Fin 3) : Bool :=
  match cfg.pool i with
  | .call (.createSession _ _) _ => (sinceRead i cfg.trace).all fun entry => entry.2.endsSessions.isNone
  | _ => true

theorem opensInTime_of_test {cfg : Config (Fin 3) StoreCall StoreCall.Res StoreError Spawned Unit Unit Db} {i : Fin 3}
    (htest : nothingDeleted cfg i = true) : OpensInTime cfg i := by
  rintro session now next hpool j keep ⟨later, c, earlier, d, hsplit, hends, _⟩
  simp only [nothingDeleted, hpool, List.all_eq_true] at htest
  have hnone := htest (j, c) (hsplit ▸ List.mem_append_right _ (List.mem_cons_self ..))
  rw [hends] at hnone
  cases hnone

theorem revocation_beats_login_bob :
    ∃ cfg, Reach exec OpensInTime signInAndDisableStart cfg ∧ disableEnded cfg = true ∧
      ∀ t, (cfg.state.findSessionUser "s9" t).1.map User.id ≠ some 2 := by
  obtain ⟨cfg, hreach, hended⟩ := exists_reach exec (fun _ _ => opensInTime_of_test) [0, 0, 1, 1, 1, 1]
    (show (signInAndDisableStart.advanceWhen exec nothingDeleted [0, 0, 1, 1, 1, 1]).any disableEnded = true
      by decide +kernel)
  refine ⟨cfg, hreach, hended, fun t => ?_⟩
  simp only [disableEnded, Bool.and_eq_true, decide_eq_true_eq] at hended
  obtain ⟨⟨⟨hopened, hwithdrew⟩, hfinished⟩, hkept⟩ := hended
  refine revocation_beats_login plainCrates .adminAndUser signInAndDisable ?_ hreach hopened hwithdrew rfl
    (Config.finished_of_isFinished hfinished) hkept t
  decide

/-- Bob's sign-in reads bob and opens its session after the disable has deleted bob's sessions. The
session survives, and it is accepted once bob is enabled again. -/
theorem late_login_survives_disable :
    ∃ cfg, Reach exec (fun _ _ => True) signInAndDisableStart cfg ∧ disableEnded cfg = true ∧
      (cfg.state.findSessionUser "s9" (300 * nanosPerSec)).1.map (fun user => (user.id, user.disabled)) =
        some (2, false) := by
  obtain ⟨cfg, hreach, hfinal⟩ := exists_reach exec (fun _ _ _ => trivial : ∀ _ _, true = true → True)
    [0, 1, 1, 1, 1, 0, 2, 2, 2]
    (show (signInAndDisableStart.advanceWhen exec (fun _ _ => true) [0, 1, 1, 1, 1, 0, 2, 2, 2]).any
      (fun cfg => disableEnded cfg && decide ((cfg.state.findSessionUser "s9" (300 * nanosPerSec)).1.map
        (fun user => (user.id, user.disabled)) = some (2, false))) = true by decide +kernel)
  rw [Bool.and_eq_true, decide_eq_true_eq] at hfinal
  exact ⟨cfg, hreach, hfinal⟩

end Pingward
