import Pingward.TenantHandlers
import Pingward.RowOperation

/-! Whole requests of a user without the admin flag: authentication, sequences of requests, and what a
request can tell about a resource that is another user's. -/

open KeyedTable StoreProgram

namespace Pingward

/-! ### Authentication -/

/-- The session ids a request carries of its own: its cookie, or the anonymous id it was given. -/
def WebContext.carried (ctx : WebContext) : List String := ctx.sessionId.toList ++ [ctx.anonymousSession]

/-- The session id the handler sees and the user its extractor finds. -/
def authenticate (ctx : WebContext) : StoreProg AppError (String × Option User) := do
  let sid ← requestSession ctx
  let user ← resolveUser ctx sid
  return (sid, user)

section Auth

variable {u : Int} {carried : List String} {db : Db}

theorem keeps_attempt {A : Type} {c : StoreCall} {Q : Except StoreError c.Res → Db → Prop} (hmine : c.Mine u carried db)
    (hpost : Q (exec c db).1 (exec c db).2) : Keeps u carried Q (attemptCall c : StoreProg A _) db := by
  apply Prog.Meets.attempt
  rintro moved rfl answer after hanswer
  have hstate : after = (exec c db).2 := (congrArg Prod.snd hanswer).symm
  have hresult : answer = (exec c db).1 := (congrArg Prod.fst hanswer).symm
  subst hstate hresult
  exact ⟨exec_mine hmine, hpost⟩

/-- The gateway's user stands in the table and is not disabled. -/
theorem forwardAuthUser_keeps (ctx : WebContext) :
    Keeps u carried (fun found after => ∀ user, found = some user →
      after.users.find user.id = some user ∧ user.disabled = false) (forwardAuthUser ctx) db := by
  unfold forwardAuthUser
  split
  · intro user huser
    cases huser
  · rename_i username _
    refine (keeps_attempt (mine_of_reads rfl) (Q := fun answer after => after = db ∧
      answer = .ok (db.findUserByUsername username)) ⟨rfl, rfl⟩).bind ?_
    rintro answer after ⟨rfl, rfl⟩
    cases hfound : after.findUserByUsername username with
    | some row =>
        intro user huser
        split at huser
        · cases huser
        · cases huser
          rename_i henabled
          exact ⟨after.users.find_eq_some_iff.mpr ⟨List.mem_of_find?_eq_some hfound, rfl⟩, by simpa using henabled⟩
    | none =>
        refine (keeps_attempt (Q := fun answer state => ∀ id, answer = .ok id →
          ∀ user, state.users.find id = some user → user.id = id ∧ user.disabled = false) ?_ ?_).bind ?_
        · intro t ht hwrites
          rw [List.mem_singleton.mp hwrites] at ht
          simp at ht
        · intro id hid user huser
          refine ⟨Table.find_key _ huser, ?_⟩
          simp only [exec, Db.createUser, hfound, Option.isSome_none, Bool.false_eq_true, if_false] at hid huser
          cases hid
          have hinsert := AutoTable.find_insert after.users
            (fun id => (⟨id, username, none, false, false, ctx.now⟩ : User)) (fun _ => rfl) after.users.next
          rw [if_pos rfl] at hinsert
          have heq := hinsert.symm.trans huser
          rw [← Option.some.inj heq]
        · intro answer state hstate
          cases answer with
          | error error =>
              intro user huser
              cases huser
          | ok id =>
              refine (keeps_attempt (mine_of_reads rfl) (Q := fun answer next => next = state ∧
                answer = .ok (state.users.find id)) ⟨rfl, rfl⟩).bind ?_
              rintro answer next ⟨rfl, rfl⟩ user huser
              have hrow : next.users.find id = some user := huser
              obtain ⟨hid, henabled⟩ := hstate id rfl user hrow
              exact ⟨hid.symm ▸ hrow, henabled⟩

/-- A session just opened for an enabled user is that user's, and it is accepted. -/
theorem findSessionUser_createSession {session : NewSession} {now : Instant} {after : Db} {user : User}
    (huser : db.users.find session.userId = some user) (hexpiry : session.expiresAt = now + sessionIdleTtl)
    (hcreate : exec (.createSession session now) db = (.ok (), after)) :
    (after.findSessionUser session.id now).1 = some user ∧
      ∀ row, after.sessions.find session.id = some row → row.userId = session.userId := by
  simp only [exec, Db.createSession, huser, Option.isNone_some, Bool.false_eq_true, if_false] at hcreate
  split at hcreate
  · cases hcreate
  · rename_i table htable
    cases hcreate
    have hrow : table.find session.id = some (⟨session.id, session.userId, some now, none, session.expiresAt,
        session.userAgent, session.ip, session.sso⟩ : Session) := by
      refine (Table.find_eq_some_iff table).mpr ⟨?_, rfl⟩
      rw [db.sessions.insert_rows htable]
      exact List.mem_append_right _ (List.mem_singleton.mpr rfl)
    refine ⟨?_, fun row hfind => ?_⟩
    · have hlive : ¬session.expiresAt ≤ now := by
        rw [hexpiry, sessionIdleTtl, nanosPerSec]
        exact not_le.mpr (lt_add_of_pos_right _ (by decide))
      have hcap : isPastAbsoluteCap (some now) now = false := by
        rw [isPastAbsoluteCap, Option.any_some, sessionAbsoluteMax, nanosPerSec]
        exact decide_eq_false (not_le.mpr (lt_add_of_pos_right _ (by decide)))
      simp only [Db.findSessionUser, hrow, huser, hcap, if_neg hlive, Bool.false_eq_true, if_false]
    · have heq := hrow.symm.trans hfind
      rw [← Option.some.inj heq]

/-- What the layers hand on: an id the request carried, or the id of a session just opened for the
gateway's user. -/
def SessionGiven (ctx : WebContext) (u : Int) (carried : List String) (db : Db) (sid : String) (after : Db) : Prop :=
  sid ∈ ctx.carried ∧ after.others u carried = db.others u carried ∨
    ∃ gateway : User, (after.findSessionUser sid ctx.now).1 = some gateway ∧ gateway.disabled = false ∧
      (∀ row, after.sessions.find sid = some row → row.userId = gateway.id) ∧
      (gateway.id = u → after.others u carried = db.others u carried)

theorem Keeps.since {A α : Type} {Q : α → Db → Prop} {program : StoreProg A α} (hkeeps : Keeps u carried Q program db) :
    program.Meets Eq (answered exec) (fun _ _ => True)
      (fun value after => Q value after ∧ after.others u carried = db.others u carried) db :=
  (Prog.Meets.since_start hkeeps (fun _ => rfl) fun _ _ _ hab hbc => hbc.trans hab).mono (fun _ _ _ => trivial)
    fun _ _ h => h

theorem sessionLive_keeps {ctx : WebContext} (hcarried : ∀ id ∈ ctx.carried, id ∈ carried) :
    Keeps u carried (fun _ _ => True) (sessionLive ctx) db := by
  unfold sessionLive
  cases hid : ctx.sessionId with
  | none => trivial
  | some id =>
      have hmem : id ∈ ctx.carried := by simp [WebContext.carried, hid]
      have hmine : (StoreCall.findSessionUser id ctx.now).Mine u carried db := Or.inl (hcarried id hmem)
      exact (keeps_attempt hmine (Q := fun _ _ => True) trivial).bind fun _ _ _ => trivial

theorem cookie_carried (ctx : WebContext) : ctx.sessionId.getD ctx.anonymousSession ∈ ctx.carried := by
  unfold WebContext.carried
  cases ctx.sessionId with
  | none => exact List.mem_singleton.mpr rfl
  | some id => exact List.mem_cons_self ..

theorem requestSession_meets {ctx : WebContext} (hcarried : ∀ id ∈ ctx.carried, id ∈ carried) :
    (requestSession ctx).Meets Eq (answered exec) (fun _ _ => True) (SessionGiven ctx u carried db) db := by
  have hcookie : ∀ after : Db, after.others u carried = db.others u carried →
      SessionGiven ctx u carried db (ctx.sessionId.getD ctx.anonymousSession) after :=
    fun after hafter => Or.inl ⟨cookie_carried ctx, hafter⟩
  unfold requestSession
  split
  · exact hcookie db rfl
  · apply Prog.Meets.bind (sessionLive_keeps (u := u) hcarried).since
    rintro live db1 ⟨-, h1⟩
    split
    · exact hcookie db1 h1
    · apply Prog.Meets.bind (@forwardAuthUser_keeps u carried db1 ctx).since
      rintro found db2 ⟨hfound, h2⟩
      have h12 := h2.trans h1
      cases found with
      | none => exact hcookie db2 h12
      | some gateway =>
          obtain ⟨hrow, henabled⟩ := hfound gateway rfl
          refine Prog.Meets.bind (Q := fun answer db3 => exec (.createSession ⟨ctx.freshSession, gateway.id,
            ctx.now + sessionIdleTtl, ctx.userAgent, ctx.ip, true⟩ ctx.now) db2 = (answer, db3)) ?_ ?_
          · apply Prog.Meets.attempt
            rintro _ rfl answer db3 hanswer
            exact ⟨trivial, hanswer⟩
          · intro answer db3 hanswer
            cases answer with
            | error error =>
                apply hcookie db3
                have hsame : db3 = db2 := by
                  have hcommit := hanswer
                  simp only [exec] at hcommit
                  cases hcreate : db2.createSession ⟨ctx.freshSession, gateway.id, ctx.now + sessionIdleTtl,
                      ctx.userAgent, ctx.ip, true⟩ ctx.now with
                  | ok result =>
                      rw [hcreate] at hcommit
                      cases hcommit
                  | error error =>
                      rw [hcreate] at hcommit
                      cases hcommit
                      rfl
                rw [hsame, h12]
            | ok _ =>
                obtain ⟨haccepted, howner⟩ := findSessionUser_createSession hrow rfl hanswer
                refine Or.inr ⟨gateway, haccepted, henabled, howner, fun hu => ?_⟩
                have h3 : db3.others u carried = db2.others u carried := by
                  have hstate := (congrArg Prod.snd hanswer).symm
                  dsimp only at hstate
                  rw [hstate]
                  exact exec_mine hu
                exact h3.trans h12

/-- An accepted session has a row. -/
theorem findSessionUser_row_exists {sid : String} {now : Instant} {user : User}
    (hfound : (db.findSessionUser sid now).1 = some user) : ∃ row, db.sessions.find sid = some row := by
  unfold Db.findSessionUser at hfound
  cases hrow : db.sessions.find sid with
  | none =>
      rw [hrow] at hfound
      cases hfound
  | some row => exact ⟨row, rfl⟩

/-- Authenticating as a user touches no other user's rows, the refreshed columns of a session the request
carries apart. -/
theorem authenticate_others {ctx : WebContext} {sid : String} {user : User}
    (hcarried : ∀ id ∈ ctx.carried, id ∈ carried) (hauth : (run exec (authenticate ctx) db).outcome = .ok (sid, some user)) :
    (run exec (requestSession ctx) db).outcome = .ok sid ∧
      (run exec (resolveUser ctx sid) (run exec (requestSession ctx) db).state).outcome = .ok (some user) ∧
      (run exec (requestSession ctx) db).state.others user.id carried = db.others user.id carried ∧
      (run exec (resolveUser ctx sid) (run exec (requestSession ctx) db).state).state.others user.id carried =
        db.others user.id carried := by
  obtain ⟨sid', hsid, hauth⟩ := run_bind_eq_ok exec hauth
  obtain ⟨found, hfound, hauth⟩ := run_bind_eq_ok exec hauth
  cases hauth
  have hgiven := (requestSession_meets (u := user.id) hcarried).run_value hsid
  generalize hmid : (run exec (requestSession ctx) db).state = mid at hgiven hfound ⊢
  suffices hmine : (StoreCall.findSessionUser sid ctx.now).Mine user.id carried mid ∧
      mid.others user.id carried = db.others user.id carried by
    refine ⟨hsid, hfound, hmine.2, ?_⟩
    have hkeeps : Keeps user.id carried (fun _ _ => True) (resolveUser ctx sid) mid := by
      refine (keeps_attempt hmine.1 (Q := fun _ _ => True) trivial).bind fun answer after _ => ?_
      have hgateway : Keeps user.id carried (fun _ _ => True) (forwardAuthUser ctx) after :=
        (forwardAuthUser_keeps ctx).mono (fun _ _ h => h) fun _ _ _ => trivial
      split
      · split
        · exact hgateway
        · trivial
      · exact hgateway
    exact (hkeeps.run_state (fun _ => rfl) fun _ _ _ hab hbc => hbc.trans hab).trans hmine.2
  rcases hgiven with ⟨hsid', hmid'⟩ | ⟨gateway, haccepted, henabled, howner, hmid'⟩
  · exact ⟨Or.inl (hcarried sid hsid'), hmid'⟩
  · have heq : gateway = user := by
      have hran : (run exec (resolveUser ctx sid) mid).outcome = .ok (some gateway) := by
        unfold resolveUser
        simp only [Prog.bind_eq, attemptCall, Prog.attempt, Prog.call_bind, Prog.ret_bind, run_call, exec, haccepted,
          Except.toOption, Option.join_some, henabled]
        rfl
      exact Option.some.inj (Outcome.ok.inj (hran.symm.trans hfound))
    exact ⟨Or.inr fun row hrow => heq ▸ howner row hrow, hmid' (heq ▸ rfl)⟩

end Auth

/-! ### Requests -/

/-- A request of a signed-in visitor: an owner route, any route under `/admin`, or an API call. -/
inductive TenantRequest where
  | web (ctx : WebContext) (route : WebRoute)
  | admin (ctx : WebContext) (isPost : Bool) (handler : String → User → StoreProg AppError Response)
  | api (ctx : ApiContext) (route : ApiRoute)

inductive Reply where
  | web (outcome : Outcome AppError Response)
  | api (outcome : Outcome ApiError ApiResponse)
  deriving DecidableEq

namespace TenantRequest

/-- The reply to a request that is served alone, and the database after it. -/
def serve (X : Crates) (db : Db) : TenantRequest → Reply × Db
  | .web ctx route =>
      (.web (run exec (webRequest X ctx route) db).outcome, (run exec (webRequest X ctx route) db).state)
  | .admin ctx isPost handler =>
      (.web (run exec (asAdmin ctx isPost handler) db).outcome, (run exec (asAdmin ctx isPost handler) db).state)
  | .api ctx route =>
      (.api (run exec (apiRequest X ctx route) db).outcome, (run exec (apiRequest X ctx route) db).state)

def carried : TenantRequest → List String
  | .web ctx _ => ctx.carried
  | .admin ctx _ _ => ctx.carried
  | .api _ _ => []

/-- The user the request is authenticated as, with the session it is in for a request of a browser. -/
def authenticated (X : Crates) (db : Db) : TenantRequest → Option (Option String × User)
  | .web ctx _ | .admin ctx _ _ =>
      match (run exec (authenticate ctx) db).outcome with
      | .ok (sid, some user) => some (some sid, user)
      | _ => none
  | .api ctx _ =>
      match (run exec (apiUser X ctx) db).outcome with
      | .ok user => some (none, user)
      | _ => none

/-- A sign-out acts for the owner of the session it ends, every other request for the user it is
authenticated as. -/
def ActsFor (X : Crates) (u : Int) (db : Db) : TenantRequest → Prop
  | .web ctx .logout => ∃ sid, (run exec (requestSession ctx) db).outcome = .ok sid ∧
      ∀ row, (run exec (requestSession ctx) db).state.sessions.find sid = some row → row.userId = u
  | request => ∃ sid user, request.authenticated X db = some (sid, user) ∧ user.id = u ∧ user.isAdmin = false

end TenantRequest

section Isolation

variable {X : Crates} {u : Int} {carried : List String} {db : Db}

theorem Keeps.run_others {A α : Type} {program : StoreProg A α} (hkeeps : Keeps u carried (fun _ _ => True) program db) :
    (run exec program db).state.others u carried = db.others u carried :=
  hkeeps.run_state (fun _ => rfl) fun _ _ _ hab hbc => hbc.trans hab

theorem run_bind_state_of_ok {A α β : Type} {program : StoreProg A α} {rest : α → StoreProg A β} {value : α}
    (hok : (run exec program db).outcome = .ok value) :
    (run exec (program.bind rest) db).state = (run exec (rest value) (run exec program db).state).state := by
  rw [run_bind_of_ok exec hok]

theorem authenticated_web {ctx : WebContext} {sid : Option String} {user : User}
    (hauth : (match (run exec (authenticate ctx) db).outcome with
      | .ok (sid, some user) => some (some sid, user)
      | _ => none) = some (sid, user)) :
    ∃ id, sid = some id ∧ (run exec (authenticate ctx) db).outcome = .ok (id, some user) := by
  split at hauth
  · rename_i id user' houtcome
    cases hauth
    exact ⟨id, rfl, houtcome⟩
  · cases hauth

/-- The front of a request, then a handler that keeps to the rows of the user found. -/
theorem front_others {ctx : WebContext} {sid : String} {user : User} {refused : Bool}
    {f : Option User → StoreProg AppError Response} {answer : Response}
    (hcarried : ∀ id ∈ ctx.carried, id ∈ carried)
    (hauth : (run exec (authenticate ctx) db).outcome = .ok (sid, some user))
    (hrest : ∀ after, Keeps user.id carried (fun _ _ => True) (f (some user)) after)
    {program : String → StoreProg AppError Response}
    (hprogram : program sid = if refused then .ret answer else (resolveUser ctx sid).bind f) :
    (run exec ((requestSession ctx).bind program) db).state.others user.id carried = db.others user.id carried := by
  obtain ⟨hsid, huser, hmid, hafter⟩ := authenticate_others hcarried hauth
  rw [run_bind_state_of_ok hsid, hprogram]
  split
  · exact hmid
  · rw [run_bind_state_of_ok huser, (hrest _).run_others]
    exact hafter

theorem logout_others {ctx : WebContext} {sid : String} (hcarried : ∀ id ∈ ctx.carried, id ∈ carried)
    (hsid : (run exec (requestSession ctx) db).outcome = .ok sid)
    (hown : ∀ row, (run exec (requestSession ctx) db).state.sessions.find sid = some row → row.userId = u) :
    (run exec (webRequest X ctx .logout) db).state.others u carried = db.others u carried := by
  have hgiven := (requestSession_meets (u := u) hcarried).run_value hsid
  have hmid : (run exec (requestSession ctx) db).state.others u carried = db.others u carried := by
    rcases hgiven with ⟨_, hmid⟩ | ⟨gateway, haccepted, _, howner, hmid⟩
    · exact hmid
    · obtain ⟨row, hrow⟩ := findSessionUser_row_exists haccepted
      exact hmid ((howner row hrow).symm.trans (hown row hrow))
  apply (congrArg (fun after : Db => after.others u carried) (run_bind_state_of_ok hsid)).trans
  refine Eq.trans ?_ hmid
  dsimp only
  split
  · rfl
  · have hmine : (StoreCall.deleteSession sid).Mine u carried (run exec (requestSession ctx) db).state := hown
    refine Keeps.run_others (keeps_perform_bind hmine fun _ => ?_)
    split
    · trivial
    · split <;> trivial

/-- The caller of an API request owns the key it shows. -/
theorem apiUser_found {ctx : ApiContext} {user : User} (hauth : (run exec (apiUser X ctx) db).outcome = .ok user) :
    ∃ token, ctx.token = some token ∧ (db.validateApiKey (X.hashApiKey token) ctx.now).1 = some user.id ∧
      (run exec (apiUser X ctx) db).state = (db.validateApiKey (X.hashApiKey token) ctx.now).2 := by
  unfold apiUser at hauth ⊢
  cases htoken : ctx.token with
  | none =>
      rw [htoken] at hauth
      cases hauth
  | some token =>
      refine ⟨token, rfl, ?_⟩
      simp only [htoken, okOr, Prog.pure_eq, Prog.bind_eq, Prog.ret_bind, apiStore, Prog.perform, Prog.call_bind, run_call,
        exec] at hauth ⊢
      cases hvalid : (db.validateApiKey (X.hashApiKey token) ctx.now).1 with
      | none =>
          rw [hvalid] at hauth
          cases hauth
      | some userId =>
          simp only [hvalid, Prog.ret_bind, run_call, exec] at hauth ⊢
          cases hrow : (db.validateApiKey (X.hashApiKey token) ctx.now).2.findUserById userId with
          | none =>
              rw [hrow] at hauth
              cases hauth
          | some row =>
              simp only [hrow, Option.filter_some] at hauth ⊢
              cases hdisabled : row.disabled with
              | true =>
                  simp only [hdisabled] at hauth
                  cases hauth
              | false =>
                  simp only [hdisabled] at hauth ⊢
                  cases hauth
                  exact ⟨congrArg some (Table.find_key _ hrow).symm, rfl⟩

theorem apiRequest_others {ctx : ApiContext} {user : User} {route : ApiRoute}
    (hauth : (run exec (apiUser X ctx) db).outcome = .ok user) (hadmin : user.isAdmin = false) :
    (run exec (apiRequest X ctx route) db).state.others user.id carried = db.others user.id carried := by
  obtain ⟨token, _, hvalid, hstate⟩ := apiUser_found hauth
  apply (congrArg (fun after : Db => after.others user.id carried) (run_bind_state_of_ok hauth)).trans
  rw [((apiHandle_shape X route).keeps hadmin).run_others, hstate]
  refine others_validateApiKey fun v hv => ?_
  exact Option.some.inj (hv.symm.trans hvalid)

theorem webRequest_others {ctx : WebContext} {route : WebRoute} {sid : String} {user : User}
    (hcarried : ∀ id ∈ ctx.carried, id ∈ carried) (hroute : route ≠ .logout)
    (hauth : (run exec (authenticate ctx) db).outcome = .ok (sid, some user)) :
    (run exec (webRequest X ctx route) db).state.others user.id carried = db.others user.id carried := by
  have hhandle : ∀ after, Keeps user.id carried (fun _ _ => True) (webHandle X ctx sid user route) after :=
    fun _ => webHandle_keeps X ctx sid user hroute
  cases route with
  | logout => exact absurd rfl hroute
  | _ => exact front_others hcarried hauth hhandle rfl

theorem asAdmin_others {ctx : WebContext} {isPost : Bool} {handler : String → User → StoreProg AppError Response}
    {sid : String} {user : User} (hcarried : ∀ id ∈ ctx.carried, id ∈ carried) (hadmin : user.isAdmin = false)
    (hauth : (run exec (authenticate ctx) db).outcome = .ok (sid, some user)) :
    (run exec (asAdmin ctx isPost handler) db).state.others user.id carried = db.others user.id carried := by
  have hsplit : ∃ rest : String → Option User → StoreProg AppError Response,
      (∀ sid user, rest sid (some user) = if user.isAdmin then handler sid user else .ret (.status 403 "admin only")) ∧
      asAdmin ctx isPost handler = (requestSession ctx).bind fun sid =>
        if isPost && !ctx.csrfOk then .ret (.status 403 "") else (resolveUser ctx sid).bind (rest sid) :=
    ⟨_, fun _ _ => rfl, rfl⟩
  obtain ⟨rest, hrest, hasAdmin⟩ := hsplit
  rw [hasAdmin]
  refine front_others hcarried hauth (f := rest sid) (fun after => ?_) rfl
  rw [hrest, hadmin]
  exact Reads.keepsAll trivial

end Isolation

/-! ### Sequences of requests -/

namespace TenantRequest

/-- The requests one after another. -/
def serveAll (X : Crates) (db : Db) (requests : List TenantRequest) : Db :=
  requests.foldl (fun db request => (request.serve X db).2) db

/-- Each request acts for the user in the state it meets. -/
def AllActFor (X : Crates) (u : Int) : Db → List TenantRequest → Prop
  | _, [] => True
  | db, request :: rest => request.ActsFor X u db ∧ AllActFor X u (request.serve X db).2 rest

end TenantRequest

theorem actsFor_web {X : Crates} {u : Int} {db : Db} {ctx : WebContext} {route : WebRoute} (hroute : route ≠ .logout)
    (hacts : (TenantRequest.web ctx route).ActsFor X u db) :
    ∃ sid user, (run exec (authenticate ctx) db).outcome = .ok (sid, some user) ∧ user.id = u := by
  have hsome : ∃ sid user, (TenantRequest.web ctx route).authenticated X db = some (sid, user) ∧ user.id = u ∧
      user.isAdmin = false := by
    cases route with
    | logout => exact absurd rfl hroute
    | _ => exact hacts
  obtain ⟨sid, user, hauth, hu, _⟩ := hsome
  obtain ⟨id, _, houtcome⟩ := authenticated_web hauth
  exact ⟨id, user, houtcome, hu⟩

theorem serve_others {X : Crates} {u : Int} {carried : List String} {db : Db} {request : TenantRequest}
    (hcarried : ∀ id ∈ request.carried, id ∈ carried) (hacts : request.ActsFor X u db) :
    (request.serve X db).2.others u carried = db.others u carried := by
  cases request with
  | web ctx route =>
      by_cases hroute : route = .logout
      · subst hroute
        obtain ⟨sid, hsid, hown⟩ := hacts
        exact logout_others hcarried hsid hown
      · obtain ⟨sid, user, hauth, rfl⟩ := actsFor_web hroute hacts
        exact webRequest_others hcarried hroute hauth
  | admin ctx isPost handler =>
      obtain ⟨sid, user, hauth, rfl, hadmin⟩ := hacts
      obtain ⟨id, _, houtcome⟩ := authenticated_web hauth
      exact asAdmin_others hcarried hadmin houtcome
  | api ctx route =>
      obtain ⟨sid, user, hauth, rfl, hadmin⟩ := hacts
      have houtcome : (run exec (apiUser X ctx) db).outcome = .ok user := by
        simp only [TenantRequest.authenticated] at hauth
        split at hauth
        · rename_i found houtcome
          cases hauth
          exact houtcome
        · cases hauth
      exact apiRequest_others houtcome hadmin

theorem serveAll_others {X : Crates} {u : Int} {carried : List String} {requests : List TenantRequest} {db : Db}
    (hcarried : ∀ request ∈ requests, ∀ id ∈ request.carried, id ∈ carried)
    (hacts : TenantRequest.AllActFor X u db requests) :
    (TenantRequest.serveAll X db requests).others u carried = db.others u carried := by
  induction requests generalizing db with
  | nil => rfl
  | cons request rest ih =>
      have hfirst := serve_others (hcarried request (List.mem_cons_self ..)) hacts.1
      have hrest := ih (fun other hother => hcarried other (List.mem_cons_of_mem _ hother)) hacts.2
      exact hrest.trans hfirst

/-! ### What a request can tell -/

namespace Db

def ownProject (db : Db) (u id : Int) : Bool := (db.findProject id).any fun row => row.userId = u

def ownCheck (db : Db) (u id : Int) : Bool := (db.findCheck id).any fun row => db.ownProject u row.projectId

def ownChannel (db : Db) (u id : Int) : Bool := (db.findChannel id).any fun row => db.ownProject u row.projectId

/-- Whether the resource is there and is `u`'s: a missing one is nobody's. -/
def owns (X : Crates) (db : Db) (u : Int) : Address → Bool
  | .project id => db.ownProject u id
  | .check id => db.ownCheck u id
  | .channel id => db.ownChannel u id
  | .apiKey id => db.apiKeys.rows.any fun row => row.id = id ∧ row.userId = u
  | .session handle => db.sessions.rows.any fun row => X.hashApiKey row.id = handle ∧ row.userId = u

end Db

section Hidden

variable {u : Int} {db : Db}

theorem ownedProject_run_hidden {id : Int} (hidden : db.ownProject u id = false) :
    run exec (ownedProject id u) db = ⟨.fail .notFound, db, []⟩ := by
  unfold ownedProject
  simp only [Prog.bind_eq, store, Prog.perform, Prog.call_bind, run_call, exec, Prog.ret_bind]
  cases hfound : db.findProject id with
  | none => rfl
  | some project =>
      have hne : project.userId ≠ u := by simpa [Db.ownProject, hfound] using hidden
      simp only [if_pos hne, run_fail]

theorem ownedCheck_run_hidden {id : Int} (hidden : db.ownCheck u id = false) :
    run exec (ownedCheck id u) db = ⟨.fail .notFound, db, []⟩ := by
  unfold ownedCheck
  simp only [Prog.bind_eq, store, Prog.perform, Prog.call_bind, run_call, exec, Prog.ret_bind]
  cases hfound : db.findCheck id with
  | none => rfl
  | some check =>
      have hproject : db.ownProject u check.projectId = false := by simpa [Db.ownCheck, hfound] using hidden
      exact run_bind_of_fail exec (ownedProject_run_hidden hproject)

theorem ownedChannel_run_hidden {id : Int} (hidden : db.ownChannel u id = false) :
    run exec (ownedChannel id u) db = ⟨.fail .notFound, db, []⟩ := by
  unfold ownedChannel
  simp only [Prog.bind_eq, store, Prog.perform, Prog.call_bind, run_call, exec, Prog.ret_bind]
  cases hfound : db.findChannel id with
  | none => rfl
  | some channel =>
      have hproject : db.ownProject u channel.projectId = false := by simpa [Db.ownChannel, hfound] using hidden
      exact run_bind_of_fail exec (ownedProject_run_hidden hproject)

theorem channelTest_run_hidden (X : Crates) (ctx : WebContext) (sid : String) (user : User) {id : Int}
    (hidden : db.ownChannel user.id id = false) :
    run exec (channelTest X ctx sid user id) db = ⟨.fail .notFound, db, []⟩ := by
  unfold channelTest
  simp only [Prog.bind_eq, store, Prog.perform, Prog.call_bind, run_call, exec, Prog.ret_bind]
  cases hfound : db.findChannel id with
  | none => rfl
  | some channel =>
      have hproject : db.ownProject user.id channel.projectId = false := by simpa [Db.ownChannel, hfound] using hidden
      exact run_bind_of_fail exec (ownedProject_run_hidden hproject)

/-- The reply to a request whose resource is not the user's. -/
def hiddenReply (X : Crates) (sid : String) (user : User) : WebRoute → Outcome AppError Response
  | .apiKeysDelete id false =>
      .ok (.page (.confirm confirmRevokeApiKey
        ("/account/api-keys/" ++ i64ToString id ++ "/delete" ++
          (if ("/account/api-keys/" ++ i64ToString id ++ "/delete").toList.contains '?' then "&" else "?") ++
          "confirmed=1") "/account") user.isAdmin (X.deriveCsrf sid))
  | .apiKeysDelete _ true => .ok (.redirect "/account")
  | .sessionsRevoke _ _ => .ok (.redirect "/account")
  | _ => .fail .notFound

theorem deleteApiKey_hidden {id : Int}
    (hidden : (db.apiKeys.rows.any fun row => row.id = id ∧ row.userId = u) = false) : (db.deleteApiKey id u).2 = db := by
  have hrows : (db.apiKeys.rows.filter fun row => !decide (row.id = id ∧ row.userId = u)) = db.apiKeys.rows := by
    refine List.filter_eq_self.mpr fun row hrow => ?_
    rw [List.any_eq_false] at hidden
    have hnot := hidden row hrow
    simpa [imp_iff_not_or] using hnot
  have htable : (db.apiKeys.deleteWhere fun row => decide (row.id = id ∧ row.userId = u)) = db.apiKeys := by
    unfold AutoTable.deleteWhere Table.deleteWhere
    simp only [hrows]
  unfold Db.deleteApiKey
  rw [htable]

theorem sessionsRevoke_hidden (X : Crates) (ctx : WebContext) (sid : String) (user : User) {handle : String}
    {confirmed : Bool}
    (hidden : (db.sessions.rows.any fun row => X.hashApiKey row.id = handle ∧ row.userId = user.id) = false) :
    run exec (sessionsRevoke X ctx sid user handle confirmed) db = ⟨.ok (.redirect "/account"), db, []⟩ := by
  have hnone : (db.listSessionsForUser user.id ctx.now).find? (fun s => decide (X.hashApiKey s.id = handle)) = none := by
    rw [List.find?_eq_none]
    intro row hrow hhandle
    have hmem := List.mem_filter.mp (List.mem_mergeSort.mp hrow)
    rw [List.any_eq_false] at hidden
    exact hidden row hmem.1 (by simpa [of_decide_eq_true hhandle] using (of_decide_eq_true hmem.2).1)
  unfold sessionsRevoke
  simp only [Prog.bind_eq, store, Prog.perform, Prog.call_bind, run_call, exec, Prog.ret_bind, hnone]
  rfl

/-- A handler whose resource is not the user's answers without looking further, and writes nothing. -/
theorem webHandle_hidden (X : Crates) (ctx : WebContext) (sid : String) (user : User) {route : WebRoute}
    {address : Address} (haddress : route.address = some address) (hidden : db.owns X user.id address = false) :
    run exec (webHandle X ctx sid user route) db = ⟨hiddenReply X sid user route, db, []⟩ := by
  cases route <;> first | (cases haddress; done) | skip
  case apiKeysDelete id confirmed =>
      cases haddress
      cases confirmed with
      | false => rfl
      | true =>
          have hstate := deleteApiKey_hidden hidden
          show run exec (apiKeysDelete X sid user id true) db = _
          simp only [apiKeysDelete, Bool.not_true, Bool.false_eq_true, if_false, Prog.bind_eq, store, Prog.perform,
            Prog.call_bind, run_call, exec, hstate]
          rfl
  case sessionsRevoke handle confirmed =>
      cases haddress
      exact sessionsRevoke_hidden X ctx sid user hidden
  case channelTest id =>
      cases haddress
      exact channelTest_run_hidden X ctx sid user hidden
  all_goals
    cases haddress
    first
      | exact run_bind_of_fail exec (ownedProject_run_hidden hidden)
      | exact run_bind_of_fail exec (ownedCheck_run_hidden hidden)
      | exact run_bind_of_fail exec (ownedChannel_run_hidden hidden)

/-! #### `/api/v1` -/

theorem resolveOwned_run_hidden {α : Type} {ctx : ApiContext} {user : User} {method targetType : String} {targetId : Int}
    {owner : Option Int} {row : α} (hadmin : user.isAdmin = false) (howner : owner ≠ some user.id) :
    run exec (resolveOwned ctx user method targetType targetId owner row) db = ⟨.fail .notFound, db, []⟩ := by
  unfold resolveOwned
  rw [if_neg howner, hadmin]
  rfl

theorem owner_ne_of_hidden {id : Int} (hidden : db.ownProject u id = false) :
    (db.findProject id).map Project.userId ≠ some u := by
  intro howner
  obtain ⟨project, hproject, rfl⟩ := Option.map_eq_some_iff.mp howner
  simp [Db.ownProject, hproject] at hidden

section Resolve

variable {ctx : ApiContext} {user : User} (hadmin : user.isAdmin = false)
include hadmin

theorem resolveProject_run_hidden {method : String} {id : Int} (hidden : db.ownProject user.id id = false) :
    run exec (resolveProject ctx user method id) db = ⟨.fail .notFound, db, []⟩ := by
  unfold resolveProject
  simp only [Prog.bind_eq, apiStore, Prog.perform, Prog.call_bind, run_call, exec, Prog.ret_bind]
  cases hfound : db.findProject id with
  | none => rfl
  | some project =>
      have hne : project.userId ≠ user.id := by simpa [Db.ownProject, hfound] using hidden
      exact resolveOwned_run_hidden hadmin (by simpa using hne)

theorem resolveCheck_run_hidden {method : String} {id : Int} (hidden : db.ownCheck user.id id = false) :
    run exec (resolveCheck ctx user method id) db = ⟨.fail .notFound, db, []⟩ := by
  unfold resolveCheck
  simp only [Prog.bind_eq, apiStore, Prog.perform, Prog.call_bind, run_call, exec, Prog.ret_bind]
  cases hfound : db.findCheck id with
  | none => rfl
  | some check =>
      have hproject : db.ownProject user.id check.projectId = false := by simpa [Db.ownCheck, hfound] using hidden
      exact resolveOwned_run_hidden hadmin (owner_ne_of_hidden hproject)

theorem resolveChannel_run_hidden {method : String} {id : Int} (hidden : db.ownChannel user.id id = false) :
    run exec (resolveChannel ctx user method id) db = ⟨.fail .notFound, db, []⟩ := by
  unfold resolveChannel
  simp only [Prog.bind_eq, apiStore, Prog.perform, Prog.call_bind, run_call, exec, Prog.ret_bind]
  cases hfound : db.findChannel id with
  | none => rfl
  | some channel =>
      have hproject : db.ownProject user.id channel.projectId = false := by simpa [Db.ownChannel, hfound] using hidden
      exact resolveOwned_run_hidden hadmin (owner_ne_of_hidden hproject)

end Resolve

/-- A body that does not deserialise is refused before the resource is looked at. -/
def apiHiddenReply : ApiRoute → Outcome ApiError ApiResponse
  | .updateProject _ (.error msg) | .createCheck _ (.error msg) | .createChannel _ (.error msg)
  | .updateCheck _ (.error msg) | .setCheckChannels _ (.error msg) | .updateChannel _ (.error msg) =>
      .fail (.badRequest msg)
  | _ => .fail .notFound

theorem apiHandle_hidden (X : Crates) (ctx : ApiContext) {user : User} (hadmin : user.isAdmin = false) {route : ApiRoute}
    {address : Address} (haddress : route.address = some address) (hidden : db.owns X user.id address = false) :
    run exec (apiHandle X ctx user route) db = ⟨apiHiddenReply route, db, []⟩ := by
  cases route <;> first | (cases haddress; done) | skip
  case updateProject id body =>
      cases haddress
      cases body with
      | error msg => rfl
      | ok input =>
          show run exec (V1.updateProject ctx user id input) db = _
          exact run_bind_of_fail exec (resolveProject_run_hidden hadmin hidden)
  case createCheck id body =>
      cases haddress
      cases body with
      | error msg => rfl
      | ok input =>
          show run exec (V1.createCheck X ctx user id input) db = _
          exact run_bind_of_fail exec (resolveProject_run_hidden hadmin hidden)
  case createChannel id body =>
      cases haddress
      cases body with
      | error msg => rfl
      | ok input =>
          show run exec (V1.createChannel X ctx user id input) db = _
          exact run_bind_of_fail exec (resolveProject_run_hidden hadmin hidden)
  case updateCheck id body =>
      cases haddress
      cases body with
      | error msg => rfl
      | ok input =>
          show run exec (V1.updateCheck X ctx user id input) db = _
          exact run_bind_of_fail exec (resolveCheck_run_hidden hadmin hidden)
  case setCheckChannels id body =>
      cases haddress
      cases body with
      | error msg => rfl
      | ok input =>
          show run exec (V1.setCheckChannels ctx user id input) db = _
          exact run_bind_of_fail exec (resolveCheck_run_hidden hadmin hidden)
  case updateChannel id body =>
      cases haddress
      cases body with
      | error msg => rfl
      | ok input =>
          show run exec (V1.updateChannel X ctx user id input) db = _
          exact run_bind_of_fail exec (resolveChannel_run_hidden hadmin hidden)
  all_goals
    cases haddress
    first
      | exact run_bind_of_fail exec (resolveProject_run_hidden hadmin hidden)
      | exact run_bind_of_fail exec (resolveCheck_run_hidden hadmin hidden)
      | exact run_bind_of_fail exec (resolveChannel_run_hidden hadmin hidden)

end Hidden

/-! ### Lists of channel ids -/

section Lists

variable {u : Int} {db : Db}

/-- The channels of a project of the user's are the user's. -/
theorem filter_channels_own {projectId : Int} (hown : db.ownProject u projectId = true) (ids : List Int) :
    (ids.filter fun id => ((db.listChannelsForProject projectId).map Channel.id).contains id) =
      (ids.filter (db.ownChannel u)).filter fun id =>
        ((db.listChannelsForProject projectId).map Channel.id).contains id := by
  rw [List.filter_filter]
  apply List.filter_congr
  intro id _
  cases hin : ((db.listChannelsForProject projectId).map Channel.id).contains id with
  | false => rfl
  | true =>
      rw [List.contains_iff_mem, List.mem_map] at hin
      obtain ⟨channel, hchannel, rfl⟩ := hin
      have hmem := List.mem_filter.mp (List.mem_mergeSort.mp hchannel)
      have hfound : db.findChannel channel.id = some channel := db.channels.find_eq_some_iff.mpr ⟨hmem.1, rfl⟩
      have hproject : channel.projectId = projectId := of_decide_eq_true hmem.2
      rw [Db.ownChannel, hfound, Option.any_some, hproject, hown]
      rfl

theorem ownedCheck_run_own {id : Int} (hown : db.ownCheck u id = true) :
    ∃ check, run exec (ownedCheck id u) db = ⟨.ok check, db, []⟩ ∧ db.ownProject u check.projectId = true := by
  cases hfound : db.findCheck id with
  | none => simp [Db.ownCheck, hfound] at hown
  | some check =>
      have hproject : db.ownProject u check.projectId = true := by simpa [Db.ownCheck, hfound] using hown
      refine ⟨check, ?_, hproject⟩
      cases hrow : db.findProject check.projectId with
      | none => simp [Db.ownProject, hrow] at hproject
      | some project =>
          have hu : project.userId = u := by simpa [Db.ownProject, hrow] using hproject
          simp only [ownedCheck, ownedProject, Prog.bind_eq, store, Prog.perform, Prog.call_bind, run_call, exec,
            Prog.ret_bind, hfound, hrow, hu]
          simp

theorem resolveCheck_run_own {ctx : ApiContext} {user : User} {method : String} {id : Int}
    (hown : db.ownCheck user.id id = true) :
    ∃ check, run exec (resolveCheck ctx user method id) db = ⟨.ok check, db, []⟩ ∧
      db.ownProject user.id check.projectId = true := by
  cases hfound : db.findCheck id with
  | none => simp [Db.ownCheck, hfound] at hown
  | some check =>
      have hproject : db.ownProject user.id check.projectId = true := by simpa [Db.ownCheck, hfound] using hown
      refine ⟨check, ?_, hproject⟩
      cases hrow : db.findProject check.projectId with
      | none => simp [Db.ownProject, hrow] at hproject
      | some project =>
          have hu : project.userId = user.id := by simpa [Db.ownProject, hrow] using hproject
          simp only [resolveCheck, resolveOwned, okOr, Prog.bind_eq, apiStore, Prog.perform, Prog.call_bind, run_call, exec,
            Prog.ret_bind, hfound, hrow, hu, Option.map_some, if_pos, Prog.pure_eq, run_ret]

/-- Two lists with the same ids of the user's own channels bind the same. -/
theorem checkSetChannels_run_congr {ctx : WebContext} {user : User} {id : Int} {ids ids' : List Int}
    (hsame : ids.filter (db.ownChannel user.id) = ids'.filter (db.ownChannel user.id)) :
    run exec (checkSetChannels ctx user id ids) db = run exec (checkSetChannels ctx user id ids') db := by
  cases hown : db.ownCheck user.id id with
  | false =>
      exact (run_bind_of_fail exec (ownedCheck_run_hidden hown)).trans
        (run_bind_of_fail exec (ownedCheck_run_hidden hown)).symm
  | true =>
      obtain ⟨check, hcheck, hproject⟩ := ownedCheck_run_own hown
      have hdesired := (filter_channels_own hproject ids).trans
        ((congrArg _ hsame).trans (filter_channels_own hproject ids').symm)
      unfold checkSetChannels
      rw [Prog.bind_eq, Prog.bind_eq, run_bind, run_bind, hcheck]
      simp only [Ran.andThen, bindChannels, Prog.bind_eq, store, Prog.perform, Prog.call_bind, run_call, exec,
        Prog.ret_bind, hdesired]

theorem setCheckChannels_run_congr {ctx : ApiContext} {user : User} {id : Int} {ids ids' : List Int}
    (hadmin : user.isAdmin = false)
    (hsame : ids.filter (db.ownChannel user.id) = ids'.filter (db.ownChannel user.id)) :
    run exec (V1.setCheckChannels ctx user id ids) db = run exec (V1.setCheckChannels ctx user id ids') db := by
  cases hown : db.ownCheck user.id id with
  | false =>
      exact (run_bind_of_fail exec (resolveCheck_run_hidden hadmin hown)).trans
        (run_bind_of_fail exec (resolveCheck_run_hidden hadmin hown)).symm
  | true =>
      obtain ⟨check, hcheck, hproject⟩ := resolveCheck_run_own hown
      have hdesired := (filter_channels_own hproject ids).trans
        ((congrArg _ hsame).trans (filter_channels_own hproject ids').symm)
      show run exec ((resolveCheck ctx user "PUT" id).bind _) db = run exec ((resolveCheck ctx user "PUT" id).bind _) db
      rw [run_bind, run_bind, hcheck]
      simp only [Ran.andThen, Prog.bind_eq, apiStore, Prog.perform, Prog.call_bind, run_call, exec,
        Prog.ret_bind, hdesired]

end Lists

/-! ### The two-run statement -/

namespace TenantRequest

/-- The request is about the resource. What an `/admin` route is about does not matter here. -/
def Names (address : Address) : TenantRequest → Prop
  | .web _ route => route.address = some address
  | .admin _ _ _ => True
  | .api _ route => route.address = some address

/-- The database once the request has passed its layers and extractors. -/
def front (X : Crates) (db : Db) : TenantRequest → Db
  | .web ctx route =>
      if route.isPost && !ctx.csrfOk then (run exec (requestSession ctx) db).state
      else (run exec (authenticate ctx) db).state
  | .admin ctx isPost _ =>
      if isPost && !ctx.csrfOk then (run exec (requestSession ctx) db).state
      else (run exec (authenticate ctx) db).state
  | .api ctx _ => (run exec (apiUser X ctx) db).state

end TenantRequest

section TwoRuns

variable {X : Crates} {db : Db}

/-- The request as its front and its handler. -/
theorem webRequest_run {ctx : WebContext} {route : WebRoute} {sid : String} {user : User} (hroute : route ≠ .logout)
    (hauth : (run exec (authenticate ctx) db).outcome = .ok (sid, some user)) :
    (.web (run exec (webRequest X ctx route) db).outcome, (run exec (webRequest X ctx route) db).state) =
      if route.isPost && !ctx.csrfOk then
        ((.web (.ok (.status 403 "")) : Reply), (run exec (requestSession ctx) db).state)
      else
        (.web (run exec (webHandle X ctx sid user route) (run exec (authenticate ctx) db).state).outcome,
          (run exec (webHandle X ctx sid user route) (run exec (authenticate ctx) db).state).state) := by
  obtain ⟨sid', hsid, hrest⟩ := run_bind_eq_ok exec hauth
  obtain ⟨found, hfound, hrest⟩ := run_bind_eq_ok exec hrest
  cases hrest
  have hstate : (run exec (authenticate ctx) db).state =
      (run exec (resolveUser ctx sid) (run exec (requestSession ctx) db).state).state := by
    exact (run_bind_state_of_ok hsid).trans ((run_bind_state_of_ok hfound).trans rfl)
  have hrequest : ∃ rest : String → Option User → StoreProg AppError Response,
      (∀ sid user, rest sid (some user) = webHandle X ctx sid user route) ∧
      webRequest X ctx route = (requestSession ctx).bind fun sid =>
        if route.isPost && !ctx.csrfOk then .ret (.status 403 "") else (resolveUser ctx sid).bind (rest sid) := by
    cases route with
    | logout => exact absurd rfl hroute
    | _ => exact ⟨_, fun _ _ => rfl, rfl⟩
  obtain ⟨rest, hhandle, hrequest⟩ := hrequest
  rw [hrequest, run_bind_of_ok exec hsid]
  split
  · rfl
  · rw [run_bind_of_ok exec hfound, hstate, hhandle]

theorem asAdmin_run {ctx : WebContext} {isPost : Bool} {handler : String → User → StoreProg AppError Response}
    {sid : String} {user : User} (hadmin : user.isAdmin = false)
    (hauth : (run exec (authenticate ctx) db).outcome = .ok (sid, some user)) :
    ((.web (run exec (asAdmin ctx isPost handler) db).outcome : Reply), (run exec (asAdmin ctx isPost handler) db).state) =
      (if isPost && !ctx.csrfOk then .web (.ok (.status 403 "")) else .web (.ok (.status 403 "admin only")),
        if isPost && !ctx.csrfOk then (run exec (requestSession ctx) db).state
        else (run exec (authenticate ctx) db).state) := by
  obtain ⟨sid', hsid, hrest⟩ := run_bind_eq_ok exec hauth
  obtain ⟨found, hfound, hrest⟩ := run_bind_eq_ok exec hrest
  cases hrest
  have hstate : (run exec (authenticate ctx) db).state =
      (run exec (resolveUser ctx sid) (run exec (requestSession ctx) db).state).state :=
    (run_bind_state_of_ok hsid).trans ((run_bind_state_of_ok hfound).trans rfl)
  unfold asAdmin
  rw [Prog.bind_eq, run_bind_of_ok exec hsid]
  split
  · rfl
  · rw [Prog.bind_eq, run_bind_of_ok exec hfound, hstate]
    simp only [hadmin, Bool.false_eq_true, if_false]
    rfl

theorem apiRequest_run {ctx : ApiContext} {route : ApiRoute} {user : User}
    (hauth : (run exec (apiUser X ctx) db).outcome = .ok user) :
    (.api (run exec (apiRequest X ctx route) db).outcome, (run exec (apiRequest X ctx route) db).state) =
      ((.api (run exec (apiHandle X ctx user route) (run exec (apiUser X ctx) db).state).outcome : Reply),
        (run exec (apiHandle X ctx user route) (run exec (apiUser X ctx) db).state).state) := by
  show ((.api (run exec ((apiUser X ctx).bind fun caller => apiHandle X ctx caller route) db).outcome : Reply),
    (run exec ((apiUser X ctx).bind fun caller => apiHandle X ctx caller route) db).state) = _
  rw [run_bind_of_ok exec hauth]

theorem authenticated_api {ctx : ApiContext} {route : ApiRoute} {sid : Option String} {user : User}
    (hauth : (TenantRequest.api ctx route).authenticated X db = some (sid, user)) :
    (run exec (apiUser X ctx) db).outcome = .ok user := by
  simp only [TenantRequest.authenticated] at hauth
  split at hauth
  · rename_i found houtcome
    cases hauth
    exact houtcome
  · cases hauth

/-- The reply to a request on a resource that is not the user's, from the request and its user alone. -/
def TenantRequest.hiddenReply (X : Crates) (sid : Option String) (user : User) : TenantRequest → Reply
  | .web ctx route =>
      if route.isPost && !ctx.csrfOk then .web (.ok (.status 403 ""))
      else .web (Pingward.hiddenReply X (sid.getD "") user route)
  | .admin ctx isPost _ =>
      if isPost && !ctx.csrfOk then .web (.ok (.status 403 "")) else .web (.ok (.status 403 "admin only"))
  | .api _ route => .api (apiHiddenReply route)

/-- A request on a resource that is not the user's replies the same whatever the database, and leaves the
database as authentication left it. -/
theorem serve_hidden {request : TenantRequest} {address : Address} {sid : Option String} {user : User}
    (haddress : request.Names address) (hadmin : user.isAdmin = false)
    (hauth : request.authenticated X db = some (sid, user))
    (hidden : (request.front X db).owns X user.id address = false) :
    request.serve X db = (request.hiddenReply X sid user, request.front X db) := by
  cases request with
  | admin ctx isPost handler =>
      obtain ⟨id, rfl, houtcome⟩ := authenticated_web hauth
      exact asAdmin_run hadmin houtcome
  | web ctx route =>
      obtain ⟨id, rfl, houtcome⟩ := authenticated_web hauth
      have hroute : route ≠ .logout := by
        rintro rfl
        cases haddress
      have haddress : route.address = some address := haddress
      apply (webRequest_run hroute houtcome).trans
      simp only [TenantRequest.front] at hidden
      simp only [TenantRequest.hiddenReply, TenantRequest.front, Option.getD_some]
      split
      · rfl
      · rename_i hcsrf
        rw [if_neg hcsrf] at hidden
        rw [webHandle_hidden X ctx id user haddress hidden]
  | api ctx route =>
      have houtcome := authenticated_api hauth
      apply (apiRequest_run houtcome).trans
      have hhidden : (run exec (apiUser X ctx) db).state.owns X user.id address = false := hidden
      rw [apiHandle_hidden X ctx hadmin haddress hhidden]
      rfl

/-- Lists of channel ids that agree on the user's own channels are served alike. -/
theorem serve_channels_web {ctx : WebContext} {id : Int} {ids ids' : List Int} {sid : Option String} {user : User}
    (hauth : (TenantRequest.web ctx (.checkSetChannels id ids)).authenticated X db = some (sid, user))
    (hsame : ids.filter ((run exec (authenticate ctx) db).state.ownChannel user.id) =
      ids'.filter ((run exec (authenticate ctx) db).state.ownChannel user.id)) :
    (TenantRequest.web ctx (.checkSetChannels id ids)).serve X db =
      (TenantRequest.web ctx (.checkSetChannels id ids')).serve X db := by
  obtain ⟨id', _, houtcome⟩ := authenticated_web hauth
  refine (webRequest_run (by simp) houtcome).trans (Eq.trans ?_ (webRequest_run (by simp) houtcome).symm)
  have hrun : run exec (webHandle X ctx id' user (.checkSetChannels id ids)) (run exec (authenticate ctx) db).state =
      run exec (webHandle X ctx id' user (.checkSetChannels id ids')) (run exec (authenticate ctx) db).state :=
    checkSetChannels_run_congr hsame
  rw [hrun]
  rfl

theorem serve_channels_api {ctx : ApiContext} {id : Int} {ids ids' : List Int} {sid : Option String} {user : User}
    (hadmin : user.isAdmin = false)
    (hauth : (TenantRequest.api ctx (.setCheckChannels id (.ok ids))).authenticated X db = some (sid, user))
    (hsame : ids.filter ((run exec (apiUser X ctx) db).state.ownChannel user.id) =
      ids'.filter ((run exec (apiUser X ctx) db).state.ownChannel user.id)) :
    (TenantRequest.api ctx (.setCheckChannels id (.ok ids))).serve X db =
      (TenantRequest.api ctx (.setCheckChannels id (.ok ids'))).serve X db := by
  have houtcome := authenticated_api hauth
  refine (apiRequest_run houtcome).trans (Eq.trans ?_ (apiRequest_run houtcome).symm)
  have hrun : run exec (apiHandle X ctx user (.setCheckChannels id (.ok ids))) (run exec (apiUser X ctx) db).state =
      run exec (apiHandle X ctx user (.setCheckChannels id (.ok ids'))) (run exec (apiUser X ctx) db).state :=
    setCheckChannels_run_congr hadmin hsame
  rw [hrun]

end TwoRuns

/-- **Tenant isolation.** Requests of a user without the admin flag change no project, check, channel,
binding, API key or session of another user, the refresh of a session they carry apart; a resource that
is not the user's cannot be told from a missing one, whatever else is in the database, and asking for it
changes nothing; an id of such a channel in a list counts for nothing. -/
theorem tenant_isolation (X : Crates) (u : Int) :
    (∀ (requests : List TenantRequest) (db : Db), TenantRequest.AllActFor X u db requests →
      (TenantRequest.serveAll X db requests).others u (requests.flatMap TenantRequest.carried) =
        db.others u (requests.flatMap TenantRequest.carried)) ∧
    (∀ (request : TenantRequest) (address : Address) (db db' : Db) (sid : Option String) (user : User),
      request.Names address → user.id = u → user.isAdmin = false →
      request.authenticated X db = some (sid, user) → request.authenticated X db' = some (sid, user) →
      (request.front X db).owns X u address = false → (request.front X db').owns X u address = false →
      (request.serve X db).1 = (request.serve X db').1 ∧ (request.serve X db).2 = request.front X db) ∧
    (∀ (ctx : WebContext) (id : Int) (ids ids' : List Int) (db : Db) (sid : Option String) (user : User),
      (TenantRequest.web ctx (.checkSetChannels id ids)).authenticated X db = some (sid, user) → user.id = u →
      ids.filter ((run exec (authenticate ctx) db).state.ownChannel u) =
        ids'.filter ((run exec (authenticate ctx) db).state.ownChannel u) →
      (TenantRequest.web ctx (.checkSetChannels id ids)).serve X db =
        (TenantRequest.web ctx (.checkSetChannels id ids')).serve X db) ∧
    (∀ (ctx : ApiContext) (id : Int) (ids ids' : List Int) (db : Db) (sid : Option String) (user : User),
      (TenantRequest.api ctx (.setCheckChannels id (.ok ids))).authenticated X db = some (sid, user) → user.id = u →
      user.isAdmin = false →
      ids.filter ((run exec (apiUser X ctx) db).state.ownChannel u) =
        ids'.filter ((run exec (apiUser X ctx) db).state.ownChannel u) →
      (TenantRequest.api ctx (.setCheckChannels id (.ok ids))).serve X db =
        (TenantRequest.api ctx (.setCheckChannels id (.ok ids'))).serve X db) := by
  refine ⟨?_, ?_, ?_, ?_⟩
  · intro requests db hacts
    exact serveAll_others (fun request hrequest id hid => List.mem_flatMap.mpr ⟨request, hrequest, hid⟩) hacts
  · rintro request address db db' sid user haddress rfl hadmin hauth hauth' hidden hidden'
    rw [serve_hidden haddress hadmin hauth hidden, serve_hidden haddress hadmin hauth' hidden']
    exact ⟨rfl, rfl⟩
  · rintro ctx id ids ids' db sid user hauth rfl hsame
    exact serve_channels_web hauth hsame
  · rintro ctx id ids ids' db sid user hauth rfl hadmin hsame
    exact serve_channels_api hadmin hauth hsame

/-! ### Alice, Bob and Carol -/

/-- Alice's sample, with a channel; Bob with a project, a check, a channel, a session and a key; Carol
disabled, with a session. -/
def Db.tenants : Db :=
  [StoreCall.createChannel ⟨1, .webhook, "hook", ""⟩ 0,
    .createUser "bob" none false 0,
    .createProject 2 ⟨"sites", "", none, none⟩ 0,
    .createCheck ⟨2, "site", "", "u9", .period, some 60, 0, none, "UTC", none, none, none⟩ 0,
    .createChannel ⟨2, .webhook, "hook", ""⟩ 0,
    .createSession ⟨"b1", 2, 1000 * nanosPerSec, none, none, false⟩ 0,
    .insertApiKey ⟨2, "laptop", "k2", "k", none⟩ 0,
    .createUser "carol" none false 0,
    .createSession ⟨"c1", 3, 1000 * nanosPerSec, none, none, false⟩ 0,
    .setUserDisabled 3 true].foldl (fun db c => (exec c db).2) .sample

def bob : User := ⟨2, "bob", none, false, false, 0⟩

def bobContext : WebContext := { WebContext.sample with sessionId := some "b1" }

def bobApiContext : ApiContext := ⟨200 * nanosPerSec, some "k2", "u3", "/api/v1/checks/2/channels", .asListed⟩

/-- Bob behind the gateway, with Carol's cookie. -/
def carolCookie : TenantRequest :=
  .web { WebContext.sample with sessionId := some "c1", forwardAuth := true, gatewayUser := some "bob" } .projectNew

/-- Carol's session is looked up first, and refreshed, although she is disabled; the gateway then names
Bob, and her row has changed in a request of his. -/
theorem gateway_request_touches_cookie :
    carolCookie.ActsFor plainCrates 2 .tenants ∧
      (carolCookie.serve plainCrates .tenants).2.others 2 [] ≠ Db.tenants.others 2 [] :=
  ⟨⟨some "c1", bob, by decide +kernel, rfl, rfl⟩, by decide +kernel⟩

theorem tenant_isolation_bob :
    (TenantRequest.serveAll plainCrates .tenants [.web bobContext (.checkPause 1), .web bobContext (.checkPause 2)]).others 2
        (bobContext.carried ++ bobContext.carried) =
      Db.tenants.others 2 (bobContext.carried ++ bobContext.carried) ∧
    ((TenantRequest.web bobContext (.checkPause 1)).serve plainCrates .tenants).1 =
      ((TenantRequest.web bobContext (.checkPause 1)).serve plainCrates (Db.tenants.deleteCheck 1)).1 ∧
    (TenantRequest.web bobContext (.checkSetChannels 2 [1, 2])).serve plainCrates .tenants =
      (TenantRequest.web bobContext (.checkSetChannels 2 [7, 2])).serve plainCrates .tenants ∧
    (TenantRequest.api bobApiContext (.setCheckChannels 2 (.ok [1, 2]))).serve plainCrates .tenants =
      (TenantRequest.api bobApiContext (.setCheckChannels 2 (.ok [7, 2]))).serve plainCrates .tenants := by
  obtain ⟨hrows, htell, hweb, hapi⟩ := tenant_isolation plainCrates 2
  refine ⟨?_, ?_, ?_, ?_⟩
  · refine hrows [.web bobContext (.checkPause 1), .web bobContext (.checkPause 2)] .tenants ⟨?_, ?_, trivial⟩
    · exact ⟨some "b1", bob, by decide +kernel, rfl, rfl⟩
    · exact ⟨some "b1", bob, by decide +kernel, rfl, rfl⟩
  · exact (htell (.web bobContext (.checkPause 1)) (.check 1) .tenants (Db.tenants.deleteCheck 1) (some "b1") bob rfl rfl rfl
      (by decide +kernel) (by decide +kernel) (by decide +kernel) (by decide +kernel)).1
  · exact hweb bobContext 2 [1, 2] [7, 2] .tenants (some "b1") bob (by decide +kernel) rfl (by decide +kernel)
  · exact hapi bobApiContext 2 [1, 2] [7, 2] .tenants none bob (by decide +kernel) rfl rfl (by decide +kernel)

end Pingward
