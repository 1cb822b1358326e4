import Pingward.RowOperation

/-! How long a session of instants lives. The expiry is moved only past the half-life and is cut at the absolute
cap, so that whether a request is accepted depends on which earlier ones wrote. What carries a run is a pair
of bounds: the expiry is at least half an idle window and at most one idle window after the last
accepted request, or at the cap. -/

open KeyedTable StoreProgram

namespace Pingward

/-! ### The expiry -/

/-- The stored expiry of a session opened at `opened` and last accepted at `last`. -/
structure ExpiryBounds (opened last expiresAt : Instant) : Prop where
  lower : min (last + sessionIdleTtl / 2) (opened + sessionAbsoluteMax) ≤ expiresAt
  upper : expiresAt ≤ min (last + sessionIdleTtl) (opened + sessionAbsoluteMax)

theorem sessionIdleTtl_half : 0 ≤ sessionIdleTtl / 2 ∧ sessionIdleTtl / 2 ≤ sessionIdleTtl := by decide

theorem sessionIdleTtl_le_max : sessionIdleTtl ≤ sessionAbsoluteMax := by decide

/-- One idle window from the opening. -/
theorem ExpiryBounds.opened (opened : Instant) : ExpiryBounds opened opened (opened + sessionIdleTtl) := by
  have hhalf := sessionIdleTtl_half.2
  have hmax := sessionIdleTtl_le_max
  refine ⟨?_, le_min le_rfl ?_⟩
  · exact (min_le_left _ _).trans (by linarith)
  · linarith

/-- The expiry an accepted request leaves. -/
theorem ExpiryBounds.refreshed {opened last expiresAt now : Instant} (hbounds : ExpiryBounds opened last expiresAt)
    (hlater : last ≤ now) :
    ExpiryBounds opened now (((refreshedExpiry (some opened) expiresAt now).map SessionRenewal.expiresAt).getD expiresAt) := by
  have hhalf := sessionIdleTtl_half.2
  have hnext : ExpiryBounds opened now (min (now + sessionIdleTtl) (opened + sessionAbsoluteMax)) :=
    ⟨min_le_min_right _ (by linarith), le_rfl⟩
  have hupper : expiresAt ≤ min (now + sessionIdleTtl) (opened + sessionAbsoluteMax) :=
    hbounds.upper.trans (min_le_min_right _ (by linarith))
  unfold refreshedExpiry
  simp only [Option.map_some, Option.any_some, decide_eq_true_eq]
  split
  · rename_i hcap
    exact ⟨(min_le_right _ _).trans hcap, hupper⟩
  · split
    · exact hnext
    · split
      · rename_i hremains
        have hlower : now + sessionIdleTtl / 2 ≤ expiresAt := by linarith
        exact ⟨(min_le_left _ _).trans hlower, hupper⟩
      · exact hnext

/-- A session is accepted before its cap and its expiry. -/
def Session.accepts (session : Session) (now : Instant) : Prop :=
  now < session.expiresAt ∧ isPastAbsoluteCap session.createdAt now = false

theorem ExpiryBounds.accepts {session : Session} {opened last now : Instant} (hcreated : session.createdAt = some opened)
    (hbounds : ExpiryBounds opened last session.expiresAt) :
    (session.accepts now → now < opened + sessionAbsoluteMax ∧ now < last + sessionIdleTtl) ∧
      (now < opened + sessionAbsoluteMax → now < last + sessionIdleTtl / 2 → session.accepts now) := by
  have hcap : isPastAbsoluteCap session.createdAt now = false ↔ now < opened + sessionAbsoluteMax := by
    rw [hcreated, isPastAbsoluteCap, Option.any_some, decide_eq_false_iff_not, not_le]
  constructor
  · rintro ⟨hlive, hage⟩
    exact ⟨hcap.mp hage, hlive.trans_le (hbounds.upper.trans (min_le_left _ _))⟩
  · intro hage hgap
    exact ⟨(lt_min hgap hage).trans_le hbounds.lower, hcap.mpr hage⟩

/-! ### Runs -/

/-- The database, and when a request in the session was last accepted. -/
structure SessionRun where
  db : Db
  last : Instant

namespace SessionRun

/-- `find_session_user` for one request. -/
def visit (sid : String) (state : SessionRun) (now : Instant) : SessionRun :=
  match (exec (.findSessionUser sid now) state.db).1 with
  | .ok (some _) => ⟨(exec (.findSessionUser sid now) state.db).2, now⟩
  | _ => ⟨(exec (.findSessionUser sid now) state.db).2, state.last⟩

/-- The requests of a run, one after another. -/
def visits (sid : String) (state : SessionRun) (times : List Instant) : SessionRun := times.foldl (visit sid) state

/-- The next request would be accepted. -/
def Accepts (sid : String) (state : SessionRun) (now : Instant) : Prop :=
  ∃ user, (exec (.findSessionUser sid now) state.db).1 = .ok (some user)

/-- The session of a run: its row, its user and the bounds on its expiry. -/
structure Lives (sid : String) (opened : Instant) (state : SessionRun) : Prop where
  row : ∃ session user, state.db.sessions.find sid = some session ∧ state.db.users.find session.userId = some user ∧
    session.createdAt = some opened ∧ ExpiryBounds opened state.last session.expiresAt

end SessionRun

section Runs

variable {sid : String} {opened : Instant} {state : SessionRun}

theorem Session.touched_expiresAt (session : Session) (now : Instant) :
    (session.touched now).expiresAt =
      ((refreshedExpiry session.createdAt session.expiresAt now).map SessionRenewal.expiresAt).getD session.expiresAt := by
  unfold Session.touched
  cases refreshedExpiry session.createdAt session.expiresAt now with
  | some renewal => rfl
  | none => cases isStale session.lastSeenAt now <;> rfl

theorem Session.touched_createdAt (session : Session) (now : Instant) :
    (session.touched now).createdAt = session.createdAt := by
  unfold Session.touched
  split <;> rfl

section Find

variable {db : Db} {session : Session} {user : User} {now : Instant}

theorem findSessionUser_of_accepts (hsession : db.sessions.find sid = some session)
    (huser : db.users.find session.userId = some user) (hlive : session.accepts now) :
    exec (.findSessionUser sid now) db = (.ok (some user),
      { db with sessions := db.sessions.update sid (·.touched now) fun row => row.touched_id now }) := by
  have hfind : db.findSessionUser sid now = (some user,
      { db with sessions := db.sessions.update sid (·.touched now) fun row => row.touched_id now }) := by
    unfold Db.findSessionUser
    simp only [hsession, huser]
    rw [if_neg (not_le.mpr hlive.1), hlive.2]
    rfl
  simp only [exec, hfind]

theorem findSessionUser_of_not_accepts (hsession : db.sessions.find sid = some session)
    (hdead : ¬ session.accepts now) : exec (.findSessionUser sid now) db = (.ok none, db) := by
  have hfind : db.findSessionUser sid now = (none, db) := by
    unfold Db.findSessionUser
    simp only [hsession]
    split
    · rfl
    · split
      · rfl
      · rename_i hlive
        split
        · rfl
        · rename_i hage
          exact absurd ⟨not_le.mp hlive, Bool.eq_false_iff.mpr hage⟩ hdead
  simp only [exec, hfind]

end Find

/-- Whether a request is accepted, from the bounds. -/
theorem SessionRun.Lives.accepts (hlives : state.Lives sid opened) (now : Instant) :
    (state.Accepts sid now → now < opened + sessionAbsoluteMax ∧ now < state.last + sessionIdleTtl) ∧
      (now < opened + sessionAbsoluteMax → now < state.last + sessionIdleTtl / 2 → state.Accepts sid now) := by
  obtain ⟨session, user, hsession, huser, hcreated, hbounds⟩ := hlives.row
  have haccepts : state.Accepts sid now ↔ session.accepts now := by
    unfold SessionRun.Accepts
    constructor
    · rintro ⟨found, hfound⟩
      by_contra hdead
      rw [findSessionUser_of_not_accepts hsession hdead] at hfound
      cases hfound
    · intro hlive
      exact ⟨user, by rw [findSessionUser_of_accepts hsession huser hlive]⟩
  rw [haccepts]
  exact hbounds.accepts hcreated

/-- One request. -/
theorem SessionRun.Lives.visit (hlives : state.Lives sid opened) {now : Instant} (hlater : state.last ≤ now) :
    (state.visit sid now).Lives sid opened ∧ (state.visit sid now).last ≤ now := by
  obtain ⟨session, user, hsession, huser, hcreated, hbounds⟩ := hlives.row
  unfold SessionRun.visit
  by_cases hlive : session.accepts now
  · rw [findSessionUser_of_accepts hsession huser hlive]
    refine ⟨⟨session.touched now, user, ?_, ?_, ?_, ?_⟩, le_rfl⟩
    · rw [Table.find_update_self, hsession, Option.map_some]
    · rw [session.touched_userId]
      exact huser
    · rw [session.touched_createdAt, hcreated]
    · rw [session.touched_expiresAt, hcreated]
      exact hbounds.refreshed hlater
  · rw [findSessionUser_of_not_accepts hsession hlive]
    exact ⟨⟨session, user, hsession, huser, hcreated, hbounds⟩, hlater⟩

/-- All the requests before one. -/
theorem SessionRun.Lives.visits {times : List Instant} (hlives : state.Lives sid opened)
    (hsorted : (state.last :: times).Pairwise (· ≤ ·)) : (state.visits sid times).Lives sid opened := by
  induction times generalizing state with
  | nil => exact hlives
  | cons first rest ih =>
      rw [List.pairwise_cons, List.pairwise_cons] at hsorted
      obtain ⟨hlast, hfirst, hrest⟩ := hsorted
      obtain ⟨hvisited, hle⟩ := hlives.visit (hlast first List.mem_cons_self)
      refine ih hvisited (List.pairwise_cons.mpr ⟨?_, hrest⟩)
      intro time htime
      exact hle.trans (hfirst time htime)

end Runs

/-! ### A session from its opening -/

section Opened

variable {ctx : WebContext} {uid : Int} {sso : Bool} {db : Db}

/-- The row `create_session` inserts. -/
def NewSession.row (session : NewSession) (now : Instant) : Session :=
  ⟨session.id, session.userId, some now, none, session.expiresAt, session.userAgent, session.ip, session.sso⟩

theorem createSession_eq_ok {session : NewSession} {now : Instant}
    (hok : (exec (.createSession session now) db).1 = .ok ()) :
    ∃ user table, db.users.find session.userId = some user ∧ db.sessions.insert (session.row now) = some table ∧
      (exec (.createSession session now) db).2 = { db with sessions := table } := by
  have hcommit : exec (.createSession session now) db = commit db (db.createSession session now) := rfl
  rw [hcommit] at hok ⊢
  unfold Db.createSession at hok ⊢
  split at hok
  · cases hok
  · rename_i huser
    obtain ⟨user, huser⟩ := Option.ne_none_iff_exists'.mp (mt Option.isNone_iff_eq_none.mpr huser)
    split at hok
    · cases hok
    · rename_i table htable
      refine ⟨user, table, huser, htable, ?_⟩
      rw [if_neg (by rw [huser]; exact Bool.false_ne_true)]
      rfl

theorem createSession_of_free {session : NewSession} {now : Instant}
    (huser : (db.users.find session.userId).isSome = true) (hfree : db.sessions.find session.id = none) :
    ∃ table, exec (.createSession session now) db = (.ok (), { db with sessions := table }) ∧
      table.find session.id = some (session.row now) := by
  have hcommit : exec (.createSession session now) db = commit db (db.createSession session now) := rfl
  cases htable : db.sessions.insert (session.row now) with
  | none =>
      have htaken : (db.sessions.find session.id).isSome = true := db.sessions.insert_eq_none_iff.mp htable
      rw [hfree] at htaken
      cases htaken
  | some table =>
      refine ⟨table, ?_, (db.sessions.find_insert htable _).trans (if_pos rfl)⟩
      have hmissing : ¬ (db.users.find session.userId).isNone = true := by rw [← Option.not_isSome, huser]; decide
      rw [hcommit, Db.createSession, if_neg hmissing]
      unfold NewSession.row at htable
      rw [htable]
      rfl

theorem run_store (c : StoreCall) (db : Db) :
    run exec (store c) db = ⟨(match (exec c db).1 with | .ok answer => .ok answer | .error error => .fail (.db error)),
      (exec c db).2, []⟩ := by
  rw [store, Prog.perform, run_call]
  cases (exec c db).1 <;> rfl

/-- A session that could be opened has its row, of a user that exists. -/
theorem openSession_lives (hopened : (run exec (openSession ctx uid sso) db).outcome = .ok ()) :
    SessionRun.Lives ctx.freshSession ctx.now ⟨(run exec (openSession ctx uid sso) db).state, ctx.now⟩ := by
  rw [openSession, run_store] at hopened ⊢
  have hok : (exec (.createSession
      ⟨ctx.freshSession, uid, ctx.now + sessionIdleTtl, ctx.userAgent, ctx.ip, sso⟩ ctx.now) db).1 = .ok () := by
    revert hopened
    cases (exec (.createSession
      ⟨ctx.freshSession, uid, ctx.now + sessionIdleTtl, ctx.userAgent, ctx.ip, sso⟩ ctx.now) db).1 with
    | ok answer => exact fun _ => rfl
    | error error => intro hopened; cases hopened
  obtain ⟨user, table, huser, htable, hstate⟩ := createSession_eq_ok hok
  refine ⟨NewSession.row ⟨ctx.freshSession, uid, ctx.now + sessionIdleTtl, ctx.userAgent, ctx.ip, sso⟩ ctx.now,
    user, ?_, ?_, rfl, ?_⟩
  · rw [hstate]
    exact (db.sessions.find_insert htable _).trans (if_pos rfl)
  · rw [hstate]
    exact huser
  · exact ExpiryBounds.opened ctx.now

end Opened

end Pingward
