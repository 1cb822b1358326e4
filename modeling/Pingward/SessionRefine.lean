import Pingward.SessionExpiry
import Pingward.SessionLifetime

/-! The table of stored texts behind the table of instants. While the moments stay in the years of four digits, the
session lookup over the texts gives the answer of the lookup over the instants and leaves tables that still
correspond. So a session of texts lives as long as the session of instants it stands for. -/

open KeyedTable
open Calendar (Stamp)

namespace Pingward

/-- A session of instants, as it is read from the texts of them. -/
def Session.stamped (session : Session) : ReadSession :=
  ⟨session.id, session.userId, session.createdAt.map .ofInstant, session.lastSeenAt.map .ofInstant,
    .ofInstant session.expiresAt, session.userAgent, session.ip, session.sso⟩

/-- A stored row and the session it is read as. -/
structure StoredSession.Reads (row : StoredSession) (session : Session) : Prop where
  written : row.Written
  read : rowToSession row = .ok session.stamped

/-- The database of instants that the stored texts stand for, in the sessions of some ids. -/
structure SessionDb.Stores (db : SessionDb) (sids : String → Prop) (model : Db) : Prop where
  users : db.users = model.users
  sessions : ∀ sid, sids sid → Option.Rel StoredSession.Reads (db.sessions.find sid) (model.sessions.find sid)

/-! ### One row -/

section Reads

variable {row : StoredSession} {session : Session} {now : Instant}

theorem rowToSession_eq_ok_iff {read : ReadSession} : rowToSession row = .ok read ↔
    ∃ expires, parseTs (some row.expiresAt) = some expires ∧
      read = ⟨row.id, row.userId, parseTs (some row.createdAt), parseTs row.lastSeenAt, expires, row.userAgent, row.ip,
        row.sso⟩ := by
  unfold rowToSession
  cases parseTs (some row.expiresAt) with
  | none => simp
  | some expires => simp [eq_comm]

/-- The fields of the session, from the row's. -/
theorem StoredSession.Reads.fields (hreads : row.Reads session) :
    session.id = row.id ∧ session.userId = row.userId ∧
      parseTs (some row.createdAt) = session.createdAt.map .ofInstant ∧
      parseTs row.lastSeenAt = session.lastSeenAt.map .ofInstant ∧
      parseTs (some row.expiresAt) = some (.ofInstant session.expiresAt) := by
  obtain ⟨expires, hexpires, heq⟩ := rowToSession_eq_ok_iff.mp hreads.read
  injection heq with hid huserId hcreated hseen hexpiry _ _ _
  exact ⟨hid, huserId, hcreated.symm, hseen.symm, hexpiry ▸ hexpires⟩

theorem StoredSession.Written.created_fourDigits (hwritten : row.Written) {created : Option Instant}
    (hcreated : parseTs (some row.createdAt) = created.map .ofInstant) : ∀ t ∈ created, Calendar.FourDigits t := by
  intro t ht
  rw [Option.mem_def.mp ht, Option.map_some] at hcreated
  rcases hwritten.created with hempty | ⟨written, hwritten, htext⟩
  · have hnone : parseTs (some "") = none := by decide
    rw [hempty, hnone] at hcreated
    cases hcreated
  · rw [htext, parseTs_of_fourDigits hwritten, Option.some.injEq] at hcreated
    rwa [← Stamp.ofInstant_injective hcreated]

/-- The idle window and the cap, by texts and by instants. -/
theorem StoredSession.Reads.live_iff (hreads : row.Reads session) (hnow : Calendar.FourDigits now) :
    row.Live now ↔ session.accepts now := by
  obtain ⟨-, -, hcreated, -, hexpires⟩ := hreads.fields
  obtain ⟨t, ht, htext⟩ := hreads.written.expires
  rw [htext, parseTs_of_fourDigits ht, Option.some.injEq] at hexpires
  rw [StoredSession.Live, Session.accepts, hcreated, isPastAbsoluteCap_ofInstant, htext,
    ← Stamp.ofInstant_injective hexpires]
  unfold toRfc3339
  rw [Calendar.rfc3339_lt_iff hnow ht]

/-- A renewed expiry has a year of four digits. -/
theorem fourDigits_renewal {created : Option Instant} {expires : Instant} {renewal : SessionRenewal}
    (hcreated : ∀ t ∈ created, Calendar.FourDigits t) (hnow : Calendar.FourDigits now)
    (hlast : now + sessionIdleTtl ≤ yearMax) (hrenewal : refreshedExpiry created expires now = some renewal) :
    Calendar.FourDigits renewal.expiresAt := by
  have hidle : (0 : Int) ≤ sessionIdleTtl := by decide
  have hmax : (0 : Int) ≤ sessionAbsoluteMax := by decide
  have hlow := (fourDigits_iff.mp hnow).1
  rw [fourDigits_iff]
  cases created with
  | some created =>
      have hcreated := (fourDigits_iff.mp (hcreated created rfl)).1
      have hnext : renewal.expiresAt = min (now + sessionIdleTtl) (created + sessionAbsoluteMax) := by
        rw [← refreshedExpiry_ofInstant, Option.map_some] at hrenewal
        rw [renewal_expiresAt hrenewal, plusSpan_ofInstant]
      rw [hnext]
      exact ⟨le_min (by linarith) (by linarith), (min_le_left _ _).trans hlast⟩
  | none =>
      have hnext : renewal.expiresAt = now + sessionIdleTtl := by
        unfold refreshedExpiry at hrenewal
        simp only [Option.map_none, Option.any_none, Bool.false_eq_true, if_false] at hrenewal
        split at hrenewal
        · cases hrenewal
          rfl
        · split at hrenewal
          · cases hrenewal
          · cases hrenewal
            rfl
      rw [hnext]
      exact ⟨by linarith, hlast⟩

/-- What an accepted request writes is read as what it writes to the session. -/
theorem StoredSession.Reads.touched (hreads : row.Reads session) (hnow : Calendar.FourDigits now)
    (hlast : now + sessionIdleTtl ≤ yearMax) :
    (row.touched (.ofInstant session.expiresAt) now).Reads (session.touched now) := by
  obtain ⟨-, -, hcreated, hseen, hexpires⟩ := hreads.fields
  obtain ⟨expires, hparse, heq⟩ := rowToSession_eq_ok_iff.mp hreads.read
  rw [hexpires, Option.some.injEq] at hparse
  have hwritten := hreads.written
  have hnowText := parseTs_of_fourDigits hnow
  unfold StoredSession.touched Session.touched
  rw [hcreated, hseen, refreshedExpiry_ofInstant, isStale_ofInstant]
  cases hrenewal : Pingward.refreshedExpiry session.createdAt session.expiresAt now with
  | some renewal =>
      have hfour := fourDigits_renewal (hwritten.created_fourDigits hcreated) hnow hlast hrenewal
      refine ⟨⟨hwritten.created, ⟨_, hfour, rfl⟩⟩, rowToSession_eq_ok_iff.mpr ⟨_, parseTs_of_fourDigits hfour, ?_⟩⟩
      injection heq with hid huserId _ _ _ hagent hip hsso
      simp only [Session.stamped, hid, huserId, hcreated, hnowText, hagent, hip, hsso, Option.map_some]
  | none =>
      cases Pingward.isStale session.lastSeenAt now with
      | true =>
          refine ⟨⟨hwritten.created, hwritten.expires⟩, rowToSession_eq_ok_iff.mpr ⟨_, hexpires, ?_⟩⟩
          injection heq with hid huserId _ _ _ hagent hip hsso
          simp only [Session.stamped, hid, huserId, hcreated, hnowText, hagent, hip, hsso, Option.map_some]
      | false => exact hreads

end Reads

/-! ### The two tables -/

section Lookup

variable {db : SessionDb} {sids : String → Prop} {model : Db} {sid : String} {now : Instant}

theorem SessionDb.findSessionUser_of_not_live {row : StoredSession} (hrow : db.sessions.find sid = some row)
    (hdead : ¬ row.Live now) : db.findSessionUser sid now = .ok (none, db) := by
  unfold SessionDb.findSessionUser
  simp only [hrow]
  split
  · rfl
  · split
    · rfl
    · rename_i hidle
      split
      · rfl
      · rename_i hcap
        exact absurd ⟨not_le.mp hidle, Bool.eq_false_iff.mpr hcap⟩ hdead

theorem capTime_of_fourDigits (hnow : Calendar.FourDigits now) : CapTime now := by
  have hmin : minUtc + sessionAbsoluteMax ≤ yearZero := by decide
  have hmax : (0 : Int) ≤ sessionAbsoluteMax := by decide
  obtain ⟨hlow, hhigh⟩ := fourDigits_iff.mp hnow
  constructor <;> linarith

/-- One session is updated in both tables. -/
theorem SessionDb.Stores.update (hstores : db.Stores sids model) {f : StoredSession → StoredSession}
    {g : Session → Session} {hf : ∀ row, (f row).id = row.id} {hg : ∀ session, (g session).id = session.id}
    (hboth : ∀ row session, db.sessions.find sid = some row → row.Reads session → (f row).Reads (g session)) :
    SessionDb.Stores { db with sessions := db.sessions.update sid f hf } sids
      { model with sessions := model.sessions.update sid g hg } := by
  refine ⟨hstores.users, fun other hother => ?_⟩
  have hfind := hstores.sessions other hother
  dsimp only
  by_cases hsame : other = sid
  · subst hsame
    rw [Table.find_update_self, Table.find_update_self]
    cases hrow : db.sessions.find other with
    | none =>
        rw [hrow] at hfind
        cases hsession : model.sessions.find other with
        | none => exact .none
        | some session =>
            rw [hsession] at hfind
            cases hfind
    | some row =>
        rw [hrow] at hfind
        cases hsession : model.sessions.find other with
        | none =>
            rw [hsession] at hfind
            cases hfind
        | some session =>
            rw [hsession] at hfind
            cases hfind with
            | some hreads => exact .some (hboth row session hrow hreads)
  · rw [Table.find_update_of_ne _ hsame, Table.find_update_of_ne _ hsame]
    exact hfind

/-- **The lookup over the texts is the lookup over the instants.** -/
theorem findSessionUser_refines (hstores : db.Stores sids model) (hsid : sids sid) (hnow : Calendar.FourDigits now)
    (hlast : now + sessionIdleTtl ≤ yearMax) : ∃ answer after,
      db.findSessionUser sid now = .ok (answer, after) ∧ (exec (.findSessionUser sid now) model).1 = .ok answer ∧
        after.Stores sids (exec (.findSessionUser sid now) model).2 := by
  have hfind := hstores.sessions sid hsid
  cases hrow : db.sessions.find sid with
  | none =>
      rw [hrow] at hfind
      cases hsession : model.sessions.find sid with
      | some session =>
          rw [hsession] at hfind
          cases hfind
      | none =>
          have hmodel : exec (.findSessionUser sid now) model = (.ok none, model) := by
            simp only [exec, Db.findSessionUser, hsession]
          rw [hmodel]
          refine ⟨none, db, ?_, rfl, hstores⟩
          simp only [SessionDb.findSessionUser, hrow]
  | some row =>
      rw [hrow] at hfind
      cases hsession : model.sessions.find sid with
      | none =>
          rw [hsession] at hfind
          cases hfind
      | some session =>
          rw [hsession] at hfind
          cases hfind with
          | some hreads =>
              obtain ⟨-, huserId, -, -, hexpires⟩ := hreads.fields
              by_cases hlive : row.Live now
              · cases huser : model.users.find row.userId with
                | none =>
                    have huser' : db.users.find row.userId = none := by rw [hstores.users, huser]
                    have hmodel : exec (.findSessionUser sid now) model = (.ok none, model) := by
                      simp only [exec, Db.findSessionUser, hsession, huserId, huser]
                    rw [hmodel]
                    refine ⟨none, db, ?_, rfl, hstores⟩
                    simp only [SessionDb.findSessionUser, hrow, huser']
                | some user =>
                    have huser' : db.users.find row.userId = some user := by rw [hstores.users, huser]
                    have hanswer := SessionDb.findSessionUser_of_live hrow huser' hlive.1 hlive.2 hexpires
                      ((capTime_of_fourDigits hnow).renewal _ _)
                    have hmodel := findSessionUser_of_accepts hsession (huserId ▸ huser) ((hreads.live_iff hnow).mp hlive)
                    refine ⟨some user, _, hanswer, by rw [hmodel], ?_⟩
                    rw [hmodel]
                    refine hstores.update fun other otherSession hother hboth => ?_
                    have hsame : otherSession.expiresAt = session.expiresAt := by
                      obtain ⟨-, -, -, -, hotherExpires⟩ := hboth.fields
                      cases hrow.symm.trans hother
                      rw [hexpires, Option.some.injEq] at hotherExpires
                      exact (Stamp.ofInstant_injective hotherExpires).symm
                    rw [← hsame]
                    exact hboth.touched hnow hlast
              · have hmodel := findSessionUser_of_not_accepts hsession (mt (hreads.live_iff hnow).mpr hlive)
                rw [hmodel]
                exact ⟨none, db, SessionDb.findSessionUser_of_not_live hrow hlive, rfl, hstores⟩

end Lookup

/-! ### A session from its opening -/

/-- The insert of `open_session`. -/
def SessionDb.openSession (db : SessionDb) (ctx : WebContext) (userId : Int) (sso : Bool) : Except StoreError SessionDb :=
  db.createSession ⟨ctx.freshSession, userId, ctx.now + sessionIdleTtl, ctx.userAgent, ctx.ip, sso⟩ ctx.now

/-- The tables, and when a request in the session was last accepted. -/
structure StoredRun where
  db : SessionDb
  last : Instant

namespace StoredRun

/-- `find_session_user` for one request. A call that fails leaves the row. -/
def visit (sid : String) (state : StoredRun) (now : Instant) : StoredRun :=
  match state.db.findSessionUser sid now with
  | .ok (some _, after) => ⟨after, now⟩
  | .ok (none, after) => ⟨after, state.last⟩
  | .error _ => state

/-- The requests of a run, one after another. -/
def visits (sid : String) (state : StoredRun) (times : List Instant) : StoredRun := times.foldl (visit sid) state

/-- The run of instants behind a run of texts. -/
structure Follows (sid : String) (state : StoredRun) (model : SessionRun) : Prop where
  stores : state.db.Stores (· = sid) model.db
  last : state.last = model.last

end StoredRun

section Runs

variable {state : StoredRun} {model : SessionRun} {sid : String} {now : Instant}

/-- One request. -/
theorem StoredRun.Follows.visit (hfollows : state.Follows sid model) (hnow : Calendar.FourDigits now)
    (hlast : now + sessionIdleTtl ≤ yearMax) : (state.visit sid now).Follows sid (model.visit sid now) := by
  obtain ⟨answer, after, hanswer, hmodel, hafter⟩ := findSessionUser_refines hfollows.stores rfl hnow hlast
  unfold StoredRun.visit SessionRun.visit
  rw [hanswer, hmodel]
  cases answer with
  | none => exact ⟨hafter, hfollows.last⟩
  | some user => exact ⟨hafter, rfl⟩

/-- All the requests of a run. -/
theorem StoredRun.Follows.visits {times : List Instant} (hfollows : state.Follows sid model)
    (htimes : ∀ time ∈ times, Calendar.FourDigits time ∧ time + sessionIdleTtl ≤ yearMax) :
    (state.visits sid times).Follows sid (model.visits sid times) := by
  induction times generalizing state model with
  | nil => exact hfollows
  | cons first rest ih =>
      obtain ⟨hfirst, hlast⟩ := htimes first List.mem_cons_self
      exact ih (hfollows.visit hfirst hlast) fun time htime => htimes time (List.mem_cons_of_mem _ htime)

theorem StoredRun.Follows.accepts_iff (hfollows : state.Follows sid model) (hnow : Calendar.FourDigits now)
    (hlast : now + sessionIdleTtl ≤ yearMax) : state.db.Accepts sid now ↔ model.Accepts sid now := by
  obtain ⟨answer, after, hanswer, hmodel, -⟩ := findSessionUser_refines hfollows.stores rfl hnow hlast
  unfold SessionDb.Accepts SessionRun.Accepts
  rw [hanswer, hmodel]
  cases answer with
  | none => simp
  | some user => simp

end Runs

section Opened

variable {db after : SessionDb} {ctx : WebContext} {uid : Int} {sso : Bool}

theorem SessionDb.openSession_eq_ok (hopened : db.openSession ctx uid sso = .ok after) :
    (db.users.find uid).isSome = true ∧ after.users = db.users ∧ after.sessions.find ctx.freshSession =
      some ⟨ctx.freshSession, uid, toRfc3339 ctx.now, none, toRfc3339 (ctx.now + sessionIdleTtl), ctx.userAgent, ctx.ip,
        sso⟩ := by
  unfold SessionDb.openSession SessionDb.createSession at hopened
  split at hopened
  · cases hopened
  · rename_i huser
    split at hopened
    · cases hopened
    · rename_i table htable
      cases hopened
      refine ⟨?_, rfl, (db.sessions.find_insert htable _).trans (if_pos rfl)⟩
      rw [← Option.not_isNone, Bool.not_eq_true', Bool.eq_false_iff]
      exact huser

/-- The row of a session just opened. -/
theorem StoredSession.reads_opened (hnow : Calendar.FourDigits ctx.now)
    (hlast : ctx.now + sessionIdleTtl ≤ yearMax) :
    StoredSession.Reads ⟨ctx.freshSession, uid, toRfc3339 ctx.now, none, toRfc3339 (ctx.now + sessionIdleTtl),
        ctx.userAgent, ctx.ip, sso⟩
      (NewSession.row ⟨ctx.freshSession, uid, ctx.now + sessionIdleTtl, ctx.userAgent, ctx.ip, sso⟩ ctx.now) := by
  have hidle : (0 : Int) ≤ sessionIdleTtl := by decide
  have hexpires : Calendar.FourDigits (ctx.now + sessionIdleTtl) :=
    fourDigits_iff.mpr ⟨le_add_of_le_of_nonneg (fourDigits_iff.mp hnow).1 hidle, hlast⟩
  refine ⟨⟨.inr ⟨_, hnow, rfl⟩, ⟨_, hexpires, rfl⟩⟩,
    rowToSession_eq_ok_iff.mpr ⟨_, parseTs_of_fourDigits hexpires, ?_⟩⟩
  dsimp only
  rw [parseTs_of_fourDigits hnow]
  rfl

/-- A session that could be opened over the texts is opened over the instants, in a database with the same users. -/
theorem openSession_refines (hopened : db.openSession ctx uid sso = .ok after) (hnow : Calendar.FourDigits ctx.now)
    (hlast : ctx.now + sessionIdleTtl ≤ yearMax) :
    ∃ model, (StoreProgram.run exec (openSession ctx uid sso) model).outcome = .ok () ∧
      StoredRun.Follows ctx.freshSession ⟨after, ctx.now⟩
        ⟨(StoreProgram.run exec (openSession ctx uid sso) model).state, ctx.now⟩ := by
  obtain ⟨huser, husers, hrow⟩ := SessionDb.openSession_eq_ok hopened
  obtain ⟨table, hexec, htable⟩ := @createSession_of_free { Db.empty with users := db.users }
    ⟨ctx.freshSession, uid, ctx.now + sessionIdleTtl, ctx.userAgent, ctx.ip, sso⟩ ctx.now huser rfl
  refine ⟨{ Db.empty with users := db.users }, ?_⟩
  rw [openSession, run_store, hexec]
  refine ⟨rfl, ⟨husers, ?_⟩, rfl⟩
  rintro sid rfl
  dsimp only
  rw [hrow, htable]
  exact .some (StoredSession.reads_opened hnow hlast)

/-- **The lifetime of a session.** Over any requests after it was opened, at times that do not go back and whose idle
window ends in a year of four digits, a request is accepted only before the absolute cap and less than one idle window
after the last accepted one, and is accepted whenever it comes before the cap and less than half an idle window
after it. -/
theorem session_lifetime (times : List Instant) (now : Instant) (hopened : db.openSession ctx uid sso = .ok after)
    (hsorted : (ctx.now :: times ++ [now]).Pairwise (· ≤ ·)) (hfirst : yearZero ≤ ctx.now)
    (hlast : now + sessionIdleTtl ≤ yearMax) :
    let state := StoredRun.visits ctx.freshSession ⟨after, ctx.now⟩ times
    (state.db.Accepts ctx.freshSession now → now < ctx.now + sessionAbsoluteMax ∧ now < state.last + sessionIdleTtl) ∧
      (now < ctx.now + sessionAbsoluteMax → now < state.last + sessionIdleTtl / 2 →
        state.db.Accepts ctx.freshSession now) := by
  have hidle : (0 : Int) ≤ sessionIdleTtl := by decide
  have hbefore : (ctx.now :: times).Pairwise (· ≤ ·) := hsorted.sublist (List.sublist_append_left _ _)
  have hyear : ∀ time ∈ ctx.now :: times ++ [now], Calendar.FourDigits time ∧ time + sessionIdleTtl ≤ yearMax := by
    intro time htime
    have hle : time ≤ now := by
      rcases List.mem_append.mp htime with hearlier | hsame
      · exact (List.pairwise_append.mp hsorted).2.2 time hearlier now (List.mem_singleton_self _)
      · rw [List.mem_singleton.mp hsame]
    have hlow : ctx.now ≤ time := by
      rw [List.cons_append, List.mem_cons] at htime
      rcases htime with hsame | hlater
      · rw [hsame]
      · exact (List.pairwise_cons.mp hsorted).1 time hlater
    refine ⟨fourDigits_iff.mpr ⟨hfirst.trans hlow, ?_⟩, ?_⟩
    all_goals linarith
  obtain ⟨hctx, hctxLast⟩ := hyear ctx.now List.mem_cons_self
  obtain ⟨hnow, -⟩ := hyear now (List.mem_append_right _ (List.mem_singleton_self _))
  obtain ⟨model, hmodel, hfollows⟩ := openSession_refines hopened hctx hctxLast
  have hvisits := hfollows.visits fun time htime =>
    hyear time (List.mem_append_left _ (List.mem_cons_of_mem _ htime))
  dsimp only
  rw [hvisits.accepts_iff hnow hlast, hvisits.last]
  exact ((openSession_lives hmodel).visits hbefore).accepts now

end Opened

/-! ### A session used every day and a half -/

def SessionDb.opened (ctx : WebContext) : SessionDb := ((january.openSession ctx 1 false).toOption).getD january

/-- Used after 35 and after 70 hours: the first of these requests moves the expiry, so that the second, two
hours before the first expiry, is well inside. -/
theorem session_lifetime_daily :
    (StoredRun.visits WebContext.sample.freshSession ⟨.opened WebContext.sample, WebContext.sample.now⟩
      [WebContext.sample.now + 35 * 3600 * nanosPerSec]).db.Accepts WebContext.sample.freshSession
        (WebContext.sample.now + 70 * 3600 * nanosPerSec) := by
  have hopened : SessionDb.january.openSession WebContext.sample 1 false = .ok (.opened WebContext.sample) := rfl
  refine (session_lifetime [WebContext.sample.now + 35 * 3600 * nanosPerSec]
    (WebContext.sample.now + 70 * 3600 * nanosPerSec) hopened ?_ ?_ ?_).2 ?_ ?_ <;> decide +kernel

/-- A request at `now` in the session opened at `opened`. -/
def answerAfterOpening (opened now : Instant) : Option (Except SessionFault Bool) :=
  (SessionDb.january.openSession { WebContext.sample with now := opened } 1 false).toOption.map fun db =>
    (db.findSessionUser WebContext.sample.freshSession now).map fun answer => answer.1.isSome

/-- An expiry outside the years of four digits: the text of one in the year 10000 sorts below the moment of the request,
and the text of one before the year 0 is not read. Both sessions are lost within the hour. -/
theorem session_lost_outside_four_digits :
    answerAfterOpening (Calendar.yearInstant 10000 - 24 * 3600 * nanosPerSec)
        (Calendar.yearInstant 10000 - 23 * 3600 * nanosPerSec) = some (.ok false) ∧
      answerAfterOpening (Calendar.yearInstant 0 - 240 * 3600 * nanosPerSec)
        (Calendar.yearInstant 0 - 239 * 3600 * nanosPerSec) = some (.error .decode) := by
  decide +kernel

end Pingward
