import Pingward.FrameCalls
import Pingward.ModelRoutes
import Pingward.RowMachine

/-! The operations of a sequential run, each a program over the store that runs to its end, and what an
operation comes to for one check: an input of the machine of `RowMachine`. -/

open KeyedTable StoreProgram

namespace Pingward

/-! ### Operations -/

/-- A request on a check, with its edit form or body. -/
inductive CheckAction (β : Type) where
  | pause
  | resume
  | ack
  | edit (body : β)
  deriving DecidableEq, Repr

inductive Operation where
  | ping (route : PingRoute) (uuid : String) (body : List UInt8) (clientIp : Option String) (now : Instant)
  | scan (now : Instant) (baseUrl : String)
  | nag (now : Instant) (baseUrl : String)
  | web (ctx : WebContext) (id : Int) (action : CheckAction CheckForm)
  | admin (ctx : WebContext) (id : Int) (action : CheckAction CheckForm)
  | api (ctx : ApiContext) (id : Int) (action : CheckAction (Except String CheckInput))

def CheckAction.webRoute (id : Int) : CheckAction CheckForm → WebRoute
  | .pause => .checkPause id
  | .resume => .checkResume id
  | .ack => .checkAck id
  | .edit form => .checkUpdate id form

def CheckAction.adminRoute (id : Int) : CheckAction CheckForm → AdminRoute
  | .pause => .checkPause id
  | .resume => .checkResume id
  | .ack => .checkAck id
  | .edit form => .checkUpdate id form

def CheckAction.apiRoute (id : Int) : CheckAction (Except String CheckInput) → ApiRoute
  | .pause => .pauseCheck id
  | .resume => .resumeCheck id
  | .ack => .ackCheck id
  | .edit body => .updateCheck id body

/-- What a log entry is about, and the entry. -/
abbrev Log := List (Int × Item)

/-- What a store call leaves in the log. -/
def callEntry : StoreCall → Option (Int × Item)
  | .insertPing ping now => some (ping.checkId, .ping ping.kind now)
  | .setStatus id .paused => some (id, .paused)
  | .acknowledge id => some (id, .acknowledged)
  | _ => none

/-- What a spawned delivery leaves in the log. -/
def eventEntry (event : Spawned) : Int × Item := (event.checkId, .alert event.kind event.at_ event.cause)

/-- The entries of one check. -/
def Log.of (log : Log) (cid : Int) : List Item := (log.filter fun entry => entry.1 = cid).map Prod.snd

namespace Operation

variable (X : Crates)

def program : Operation → StoreProg Unit Unit
  | .ping route uuid body clientIp now => (apply X (route.request uuid body clientIp) now).erase
  | .scan now baseUrl => (scanPass X now baseUrl).erase
  | .nag now baseUrl => (nagPass now baseUrl).erase
  | .web ctx id action => (webRequest X ctx (action.webRoute id)).erase
  | .admin ctx id action => (adminRequest X ctx (action.adminRoute id)).erase
  | .api ctx id action => (apiRequest X ctx (action.apiRoute id)).erase

def ran (op : Operation) (db : Db) : Ran Db Spawned Unit Unit := run exec (op.program X) db

/-- The database after the operation. -/
def after (op : Operation) (db : Db) : Db := (op.ran X db).state

/-- What the operation leaves in the log, newest first. -/
def log (op : Operation) (db : Db) : Log :=
  ((calls exec (op.program X) db).filterMap callEntry ++ (op.ran X db).events.map eventEntry).reverse

def isPass : Operation → Bool
  | .scan _ _ => true
  | .nag _ _ => true
  | _ => false

/-- The operation gets as far as writing the status of the check. A pause or a resume that is refused before does not. -/
def SetsStatus (status : CheckStatus) (cid : Int) (db : Db) (op : Operation) : Prop :=
  StoreCall.setStatus cid status ∈ calls exec (op.program X) db

/-- A pass runs to its end. A request that panics is answered with an error and the server goes on. -/
def Completes (op : Operation) (db : Db) : Prop := op.isPass = true → (op.ran X db).outcome ≠ .panic

end Operation

/-- What a sequential run reaches, with its log, newest first. Every step satisfies `allowed` in the
state it starts in. -/
inductive Reached (X : Crates) (allowed : Db → Operation → Prop) (start : Db) : Db → Log → Prop where
  | start : Reached X allowed start start []
  | step {db : Db} {log : Log} (op : Operation) (before : Reached X allowed start db log)
      (hallowed : allowed db op) : Reached X allowed start (op.after X db) (op.log X db ++ log)

/-! ### What a pass reads besides its checks -/

namespace Db

def projectNames (db : Db) : List (Int × String) := db.projects.rows.map fun row => (row.id, row.name)

def projectNags (db : Db) : List (Int × Option Int) := db.projects.rows.map fun row => (row.id, row.nagIntervalSecs)

def displayTz (db : Db) : Option String :=
  ((db.getSetting "display_timezone").map trim).filter fun s => s ≠ ""

def globalNag (db : Db) : Option Int := (db.getSetting "nag_interval").bind parseI64

/-- The effective nag interval of a check in a state. -/
def nagInterval (db : Db) (check : Check) : Option Int :=
  effectiveNagInterval check.nagIntervalSecs (lookup db.projectNags check.projectId).join db.globalNag

end Db

/-- The input a request on the check gives; an edit carries what the validator made of it. -/
def CheckAction.input {β : Type} (validated : β → Option UpdateCheck) : CheckAction β → RowInput → Prop
  | .pause, input => input = .pause
  | .resume, input => input = .resume
  | .ack, input => input = .acknowledge
  | .edit body, input => ∃ fields, validated body = some fields ∧ input = .edit fields

/-- What the web form's validator makes of an edit. -/
def validatedForm (X : Crates) (form : CheckForm) : Option UpdateCheck := (validateCheck X form).toOption

def validatedBody (X : Crates) (body : Except String CheckInput) : Option UpdateCheck :=
  body.toOption.bind fun i => (validateCheck X i.form).toOption

/-- The inputs an operation can be for the row of a check. -/
def Operation.Gives (X : Crates) (db : Db) (check : Check) : Operation → RowInput → Prop
  | .ping route uuid body clientIp now, input =>
      if (db.findCheckByUuid uuid).map Check.id = some check.id then
        let ping := route.request uuid body clientIp
        if check.status = .paused ∨ (run exec (apply X ping now) db).outcome = .panic then
          input = .record ping.kind now
        else input = .ping ping.kind ping.exitCode now
      else input = .idle
  | .scan now _, input => input = .scan now
  | .nag now _, input => input = .nag (db.nagInterval check) now
  | .web ctx id action, input =>
      input = .idle ∨ id = check.id ∧ action.input (validatedForm X) input ∧
        ∀ status, input.sets = some status → Operation.SetsStatus X status check.id db (.web ctx id action)
  | .admin ctx id action, input =>
      input = .idle ∨ id = check.id ∧ action.input (validatedForm X) input ∧
        ∀ status, input.sets = some status → Operation.SetsStatus X status check.id db (.admin ctx id action)
  | .api ctx id action, input =>
      input = .idle ∨ id = check.id ∧ action.input (validatedBody X) input ∧
        ∀ status, input.sets = some status → Operation.SetsStatus X status check.id db (.api ctx id action)

/-- What an operation comes to for a check. -/
def Operation.Refines (X : Crates) (op : Operation) (db : Db) (cid : Int) (check : Check) : Prop :=
  ∃ input, op.Gives X db check input ∧ (op.after X db).findCheck cid = some (input.row X check) ∧
    (op.log X db).of cid = input.items X check

/-! ### Logs -/

@[simp] theorem Log.of_nil (cid : Int) : Log.of [] cid = [] := rfl

@[simp] theorem Log.of_append (a b : Log) (cid : Int) : Log.of (a ++ b) cid = a.of cid ++ b.of cid := by
  simp [Log.of]

theorem Log.of_reverse (log : Log) (cid : Int) : Log.of log.reverse cid = (log.of cid).reverse := by
  simp [Log.of]

theorem Log.of_eq_nil {log : Log} {cid : Int} (hother : ∀ entry ∈ log, entry.1 ≠ cid) : log.of cid = [] := by
  simpa [Log.of] using hother

/-- A program whose calls leave no entry has its events for a log. -/
theorem filterMap_callEntry {A α : Type} {program : StoreProg A α} {okEvent : Spawned → Prop}
    (honly : program.Only (fun c => callEntry c = none) okEvent) (db : Db) :
    (calls exec program db).filterMap callEntry = [] := by
  rw [List.filterMap_eq_nil_iff]
  exact honly.calls exec db

/-! ### One row -/

theorem findCheck_updateCheck_self (db : Db) (id : Int) (f : Check → Check) (hid : ∀ row, (f row).id = row.id) :
    (db.updateCheck id f hid).findCheck id = (db.findCheck id).map f :=
  Table.find_update_self _ id f hid

theorem findCheck_updateCheck_of_ne (db : Db) {id cid : Int} (hne : cid ≠ id) (f : Check → Check)
    (hid : ∀ row, (f row).id = row.id) : (db.updateCheck id f hid).findCheck cid = db.findCheck cid :=
  Table.find_update_of_ne _ hne f hid

theorem updateCheck_updateCheck (db : Db) (id : Int) (f g : Check → Check) (hf : ∀ row, (f row).id = row.id)
    (hg : ∀ row, (g row).id = row.id) :
    (db.updateCheck id f hf).updateCheck id g hg =
      db.updateCheck id (fun row => g (f row)) fun row => (hg (f row)).trans (hf row) :=
  congrArg (fun table => { db with checks := table }) (AutoTable.update_update db.checks id f g hf hg)

theorem updateCheck_id (db : Db) (id : Int) (hid : ∀ row : Check, row.id = row.id) :
    db.updateCheck id (fun row => row) hid = db :=
  congrArg (fun table => { db with checks := table }) (AutoTable.update_id db.checks id hid)

/-- The row a ping looks up after an update of another column. -/
theorem findCheckByUuid_updateCheck (db : Db) (id : Int) (uuid : String) {f : Check → Check}
    (hid : ∀ row, (f row).id = row.id) (huuid : ∀ row, (f row).pingUuid = row.pingUuid) :
    (db.updateCheck id f hid).findCheckByUuid uuid =
      (db.findCheckByUuid uuid).map fun row => if row.id = id then f row else row := by
  have hpred : ((fun row : Check => decide (row.pingUuid = uuid)) ∘ fun row => if row.id = id then f row else row) =
      fun row => decide (row.pingUuid = uuid) := by
    funext row
    simp only [Function.comp_apply]
    split
    · rw [huuid]
    · rfl
  simp only [Db.findCheckByUuid, Db.updateCheck, AutoTable.update_toTable, Table.update_rows, List.find?_map, hpred]

/-! ### A small instance -/

/-- Crates for the examples: the one zone is UTC, no text is a cron expression, and a password's hash
spells the password out. -/
def plainCrates : Crates where
  Schedule := Empty
  Tz := Unit
  parseSchedule _ := .error "Invalid cron expression."
  parseTz name := if name = "UTC" then some () else none
  tzName _ := "UTC"
  utc := ()
  next schedule _ _ := nomatch schedule
  hashPassword salt plain := some (salt ++ "$" ++ plain)
  verifyPassword plain phc := (phc.toList.dropWhile (· ≠ '$')).drop 1 = plain.toList
  hashApiKey token := token
  parseConfig _ := none
  renderConfig _ := ""
  sendTest _ _ := .ok ()
  deriveCsrf sid := sid
  toLowercase text := text

/-- One user, signed in, with one project and one check on a period of a minute. -/
def Db.sample : Db :=
  [StoreCall.createUser "alice" none false 0,
    .createProject 1 ⟨"jobs", "", none, some 300⟩ 0,
    .createCheck ⟨1, "backup", "", "u1", .period, some 60, 0, none, "UTC", none, none, none⟩ 0,
    .createSession ⟨"s1", 1, 1000 * nanosPerSec, none, none, false⟩ 0].foldl (fun db c => (exec c db).2) .empty

/-- A request of that user. -/
def WebContext.sample : WebContext where
  now := 200 * nanosPerSec
  sessionId := some "s1"
  forwardAuth := false
  gatewayUser := none
  freshSession := "s2"
  anonymousSession := "s3"
  uuid := "u2"
  newToken := ("t1", "t")
  salt := "salt"
  userAgent := none
  ip := none
  csrfOk := true
  flash := none
  accountLimiterOpen := true
  loginLimiterOpen := true
  elevated := false
  fragment := false
  path := "/"
  rawQuery := ""
  forwardAuthLogoutUrl := none
  baseUrl := ""
  smtp := none
  setOrder := .asListed

def failPing (now : Instant) : Operation := .ping .fail "u1" [] none now

end Pingward
