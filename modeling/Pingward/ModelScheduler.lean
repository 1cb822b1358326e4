import Pingward.ModelCall
import Pingward.ModelDuration
import Pingward.ModelNotify

/-! `src/scheduler.rs`: deadlines, the scan pass and the nag pass, with the event types of
`src/notify.rs` and the nag cascade of `src/config.rs`. The crates the program calls are a parameter.
A pass reads its checks once and then works through that list, one call after another. -/

open StoreProgram

namespace Pingward

/-- The code outside the repository that the program calls: `cron`, `chrono_tz`, `argon2`, `sha2`,
`serde_json`, the notification transports and the Unicode tables. -/
structure Crates where
  Schedule : Type
  Tz : Type
  /-- `Schedule::from_str`, the error as it prints. -/
  parseSchedule : String → Except String Schedule
  /-- `str::parse::<Tz>`. -/
  parseTz : String → Option Tz
  tzName : Tz → String
  utc : Tz
  /-- `schedule.after(&t).next()` in the zone: the first firing strictly after `t`. -/
  next : Schedule → Tz → Instant → Option Instant
  /-- `hash_password` under a salt; `none` when hashing fails. -/
  hashPassword : (salt plain : String) → Option String
  verifyPassword : (plain phc : String) → Bool
  /-- SHA-256 in hex. -/
  hashApiKey : String → String
  /-- The string values of a JSON object; `none` when the text is not JSON. -/
  parseConfig : String → Option (String → Option String)
  renderConfig : List (String × String) → String
  /-- `Notifier::send` of the test event for a channel of the name. -/
  sendTest : Notifier → (name : String) → Except String Unit
  /-- The CSRF token of a session id. -/
  deriveCsrf : String → String
  /-- `str::to_lowercase`, by the Unicode tables. -/
  toLowercase : String → String

/-! ### Events -/

inductive DownCause where
  | overdue
  | overrun (maxRuntimeSecs : Int) (startedAt : Instant)
  | failed (exitCode : Option Int)
  deriving DecidableEq, Repr

structure EventDetail where
  projectName : Option String
  url : Option String
  schedule : Option String
  lastPingAt : Option Instant
  timezone : Option String
  cause : Option DownCause
  deriving DecidableEq, Repr

structure NotificationEvent where
  checkId : Int
  checkName : String
  event : EventKind
  at_ : Instant
  projectId : Int
  detail : EventDetail
  deriving DecidableEq, Repr

def checkUrl (baseUrl : String) (checkId : Int) : Option String :=
  let base := trimEndSlashes (trim baseUrl)
  if base = "" then none else some (base ++ "/checks/" ++ i64ToString checkId)

def scheduleSummary (check : Check) : String :=
  let grace := if check.graceSecs > 0 then " (grace " ++ fmtDuration check.graceSecs ++ ")" else ""
  match check.scheduleKind with
  | .period =>
      match check.periodSecs with
      | some p => "every " ++ fmtDuration p ++ grace
      | none => "no period set" ++ grace
  | .cron =>
      match check.cronExpr with
      | some e => "cron \"" ++ e ++ "\" " ++ check.timezone ++ grace
      | none => "no cron expression set" ++ grace

def EventDetail.fromCheck (check : Check) (projectName : Option String) (baseUrl : String) : EventDetail where
  projectName := projectName
  url := checkUrl baseUrl check.id
  schedule := some (scheduleSummary check)
  lastPingAt := check.lastPingAt
  timezone := some check.timezone
  cause := none

def EventDetail.withCause (detail : EventDetail) (cause : DownCause) : EventDetail :=
  { detail with cause := some cause }

def EventDetail.withDisplayTimezone (detail : EventDetail) (tz : Option String) : EventDetail :=
  match (tz.map trim).filter fun t => t ≠ "" with
  | some t => { detail with timezone := some t }
  | none => detail

/-- What a ping hands to `spawn_delivery`: the check as it was before the ping. -/
structure Delivery where
  check : Check
  event : EventKind
  now : Instant
  cause : Option DownCause
  deriving DecidableEq, Repr

/-- A delivery task: spawned by a ping, or by the scan loop from an event of a pass. -/
inductive Spawned where
  | delivery (delivery : Delivery)
  | event (event : NotificationEvent)
  deriving DecidableEq, Repr

namespace Spawned

def checkId : Spawned → Int
  | .delivery d => d.check.id
  | .event e => e.checkId

def kind : Spawned → EventKind
  | .delivery d => d.event
  | .event e => e.event

def at_ : Spawned → Instant
  | .delivery d => d.now
  | .event e => e.at_

def cause : Spawned → Option DownCause
  | .delivery d => d.cause
  | .event e => e.detail.cause

end Spawned

/-- A program over the store that spawns deliveries. -/
abbrev StoreProg (A α : Type) := Prog StoreCall StoreCall.Res StoreError Spawned A α

/-- A call whose error the program looks at itself. -/
def attemptCall {A : Type} (c : StoreCall) : StoreProg A (Except StoreError c.Res) := Prog.attempt c

/-- A call whose error ends the pass. -/
def query (c : StoreCall) : StoreProg StoreError c.Res := Prog.perform id c

/-! ### Deadlines -/

/-- Anchor for the next expected check-in: last finished ping, else creation. -/
def anchor (check : Check) : Instant := check.lastPingAt.getD check.createdAt

/-- When the check becomes overdue, grace included; `none` without a usable period or cron
expression. -/
def dueTime (X : Crates) (check : Check) : Checked (Option Instant) := do
  let grace ← durationSeconds check.graceSecs
  match check.scheduleKind with
  | .period =>
      match check.periodSecs with
      | none => return none
      | some secs => do
          let period ← durationSeconds secs
          let expected ← addDuration (anchor check) period
          return some (← addDuration expected grace)
  | .cron =>
      match check.cronExpr with
      | none => return none
      | some expr =>
          match X.parseSchedule expr with
          | .error _ => return none
          | .ok schedule =>
              match X.next schedule ((X.parseTz check.timezone).getD X.utc) (anchor check) with
              | none => return none
              | some next => return some (← addDuration next grace)

/-- `last_start_at + max_runtime_secs` for a run in flight. -/
def overrunTime (check : Check) : Checked (Option Instant) :=
  match check.maxRuntimeSecs with
  | none => return none
  | some max =>
      if max ≤ 0 then return none
      else
        match check.lastStartAt with
        | none => return none
        | some start =>
            if check.lastPingAt.all (· < start) then do
              let runtime ← durationSeconds max
              return some (← addDuration start runtime)
            else return none

/-- Nag interval via check, project, global: the first that is positive. -/
def effectiveNagInterval (checkSecs projectSecs globalSecs : Option Int) : Option Int :=
  ([checkSecs, projectSecs, globalSecs].filterMap id).find? (0 < ·)

/-- When the reminder after an alert is due. -/
def reminderTime (last : Instant) (interval : Int) : Checked Instant := do
  addDuration last (← durationSeconds interval)

/-! ### Passes -/

/-- `HashMap::get`. -/
def lookup {α : Type} (map : List (Int × α)) (key : Int) : Option α :=
  (map.find? fun entry => entry.1 = key).map Prod.snd

/-- Instance-wide notification timezone. A read failure yields `none`. -/
def displayTimezone {A : Type} : StoreProg A (Option String) := do
  let answer ← attemptCall (.getSetting "display_timezone")
  return (answer.toOption.join.map trim).filter fun s => s ≠ ""

/-- Overrun wins over overdue: it is the more specific cause. -/
def downCause (overrun : Bool) (check : Check) : DownCause :=
  match overrun, check.maxRuntimeSecs, check.lastStartAt with
  | true, some max, some startedAt => .overrun max startedAt
  | _, _, _ => .overdue

def downEvent (check : Check) (now : Instant) (baseUrl : String) (projectNames : List (Int × String))
    (displayTz : Option String) (overrun : Bool) : NotificationEvent where
  checkId := check.id
  checkName := check.name
  event := .down
  at_ := now
  projectId := check.projectId
  detail := ((EventDetail.fromCheck check (lookup projectNames check.projectId) baseUrl).withDisplayTimezone
    displayTz).withCause (downCause overrun check)

def reminderEvent (check : Check) (now : Instant) (baseUrl : String) (projectNames : List (Int × String))
    (displayTz : Option String) : NotificationEvent where
  checkId := check.id
  checkName := check.name
  event := .reminder
  at_ := now
  projectId := check.projectId
  detail := (EventDetail.fromCheck check (lookup projectNames check.projectId) baseUrl).withDisplayTimezone
    displayTz

/-- Whether an optional deadline has come. -/
def hasPassed (deadline : Option Instant) (now : Instant) : Bool := deadline.any (· ≤ now)

/-- One round of the scan loop: down the check if it is overdue or overrun. A store failure is logged
and skipped. -/
def scanCheck (X : Crates) (now : Instant) (baseUrl : String) (projectNames : List (Int × String))
    (displayTz : Option String) (check : Check) : StoreProg StoreError (List NotificationEvent) := do
  let due ← Prog.orPanic (dueTime X check)
  let deadline ← Prog.orPanic (overrunTime check)
  let overrun := hasPassed deadline now
  if ¬(hasPassed due now ∨ overrun) then return []
  match ← attemptCall (.setStatus check.id .down) with
  | .error _ => return []
  | .ok _ =>
      let _ ← attemptCall (.beginDownAlert check.id now)
      return [downEvent check now baseUrl projectNames displayTz overrun]

/-- Run the rounds of a pass over its list and collect the events. -/
def forChecks (round : Check → StoreProg StoreError (List NotificationEvent)) :
    List Check → StoreProg StoreError (List NotificationEvent)
  | [] => return []
  | check :: rest => do
      let events ← round check
      let others ← forChecks round rest
      return events ++ others

/-- Downs every active check that is overdue or overrun. -/
def scanOnce (X : Crates) (now : Instant) (baseUrl : String) :
    StoreProg StoreError (List NotificationEvent) := do
  let projectNames ← query .allProjectNames
  let displayTz ← displayTimezone
  let checks ← query .listActiveChecks
  forChecks (scanCheck X now baseUrl projectNames displayTz) checks

/-- One round of the nag loop. -/
def nagCheck (now : Instant) (baseUrl : String) (projectNags : List (Int × Option Int))
    (projectNames : List (Int × String)) (displayTz : Option String) (globalNag : Option Int)
    (check : Check) : StoreProg StoreError (List NotificationEvent) :=
  if check.acknowledged then return []
  else
    match effectiveNagInterval check.nagIntervalSecs (lookup projectNags check.projectId).join
        globalNag with
    | none => return []
    | some interval =>
        match check.lastAlertAt with
        | none => return []
        | some last => do
            let due ← Prog.orPanic (reminderTime last interval)
            if now < due then return []
            match ← attemptCall (.recordReminder check.id now) with
            | .error _ => return []
            | .ok _ => return [reminderEvent check now baseUrl projectNames displayTz]

/-- A reminder for every down, unacknowledged check whose nag interval has elapsed. -/
def nagOnce (now : Instant) (baseUrl : String) : StoreProg StoreError (List NotificationEvent) := do
  let projectNags ← query .allProjectNagIntervals
  let projectNames ← query .allProjectNames
  let displayTz ← displayTimezone
  let globalText ← query (.getSetting "nag_interval")
  let globalNag := globalText.bind parseI64
  let checks ← query .listDownChecks
  forChecks (nagCheck now baseUrl projectNags projectNames displayTz globalNag) checks

/-- The scan half of the scan loop: the events are delivered once the pass is over. -/
def scanPass (X : Crates) (now : Instant) (baseUrl : String) : StoreProg StoreError Unit := do
  let events ← scanOnce X now baseUrl
  Prog.tellAll (events.map .event)

/-- The nag half of the scan loop. -/
def nagPass (now : Instant) (baseUrl : String) : StoreProg StoreError Unit := do
  let events ← nagOnce now baseUrl
  Prog.tellAll (events.map .event)

end Pingward
