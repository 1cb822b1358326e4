import Pingward.CalendarText
import Pingward.ModelRuns

/-! The texts of a notification (`src/notify.rs`): the title and the body that the channels send, and the events they are
made for. The zone table is a parameter beside the other crates. -/

open Calendar (dateText dateOf digits)

namespace Pingward

/-- `chrono_tz` at an instant: the seconds east of UTC, and what `%Z` prints. -/
structure ZoneClock (X : Crates) where
  offset : X.Tz → Instant → Int
  abbreviation : X.Tz → Instant → String

section Texts

variable {X : Crates} (clock : ZoneClock X)

/-- `%Y-%m-%d %H:%M %Z` in the zone, UTC when unset or unknown. -/
def fmtAt (at_ : Instant) (tz : Option String) : String :=
  let zone := (tz.bind X.parseTz).getD X.utc
  let second := at_ / nanosPerSec + clock.offset zone at_
  let ofDay := (second % 86400).toNat
  String.ofList (dateText (dateOf (second / 86400 + Calendar.epochDay)) ++
    ' ' :: (digits 2 (ofDay / 3600) ++ ':' :: digits 2 (ofDay / 60 % 60))) ++ " " ++ clock.abbreviation zone at_

/-- With the time that has passed when that is in the past. -/
def fmtAtRel (at_ now : Instant) (tz : Option String) : String :=
  let secs := numSeconds (now - at_)
  if secs > 0 then fmtAt clock at_ tz ++ " (" ++ fmtDuration secs ++ " ago)" else fmtAt clock at_ tz

/-- `char::is_control`. -/
def isControl (c : Char) : Bool := c.toNat < 0x20 || (0x7F ≤ c.toNat && c.toNat < 0xA0)

/-- Control characters become spaces. -/
def singleLine (s : String) : String := String.ofList (s.toList.map fun c => if isControl c then ' ' else c)

def contextLine (detail : EventDetail) : Option String :=
  match detail.projectName, detail.schedule with
  | some p, some s => some ("Project: " ++ p ++ " · " ++ s)
  | some p, none => some ("Project: " ++ p)
  | none, some s => some ("Schedule: " ++ s)
  | none, none => none

def reasonLine (ev : NotificationEvent) : String :=
  let detail := ev.detail
  let tz := detail.timezone
  match ev.event with
  | .up =>
      match detail.lastPingAt with
      | some prev => "Recovered; previous ping " ++ fmtAtRel clock prev ev.at_ tz
      | none => "Recovered"
  | .reminder =>
      match detail.lastPingAt with
      | some prev => "Last ping " ++ fmtAtRel clock prev ev.at_ tz
      | none => "Never pinged"
  | _ =>
      match detail.cause with
      | some (.overrun maxRuntimeSecs startedAt) =>
          "Run started " ++ fmtAtRel clock startedAt ev.at_ tz ++ " and exceeded its " ++ fmtDuration maxRuntimeSecs ++
            " max runtime"
      | some (.failed exitCode) =>
          match exitCode with
          | some c => "Fail ping received (exit code " ++ i64ToString c ++ ")"
          | none => "Fail ping received"
      | _ =>
          match detail.lastPingAt with
          | some prev => "No ping since " ++ fmtAtRel clock prev ev.at_ tz
          | none => "No ping received yet"

/-- The parts of a message, in the order they are pushed. In a test the context names the channel, and the time stands in
place of a reason. -/
structure Message where
  headline : String
  context : Option String
  reason : String
  link : Option String
  deriving DecidableEq, Repr

def Message.lines (message : Message) : List String :=
  message.headline :: message.context.toList ++ message.reason :: message.link.toList

/-- The message of a change of a check, behind the words of its headline. -/
def checkMessage (words : String) (ev : NotificationEvent) : Message :=
  ⟨words ++ ev.checkName, contextLine ev.detail, reasonLine clock ev, ev.detail.url⟩

def eventMessage (ev : NotificationEvent) : Message :=
  match ev.event with
  | .test =>
      let channel := match ev.detail.projectName with
        | some p => "Channel \"" ++ ev.checkName ++ "\" · project " ++ p
        | none => "Channel \"" ++ ev.checkName ++ "\""
      ⟨"🔔 pingward test notification", some channel, fmtAt clock ev.at_ ev.detail.timezone, none⟩
  | .down => checkMessage clock "🔴 DOWN — " ev
  | .reminder => checkMessage clock "🔴 STILL DOWN — " ev
  | .up => checkMessage clock "🟢 UP — " ev

/-- The body for every text channel. -/
def eventText (ev : NotificationEvent) : String := "\n".intercalate (eventMessage clock ev).lines

/-- The title for ntfy and Pushover, and the subject of an email. -/
def eventTitle (ev : NotificationEvent) : String :=
  let name := singleLine ev.checkName
  let subject := match ev.detail.projectName with
    | some p => singleLine p ++ "/" ++ name
    | none => name
  match ev.event with
  | .test => "pingward: test notification for \"" ++ subject ++ "\""
  | .down => "pingward: " ++ subject ++ " is DOWN"
  | .up => "pingward: " ++ subject ++ " is UP"
  | .reminder => "pingward: " ++ subject ++ " is STILL DOWN"

end Texts

/-! ### The other events -/

/-- The event of a delivery task, behind the lookup of the project (`spawn_delivery`). -/
def Delivery.notificationEvent (delivery : Delivery) (projectName : Option String) (baseUrl : String)
    (displayTz : Option String) : NotificationEvent where
  checkId := delivery.check.id
  checkName := delivery.check.name
  event := delivery.event
  at_ := delivery.now
  projectId := delivery.check.projectId
  detail := { (EventDetail.fromCheck delivery.check projectName baseUrl).withDisplayTimezone displayTz with
    cause := delivery.cause }

end Pingward
