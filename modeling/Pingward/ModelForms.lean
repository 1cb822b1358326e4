import Pingward.ModelScheduler

/-! The form validators of `src/web.rs`, which the API reuses through `src/api/input.rs`. The error
texts are the source's. -/

namespace Pingward

structure ProjectForm where
  name : String
  description : String
  scanIntervalSecs : String
  nagIntervalSecs : String
  deriving DecidableEq, Repr

structure CheckForm where
  name : String
  description : String
  scheduleKind : String
  periodSecs : String
  cronExpr : String
  graceSecs : String
  timezone : String
  scanIntervalSecs : String
  maxRuntimeSecs : String
  nagIntervalSecs : String
  deriving DecidableEq, Repr

structure SettingsForm where
  scanInterval : String
  nagInterval : String
  pingsRetentionDays : String
  notificationsRetentionDays : String
  auditRetentionDays : String
  displayTimezone : String
  deriving DecidableEq, Repr

structure ChannelForm where
  name : String
  kind : String
  webhookUrl : String
  slackUrl : String
  telegramToken : String
  telegramChatId : String
  ntfyBaseUrl : String
  ntfyTopic : String
  ntfyToken : String
  ntfyTokenClear : Bool
  pushoverToken : String
  pushoverUser : String
  emailTo : String
  deriving DecidableEq, Repr

/-! ### Fields -/

/-- Give up with a message when a condition fails. -/
def ensure (condition : Prop) [Decidable condition] (message : String) : Except String Unit :=
  if condition then .ok () else .error message

def maxDescriptionChars : Nat := 2000

def validateDescription (s : String) : Except String String :=
  let trimmed := trim s
  if trimmed.length > maxDescriptionChars then
    .error ("description must be at most " ++ toString maxDescriptionChars ++ " characters")
  else .ok trimmed

/-- Blank is unset; the error names the field. -/
def parseOptPositive (s field : String) : Except String (Option Int) :=
  let t := trim s
  if t = "" then .ok none
  else
    match parseI64 t with
    | some v => if v > 0 then .ok (some v) else .error (field ++ " must be a positive integer")
    | none => .error (field ++ " must be a positive integer")

/-- As `parseOptPositive`, but also accepts `5m` or `1h30m`. -/
def parseOptPositiveDuration (s field : String) : Except String (Option Int) :=
  let t := trim s
  if t = "" then .ok none
  else
    match parseDuration t with
    | some v =>
        if v > 0 then .ok (some v)
        else .error (field ++ " must be a positive duration (e.g. 30, 5m, 1h30m)")
    | none => .error (field ++ " must be a positive duration (e.g. 30, 5m, 1h30m)")

/-- Blank means UTC. -/
def validateTimezone (X : Crates) (raw : String) : Except String String :=
  let tz := trim raw
  if tz = "" then .ok "UTC"
  else
    match X.parseTz tz with
    | some parsed => .ok (X.tzName parsed)
    | none =>
        .error ("unknown timezone \"" ++ tz ++ "\" — use an IANA name such as UTC or Asia/Taipei")

/-- Blank is unset. -/
def validateOptTimezone (X : Crates) (raw : String) : Except String String :=
  if trim raw = "" then .ok "" else validateTimezone X raw

/-! ### Projects and checks -/

def validateProject (form : ProjectForm) : Except String ProjectSettings := do
  let name := trim form.name
  ensure (name ≠ "") "name is required"
  let description ← validateDescription form.description
  let scan ← parseOptPositiveDuration form.scanIntervalSecs "scan interval"
  let nag ← parseOptPositiveDuration form.nagIntervalSecs "nag interval"
  return ⟨name, description, scan, nag⟩

/-- The period or the cron expression, by the kind of the schedule. -/
def validateSchedule (X : Crates) (form : CheckForm) (kind : ScheduleKind) :
    Except String (Option Int × Option String) :=
  match kind with
  | .period => do
      ensure (trim form.periodSecs ≠ "") "period_secs required for period mode"
      match parseDuration form.periodSecs with
      | none => throw "period_secs must be a duration (e.g. 30, 5m, 1h30m)"
      | some secs => do
          ensure (0 < secs) "period_secs must be > 0"
          return (some secs, none)
  | .cron => do
      let expr := trim form.cronExpr
      ensure (expr ≠ "") "cron_expr required for cron mode"
      match X.parseSchedule expr with
      | .error e => throw ("invalid cron expression: " ++ e)
      | .ok _ => return (none, some expr)

/-- The fields of the source's `ValidatedCheck`, which are those of an update. A non-blank override
that is not a positive duration is rejected, not dropped. -/
def validateCheck (X : Crates) (form : CheckForm) : Except String UpdateCheck := do
  let name := trim form.name
  ensure (name ≠ "") "name is required"
  let description ← validateDescription form.description
  match parseDuration form.graceSecs with
  | none => throw "grace_secs must be a duration (e.g. 30, 5m, 1h30m)"
  | some grace => do
      ensure (0 ≤ grace) "grace_secs must be >= 0"
      match ScheduleKind.fromStr form.scheduleKind with
      | .error _ => throw "invalid schedule kind"
      | .ok kind => do
          let (periodSecs, cronExpr) ← validateSchedule X form kind
          let timezone ← validateTimezone X form.timezone
          let scan ← parseOptPositiveDuration form.scanIntervalSecs "scan interval"
          let maxRuntime ← parseOptPositiveDuration form.maxRuntimeSecs "max runtime"
          let nag ← parseOptPositiveDuration form.nagIntervalSecs "nag interval"
          return {
            name := name, description := description, kind := kind, periodSecs := periodSecs,
            graceSecs := grace, cronExpr := cronExpr, timezone := timezone,
            scanIntervalSecs := scan, maxRuntimeSecs := maxRuntime, nagIntervalSecs := nag }

/-- The row `create_check` is given for validated fields. -/
def UpdateCheck.newCheck (fields : UpdateCheck) (projectId : Int) (pingUuid : String) : NewCheck where
  projectId := projectId
  name := fields.name
  description := fields.description
  pingUuid := pingUuid
  kind := fields.kind
  periodSecs := fields.periodSecs
  graceSecs := fields.graceSecs
  cronExpr := fields.cronExpr
  timezone := fields.timezone
  scanIntervalSecs := fields.scanIntervalSecs
  maxRuntimeSecs := fields.maxRuntimeSecs
  nagIntervalSecs := fields.nagIntervalSecs

/-! ### Settings -/

inductive SettingKind where
  | duration
  | days
  | timezone
  deriving DecidableEq, Repr

/-- Blank clears the setting. -/
def fmtOptSetting (v : Option Int) : String := (v.map i64ToString).getD ""

def settingFields (form : SettingsForm) : List (String × String × String × SettingKind) :=
  [("scan_interval", form.scanInterval, "Global scan interval", .duration),
    ("nag_interval", form.nagInterval, "Global nag interval", .duration),
    ("pings_retention_days", form.pingsRetentionDays, "Pings retention", .days),
    ("notifications_retention_days", form.notificationsRetentionDays, "Notifications retention", .days),
    ("audit_retention_days", form.auditRetentionDays, "Audit trail retention", .days),
    ("display_timezone", form.displayTimezone, "Notification timezone", .timezone)]

def validateSetting (X : Crates) (raw label : String) : SettingKind → Except String String
  | .duration => (parseOptPositiveDuration raw label).map fmtOptSetting
  | .days => (parseOptPositive raw label).map fmtOptSetting
  | .timezone => validateOptTimezone X raw

/-- Seconds as a readable duration; anything else passes through untouched. -/
def readableSettingDuration (raw : String) : String :=
  match parseI64 (trim raw) with
  | some v => if v > 0 then fmtDuration v else raw
  | none => raw

/-- Validates and normalises every field before the caller writes any. -/
def validateSettings (X : Crates) (form : SettingsForm) : Except String (List (String × String)) :=
  (settingFields form).mapM fun (key, raw, label, kind) => do
    let value ← validateSetting X raw label kind
    return (key, value)

/-! ### Channels -/

def parseNewChannelKind (raw : String) : Except String ChannelKind :=
  let kind := trim raw
  if kind = "" then .error "a channel kind is required"
  else
    match ChannelKind.fromStr kind with
    | .ok kind => .ok kind
    | .error _ => .error "unknown channel kind"

/-- A blank field keeps the value stored under the key. -/
def mergedField (stored : Option (String → Option String)) (submitted key : String) : String :=
  let submitted := trim submitted
  if submitted ≠ "" then submitted else (stored.bind fun get => get key).getD ""

def channelConfig (X : Crates) (kind : ChannelKind) (form : ChannelForm)
    (stored : Option (String → Option String)) : Except String String :=
  match kind with
  | .webhook => do
      let url := mergedField stored form.webhookUrl "url"
      ensure (url ≠ "") "a webhook URL is required"
      return X.renderConfig [("url", url)]
  | .slack => do
      let url := mergedField stored form.slackUrl "url"
      ensure (url ≠ "") "a Slack incoming-webhook URL is required"
      return X.renderConfig [("url", url)]
  | .telegram => do
      let token := mergedField stored form.telegramToken "token"
      let chatId := mergedField stored form.telegramChatId "chat_id"
      ensure (token ≠ "" ∧ chatId ≠ "") "Telegram requires both a bot token and a chat id"
      return X.renderConfig [("token", token), ("chat_id", chatId)]
  | .ntfy => do
      let topic := mergedField stored form.ntfyTopic "topic"
      ensure (topic ≠ "") "ntfy requires a topic"
      let base := mergedField stored form.ntfyBaseUrl "base_url"
      let baseUrl := if base = "" then "https://ntfy.sh" else base
      let token := if form.ntfyTokenClear then "" else mergedField stored form.ntfyToken "token"
      return X.renderConfig [("base_url", baseUrl), ("topic", topic), ("token", token)]
  | .pushover => do
      let token := mergedField stored form.pushoverToken "token"
      let user := mergedField stored form.pushoverUser "user"
      ensure (token ≠ "" ∧ user ≠ "") "Pushover requires both an application token and a user key"
      return X.renderConfig [("token", token), ("user", user)]
  | .email => do
      let recipient := mergedField stored form.emailTo "to"
      ensure (recipient ≠ "") "an email recipient address is required"
      return X.renderConfig [("to", recipient)]

/-- A blank name keeps the stored one; the stored kind always wins. -/
def validateChannelUpdate (X : Crates) (form : ChannelForm) (existing : Option Channel) :
    Except String (ChannelKind × String × String) := do
  let name ← match trim form.name, existing with
    | "", none => throw "a channel name is required"
    | "", some channel => pure channel.name
    | name, _ => pure name
  let kind ← match existing with
    | some channel => pure channel.kind
    | none => parseNewChannelKind form.kind
  let config ← channelConfig X kind form (existing.bind fun channel => X.parseConfig channel.configJson)
  return (kind, name, config)

def validateChannel (X : Crates) (form : ChannelForm) : Except String (ChannelKind × String × String) :=
  validateChannelUpdate X form none

/-! ### API bodies -/

/-- A duration string or integer seconds. -/
inductive DurationInput where
  | str (s : String)
  | int (n : Int)
  deriving DecidableEq, Repr

def DurationInput.intoFormString : DurationInput → String
  | .str s => s
  | .int n => i64ToString n

def optForm (v : Option DurationInput) : String := (v.map DurationInput.intoFormString).getD ""

structure ProjectInput where
  name : String
  description : Option String
  scanIntervalSecs : Option DurationInput
  nagIntervalSecs : Option DurationInput
  deriving DecidableEq, Repr

def ProjectInput.form (i : ProjectInput) : ProjectForm :=
  ⟨i.name, i.description.getD "", optForm i.scanIntervalSecs, optForm i.nagIntervalSecs⟩

structure CheckInput where
  name : String
  description : Option String
  scheduleKind : Option String
  periodSecs : Option DurationInput
  cronExpr : Option String
  graceSecs : Option DurationInput
  timezone : Option String
  scanIntervalSecs : Option DurationInput
  maxRuntimeSecs : Option DurationInput
  nagIntervalSecs : Option DurationInput
  deriving DecidableEq, Repr

/-- An omitted schedule kind is `period`, an omitted zone `UTC` and an omitted grace zero. -/
def CheckInput.form (i : CheckInput) : CheckForm where
  name := i.name
  description := i.description.getD ""
  scheduleKind := i.scheduleKind.getD "period"
  periodSecs := optForm i.periodSecs
  cronExpr := i.cronExpr.getD ""
  graceSecs := (i.graceSecs.map DurationInput.intoFormString).getD "0"
  timezone := i.timezone.getD "UTC"
  scanIntervalSecs := optForm i.scanIntervalSecs
  maxRuntimeSecs := optForm i.maxRuntimeSecs
  nagIntervalSecs := optForm i.nagIntervalSecs

end Pingward
