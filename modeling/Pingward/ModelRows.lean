import Pingward.ModelTime

/-! `src/models.rs` and the event types of `src/notify.rs`: the enumerations with their stored texts
and the rows of the tables. -/

namespace Pingward

/-- `FromStr` of a `str_enum!`: the texts are tried in the order of the variants. -/
def strEnumFromStr {α : Type} (name : String) (texts : List (String × α)) (s : String) :
    Except String α :=
  match texts.find? fun entry => entry.1 = s with
  | some entry => .ok entry.2
  | none => .error ("invalid " ++ name ++ ": " ++ s)

inductive ScheduleKind where
  | period
  | cron
  deriving DecidableEq, Repr

def ScheduleKind.asStr : ScheduleKind → String
  | .period => "period"
  | .cron => "cron"

def ScheduleKind.fromStr : String → Except String ScheduleKind :=
  strEnumFromStr "ScheduleKind" [("period", .period), ("cron", .cron)]

inductive CheckStatus where
  | new
  | up
  | down
  | paused
  deriving DecidableEq, Repr

def CheckStatus.asStr : CheckStatus → String
  | .new => "new"
  | .up => "up"
  | .down => "down"
  | .paused => "paused"

inductive PingKind where
  | success
  | fail
  | start
  | log
  | exitcode
  deriving DecidableEq, Repr

inductive ChannelKind where
  | webhook
  | telegram
  | slack
  | ntfy
  | pushover
  | email
  deriving DecidableEq, Repr

def ChannelKind.asStr : ChannelKind → String
  | .webhook => "webhook"
  | .telegram => "telegram"
  | .slack => "slack"
  | .ntfy => "ntfy"
  | .pushover => "pushover"
  | .email => "email"

def ChannelKind.fromStr : String → Except String ChannelKind :=
  strEnumFromStr "ChannelKind"
    [("webhook", .webhook), ("telegram", .telegram), ("slack", .slack), ("ntfy", .ntfy),
      ("pushover", .pushover), ("email", .email)]

inductive NotifyStatus where
  | ok
  | error
  deriving DecidableEq, Repr

/-- `notify::EventKind`. -/
inductive EventKind where
  | down
  | up
  | reminder
  | test
  deriving DecidableEq, Repr

/-! ### Rows -/

structure Check where
  id : Int
  projectId : Int
  name : String
  description : String
  pingUuid : String
  scheduleKind : ScheduleKind
  periodSecs : Option Int
  graceSecs : Int
  cronExpr : Option String
  timezone : String
  status : CheckStatus
  lastPingAt : Option Instant
  lastStartAt : Option Instant
  nextDueAt : Option Instant
  scanIntervalSecs : Option Int
  maxRuntimeSecs : Option Int
  nagIntervalSecs : Option Int
  lastAlertAt : Option Instant
  acknowledged : Bool
  createdAt : Instant
  deriving DecidableEq, Repr

structure User where
  id : Int
  username : String
  passwordHash : Option String
  isAdmin : Bool
  disabled : Bool
  createdAt : Instant
  deriving DecidableEq, Repr

structure Project where
  id : Int
  userId : Int
  name : String
  description : String
  scanIntervalSecs : Option Int
  nagIntervalSecs : Option Int
  createdAt : Instant
  deriving DecidableEq, Repr

structure Channel where
  id : Int
  projectId : Int
  kind : ChannelKind
  name : String
  configJson : String
  createdAt : Instant
  deriving DecidableEq, Repr

/-- A row of `check_channels`, its own primary key. -/
structure Binding where
  checkId : Int
  channelId : Int
  deriving DecidableEq, Repr

structure Ping where
  id : Int
  checkId : Int
  kind : PingKind
  exitCode : Option Int
  body : String
  sourceIp : Option String
  createdAt : Instant
  deriving DecidableEq, Repr

/-- The columns of a ping the heartbeat strip reads. -/
structure PingSummary where
  id : Int
  checkId : Int
  kind : PingKind
  createdAt : Instant
  deriving DecidableEq, Repr

structure Notification where
  id : Int
  checkId : Int
  channelId : Int
  event : EventKind
  status : NotifyStatus
  error : Option String
  createdAt : Instant
  deriving DecidableEq, Repr

/-- A row of `api_keys`, with the hash the model struct of the source leaves out. -/
structure ApiKey where
  id : Int
  userId : Int
  name : String
  tokenHash : String
  keyPrefix : String
  createdAt : Instant
  lastUsedAt : Option Instant
  expiresAt : Option Instant
  deriving DecidableEq, Repr

/-- A stored session. A row written before the creation time was recorded has none. -/
structure Session where
  id : String
  userId : Int
  createdAt : Option Instant
  lastSeenAt : Option Instant
  expiresAt : Instant
  userAgent : Option String
  ip : Option String
  sso : Bool
  deriving DecidableEq, Repr

structure AuditLog where
  id : Int
  actorUserId : Int
  actorUsername : String
  action : String
  targetType : Option String
  targetId : Option Int
  targetOwnerId : Option Int
  method : Option String
  path : Option String
  detail : Option String
  createdAt : Instant
  deriving DecidableEq, Repr

structure Setting where
  key : String
  value : String
  deriving DecidableEq, Repr

/-! ### Arguments of the store's writes -/

structure NewCheck where
  projectId : Int
  name : String
  description : String
  pingUuid : String
  kind : ScheduleKind
  periodSecs : Option Int
  graceSecs : Int
  cronExpr : Option String
  timezone : String
  scanIntervalSecs : Option Int
  maxRuntimeSecs : Option Int
  nagIntervalSecs : Option Int
  deriving DecidableEq, Repr

structure UpdateCheck where
  name : String
  description : String
  kind : ScheduleKind
  periodSecs : Option Int
  graceSecs : Int
  cronExpr : Option String
  timezone : String
  scanIntervalSecs : Option Int
  maxRuntimeSecs : Option Int
  nagIntervalSecs : Option Int
  deriving DecidableEq, Repr

structure NewSession where
  id : String
  userId : Int
  expiresAt : Instant
  userAgent : Option String
  ip : Option String
  sso : Bool
  deriving DecidableEq, Repr

structure NewPing where
  checkId : Int
  kind : PingKind
  exitCode : Option Int
  body : String
  sourceIp : Option String
  deriving DecidableEq, Repr

/-- Which columns of a check a ping rewrites; a `none` timestamp keeps the stored one, apart from
`nextDueAt`, which is written as it stands. -/
structure PingMark where
  status : CheckStatus
  lastPingAt : Option Instant
  lastStartAt : Option Instant
  nextDueAt : Option Instant
  deriving DecidableEq, Repr

structure NewApiKey where
  userId : Int
  name : String
  tokenHash : String
  keyPrefix : String
  expiresAt : Option Instant
  deriving DecidableEq, Repr

/-- The editable fields of a project, shared by create and update. -/
structure ProjectSettings where
  name : String
  description : String
  scanIntervalSecs : Option Int
  nagIntervalSecs : Option Int
  deriving DecidableEq, Repr

structure NewChannel where
  projectId : Int
  kind : ChannelKind
  name : String
  configJson : String
  deriving DecidableEq, Repr

structure NewNotification where
  checkId : Int
  channelId : Int
  event : EventKind
  status : NotifyStatus
  error : Option String
  deriving DecidableEq, Repr

structure NewAudit where
  actorUserId : Int
  actorUsername : String
  action : String
  targetType : Option String
  targetId : Option Int
  targetOwnerId : Option Int
  method : Option String
  path : Option String
  detail : Option String
  deriving DecidableEq, Repr

end Pingward
