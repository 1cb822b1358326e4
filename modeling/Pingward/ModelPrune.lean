import Pingward.ModelSession
import Pingward.ProgramBasic

/-! The retention prune (`src/prune.rs`): a pass of store calls that deletes what is older than a setting allows. The
stored times are compared as texts. -/

open KeyedTable StoreProgram

namespace Pingward

/-! ### The calls of a pass -/

inductive PruneCall where
  | getSetting (key : String)
  | deletePingsBefore (cutoff : String)
  | deleteNotificationsBefore (cutoff : String)
  | deleteAuditBefore (cutoff : String)
  | deleteExpiredSessions (now capBefore : Instant)
  deriving DecidableEq, Repr

/-- What the call answers; a delete answers the count of the rows deleted. -/
def PruneCall.Res : PruneCall → Type
  | .getSetting _ => Option String
  | .deletePingsBefore _ | .deleteNotificationsBefore _ | .deleteAuditBefore _ | .deleteExpiredSessions _ _ => Nat

namespace Db

variable (db : Db)

/-- `created_at < cutoff`, as texts. -/
def deletePingsBefore (cutoff : String) : Nat × Db :=
  (db.pings.rows.countP fun row => toRfc3339 row.createdAt < cutoff,
    { db with pings := db.pings.deleteWhere fun row => toRfc3339 row.createdAt < cutoff })

def deleteNotificationsBefore (cutoff : String) : Nat × Db :=
  (db.notifications.rows.countP fun row => toRfc3339 row.createdAt < cutoff,
    { db with notifications := db.notifications.deleteWhere fun row => toRfc3339 row.createdAt < cutoff })

def deleteAuditBefore (cutoff : String) : Nat × Db :=
  (db.auditLog.rows.countP fun row => toRfc3339 row.createdAt < cutoff,
    { db with auditLog := db.auditLog.deleteWhere fun row => toRfc3339 row.createdAt < cutoff })

/-- Sessions past their idle window or, where their creation is known, past the absolute cap. -/
def deleteExpiredSessions (now capBefore : Instant) : Nat × Db :=
  let expired : Session → Bool := fun row =>
    toRfc3339 row.expiresAt ≤ toRfc3339 now ∨ row.createdAt.any fun created => toRfc3339 created ≤ toRfc3339 capBefore
  (db.sessions.rows.countP expired, { db with sessions := db.sessions.deleteWhere expired })

end Db

def execPrune : (c : PruneCall) → Db → Except StoreError c.Res × Db
  | .getSetting key, db => (.ok (db.getSetting key), db)
  | .deletePingsBefore cutoff, db => (.ok (db.deletePingsBefore cutoff).1, (db.deletePingsBefore cutoff).2)
  | .deleteNotificationsBefore cutoff, db =>
      (.ok (db.deleteNotificationsBefore cutoff).1, (db.deleteNotificationsBefore cutoff).2)
  | .deleteAuditBefore cutoff, db => (.ok (db.deleteAuditBefore cutoff).1, (db.deleteAuditBefore cutoff).2)
  | .deleteExpiredSessions now capBefore, db =>
      (.ok (db.deleteExpiredSessions now capBefore).1, (db.deleteExpiredSessions now capBefore).2)

abbrev PruneProg (α : Type) := Prog PruneCall PruneCall.Res StoreError Empty StoreError α

/-! ### The pass -/

/-- Retention is off when the setting is unset, blank, not a number or not positive. -/
def parseDays (setting : Option String) : Option Int :=
  (setting.bind fun s => parseI64 (trim s)).filter fun days => 0 < days

/-- `Duration::try_days`. -/
def tryDays (days : Int) : Option Int :=
  if SecondsOk (days * 86400) then some (days * 86400 * nanosPerSec) else none

/-- `DateTime::checked_sub_signed`. -/
def checkedSub (t : Instant) (d : Int) : Option Instant := if inRange (t - d) then some (t - d) else none

def retentionCutoff (now : Instant) (setting : Option String) : Option String := do
  let days ← parseDays setting
  let cutoff ← (tryDays days).bind (checkedSub now)
  return toRfc3339 cutoff

inductive PruneTable where
  | pings
  | notifications
  | audit
  deriving DecidableEq, Repr

def PruneTable.settingKey : PruneTable → String
  | .pings => "pings_retention_days"
  | .notifications => "notifications_retention_days"
  | .audit => "audit_retention_days"

def pruneTable (now : Instant) (table : PruneTable) : PruneProg Nat := do
  let setting ← Prog.perform id (PruneCall.getSetting table.settingKey)
  match retentionCutoff now setting with
  | none => return 0
  | some cutoff =>
      match table with
      | .pings => Prog.perform id (PruneCall.deletePingsBefore cutoff)
      | .notifications => Prog.perform id (PruneCall.deleteNotificationsBefore cutoff)
      | .audit => Prog.perform id (PruneCall.deleteAuditBefore cutoff)

structure PruneCounts where
  pings : Nat
  notifications : Nat
  audit : Nat
  sessions : Nat
  deriving DecidableEq, Repr

def pruneOnce (now : Instant) : PruneProg PruneCounts := do
  let pings ← pruneTable now .pings
  let notifications ← pruneTable now .notifications
  let audit ← pruneTable now .audit
  let capBefore ← Prog.orPanic (subDuration now sessionAbsoluteMax)
  let sessions ← Prog.perform id (PruneCall.deleteExpiredSessions now capBefore)
  return ⟨pings, notifications, audit, sessions⟩

end Pingward
