import Pingward.ModelChrono
import Pingward.ModelStore

/-! The sessions table with its times as the texts that are stored (`src/store.rs`). SQL compares the texts, byte by
byte; Rust compares the times that are read from them, which may lie in a leap second. -/

open KeyedTable
open Calendar (Stamp)

namespace Pingward

/-- `DateTime::to_rfc3339`. -/
def toRfc3339 (t : Instant) : String := Calendar.rfc3339 t

/-- `parse_ts`. -/
def parseTs (text : Option String) : Option Stamp := text.bind readRfc3339Stamp

/-! ### Arithmetic on what is read -/

/-- A time with a span of a second or more added. A leap second counts as the second before it. -/
def plusSpan (stamp : Stamp) (span : Int) : Instant :=
  stamp.second * nanosPerSec + stamp.nano % 1000000000 + span

/-- The span from an instant to a time. A leap second is counted once the instant's time of day is past it. -/
def spanSince (stamp : Stamp) (now : Instant) : Int :=
  stamp.second * nanosPerSec + stamp.nano - now -
    if 1000000000 ≤ stamp.nano ∧ stamp.second % 86400 < now / nanosPerSec % 86400 then nanosPerSec else 0

/-- A row of `sessions`. A row from before the creation time was recorded has an empty `created_at`. -/
structure StoredSession where
  id : String
  userId : Int
  createdAt : String
  lastSeenAt : Option String
  expiresAt : String
  userAgent : Option String
  ip : Option String
  sso : Bool
  deriving DecidableEq, Repr

/-- A row as it is read. -/
structure ReadSession where
  id : String
  userId : Int
  createdAt : Option Stamp
  lastSeenAt : Option Stamp
  expiresAt : Stamp
  userAgent : Option String
  ip : Option String
  sso : Bool
  deriving DecidableEq

structure SessionDb where
  users : AutoTable User User.id
  sessions : Table String StoredSession StoredSession.id

/-- How a call on the table ends without an answer. -/
inductive SessionFault where
  | decode
  | panic (cause : ChronoPanic)
  deriving DecidableEq, Repr

/-- A chrono operator inside a call. -/
def SessionFault.ofChecked {α : Type} (result : Checked α) : Except SessionFault α := result.mapError .panic

/-- `row_to_session`. -/
def rowToSession (row : StoredSession) : Except SessionFault ReadSession :=
  match parseTs (some row.expiresAt) with
  | none => .error .decode
  | some expiresAt =>
      .ok ⟨row.id, row.userId, parseTs (some row.createdAt), parseTs row.lastSeenAt, expiresAt, row.userAgent, row.ip,
        row.sso⟩

namespace StoredSession

def isPastAbsoluteCap (createdAt : Option Stamp) (now : Instant) : Bool :=
  createdAt.any fun c => plusSpan c sessionAbsoluteMax ≤ now

def isStale (last : Option Stamp) (now : Instant) : Bool :=
  last.all fun t => 60 * nanosPerSec ≤ -spanSince t now

/-- The new `expires_at`, or `none` when no write is needed. -/
def refreshedExpiry (createdAt : Option Stamp) (expiresAt : Stamp) (now : Instant) : Option SessionRenewal :=
  let cap := createdAt.map (plusSpan · sessionAbsoluteMax)
  if cap.any (fun cap => ¬expiresAt.Before (.ofInstant cap)) then none
  else
    let next := match cap with
      | none => now + sessionIdleTtl
      | some cap => min (now + sessionIdleTtl) cap
    if (Stamp.ofInstant next).Before expiresAt then some ⟨next, .clamped⟩
    else if sessionIdleTtl / 2 ≤ spanSince expiresAt now then none
    else some ⟨next, .slid⟩

end StoredSession

/-- What an accepted request writes to the row. -/
def StoredSession.touched (row : StoredSession) (expires : Stamp) (now : Instant) : StoredSession :=
  match isStale (parseTs row.lastSeenAt) now, refreshedExpiry (parseTs (some row.createdAt)) expires now with
  | _, some renewal => { row with lastSeenAt := some (toRfc3339 now), expiresAt := toRfc3339 renewal.expiresAt }
  | true, none => { row with lastSeenAt := some (toRfc3339 now) }
  | false, none => row

theorem StoredSession.touched_id (row : StoredSession) (expires : Stamp) (now : Instant) :
    (row.touched expires now).id = row.id := by
  unfold StoredSession.touched
  split <;> rfl

/-- The sum that `refreshed_expiry` forms once the stored expiry is short of the cap. -/
def renewalInRange (created : Option Stamp) (expires : Stamp) (now : Instant) : Checked Unit :=
  if created.any (fun c => ¬expires.Before (.ofInstant (plusSpan c sessionAbsoluteMax))) then .ok ()
  else (addDuration now sessionIdleTtl).map fun _ => ()

namespace SessionDb

variable (db : SessionDb)

def createSession (session : NewSession) (now : Instant) : Except StoreError SessionDb :=
  if (db.users.find session.userId).isNone then .error .foreignKeyViolation
  else
    match db.sessions.insert
        ⟨session.id, session.userId, toRfc3339 now, none, toRfc3339 session.expiresAt, session.userAgent, session.ip,
          session.sso⟩ with
    | none => .error .uniqueViolation
    | some table => .ok { db with sessions := table }

def findSessionUser (sessionId : String) (now : Instant) : Except SessionFault (Option User × SessionDb) :=
  match db.sessions.find sessionId with
  | none => .ok (none, db)
  | some row =>
      match db.users.find row.userId with
      | none => .ok (none, db)
      | some user =>
          if row.expiresAt ≤ toRfc3339 now then .ok (none, db)
          else if StoredSession.isPastAbsoluteCap (parseTs (some row.createdAt)) now then .ok (none, db)
          else
            match parseTs (some row.expiresAt) with
            | none => .error .decode
            | some expires => do
                SessionFault.ofChecked (renewalInRange (parseTs (some row.createdAt)) expires now)
                .ok (some user,
                  { db with
                    sessions := db.sessions.update sessionId (·.touched expires now) fun row =>
                      row.touched_id expires now })

/-- The user's rows inside their idle window, newest-created first. -/
def unexpiredRows (userId : Int) (now : Instant) : List StoredSession :=
  (db.sessions.rows.filter fun row => row.userId = userId ∧ toRfc3339 now < row.expiresAt).mergeSort
    fun a b => b.createdAt < a.createdAt ∨ a.createdAt = b.createdAt ∧ a.id ≤ b.id

def listSessionsForUser (userId : Int) (now : Instant) : Except SessionFault (List ReadSession) := do
  let sessions ← (db.unexpiredRows userId now).mapM rowToSession
  return sessions.filter fun session => !StoredSession.isPastAbsoluteCap session.createdAt now

/-- The rows deleted, and the rest. -/
def deleteWhere (p : StoredSession → Bool) : Nat × SessionDb :=
  (db.sessions.rows.countP p, { db with sessions := db.sessions.deleteWhere p })

def deleteCappedSessionsForUser (userId : Int) (now : Instant) : Except SessionFault (Nat × SessionDb) := do
  let capBefore ← SessionFault.ofChecked (subDuration now sessionAbsoluteMax)
  return db.deleteWhere fun row =>
    row.userId = userId ∧ row.createdAt ≠ "" ∧ row.createdAt ≤ toRfc3339 capBefore

def deleteExpiredSessions (now : Instant) : Except SessionFault (Nat × SessionDb) := do
  let capBefore ← SessionFault.ofChecked (subDuration now sessionAbsoluteMax)
  return db.deleteWhere fun row =>
    row.expiresAt ≤ toRfc3339 now ∨ row.createdAt ≠ "" ∧ row.createdAt ≤ toRfc3339 capBefore

end SessionDb

end Pingward
