import Pingward.ModelPing

/-! One check as a state machine of its own. The inputs are what a ping, a pass or a request comes to
for this check when nothing else runs at the same time; the outputs are what is remembered of it: its
pings, its alerts, its pauses and its acknowledgements, newest first. `RowRequest` shows that the
programs over the store are runs of this machine. -/

namespace Pingward

/-- What is remembered of a check. -/
inductive Item where
  | ping (kind : PingKind) (now : Instant)
  | alert (kind : EventKind) (at_ : Instant) (cause : Option DownCause)
  | paused
  | acknowledged
  deriving DecidableEq, Repr

inductive RowInput where
  | idle
  /-- A ping that is recorded and moves nothing. -/
  | record (kind : PingKind) (now : Instant)
  | ping (kind : PingKind) (exitCode : Option Int) (now : Instant)
  | scan (now : Instant)
  /-- A nag pass that sees this effective interval. -/
  | nag (interval : Option Int) (now : Instant)
  | acknowledge
  | edit (fields : UpdateCheck)
  | pause
  | resume
  deriving DecidableEq, Repr

namespace Check

/-- What `list_active_checks` selects. -/
def isActive (check : Check) : Bool := check.status = .new ∨ check.status = .up

def isOverdue (X : Crates) (check : Check) (now : Instant) : Bool :=
  hasPassed (dueTime X check).toOption.join now

def isOverrun (check : Check) (now : Instant) : Bool :=
  hasPassed (overrunTime check).toOption.join now

/-- The scan downs the check. -/
def isDowned (X : Crates) (check : Check) (now : Instant) : Bool :=
  check.isActive && (check.isOverdue X now || check.isOverrun now)

/-- The nag pass reminds of the check. -/
def isReminded (check : Check) (interval : Option Int) (now : Instant) : Bool :=
  check.status = .down && !check.acknowledged &&
    interval.any fun secs => check.lastAlertAt.any fun last => last + secs * nanosPerSec ≤ now

/-- The row at the start of an incident. -/
def alerted (check : Check) (now : Instant) : Check :=
  { check with lastAlertAt := some now, acknowledged := false }

/-- The row at the end of an incident. -/
def cleared (check : Check) : Check := { check with acknowledged := false, lastAlertAt := none }

/-- A check as `create_check` inserts it. -/
structure Fresh (check : Check) : Prop where
  status : check.status = .new
  lastPingAt : check.lastPingAt = none
  lastStartAt : check.lastStartAt = none
  lastAlertAt : check.lastAlertAt = none
  acknowledged : check.acknowledged = false

theorem isActive_iff {check : Check} : check.isActive = true ↔ check.status = .new ∨ check.status = .up := by
  simp [isActive]

end Check

theorem NewCheck.row_fresh (check : NewCheck) (now : Instant) (id : Int) : (check.row now id).Fresh :=
  ⟨rfl, rfl, rfl, rfl, rfl⟩

/-- The columns the ping writes first. -/
def PingMark.ofPing (X : Crates) (check : Check) (now : Instant) : PingKind → Option PingMark
  | .success =>
      some ⟨.up, some now, none, (dueTime X { check with lastPingAt := some now }).toOption.join⟩
  | .fail => some ⟨.down, some now, none, none⟩
  | .start => some ⟨check.status, none, some now, check.nextDueAt⟩
  | .log => none
  | .exitcode => none

/-- The alert a ping of the kind raises on a check of the status. -/
def pingAlert : PingKind → CheckStatus → Option EventKind
  | .success, .down => some .up
  | .fail, .up => some .down
  | .fail, .new => some .down
  | _, _ => none

namespace RowInput

/-- The row after a ping: the marked columns, and the alert columns when the status flips. -/
def pinged (X : Crates) (kind : PingKind) (now : Instant) (check : Check) : Check :=
  let marked := ((PingMark.ofPing X check now kind).map fun mark => mark.apply check).getD check
  match pingAlert kind check.status with
  | some .up => marked.cleared
  | some .down => marked.alerted now
  | _ => marked

def row (X : Crates) : RowInput → Check → Check
  | .idle, check => check
  | .record _ _, check => check
  | .ping kind _ now, check => pinged X kind now check
  | .scan now, check =>
      if check.isDowned X now then { check with status := .down }.alerted now else check
  | .nag interval now, check =>
      if check.isReminded interval now then { check with lastAlertAt := some now } else check
  | .acknowledge, check => { check with acknowledged := true }
  | .edit fields, check => fields.apply check
  | .pause, check => { check with status := .paused }
  | .resume, check => { check with status := .new }

/-- The status a request writes. -/
def sets : RowInput → Option CheckStatus
  | .pause => some .paused
  | .resume => some .new
  | _ => none

/-- The cause a ping's alert carries. -/
def pingCause (exitCode : Option Int) : EventKind → Option DownCause
  | .down => some (.failed exitCode)
  | _ => none

def items (X : Crates) : RowInput → Check → List Item
  | .idle, _ => []
  | .record kind now, _ => [.ping kind now]
  | .ping kind exitCode now, check =>
      ((pingAlert kind check.status).map fun event => Item.alert event now (pingCause exitCode event)).toList ++
        [.ping kind now]
  | .scan now, check =>
      if check.isDowned X now then [.alert .down now (some (downCause (check.isOverrun now) check))] else []
  | .nag interval now, check => if check.isReminded interval now then [.alert .reminder now none] else []
  | .acknowledge, _ => [.acknowledged]
  | .edit _, _ => []
  | .pause, _ => [.paused]
  | .resume, _ => []

end RowInput

end Pingward
