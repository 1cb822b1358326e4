import Pingward.ModelLive
import Pingward.ModelSession
import Pingward.ProgramNested

/-! The scan loop (`run_scan_loop` of `src/scheduler.rs`), with the cascade of its interval (`src/config.rs`). The loop
reads the clock and sleeps; what it asks of the database and the bus it asks as the passes do. -/

open Broadcast StoreProgram

namespace Pingward

/-! ### The interval -/

/-- Scan interval via check, project, global and environment: the first override that is positive, or at least a second. -/
def effectiveScanInterval (checkSecs projectSecs globalSecs : Option Int) (envDefault : Nat) : Nat :=
  match ([checkSecs, projectSecs, globalSecs].filterMap id).find? (0 < ·) with
  | some secs => secs.toNat
  | none => max envDefault 1

/-- The smallest effective interval of the checks in service. -/
def loopIntervalSecs (checks : List Check) (projectIntervals : List (Int × Option Int)) (globalSecs : Option Int)
    (envDefault : Nat) : Nat :=
  ((checks.map fun check => effectiveScanInterval check.scanIntervalSecs (lookup projectIntervals check.projectId).join
    globalSecs envDefault).min?).getD (max envDefault 1)

/-! ### The loop -/

/-- What the loop asks of the runtime, and the query that only the loop makes. -/
inductive LoopCall where
  | now
  | allProjectScanIntervals
  /-- `sleep` against `shutdown.wait`: whether the shutdown came. -/
  | sleep (secs : Nat)
  deriving DecidableEq, Repr

@[reducible] def LoopCall.Res : LoopCall → Type
  | .now => Instant
  | .allProjectScanIntervals => List (Int × Option Int)
  | .sleep _ => Bool

abbrev LoopProg (W α : Type) :=
  Prog ((StoreCall ⊕ LiveCall W) ⊕ LoopCall) (PairRes (PairRes StoreCall.Res LiveCall.Res) LoopCall.Res) StoreError Spawned
    StoreError α

section Loop

variable {W : Type}

/-- `Utc::now` and the end of the sleep. -/
def runtime (c : LoopCall) : LoopProg W c.Res := Prog.perform id (Sum.inr c)

def loopQuery (c : LoopCall) : LoopProg W (Except StoreError c.Res) := Prog.attempt (Sum.inr c)

def loopStore (c : StoreCall) : LoopProg W (Except StoreError c.Res) := Prog.attempt (Sum.inl (Sum.inl c))

/-- `unwrap_or_default` of a list. -/
def listOrNone {α : Type} (answer : Except StoreError (List α)) : List α := answer.toOption.getD []

/-- How long to sleep. A query that fails falls back to the default. -/
def nextInterval (envDefault : Nat) : LoopProg W Nat := do
  let active ← loopStore .listActiveChecks
  let projects ← loopQuery .allProjectScanIntervals
  let globalText ← loopStore (.getSetting "scan_interval")
  return loopIntervalSecs (listOrNone active) (listOrNone projects) (globalText.toOption.join.bind parseI64) envDefault

/-- One pass of the loop up to its sleep: the scan, the heartbeat, the nag, and how long to sleep. A pass that fails is
logged and the loop goes on. -/
def loopPass (X : Crates) (baseUrl : String) (envDefault : Nat) : LoopProg W Nat := do
  let now ← runtime .now
  let _ ← (scanPassLive X now baseUrl).lift.caught
  let _ ← loopStore (.setSetting "last_scan_at" (toRfc3339 now))
  let later ← runtime .now
  let _ ← (nagPass later baseUrl).lift.lift.caught
  nextInterval envDefault

/-- A pass and the sleep after it: whether the loop stops. -/
def loopTurn (X : Crates) (baseUrl : String) (envDefault : Nat) : LoopProg W Bool := do
  let secs ← loopPass X baseUrl envDefault
  runtime (.sleep secs)

end Loop

/-! ### The loop beside the rest -/

/-- The database and the bus, the clock, when the sleep of the loop is over, and whether the server is asked to stop. -/
structure LoopState (W B : Type) where
  live : LiveState W B
  clock : Instant
  alarm : Instant
  stopping : Bool

/-- `SELECT id, scan_interval_secs FROM projects`. -/
def Db.projectScans (db : Db) : List (Int × Option Int) := db.projects.rows.map fun row => (row.id, row.scanIntervalSecs)

section Exec

variable {W B : Type}

/-- What the runtime answers. While the loop sleeps the rest of the system goes on: `meanwhile` is what it does. -/
def execLoopCall (meanwhile : LoopState W B → LoopState W B) :
    (c : LoopCall) → LoopState W B → Except StoreError c.Res × LoopState W B
  | .now, state => (.ok state.clock, state)
  | .allProjectScanIntervals, state => (.ok state.live.db.projectScans, state)
  | .sleep secs, state =>
      let woken := meanwhile { state with alarm := state.clock + secs * nanosPerSec }
      (.ok woken.stopping, woken)

/-- The database and the bus of the loop's state. -/
def LoopState.livePart : Part (LoopState W B) (LiveState W B) where
  get := live
  set live state := { state with live := live }
  get_set _ _ := rfl
  set_set _ _ _ := rfl
  set_get _ := rfl

variable [DecidableEq W] (bus : Bus W Int B) (meanwhile : LoopState W B → LoopState W B)

def execLoop : (c : (StoreCall ⊕ LiveCall W) ⊕ LoopCall) → LoopState W B →
    Except StoreError (PairRes (PairRes StoreCall.Res LiveCall.Res) LoopCall.Res c) × LoopState W B :=
  execBoth (LoopState.livePart.exec (execLive bus)) (execLoopCall meanwhile)

end Exec

end Pingward
