import Pingward.AccountChanges
import Pingward.LoopRun

/-! How late an alert can be. The loop sleeps no longer than any check in service allows, so a check that nobody touches
is down at the latest one interval after its deadline, and what the loop is late. -/

open Broadcast KeyedTable StoreProgram

namespace Pingward

/-! ### A pass and one row -/

section Row

variable {X : Crates} {now : Instant} {baseUrl : String} {db : Db} {cid : Int} {check : Check}

theorem findCheck_beaten (cid : Int) :
    (db.beaten X now baseUrl).findCheck cid = (Operation.after X (.scan now baseUrl) db).findCheck cid :=
  congrArg (fun table : AutoTable Check Check.id => table.find cid)
    (exec_frame (c := .setSetting "last_scan_at" (toRfc3339 now)) (t := .checks) (by simp [StoreCall.writes]) _)

/-- The row after a pass: the scan's, and then the reminder's. -/
theorem findCheck_afterPass (hscans : Operation.Completes X (.scan now baseUrl) db)
    (hnags : Operation.Completes X (.nag now baseUrl) (db.beaten X now baseUrl)) (hrow : db.findCheck cid = some check) :
    ∃ interval, (db.afterPass X now baseUrl).findCheck cid =
      some (RowInput.row X (.nag interval now) (RowInput.row X (.scan now) check)) := by
  obtain ⟨scanned, rfl, hscanned, _⟩ := scan_refines X now baseUrl hscans hrow
  rw [← findCheck_beaten] at hscanned
  obtain ⟨nagged, rfl, hnagged, _⟩ := nag_refines X now baseUrl hnags hscanned
  exact ⟨_, hnagged⟩

theorem status_nag (interval : Option Int) (check : Check) :
    (RowInput.row X (.nag interval now) check).status = check.status := by
  simp only [RowInput.row]
  split <;> rfl

theorem status_scan_of_downed (hdowned : check.isDowned X now = true) :
    (RowInput.row X (.scan now) check).status = .down := by
  simp only [RowInput.row, hdowned, if_true, Check.alerted]

/-- A check in service that is not late is left as it is. -/
theorem row_of_active (hactive : check.isActive = true) (hdowned : check.isDowned X now = false) (interval : Option Int) :
    RowInput.row X (.nag interval now) (RowInput.row X (.scan now) check) = check := by
  have hstatus : check.status ≠ .down := by
    rintro hdown
    simp [Check.isActive, hdown] at hactive
  simp [RowInput.row, hdowned, Check.isReminded, hstatus]

theorem status_of_down (hdown : check.status = .down) : (RowInput.row X (.scan now) check).status = .down := by
  have hdowned : check.isDowned X now = false := by simp [Check.isDowned, Check.isActive, hdown]
  simp only [RowInput.row, hdowned, Bool.false_eq_true, if_false, hdown]

theorem hasPassed_mono {deadline : Option Instant} {earlier later : Instant} (hle : earlier ≤ later)
    (hpassed : hasPassed deadline earlier = true) : hasPassed deadline later = true := by
  cases deadline with
  | none => exact hpassed
  | some due =>
      simp only [hasPassed, Option.any_some, decide_eq_true_eq] at hpassed ⊢
      exact hpassed.trans hle

/-- What is late stays late. -/
theorem isDowned_mono {earlier later : Instant} (hle : earlier ≤ later) (hdowned : check.isDowned X earlier = true) :
    check.isDowned X later = true := by
  simp only [Check.isDowned, Bool.and_eq_true, Bool.or_eq_true] at hdowned ⊢
  exact ⟨hdowned.1, hdowned.2.imp (hasPassed_mono hle) (hasPassed_mono hle)⟩

/-- A check that the scan downs is announced. -/
theorem mem_scan_events (hscans : Operation.Completes X (.scan now baseUrl) db) (hrow : db.findCheck cid = some check)
    (hdowned : check.isDowned X now = true) :
    ∃ event ∈ (Operation.ran X (.scan now baseUrl) db).events, event.checkId = cid ∧ event.kind = .down ∧ event.at_ = now := by
  obtain rfl : check.id = cid := Table.find_key _ hrow
  obtain ⟨hactive, hlate⟩ := Bool.and_eq_true_iff.mp hdowned
  refine ⟨.event (downEvent check now baseUrl db.projectNames db.displayTz (check.isOverrun now)), ?_, rfl, rfl, rfl⟩
  rw [scan_events hscans]
  refine List.mem_map_of_mem (List.mem_flatMap.mpr ⟨check, (mem_listActiveChecks hrow).mpr hactive, ?_⟩)
  simp only [scanRound, hlate, if_true, List.mem_singleton]

end Row

/-! ### A pass and the interval -/

section Interval

variable (X : Crates) (now : Instant) (baseUrl : String) (db : Db)

/-- The intervals of projects and the settings but for the heartbeat. -/
def Db.SameIntervals (a b : Db) : Prop := b.projects = a.projects ∧ b.getSetting "scan_interval" = a.getSetting "scan_interval"

theorem Db.SameIntervals.scanInterval {a b : Db} (hsame : a.SameIntervals b) (envDefault : Nat) (check : Check) :
    b.scanInterval envDefault check = a.scanInterval envDefault check := by
  unfold Db.scanInterval Db.projectScans Db.globalScan
  rw [hsame.1, hsame.2]

theorem Db.SameIntervals.trans {a b c : Db} (hab : a.SameIntervals b) (hbc : b.SameIntervals c) : a.SameIntervals c :=
  ⟨hbc.1.trans hab.1, hbc.2.trans hab.2⟩

theorem exec_sameIntervals {c : StoreCall} (hprojects : .projects ∉ c.writes) (hsettings : .settings ∉ c.writes) (db : Db) :
    db.SameIntervals (exec c db).2 := by
  have hframe : (exec c db).2.settings = db.settings := exec_frame (t := .settings) hsettings db
  refine ⟨exec_frame (t := .projects) hprojects db, ?_⟩
  unfold Db.getSetting
  rw [hframe]

theorem run_sameIntervals {A α : Type} {program : StoreProg A α}
    (honly : program.Only (fun c => .projects ∉ c.writes ∧ .settings ∉ c.writes) fun _ => True) (db : Db) :
    db.SameIntervals (run exec program db).state :=
  honly.run_rel exec Db.SameIntervals (fun _ => ⟨rfl, rfl⟩) (fun _ _ _ => .trans)
    (fun _ hok db => exec_sameIntervals hok.1 hok.2 db) db

/-- A pass leaves the intervals alone. -/
theorem sameIntervals_afterPass : db.SameIntervals (db.afterPass X now baseUrl) := by
  have hscan : db.SameIntervals (Operation.after X (.scan now baseUrl) db) := by
    refine run_sameIntervals (Prog.Only.erase ?_) db
    exact scanPass_only X now baseUrl (by simp [StoreCall.writes]) (by simp [StoreCall.writes]) (by simp [StoreCall.writes])
      (fun _ => by simp [StoreCall.writes]) fun _ => by simp [StoreCall.writes]
  have hbeat : (Operation.after X (.scan now baseUrl) db).SameIntervals (db.beaten X now baseUrl) := by
    refine ⟨exec_frame (c := .setSetting "last_scan_at" (toRfc3339 now)) (t := .projects) (by simp [StoreCall.writes]) _, ?_⟩
    exact (getSetting_setSetting _ _ _).trans (if_neg (by decide))
  have hnag : (db.beaten X now baseUrl).SameIntervals (db.afterPass X now baseUrl) := by
    refine run_sameIntervals (Prog.Only.erase ?_) _
    exact nagPass_only now baseUrl (by simp [StoreCall.writes]) (by simp [StoreCall.writes]) (by simp [StoreCall.writes])
      (by simp [StoreCall.writes]) (by simp [StoreCall.writes]) fun _ => by simp [StoreCall.writes]
  exact (hscan.trans hbeat).trans hnag

end Interval

/-! ### The loop beside the rest of the system -/

section Law

variable {W B : Type} [DecidableEq W] {bus : Bus W Int B} {meanwhile : LoopState W B → LoopState W B} {X : Crates}
  {baseUrl : String} {envDefault limit : Nat} {slack late : Int} {check : Check} {state : LoopState W B}

/-- While the loop sleeps, nobody touches the row of the check or takes its interval past the limit, and the loop is woken
at most `slack` after its alarm. -/
structure Timely (envDefault limit : Nat) (slack : Int) (check : Check) (meanwhile : LoopState W B → LoopState W B) : Prop where
  row : ∀ state, (meanwhile state).live.db.findCheck check.id = state.live.db.findCheck check.id
  interval : ∀ state, state.live.db.scanInterval envDefault check ≤ limit →
    (meanwhile state).live.db.scanInterval envDefault check ≤ limit
  inTime : ∀ state, (meanwhile state).clock ≤ state.alarm + slack

/-- The check is down, and that was announced by the instant `latest`, when it was late. -/
def Announced (X : Crates) (check : Check) (latest : Instant) (db : Db) (events : List Spawned) : Prop :=
  (∃ row, db.findCheck check.id = some row ∧ row.status = .down) ∧
    ∃ event ∈ events, event.checkId = check.id ∧ event.kind = .down ∧ check.isDowned X event.at_ = true ∧ event.at_ ≤ latest

/-- The loop is awake by the instant `latest`, and the check is as it was. -/
structure Awaited (envDefault limit : Nat) (check : Check) (latest : Instant) (state : LoopState W B) : Prop where
  row : state.live.db.findCheck check.id = some check
  interval : state.live.db.scanInterval envDefault check ≤ limit
  awake : state.clock ≤ latest

/-- A turn either announces the check or leaves it, and sleeps no longer than its interval. -/
theorem Awaited.turn (htimely : Timely envDefault limit slack check meanwhile) (hlate : check.isDowned X late = true)
    (hawaited : Awaited envDefault limit check (late + limit * nanosPerSec + slack) state)
    (hends : (run (execLoop bus meanwhile) (loopTurn X baseUrl envDefault) state).outcome ≠ .panic) :
    Awaited envDefault limit check (late + limit * nanosPerSec + slack)
        (run (execLoop bus meanwhile) (loopTurn X baseUrl envDefault) state).state ∨
      Announced X check (late + limit * nanosPerSec + slack)
        (run (execLoop bus meanwhile) (loopTurn X baseUrl envDefault) state).state.live.db
        (run (execLoop bus meanwhile) (loopTurn X baseUrl envDefault) state).events := by
  obtain ⟨hscans, hnags, bus', reminders, hturn⟩ := loopTurn_ran hends
  obtain ⟨interval, hrow⟩ := findCheck_afterPass hscans hnags hawaited.row
  have hwoken := htimely.row (state.slept X baseUrl envDefault bus')
  rw [LoopState.slept_db] at hwoken
  rw [hturn]
  dsimp only
  by_cases hdowned : check.isDowned X state.clock = true
  · refine .inr ⟨⟨_, hwoken.trans hrow, ?_⟩, ?_⟩
    · rw [status_nag, status_scan_of_downed hdowned]
    · obtain ⟨event, hevent, hid, hkind, hat⟩ := mem_scan_events hscans hawaited.row hdowned
      refine ⟨event, List.mem_append_left _ hevent, hid, hkind, hat ▸ hdowned, ?_⟩
      rw [hat]
      exact hawaited.awake
  · have hactive : check.isActive = true := (Bool.and_eq_true_iff.mp hlate).1
    rw [row_of_active hactive (Bool.eq_false_iff.mpr hdowned)] at hrow
    have hearly : state.clock < late := by
      by_contra hpast
      exact hdowned (isDowned_mono (not_lt.mp hpast) hlate)
    have hpace : (state.live.db.afterPass X state.clock baseUrl).scanInterval envDefault check ≤ limit := by
      rw [(sameIntervals_afterPass X state.clock baseUrl state.live.db).scanInterval]
      exact hawaited.interval
    have hsleep : (state.live.db.afterPass X state.clock baseUrl).loopInterval envDefault ≤ limit :=
      (Db.loopInterval_le ((mem_listActiveChecks hrow).mpr hactive)).trans hpace
    have hnanos : ((state.live.db.afterPass X state.clock baseUrl).loopInterval envDefault : Int) * nanosPerSec ≤
        limit * nanosPerSec := Int.mul_le_mul_of_nonneg_right (Int.ofNat_le.mpr hsleep) (by decide)
    have hwakes := htimely.interval (state.slept X baseUrl envDefault bus')
    rw [LoopState.slept_db] at hwakes
    refine .inl ⟨hwoken.trans hrow, hwakes hpace, ?_⟩
    calc (meanwhile (state.slept X baseUrl envDefault bus')).clock
        ≤ (state.slept X baseUrl envDefault bus').alarm + slack := htimely.inTime _
      _ = state.clock + (state.live.db.afterPass X state.clock baseUrl).loopInterval envDefault * nanosPerSec + slack := rfl
      _ ≤ late + limit * nanosPerSec + slack := by linarith

/-- What is announced stays so: a turn leaves a check down, and the rest leaves its row alone. -/
theorem Announced.turn {latest : Instant} {events : List Spawned} (htimely : Timely envDefault limit slack check meanwhile)
    (hannounced : Announced X check latest state.live.db events)
    (hends : (run (execLoop bus meanwhile) (loopTurn X baseUrl envDefault) state).outcome ≠ .panic) :
    Announced X check latest (run (execLoop bus meanwhile) (loopTurn X baseUrl envDefault) state).state.live.db
      (events ++ (run (execLoop bus meanwhile) (loopTurn X baseUrl envDefault) state).events) := by
  obtain ⟨⟨row, hrow, hdown⟩, event, hevent, hrest⟩ := hannounced
  obtain ⟨hscans, hnags, bus', reminders, hturn⟩ := loopTurn_ran hends
  obtain ⟨interval, hafter⟩ := findCheck_afterPass hscans hnags hrow
  have hwoken := htimely.row (state.slept X baseUrl envDefault bus')
  rw [LoopState.slept_db] at hwoken
  rw [hturn]
  refine ⟨⟨_, hwoken.trans hafter, ?_⟩, event, List.mem_append_left _ hevent, hrest⟩
  rw [status_nag, status_of_down hdown]

end Law

end Pingward
