import Pingward.AlertDeadline
import Pingward.ModelLoop

/-! What a turn of the scan loop comes to: a scan pass and a nag pass over the database, and a sleep of the smallest
interval of the checks that are still in service. -/

open Broadcast KeyedTable StoreProgram

namespace Pingward

/-! ### The interval -/

section Interval

variable {checkSecs projectSecs globalSecs : Option Int} {envDefault : Nat} {checks : List Check}
  {projectIntervals : List (Int × Option Int)}

/-- No check in service waits longer than its own interval. -/
theorem loopIntervalSecs_le {check : Check} (hmem : check ∈ checks) :
    loopIntervalSecs checks projectIntervals globalSecs envDefault ≤
      effectiveScanInterval check.scanIntervalSecs (lookup projectIntervals check.projectId).join globalSecs envDefault := by
  have hin := List.mem_map_of_mem (f := fun check : Check => effectiveScanInterval check.scanIntervalSecs
    (lookup projectIntervals check.projectId).join globalSecs envDefault) hmem
  unfold loopIntervalSecs
  cases hmin : (checks.map fun check => effectiveScanInterval check.scanIntervalSecs
      (lookup projectIntervals check.projectId).join globalSecs envDefault).min? with
  | none =>
      rw [List.min?_eq_none_iff] at hmin
      rw [hmin] at hin
      cases hin
  | some least => exact (List.min?_eq_some_iff.mp hmin).2 _ hin

end Interval

namespace Db

def globalScan (db : Db) : Option Int := (db.getSetting "scan_interval").bind parseI64

/-- The effective scan interval of a check in a state. -/
def scanInterval (envDefault : Nat) (db : Db) (check : Check) : Nat :=
  effectiveScanInterval check.scanIntervalSecs (lookup db.projectScans check.projectId).join db.globalScan envDefault

/-- What the loop sleeps in a state. -/
def loopInterval (envDefault : Nat) (db : Db) : Nat :=
  loopIntervalSecs db.listActiveChecks db.projectScans db.globalScan envDefault

theorem loopInterval_le {envDefault : Nat} {db : Db} {check : Check} (hmem : check ∈ db.listActiveChecks) :
    db.loopInterval envDefault ≤ db.scanInterval envDefault check := loopIntervalSecs_le hmem

end Db

/-! ### The parts of a turn -/

section Parts

variable {W B : Type} [DecidableEq W] (bus : Bus W Int B) (meanwhile : LoopState W B → LoopState W B)

/-- The database of the live state. -/
def LiveState.dbPart : Part (LiveState W B) Db where
  get := LiveState.db
  set db live := { live with db := db }
  get_set _ _ := rfl
  set_set _ _ _ := rfl
  set_get _ := rfl

theorem run_lift_stored {A α : Type} (program : StoreProg A α) (live : LiveState W B) :
    run (execLive bus) program.lift live = (run exec program live.db).inside LiveState.dbPart live := by
  rw [execLive, run_lift]
  exact run_part LiveState.dbPart exec program live

theorem run_lift_live {α : Type} (program : LiveProg W StoreError α) (state : LoopState W B) :
    run (execLoop bus meanwhile) program.lift state =
      (run (execLive bus) program state.live).inside LoopState.livePart state := by
  rw [execLoop, run_lift, run_part]
  rfl

/-- Signals leave the database and the streams alone. -/
theorem run_publishAll {A : Type} (ids : List Int) (live : LiveState W B) :
    ∃ bus', run (execLive bus) (publishAll ids : LiveProg W A Unit) live = ⟨.ok (), { live with bus := bus' }, []⟩ := by
  induction ids generalizing live with
  | nil => exact ⟨live.bus, rfl⟩
  | cons checkId ids ih =>
      have hone : ∃ bus', run (execLive bus) (publish checkId : LiveProg W A Unit) live =
          ⟨.ok (), { live with bus := bus' }, []⟩ := by
        show ∃ bus', run (execLive bus) (signal checkId (bus.receivers live.bus)) live = _
        unfold signal
        split
        · exact ⟨bus.send checkId live.bus, rfl⟩
        · exact ⟨live.bus, rfl⟩
      obtain ⟨sent, hsent⟩ := hone
      obtain ⟨bus', hrest⟩ := ih { live with bus := sent }
      refine ⟨bus', ?_⟩
      rw [publishAll, Prog.bind_eq, run_bind_of_ok _ (congrArg Ran.outcome hsent), hsent, hrest]
      rfl

/-- The scan of the loop, beside the bus. -/
theorem run_scanPassLive {X : Crates} {now : Instant} {baseUrl : String} {live : LiveState W B} {db' : Db}
    {events : List NotificationEvent} (honce : run exec (scanOnce X now baseUrl) live.db = ⟨.ok events, db', []⟩) :
    ∃ bus', run (execLive bus) (scanPassLive X now baseUrl) live =
      ⟨.ok (), { live with db := db', bus := bus' }, events.map .event⟩ := by
  have hlifted := run_lift_stored bus (scanOnce X now baseUrl) live
  rw [honce] at hlifted
  obtain ⟨bus', hsent⟩ := run_publishAll bus (A := StoreError) (events.map NotificationEvent.checkId)
    { live with db := db' }
  refine ⟨bus', ?_⟩
  rw [scanPassLive, Prog.bind_eq, run_bind_of_ok _ (congrArg Ran.outcome hlifted), hlifted]
  simp only [Ran.inside, LiveState.dbPart, Prog.bind_eq]
  rw [run_bind_of_ok _ (congrArg Ran.outcome hsent), hsent, run_tellAll]
  rfl

end Parts

/-! ### A turn -/

section Turn

variable {W B : Type} [DecidableEq W] {bus : Bus W Int B} {meanwhile : LoopState W B → LoopState W B} {X : Crates}
  {baseUrl : String} {envDefault : Nat} {state : LoopState W B}

/-- The database after the scan and the heartbeat. -/
def Db.beaten (X : Crates) (now : Instant) (baseUrl : String) (db : Db) : Db :=
  (Operation.after X (.scan now baseUrl) db).setSetting "last_scan_at" (toRfc3339 now)

/-- The database after a pass of the loop. -/
def Db.afterPass (X : Crates) (now : Instant) (baseUrl : String) (db : Db) : Db :=
  Operation.after X (.nag now baseUrl) (db.beaten X now baseUrl)

theorem completes_of_scanOnce {now : Instant} {db : Db} (hpanic : (run exec (scanOnce X now baseUrl) db).outcome ≠ .panic) :
    Operation.Completes X (.scan now baseUrl) db := by
  intro _ hran
  rw [scanOnce_eq] at hpanic
  have honce := (scanOnce_eq X now baseUrl db).trans (Round.forChecks_run (scanRound_describes X now baseUrl _ _) _ db hpanic)
  have hpass : (run exec (scanPass X now baseUrl) db).outcome = .panic := (run_erase_panic exec _ _).mp hran
  rw [scanPass, Prog.bind_eq, run_pass honce] at hpass
  cases hpass

theorem scanPassLive_panic {now : Instant} {live : LiveState W B}
    (hpanic : (run exec (scanOnce X now baseUrl) live.db).outcome = .panic) :
    (run (execLive bus) (scanPassLive X now baseUrl) live).outcome = .panic := by
  apply run_bind_of_panic
  rw [run_lift_stored]
  exact hpanic

/-- The deliveries a scan spawns. -/
theorem scan_events {now : Instant} {db : Db} (hcompletes : Operation.Completes X (.scan now baseUrl) db) :
    (Operation.ran X (.scan now baseUrl) db).events =
      (db.listActiveChecks.flatMap (scanRound X now baseUrl db.projectNames db.displayTz).events).map .event :=
  (run_erase_events exec (scanPass X now baseUrl) db).trans (congrArg Ran.events (run_pass (scanOnce_run hcompletes)))

theorem scanPassLive_ran {now : Instant} {live : LiveState W B}
    (hcompletes : Operation.Completes X (.scan now baseUrl) live.db) :
    ∃ bus', run (execLive bus) (scanPassLive X now baseUrl) live =
      ⟨.ok (), { live with db := Operation.after X (.scan now baseUrl) live.db, bus := bus' },
        (Operation.ran X (.scan now baseUrl) live.db).events⟩ := by
  have honce := scanOnce_run hcompletes
  obtain ⟨bus', hlive⟩ := run_scanPassLive bus honce
  refine ⟨bus', hlive.trans (Ran.ext rfl ?_ ?_)⟩
  · have hafter := (run_erase_state exec (scanPass X now baseUrl) live.db).trans (congrArg Ran.state (run_pass honce))
    exact congrArg (fun db => { live with db := db, bus := bus' }) hafter.symm
  · exact (scan_events hcompletes).symm

theorem nagPass_ran (now : Instant) (baseUrl : String) (live : LiveState W B) :
    (run (execLive bus) (nagPass now baseUrl).lift live).state =
      { live with db := Operation.after X (.nag now baseUrl) live.db } := by
  have hafter := run_erase_state exec (nagPass now baseUrl) live.db
  rw [run_lift_stored]
  exact congrArg (fun db => { live with db := db }) hafter.symm

theorem completes_of_nagPass {now : Instant} {live : LiveState W B}
    (hpanic : (run (execLive bus) (nagPass now baseUrl).lift live).outcome ≠ .panic) :
    Operation.Completes X (.nag now baseUrl) live.db := by
  intro _ hran
  rw [run_lift_stored] at hpanic
  exact hpanic ((run_erase_panic exec (nagPass now baseUrl) live.db).mp hran)

section Steps

variable {β : Type} (st : LoopState W B)

theorem run_now_bind (rest : Instant → LoopProg W β) :
    run (execLoop bus meanwhile) ((runtime .now).bind rest) st = run (execLoop bus meanwhile) (rest st.clock) st :=
  run_perform_bind _ rfl

theorem run_beat_bind (key value : String) (rest : LoopProg W β) :
    run (execLoop bus meanwhile) ((loopStore (.setSetting key value)).bind fun _ => rest) st =
      run (execLoop bus meanwhile) rest { st with live := { st.live with db := st.live.db.setSetting key value } } := rfl

theorem run_nextInterval (envDefault : Nat) :
    run (execLoop bus meanwhile) (nextInterval envDefault) st = ⟨.ok (st.live.db.loopInterval envDefault), st, []⟩ := rfl

theorem run_sleep (secs : Nat) :
    run (execLoop bus meanwhile) (runtime (.sleep secs)) st =
      ⟨.ok (meanwhile { st with alarm := st.clock + secs * nanosPerSec }).stopping,
        meanwhile { st with alarm := st.clock + secs * nanosPerSec }, []⟩ := rfl

end Steps

/-- The state in which a turn falls asleep: its pass is over, and the alarm is set to the smallest interval there is then. -/
def LoopState.slept (X : Crates) (baseUrl : String) (envDefault : Nat) (state : LoopState W B) (bus' : B) : LoopState W B :=
  { state with
    live := ⟨state.live.db.afterPass X state.clock baseUrl, bus', state.live.announced⟩
    alarm := state.clock + (state.live.db.afterPass X state.clock baseUrl).loopInterval envDefault * nanosPerSec }

omit [DecidableEq W] in
theorem LoopState.slept_db (bus' : B) :
    (state.slept X baseUrl envDefault bus').live.db = state.live.db.afterPass X state.clock baseUrl := rfl

/-- A turn that does not panic: both passes completed, and the rest of the system goes on while the loop sleeps. -/
theorem loopTurn_ran (hends : (run (execLoop bus meanwhile) (loopTurn X baseUrl envDefault) state).outcome ≠ .panic) :
    Operation.Completes X (.scan state.clock baseUrl) state.live.db ∧
      Operation.Completes X (.nag state.clock baseUrl) (state.live.db.beaten X state.clock baseUrl) ∧
      ∃ bus' reminders, run (execLoop bus meanwhile) (loopTurn X baseUrl envDefault) state =
        ⟨.ok (meanwhile (state.slept X baseUrl envDefault bus')).stopping, meanwhile (state.slept X baseUrl envDefault bus'),
          (Operation.ran X (.scan state.clock baseUrl) state.live.db).events ++ reminders⟩ := by
  simp only [loopTurn, loopPass, Prog.bind_eq, Prog.bind_assoc] at hends ⊢
  rw [run_now_bind] at hends ⊢
  obtain ⟨hscan, hturn⟩ := run_caught_bind hends
  have hscans : Operation.Completes X (.scan state.clock baseUrl) state.live.db := by
    refine completes_of_scanOnce fun hpanic => hscan ?_
    rw [run_lift_live]
    exact scanPassLive_panic hpanic
  obtain ⟨bus', hlive⟩ := scanPassLive_ran hscans
  rw [run_lift_live, hlive] at hturn
  simp only [Ran.inside, LoopState.livePart] at hturn
  rw [run_beat_bind, run_now_bind] at hturn
  rw [hturn] at hends ⊢
  dsimp only at hends ⊢
  rw [← Db.beaten] at hends ⊢
  obtain ⟨hnag, hrest⟩ := run_caught_bind hends
  rw [run_lift_live] at hnag hrest
  rw [run_bind_of_ok _ (congrArg Ran.outcome (run_nextInterval _ _)), run_nextInterval, run_sleep] at hrest
  simp only [Ran.inside, LoopState.livePart, nagPass_ran (X := X)] at hnag hrest
  rw [← Db.afterPass] at hrest
  have hnags := completes_of_nagPass (X := X) hnag
  rw [hrest]
  refine ⟨hscans, hnags, bus', ?_⟩
  exact ⟨_, rfl⟩

/-! ### The loop -/

end Turn

end Pingward
