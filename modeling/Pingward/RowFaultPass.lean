import Pingward.RowFault

/-! What becomes of a check when writes of the scan and the nag pass are refused, and of its reminders in the
passes after. -/

open KeyedTable StoreProgram

namespace Pingward

/-! ### The scan -/

section Scan

variable (f : Faults) (X : Crates) (now : Instant) (baseUrl : String) (names : List (Int × String)) (tz : Option String)

/-- The scan downs the check when it is listed. -/
def Check.isLate (check : Check) : Bool := check.isOverdue X now || check.isOverrun now

/-- Neither deadline of the check leaves chrono's range. -/
def Check.deadlinesFit (check : Check) : Bool := (dueTime X check).toOption.isSome && (overrunTime check).toOption.isSome

def faultyScan : FaultyRound where
  events check :=
    if check.isLate X now && !f.status check.id then [downEvent check now baseUrl names tz (check.isOverrun now)] else []
  change check row :=
    if check.isLate X now && !f.status check.id then
      if f.baseline check.id then { row with status := .down } else { row with status := .down }.alerted now
    else row
  change_id check row := by
    split
    · split <;> rfl
    · rfl
  computes check := check.deadlinesFit X
  calls check :=
    if check.isLate X now then
      .setStatus check.id .down :: if f.status check.id then [] else [.beginDownAlert check.id now]
    else []

theorem updateCheck_congr {db : Db} {id : Int} {g h : Check → Check} {hg : ∀ row, (g row).id = row.id}
    (heq : g = h) : db.updateCheck id g hg = db.updateCheck id h fun row => heq ▸ hg row := by
  subst heq
  rfl

theorem faultyScan_describes (error : StoreError) :
    (faultyScan f X now baseUrl names tz).Describes (faultyExec f error) (scanCheck X now baseUrl names tz) := by
  constructor
  · intro check db hcomputes
    cases hdue : dueTime X check with
    | error panic => simp [faultyScan, Check.deadlinesFit, hdue, Except.toOption] at hcomputes
    | ok due =>
        cases hdeadline : overrunTime check with
        | error panic => simp [faultyScan, Check.deadlinesFit, hdeadline, Except.toOption] at hcomputes
        | ok deadline =>
            have hlate : check.isLate X now = (hasPassed due now || hasPassed deadline now) := by
              simp [Check.isLate, Check.isOverdue, Check.isOverrun, hdue, hdeadline, Except.toOption]
            have hoverrun : check.isOverrun now = hasPassed deadline now := by
              simp [Check.isOverrun, hdeadline, Except.toOption]
            by_cases hdown : hasPassed due now = true ∨ hasPassed deadline now = true
            · have hlate : check.isLate X now = true := by
                rw [hlate, Bool.or_eq_true]
                exact hdown
              simp only [scanCheck, hdue, hdeadline, Prog.bind_eq, Prog.orPanic_ok, Prog.ret_bind, attemptCall,
                Prog.attempt, Prog.call_bind, if_neg (not_not.mpr hdown), run_call, StoreProgram.calls]
              by_cases hstatus : f.status check.id = true
              · have hset : faultyExec f error (.setStatus check.id .down) db = (.error error, db) := if_pos hstatus
                have hchange : (faultyScan f X now baseUrl names tz).change check = fun row => row := by
                  funext row
                  simp [faultyScan, hlate, hstatus]
                rw [updateCheck_congr hchange, updateCheck_id]
                simp only [hset]
                simp [faultyScan, hlate, hstatus, StoreProgram.calls]
              · have hset : faultyExec f error (.setStatus check.id .down) db = (.ok (), db.setStatus check.id .down) :=
                  if_neg hstatus
                simp only [hset, run_call, StoreProgram.calls]
                by_cases hbaseline : f.baseline check.id = true
                · have hbegin : faultyExec f error (.beginDownAlert check.id now) (db.setStatus check.id .down) =
                      (.error error, db.setStatus check.id .down) := if_pos hbaseline
                  have hchange : (faultyScan f X now baseUrl names tz).change check =
                      fun row => { row with status := .down } := by
                    funext row
                    simp [faultyScan, hlate, hstatus, hbaseline]
                  rw [updateCheck_congr hchange, hbegin]
                  simp [faultyScan, hlate, hstatus, hoverrun, StoreProgram.calls, Db.setStatus]
                · have hbegin : faultyExec f error (.beginDownAlert check.id now) (db.setStatus check.id .down) =
                      (.ok (), (db.setStatus check.id .down).beginDownAlert check.id now) := if_neg hbaseline
                  have hchange : (faultyScan f X now baseUrl names tz).change check =
                      fun row => { row with status := .down }.alerted now := by
                    funext row
                    simp [faultyScan, hlate, hstatus, hbaseline]
                  rw [updateCheck_congr hchange, hbegin, Db.setStatus, Db.beginDownAlert, updateCheck_updateCheck]
                  simp [faultyScan, hlate, hstatus, hoverrun, StoreProgram.calls, Check.alerted]
            · have hlate : check.isLate X now = false := by
                rw [hlate, Bool.or_eq_false_iff]
                simpa using hdown
              have hchange : (faultyScan f X now baseUrl names tz).change check = fun row => row := by
                funext row
                simp [faultyScan, hlate]
              rw [updateCheck_congr hchange, updateCheck_id]
              simp only [scanCheck, hdue, hdeadline, Prog.bind_eq, Prog.orPanic_ok, Prog.ret_bind, if_pos hdown]
              simp [faultyScan, hlate, StoreProgram.calls]
  · intro check db hpanics
    cases hdue : dueTime X check with
    | error panic => simp [scanCheck, hdue, StoreProgram.calls]
    | ok due =>
        cases hdeadline : overrunTime check with
        | error panic => simp [scanCheck, hdue, hdeadline, StoreProgram.calls]
        | ok deadline => simp [faultyScan, Check.deadlinesFit, hdue, hdeadline, Except.toOption] at hpanics

/-- The scan with faults comes to the rounds of the active checks. -/
theorem faultyScan_covers (error : StoreError) (db : Db) :
    (faultyScan f X now baseUrl db.projectNames db.displayTz).Covers (faultyExec f error) (scanOnce X now baseUrl) db
      fun row => row.status = .new ∨ row.status = .up where
  run_eq := FaultyRound.forChecks_run (faultyScan_describes f X now baseUrl db.projectNames db.displayTz error)
    db.listActiveChecks db
  calls_eq := by
    refine ⟨[.allProjectNames, .getSetting "display_timezone", .listActiveChecks], ?_, by simp [StoreCall.writtenCheck]⟩
    exact congrArg ([StoreCall.allProjectNames, .getSetting "display_timezone", .listActiveChecks] ++ ·)
      (FaultyRound.forChecks_calls (faultyScan_describes f X now baseUrl db.projectNames db.displayTz error)
        db.listActiveChecks db)
  event_id := by
    intro check event hevent
    simp only [faultyScan] at hevent
    split at hevent
    · rw [List.mem_singleton.mp hevent]
      rfl
    · cases hevent
  call_id := by
    intro check c hc
    simp only [faultyScan] at hc
    split at hc
    · rcases List.mem_cons.mp hc with rfl | hc
      · rfl
      · split at hc
        · cases hc
        · rw [List.mem_singleton.mp hc]
          rfl
    · cases hc

end Scan

/-! ### The nag pass -/

section Nag

variable (f : Faults) (now : Instant) (baseUrl : String) (nags : List (Int × Option Int)) (names : List (Int × String))
  (tz : Option String) (globalNag : Option Int)

def faultyNag : FaultyRound where
  events check :=
    if nagDue now nags globalNag check && !f.reminder check.id then [reminderEvent check now baseUrl names tz] else []
  change check row :=
    if nagDue now nags globalNag check && !f.reminder check.id then { row with lastAlertAt := some now } else row
  change_id check row := by split <;> rfl
  computes check :=
    check.acknowledged ||
      (effectiveNagInterval check.nagIntervalSecs (lookup nags check.projectId).join globalNag).all fun secs =>
        check.lastAlertAt.all fun last => (reminderTime last secs).toOption.isSome
  calls check := if nagDue now nags globalNag check then [.recordReminder check.id now] else []

/-- A check that is not reminded of. -/
theorem faultyNag_skip {check : Check} (hskip : nagDue now nags globalNag check = false) (db : Db) :
    (⟨.ok [], db, []⟩ : Ran Db Spawned StoreError (List NotificationEvent)) =
        ⟨.ok ((faultyNag f now baseUrl nags names tz globalNag).events check),
          db.updateCheck check.id ((faultyNag f now baseUrl nags names tz globalNag).change check)
            ((faultyNag f now baseUrl nags names tz globalNag).change_id check), []⟩ ∧
      [] = (faultyNag f now baseUrl nags names tz globalNag).calls check := by
  have hchange : (faultyNag f now baseUrl nags names tz globalNag).change check = fun row => row := by
    funext row
    simp [faultyNag, hskip]
  rw [updateCheck_congr hchange, updateCheck_id]
  simp [faultyNag, hskip]

theorem faultyNag_describes (error : StoreError) :
    (faultyNag f now baseUrl nags names tz globalNag).Describes (faultyExec f error)
      (nagCheck now baseUrl nags names tz globalNag) := by
  constructor
  · intro check db hcomputes
    by_cases hack : check.acknowledged = true
    · rw [nagCheck, if_pos hack]
      exact faultyNag_skip f now baseUrl nags names tz globalNag (by simp [nagDue, hack]) db
    cases hinterval : effectiveNagInterval check.nagIntervalSecs (lookup nags check.projectId).join globalNag with
    | none =>
        simp only [nagCheck, if_neg hack, hinterval]
        exact faultyNag_skip f now baseUrl nags names tz globalNag (by simp [nagDue, hinterval]) db
    | some interval =>
        cases hlast : check.lastAlertAt with
        | none =>
            simp only [nagCheck, if_neg hack, hinterval, hlast]
            exact faultyNag_skip f now baseUrl nags names tz globalNag (by simp [nagDue, hinterval, hlast]) db
        | some last =>
            cases hdue : reminderTime last interval with
            | error panic => simp [faultyNag, hack, hinterval, hlast, hdue, Except.toOption] at hcomputes
            | ok due =>
                have hsum := (reminderTime_eq_ok_iff.mp hdue).2
                have hnagDue : nagDue now nags globalNag check = decide (due ≤ now) := by
                  simp [nagDue, hack, hinterval, hlast, hsum]
                simp only [nagCheck, if_neg hack, hinterval, hlast, hdue, Prog.bind_eq, Prog.orPanic_ok, Prog.ret_bind]
                by_cases hearly : now < due
                · rw [if_pos hearly]
                  exact faultyNag_skip f now baseUrl nags names tz globalNag
                    (by rw [hnagDue]; simpa using hearly) db
                · rw [if_neg hearly]
                  have hdue' : nagDue now nags globalNag check = true := by
                    rw [hnagDue]
                    simpa using hearly
                  simp only [attemptCall, Prog.attempt, Prog.call_bind, Prog.ret_bind, run_call, StoreProgram.calls]
                  by_cases hreminder : f.reminder check.id = true
                  · have hrecord : faultyExec f error (.recordReminder check.id now) db = (.error error, db) :=
                      if_pos hreminder
                    have hchange : (faultyNag f now baseUrl nags names tz globalNag).change check = fun row => row := by
                      funext row
                      simp [faultyNag, hreminder]
                    rw [updateCheck_congr hchange, updateCheck_id, hrecord]
                    simp [faultyNag, hdue', hreminder, StoreProgram.calls]
                  · have hrecord : faultyExec f error (.recordReminder check.id now) db =
                        (.ok (), db.recordReminder check.id now) := if_neg hreminder
                    have hchange : (faultyNag f now baseUrl nags names tz globalNag).change check =
                        fun row => { row with lastAlertAt := some now } := by
                      funext row
                      simp [faultyNag, hdue', hreminder]
                    rw [updateCheck_congr hchange, hrecord]
                    simp [faultyNag, hdue', hreminder, StoreProgram.calls, Db.recordReminder]
  · intro check db hpanics
    by_cases hack : check.acknowledged = true
    · simp [faultyNag, hack] at hpanics
    cases hinterval : effectiveNagInterval check.nagIntervalSecs (lookup nags check.projectId).join globalNag with
    | none => simp [faultyNag, hinterval] at hpanics
    | some interval =>
        cases hlast : check.lastAlertAt with
        | none => simp [faultyNag, hinterval, hlast] at hpanics
        | some last =>
            cases hdue : reminderTime last interval with
            | error panic => simp [nagCheck, hack, hinterval, hlast, hdue, StoreProgram.calls]
            | ok due => simp [faultyNag, hinterval, hlast, hdue, Except.toOption] at hpanics

/-- The nag pass with faults comes to the rounds of the checks that are down. -/
theorem faultyNag_covers (error : StoreError) (db : Db) :
    (faultyNag f now baseUrl db.projectNags db.projectNames db.displayTz db.globalNag).Covers (faultyExec f error)
      (nagOnce now baseUrl) db fun row => row.status = .down where
  run_eq := FaultyRound.forChecks_run
    (faultyNag_describes f now baseUrl db.projectNags db.projectNames db.displayTz db.globalNag error) db.listDownChecks db
  calls_eq := by
    refine ⟨[.allProjectNagIntervals, .allProjectNames, .getSetting "display_timezone", .getSetting "nag_interval",
      .listDownChecks], ?_, by simp [StoreCall.writtenCheck]⟩
    exact congrArg ([StoreCall.allProjectNagIntervals, .allProjectNames, .getSetting "display_timezone",
        .getSetting "nag_interval", .listDownChecks] ++ ·)
      (FaultyRound.forChecks_calls
        (faultyNag_describes f now baseUrl db.projectNags db.projectNames db.displayTz db.globalNag error)
        db.listDownChecks db)
  event_id := by
    intro check event hevent
    simp only [faultyNag] at hevent
    split at hevent
    · rw [List.mem_singleton.mp hevent]
      rfl
    · cases hevent
  call_id := by
    intro check c hc
    simp only [faultyNag] at hc
    split at hc
    · rw [List.mem_singleton.mp hc]
      rfl
    · cases hc

end Nag

end Pingward
