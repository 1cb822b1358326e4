import Pingward.RowFaultPass

/-! Faults in a pass stay with their check. A check none of whose writes is refused fares as in the pass
without faults; one with a refused write is left as it was and handled by the next pass, except when the scan
has downed it and is refused the alert baseline. -/

open KeyedTable StoreProgram

namespace Pingward

section Faulty

variable (f : Faults) (error : StoreError) (pass : StoreProg StoreError (List NotificationEvent)) (db : Db)

/-- A check with no refused write has the row and the events of the pass without faults. -/
def Local : Prop :=
  ∀ cid, ¬ FailedFor f error pass db cid →
    (faultyRun f error pass db).state.findCheck cid = (run exec pass db).state.findCheck cid ∧
      eventsOf (faultyRun f error pass db) cid = eventsOf (run exec pass db) cid

/-- The check is exactly as it was, and no event is about it. -/
structure LeftAlone (cid : Int) : Prop where
  row : (faultyRun f error pass db).state.findCheck cid = db.findCheck cid
  silent : eventsOf (faultyRun f error pass db) cid = []

/-- The check is down since `now` with an open incident, and its Down event is out. -/
def Alerted (now : Instant) (cid : Int) : Prop :=
  (∃ row, (faultyRun f error pass db).state.findCheck cid = some row ∧ row.status = .down ∧ row.acknowledged = false ∧
    row.lastAlertAt = some now) ∧
  ∃ event ∈ eventsOf (faultyRun f error pass db) cid, event.event = .down

/-- Every check with a refused write is left alone or alerted. -/
def Handled (now : Instant) : Prop :=
  ∀ cid, FailedFor f error pass db cid → LeftAlone f error pass db cid ∨ Alerted f error pass db now cid

end Faulty

/-- Two descriptions of a pass, with faults and without, that agree on the checks that no fault touches. -/
theorem local_of_covers {f : Faults} {error : StoreError} {pass : StoreProg StoreError (List NotificationEvent)} {db : Db}
    {p : Check → Bool} {r r₀ : FaultyRound} (hfaulty : r.Covers (faultyExec f error) pass db p)
    (hclean : r₀.Covers exec pass db p) (hcomputes : r.computes = r₀.computes)
    (hagree : ∀ check, (∀ c ∈ r.calls check, f.refuses c = false) →
      r.events check = r₀.events check ∧ r.change check = r₀.change check) : Local f error pass db := by
  intro cid hspared
  have hreached : ∀ checks, r.reached checks = r₀.reached checks := fun checks => by
    rw [FaultyRound.reached, FaultyRound.reached, hcomputes]
  unfold faultyRun
  cases hrow : db.findCheck cid with
  | none =>
      exact ⟨(hfaulty.row_none hrow).trans (hclean.row_none hrow).symm,
        (hfaulty.events_none hrow).trans (hclean.events_none hrow).symm⟩
  | some check =>
      rw [hfaulty.failed_iff hrow, not_and] at hspared
      rw [hfaulty.row hrow, hclean.row hrow, hfaulty.events hrow, hclean.events hrow, hreached, hcomputes]
      by_cases hin : check ∈ r₀.reached (db.selectChecks p)
      · obtain ⟨hevents, hchange⟩ := hagree check fun c hc => by
          cases hrefused : f.refuses c with
          | false => rfl
          | true => exact absurd ⟨c, hc, hrefused⟩ (hspared (by rw [hreached]; exact hin))
        rw [hevents, hchange]
        exact ⟨rfl, rfl⟩
      · simp only [hin, and_false, if_false, and_self]

section Passes

variable {f : Faults} {error : StoreError} {X : Crates} {now : Instant} {baseUrl : String} {db : Db} {cid : Int}

theorem cleanScan_covers (X : Crates) (now : Instant) (baseUrl : String) (db : Db) :
    (faultyScan .none X now baseUrl db.projectNames db.displayTz).Covers exec (scanOnce X now baseUrl) db
      fun row => row.status = .new ∨ row.status = .up :=
  faultyExec_none .unavailable ▸ faultyScan_covers .none X now baseUrl .unavailable db

theorem cleanNag_covers (now : Instant) (baseUrl : String) (db : Db) :
    (faultyNag .none now baseUrl db.projectNags db.projectNames db.displayTz db.globalNag).Covers exec
      (nagOnce now baseUrl) db fun row => row.status = .down :=
  faultyExec_none .unavailable ▸ faultyNag_covers .none now baseUrl .unavailable db

theorem scan_local : Local f error (scanOnce X now baseUrl) db := by
  apply local_of_covers (faultyScan_covers f X now baseUrl error db) (cleanScan_covers X now baseUrl db) rfl
  intro check hspared
  cases hlate : check.isLate X now with
  | false =>
      constructor
      · simp [faultyScan, hlate]
      · funext row
        simp [faultyScan, hlate]
  | true =>
      have hstatus : f.status check.id = false := hspared (.setStatus check.id .down) (by simp [faultyScan, hlate])
      have hbaseline : f.baseline check.id = false :=
        hspared (.beginDownAlert check.id now) (by simp [faultyScan, hlate, hstatus])
      constructor
      · simp [faultyScan, hstatus, Faults.none]
      · funext row
        simp [faultyScan, hstatus, hbaseline, Faults.none]

theorem nag_local : Local f error (nagOnce now baseUrl) db := by
  apply local_of_covers (faultyNag_covers f now baseUrl error db) (cleanNag_covers now baseUrl db) rfl
  intro check hspared
  cases hdue : nagDue now db.projectNags db.globalNag check with
  | false =>
      constructor
      · simp [faultyNag, hdue]
      · funext row
        simp [faultyNag, hdue]
  | true =>
      have hreminder : f.reminder check.id = false := hspared (.recordReminder check.id now) (by simp [faultyNag, hdue])
      constructor
      · simp [faultyNag, hreminder, Faults.none]
      · funext row
        simp [faultyNag, hreminder, Faults.none]

theorem nag_handled : Handled f error (nagOnce now baseUrl) db now := by
  intro cid hfailed
  have hcovers := faultyNag_covers f now baseUrl error db
  cases hrow : db.findCheck cid with
  | none => exact absurd hfailed (hcovers.not_failed_none hrow)
  | some check =>
      obtain ⟨_, c, hc, hrefused⟩ := (hcovers.failed_iff hrow).mp hfailed
      have hreminder : f.reminder check.id = true := by
        simp only [faultyNag] at hc
        split at hc
        · rw [List.mem_singleton.mp hc] at hrefused
          exact hrefused
        · cases hc
      refine Or.inl ⟨?_, ?_⟩
      · apply (hcovers.row hrow).trans
        rw [hrow]
        split <;> simp [faultyNag, hreminder]
      · apply (hcovers.events hrow).trans
        split <;> simp [faultyNag, hreminder]

/-- No check that the scan reaches and downs is refused its alert baseline after its status was written,
unless it has the baseline of this very instant already and the pass runs to its end. Which checks it
reaches before one that panics is up to the order in which the engine lists them. -/
def KeepsBaseline (f : Faults) (X : Crates) (now : Instant) (db : Db) : Prop :=
  ∀ check ∈ db.listActiveChecks.takeWhile (Check.deadlinesFit X), check.isLate X now = true →
    f.status check.id = false → f.baseline check.id = true →
      db.listActiveChecks.all (Check.deadlinesFit X) = true ∧ check.acknowledged = false ∧ check.lastAlertAt = some now

theorem scan_handled_iff : Handled f error (scanOnce X now baseUrl) db now ↔ KeepsBaseline f X now db := by
  have hcovers := faultyScan_covers f X now baseUrl error db
  constructor
  · intro hhandled check hreached hlate hstatus hbaseline
    have hlisted : check ∈ db.listActiveChecks := (List.takeWhile_sublist _).subset hreached
    have hactive : check.status = .new ∨ check.status = .up := of_decide_eq_true (Db.mem_selectChecks.mp hlisted).2
    have hrow : db.findCheck check.id = some check :=
      (db.checks.find_eq_some_iff).mpr ⟨(Db.mem_selectChecks.mp hlisted).1, rfl⟩
    have hchange : (faultyScan f X now baseUrl db.projectNames db.displayTz).change check check =
        { check with status := .down } := by simp [faultyScan, hlate, hstatus, hbaseline]
    have hafter : (faultyRun f error (scanOnce X now baseUrl) db).state.findCheck check.id =
        some { check with status := .down } :=
          (hcovers.row hrow).trans ((congrArg some (if_pos hreached)).trans (congrArg some hchange))
    rcases hhandled check.id ((hcovers.failed_iff hrow).mpr ⟨hreached, .beginDownAlert check.id now,
        by simp [faultyScan, hlate, hstatus], hbaseline⟩) with halone | ⟨⟨row, hdown, _, hack, hlast⟩, event, hevent, _⟩
    · have hsame := (hafter.symm.trans halone.row).trans hrow
      rw [Option.some.injEq] at hsame
      have hstill : CheckStatus.down = check.status := congrArg Check.status hsame
      rcases hactive with hnew | hup
      · rw [hnew] at hstill
        cases hstill
      · rw [hup] at hstill
        cases hstill
    · obtain rfl : { check with status := .down } = row := Option.some.inj (hafter.symm.trans hdown)
      have hevents := hcovers.events hrow
      unfold faultyRun at hevent
      rw [hevents] at hevent
      split at hevent
      · rename_i hall
        exact ⟨hall.1, hack, hlast⟩
      · cases hevent
  · intro hkeeps cid hfailed
    cases hrow : db.findCheck cid with
    | none => exact absurd hfailed (hcovers.not_failed_none hrow)
    | some check =>
        obtain ⟨hreached, c, hc, hrefused⟩ := (hcovers.failed_iff hrow).mp hfailed
        have hlate : check.isLate X now = true := by
          by_contra hearly
          simp [faultyScan, hearly] at hc
        cases hstatus : f.status check.id with
        | true =>
            refine Or.inl ⟨?_, ?_⟩
            · apply (hcovers.row hrow).trans
              rw [hrow]
              split <;> simp [faultyScan, hstatus]
            · apply (hcovers.events hrow).trans
              split <;> simp [faultyScan, hstatus]
        | false =>
            have hbaseline : f.baseline check.id = true := by
              simp only [faultyScan, hlate, hstatus, if_true, Bool.false_eq_true, if_false, List.mem_cons,
                List.not_mem_nil, or_false] at hc
              rcases hc with rfl | rfl
              · exact absurd hrefused (by simp [Faults.refuses, hstatus])
              · exact hrefused
            obtain ⟨hall, hack, hlast⟩ := hkeeps check hreached hlate hstatus hbaseline
            refine Or.inr ⟨⟨{ check with status := .down }, ?_, rfl, hack, hlast⟩, ?_⟩
            · apply (hcovers.row hrow).trans
              rw [if_pos hreached]
              simp [faultyScan, hlate, hstatus, hbaseline]
            · have hevents := hcovers.events hrow
              rw [if_pos ⟨hall, hreached⟩] at hevents
              unfold faultyRun
              rw [hevents]
              simp [faultyScan, hlate, hstatus, downEvent]

/-! ### The passes after -/

/-- A completed scan downs a listed check that is late, and says so. -/
theorem scan_downs {check : Check} (hrow : db.findCheck cid = some check) (hactive : check.isActive = true)
    (hlate : check.isLate X now = true) (hcompletes : (run exec (scanOnce X now baseUrl) db).outcome ≠ .panic) :
    ∃ event ∈ eventsOf (run exec (scanOnce X now baseUrl) db) cid, event.event = .down := by
  have hcovers := cleanScan_covers X now baseUrl db
  have hall : (db.selectChecks fun row => row.status = .new ∨ row.status = .up).all (Check.deadlinesFit X) = true := by
    by_contra hnot
    rw [hcovers.run_eq] at hcompletes
    exact hcompletes (if_neg hnot)
  have hlisted : check ∈ db.selectChecks fun row => row.status = .new ∨ row.status = .up :=
    Db.mem_selectChecks.mpr ⟨Table.find_mem _ hrow, hactive⟩
  rw [hcovers.events hrow, FaultyRound.reached_of_all hall, if_pos ⟨hall, hlisted⟩]
  simp [faultyScan, hlate, Faults.none, downEvent]

/-- A completed nag pass reminds of a check that is due, and says so. -/
theorem nag_reminds {check : Check} (hrow : db.findCheck cid = some check) (hdown : check.status = .down)
    (hdue : nagDue now db.projectNags db.globalNag check = true)
    (hcompletes : (run exec (nagOnce now baseUrl) db).outcome ≠ .panic) :
    ∃ event ∈ eventsOf (run exec (nagOnce now baseUrl) db) cid, event.event = .reminder := by
  have hcovers := cleanNag_covers now baseUrl db
  have hall : (db.selectChecks fun row => row.status = .down).all
      (faultyNag .none now baseUrl db.projectNags db.projectNames db.displayTz db.globalNag).computes = true := by
    by_contra hnot
    rw [hcovers.run_eq] at hcompletes
    exact hcompletes (if_neg hnot)
  have hlisted : check ∈ db.selectChecks fun row => row.status = .down :=
    Db.mem_selectChecks.mpr ⟨Table.find_mem _ hrow, decide_eq_true hdown⟩
  rw [hcovers.events hrow, FaultyRound.reached_of_all hall, if_pos ⟨hall, hlisted⟩]
  simp [faultyNag, hdue, Faults.none, reminderEvent]

theorem hasPassed_later {deadline : Option Instant} {later : Instant} (hpassed : hasPassed deadline now = true)
    (hlater : now ≤ later) : hasPassed deadline later = true := by
  cases deadline with
  | none => cases hpassed
  | some t => exact decide_eq_true (Int.le_trans (of_decide_eq_true hpassed) hlater)

/-- A check that is late stays late. -/
theorem isLate_later {check : Check} {later : Instant} (hlate : check.isLate X now = true) (hlater : now ≤ later) :
    check.isLate X later = true := by
  unfold Check.isLate at hlate ⊢
  rw [Bool.or_eq_true] at hlate ⊢
  exact hlate.imp (hasPassed_later · hlater) (hasPassed_later · hlater)

theorem nagDue_later {nags : List (Int × Option Int)} {globalNag : Option Int} {check : Check} {later : Instant}
    (hdue : nagDue now nags globalNag check = true) (hlater : now ≤ later) : nagDue later nags globalNag check = true := by
  simp only [nagDue, Bool.and_eq_true, Option.any_eq_true, decide_eq_true_eq] at hdue ⊢
  obtain ⟨hack, secs, hsecs, last, hlast, hover⟩ := hdue
  exact ⟨hack, secs, hsecs, last, hlast, Int.le_trans hover hlater⟩

/-- A check whose status write was refused is downed by the next completed scan. -/
theorem scan_retries {later : Instant} (hlater : now ≤ later) (hfailed : FailedFor f error (scanOnce X now baseUrl) db cid)
    (halone : LeftAlone f error (scanOnce X now baseUrl) db cid)
    (hcompletes : (run exec (scanOnce X later baseUrl)
      (faultyRun f error (scanOnce X now baseUrl) db).state).outcome ≠ .panic) :
    ∃ event ∈ eventsOf (run exec (scanOnce X later baseUrl) (faultyRun f error (scanOnce X now baseUrl) db).state) cid,
      event.event = .down := by
  have hcovers := faultyScan_covers f X now baseUrl error db
  cases hrow : db.findCheck cid with
  | none => exact absurd hfailed (hcovers.not_failed_none hrow)
  | some check =>
      obtain ⟨hreached, c, hc, _⟩ := (hcovers.failed_iff hrow).mp hfailed
      have hlate : check.isLate X now = true := by
        by_contra hearly
        simp [faultyScan, hearly] at hc
      have hlisted : check ∈ db.listActiveChecks := (List.takeWhile_sublist _).subset hreached
      exact scan_downs (halone.row.trans hrow) (Db.mem_selectChecks.mp hlisted).2 (isLate_later hlate hlater) hcompletes

/-- A pass leaves the projects and the settings alone. -/
theorem after_nag (r : Round) (checks : List Check) (db : Db) :
    (r.after checks db).projectNags = db.projectNags ∧ (r.after checks db).globalNag = db.globalNag := by
  induction checks generalizing db with
  | nil => exact ⟨rfl, rfl⟩
  | cons check rest ih => exact ih _

/-- A check whose reminder was refused is reminded of by the next completed nag pass. -/
theorem nag_retries {later : Instant} (hlater : now ≤ later) (hfailed : FailedFor f error (nagOnce now baseUrl) db cid)
    (hcompletes : (run exec (nagOnce later baseUrl) (faultyRun f error (nagOnce now baseUrl) db).state).outcome ≠ .panic) :
    ∃ event ∈ eventsOf (run exec (nagOnce later baseUrl) (faultyRun f error (nagOnce now baseUrl) db).state) cid,
      event.event = .reminder := by
  have hcovers := faultyNag_covers f now baseUrl error db
  cases hrow : db.findCheck cid with
  | none => exact absurd hfailed (hcovers.not_failed_none hrow)
  | some check =>
      obtain ⟨hreached, c, hc, hrefused⟩ := (hcovers.failed_iff hrow).mp hfailed
      have hdue : nagDue now db.projectNags db.globalNag check = true := by
        by_contra hearly
        simp [faultyNag, hearly] at hc
      have hreminder : f.reminder check.id = true := by
        simp only [faultyNag, hdue, if_true, List.mem_singleton] at hc
        subst hc
        exact hrefused
      have hafter : (faultyRun f error (nagOnce now baseUrl) db).state.findCheck cid = some check :=
        (hcovers.row hrow).trans (by rw [if_pos hreached]; simp [faultyNag, hreminder])
      have hstate : (faultyRun f error (nagOnce now baseUrl) db).state = _ := congrArg Ran.state hcovers.run_eq
      have hlisted : check ∈ db.listDownChecks := (List.takeWhile_sublist _).subset hreached
      refine nag_reminds hafter (of_decide_eq_true (Db.mem_selectChecks.mp hlisted).2) ?_ hcompletes
      rw [hstate, (after_nag _ _ _).1, (after_nag _ _ _).2]
      exact nagDue_later hdue hlater

end Passes

/-- **Faults in a pass.** Whatever writes of a scan or a nag pass are refused, the checks they are not for
fare as without; in a nag pass a check with a refused write is left as it was, and in a scan it is so or
alerted exactly when no check that is downed is refused its alert baseline. What is left as it was is handled
by the next completed pass, and an open alert is reminded of by every completed nag pass from the interval
on. -/
theorem pass_faults_local (X : Crates) (f : Faults) (error : StoreError) (now : Instant) (baseUrl : String) (db : Db) :
    (Local f error (scanOnce X now baseUrl) db ∧ Local f error (nagOnce now baseUrl) db) ∧
    Handled f error (nagOnce now baseUrl) db now ∧
    (Handled f error (scanOnce X now baseUrl) db now ↔ KeepsBaseline f X now db) ∧
    (∀ cid later, now ≤ later → FailedFor f error (scanOnce X now baseUrl) db cid →
      LeftAlone f error (scanOnce X now baseUrl) db cid →
      (run exec (scanOnce X later baseUrl) (faultyRun f error (scanOnce X now baseUrl) db).state).outcome ≠ .panic →
      ∃ event ∈ eventsOf (run exec (scanOnce X later baseUrl) (faultyRun f error (scanOnce X now baseUrl) db).state) cid,
        event.event = .down) ∧
    (∀ cid later, now ≤ later → FailedFor f error (nagOnce now baseUrl) db cid →
      (run exec (nagOnce later baseUrl) (faultyRun f error (nagOnce now baseUrl) db).state).outcome ≠ .panic →
      ∃ event ∈ eventsOf (run exec (nagOnce later baseUrl) (faultyRun f error (nagOnce now baseUrl) db).state) cid,
        event.event = .reminder) ∧
    ∀ after cid row secs later, Db.findCheck after cid = some row → row.status = .down → row.acknowledged = false →
      row.lastAlertAt = some now → after.nagInterval row = some secs → now + secs * nanosPerSec ≤ later →
      (run exec (nagOnce later baseUrl) after).outcome ≠ .panic →
      ∃ event ∈ eventsOf (run exec (nagOnce later baseUrl) after) cid, event.event = .reminder := by
  refine ⟨⟨scan_local, nag_local⟩, nag_handled, scan_handled_iff, fun cid later => scan_retries,
    fun cid later => nag_retries, ?_⟩
  intro after cid row secs later hrow hdown hack hlast hsecs hover hcompletes
  refine nag_reminds hrow hdown ?_ hcompletes
  have hinterval : effectiveNagInterval row.nagIntervalSecs (lookup after.projectNags row.projectId).join after.globalNag =
      some secs := hsecs
  simp only [nagDue, hack, Bool.not_false, Bool.true_and, hinterval, hlast, Option.any_some, decide_eq_true_eq]
  exact hover

/-- The second write of every scanned check is refused. -/
def noBaseline : Faults := ⟨fun _ => false, fun _ => true, fun _ => false⟩

/-- The sample's check is overdue; the scan writes its status and is refused the baseline. The Down event
goes out, but the row has no alert baseline, and a nag pass a day later is silent though the project asks
for a reminder every five minutes. -/
theorem lost_baseline_silences :
    ¬ Handled noBaseline .unavailable (scanOnce plainCrates (200 * nanosPerSec) "") .sample (200 * nanosPerSec) ∧
      ((faultyRun noBaseline .unavailable (scanOnce plainCrates (200 * nanosPerSec) "") .sample).state.findCheck 1).map
          (fun row => (row.status, row.lastAlertAt)) = some (.down, none) ∧
      (run exec (nagOnce (86600 * nanosPerSec) "")
        (faultyRun noBaseline .unavailable (scanOnce plainCrates (200 * nanosPerSec) "") .sample).state).outcome = .ok [] := by
  refine ⟨fun hhandled => ?_, by decide +kernel, by decide +kernel⟩
  have hfailed : FailedFor noBaseline .unavailable (scanOnce plainCrates (200 * nanosPerSec) "") .sample 1 :=
    ⟨.beginDownAlert 1 (200 * nanosPerSec), by decide +kernel, rfl, rfl⟩
  have hrow : ((faultyRun noBaseline .unavailable (scanOnce plainCrates (200 * nanosPerSec) "") .sample).state.findCheck 1).map
      (fun row => (row.status, row.lastAlertAt)) = some (.down, none) := by decide +kernel
  rcases hhandled 1 hfailed with halone | ⟨⟨row, hafter, _, _, hlast⟩, _⟩
  · rw [halone.row] at hrow
    exact absurd hrow (by decide +kernel)
  · rw [hafter, Option.map_some, hlast] at hrow
    exact absurd (congrArg (Option.map Prod.snd) hrow) (by simp)

end Pingward
