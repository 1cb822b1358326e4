import Pingward.DeadlineBasic
import Pingward.RowOperation
import Pingward.FrameAuth

/-! The scan and the nag pass. A round touches its own row only, so a pass comes to one round for every
check it has listed. -/

open KeyedTable StoreProgram

namespace Pingward

/-- What one round of a pass does: the events it collects and what it makes of its own row. -/
structure Round where
  events : Check → List NotificationEvent
  change : Check → Check → Check
  change_id : ∀ check row, (change check row).id = row.id

namespace Round

/-- The round, when it does not panic. -/
def Describes (r : Round) (round : Check → StoreProg StoreError (List NotificationEvent)) : Prop :=
  ∀ check db, (run exec (round check) db).outcome ≠ .panic →
    run exec (round check) db =
      ⟨.ok (r.events check), db.updateCheck check.id (r.change check) (r.change_id check), []⟩

/-- The rounds of a list one after another. -/
def after (r : Round) (checks : List Check) (db : Db) : Db :=
  checks.foldl (fun db check => db.updateCheck check.id (r.change check) (r.change_id check)) db

variable {r : Round} {round : Check → StoreProg StoreError (List NotificationEvent)}

theorem forChecks_run (hdescribes : r.Describes round) (checks : List Check) (db : Db)
    (hpanic : (run exec (forChecks round checks) db).outcome ≠ .panic) :
    run exec (forChecks round checks) db = ⟨.ok (checks.flatMap r.events), r.after checks db, []⟩ := by
  induction checks generalizing db with
  | nil => rfl
  | cons check rest ih =>
      have hfirst := hdescribes check db fun hfirst => hpanic (run_bind_of_panic exec hfirst)
      simp only [forChecks, Prog.bind_eq, Prog.pure_eq] at hpanic ⊢
      rw [run_bind_of_ok exec (congrArg Ran.outcome hfirst), hfirst] at hpanic ⊢
      have hrest := ih _ fun hrest => hpanic (run_bind_of_panic exec hrest)
      rw [run_bind_of_ok exec (congrArg Ran.outcome hrest), hrest]
      simp [after]

/-- A pass panics exactly when a round on its list does. -/
theorem forChecks_panic_iff (hdescribes : r.Describes round) {bad : Check → Prop}
    (hbad : ∀ check db, (run exec (round check) db).outcome = .panic ↔ bad check) (checks : List Check) (db : Db) :
    (run exec (forChecks round checks) db).outcome = .panic ↔ ∃ check ∈ checks, bad check := by
  induction checks generalizing db with
  | nil => simp [forChecks]
  | cons check rest ih =>
      simp only [forChecks, Prog.bind_eq, Prog.pure_eq, List.exists_mem_cons_iff]
      by_cases hfirst : (run exec (round check) db).outcome = .panic
      · simp only [(hbad check db).mp hfirst, true_or, iff_true]
        exact run_bind_of_panic exec hfirst
      · have hok := hdescribes check db hfirst
        rw [run_bind_of_ok exec (congrArg Ran.outcome hok), ← hbad check db, ← ih (run exec (round check) db).state]
        simp only [hfirst, false_or]
        constructor
        · intro hpanic
          by_contra hrest
          have hrest' := forChecks_run hdescribes rest _ hrest
          rw [run_bind_of_ok exec (congrArg Ran.outcome hrest')] at hpanic
          cases hpanic
        · exact run_bind_of_panic exec

theorem findCheck_after (r : Round) (checks : List Check) (db : Db) (cid : Int) :
    (r.after checks db).findCheck cid =
      (db.findCheck cid).map fun row =>
        (checks.filter fun check => check.id = cid).foldl (fun row check => r.change check row) row := by
  induction checks generalizing db with
  | nil => simp [after]
  | cons check rest ih =>
      have hstep : r.after (check :: rest) db =
          r.after rest (db.updateCheck check.id (r.change check) (r.change_id check)) := rfl
      rw [hstep, ih]
      by_cases hid : check.id = cid
      · subst hid
        rw [findCheck_updateCheck_self]
        simp [Function.comp_def]
      · rw [findCheck_updateCheck_of_ne _ (Ne.symm hid)]
        simp [hid]

theorem filter_events (r : Round) (hid : ∀ check, ∀ event ∈ r.events check, event.checkId = check.id)
    (checks : List Check) (cid : Int) :
    Log.of (((checks.flatMap r.events).map Spawned.event).map eventEntry) cid =
      ((checks.filter fun check => check.id = cid).flatMap r.events).map fun event =>
        .alert event.event event.at_ event.detail.cause := by
  induction checks with
  | nil => rfl
  | cons check rest ih =>
      simp only [List.flatMap_cons, List.map_append, Log.of_append, ih]
      by_cases hcid : check.id = cid
      · have hall : ∀ event ∈ r.events check, event.checkId = cid := fun event hevent => (hid check event hevent).trans hcid
        simp only [hcid, List.filter_cons, decide_true, if_true, List.flatMap_cons, List.map_append]
        congr 1
        rw [Log.of, List.filter_eq_self.mpr]
        · simp [eventEntry, Function.comp_def, Spawned.kind, Spawned.at_, Spawned.cause]
        · intro entry hentry
          simp only [List.map_map, List.mem_map, Function.comp_apply] at hentry
          obtain ⟨event, hevent, rfl⟩ := hentry
          exact decide_eq_true (hall event hevent)
      · have hnone : Log.of (((r.events check).map Spawned.event).map eventEntry) cid = [] := by
          apply Log.of_eq_nil
          intro entry hentry
          simp only [List.map_map, List.mem_map, Function.comp_apply] at hentry
          obtain ⟨event, hevent, rfl⟩ := hentry
          simpa [eventEntry, Spawned.checkId, hid check event hevent] using hcid
        rw [hnone]
        simp [hcid]

end Round

/-- The rows of a selection with the id of a check: that check, if it is selected, wherever the engine
lists it. -/
theorem filter_id {db : Db} {cid : Int} {check : Check} (hrow : db.findCheck cid = some check) (p : Check → Bool) :
    (db.selectChecks p).filter (fun row => row.id = cid) = if p check then [check] else [] := by
  have hrows : (db.checks.rows.filter p).filter (fun row => row.id = cid) = if p check then [check] else [] := by
    rw [List.filter_comm, db.checks.filter_key cid, show db.checks.find cid = some check from hrow]
    simp [List.filter_cons]
  have hperm := (db.rowOrder.perm (db.checks.rows.filter p)).filter fun row => row.id = cid
  rw [hrows] at hperm
  by_cases hselected : p check = true
  · rw [if_pos hselected] at hperm ⊢
    exact hperm.eq_singleton
  · rw [if_neg hselected] at hperm ⊢
    exact hperm.eq_nil

section Scan

variable (X : Crates) (now : Instant) (baseUrl : String) (names : List (Int × String)) (tz : Option String)

def scanRound : Round where
  events check :=
    if check.isOverdue X now || check.isOverrun now then
      [downEvent check now baseUrl names tz (check.isOverrun now)]
    else []
  change check row :=
    if check.isOverdue X now || check.isOverrun now then { row with status := .down }.alerted now else row
  change_id check row := by split <;> rfl

theorem scanRound_describes : (scanRound X now baseUrl names tz).Describes (scanCheck X now baseUrl names tz) := by
  intro check db hpanic
  cases hdue : dueTime X check with
  | error panic => simp [scanCheck, hdue] at hpanic
  | ok due =>
      cases hdeadline : overrunTime check with
      | error panic => simp [scanCheck, hdue, hdeadline] at hpanic
      | ok deadline =>
          have hoverdue : check.isOverdue X now = hasPassed due now := by simp [Check.isOverdue, hdue, Except.toOption]
          have hoverrun : check.isOverrun now = hasPassed deadline now := by
            simp [Check.isOverrun, hdeadline, Except.toOption]
          by_cases hdown : hasPassed due now = true ∨ hasPassed deadline now = true
          · simp only [scanCheck, hdue, hdeadline, Prog.bind_eq, Prog.orPanic_ok, Prog.ret_bind, attemptCall, Prog.attempt,
              Prog.call_bind, if_neg (not_not.mpr hdown), run_call, scanRound, hoverdue, hoverrun, Bool.or_eq_true,
              if_pos hdown, exec]
            rw [Db.setStatus, Db.beginDownAlert, updateCheck_updateCheck]
            rfl
          · simp only [scanCheck, hdue, hdeadline, Prog.bind_eq, Prog.orPanic_ok, Prog.ret_bind, if_pos hdown,
              scanRound, hoverdue, hoverrun, Bool.or_eq_true, if_neg hdown]
            rw [updateCheck_id]
            rfl

/-- A round of the scan panics exactly when a deadline of its check leaves chrono's range. -/
theorem scanCheck_panic_iff (check : Check) (db : Db) :
    (run exec (scanCheck X now baseUrl names tz check) db).outcome = .panic ↔
      ¬((∃ due, dueTime X check = .ok due) ∧ ∃ deadline, overrunTime check = .ok deadline) := by
  cases hdue : dueTime X check with
  | error panic => simp [scanCheck, hdue]
  | ok due =>
      cases hdeadline : overrunTime check with
      | error panic => simp [scanCheck, hdue, hdeadline]
      | ok deadline =>
          simp only [scanCheck, hdue, hdeadline, Prog.bind_eq, Prog.orPanic_ok, Prog.ret_bind]
          split <;> simp [attemptCall, Prog.attempt, exec]

theorem scanOnce_eq (db : Db) :
    run exec (scanOnce X now baseUrl) db =
      run exec (forChecks (scanCheck X now baseUrl db.projectNames db.displayTz) db.listActiveChecks) db := rfl

end Scan

section Nag

variable (now : Instant) (baseUrl : String) (nags : List (Int × Option Int)) (names : List (Int × String))
  (tz : Option String) (globalNag : Option Int)

/-- A round reminds of its check: an interval is set, and it is over. -/
def nagDue (check : Check) : Bool :=
  !check.acknowledged &&
    (effectiveNagInterval check.nagIntervalSecs (lookup nags check.projectId).join globalNag).any fun secs =>
      check.lastAlertAt.any fun last => last + secs * nanosPerSec ≤ now

def nagRound : Round where
  events check := if nagDue now nags globalNag check then [reminderEvent check now baseUrl names tz] else []
  change check row := if nagDue now nags globalNag check then { row with lastAlertAt := some now } else row
  change_id check row := by split <;> rfl

theorem nagRound_skip {check : Check} (hskip : nagDue now nags globalNag check = false) (db : Db) :
    (⟨.ok [], db, []⟩ : Ran Db Spawned StoreError (List NotificationEvent)) =
      ⟨.ok ((nagRound now baseUrl nags names tz globalNag).events check),
        db.updateCheck check.id ((nagRound now baseUrl nags names tz globalNag).change check)
          ((nagRound now baseUrl nags names tz globalNag).change_id check), []⟩ := by
  simp only [nagRound, hskip, Bool.false_eq_true, if_false]
  rw [updateCheck_id]

theorem nagRound_describes :
    (nagRound now baseUrl nags names tz globalNag).Describes (nagCheck now baseUrl nags names tz globalNag) := by
  intro check db hpanic
  by_cases hack : check.acknowledged = true
  · rw [nagCheck, if_pos hack]
    exact nagRound_skip now baseUrl nags names tz globalNag (by simp [nagDue, hack]) db
  cases hinterval : effectiveNagInterval check.nagIntervalSecs (lookup nags check.projectId).join globalNag with
  | none =>
      simp only [nagCheck, if_neg hack, hinterval]
      exact nagRound_skip now baseUrl nags names tz globalNag (by simp [nagDue, hinterval]) db
  | some interval =>
      cases hlast : check.lastAlertAt with
      | none =>
          simp only [nagCheck, if_neg hack, hinterval, hlast]
          exact nagRound_skip now baseUrl nags names tz globalNag (by simp [nagDue, hinterval, hlast]) db
      | some last =>
          cases hdue : reminderTime last interval with
          | error panic => simp [nagCheck, hack, hinterval, hlast, hdue] at hpanic
          | ok due =>
              have hsum := (reminderTime_eq_ok_iff.mp hdue).2
              have hnagDue : nagDue now nags globalNag check = decide (due ≤ now) := by
                simp [nagDue, hack, hinterval, hlast, hsum]
              simp only [nagCheck, if_neg hack, hinterval, hlast, hdue, Prog.bind_eq, Prog.orPanic_ok, Prog.ret_bind]
              by_cases hearly : now < due
              · rw [if_pos hearly]
                exact nagRound_skip now baseUrl nags names tz globalNag (by rw [hnagDue]; simpa using hearly) db
              · rw [if_neg hearly]
                have hdue' : nagDue now nags globalNag check = true := by
                  rw [hnagDue]
                  simpa using hearly
                simp only [nagRound, hdue', if_true, attemptCall, Prog.attempt, Prog.call_bind, run_call, exec]
                rfl

/-- A round of the nag pass panics exactly when its reminder is due at an instant out of range. -/
theorem nagCheck_panic_iff (check : Check) (db : Db) :
    (run exec (nagCheck now baseUrl nags names tz globalNag check) db).outcome = .panic ↔
      check.acknowledged = false ∧ ∃ interval last,
        effectiveNagInterval check.nagIntervalSecs (lookup nags check.projectId).join globalNag = some interval ∧
          check.lastAlertAt = some last ∧ ∀ due, reminderTime last interval ≠ .ok due := by
  by_cases hack : check.acknowledged = true
  · simp [nagCheck, hack]
  cases hinterval : effectiveNagInterval check.nagIntervalSecs (lookup nags check.projectId).join globalNag with
  | none => simp [nagCheck, hack, hinterval]
  | some interval =>
      cases hlast : check.lastAlertAt with
      | none => simp [nagCheck, hack, hinterval, hlast]
      | some last =>
          cases hdue : reminderTime last interval with
          | error panic => simp [nagCheck, hack, hinterval, hlast, hdue]
          | ok due =>
              simp only [nagCheck, if_neg hack, hinterval, hlast, hdue, Prog.bind_eq, Prog.orPanic_ok, Prog.ret_bind]
              split <;> simp [attemptCall, Prog.attempt, exec, hdue]

theorem nagOnce_eq (db : Db) :
    run exec (nagOnce now baseUrl) db =
      run exec (forChecks (nagCheck now baseUrl db.projectNags db.projectNames db.displayTz db.globalNag)
        db.listDownChecks) db := rfl

end Nag

/-- A pass that collected its events spawns them all. -/
theorem run_pass {once : StoreProg StoreError (List NotificationEvent)} {db db' : Db} {events : List NotificationEvent}
    (honce : run exec once db = ⟨.ok events, db', []⟩) :
    run exec (once.bind fun events => Prog.tellAll (events.map Spawned.event)) db =
      ⟨.ok (), db', events.map Spawned.event⟩ := by
  rw [run_bind_of_ok exec (congrArg Ran.outcome honce), honce, run_tellAll]
  rfl

theorem forChecks_only {okCall : StoreCall → Prop} {okEvent : Spawned → Prop}
    {round : Check → StoreProg StoreError (List NotificationEvent)} (hround : ∀ check, (round check).Only okCall okEvent)
    (checks : List Check) : (forChecks round checks).Only okCall okEvent := by
  induction checks with
  | nil => trivial
  | cons check rest ih => exact (hround check).bind fun events => ih.bind fun others => trivial

theorem displayTimezone_only {A : Type} {okCall : StoreCall → Prop} {okEvent : Spawned → Prop}
    (hc : okCall (.getSetting "display_timezone")) :
    (displayTimezone : StoreProg A (Option String)).Only okCall okEvent :=
  (attemptCall_only hc).bind fun _ => trivial

theorem scanCheck_only {okCall : StoreCall → Prop} {okEvent : Spawned → Prop} (X : Crates) (now : Instant)
    (baseUrl : String) (names : List (Int × String)) (tz : Option String) (check : Check)
    (hstatus : okCall (.setStatus check.id .down)) (hbegin : okCall (.beginDownAlert check.id now)) :
    (scanCheck X now baseUrl names tz check).Only okCall okEvent := by
  refine (Prog.Only.orPanic _).bind fun due => (Prog.Only.orPanic _).bind fun deadline => ?_
  dsimp only
  split
  · trivial
  · refine (attemptCall_only hstatus).bind fun answer => ?_
    cases answer with
    | error error => trivial
    | ok answer => exact (attemptCall_only hbegin).bind fun _ => trivial

theorem nagCheck_only {okCall : StoreCall → Prop} {okEvent : Spawned → Prop} (now : Instant) (baseUrl : String)
    (nags : List (Int × Option Int)) (names : List (Int × String)) (tz : Option String) (globalNag : Option Int)
    (check : Check) (hremind : okCall (.recordReminder check.id now)) :
    (nagCheck now baseUrl nags names tz globalNag check).Only okCall okEvent := by
  unfold nagCheck
  split
  · trivial
  · split
    · trivial
    · split
      · trivial
      · refine (Prog.Only.orPanic _).bind fun due => ?_
        split
        · trivial
        · refine (attemptCall_only hremind).bind fun answer => ?_
          cases answer <;> trivial

/-- The calls of a scan, which spawns nothing itself. -/
theorem scanOnce_only {okCall : StoreCall → Prop} (X : Crates) (now : Instant) (baseUrl : String)
    (hnames : okCall .allProjectNames) (htz : okCall (.getSetting "display_timezone"))
    (hlist : okCall .listActiveChecks) (hstatus : ∀ id, okCall (.setStatus id .down))
    (hbegin : ∀ id, okCall (.beginDownAlert id now)) :
    (scanOnce X now baseUrl).Only okCall fun _ => False :=
  (query_only hnames).bind fun names => (displayTimezone_only htz).bind fun tz =>
    (query_only hlist).bind fun checks =>
      forChecks_only (fun check => scanCheck_only X now baseUrl names tz check (hstatus _) (hbegin _)) checks

/-- The calls of a nag pass, which spawns nothing itself. -/
theorem nagOnce_only {okCall : StoreCall → Prop} (now : Instant) (baseUrl : String)
    (hnags : okCall .allProjectNagIntervals) (hnames : okCall .allProjectNames)
    (htz : okCall (.getSetting "display_timezone")) (hglobal : okCall (.getSetting "nag_interval"))
    (hlist : okCall .listDownChecks) (hremind : ∀ id, okCall (.recordReminder id now)) :
    (nagOnce now baseUrl).Only okCall fun _ => False :=
  (query_only hnags).bind fun nags => (query_only hnames).bind fun names =>
    (displayTimezone_only htz).bind fun tz => (query_only hglobal).bind fun _ =>
      (query_only hlist).bind fun checks =>
        forChecks_only (fun check => nagCheck_only now baseUrl nags names tz _ check (hremind _)) checks

/-- The calls of a pass with its deliveries. -/
theorem pass_only {okCall : StoreCall → Prop} {once : StoreProg StoreError (List NotificationEvent)}
    (honce : once.Only okCall fun _ => False) :
    (once.bind fun events => Prog.tellAll (events.map Spawned.event)).Only okCall fun _ => True :=
  (honce.mono (fun _ hc => hc) fun _ hevent => hevent.elim).bind fun _ => Prog.Only.tellAll fun _ _ => trivial

theorem scanPass_only {okCall : StoreCall → Prop} (X : Crates) (now : Instant) (baseUrl : String)
    (hnames : okCall .allProjectNames) (htz : okCall (.getSetting "display_timezone"))
    (hlist : okCall .listActiveChecks) (hstatus : ∀ id, okCall (.setStatus id .down))
    (hbegin : ∀ id, okCall (.beginDownAlert id now)) : (scanPass X now baseUrl).Only okCall fun _ => True :=
  pass_only (scanOnce_only X now baseUrl hnames htz hlist hstatus hbegin)

theorem nagPass_only {okCall : StoreCall → Prop} (now : Instant) (baseUrl : String)
    (hnags : okCall .allProjectNagIntervals) (hnames : okCall .allProjectNames)
    (htz : okCall (.getSetting "display_timezone")) (hglobal : okCall (.getSetting "nag_interval"))
    (hlist : okCall .listDownChecks) (hremind : ∀ id, okCall (.recordReminder id now)) :
    (nagPass now baseUrl).Only okCall fun _ => True :=
  pass_only (nagOnce_only now baseUrl hnags hnames htz hglobal hlist hremind)

theorem reminderEvent_cause (check : Check) (now : Instant) (baseUrl : String) (names : List (Int × String))
    (tz : Option String) : (reminderEvent check now baseUrl names tz).detail.cause = none := by
  simp only [reminderEvent, EventDetail.withDisplayTimezone]
  split <;> rfl

/-- A pass whose rounds a `Round` describes, for one check: the check's own round, if it is listed. -/
theorem pass_refines {once : StoreProg StoreError (List NotificationEvent)} {r : Round} {db : Db} {p : Check → Bool}
    (hid : ∀ check, ∀ event ∈ r.events check, event.checkId = check.id)
    (honce : run exec once db = ⟨.ok ((db.selectChecks p).flatMap r.events),
      r.after (db.selectChecks p) db, []⟩)
    (hunlogged : once.Only (fun c => callEntry c = none) fun _ => False)
    {cid : Int} {check : Check} (hrow : db.findCheck cid = some check) :
    (run exec (once.bind fun events => Prog.tellAll (events.map Spawned.event)).erase db).state.findCheck cid =
        some (if p check then r.change check check else check) ∧
      Log.of (((calls exec (once.bind fun events => Prog.tellAll (events.map Spawned.event)).erase db).filterMap
          callEntry ++ (run exec (once.bind fun events => Prog.tellAll (events.map Spawned.event)).erase db).events.map
            eventEntry).reverse) cid =
        (if p check then (r.events check).map fun event => Item.alert event.event event.at_ event.detail.cause
          else []).reverse := by
  have hpass := run_pass honce
  have hfilter := filter_id hrow p
  refine ⟨?_, ?_⟩
  · rw [run_erase_state, hpass, Round.findCheck_after, hfilter, hrow, Option.map_some]
    split <;> rfl
  · rw [Log.of_reverse, calls_erase, filterMap_callEntry (pass_only hunlogged), List.nil_append, run_erase_events, hpass,
      Round.filter_events r hid, hfilter]
    split <;> simp

theorem scan_refines (X : Crates) (now : Instant) (baseUrl : String) {db : Db} {cid : Int} {check : Check}
    (hcompletes : Operation.Completes X (.scan now baseUrl) db) (hrow : db.findCheck cid = some check) :
    Operation.Refines X (.scan now baseUrl) db cid check := by
  have hpanic : (run exec (scanOnce X now baseUrl) db).outcome ≠ .panic := fun hpanic =>
    hcompletes rfl ((run_erase_panic exec _ _).mpr (run_bind_of_panic exec hpanic))
  rw [scanOnce_eq] at hpanic
  have honce := Round.forChecks_run (scanRound_describes X now baseUrl _ _) _ db hpanic
  have hid : ∀ check, ∀ event ∈ (scanRound X now baseUrl db.projectNames db.displayTz).events check,
      event.checkId = check.id := by
    intro check event hevent
    simp only [scanRound] at hevent
    split at hevent
    · rw [List.mem_singleton.mp hevent]
      rfl
    · cases hevent
  obtain ⟨hstate, hlog⟩ := pass_refines hid (p := fun row => row.status = .new ∨ row.status = .up)
    ((scanOnce_eq X now baseUrl db).trans honce)
    (scanOnce_only X now baseUrl rfl rfl rfl (fun _ => rfl) fun _ => rfl) hrow
  refine ⟨.scan now, rfl, hstate.trans ?_, hlog.trans ?_⟩
  · simp only [RowInput.row, scanRound, Check.isDowned, Check.isActive, Bool.and_eq_true]
    split
    · rename_i hactive
      simp [hactive]
    · rename_i hactive
      simp [hactive]
  · simp only [RowInput.items, scanRound, Check.isDowned, Check.isActive, Bool.and_eq_true]
    split
    · rename_i hactive
      simp only [hactive, true_and]
      split <;> rfl
    · rename_i hactive
      simp [hactive]

theorem nag_refines (X : Crates) (now : Instant) (baseUrl : String) {db : Db} {cid : Int} {check : Check}
    (hcompletes : Operation.Completes X (.nag now baseUrl) db) (hrow : db.findCheck cid = some check) :
    Operation.Refines X (.nag now baseUrl) db cid check := by
  have hpanic : (run exec (nagOnce now baseUrl) db).outcome ≠ .panic := fun hpanic =>
    hcompletes rfl ((run_erase_panic exec _ _).mpr (run_bind_of_panic exec hpanic))
  rw [nagOnce_eq] at hpanic
  have honce := Round.forChecks_run (nagRound_describes now baseUrl _ _ _ _) _ db hpanic
  have hid : ∀ check, ∀ event ∈ (nagRound now baseUrl db.projectNags db.projectNames db.displayTz
      db.globalNag).events check, event.checkId = check.id := by
    intro check event hevent
    simp only [nagRound] at hevent
    split at hevent
    · rw [List.mem_singleton.mp hevent]
      rfl
    · cases hevent
  obtain ⟨hstate, hlog⟩ := pass_refines hid (p := fun row => row.status = .down)
    ((nagOnce_eq now baseUrl db).trans honce) (nagOnce_only now baseUrl rfl rfl rfl rfl rfl fun _ => rfl) hrow
  have hdue : check.isReminded (db.nagInterval check) now =
      (decide (check.status = .down) && nagDue now db.projectNags db.globalNag check) := by
    simp only [Check.isReminded, nagDue, Db.nagInterval, Bool.and_assoc]
  refine ⟨.nag (db.nagInterval check) now, rfl, hstate.trans ?_, hlog.trans ?_⟩
  · simp only [RowInput.row, nagRound, hdue, Bool.and_eq_true]
    split
    · rename_i hdown
      simp [hdown]
    · rename_i hdown
      simp [hdown]
  · simp only [RowInput.items, nagRound, hdue, Bool.and_eq_true]
    split
    · rename_i hdown
      simp only [hdown, true_and]
      split
      · rw [List.map_singleton, List.reverse_singleton, reminderEvent_cause]
        rfl
      · rfl
    · rename_i hdown
      simp [hdown]

/-! ### Passes that panic -/

/-- A check that was there is there, and Down if it was. -/
def Db.KeepsDown (cid : Int) (before after : Db) : Prop :=
  ∀ check, before.findCheck cid = some check →
    ∃ check', after.findCheck cid = some check' ∧ (check.status = .down → check'.status = .down)

theorem Db.KeepsDown.refl (cid : Int) (db : Db) : db.KeepsDown cid db := fun check hrow => ⟨check, hrow, id⟩

theorem Db.KeepsDown.trans {cid : Int} {a b c : Db} (hab : a.KeepsDown cid b) (hbc : b.KeepsDown cid c) :
    a.KeepsDown cid c := by
  intro check hrow
  obtain ⟨middle, hmiddle, hdown⟩ := hab check hrow
  obtain ⟨last, hlast, hdown'⟩ := hbc middle hmiddle
  exact ⟨last, hlast, fun h => hdown' (hdown h)⟩

theorem keepsDown_updateCheck (db : Db) (id cid : Int) {f : Check → Check} (hid : ∀ row, (f row).id = row.id)
    (hdown : ∀ row, row.status = .down → (f row).status = .down) : db.KeepsDown cid (db.updateCheck id f hid) := by
  intro check hrow
  by_cases hsame : cid = id
  · subst hsame
    exact ⟨f check, by rw [findCheck_updateCheck_self, hrow, Option.map_some], hdown check⟩
  · exact ⟨check, by rw [findCheck_updateCheck_of_ne db hsame, hrow], fun h => h⟩

/-- A call of a pass: it leaves no entry in the log, and no check of it leaves Down. -/
def PassCall (c : StoreCall) : Prop := callEntry c = none ∧ ∀ cid (db : Db), db.KeepsDown cid (exec c db).2

theorem PassCall.of_read {c : StoreCall} (hentry : callEntry c = none) (hreads : ∀ db, (exec c db).2 = db) : PassCall c :=
  ⟨hentry, fun cid db => by rw [hreads]; exact .refl cid db⟩

theorem scanOnce_calls (X : Crates) (now : Instant) (baseUrl : String) :
    (scanOnce X now baseUrl).Only PassCall fun _ => False :=
  scanOnce_only X now baseUrl (.of_read rfl fun _ => rfl) (.of_read rfl fun _ => rfl) (.of_read rfl fun _ => rfl)
    (fun id => ⟨rfl, fun cid db => keepsDown_updateCheck db id cid _ fun _ _ => rfl⟩)
    fun id => ⟨rfl, fun cid db => keepsDown_updateCheck db id cid _ fun _ hdown => hdown⟩

theorem nagOnce_calls (now : Instant) (baseUrl : String) : (nagOnce now baseUrl).Only PassCall fun _ => False :=
  nagOnce_only now baseUrl (.of_read rfl fun _ => rfl) (.of_read rfl fun _ => rfl) (.of_read rfl fun _ => rfl)
    (.of_read rfl fun _ => rfl) (.of_read rfl fun _ => rfl)
    fun id => ⟨rfl, fun cid db => keepsDown_updateCheck db id cid _ fun _ hdown => hdown⟩

/-- A pass that panics spawns none of the deliveries it has collected. -/
theorem pass_panic {once : StoreProg StoreError (List NotificationEvent)} (honce : once.Only PassCall fun _ => False)
    {db : Db} (hpanic : (run exec (once.bind fun events => Prog.tellAll (events.map Spawned.event)).erase db).outcome =
      .panic) :
    (calls exec (once.bind fun events => Prog.tellAll (events.map Spawned.event)).erase db).filterMap callEntry = [] ∧
      (run exec (once.bind fun events => Prog.tellAll (events.map Spawned.event)).erase db).events = [] ∧
      ∀ cid, db.KeepsDown cid
        (run exec (once.bind fun events => Prog.tellAll (events.map Spawned.event)).erase db).state := by
  have honly := pass_only honce
  refine ⟨?_, ?_, fun cid => ?_⟩
  · rw [calls_erase]
    exact filterMap_callEntry (honly.mono (fun _ hc => hc.1) fun _ hevent => hevent) db
  · rw [run_erase_panic, run_bind, Ran.andThen] at hpanic
    rw [run_erase_events, run_bind, Ran.andThen]
    have hnone : (run exec once db).events = [] := List.eq_nil_iff_forall_not_mem.mpr (honce.events exec db)
    cases hfirst : (run exec once db).outcome with
    | ok events =>
        rw [hfirst] at hpanic
        dsimp only at hpanic
        rw [run_tellAll] at hpanic
        cases hpanic
    | fail error => exact hnone
    | panic => exact hnone
  · rw [run_erase_state]
    exact honly.run_rel exec (Db.KeepsDown cid) (.refl cid) (fun _ _ _ => .trans) (fun c hc db => hc.2 cid db) db

/-- An operation that does not run to its end is a pass that panics: nothing of it is logged, and no check leaves Down. -/
theorem aborted_pass {X : Crates} {op : Operation} {db : Db} (haborts : ¬op.Completes X db) (cid : Int) :
    (op.log X db).of cid = [] ∧ db.KeepsDown cid (op.after X db) := by
  unfold Operation.Completes at haborts
  push Not at haborts
  obtain ⟨hpass, hpanic⟩ := haborts
  cases op with
  | scan now baseUrl =>
      obtain ⟨hcalls, hevents, hkeeps⟩ := pass_panic (scanOnce_calls X now baseUrl) hpanic
      refine ⟨?_, hkeeps cid⟩
      exact congrArg (Log.of · cid) (congrArg List.reverse (congrArg₂ (· ++ ·.map eventEntry) hcalls hevents))
  | nag now baseUrl =>
      obtain ⟨hcalls, hevents, hkeeps⟩ := pass_panic (nagOnce_calls now baseUrl) hpanic
      refine ⟨?_, hkeeps cid⟩
      exact congrArg (Log.of · cid) (congrArg List.reverse (congrArg₂ (· ++ ·.map eventEntry) hcalls hevents))
  | ping route uuid body clientIp now => cases hpass
  | web ctx id action => cases hpass
  | admin ctx id action => cases hpass
  | api ctx id action => cases hpass

end Pingward
