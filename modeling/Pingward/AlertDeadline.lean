import Pingward.DeadlineBasic
import Pingward.RowRequest

/-! When a scan pass takes a check down. The columns a deadline is computed from are the last finish and
the last start of the check's ping history, so the pass goes by that history. -/

open KeyedTable StoreProgram

namespace Pingward

/-! ### Deadlines of a ping history -/

/-- The instant of the last success or fail ping. -/
def lastFinish : List Item → Option Instant
  | .ping .success now :: _ => some now
  | .ping .fail now :: _ => some now
  | _ :: older => lastFinish older
  | [] => none

/-- The instant of the last start ping. -/
def lastStart : List Item → Option Instant
  | .ping .start now :: _ => some now
  | _ :: older => lastStart older
  | [] => none

/-- The deadline after the last finish, or after the creation, has come. -/
def Overdue (X : Crates) (check : Check) (history : List Item) (now : Instant) : Prop :=
  ∃ due, checkInBy X check ((lastFinish history).getD check.createdAt) = some due ∧ due ≤ now

/-- A run that started after the last finish is over its maximal length. -/
def Overran (check : Check) (history : List Item) (now : Instant) : Prop :=
  ∃ limit begun, check.maxRuntimeSecs = some limit ∧ 0 < limit ∧ lastStart history = some begun ∧
    (∀ finish, lastFinish history = some finish → finish < begun) ∧ begun + limit * nanosPerSec ≤ now

/-- The check is in service and late. -/
def Late (X : Crates) (check : Check) (history : List Item) (now : Instant) : Prop :=
  (check.status = .new ∨ check.status = .up) ∧ (Overdue X check history now ∨ Overran check history now)

/-! ### The columns keep the history -/

/-- The columns of a monitored check are those of its ping history. -/
structure DeadlineInv (check : Check) (history : List Item) : Prop where
  finish : check.lastPingAt = lastFinish history
  begun : check.lastStartAt = lastStart history
  active : check.status ≠ .paused

namespace DeadlineInv

variable {check : Check} {history : List Item}

theorem fresh (hfresh : check.Fresh) : DeadlineInv check [] :=
  ⟨hfresh.lastPingAt, hfresh.lastStartAt, by simp [hfresh.status]⟩

theorem ping (X : Crates) (hinv : DeadlineInv check history) (kind : PingKind) (exitCode : Option Int) (now : Instant) :
    DeadlineInv (RowInput.row X (.ping kind exitCode now) check)
      (RowInput.items X (.ping kind exitCode now) check ++ history) := by
  cases kind with
  | success =>
      cases hstatus : check.status <;>
        refine ⟨?_, ?_, ?_⟩ <;>
          simp [RowInput.row, RowInput.items, RowInput.pinged, hstatus, pingAlert, PingMark.ofPing, PingMark.apply,
            Check.cleared, lastFinish, lastStart, hinv.begun]
  | fail =>
      cases hstatus : check.status <;>
        refine ⟨?_, ?_, ?_⟩ <;>
          simp [RowInput.row, RowInput.items, RowInput.pinged, hstatus, pingAlert, PingMark.ofPing, PingMark.apply,
            Check.alerted, lastFinish, lastStart, hinv.begun]
  | start =>
      exact ⟨hinv.finish, rfl, hinv.active⟩
  | log => exact ⟨hinv.finish, hinv.begun, hinv.active⟩
  | exitcode => exact ⟨hinv.finish, hinv.begun, hinv.active⟩

theorem scan (X : Crates) (hinv : DeadlineInv check history) (now : Instant) :
    DeadlineInv (RowInput.row X (.scan now) check) (RowInput.items X (.scan now) check ++ history) := by
  simp only [RowInput.row, RowInput.items]
  split
  · exact ⟨hinv.finish, hinv.begun, by simp [Check.alerted]⟩
  · exact hinv

/-- With its sums in range, the scan's first comparison is the one of the history. -/
theorem isOverdue_iff {X : Crates} (hinv : DeadlineInv check history) {due : Option Instant}
    (hdue : dueTime X check = .ok due) (now : Instant) :
    check.isOverdue X now = true ↔ Overdue X check history now := by
  have hanchor : anchor check = (lastFinish history).getD check.createdAt := by rw [anchor, hinv.finish]
  have heq := (dueTime_eq_ok_iff.mp hdue).2
  rw [hanchor] at heq
  simp [Check.isOverdue, hdue, Except.toOption, hasPassed, Overdue, heq, Option.any_eq_true]

theorem finishBy_eq_some_iff {deadline : Instant} :
    finishBy check = some deadline ↔
      ∃ limit begun, check.maxRuntimeSecs = some limit ∧ 0 < limit ∧ check.lastStartAt = some begun ∧
        (∀ finish, check.lastPingAt = some finish → finish < begun) ∧ begun + limit * nanosPerSec = deadline := by
  unfold finishBy
  rw [Option.bind_eq_some_iff]
  constructor
  · rintro ⟨limit, hlimit, hrest⟩
    split at hrest
    · cases hrest
    · rename_i hpos
      rw [Option.bind_eq_some_iff] at hrest
      obtain ⟨begun, hbegun, hrest⟩ := hrest
      split at hrest
      · rename_i hflight
        refine ⟨limit, begun, hlimit, by omega, hbegun, ?_, Option.some.inj hrest⟩
        intro finish hfinish
        simpa [hfinish] using hflight
      · cases hrest
  · rintro ⟨limit, begun, hlimit, hpos, hbegun, hflight, rfl⟩
    refine ⟨limit, hlimit, ?_⟩
    rw [if_neg (by omega), hbegun, Option.bind_some, if_pos]
    cases hfinish : check.lastPingAt with
    | none => rfl
    | some finish => simpa using hflight finish hfinish

/-- So is the second. -/
theorem isOverrun_iff (hinv : DeadlineInv check history) {deadline : Option Instant}
    (hdeadline : overrunTime check = .ok deadline) (now : Instant) :
    check.isOverrun now = true ↔ Overran check history now := by
  have heq := (overrunTime_eq_ok_iff.mp hdeadline).2
  simp only [Check.isOverrun, hdeadline, Except.toOption, Option.join_some, hasPassed, ← heq, Option.any_eq_true,
    decide_eq_true_eq, finishBy_eq_some_iff, hinv.finish, hinv.begun, Overran]
  constructor
  · rintro ⟨_, ⟨limit, begun, hlimit, hpos, hbegun, hflight, rfl⟩, hle⟩
    exact ⟨limit, begun, hlimit, hpos, hbegun, hflight, hle⟩
  · rintro ⟨limit, begun, hlimit, hpos, hbegun, hflight, hle⟩
    exact ⟨_, ⟨limit, begun, hlimit, hpos, hbegun, hflight, rfl⟩, hle⟩

/-- The cause names the run exactly when there is one that is over. -/
theorem downCause_overrun_iff (now : Instant) :
    (∃ limit begun, downCause (check.isOverrun now) check = .overrun limit begun) ↔ check.isOverrun now = true := by
  constructor
  · rintro ⟨limit, begun, hcause⟩
    unfold downCause at hcause
    split at hcause
    · rename_i hoverrun _ _
      exact hoverrun
    · cases hcause
  · intro hoverrun
    have hpassed := hoverrun
    simp only [Check.isOverrun, hasPassed, Option.any_eq_true] at hpassed
    obtain ⟨deadline, hdeadline, _⟩ := hpassed
    have hok : overrunTime check = .ok (some deadline) := by
      cases hrun : overrunTime check with
      | error panic => simp [hrun, Except.toOption] at hdeadline
      | ok found => simpa [hrun, Except.toOption] using hdeadline
    obtain ⟨limit, begun, hlimit, _, hbegun, _⟩ := finishBy_eq_some_iff.mp (overrunTime_eq_ok_iff.mp hok).2
    exact ⟨limit, begun, by simp only [downCause, hoverrun, hlimit, hbegun]⟩

/-- The scan downs exactly the late checks. -/
theorem isDowned_iff {X : Crates} (hinv : DeadlineInv check history)
    (hrange : check.isActive = true → (∃ due, dueTime X check = .ok due) ∧ ∃ deadline, overrunTime check = .ok deadline)
    (now : Instant) : check.isDowned X now = true ↔ Late X check history now := by
  rw [Check.isDowned, Bool.and_eq_true, Bool.or_eq_true, Late, ← Check.isActive_iff]
  refine and_congr_right fun hactive => ?_
  obtain ⟨⟨due, hdue⟩, deadline, hdeadline⟩ := hrange hactive
  rw [hinv.isOverdue_iff hdue, hinv.isOverrun_iff hdeadline]

end DeadlineInv

/-! ### Runs of pings and scans -/

/-- A ping or a scan that runs to its end. -/
def Monitoring (X : Crates) (db : Db) (op : Operation) : Prop :=
  (op.ran X db).outcome ≠ .panic ∧
    match op with
    | .ping _ _ _ _ _ => True
    | .scan _ _ => True
    | _ => False

theorem Monitoring.gives {X : Crates} {db : Db} {op : Operation} {check : Check} {input : RowInput}
    (hmonitoring : Monitoring X db op) (hgives : op.Gives X db check input) (hactive : check.status ≠ .paused) :
    input = .idle ∨ (∃ kind exitCode now, input = .ping kind exitCode now) ∨ ∃ now, input = .scan now := by
  cases op with
  | ping route uuid body clientIp now =>
      have hpanic : (run exec (apply X (route.request uuid body clientIp) now) db).outcome ≠ .panic := fun hpanic =>
        hmonitoring.1 ((run_erase_panic exec _ _).mpr hpanic)
      simp only [Operation.Gives, hactive, hpanic, or_self, if_false] at hgives
      split at hgives
      · exact Or.inr (Or.inl ⟨_, _, _, hgives⟩)
      · exact Or.inl hgives
  | scan now baseUrl => exact Or.inr (Or.inr ⟨now, hgives⟩)
  | nag now baseUrl => exact hmonitoring.2.elim
  | web ctx id action => exact hmonitoring.2.elim
  | admin ctx id action => exact hmonitoring.2.elim
  | api ctx id action => exact hmonitoring.2.elim

theorem Monitoring.completes {X : Crates} {db : Db} {op : Operation} (hmonitoring : Monitoring X db op) :
    op.Completes X db := fun _ => hmonitoring.1

/-- Neither a ping nor a scan adds a check. -/
theorem Monitoring.findCheck_none {X : Crates} {db : Db} {op : Operation} {cid : Int}
    (hmonitoring : Monitoring X db op) (hnone : db.findCheck cid = none) : (op.after X db).findCheck cid = none := by
  cases op with
  | ping route uuid body clientIp now =>
      have hafter : Operation.after X (.ping route uuid body clientIp now) db =
          (run exec (apply X (route.request uuid body clientIp) now) db).state := run_erase_state exec _ _
      rw [hafter]
      cases hfound : db.findCheckByUuid (route.request uuid body clientIp).uuid with
      | none =>
          rw [(apply_notFound now hfound).1]
          exact hnone
      | some found =>
          obtain ⟨_, _, _, hothers, _⟩ := apply_cases X now hfound
          have hne : cid ≠ found.id := by
            rintro rfl
            rw [findCheck_of_uuid hfound] at hnone
            cases hnone
          rw [hothers cid hne, hnone]
  | scan now baseUrl =>
      have hpanic : (run exec (scanOnce X now baseUrl) db).outcome ≠ .panic := fun hpanic =>
        hmonitoring.1 ((run_erase_panic exec _ _).mpr (run_bind_of_panic exec hpanic))
      have honce := (scanOnce_eq X now baseUrl db).trans
        (Round.forChecks_run (scanRound_describes X now baseUrl _ _) _ db (scanOnce_eq X now baseUrl db ▸ hpanic))
      have hafter : Operation.after X (.scan now baseUrl) db = (run exec (scanPass X now baseUrl) db).state :=
        run_erase_state exec _ _
      rw [hafter, scanPass, Prog.bind_eq, run_pass honce, Round.findCheck_after, hnone]
      rfl
  | nag now baseUrl => exact hmonitoring.2.elim
  | web ctx id action => exact hmonitoring.2.elim
  | admin ctx id action => exact hmonitoring.2.elim
  | api ctx id action => exact hmonitoring.2.elim

theorem monitoring_findCheck_none {X : Crates} {start db : Db} {log : Log} {cid : Int}
    (hnone : start.findCheck cid = none) (hreach : Reached X (Monitoring X) start db log) : db.findCheck cid = none := by
  induction hreach with
  | start => exact hnone
  | step op before hallowed ih => exact hallowed.findCheck_none ih

/-- Along a run of pings and scans from fresh checks, the columns of every check are those of its
history. -/
theorem monitoring_deadlineInv {X : Crates} {start db : Db} {log : Log}
    (hfresh : ∀ check ∈ start.checks.rows, check.Fresh) (hreach : Reached X (Monitoring X) start db log) {cid : Int}
    {check : Check} (hrow : db.findCheck cid = some check) : DeadlineInv check (log.of cid) := by
  cases hstart : start.findCheck cid with
  | none =>
      rw [monitoring_findCheck_none hstart hreach] at hrow
      cases hrow
  | some created =>
      obtain ⟨check', hrow', hinv⟩ := hreach.row_invariant DeadlineInv
        ⟨created, hstart, .fresh (hfresh created (Table.find_mem _ hstart))⟩ (fun _ _ hallowed => hallowed.completes)
        (by
          intro db log op check input _ hallowed hrow hgives hinv
          rcases hallowed.gives hgives hinv.active with rfl | ⟨kind, exitCode, now, rfl⟩ | ⟨now, rfl⟩
          · exact hinv
          · exact hinv.ping X kind exitCode now
          · exact hinv.scan X now)
      rw [hrow, Option.some.injEq] at hrow'
      rw [hrow']
      exact hinv

/-! ### The scan pass -/

section Pass

variable {X : Crates} {now : Instant} {baseUrl : String} {db : Db}

/-- What a pass that completes answers and leaves behind. -/
theorem scanOnce_run (hcompletes : Operation.Completes X (.scan now baseUrl) db) :
    run exec (scanOnce X now baseUrl) db =
      ⟨.ok (db.listActiveChecks.flatMap (scanRound X now baseUrl db.projectNames db.displayTz).events),
        (scanRound X now baseUrl db.projectNames db.displayTz).after db.listActiveChecks db, []⟩ := by
  rw [scanOnce_eq]
  apply Round.forChecks_run (scanRound_describes X now baseUrl _ _) _ db
  rw [← scanOnce_eq]
  exact fun hpanic => hcompletes rfl ((run_erase_panic exec _ _).mpr (run_bind_of_panic exec hpanic))

/-- In a pass that completes, the deadlines of the checks in service are in range. -/
theorem scan_inRange (hcompletes : Operation.Completes X (.scan now baseUrl) db) {check : Check}
    (hmem : check ∈ db.listActiveChecks) :
    (∃ due, dueTime X check = .ok due) ∧ ∃ deadline, overrunTime check = .ok deadline := by
  by_contra hbad
  have hpanic : (run exec (scanOnce X now baseUrl) db).outcome = .panic := by
    rw [scanOnce_eq, Round.forChecks_panic_iff (scanRound_describes X now baseUrl _ _)
      (scanCheck_panic_iff X now baseUrl _ _)]
    exact ⟨check, hmem, hbad⟩
  rw [scanOnce_run hcompletes] at hpanic
  cases hpanic

theorem mem_listActiveChecks {cid : Int} {check : Check} (hrow : db.findCheck cid = some check) :
    check ∈ db.listActiveChecks ↔ check.isActive = true := by
  simp [Db.listActiveChecks, Db.mem_selectChecks, Check.isActive, Table.find_mem _ hrow]

theorem scanRound_events (X : Crates) (now : Instant) (baseUrl : String) (names : List (Int × String)) (tz : Option String)
    (check : Check) :
    ((scanRound X now baseUrl names tz).events check).map NotificationEvent.checkId =
      if check.isOverdue X now || check.isOverrun now then [check.id] else [] := by
  simp only [scanRound]
  split <;> rfl

/-- The events of a pass are about the checks it downs, each once. -/
theorem scan_event_ids (names : List (Int × String)) (tz : Option String) :
    ((db.listActiveChecks.flatMap (scanRound X now baseUrl names tz).events).map NotificationEvent.checkId).Perm
      ((db.checks.rows.filter fun check => check.isDowned X now).map Check.id) := by
  have hgeneral : ∀ rows : List Check,
      ((rows.filter Check.isActive).flatMap (scanRound X now baseUrl names tz).events).map NotificationEvent.checkId =
        (rows.filter fun check => check.isDowned X now).map Check.id := by
    intro rows
    induction rows with
    | nil => rfl
    | cons check rest ih =>
        simp only [List.filter_cons, Check.isDowned]
        by_cases hactive : check.isActive = true
        · simp only [hactive, if_true, List.flatMap_cons, List.map_append, scanRound_events, ih, Bool.true_and]
          split <;> rfl
        · simp only [hactive, Bool.false_eq_true, if_false, Bool.false_and, ih]
          rfl
  rw [← hgeneral db.checks.rows]
  exact ((db.rowOrder.perm _).flatMap_right _).map _

/-- What is in service after a pass was so before it, and is not late. -/
theorem active_after_scan (hcompletes : Operation.Completes X (.scan now baseUrl) db) {check : Check}
    (hmem : check ∈ (Operation.after X (.scan now baseUrl) db).listActiveChecks) :
    check ∈ db.listActiveChecks ∧ check.isDowned X now = false := by
  obtain ⟨hrows, hactive⟩ := Db.mem_selectChecks.mp hmem
  have hafter : (Operation.after X (.scan now baseUrl) db).findCheck check.id = some check :=
    (Table.find_eq_some_iff _).mpr ⟨hrows, rfl⟩
  cases hrow : db.findCheck check.id with
  | none =>
      have hmonitoring : Monitoring X db (.scan now baseUrl) := ⟨hcompletes rfl, trivial⟩
      rw [hmonitoring.findCheck_none hrow] at hafter
      cases hafter
  | some before =>
      obtain ⟨input, rfl, hscanned, _⟩ := scan_refines X now baseUrl hcompletes hrow
      rw [hafter, Option.some.injEq, RowInput.row] at hscanned
      by_cases hdowned : before.isDowned X now = true
      · rw [if_pos hdowned] at hscanned
        rw [hscanned] at hactive
        simp [Check.alerted] at hactive
      · rw [if_neg hdowned] at hscanned
        subst hscanned
        exact ⟨(mem_listActiveChecks hrow).mpr hactive, by simpa using hdowned⟩

/-- A second pass at the same instant has nothing to do. -/
theorem scan_again (baseUrl' : String) (hcompletes : Operation.Completes X (.scan now baseUrl) db) :
    (run exec (scanOnce X now baseUrl') (Operation.after X (.scan now baseUrl) db)).outcome = .ok [] := by
  have hpanic : (run exec (scanOnce X now baseUrl') (Operation.after X (.scan now baseUrl) db)).outcome ≠ .panic := by
    rw [scanOnce_eq, ne_eq, Round.forChecks_panic_iff (scanRound_describes X now baseUrl' _ _)
      (scanCheck_panic_iff X now baseUrl' _ _)]
    rintro ⟨check, hmem, hbad⟩
    exact hbad (scan_inRange hcompletes (active_after_scan hcompletes hmem).1)
  rw [scanOnce_eq] at hpanic ⊢
  rw [Round.forChecks_run (scanRound_describes X now baseUrl' _ _) _ _ hpanic, Outcome.ok.injEq, List.flatMap_eq_nil_iff]
  intro check hmem
  obtain ⟨hbefore, hdowned⟩ := active_after_scan hcompletes hmem
  have hactive : check.isActive = true := (Db.mem_selectChecks.mp hbefore).2
  simp only [Check.isDowned, hactive, Bool.true_and] at hdowned
  simpa [scanRound] using hdowned

end Pass

/-- **Deadline law.** After any sequential run of pings and scans over fresh checks, a scan pass downs
exactly the late checks: each with one Down event, whose cause is an overrun exactly when its run is
overdue, and every other row is left as it was. The events are about the downed checks, each once, and
a second pass at the same instant has none. -/
theorem deadline_law (X : Crates) {start db : Db} {log : Log} (hfresh : ∀ check ∈ start.checks.rows, check.Fresh)
    (hreach : Reached X (Monitoring X) start db log) (now : Instant) (baseUrl : String)
    (hcompletes : Operation.Completes X (.scan now baseUrl) db) :
    (∀ cid check, db.findCheck cid = some check →
      (Late X check (log.of cid) now ∧
          (∃ cause, (Operation.log X (.scan now baseUrl) db).of cid = [.alert .down now (some cause)] ∧
            ((∃ limit begun, cause = .overrun limit begun) ↔ Overran check (log.of cid) now)) ∧
          ∃ downed, (Operation.after X (.scan now baseUrl) db).findCheck cid = some downed ∧ downed.status = .down) ∨
        ¬Late X check (log.of cid) now ∧ (Operation.log X (.scan now baseUrl) db).of cid = [] ∧
          (Operation.after X (.scan now baseUrl) db).findCheck cid = some check) ∧
    (∃ events, (run exec (scanOnce X now baseUrl) db).outcome = .ok events ∧
      (events.map NotificationEvent.checkId).Nodup ∧
      ∀ cid, cid ∈ events.map NotificationEvent.checkId ↔
        ∃ check, db.findCheck cid = some check ∧ Late X check (log.of cid) now) ∧
    ∀ baseUrl', (run exec (scanOnce X now baseUrl') (Operation.after X (.scan now baseUrl) db)).outcome = .ok [] := by
  have hrange {cid : Int} {check : Check} (hrow : db.findCheck cid = some check) (hactive : check.isActive = true) :=
    scan_inRange hcompletes ((mem_listActiveChecks hrow).mpr hactive)
  have hlate {cid : Int} {check : Check} (hrow : db.findCheck cid = some check) :
      check.isDowned X now = true ↔ Late X check (log.of cid) now :=
    (monitoring_deadlineInv hfresh hreach hrow).isDowned_iff (hrange hrow) now
  refine ⟨?_, ?_, fun baseUrl' => scan_again baseUrl' hcompletes⟩
  · intro cid check hrow
    obtain ⟨input, rfl, hafter, hlog⟩ := scan_refines X now baseUrl hcompletes hrow
    simp only [RowInput.row, RowInput.items] at hafter hlog
    by_cases hdowned : check.isDowned X now = true
    · rw [if_pos hdowned] at hafter hlog
      refine Or.inl ⟨(hlate hrow).mp hdowned, ⟨_, hlog, ?_⟩, _, hafter, rfl⟩
      obtain ⟨_, deadline, hdeadline⟩ := hrange hrow (by simp_all [Check.isDowned])
      rw [DeadlineInv.downCause_overrun_iff, (monitoring_deadlineInv hfresh hreach hrow).isOverrun_iff hdeadline]
    · rw [if_neg hdowned] at hafter hlog
      exact Or.inr ⟨fun h => hdowned ((hlate hrow).mpr h), hlog, hafter⟩
  · refine ⟨_, congrArg Ran.outcome (scanOnce_run hcompletes), ?_, ?_⟩
    · rw [(scan_event_ids _ _).nodup_iff]
      exact db.checks.nodup.sublist (List.filter_sublist.map _)
    · intro cid
      rw [(scan_event_ids _ _).mem_iff, List.mem_map]
      constructor
      · rintro ⟨check, hmem, rfl⟩
        obtain ⟨hrows, hdowned⟩ := List.mem_filter.mp hmem
        have hrow : db.findCheck check.id = some check := (Table.find_eq_some_iff _).mpr ⟨hrows, rfl⟩
        exact ⟨check, hrow, (hlate hrow).mp hdowned⟩
      · rintro ⟨check, hrow, h⟩
        exact ⟨check, List.mem_filter.mpr ⟨Table.find_mem _ hrow, (hlate hrow).mpr h⟩, Table.find_key _ hrow⟩

/-- A check with a period of a minute, scanned at the minute. -/
theorem deadline_law_sample :
    Late plainCrates (NewCheck.row ⟨1, "backup", "", "u1", .period, some 60, 0, none, "UTC", none, none, none⟩ 0 1) []
        (60 * nanosPerSec) ∧
      ∃ cause, (Operation.log plainCrates (.scan (60 * nanosPerSec) "") .sample).of 1 =
        [.alert .down (60 * nanosPerSec) (some cause)] := by
  have hlate : Late plainCrates
      (NewCheck.row ⟨1, "backup", "", "u1", .period, some 60, 0, none, "UTC", none, none, none⟩ 0 1) []
      (60 * nanosPerSec) := ⟨Or.inl rfl, Or.inl ⟨60 * nanosPerSec, rfl, le_refl _⟩⟩
  have hfresh : ∀ check ∈ Db.sample.checks.rows, check.Fresh := by
    intro check hcheck
    rw [List.mem_singleton.mp hcheck]
    exact NewCheck.row_fresh _ _ _
  obtain ⟨hpass, _⟩ := deadline_law plainCrates hfresh .start (60 * nanosPerSec) "" (fun _ => by decide +kernel)
  refine ⟨hlate, ?_⟩
  rcases hpass 1 _ rfl with ⟨_, ⟨cause, hlog, _⟩, _⟩ | ⟨hnot, _⟩
  · exact ⟨cause, hlog⟩
  · exact absurd hlate hnot

end Pingward
