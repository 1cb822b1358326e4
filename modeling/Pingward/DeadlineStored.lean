import Pingward.RowRequest
import Pingward.DeadlineBasic

/-! The deadline a check's row carries. A success ping stamps it, `due_time` computes it anew for every scan,
and the page decides by the stamped one whether a check is late. The two are the same as long as no edit
moves the deadline of a check that is up, and as long as the deadline has a four-digit year. -/

open KeyedTable StoreProgram

namespace Pingward

variable {X : Crates}

/-! ### Rows -/

/-- The stamped deadline is the one `due_time` computes, and is read back as it was written. -/
structure Check.Stamped (X : Crates) (check : Check) : Prop where
  due : dueTime X check = .ok check.nextDueAt
  stored : check.nextDueAt.bind storedInstant = check.nextDueAt

/-- Every check that is up carries its deadline. -/
def Db.Stamped (X : Crates) (db : Db) : Prop :=
  ∀ cid check, db.findCheck cid = some check → check.status = .up → check.Stamped X

/-- The columns `due_time` reads. -/
structure Check.SameDue (before after : Check) : Prop where
  kind : after.scheduleKind = before.scheduleKind
  periodSecs : after.periodSecs = before.periodSecs
  graceSecs : after.graceSecs = before.graceSecs
  cronExpr : after.cronExpr = before.cronExpr
  timezone : after.timezone = before.timezone
  lastPingAt : after.lastPingAt = before.lastPingAt
  createdAt : after.createdAt = before.createdAt

theorem Check.SameDue.dueTime_eq {before after : Check} (hsame : before.SameDue after) :
    dueTime X after = dueTime X before := by
  unfold dueTime anchor
  rw [hsame.kind, hsame.periodSecs, hsame.graceSecs, hsame.cronExpr, hsame.timezone, hsame.lastPingAt, hsame.createdAt]

/-- A write that leaves the deadline and its columns alone. -/
theorem Check.Stamped.same {before after : Check} (hstamped : before.Stamped X) (hsame : before.SameDue after)
    (hdue : after.nextDueAt = before.nextDueAt) : after.Stamped X := by
  refine ⟨?_, ?_⟩
  · rw [hsame.dueTime_eq, hdue]
    exact hstamped.due
  · rw [hdue]
    exact hstamped.stored

/-! ### Calls -/

/-- The calls that write the deadline, one of its columns, or the status `up`. -/
def StoreCall.stamps : StoreCall → Bool
  | .markPing _ _ => true
  | .updateCheckSchedule _ _ => true
  | .setStatus _ status => status = .up
  | _ => false

theorem stamps_of_writes {c : StoreCall} (hc : .checks ∉ c.writes) : c.stamps = false := by
  cases c <;> first | rfl | exact absurd (by simp [StoreCall.writes]) hc

theorem Quiet.stamps {c : StoreCall} (hquiet : Quiet c) : c.stamps = false := stamps_of_writes hquiet.1

/-- An update of one row. -/
theorem Db.Stamped.updateCheck {db : Db} (hdb : db.Stamped X) {id : Int} {f : Check → Check}
    {hid : ∀ row, (f row).id = row.id}
    (hrow : ∀ check, db.findCheck id = some check → (check.status = .up → check.Stamped X) →
      (f check).status = .up → (f check).Stamped X) : (db.updateCheck id f hid).Stamped X := by
  intro cid check hfind hup
  by_cases hcid : cid = id
  · subst hcid
    rw [findCheck_updateCheck_self, Option.map_eq_some_iff] at hfind
    obtain ⟨before, hbefore, rfl⟩ := hfind
    exact hrow before hbefore (hdb cid before hbefore) hup
  · rw [findCheck_updateCheck_of_ne db hcid] at hfind
    exact hdb cid check hfind hup

theorem Db.Stamped.deleteChecksWhere {db : Db} (hdb : db.Stamped X) (p : Check → Bool) :
    (db.deleteChecksWhere p).Stamped X := by
  intro cid check hfind hup
  have hdeleted : (db.deleteChecksWhere p).findCheck cid = (db.findCheck cid).filter fun row => !p row :=
    Table.find_deleteWhere _ p cid
  rw [hdeleted, Option.filter_eq_some_iff] at hfind
  exact hdb cid check hfind.1 hup

theorem Db.Stamped.createCheck {db : Db} (hdb : db.Stamped X) (new : NewCheck) (now : Instant) :
    (exec (.createCheck new now) db).2.Stamped X := by
  intro cid check hfind hup
  simp only [exec, Db.createCheck] at hfind
  split at hfind
  · exact hdb cid check hfind hup
  · split at hfind
    · exact hdb cid check hfind hup
    · have hinserted := (AutoTable.find_insert db.checks (new.row now) (fun _ => rfl) cid).symm.trans hfind
      split at hinserted
      · rw [Option.some.injEq] at hinserted
        rw [← hinserted] at hup
        cases hup
      · exact hdb cid check hinserted hup

/-- **Every other call** keeps the stamped deadlines. -/
theorem exec_stamped {c : StoreCall} (hc : c.stamps = false) {db : Db} (hdb : db.Stamped X) :
    (exec c db).2.Stamped X := by
  by_cases hwrites : .checks ∈ c.writes
  · cases c
    case markPing => cases hc
    case updateCheckSchedule => cases hc
    case setStatus id status =>
      refine hdb.updateCheck fun check _ _ hup => ?_
      have hnot : status ≠ .up := by simpa [StoreCall.stamps] using hc
      exact absurd hup hnot
    case beginDownAlert id at_ =>
      exact hdb.updateCheck fun check _ hbefore hup => (hbefore hup).same ⟨rfl, rfl, rfl, rfl, rfl, rfl, rfl⟩ rfl
    case recordReminder id at_ =>
      exact hdb.updateCheck fun check _ hbefore hup => (hbefore hup).same ⟨rfl, rfl, rfl, rfl, rfl, rfl, rfl⟩ rfl
    case clearNag id =>
      exact hdb.updateCheck fun check _ hbefore hup => (hbefore hup).same ⟨rfl, rfl, rfl, rfl, rfl, rfl, rfl⟩ rfl
    case acknowledge id =>
      exact hdb.updateCheck fun check _ hbefore hup => (hbefore hup).same ⟨rfl, rfl, rfl, rfl, rfl, rfl, rfl⟩ rfl
    case createCheck new now => exact hdb.createCheck new now
    case regenerateUuid id uuid =>
      simp only [exec, Db.regenerateUuid]
      split
      · exact hdb
      · exact hdb.updateCheck fun check _ hbefore hup => (hbefore hup).same ⟨rfl, rfl, rfl, rfl, rfl, rfl, rfl⟩ rfl
    case deleteCheck id => exact hdb.deleteChecksWhere _
    case deleteProject id => exact hdb.deleteChecksWhere _
    case deleteUser id => exact hdb.deleteChecksWhere _
    all_goals simp [StoreCall.writes] at hwrites
  · intro cid check hfind hup
    have hsame : (exec c db).2.findCheck cid = db.findCheck cid :=
      congrArg (fun table : AutoTable Check Check.id => table.find cid) (exec_checks hwrites db)
    rw [hsame] at hfind
    exact hdb cid check hfind hup

/-- A program that makes only such calls. -/
theorem run_stamped {A α : Type} {program : StoreProg A α} {okEvent : Spawned → Prop}
    (honly : program.Only (fun c => c.stamps = false) okEvent) {db : Db} (hdb : db.Stamped X) :
    (run exec program db).state.Stamped X :=
  honly.run_rel exec (fun before after => before.Stamped X → after.Stamped X) (fun _ h => h)
    (fun _ _ _ hab hbc h => hbc (hab h)) (fun _ hc _ h => exec_stamped hc h) db hdb

/-! ### Steps -/

/-- A step of a sequential run: a check is created, or one of the operations of `RowOperation`. -/
inductive CheckStep where
  | operation (op : Operation)
  | webCreate (ctx : WebContext) (projectId : Int) (form : CheckForm)
  | adminCreate (ctx : WebContext) (projectId : Int) (form : CheckForm)
  | apiCreate (ctx : ApiContext) (projectId : Int) (body : Except String CheckInput)

namespace CheckStep

def program (X : Crates) : CheckStep → StoreProg Unit Unit
  | .operation op => op.program X
  | .webCreate ctx projectId form => (webRequest X ctx (.checkCreate projectId form)).erase
  | .adminCreate ctx projectId form => (adminRequest X ctx (.checkCreate projectId form)).erase
  | .apiCreate ctx projectId body => (apiRequest X ctx (.createCheck projectId body)).erase

def after (X : Crates) (step : CheckStep) (db : Db) : Db := (run exec (step.program X) db).state

/-- The deadline a success ping would stamp has a four-digit year. -/
def PingFits (X : Crates) (db : Db) (ping : PingRequest) (now : Instant) : Prop :=
  ping.kind = .success → ∀ check, db.findCheckByUuid ping.uuid = some check → check.status ≠ .paused →
    ∀ due, dueTime X { check with lastPingAt := some now } = .ok (some due) → yearZero ≤ due ∧ due ≤ yearMax

/-- An edit the step carries out does not move the deadline of a check that is up. -/
def EditFits (X : Crates) (db : Db) (program : StoreProg Unit Unit) : Prop :=
  ∀ id fields, .updateCheckSchedule id fields ∈ calls exec program db →
    ∀ check, db.findCheck id = some check → check.status = .up → dueTime X (fields.apply check) = dueTime X check

/-- What keeps a step from parting the stamped deadline from the computed one. -/
def Fits (X : Crates) (db : Db) : CheckStep → Prop
  | .operation (.ping route uuid body clientIp now) => PingFits X db (route.request uuid body clientIp) now
  | step => EditFits X db (step.program X)

end CheckStep

/-- What a sequential run reaches when each of its steps satisfies `allowed` in the state it starts in. -/
inductive CheckRun (X : Crates) (allowed : Db → CheckStep → Prop) (start : Db) : Db → Prop where
  | start : CheckRun X allowed start start
  | step {db : Db} (step : CheckStep) (before : CheckRun X allowed start db) (hallowed : allowed db step) :
      CheckRun X allowed start (step.after X db)

section Steps

variable {db : Db}

/-! ### Pings -/

/-- A success ping that does not panic has a deadline to stamp. -/
theorem success_due {check : Check} {ping : PingRequest} {now : Instant}
    (hfound : db.findCheckByUuid ping.uuid = some check) (hpaused : check.status ≠ .paused)
    (hok : (run exec (apply X ping now) db).outcome ≠ .panic) (hkind : ping.kind = .success) :
    ∃ due, dueTime X { check with lastPingAt := some now } = .ok due := by
  cases hdue : dueTime X { check with lastPingAt := some now } with
  | ok due => exact ⟨due, rfl⟩
  | error panic =>
      have hpanics : applyKind X check ping.kind ping.exitCode now = .panic := by simp [applyKind, hkind, hdue]
      rw [(apply_eq (X := X) now hfound).1, if_neg hpaused, hpanics] at hok
      exact absurd rfl hok

/-- The columns of a row after a success ping. -/
theorem pinged_success (check : Check) (now : Instant) :
    Check.SameDue { check with lastPingAt := some now } (RowInput.pinged X .success now check) ∧
      (RowInput.pinged X .success now check).nextDueAt =
        (dueTime X { check with lastPingAt := some now }).toOption.join.bind storedInstant := by
  unfold RowInput.pinged pingAlert
  cases check.status <;> exact ⟨⟨rfl, rfl, rfl, rfl, rfl, rfl, rfl⟩, rfl⟩

/-- The row a ping leaves when it does not panic. -/
theorem pinged_stamped {check : Check} {ping : PingRequest} {now : Instant}
    (hfound : db.findCheckByUuid ping.uuid = some check) (hpaused : check.status ≠ .paused)
    (hok : (run exec (apply X ping now) db).outcome ≠ .panic) (hfits : CheckStep.PingFits X db ping now)
    (hbefore : check.status = .up → check.Stamped X) (hup : (RowInput.pinged X ping.kind now check).status = .up) :
    (RowInput.pinged X ping.kind now check).Stamped X := by
  cases hkind : ping.kind with
  | success =>
      obtain ⟨due, hdue⟩ := success_due hfound hpaused hok hkind
      obtain ⟨hsame, hnext⟩ := pinged_success (X := X) check now
      have hstored : due.bind storedInstant = due := by
        cases due with
        | none => rfl
        | some due =>
            obtain ⟨hlow, hhigh⟩ := hfits hkind check hfound hpaused due hdue
            exact storedInstant_of_mem hlow hhigh
      rw [hdue] at hnext
      have hnext' : (RowInput.pinged X .success now check).nextDueAt = due := hnext.trans hstored
      refine ⟨?_, ?_⟩
      · rw [hsame.dueTime_eq, hdue, hnext']
      · rw [hnext']
        exact hstored
  | fail =>
      rw [hkind] at hup
      have hdown : (RowInput.pinged X .fail now check).status = .down := by
        unfold RowInput.pinged pingAlert
        cases check.status <;> rfl
      rw [hdown] at hup
      cases hup
  | start =>
      rw [hkind] at hup
      have hstamped := hbefore hup
      exact hstamped.same ⟨rfl, rfl, rfl, rfl, rfl, rfl, rfl⟩ hstamped.stored
  | log =>
      rw [hkind] at hup
      exact hbefore hup
  | exitcode =>
      rw [hkind] at hup
      exact hbefore hup

theorem apply_stamped {ping : PingRequest} {now : Instant} (hfits : CheckStep.PingFits X db ping now)
    (hdb : db.Stamped X) : (run exec (apply X ping now) db).state.Stamped X := by
  cases hfound : db.findCheckByUuid ping.uuid with
  | none =>
      rw [(apply_notFound now hfound).1]
      exact hdb
  | some found =>
      obtain ⟨input, hinput, hself, hothers, _⟩ := apply_cases X now hfound
      have hfind := findCheck_of_uuid hfound
      intro cid check hcheck hup
      by_cases hcid : cid = found.id
      · subst hcid
        rw [hself, Option.some.injEq] at hcheck
        subst hcheck
        split at hinput
        · subst hinput
          exact hdb found.id found hfind hup
        · rename_i hmoves
          rw [not_or] at hmoves
          subst hinput
          exact pinged_stamped hfound hmoves.1 hmoves.2 hfits (hdb found.id found hfind) hup
      · rw [hothers cid hcid] at hcheck
        exact hdb cid check hcheck hup

/-! ### Requests on a check -/

theorem foldl_stamped {queries : List StoreCall} (hqueries : ∀ c ∈ queries, c.stamps = false) (hdb : db.Stamped X) :
    (queries.foldl (fun db c => (exec c db).2) db).Stamped X := by
  induction queries generalizing db with
  | nil => exact hdb
  | cons c rest ih =>
      exact ih (fun other hother => hqueries other (List.mem_cons_of_mem _ hother))
        (exec_stamped (hqueries c List.mem_cons_self) hdb)

/-- The one call of an action. -/
theorem action_stamped {β : Type} {validated : β → Option UpdateCheck} {id : Int} {action : CheckAction β}
    {special : StoreCall} (hcall : action.call validated id = some special) (hdb : db.Stamped X)
    (hedit : ∀ fields, special = .updateCheckSchedule id fields → ∀ check, db.findCheck id = some check →
      check.status = .up → dueTime X (fields.apply check) = dueTime X check) : (exec special db).2.Stamped X := by
  cases action with
  | pause => cases hcall; exact exec_stamped rfl hdb
  | resume => cases hcall; exact exec_stamped rfl hdb
  | ack => cases hcall; exact exec_stamped rfl hdb
  | edit body =>
      simp only [CheckAction.call, Option.map_eq_some_iff] at hcall
      obtain ⟨fields, _, rfl⟩ := hcall
      refine hdb.updateCheck fun check hcheck hbefore hup => ?_
      have hstamped : check.Stamped X := hbefore hup
      exact ⟨(hedit fields rfl check hcheck hup).trans hstamped.due, hstamped.stored⟩

/-- A request that performs an action. The calls around it leave the checks alone, so that an edit finds the
row as it was before the step. -/
theorem performs_stamped {A α β : Type} {program : StoreProg A α} {validated : β → Option UpdateCheck} {id : Int}
    {action : CheckAction β} (hperforms : Performs program validated id action)
    (hfits : CheckStep.EditFits X db program.erase) (hdb : db.Stamped X) :
    (run exec program.erase db).state.Stamped X := by
  unfold Performs at hperforms
  cases hcall : action.call validated id with
  | none =>
      simp only [hcall] at hperforms
      exact run_stamped (hperforms.erase.mono (fun _ hquiet => hquiet.stamps) fun _ hevent => hevent) hdb
  | some special =>
      simp only [hcall] at hperforms
      rw [run_state_eq_foldl]
      rcases hperforms.erase.calls exec db with hquiet | ⟨before, after, hcalls, hbefore, hafter⟩
      · exact foldl_stamped (fun c hc => (hquiet c hc).stamps) hdb
      · rw [hcalls, List.foldl_append, List.foldl_cons]
        refine foldl_stamped (fun c hc => (hafter c hc).stamps) (action_stamped hcall ?_ ?_)
        · exact foldl_stamped (fun c hc => (hbefore c hc).stamps) hdb
        · rintro fields rfl check hcheck hup
          rw [findCheck_foldl_quiet hbefore] at hcheck
          exact hfits id fields (by rw [hcalls]; simp) check hcheck hup

/-! ### Creations -/

theorem checkCreateCore_stamps (ctx : WebContext) (sid : String) (user : User) (base : String) (projectId : Int)
    (form : CheckForm) :
    (checkCreateCore X ctx sid user base projectId form).Only (fun c => c.stamps = false) fun _ => True := by
  unfold checkCreateCore
  split
  · trivial
  · exact (store_only (by rfl)).bind fun _ => (store_only (by rfl)).bind fun _ => trivial

theorem quiet_stamps {A α : Type} {program : StoreProg A α} (honly : program.Only Quiet fun _ => False) :
    program.Only (fun c => c.stamps = false) fun _ => True :=
  honly.mono (fun _ hquiet => hquiet.stamps) fun _ hevent => hevent.elim

theorem webCreate_stamps (ctx : WebContext) (projectId : Int) (form : CheckForm) :
    (webRequest X ctx (.checkCreate projectId form)).Only (fun c => c.stamps = false) fun _ => True := by
  refine (quiet_stamps (requestSession_quiet ctx)).bind fun sid => ?_
  split
  · trivial
  · refine (quiet_stamps (resolveUser_quiet ctx sid)).bind fun found => ?_
    cases found with
    | none => trivial
    | some user =>
        exact (quiet_stamps (ownedProject_quiet projectId user.id)).bind fun _ =>
          checkCreateCore_stamps ctx sid user "" projectId form

theorem adminProject_stamps (ctx : WebContext) (user : User) (method : String) (id : Int) :
    (adminProject ctx user method id).Only (fun c => c.stamps = false) fun _ => True := by
  refine (store_only (by rfl)).bind fun found => ?_
  split
  · trivial
  · exact (auditAccess_only fun _ => by rfl).bind fun _ => trivial

theorem adminCreate_stamps (ctx : WebContext) (projectId : Int) (form : CheckForm) :
    (adminRequest X ctx (.checkCreate projectId form)).Only (fun c => c.stamps = false) fun _ => True := by
  refine (quiet_stamps (requestSession_quiet ctx)).bind fun sid => ?_
  split
  · trivial
  · refine (quiet_stamps (resolveUser_quiet ctx sid)).bind fun found => ?_
    cases found with
    | none => trivial
    | some user =>
        dsimp only
        split
        · exact (adminProject_stamps ctx user "POST" projectId).bind fun _ =>
            checkCreateCore_stamps ctx sid user "/admin" projectId form
        · trivial

theorem apiCreate_stamps (ctx : ApiContext) (projectId : Int) (body : Except String CheckInput) :
    (apiRequest X ctx (.createCheck projectId body)).Only (fun c => c.stamps = false) fun _ => True := by
  refine (quiet_stamps (apiUser_quiet X ctx)).bind fun user => (orBadRequest_only body).bind fun input =>
    Prog.Only.bind ?_ fun _ => (orBadRequest_only _).bind fun fields => (apiStore_only (by rfl)).bind fun _ =>
      (apiStore_only (by rfl)).bind fun _ => (apiStore_only (by rfl)).bind fun _ => (okOr_only _ _).bind fun _ => trivial
  refine (apiStore_only (by rfl)).bind fun _ => (okOr_only _ _).bind fun project => ?_
  unfold resolveOwned
  split
  · trivial
  · split
    · exact Prog.Only.bind ((apiStore_only (by rfl)).bind fun _ => trivial) fun _ => trivial
    · trivial

/-! ### Runs -/

/-- **One step.** -/
theorem CheckStep.after_stamped {step : CheckStep} (hfits : step.Fits X db) (hdb : db.Stamped X) :
    (step.after X db).Stamped X := by
  cases step with
  | webCreate ctx projectId form => exact run_stamped (webCreate_stamps ctx projectId form).erase hdb
  | adminCreate ctx projectId form => exact run_stamped (adminCreate_stamps ctx projectId form).erase hdb
  | apiCreate ctx projectId body => exact run_stamped (apiCreate_stamps ctx projectId body).erase hdb
  | operation op =>
      cases op with
      | ping route uuid body clientIp now =>
          have hafter : (CheckStep.operation (.ping route uuid body clientIp now)).after X db =
              (run exec (apply X (route.request uuid body clientIp) now) db).state := run_erase_state exec _ _
          rw [hafter]
          exact apply_stamped hfits hdb
      | scan now baseUrl =>
          have honly : (scanPass X now baseUrl).Only (fun c => c.stamps = false) fun _ => True :=
            scanPass_only X now baseUrl rfl rfl rfl (fun _ => rfl) fun _ => rfl
          exact run_stamped honly.erase hdb
      | nag now baseUrl =>
          have honly : (nagPass now baseUrl).Only (fun c => c.stamps = false) fun _ => True :=
            nagPass_only now baseUrl rfl rfl rfl rfl rfl fun _ => rfl
          exact run_stamped honly.erase hdb
      | web ctx id action => exact performs_stamped (webRequest_performs X ctx id action) hfits hdb
      | admin ctx id action => exact performs_stamped (adminRequest_performs X ctx id action) hfits hdb
      | api ctx id action => exact performs_stamped (apiRequest_performs X ctx id action) hfits hdb

end Steps

/-- **A whole run.** -/
theorem CheckRun.stamped {start db : Db} (hstart : start.Stamped X)
    (hrun : CheckRun X (fun db step => step.Fits X db) start db) : db.Stamped X := by
  induction hrun with
  | start => exact hstart
  | step step before hallowed ih => exact step.after_stamped hallowed ih

/-! ### The page -/

/-- The deadline without its grace is an instant too. -/
theorem dueTime_sub_grace (hnext : ∀ schedule tz last next, X.next schedule tz last = some next → inRange next)
    {check : Check} {due : Instant} (hdue : dueTime X check = .ok (some due)) :
    SecondsOk check.graceSecs ∧ inRange (due - check.graceSecs * nanosPerSec) := by
  obtain ⟨⟨hgrace, hperiod, _⟩, hcheckIn⟩ := dueTime_eq_ok_iff.mp hdue
  rw [checkInBy, Option.map_eq_some_iff] at hcheckIn
  obtain ⟨expected, hexpected, rfl⟩ := hcheckIn
  rw [add_sub_cancel_right]
  refine ⟨hgrace, ?_⟩
  unfold expectedBy at hexpected
  cases hkind : check.scheduleKind with
  | period =>
      simp only [hkind, Option.map_eq_some_iff] at hexpected
      obtain ⟨secs, hsecs, rfl⟩ := hexpected
      exact (hperiod hkind secs hsecs).2
  | cron =>
      simp only [hkind, firing, Option.bind_eq_some_iff] at hexpected
      obtain ⟨schedule, _, hfires⟩ := hexpected
      exact hnext _ _ _ _ hfires

/-- A check that is up, is not running and carries its deadline is shown late within its grace period. -/
theorem displayStatus_late_iff (hnext : ∀ schedule tz last next, X.next schedule tz last = some next → inRange next)
    {check : Check} (hup : check.status = .up) (hrunning : isRunning check = false)
    (hstamped : dueTime X check = .ok check.nextDueAt) (now : Instant) :
    displayStatus check now = .ok .late ↔
      ∃ due, dueTime X check = .ok (some due) ∧ due - check.graceSecs * nanosPerSec < now ∧ now ≤ due := by
  unfold displayStatus
  simp only [hup, hrunning, Bool.false_eq_true, if_false]
  cases hdue : check.nextDueAt with
  | none =>
      rw [hdue] at hstamped
      rw [hstamped]
      simp [pure, Except.pure]
  | some due =>
      rw [hdue] at hstamped
      obtain ⟨hgrace, hexpected⟩ := dueTime_sub_grace hnext hstamped
      have hsub : subDuration due (check.graceSecs * nanosPerSec) = .ok (due - check.graceSecs * nanosPerSec) :=
        if_pos hexpected
      have hsecs : durationSeconds check.graceSecs = .ok (check.graceSecs * nanosPerSec) := if_pos hgrace
      rw [hstamped]
      simp only [hsecs, hsub, bind, Except.bind, pure, Except.pure, Except.ok.injEq, Option.some.injEq, exists_eq_left']
      split
      · rename_i hlate
        exact iff_of_true rfl hlate
      · rename_i hlate
        exact iff_of_false (by simp) hlate

/-- **One deadline.** In a run that starts without a check that is up, and in which no success ping stamps a
deadline outside the years 0 to 9999 and no edit moves the deadline of a check that is up, every check that
is up carries the deadline `due_time` computes, and the page shows it late exactly within its grace period. -/
theorem stored_deadline_coherent (X : Crates)
    (hnext : ∀ schedule tz last next, X.next schedule tz last = some next → inRange next) {start db : Db}
    (hstart : ∀ check ∈ start.checks.rows, check.status ≠ .up)
    (hrun : CheckRun X (fun db step => step.Fits X db) start db) {check : Check} (hcheck : check ∈ db.checks.rows)
    (hup : check.status = .up) :
    dueTime X check = .ok check.nextDueAt ∧
      (isRunning check = false → ∀ now, displayStatus check now = .ok .late ↔
        ∃ due, dueTime X check = .ok (some due) ∧ due - check.graceSecs * nanosPerSec < now ∧ now ≤ due) := by
  have hfresh : start.Stamped X := fun cid row hrow hrowUp => absurd hrowUp (hstart row (Table.find_mem _ hrow))
  have hstamped := (hrun.stamped hfresh check.id check (Table.find_eq_some_iff _ |>.mpr ⟨hcheck, rfl⟩) hup).due
  exact ⟨hstamped, fun hrunning => displayStatus_late_iff hnext hup hrunning hstamped⟩

/-! ### An hour instead of a minute -/

def CheckForm.backup (period grace : String) : CheckForm :=
  ⟨"backup", "", "period", period, "", grace, "UTC", "", "", ""⟩

/-- A success ping at 100 seconds. -/
def pingBackup : CheckStep := .operation (.ping .success "u1" [] none (100 * nanosPerSec))

/-- An edit at 140 seconds. -/
def editBackup (period grace : String) : CheckStep :=
  .operation (.web { WebContext.sample with now := 140 * nanosPerSec } 1 (.edit (.backup period grace)))

/-- The row after the ping and an edit. -/
def backupRow (period grace : Int) : Check :=
  ⟨1, 1, "backup", "", "u1", .period, some period, grace, none, "UTC", .up, some (100 * nanosPerSec), none,
    some (160 * nanosPerSec), none, none, none, none, false, 0⟩

/-- After an edit from a minute to an hour with a grace of five minutes the page says late at 150 seconds,
an hour before the check is expected. -/
theorem edit_strands_deadline :
    (∀ check ∈ Db.sample.checks.rows, check.status ≠ .up) ∧
      ∃ db, CheckRun plainCrates (fun _ _ => True) .sample db ∧ ∃ check ∈ db.checks.rows, check.status = .up ∧
        check.lastPingAt.isSome = true ∧ isRunning check = false ∧
        dueTime plainCrates check ≠ .ok check.nextDueAt ∧ displayStatus check (150 * nanosPerSec) = .ok .late ∧
        ¬ ∃ due, dueTime plainCrates check = .ok (some due) ∧
          due - check.graceSecs * nanosPerSec < 150 * nanosPerSec ∧ 150 * nanosPerSec ≤ due := by
  refine ⟨by decide +kernel, _, .step (editBackup "1h" "5m") (.step pingBackup .start trivial) trivial,
    backupRow 3600 300, by decide +kernel, rfl, rfl, rfl, ?_, by decide +kernel, ?_⟩
  · have hdue : dueTime plainCrates (backupRow 3600 300) = .ok (some (4000 * nanosPerSec)) := by decide +kernel
    rw [hdue]
    decide
  · have hdue : dueTime plainCrates (backupRow 3600 300) = .ok (some (4000 * nanosPerSec)) := by decide +kernel
    rintro ⟨due, hfound, hafter, _⟩
    rw [hdue, Except.ok.injEq, Option.some.injEq] at hfound
    subst hfound
    exact absurd hafter (by decide)

/-- The calls of that edit. -/
theorem editBackup_fits :
    (editBackup "30" "30").Fits plainCrates (pingBackup.after plainCrates .sample) := by
  intro id fields hmem check hcheck _
  have hcalls : ((calls exec ((editBackup "30" "30").program plainCrates) (pingBackup.after plainCrates .sample)).all
      fun c => match c with
        | .updateCheckSchedule id fields =>
            id = 1 ∧ fields = ⟨"backup", "", .period, some 30, 30, none, "UTC", none, none, none⟩
        | _ => true) = true := by decide +kernel
  have hedit := List.all_eq_true.mp hcalls _ hmem
  simp only [decide_eq_true_eq] at hedit
  obtain ⟨rfl, rfl⟩ := hedit
  have hrow : (pingBackup.after plainCrates .sample).findCheck 1 = some (backupRow 60 0) := by decide +kernel
  rw [hrow, Option.some.injEq] at hcheck
  subst hcheck
  decide +kernel

theorem pingBackup_fits : pingBackup.Fits plainCrates .sample := by
  rintro _ check hcheck _ due hdue
  have hfound : Db.sample.findCheckByUuid "u1" =
      some { backupRow 60 0 with status := .new, lastPingAt := none, nextDueAt := none } := by decide +kernel
  rw [show (PingRoute.success.request "u1" [] none).uuid = "u1" from rfl, hfound, Option.some.injEq] at hcheck
  subst hcheck
  have hsum : dueTime plainCrates { backupRow 60 0 with nextDueAt := none, status := .new } =
      .ok (some (160 * nanosPerSec)) := by decide +kernel
  obtain rfl : (160 * nanosPerSec : Int) = due := Option.some.inj (Except.ok.inj (hsum.symm.trans hdue))
  decide

/-- Half a minute with a grace of half a minute: the deadline stays, and at 150 seconds the check is late. -/
theorem stored_deadline_backup : displayStatus (backupRow 30 30) (150 * nanosPerSec) = .ok .late := by
  have hstart : ∀ check ∈ Db.sample.checks.rows, check.status ≠ .up := by decide +kernel
  have hrun : CheckRun plainCrates (fun db step => step.Fits plainCrates db) .sample
      ((editBackup "30" "30").after plainCrates (pingBackup.after plainCrates .sample)) :=
    .step _ (.step _ .start pingBackup_fits) editBackup_fits
  have hrow : backupRow 30 30 ∈
      ((editBackup "30" "30").after plainCrates (pingBackup.after plainCrates .sample)).checks.rows := by
    decide +kernel
  obtain ⟨_, hshown⟩ := stored_deadline_coherent plainCrates (fun schedule => nomatch schedule) hstart hrun hrow rfl
  exact (hshown rfl _).mpr ⟨160 * nanosPerSec, by decide +kernel, by decide, by decide⟩

end Pingward
