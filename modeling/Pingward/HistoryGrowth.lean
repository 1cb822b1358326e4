import Pingward.InterleaveBindings
import Pingward.ProgramPair
import Pingward.PruneLaw
import Pingward.TableGrowth

/-! The history only grows. Whatever programs run beside each other and beside the retention prune, no ping, notification
or audit row is ever changed; a row goes when the prune finds it too old, and a ping or a notification also when its check
or its channel is deleted. -/

open KeyedTable StoreProgram

namespace Pingward

/-- Not written from the limit on, by a clock of four-digit years. -/
def Old (limit createdAt : Instant) : Prop := ¬ (limit ≤ createdAt ∧ Calendar.FourDigits createdAt)

/-- What has come of the history: a row is gone only if it is old, or its check or its channel is gone for good. -/
structure HistoryKept (limit : Instant) (before after : Db) : Prop where
  later : before.Later after
  pings : AutoTable.Grown (fun row => Old limit row.createdAt ∨ after.checks.Retired row.checkId) before.pings after.pings
  notifications :
    AutoTable.Grown
      (fun row => Old limit row.createdAt ∨ after.checks.Retired row.checkId ∨ after.channels.Retired row.channelId)
      before.notifications after.notifications
  audit : AutoTable.Grown (fun row => Old limit row.createdAt) before.auditLog after.auditLog

namespace HistoryKept

variable {limit : Instant} {before middle after db : Db}

theorem refl (limit : Instant) (db : Db) : HistoryKept limit db db := ⟨.refl db, .refl _ _, .refl _ _, .refl _ _⟩

theorem trans (hfirst : HistoryKept limit before middle) (hsecond : HistoryKept limit middle after) :
    HistoryKept limit before after := by
  have hcheck {id : Int} (hretired : middle.checks.Retired id) := hretired.later hsecond.later.checks
  have hchannel {id : Int} (hretired : middle.channels.Retired id) := hretired.later hsecond.later.channels
  refine ⟨hfirst.later.trans hsecond.later, ?_, ?_, hfirst.audit.trans hsecond.audit⟩
  · refine (hfirst.pings.mono ?_).trans hsecond.pings
    exact fun row => Or.imp_right hcheck
  · refine (hfirst.notifications.mono ?_).trans hsecond.notifications
    exact fun row => Or.imp_right (Or.imp hcheck hchannel)

/-- A call that does not write the history. -/
theorem of_frame (hlater : before.Later after) (hpings : after.pings = before.pings)
    (hnotifications : after.notifications = before.notifications) (haudit : after.auditLog = before.auditLog) :
    HistoryKept limit before after :=
  ⟨hlater, .of_eq _ hpings, .of_eq _ hnotifications, .of_eq _ haudit⟩

end HistoryKept

section Deletes

variable (limit : Instant) (db : Db)

theorem retired_of_gone {ρ : Type} {key : ρ → Int} (table : AutoTable ρ key) {p : ρ → Bool} {id : Int}
    (hgone : (table.rows.any fun row => p row ∧ key row = id) = true) : (table.deleteWhere p).Retired id := by
  simp only [List.any_eq_true, decide_eq_true_eq] at hgone
  obtain ⟨row, hrow, hp, rfl⟩ := hgone
  exact AutoTable.retired_deleteWhere table hrow hp

theorem historyKept_deleteChecksWhere (p : Check → Bool) : HistoryKept limit db (db.deleteChecksWhere p) where
  later := ⟨AutoTable.later_deleteWhere _ _, .refl _⟩
  pings := .deleteWhere _ fun _ _ hgone => Or.inr (retired_of_gone db.checks hgone)
  notifications := .deleteWhere _ fun _ _ hgone => Or.inr (Or.inl (retired_of_gone db.checks hgone))
  audit := .refl _ _

theorem historyKept_deleteChannelsWhere (p : Channel → Bool) : HistoryKept limit db (db.deleteChannelsWhere p) where
  later := ⟨.refl _, AutoTable.later_deleteWhere _ _⟩
  pings := .refl _ _
  notifications := .deleteWhere _ fun _ _ hgone => Or.inr (Or.inr (retired_of_gone db.channels hgone))
  audit := .refl _ _

theorem historyKept_deleteProjectsWhere (p : Project → Bool) : HistoryKept limit db (db.deleteProjectsWhere p) := by
  let gone : Int → Bool := fun id => db.projects.rows.any fun row => p row ∧ row.id = id
  have hchecks := historyKept_deleteChecksWhere limit db fun row => gone row.projectId
  have hchannels := historyKept_deleteChannelsWhere limit (db.deleteChecksWhere fun row => gone row.projectId)
    fun row => gone row.projectId
  exact (hchecks.trans hchannels).trans (.of_frame ⟨.refl _, .refl _⟩ rfl rfl rfl)

theorem historyKept_deleteUser (id : Int) : HistoryKept limit db (db.deleteUser id) :=
  (historyKept_deleteProjectsWhere limit db fun row => row.userId = id).trans
    (.of_frame ⟨.refl _, .refl _⟩ rfl rfl rfl)

end Deletes

section Inserts

variable (db : Db)

theorem grown_insertPing (lost : Ping → Prop) (ping : NewPing) (now : Instant) :
    AutoTable.Grown lost db.pings (exec (.insertPing ping now) db).2.pings := by
  simp only [exec, Db.insertPing]
  split
  · exact .refl lost _
  · simp only [commit]
    exact .insert lost _ _ _

theorem grown_recordNotification (lost : Notification → Prop) (row : NewNotification) (now : Instant) :
    AutoTable.Grown lost db.notifications (exec (.recordNotification row now) db).2.notifications := by
  simp only [exec, Db.recordNotification]
  split
  · exact .refl lost _
  · simp only [commit]
    exact .insert lost _ _ _

theorem grown_recordAudit (lost : AuditLog → Prop) (entry : NewAudit) (now : Instant) :
    AutoTable.Grown lost db.auditLog (exec (.recordAudit entry now) db).2.auditLog := by
  simp only [exec, Db.recordAudit]
  exact .insert lost _ _ _

end Inserts

/-- Every call of the store keeps the history. -/
theorem exec_historyKept (limit : Instant) (c : StoreCall) (db : Db) : HistoryKept limit db (exec c db).2 := by
  have hlater := exec_later c db
  by_cases hwrites : .pings ∈ c.writes ∨ .notifications ∈ c.writes ∨ .auditLog ∈ c.writes
  · cases c
    case insertPing ping now =>
      refine ⟨hlater, grown_insertPing db _ ping now, .of_eq _ ?_, .of_eq _ ?_⟩
      · exact exec_frame (t := .notifications) (by simp [StoreCall.writes]) db
      · exact exec_frame (t := .auditLog) (by simp [StoreCall.writes]) db
    case recordNotification row now =>
      refine ⟨hlater, .of_eq _ ?_, grown_recordNotification db _ row now, .of_eq _ ?_⟩
      · exact exec_frame (t := .pings) (by simp [StoreCall.writes]) db
      · exact exec_frame (t := .auditLog) (by simp [StoreCall.writes]) db
    case recordAudit entry now =>
      refine ⟨hlater, .of_eq _ ?_, .of_eq _ ?_, grown_recordAudit db _ entry now⟩
      · exact exec_frame (t := .pings) (by simp [StoreCall.writes]) db
      · exact exec_frame (t := .notifications) (by simp [StoreCall.writes]) db
    case deleteCheck id => exact historyKept_deleteChecksWhere limit db _
    case deleteChannel id => exact historyKept_deleteChannelsWhere limit db _
    case deleteProject id => exact historyKept_deleteProjectsWhere limit db _
    case deleteUser id => exact historyKept_deleteUser limit db id
    all_goals simp [StoreCall.writes] at hwrites
  · simp only [not_or] at hwrites
    exact .of_frame hlater (exec_frame hwrites.1 db) (exec_frame hwrites.2.1 db) (exec_frame hwrites.2.2 db)

/-! ### The prune -/

/-- A prune that deletes nothing from the limit on. -/
def PruneCall.Within (limit : Instant) : PruneCall → Prop
  | .deletePingsBefore cutoff | .deleteNotificationsBefore cutoff | .deleteAuditBefore cutoff =>
      ∀ t, toRfc3339 t < cutoff → Old limit t
  | .getSetting _ | .deleteExpiredSessions _ _ => True

theorem execPrune_historyKept {limit : Instant} {c : PruneCall} (hwithin : c.Within limit) (db : Db) :
    HistoryKept limit db (execPrune c db).2 := by
  cases c with
  | getSetting key => exact .refl limit db
  | deletePingsBefore cutoff =>
      refine ⟨⟨.refl _, .refl _⟩, .deleteWhere _ fun row _ hrow => ?_, .refl _ _, .refl _ _⟩
      exact Or.inl (hwithin _ (of_decide_eq_true hrow))
  | deleteNotificationsBefore cutoff =>
      refine ⟨⟨.refl _, .refl _⟩, .refl _ _, .deleteWhere _ fun row _ hrow => ?_, .refl _ _⟩
      exact Or.inl (hwithin _ (of_decide_eq_true hrow))
  | deleteAuditBefore cutoff =>
      refine ⟨⟨.refl _, .refl _⟩, .refl _ _, .refl _ _, .deleteWhere _ fun row _ hrow => ?_⟩
      exact hwithin _ (of_decide_eq_true hrow)
  | deleteExpiredSessions now capBefore => exact .of_frame ⟨.refl _, .refl _⟩ rfl rfl rfl

/-- Whatever its setting says, a prune leaves the last day alone. -/
theorem old_of_retentionCutoff {now t : Instant} (hnow : Calendar.FourDigits now) {setting : Option String} {cutoff : String}
    (hcutoff : retentionCutoff now setting = some cutoff) (hbefore : toRfc3339 t < cutoff) : Old (now - nanosPerDay) t := by
  rintro ⟨hyoung, ht⟩
  obtain ⟨days, ⟨hpos, -⟩, -, hexpired⟩ := (retentionCutoff_iff hnow ht).mp ⟨cutoff, hcutoff, hbefore⟩
  have hday : 1 * nanosPerDay ≤ days * nanosPerDay := Int.mul_le_mul_of_nonneg_right hpos (by decide)
  linarith

theorem Old.mono {limit limit' t : Instant} (hold : Old limit t) (hle : limit ≤ limit') : Old limit' t :=
  fun hyoung => hold ⟨hle.trans hyoung.1, hyoung.2⟩

theorem pruneTable_only {now last : Instant} (hnow : Calendar.FourDigits now) (hlast : now ≤ last) (table : PruneTable) :
    (pruneTable now table).Only (PruneCall.Within (last - nanosPerDay)) fun _ => True := by
  refine Prog.Only.bind (.perform trivial) fun setting => ?_
  split
  · trivial
  · rename_i cutoff hcutoff
    have hold (t : Instant) (hbefore : toRfc3339 t < cutoff) : Old (last - nanosPerDay) t :=
      (old_of_retentionCutoff hnow hcutoff hbefore).mono (Int.sub_le_sub_right hlast _)
    cases table <;> exact .perform hold

theorem pruneOnce_only {now last : Instant} (hnow : Calendar.FourDigits now) (hlast : now ≤ last) :
    (pruneOnce now).Only (PruneCall.Within (last - nanosPerDay)) fun _ => True := by
  refine (pruneTable_only hnow hlast .pings).bind fun _ => ?_
  refine (pruneTable_only hnow hlast .notifications).bind fun _ => ?_
  refine (pruneTable_only hnow hlast .audit).bind fun _ => ?_
  refine (Prog.Only.orPanic _).bind fun _ => ?_
  exact Prog.Only.bind (.perform trivial) fun _ => trivial

/-! ### The law -/

/-- A call to the store, or of the prune. -/
abbrev HistoryCall := StoreCall ⊕ PruneCall

abbrev HistoryProg (E : Type) := Prog HistoryCall (PairRes (fun c => c.Res) PruneCall.Res) StoreError E Unit Unit

abbrev HistoryConfig (ι E : Type) :=
  Config ι HistoryCall (PairRes (fun c => c.Res) PruneCall.Res) StoreError E Unit Unit Db

/-- A pass of the prune beside the programs of the store. -/
def pruneTask {E α : Type} : PruneProg α → HistoryProg E
  | .ret _ => .ret ()
  | .fail _ => .fail ()
  | .panic => .panic
  | .emit event _ => event.elim
  | .call c next => .call (.inr c) fun answer => pruneTask (next answer)

/-- What runs: any program of store calls, or a pass of the prune at a time. -/
inductive HistoryTask (E : Type) where
  | calls (program : Prog StoreCall StoreCall.Res StoreError E Unit Unit)
  | prune (now : Instant)

def HistoryTask.start {E : Type} : HistoryTask E → HistoryProg E
  | .calls program => program.lift
  | .prune now => pruneTask (pruneOnce now)

def HistoryCall.Within (limit : Instant) : HistoryCall → Prop
  | .inl _ => True
  | .inr c => c.Within limit

theorem lift_within {E : Type} (limit : Instant) (program : Prog StoreCall StoreCall.Res StoreError E Unit Unit) :
    (program.lift : HistoryProg E).Only (HistoryCall.Within limit) fun _ => True := by
  induction program with
  | ret value => trivial
  | fail error => trivial
  | panic => trivial
  | emit event next ih => exact ⟨trivial, ih⟩
  | call query next ih => exact ⟨trivial, ih⟩

theorem pruneTask_within {E α : Type} {limit : Instant} {program : PruneProg α}
    (honly : program.Only (PruneCall.Within limit) fun _ => True) :
    (pruneTask program : HistoryProg E).Only (HistoryCall.Within limit) fun _ => True := by
  induction program with
  | ret value => trivial
  | fail error => trivial
  | panic => trivial
  | emit event next ih => exact event.elim
  | call query next ih => exact ⟨honly.1, fun answer => ih answer (honly.2 answer)⟩

section Runs

variable {ι E : Type} [DecidableEq ι] {allowed : HistoryConfig ι E → ι → Prop} {limit : Instant}

/-- Programs that stay within the limit keep the history. -/
theorem historyKept_reach {middle cfg : HistoryConfig ι E}
    (hpool : ∀ i, (middle.pool i).Only (HistoryCall.Within limit) fun _ => True)
    (hreach : Reach (execBoth exec execPrune) allowed middle cfg) :
    (∀ i, (cfg.pool i).Only (HistoryCall.Within limit) fun _ => True) ∧ HistoryKept limit middle.state cfg.state := by
  refine hreach.invariant _ (fun cfg => (∀ i, (cfg.pool i).Only (HistoryCall.Within limit) fun _ => True) ∧
    HistoryKept limit middle.state cfg.state) ⟨hpool, .refl limit _⟩ ?_
  intro cfg cfg' i hinv _ hstep
  obtain ⟨hwithin, hkept⟩ := hinv
  refine ⟨Config.advance_inherit _ (fun _ _ _ h => h.2) (fun _ _ _ h => h.2) hwithin hstep, hkept.trans ?_⟩
  rcases Config.advance_cases _ hstep with ⟨event, next, -, rfl⟩ | ⟨c, next, hprogram, rfl⟩
  · exact .refl limit _
  · cases c with
    | inl c => exact exec_historyKept limit c cfg.state
    | inr c =>
        have hnext := hwithin i
        rw [hprogram] at hnext
        exact execPrune_historyKept hnext.1 cfg.state

/-- **The history only grows.** Between any two moments of an interleaving of any programs with passes of the prune, made in
years of four digits, the history from a day before the last pass on is kept, whatever the retention settings say. -/
theorem history_grows {tasks : ι → HistoryTask E} {last : Instant}
    (hlast : ∀ i now, tasks i = .prune now → Calendar.FourDigits now ∧ now ≤ last) {db : Db} {middle cfg : HistoryConfig ι E}
    (hfirst : Reach (execBoth exec execPrune) allowed (Config.init (fun i => (tasks i).start) db) middle)
    (hsecond : Reach (execBoth exec execPrune) allowed middle cfg) :
    HistoryKept (last - nanosPerDay) middle.state cfg.state := by
  have hpool (i : ι) : ((tasks i).start).Only (HistoryCall.Within (last - nanosPerDay)) fun _ => True := by
    cases htask : tasks i with
    | calls program => exact lift_within _ program
    | prune now =>
        obtain ⟨hnow, hle⟩ := hlast i now htask
        exact pruneTask_within (pruneOnce_only hnow hle)
  exact (historyKept_reach (historyKept_reach hpool hfirst).1 hsecond).2

end Runs

/-- A ping of the check at a time. -/
def pingAt (now : Instant) : Prog StoreCall StoreCall.Res StoreError Empty Unit Unit :=
  .call (.insertPing ⟨1, .success, none, "", none⟩ now) fun _ => .ret ()

/-- A ping of the epoch is pruned ten days later, in front of one that has just come in. -/
theorem history_grows_pinged :
    let tasks : Bool → HistoryTask Empty := fun i => if i then .prune (10 * nanosPerDay) else .calls (pingAt (10 * nanosPerDay))
    let db := (exec (.insertPing ⟨1, .success, none, "", none⟩ 0) (exec (.setSetting "pings_retention_days" "7") Db.sample).2).2
    ∃ cfg, Reach (execBoth exec execPrune) (fun _ _ => True) (Config.init (fun i => (tasks i).start) db) cfg ∧
      cfg.state.pings.rows.map Ping.id = [2] ∧ HistoryKept (10 * nanosPerDay - nanosPerDay) db cfg.state := by
  intro tasks db
  have hlast (i : Bool) (now : Instant) (htask : tasks i = .prune now) : Calendar.FourDigits now ∧ now ≤ 10 * nanosPerDay := by
    cases i with
    | false => cases htask
    | true =>
        obtain rfl : 10 * nanosPerDay = now := HistoryTask.prune.inj htask
        exact ⟨⟨by decide, by decide⟩, le_rfl⟩
  obtain ⟨cfg, hreach, hpings⟩ := exists_reach (execBoth exec execPrune) (fun _ _ _ => trivial : ∀ _ _, true = true → True)
    [false, true, true]
    (show ((Config.init (fun i => (tasks i).start) db).advanceWhen (execBoth exec execPrune) (fun _ _ => true)
      [false, true, true]).any (fun cfg => cfg.state.pings.rows.map Ping.id == [2]) = true by decide +kernel)
  exact ⟨cfg, hreach, beq_iff_eq.mp hpings, history_grows hlast .refl hreach⟩

end Pingward
