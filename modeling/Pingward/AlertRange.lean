import Pingward.RowRequest

/-! Whether the time arithmetic on stored checks stays in chrono's range. The validators bound a duration
by 64 bits only, so a form can store a check whose deadline has no representation, and the pass that
meets it panics. -/

open KeyedTable StoreProgram

namespace Pingward

/-! ### What the validators promise -/

theorem ensure_eq_ok_iff {condition : Prop} [Decidable condition] {message : String} {u : Unit} :
    ensure condition message = .ok u ↔ condition := by
  unfold ensure
  split <;> simp_all

theorem parseOptPositiveDuration_pos {s field : String} {secs : Int}
    (hparse : parseOptPositiveDuration s field = .ok (some secs)) : 0 < secs := by
  unfold parseOptPositiveDuration at hparse
  dsimp only at hparse
  split at hparse
  · cases hparse
  · split at hparse
    · split at hparse
      · cases hparse
        omega
      · cases hparse
    · cases hparse

theorem validateSchedule_period {X : Crates} {form : CheckForm} {kind : ScheduleKind} {schedule : Option Int × Option String}
    (hvalid : validateSchedule X form kind = .ok schedule) :
    kind = .period → ∃ secs, schedule.1 = some secs ∧ 0 < secs := by
  rintro rfl
  simp only [validateSchedule, except_bind_eq_ok, ensure_eq_ok_iff] at hvalid
  obtain ⟨_, _, hvalid⟩ := hvalid
  split at hvalid
  · cases hvalid
  · rename_i secs _
    simp only [except_bind_eq_ok, ensure_eq_ok_iff, pure, Except.pure, Except.ok.injEq] at hvalid
    obtain ⟨_, hpos, rfl⟩ := hvalid
    exact ⟨secs, rfl, hpos⟩

/-- What the validator promises of the durations of a check. -/
structure UpdateCheck.Positive (fields : UpdateCheck) : Prop where
  grace : 0 ≤ fields.graceSecs
  period : fields.kind = .period → ∃ secs, fields.periodSecs = some secs ∧ 0 < secs
  maxRuntime : ∀ secs, fields.maxRuntimeSecs = some secs → 0 < secs

theorem validateCheck_positive {X : Crates} {form : CheckForm} {fields : UpdateCheck}
    (hvalid : validateCheck X form = .ok fields) : fields.Positive := by
  simp only [validateCheck, except_bind_eq_ok, ensure_eq_ok_iff] at hvalid
  obtain ⟨_, _, description, _, hvalid⟩ := hvalid
  split at hvalid
  · cases hvalid
  · simp only [except_bind_eq_ok, ensure_eq_ok_iff] at hvalid
    obtain ⟨_, hgrace, hvalid⟩ := hvalid
    split at hvalid
    · cases hvalid
    · simp only [except_bind_eq_ok, pure, Except.pure, Except.ok.injEq] at hvalid
      obtain ⟨schedule, hschedule, timezone, _, scan, _, maxRuntime, hmax, nag, _, rfl⟩ := hvalid
      refine ⟨hgrace, validateSchedule_period hschedule, ?_⟩
      rintro secs rfl
      exact parseOptPositiveDuration_pos hmax

/-! ### Clocks and stored rows -/

/-- The instants a real clock can give: from the Unix epoch on, before the year 10000. -/
structure Clock where
  first : Instant
  last : Instant
  epoch : 0 ≤ first
  ordered : first ≤ last
  present : last ≤ yearMax

def Clock.Gives (clock : Clock) (t : Instant) : Prop := clock.first ≤ t ∧ t ≤ clock.last

theorem Clock.gives_last (clock : Clock) : clock.Gives clock.last := ⟨clock.ordered, le_refl _⟩

/-- The schedule of the row is the one of the form. -/
structure Scheduled (fields : UpdateCheck) (check : Check) : Prop where
  kind : check.scheduleKind = fields.kind
  period : check.periodSecs = fields.periodSecs
  grace : check.graceSecs = fields.graceSecs
  cron : check.cronExpr = fields.cronExpr
  timezone : check.timezone = fields.timezone
  maxRuntime : check.maxRuntimeSecs = fields.maxRuntimeSecs
  nag : check.nagIntervalSecs = fields.nagIntervalSecs

/-- A deadline that a success ping can have left in a row: one of an accepted form, which need not be the
form the row has now, after an instant of the clock. -/
def StorableDue (X : Crates) (clock : Clock) (due : Instant) : Prop :=
  storedInstant due = some due ∧ ∃ form fields check, validateCheck X form = .ok fields ∧ Scheduled fields check ∧
    clock.Gives (anchor check) ∧ dueTime X check = .ok (some due)

/-- A row stored from the fields of a form, its instants given by the clock. -/
structure StoredFrom (X : Crates) (clock : Clock) (fields : UpdateCheck) (check : Check) : Prop where
  scheduled : Scheduled fields check
  created : clock.Gives check.createdAt
  pinged : ∀ t, check.lastPingAt = some t → clock.Gives t
  begun : ∀ t, check.lastStartAt = some t → clock.Gives t
  alerted : ∀ t, check.lastAlertAt = some t → clock.Gives t
  due : ∀ t, check.nextDueAt = some t → StorableDue X clock t

theorem StoredFrom.anchor {X : Crates} {clock : Clock} {fields : UpdateCheck} {check : Check}
    (hstored : StoredFrom X clock fields check) : clock.Gives (anchor check) := by
  unfold Pingward.anchor
  cases hping : check.lastPingAt with
  | none => exact hstored.created
  | some t => exact hstored.pinged t hping

/-- Every time computation on the row produces a value. -/
structure Computes (X : Crates) (interval : Option Int) (now : Instant) (check : Check) : Prop where
  due : ∃ due, dueTime X check = .ok due
  overrun : ∃ deadline, overrunTime check = .ok deadline
  reminder : ∀ secs last, interval = some secs → check.lastAlertAt = some last → ∃ due, reminderTime last secs = .ok due
  display : ∃ status, displayStatus check now = .ok status

/-- No time computation on a row stored from the form leaves the range, whatever instants the clock has
given. -/
def NeverLeavesRange (X : Crates) (clock : Clock) (fields : UpdateCheck) (projectNag globalNag : Option Int) : Prop :=
  ∀ check now, StoredFrom X clock fields check → clock.Gives now →
    Computes X (effectiveNagInterval check.nagIntervalSecs projectNag globalNag) now check

/-- The durations of the form leave room on the time line: after the clock's last instant for the period
with its grace, for the maximal run and for the nag interval, after every firing for the grace, and
before every stored deadline for the grace. -/
structure LeavesRoom (X : Crates) (clock : Clock) (fields : UpdateCheck) (projectNag globalNag : Option Int) : Prop where
  grace : SecondsOk fields.graceSecs
  period : fields.kind = .period → ∀ secs, fields.periodSecs = some secs →
    clock.last + (secs + fields.graceSecs) * nanosPerSec ≤ maxUtc
  firing : fields.kind = .cron → ∀ t next, clock.Gives t → firing X fields.cronExpr fields.timezone t = some next →
    inRange (next + fields.graceSecs * nanosPerSec)
  shown : ∀ due, StorableDue X clock due → inRange (due - fields.graceSecs * nanosPerSec)
  maxRuntime : ∀ secs, fields.maxRuntimeSecs = some secs → clock.last + secs * nanosPerSec ≤ maxUtc
  nag : ∀ secs, effectiveNagInterval fields.nagIntervalSecs projectNag globalNag = some secs →
    clock.last + secs * nanosPerSec ≤ maxUtc

/-- A duration that fits after the clock's last instant is one `Duration::seconds` takes, and it fits after
every instant of the clock. -/
theorem Clock.fits {clock : Clock} {t : Instant} {secs : Int} (ht : clock.Gives t) (hsecs : 0 ≤ secs)
    (hfits : clock.last + secs * nanosPerSec ≤ maxUtc) : SecondsOk secs ∧ inRange (t + secs * nanosPerSec) := by
  obtain ⟨hlow, hhigh⟩ := ht
  have hfirst := clock.epoch
  have hsum : 0 ≤ secs * nanosPerSec := mul_nonneg hsecs (by decide)
  have hmin : minUtc ≤ 0 := by decide
  have hbound : SecondsOk secs := by
    have hmax : maxUtc ≤ i64Max / 1000 * nanosPerSec := by decide
    have hlow' : -(i64Max / 1000) ≤ 0 := by decide
    refine ⟨hlow'.trans hsecs, le_of_mul_le_mul_right (?_ : secs * nanosPerSec ≤ _) (by decide : 0 < nanosPerSec)⟩
    linarith
  exact ⟨hbound, by linarith, by linarith⟩

/-! ### Room is enough -/

section Enough

variable {X : Crates} {clock : Clock} {fields : UpdateCheck} {projectNag globalNag : Option Int} {check : Check}

theorem dueTime_of_room (hroom : LeavesRoom X clock fields projectNag globalNag) (hpos : fields.Positive)
    (hstored : StoredFrom X clock fields check) : ∃ due, dueTime X check = .ok due := by
  refine ⟨_, dueTime_eq_ok_iff.mpr ⟨⟨?_, ?_, ?_⟩, rfl⟩⟩
  · rw [hstored.scheduled.grace]
    exact hroom.grace
  · intro hkind secs hsecs
    rw [hstored.scheduled.kind] at hkind
    rw [hstored.scheduled.period] at hsecs
    obtain ⟨_, hsome, hsecsPos⟩ := hpos.period hkind
    obtain rfl := Option.some.inj (hsome.symm.trans hsecs)
    apply Clock.fits hstored.anchor (le_of_lt hsecsPos)
    have hfits := hroom.period hkind _ hsecs
    have hgrace : 0 ≤ fields.graceSecs * nanosPerSec := mul_nonneg hpos.grace (by decide)
    linarith
  · intro due hdue
    unfold checkInBy expectedBy at hdue
    rw [hstored.scheduled.grace] at hdue
    cases hkind : fields.kind with
    | period =>
        obtain ⟨secs, hsecs, hsecsPos⟩ := hpos.period hkind
        rw [hstored.scheduled.kind, hkind, hstored.scheduled.period, hsecs] at hdue
        simp only [Option.map_some, Option.some.injEq] at hdue
        have hfits := (Clock.fits hstored.anchor (add_nonneg (le_of_lt hsecsPos) hpos.grace)
          (hroom.period hkind secs hsecs)).2
        rwa [add_mul, ← add_assoc, hdue] at hfits
    | cron =>
        rw [hstored.scheduled.kind, hkind, hstored.scheduled.cron, hstored.scheduled.timezone] at hdue
        obtain ⟨next, hnext, rfl⟩ := Option.map_eq_some_iff.mp hdue
        exact hroom.firing hkind _ next hstored.anchor hnext

theorem overrunTime_of_room (hroom : LeavesRoom X clock fields projectNag globalNag) (hpos : fields.Positive)
    (hstored : StoredFrom X clock fields check) : ∃ deadline, overrunTime check = .ok deadline := by
  refine ⟨_, overrunTime_eq_ok_iff.mpr ⟨?_, rfl⟩⟩
  intro deadline hdeadline
  unfold finishBy at hdeadline
  obtain ⟨limit, hlimit, hdeadline⟩ := Option.bind_eq_some_iff.mp hdeadline
  split at hdeadline
  · cases hdeadline
  obtain ⟨begun, hbegun, hdeadline⟩ := Option.bind_eq_some_iff.mp hdeadline
  split at hdeadline
  · cases hdeadline
    have hlimit' := hstored.scheduled.maxRuntime.symm.trans hlimit
    have hfits := Clock.fits (hstored.begun begun hbegun) (le_of_lt (hpos.maxRuntime limit hlimit'))
      (hroom.maxRuntime limit hlimit')
    refine ⟨fun limit' hsome => ?_, hfits.2⟩
    obtain rfl := Option.some.inj (hlimit.symm.trans hsome)
    exact hfits.1
  · cases hdeadline

theorem displayStatus_of_room (hroom : LeavesRoom X clock fields projectNag globalNag)
    (hstored : StoredFrom X clock fields check) (now : Instant) : ∃ status, displayStatus check now = .ok status := by
  unfold displayStatus
  split
  · exact ⟨_, rfl⟩
  · exact ⟨_, rfl⟩
  · exact ⟨_, rfl⟩
  · split
    · exact ⟨_, rfl⟩
    · split
      · exact ⟨_, rfl⟩
      · rename_i due hdue
        have hgrace := hroom.grace
        have hrange := hroom.shown due (hstored.due due hdue)
        rw [← hstored.scheduled.grace] at hgrace hrange
        exact ⟨_, except_bind_eq_ok.mpr ⟨_, durationSeconds_eq_ok_iff.mpr ⟨hgrace, rfl⟩,
          except_bind_eq_ok.mpr ⟨_, subDuration_eq_ok_iff.mpr ⟨hrange, rfl⟩, rfl⟩⟩⟩

theorem computes_of_room (hroom : LeavesRoom X clock fields projectNag globalNag) (hpos : fields.Positive)
    (hstored : StoredFrom X clock fields check) (now : Instant) :
    Computes X (effectiveNagInterval check.nagIntervalSecs projectNag globalNag) now check where
  due := dueTime_of_room hroom hpos hstored
  overrun := overrunTime_of_room hroom hpos hstored
  reminder := by
    intro secs last hsecs hlast
    rw [hstored.scheduled.nag] at hsecs
    have hfits := Clock.fits (hstored.alerted last hlast) (le_of_lt (effectiveNagInterval_pos hsecs))
      (hroom.nag secs hsecs)
    exact ⟨_, reminderTime_eq_ok_iff.mpr ⟨hfits, rfl⟩⟩
  display := displayStatus_of_room hroom hstored now

end Enough

/-! ### Room is needed -/

section Needed

variable {X : Crates} {clock : Clock} {fields : UpdateCheck} {projectNag globalNag : Option Int}

/-- A row stored from the form at `t`, with what may have happened to it since. -/
def UpdateCheck.storedAt (fields : UpdateCheck) (t : Instant) (begun alerted due : Option Instant) : Check :=
  { (fields.newCheck 0 "").row t 0 with
    status := .up, lastStartAt := begun, lastAlertAt := alerted, nextDueAt := due }

theorem storedFrom_storedAt {t : Instant} {begun alerted due : Option Instant} (ht : clock.Gives t)
    (hbegun : ∀ t, begun = some t → clock.Gives t) (halerted : ∀ t, alerted = some t → clock.Gives t)
    (hdue : ∀ t, due = some t → StorableDue X clock t) :
    StoredFrom X clock fields (fields.storedAt t begun alerted due) where
  scheduled := ⟨rfl, rfl, rfl, rfl, rfl, rfl, rfl⟩
  created := ht
  pinged := by rintro t ⟨⟩
  begun := hbegun
  alerted := halerted
  due := hdue

theorem room_of_computes (hpos : fields.Positive) (hnever : NeverLeavesRange X clock fields projectNag globalNag) :
    LeavesRoom X clock fields projectNag globalNag := by
  have hlast := clock.gives_last
  have hnone : ∀ {P : Instant → Prop} (t : Instant), none = some t → P t := by rintro P t ⟨⟩
  have hgives : ∀ t, some clock.last = some t → clock.Gives t := by
    rintro t ⟨⟩
    exact hlast
  have hdueRange : ∀ t, clock.Gives t → DueInRange X (fields.storedAt t none none none) t := by
    intro t ht
    obtain ⟨due, hdue⟩ := (hnever _ _ (storedFrom_storedAt ht hnone hnone hnone) hlast).due
    exact (dueTime_eq_ok_iff.mp hdue).1
  refine ⟨(hdueRange _ hlast).1, ?_, ?_, ?_, ?_, ?_⟩
  · intro hkind secs hsecs
    have hrange := (hdueRange _ hlast).2.2 (clock.last + secs * nanosPerSec + fields.graceSecs * nanosPerSec) <| by
      simp [checkInBy, expectedBy, UpdateCheck.storedAt, UpdateCheck.newCheck, NewCheck.row, hkind, hsecs]
    rw [add_mul, ← add_assoc]
    exact hrange.2
  · intro hkind t next ht hnext
    apply (hdueRange t ht).2.2 _
    simp [checkInBy, expectedBy, UpdateCheck.storedAt, UpdateCheck.newCheck, NewCheck.row, hkind, hnext]
  · intro due hdue
    have hstored : StoredFrom X clock fields (fields.storedAt clock.last none none (some due)) := by
      apply storedFrom_storedAt hlast hnone hnone
      rintro t ⟨⟩
      exact hdue
    obtain ⟨status, hstatus⟩ := (hnever _ _ hstored hlast).display
    change durationSeconds fields.graceSecs >>= _ = _ at hstatus
    simp only [except_bind_eq_ok, durationSeconds_eq_ok_iff, subDuration_eq_ok_iff] at hstatus
    obtain ⟨_, ⟨_, rfl⟩, _, ⟨hrange, _⟩, _⟩ := hstatus
    exact hrange
  · intro secs hsecs
    obtain ⟨deadline, hdeadline⟩ := (hnever _ _ (storedFrom_storedAt hlast hgives hnone hnone) hlast).overrun
    have hrun := (overrunTime_eq_ok_iff.mp hdeadline).1 (clock.last + secs * nanosPerSec) <| by
      have hpositive := hpos.maxRuntime secs hsecs
      simp [finishBy, UpdateCheck.storedAt, UpdateCheck.newCheck, NewCheck.row, hsecs, hpositive]
    exact hrun.2.2
  · intro secs hsecs
    obtain ⟨due, hdue⟩ := (hnever _ _ (storedFrom_storedAt hlast hnone hgives hnone) hlast).reminder secs _ hsecs rfl
    exact (reminderTime_eq_ok_iff.mp hdue).1.2.2

end Needed

/-! ### Passes over all checks -/

/-- Every check of the database was stored from an accepted form that leaves room, under the nag intervals
that the database has for it. -/
def Db.LeavesRoom (X : Crates) (clock : Clock) (db : Db) : Prop :=
  ∀ check ∈ db.checks.rows, ∃ form fields, validateCheck X form = .ok fields ∧ StoredFrom X clock fields check ∧
    Pingward.LeavesRoom X clock fields (lookup db.projectNags check.projectId).join db.globalNag

theorem scan_completes {X : Crates} {clock : Clock} {db : Db} (hroom : db.LeavesRoom X clock) (now : Instant)
    (baseUrl : String) : (run exec (scanOnce X now baseUrl) db).outcome ≠ .panic := by
  rw [scanOnce_eq]
  intro hpanic
  obtain ⟨check, hmem, hbad⟩ := (Round.forChecks_panic_iff (scanRound_describes X now baseUrl _ _)
    (scanCheck_panic_iff X now baseUrl _ _) _ db).mp hpanic
  obtain ⟨form, fields, hvalid, hstored, hroom⟩ := hroom check ((Db.mem_selectChecks.mp hmem).1)
  have hcomputes := computes_of_room hroom (validateCheck_positive hvalid) hstored now
  exact hbad ⟨hcomputes.due, hcomputes.overrun⟩

theorem nag_completes {X : Crates} {clock : Clock} {db : Db} (hroom : db.LeavesRoom X clock) (now : Instant)
    (baseUrl : String) : (run exec (nagOnce now baseUrl) db).outcome ≠ .panic := by
  rw [nagOnce_eq]
  intro hpanic
  obtain ⟨check, hmem, _, interval, last, hinterval, hlast, hbad⟩ := (Round.forChecks_panic_iff
    (nagRound_describes now baseUrl _ _ _ _) (nagCheck_panic_iff now baseUrl _ _ _ _) _ db).mp hpanic
  obtain ⟨form, fields, hvalid, hstored, hroom⟩ := hroom check ((Db.mem_selectChecks.mp hmem).1)
  obtain ⟨due, hdue⟩ := (computes_of_room hroom (validateCheck_positive hvalid) hstored now).reminder
    interval last hinterval hlast
  exact hbad due hdue

/-- The instance-wide nag interval that a saved settings form leaves. -/
def savedNag (saved : List (String × String)) : Option Int := (saved.lookup "nag_interval").bind parseI64

/-- **Range.** On the rows stored from an accepted form, under an accepted project and accepted settings, the
time computations all produce a value exactly when the form leaves room; and if every form did, no scan
and no nag pass aborts. -/
theorem computes_iff_leavesRoom (X : Crates) (clock : Clock) :
    (∀ form fields projectForm project settingsForm saved, validateCheck X form = .ok fields →
      validateProject projectForm = .ok project → validateSettings X settingsForm = .ok saved →
        (NeverLeavesRange X clock fields project.nagIntervalSecs (savedNag saved) ↔
          LeavesRoom X clock fields project.nagIntervalSecs (savedNag saved))) ∧
    ∀ db : Db, db.LeavesRoom X clock → ∀ now baseUrl,
      (run exec (scanOnce X now baseUrl) db).outcome ≠ .panic ∧ (run exec (nagOnce now baseUrl) db).outcome ≠ .panic := by
  refine ⟨?_, fun db hroom now baseUrl => ⟨scan_completes hroom now baseUrl, nag_completes hroom now baseUrl⟩⟩
  intro form fields projectForm project settingsForm saved hvalid _ _
  have hpos := validateCheck_positive hvalid
  exact ⟨room_of_computes hpos, fun hroom check now hstored _ => computes_of_room hroom hpos hstored now⟩

/-! ### Two forms -/

/-- The years 2020 to 2099. -/
def Clock.sample : Clock := ⟨1577836800 * nanosPerSec, 4102444799 * nanosPerSec, by decide, by decide, by decide⟩

def CheckForm.every (period : String) : CheckForm :=
  ⟨"backup", "", "period", period, "", "10", "UTC", "", "5m", "10m"⟩

def UpdateCheck.every (secs : Int) : UpdateCheck :=
  ⟨"backup", "", .period, some secs, 10, none, "UTC", none, some 300, some 600⟩

/-- The first second of 2026. -/
def newYear : Instant := 1767225600 * nanosPerSec

/-- The check stored from that form at the new year. -/
def Check.every (secs id : Int) : Check := ((UpdateCheck.every secs).newCheck 1 (i64ToString secs)).row newYear id

theorem storedFrom_every (X : Crates) (secs id : Int) : StoredFrom X .sample (.every secs) (.every secs id) where
  scheduled := ⟨rfl, rfl, rfl, rfl, rfl, rfl, rfl⟩
  created := show Clock.sample.Gives newYear from ⟨by decide, by decide⟩
  pinged := by rintro t ⟨⟩
  begun := by rintro t ⟨⟩
  alerted := by rintro t ⟨⟩
  due := by rintro t ⟨⟩

/-- A database with one project that has such checks. -/
def Db.every (periods : List Int) : Db :=
  (StoreCall.createUser "alice" none false 0 :: .createProject 1 ⟨"jobs", "", none, none⟩ 0 ::
    periods.map fun secs => .createCheck ((UpdateCheck.every secs).newCheck 1 (i64ToString secs)) newYear).foldl
      (fun db c => (exec c db).2) .empty

theorem leavesRoom_minute : LeavesRoom plainCrates .sample (.every 60) none none where
  grace := by decide
  period := by
    rintro _ secs ⟨⟩
    decide
  firing := by rintro ⟨⟩
  shown := by
    rintro due ⟨hstored, _⟩
    obtain ⟨_, hlow, hhigh⟩ := storedInstant_eq_some_iff.mp hstored
    have hmin : minUtc + 10 * nanosPerSec ≤ yearZero := by decide
    have hmax : yearMax ≤ maxUtc := by decide
    have hten : 0 ≤ 10 * nanosPerSec := by decide
    constructor <;> simp only [UpdateCheck.every] <;> linarith
  maxRuntime := by
    rintro secs ⟨⟩
    decide
  nag := by
    rintro secs ⟨⟩
    decide

theorem computes_iff_leavesRoom_minute :
    (validateCheck plainCrates (.every "1m") = .ok (.every 60) ∧
      validateProject ⟨"jobs", "", "", ""⟩ = .ok ⟨"jobs", "", none, none⟩ ∧
      NeverLeavesRange plainCrates .sample (.every 60) none none) ∧
    (run exec (scanOnce plainCrates (newYear + 70 * nanosPerSec) "") (Db.every [60])).outcome ≠ .panic := by
  have hvalid : validateCheck plainCrates (.every "1m") = .ok (.every 60) := by decide +kernel
  have hproject : validateProject ⟨"jobs", "", "", ""⟩ = .ok ⟨"jobs", "", none, none⟩ := by decide +kernel
  obtain ⟨hiff, hpass⟩ := computes_iff_leavesRoom plainCrates .sample
  refine ⟨⟨hvalid, hproject, ?_⟩, ?_⟩
  · have hsettings : validateSettings plainCrates ⟨"", "", "", "", "", ""⟩ = .ok
      ((settingFields ⟨"", "", "", "", "", ""⟩).map fun field => (field.1, "")) := by decide +kernel
    exact (hiff _ _ _ _ _ _ hvalid hproject hsettings).mpr leavesRoom_minute
  · refine (hpass (Db.every [60]) ?_ _ "").1
    intro check hmem
    have hrows : (Db.every [60]).checks.rows = [.every 60 1] := by decide +kernel
    rw [hrows, List.mem_singleton] at hmem
    subst hmem
    exact ⟨_, _, hvalid, storedFrom_every _ _ _, leavesRoom_minute⟩

/-- A period of a hundred million days passes the validator and has no deadline. The scan that meets the
check panics, and the check after it, overdue for a day, is not downed. -/
theorem accepted_period_aborts_scan :
    validateCheck plainCrates (.every "100000000d") = .ok (.every 8640000000000) ∧
      StoredFrom plainCrates .sample (.every 8640000000000) (.every 8640000000000 1) ∧
      (dueTime plainCrates (.every 8640000000000 1)).toOption = none ∧
      (run exec (scanOnce plainCrates (newYear + 86400 * nanosPerSec) "") (Db.every [8640000000000, 60])).outcome = .panic ∧
      (run exec (scanOnce plainCrates (newYear + 86400 * nanosPerSec) "")
        (Db.every [8640000000000, 60])).state.findCheck 2 = some (.every 60 2) ∧
      (Check.every 60 2).isOverdue plainCrates (newYear + 86400 * nanosPerSec) = true :=
  ⟨by decide +kernel, storedFrom_every _ _ _, by decide +kernel, by decide +kernel, by decide +kernel,
    by decide +kernel⟩

end Pingward
