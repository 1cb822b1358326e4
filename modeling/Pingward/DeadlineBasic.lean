import Pingward.ModelScheduler

/-! The deadlines of a check on the unbounded time line, and when chrono's arithmetic agrees with it. -/

namespace Pingward

/-- The first firing of a cron expression after `last`, in its zone. -/
def firing (X : Crates) (cronExpr : Option String) (timezone : String) (last : Instant) : Option Instant :=
  (cronExpr.bind fun expr => (X.parseSchedule expr).toOption).bind fun schedule =>
    X.next schedule ((X.parseTz timezone).getD X.utc) last

/-- When a check that last finished, or was created, at `last` has to finish again, without grace. -/
def expectedBy (X : Crates) (check : Check) (last : Instant) : Option Instant :=
  match check.scheduleKind with
  | .period => check.periodSecs.map fun secs => last + secs * nanosPerSec
  | .cron => firing X check.cronExpr check.timezone last

/-- As `expectedBy`, grace included. -/
def checkInBy (X : Crates) (check : Check) (last : Instant) : Option Instant :=
  (expectedBy X check last).map (· + check.graceSecs * nanosPerSec)

/-- When a run in flight has to finish. -/
def finishBy (check : Check) : Option Instant :=
  check.maxRuntimeSecs.bind fun limit =>
    if limit ≤ 0 then none
    else check.lastStartAt.bind fun begun =>
      if check.lastPingAt.all (· < begun) then some (begun + limit * nanosPerSec) else none

/-- The sums of `dueTime` stay in range. -/
def DueInRange (X : Crates) (check : Check) (last : Instant) : Prop :=
  SecondsOk check.graceSecs ∧
    (check.scheduleKind = .period → ∀ secs, check.periodSecs = some secs →
      SecondsOk secs ∧ inRange (last + secs * nanosPerSec)) ∧
    ∀ due, checkInBy X check last = some due → inRange due

/-- The sum of `overrunTime` stays in range. -/
def RunInRange (check : Check) : Prop :=
  ∀ deadline, finishBy check = some deadline →
    (∀ limit, check.maxRuntimeSecs = some limit → SecondsOk limit) ∧ inRange deadline

/-- **`due_time`** is the deadline on the time line, and panics exactly when a sum leaves chrono's
range. -/
theorem dueTime_eq_ok_iff {X : Crates} {check : Check} {due : Option Instant} :
    dueTime X check = .ok due ↔
      DueInRange X check (anchor check) ∧ checkInBy X check (anchor check) = due := by
  unfold dueTime
  rw [except_bind_eq_ok]
  simp only [durationSeconds_eq_ok_iff, DueInRange, checkInBy, expectedBy, firing]
  cases hkind : check.scheduleKind with
  | period =>
      cases hsecs : check.periodSecs with
      | none => simp [pure, Except.pure]
      | some secs =>
          simp only [except_bind_eq_ok, durationSeconds_eq_ok_iff, addDuration_eq_ok_iff, pure, Except.pure,
            Except.ok.injEq]
          constructor
          · rintro ⟨_, ⟨hgrace, rfl⟩, _, ⟨hperiod, rfl⟩, _, ⟨hexpected, rfl⟩, _, ⟨hdue, rfl⟩, rfl⟩
            simp [hgrace, hperiod, hexpected, hdue]
          · rintro ⟨⟨hgrace, hperiod, hdue⟩, rfl⟩
            obtain ⟨hperiod, hexpected⟩ := hperiod trivial secs rfl
            exact ⟨_, ⟨hgrace, rfl⟩, _, ⟨hperiod, rfl⟩, _, ⟨hexpected, rfl⟩, _, ⟨hdue _ rfl, rfl⟩, rfl⟩
  | cron =>
      cases hexpr : check.cronExpr with
      | none => simp [pure, Except.pure]
      | some expr =>
          cases hschedule : X.parseSchedule expr with
          | error message => simp [hschedule, pure, Except.pure, Except.toOption]
          | ok schedule =>
              cases hnext : X.next schedule ((X.parseTz check.timezone).getD X.utc) (anchor check) with
              | none => simp [hschedule, hnext, pure, Except.pure, Except.toOption]
              | some next =>
                  simp only [hschedule, hnext, except_bind_eq_ok, addDuration_eq_ok_iff, pure, Except.pure,
                    Except.ok.injEq, Except.toOption, Option.bind_some, Option.map_some, Option.some.injEq]
                  constructor
                  · rintro ⟨_, ⟨hgrace, rfl⟩, _, ⟨hdue, rfl⟩, rfl⟩
                    simp [hgrace, hdue]
                  · rintro ⟨⟨hgrace, _, hdue⟩, rfl⟩
                    exact ⟨_, ⟨hgrace, rfl⟩, _, ⟨hdue _ rfl, rfl⟩, rfl⟩

theorem overrunTime_eq_ok_iff {check : Check} {deadline : Option Instant} :
    overrunTime check = .ok deadline ↔ RunInRange check ∧ finishBy check = deadline := by
  unfold overrunTime RunInRange finishBy
  cases hlimit : check.maxRuntimeSecs with
  | none => simp [pure, Except.pure]
  | some limit =>
      by_cases hzero : limit ≤ 0
      · simp [hzero, pure, Except.pure]
      · cases hbegun : check.lastStartAt with
        | none => simp [hzero, pure, Except.pure]
        | some begun =>
            by_cases hflight : check.lastPingAt.all (· < begun) = true
            · simp only [hzero, if_false, hflight, if_true, except_bind_eq_ok, durationSeconds_eq_ok_iff,
                addDuration_eq_ok_iff, pure, Except.pure, Except.ok.injEq, Option.bind_some, Option.some.injEq]
              constructor
              · rintro ⟨_, ⟨hseconds, rfl⟩, _, ⟨hrange, rfl⟩, rfl⟩
                simp [hseconds, hrange]
              · rintro ⟨hrange, rfl⟩
                obtain ⟨hseconds, hrange⟩ := hrange _ rfl
                exact ⟨_, ⟨hseconds limit rfl, rfl⟩, _, ⟨hrange, rfl⟩, rfl⟩
            · simp [hzero, hflight, pure, Except.pure]

/-- The nag cascade takes positive levels only. -/
theorem effectiveNagInterval_pos {checkSecs projectSecs globalSecs : Option Int} {secs : Int}
    (hinterval : effectiveNagInterval checkSecs projectSecs globalSecs = some secs) : 0 < secs := by
  simpa using List.find?_some hinterval

theorem reminderTime_eq_ok_iff {last due : Instant} {interval : Int} :
    reminderTime last interval = .ok due ↔
      (SecondsOk interval ∧ inRange (last + interval * nanosPerSec)) ∧ last + interval * nanosPerSec = due := by
  unfold reminderTime
  simp only [except_bind_eq_ok, durationSeconds_eq_ok_iff, addDuration_eq_ok_iff]
  constructor
  · rintro ⟨_, ⟨hseconds, rfl⟩, hrange, rfl⟩
    exact ⟨⟨hseconds, hrange⟩, rfl⟩
  · rintro ⟨⟨hseconds, hrange⟩, rfl⟩
    exact ⟨_, ⟨hseconds, rfl⟩, hrange, rfl⟩

end Pingward
