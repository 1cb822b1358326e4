import Pingward.DeadlineBasic
import Pingward.ModelSession
import Pingward.ProgramInterleave
import Pingward.RowPass
import Pingward.RowPing

/-! The running checks as the dashboard counts them, as a page displays them, and as the scan takes them to be in
flight. The count compares stored texts; on instants of four-digit years these sort as the instants do. -/

open KeyedTable StoreProgram

namespace Pingward

/-! ### The count -/

structure CheckStatusCounts where
  new : Nat
  up : Nat
  down : Nat
  paused : Nat
  running : Nat
  deriving DecidableEq, Repr

/-- `status IN ('up','new') AND last_start_at IS NOT NULL AND (last_ping_at IS NULL OR last_start_at > last_ping_at)`,
on the stored texts. -/
def Check.countsRunning (check : Check) : Bool :=
  let lastStartAt := check.lastStartAt.map toRfc3339
  let lastPingAt := check.lastPingAt.map toRfc3339
  (check.status = .up ∨ check.status = .new) && lastStartAt.isSome &&
    (lastPingAt.isNone || lastStartAt.any fun start => lastPingAt.any fun ping => ping < start)

def countChecksByStatus (db : Db) : CheckStatusCounts where
  new := db.checks.rows.countP fun check => check.status = .new
  up := db.checks.rows.countP fun check => check.status = .up
  down := db.checks.rows.countP fun check => check.status = .down
  paused := db.checks.rows.countP fun check => check.status = .paused
  running := db.checks.rows.countP Check.countsRunning

/-! ### The instants of a check -/

/-- The instants of the last start and the last finish have four-digit years. -/
structure Check.Clocked (check : Check) : Prop where
  start : ∀ t, check.lastStartAt = some t → Calendar.FourDigits t
  ping : ∀ t, check.lastPingAt = some t → Calendar.FourDigits t

/-- A mark carries readings of a clock in a four-digit year. -/
def StoreCall.Clocked : StoreCall → Prop
  | .markPing _ mark =>
      (∀ t, mark.lastStartAt = some t → Calendar.FourDigits t) ∧ ∀ t, mark.lastPingAt = some t → Calendar.FourDigits t
  | _ => True

/-- A database some calls lead to from a fresh one. -/
inductive StoreReached : Db → Prop where
  | start : StoreReached .empty
  | call {db : Db} (c : StoreCall) (before : StoreReached db) (hclock : c.Clocked) : StoreReached (exec c db).2

theorem Check.Clocked.mark {check : Check} (hcheck : check.Clocked) {mark : PingMark}
    (hstart : ∀ t, mark.lastStartAt = some t → Calendar.FourDigits t)
    (hping : ∀ t, mark.lastPingAt = some t → Calendar.FourDigits t) : (mark.apply check).Clocked := by
  constructor
  · intro t ht
    rcases Option.or_eq_some_iff.mp ht with hmark | ⟨-, hold⟩
    · exact hstart t hmark
    · exact hcheck.start t hold
  · intro t ht
    rcases Option.or_eq_some_iff.mp ht with hmark | ⟨-, hold⟩
    · exact hping t hmark
    · exact hcheck.ping t hold

/-- A call whose marks are clock readings keeps the instants of the checks in four-digit years. -/
theorem exec_clocked {c : StoreCall} (hclock : c.Clocked) {db : Db} (hdb : ∀ row ∈ db.checks.rows, row.Clocked) :
    ∀ row ∈ (exec c db).2.checks.rows, row.Clocked := by
  by_cases hwrites : .checks ∈ c.writes
  · cases c
    case markPing id mark => exact db.checks.forall_update hdb id _ fun row hrow => hrow.mark hclock.1 hclock.2
    case createCheck new now =>
      simp only [exec, Db.createCheck]
      split
      · exact hdb
      · split
        · exact hdb
        · refine db.checks.forall_insert hdb _ (fun _ => rfl) ⟨fun t ht => ?_, fun t ht => ?_⟩
          · cases ht
          · cases ht
    case regenerateUuid id uuid =>
      simp only [exec, Db.regenerateUuid]
      split
      · exact hdb
      · exact db.checks.forall_update hdb id _ fun row hrow => ⟨hrow.start, hrow.ping⟩
    case deleteCheck id => exact db.checks.forall_deleteWhere hdb _
    case deleteProject id => exact db.checks.forall_deleteWhere hdb _
    case deleteUser id => exact db.checks.forall_deleteWhere hdb _
    all_goals first
      | exact db.checks.forall_update hdb _ _ fun row hrow => ⟨hrow.start, hrow.ping⟩
      | simp [StoreCall.writes] at hwrites
  · rw [exec_checks hwrites db]
    exact hdb

theorem StoreReached.clocked {db : Db} (hreach : StoreReached db) : ∀ row ∈ db.checks.rows, row.Clocked := by
  induction hreach with
  | start => exact fun row hrow => absurd hrow List.not_mem_nil
  | call c _ hclock ih => exact exec_clocked hclock ih

/-! ### Programs -/

/-- Programs whose marks are clock readings, interleaved in any order. -/
theorem reach_storeReached {ι A α : Type} [DecidableEq ι] {pool : ι → StoreProg A α} {db : Db} (hdb : StoreReached db)
    (hpool : ∀ i, (pool i).Only StoreCall.Clocked fun _ => True)
    {allowed : Config ι StoreCall StoreCall.Res StoreError Spawned A α Db → ι → Prop}
    {cfg : Config ι StoreCall StoreCall.Res StoreError Spawned A α Db}
    (hreach : Reach exec allowed (Config.init pool db) cfg) : StoreReached cfg.state := by
  have hboth := hreach.invariant exec
    (fun cfg => StoreReached cfg.state ∧ ∀ i, (cfg.pool i).Only StoreCall.Clocked fun _ => True) ⟨hdb, hpool⟩ ?_
  · exact hboth.1
  rintro cfg cfg' i ⟨hstate, honly⟩ - hstep
  have hrest := Config.advance_inherit exec (P := fun _ program => program.Only StoreCall.Clocked fun _ => True)
    (fun _ _ _ hprogram => hprogram.2) (fun _ _ _ hprogram => hprogram.2) honly hstep
  refine ⟨?_, hrest⟩
  rcases Config.advance_cases exec hstep with ⟨event, next, -, rfl⟩ | ⟨query, next, hprogram, rfl⟩
  · exact hstate
  · have hquery := honly i
    rw [hprogram] at hquery
    exact .call query hstate hquery.1

/-- The ping handler marks a check with the time of the request, and no other program marks one. -/
theorem apply_clocked (X : Crates) (ping : PingRequest) {now : Instant} (hnow : Calendar.FourDigits now) :
    (apply X ping now).Only StoreCall.Clocked fun _ => True := by
  refine apply_only X ping now trivial (fun _ => trivial) ?_ (fun _ => trivial) fun _ => trivial
  rintro id mark (⟨hping, hstart⟩ | ⟨hping, hstart⟩)
  · refine ⟨fun t ht => ?_, fun t ht => ?_⟩
    · rw [hstart] at ht
      cases ht
    · rw [hping, Option.some_inj] at ht
      exact ht ▸ hnow
  · refine ⟨fun t ht => ?_, fun t ht => ?_⟩
    · rw [hstart, Option.some_inj] at ht
      exact ht ▸ hnow
    · rw [hping] at ht
      cases ht

/-! ### Running -/

/-- A start that no finish followed. -/
def Check.InFlight (check : Check) : Prop :=
  ∃ start, check.lastStartAt = some start ∧ ∀ done, check.lastPingAt = some done → done < start

theorem isRunning_iff {check : Check} : isRunning check = true ↔ check.InFlight := by
  unfold isRunning Check.InFlight
  cases check.lastStartAt with
  | none => simp
  | some start =>
      cases check.lastPingAt with
      | none => simp
      | some done => simp

theorem displayStatus_running_iff {check : Check} {now : Instant} :
    displayStatus check now = .ok .running ↔ (check.status = .up ∨ check.status = .new) ∧ check.InFlight := by
  rw [← isRunning_iff]
  unfold displayStatus
  cases hstatus : check.status with
  | down => simp [pure, Except.pure]
  | paused => simp [pure, Except.pure]
  | new => cases hrunning : isRunning check <;> simp [pure, Except.pure]
  | up =>
      cases hrunning : isRunning check with
      | true => simp [pure, Except.pure]
      | false =>
          simp only [Bool.false_eq_true, if_false, and_false, iff_false]
          cases check.nextDueAt with
          | none => exact fun heq => nomatch heq
          | some due =>
              intro heq
              obtain ⟨grace, -, hgrace⟩ := except_bind_eq_ok.mp heq
              obtain ⟨expected, -, hexpected⟩ := except_bind_eq_ok.mp hgrace
              split at hexpected
              · cases hexpected
              · cases hexpected

theorem countsRunning_iff {check : Check} (hclocked : check.Clocked) :
    check.countsRunning = true ↔ (check.status = .up ∨ check.status = .new) ∧ check.InFlight := by
  unfold Check.countsRunning Check.InFlight
  cases hstart : check.lastStartAt with
  | none => simp
  | some start =>
      cases hping : check.lastPingAt with
      | none => simp
      | some done =>
          have hlt := Calendar.rfc3339_lt_iff (hclocked.ping done hping) (hclocked.start start hstart)
          simp only [Option.map_some, Option.isSome_some, Option.isNone_some, Option.any_some, Bool.false_or, Bool.and_true,
            Bool.and_eq_true, decide_eq_true_eq, toRfc3339, hlt, Option.some_inj, exists_eq_left', forall_eq']

/-- The scan takes a run to be in flight where it computes a deadline. -/
theorem overrunTime_some_iff {check : Check} {max : Int} (hmax : check.maxRuntimeSecs = some max) (hpos : 0 < max) :
    (∃ deadline, overrunTime check = .ok (some deadline)) ↔ check.InFlight ∧ SecondsOk max ∧
      ∀ start, check.lastStartAt = some start → inRange (start + max * nanosPerSec) := by
  unfold overrunTime Check.InFlight
  rw [hmax]
  dsimp only
  rw [if_neg (Int.not_le.mpr hpos)]
  cases hstart : check.lastStartAt with
  | none =>
      constructor
      · rintro ⟨deadline, heq⟩
        cases heq
      · rintro ⟨⟨start, hnone, -⟩, -⟩
        cases hnone
  | some start =>
      have hall : check.lastPingAt.all (· < start) = true ↔ ∀ done, check.lastPingAt = some done → done < start := by
        rw [Option.all_eq_true]
        simp only [decide_eq_true_eq]
      simp only [Option.some_inj, exists_eq_left', forall_eq', ← hall]
      by_cases hflight : check.lastPingAt.all (· < start) = true
      · simp only [if_pos hflight, except_bind_eq_ok, durationSeconds_eq_ok_iff, addDuration_eq_ok_iff]
        constructor
        · rintro ⟨deadline, _, ⟨hseconds, rfl⟩, _, ⟨hrange, rfl⟩, -⟩
          exact ⟨hflight, hseconds, hrange⟩
        · rintro ⟨-, hseconds, hrange⟩
          exact ⟨_, _, ⟨hseconds, rfl⟩, _, ⟨hrange, rfl⟩, rfl⟩
      · simp only [hflight, Bool.false_eq_true, false_and, iff_false]
        rintro ⟨deadline, heq⟩
        cases heq

/-- **Running.** In every database the calls of the program lead to, the dashboard counts the checks displayed as
running. An active check with a maximal runtime is displayed as running exactly when the scan computes a deadline for it,
if and only if that deadline exists for a run in flight: else the scan panics. -/
theorem running_counts {db : Db} (hreach : StoreReached db) (now : Instant) :
    (countChecksByStatus db).running = db.checks.rows.countP (fun check => displayStatus check now = .ok .running) ∧
      ∀ check ∈ db.checks.rows, (check.status = .up ∨ check.status = .new) →
        ∀ max, check.maxRuntimeSecs = some max → 0 < max →
          ((displayStatus check now = .ok .running ↔ ∃ deadline, overrunTime check = .ok (some deadline)) ↔
            (check.InFlight → SecondsOk max ∧
              ∀ start, check.lastStartAt = some start → inRange (start + max * nanosPerSec))) := by
  constructor
  · refine List.countP_congr fun check hcheck => ?_
    rw [decide_eq_true_eq, countsRunning_iff (hreach.clocked check hcheck), displayStatus_running_iff]
  · intro check _ hactive max hmax hpos
    rw [displayStatus_running_iff, overrunTime_some_iff hmax hpos, and_iff_right hactive]
    exact ⟨fun hiff hflight => (hiff.mp hflight).2, fun hroom => ⟨fun hflight => ⟨hflight, hroom hflight⟩, And.left⟩⟩

/-- A check whose maximal runtime is the greatest the forms accept, and a run of it. -/
def Db.longRun : Db :=
  [StoreCall.createUser "alice" none false 0,
    .createProject 1 ⟨"jobs", "", none, none⟩ 0,
    .createCheck ⟨1, "backup", "", "u1", .period, some 60, 0, none, "UTC", none, some i64Max, none⟩ 0,
    .markPing 1 ⟨.new, none, some (60 * nanosPerSec), none⟩].foldl (fun db c => (exec c db).2) .empty

theorem longRun_reached : StoreReached Db.longRun := by
  have hclock : Calendar.FourDigits (60 * nanosPerSec) := ⟨by decide, by decide⟩
  refine .call _ (.call _ (.call _ (.call _ .start trivial) trivial) trivial) ⟨fun t ht => ?_, fun t ht => ?_⟩
  · cases ht
    exact hclock
  · cases ht

theorem running_counts_longRun :
    (countChecksByStatus Db.longRun).running =
        Db.longRun.checks.rows.countP (fun check => displayStatus check 0 = .ok .running) ∧
      ∀ check ∈ Db.longRun.checks.rows, (check.status = .up ∨ check.status = .new) →
        ∀ max, check.maxRuntimeSecs = some max → 0 < max →
          ((displayStatus check 0 = .ok .running ↔ ∃ deadline, overrunTime check = .ok (some deadline)) ↔
            (check.InFlight → SecondsOk max ∧
              ∀ start, check.lastStartAt = some start → inRange (start + max * nanosPerSec))) :=
  running_counts longRun_reached 0

/-- The row of the run. -/
def longRunRow : Check :=
  { NewCheck.row ⟨1, "backup", "", "u1", .period, some 60, 0, none, "UTC", none, some i64Max, none⟩ 0 1 with
    lastStartAt := some (60 * nanosPerSec) }

/-- The check is displayed as running, and the scan panics over its deadline. -/
theorem longRun_without_deadline :
    ¬ ∀ db, StoreReached db → ∀ now,
      (countChecksByStatus db).running = db.checks.rows.countP (fun check => displayStatus check now = .ok .running) ∧
        ∀ check ∈ db.checks.rows, (check.status = .up ∨ check.status = .new) →
          ∀ max, check.maxRuntimeSecs = some max → 0 < max →
            (displayStatus check now = .ok .running ↔ ∃ deadline, overrunTime check = .ok (some deadline)) := by
  intro hall
  have hmem : longRunRow ∈ Db.longRun.checks.rows := by decide +kernel
  obtain ⟨deadline, hdeadline⟩ :=
    ((hall _ longRun_reached 0).2 longRunRow hmem (.inr rfl) i64Max rfl (by decide)).mp (by decide)
  have hpanic : overrunTime longRunRow = .error .duration := by decide
  rw [hpanic] at hdeadline
  cases hdeadline

end Pingward
