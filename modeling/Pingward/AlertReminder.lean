import Pingward.AlertLaw

/-! Reminders. Over a run in which the effective nag interval of a check stays the same, a nag pass
reminds of the check exactly when its incident is open, nobody has acknowledged it, and the interval
has passed since the incident's last alert. -/

open KeyedTable StoreProgram

namespace Pingward

/-- The instant of the last Down or Reminder. -/
def lastAlert : List Item → Option Instant
  | .alert .down at_ _ :: _ => some at_
  | .alert .reminder at_ _ :: _ => some at_
  | _ :: older => lastAlert older
  | [] => none

/-- The interval is set, and it has passed since the last alert. -/
def IntervalPassed (interval : Option Int) (history : List Item) (now : Instant) : Prop :=
  ∃ secs last, interval = some secs ∧ 0 < secs ∧ lastAlert history = some last ∧ last + secs * nanosPerSec ≤ now

/-- A reminder stands in an open incident that nobody has acknowledged, an interval or more after the
alert before it. -/
def ReminderSpaced (interval : Option Int) (older : List Item) (kind : EventKind) (at_ : Instant) : Prop :=
  kind = .reminder → lastSwitch older = some .down ∧ ackedSince older = false ∧ IntervalPassed interval older at_

structure ReminderInv (interval : Option Int) (check : Check) (history : List Item) : Prop where
  alert : AlertInv check history
  last : check.status = .down → check.lastAlertAt = lastAlert history
  every : EveryAlert (ReminderSpaced interval) history

namespace ReminderInv

variable {interval : Option Int} {check : Check} {history : List Item}

theorem fresh (hfresh : check.Fresh) : ReminderInv interval check [] :=
  ⟨.fresh hfresh, by simp [hfresh.status], everyAlert_nil⟩

/-- What the machine's reminder condition says in terms of the history. -/
theorem isReminded_iff (hinv : ReminderInv interval check history) (hpos : ∀ secs, interval = some secs → 0 < secs)
    (now : Instant) :
    check.isReminded interval now = true ↔
      check.status = .down ∧ ackedSince history = false ∧ IntervalPassed interval history now := by
  constructor
  · intro hreminded
    simp only [Check.isReminded, Bool.and_eq_true, decide_eq_true_eq, Bool.not_eq_true', Option.any_eq_true] at hreminded
    obtain ⟨⟨hdown, hack⟩, secs, hsecs, last, hlast, hpassed⟩ := hreminded
    exact ⟨hdown, (hinv.alert.acked hdown).symm.trans hack, secs, last, hsecs, hpos secs hsecs,
      (hinv.last hdown).symm.trans hlast, hpassed⟩
  · rintro ⟨hdown, hack, secs, last, hsecs, _, hlast, hpassed⟩
    have hstored := (hinv.alert.acked hdown).trans hack
    simp [Check.isReminded, hdown, hstored, hsecs, (hinv.last hdown).trans hlast, hpassed]

theorem ping_last (X : Crates) (hpaused : check.status ≠ .paused)
    (hlast : check.status = .down → check.lastAlertAt = lastAlert history) (kind : PingKind) (exitCode : Option Int)
    (now : Instant) (hdown : (RowInput.row X (.ping kind exitCode now) check).status = .down) :
    (RowInput.row X (.ping kind exitCode now) check).lastAlertAt =
      lastAlert (RowInput.items X (.ping kind exitCode now) check ++ history) := by
  cases kind with
  | success => cases hstatus : check.status <;> simp [RowInput.row, RowInput.pinged, hstatus, pingAlert, PingMark.ofPing,
      PingMark.apply, Check.cleared] at hdown
  | fail =>
      cases hstatus : check.status with
      | new => simp [RowInput.row, RowInput.items, RowInput.pinged, hstatus, pingAlert, Check.alerted, lastAlert]
      | up => simp [RowInput.row, RowInput.items, RowInput.pinged, hstatus, pingAlert, Check.alerted, lastAlert]
      | down =>
          simpa [RowInput.row, RowInput.items, RowInput.pinged, hstatus, pingAlert, PingMark.ofPing, PingMark.apply,
            lastAlert] using hlast hstatus
      | paused => exact absurd hstatus hpaused
  | start =>
      have hstatus : check.status = .down := hdown
      exact hlast hstatus
  | log => exact hlast hdown
  | exitcode => exact hlast hdown

theorem ping_every (X : Crates) (hevery : EveryAlert (ReminderSpaced interval) history) (kind : PingKind)
    (exitCode : Option Int) (now : Instant) :
    EveryAlert (ReminderSpaced interval) (RowInput.items X (.ping kind exitCode now) check ++ history) := by
  have hrecord : EveryAlert (ReminderSpaced interval) (.ping kind now :: history) :=
    hevery.cons (by intro kind at_ cause heq; cases heq)
  simp only [RowInput.items]
  cases halert : pingAlert kind check.status with
  | none => exact hrecord
  | some event =>
      refine hrecord.cons_alert ?_ _
      intro hreminder
      subst hreminder
      cases kind <;> cases hstatus : check.status <;> simp [pingAlert, hstatus] at halert

/-- **Step.** An input keeps the invariant, when a resume finds the check paused and a nag pass sees the
interval. -/
theorem step (X : Crates) (hinv : ReminderInv interval check history) (hpos : ∀ secs, interval = some secs → 0 < secs)
    {input : RowInput} (hping : ∀ kind exitCode now, input = .ping kind exitCode now → check.status ≠ .paused)
    (hresume : input = .resume → check.status = .paused)
    (hnag : ∀ seen now, input = .nag seen now → seen = interval) :
    ReminderInv interval (input.row X check) (input.items X check ++ history) := by
  have halert := hinv.alert.step X hping hresume
  cases input with
  | idle => exact hinv
  | record kind now => exact ⟨halert, hinv.last, hinv.every.cons (by intro kind at_ cause heq; cases heq)⟩
  | ping kind exitCode now =>
      exact ⟨halert, ping_last X (hping _ _ _ rfl) hinv.last kind exitCode now, ping_every X hinv.every kind exitCode now⟩
  | scan now =>
      simp only [RowInput.row, RowInput.items] at halert ⊢
      split
      · rename_i hdowned
        rw [if_pos hdowned, if_pos hdowned] at halert
        exact ⟨halert, fun _ => rfl, hinv.every.cons_alert (by intro hkind; cases hkind) _⟩
      · exact hinv
  | nag seen now =>
      obtain rfl := hnag seen now rfl
      simp only [RowInput.row, RowInput.items] at halert ⊢
      split
      · rename_i hreminded
        rw [if_pos hreminded, if_pos hreminded] at halert
        obtain ⟨hdown, hack, hpassed⟩ := (hinv.isReminded_iff hpos now).mp hreminded
        exact ⟨halert, fun _ => rfl, hinv.every.cons_alert
          (fun _ => ⟨(hinv.alert.switch (by simp [hdown])).mp hdown, hack, hpassed⟩) _⟩
      · exact hinv
  | acknowledge => exact ⟨halert, hinv.last, hinv.every.cons (by intro kind at_ cause heq; cases heq)⟩
  | edit fields => exact ⟨halert, hinv.last, hinv.every⟩
  | pause => exact ⟨halert, (by intro hdown; cases hdown), hinv.every.cons (by intro kind at_ cause heq; cases heq)⟩
  | resume => exact ⟨halert, (by intro hdown; cases hdown), hinv.every⟩

end ReminderInv

/-- A resume of the check finds it paused, and its effective nag interval is the given one. -/
def SteadyNag (X : Crates) (cid : Int) (interval : Option Int) (db : Db) (op : Operation) : Prop :=
  ResumesPaused X cid db op ∧ ∀ check, db.findCheck cid = some check → db.nagInterval check = interval

theorem Operation.Gives.nag_interval {X : Crates} {db : Db} {check : Check} {op : Operation} {seen : Option Int}
    {now : Instant} (hgives : op.Gives X db check (.nag seen now)) : seen = db.nagInterval check := by
  cases op with
  | ping route uuid body clientIp now' =>
      simp only [Operation.Gives] at hgives
      split at hgives
      · split at hgives <;> cases hgives
      · cases hgives
  | scan now' baseUrl => cases hgives
  | nag now' baseUrl =>
      simp only [Operation.Gives, RowInput.nag.injEq] at hgives
      exact hgives.1
  | web ctx id action => rcases hgives with h | ⟨_, h⟩ <;> cases action <;> simp [CheckAction.input] at h
  | admin ctx id action => rcases hgives with h | ⟨_, h⟩ <;> cases action <;> simp [CheckAction.input] at h
  | api ctx id action => rcases hgives with h | ⟨_, h⟩ <;> cases action <;> simp [CheckAction.input] at h

theorem SteadyNag.pos {X : Crates} {cid : Int} {interval : Option Int} {db : Db} {op : Operation} {check : Check}
    (hsteady : SteadyNag X cid interval db op) (hrow : db.findCheck cid = some check) {secs : Int}
    (hsecs : interval = some secs) : 0 < secs :=
  effectiveNagInterval_pos ((hsteady.2 check hrow).trans hsecs)

/-- What a run leaves of the reminders of a check, `allowed` being the passes that are asked about: a nag pass reminds of
it once when it is down, not acknowledged since its last Down, and the interval has passed since its last alert, and not at
all otherwise; and every reminder of the history stands so. -/
def TracksReminders (X : Crates) (allowed : Db → Operation → Prop) (cid : Int) (interval : Option Int) (db : Db)
    (log : Log) : Prop :=
  ∃ check, db.findCheck cid = some check ∧
    (∀ now baseUrl, allowed db (.nag now baseUrl) →
      ((check.status = .down ∧ ackedSince (log.of cid) = false ∧ IntervalPassed interval (log.of cid) now) ∧
          (Operation.log X (.nag now baseUrl) db).of cid = [.alert .reminder now none] ∨
        ¬(check.status = .down ∧ ackedSince (log.of cid) = false ∧ IntervalPassed interval (log.of cid) now) ∧
          (Operation.log X (.nag now baseUrl) db).of cid = [])) ∧
    EveryAlert (ReminderSpaced interval) (log.of cid) ∧
    (check.status ≠ .paused → (check.status = .down ↔ lastSwitch (log.of cid) = some .down)) ∧
    (interval = none → ∀ at_ cause, .alert .reminder at_ cause ∉ log.of cid)

/-- **Reminder law.** Along every sequential run from the creation of a check over which its effective
nag interval stays the same and no pass panics, the reminders are where they are due and nowhere else. -/
theorem reminder_law (X : Crates) (cid : Int) (interval : Option Int) {start db : Db} {log : Log} {created : Check}
    (hcreated : start.findCheck cid = some created) (hfresh : created.Fresh)
    (hreach : Reached X (fun db op => op.Completes X db ∧ SteadyNag X cid interval db op) start db log) :
    TracksReminders X (fun db op => op.Completes X db ∧ SteadyNag X cid interval db op) cid interval db log := by
  obtain ⟨check, hrow, hinv⟩ := hreach.row_invariant (ReminderInv interval) ⟨created, hcreated, .fresh hfresh⟩
    (fun _ _ hallowed => hallowed.1)
    (by
      intro db log op check input _ hallowed hrow hgives hinv
      have hcid : check.id = cid := Table.find_key _ hrow
      refine hinv.step X (fun secs hsecs => hallowed.2.pos hrow hsecs) ?_ ?_ ?_
      · rintro kind exitCode now rfl
        exact hgives.not_paused
      · rintro rfl
        exact hallowed.2.1 (hcid ▸ hgives.setsStatus rfl) check hrow
      · rintro seen now rfl
        exact hgives.nag_interval.trans (hallowed.2.2 check hrow))
  refine ⟨check, hrow, ?_, hinv.every, hinv.alert.switch, ?_⟩
  · rintro now baseUrl ⟨hcompletes, hsteady⟩
    obtain ⟨input, hgives, _, hlog⟩ := nag_refines X now baseUrl hcompletes hrow
    have hinput : input = .nag interval now := by
      rw [← hsteady.2 check hrow]
      exact hgives
    rw [hlog, hinput, RowInput.items]
    have hiff := hinv.isReminded_iff (fun secs hsecs => hsteady.pos hrow hsecs) now
    by_cases hreminded : check.isReminded interval now = true
    · exact Or.inl ⟨hiff.mp hreminded, if_pos hreminded⟩
    · exact Or.inr ⟨fun h => hreminded (hiff.mpr h), if_neg hreminded⟩
  · intro hnone at_ cause hmem
    obtain ⟨newer, older, heq⟩ := List.append_of_mem hmem
    obtain ⟨_, _, secs, _, hsecs, _⟩ := hinv.every newer .reminder at_ cause older heq rfl
    rw [hnone] at hsecs
    cases hsecs

/-- A ping or a pass on a check with a nag interval of five minutes. -/
theorem steadyNag_of_interval {db : Db} {op : Operation} (hop : op.isRequest = false)
    (hinterval : (db.findCheck 1).map db.nagInterval = some (some 300)) : SteadyNag plainCrates 1 (some 300) db op := by
  refine ⟨fun hsets => absurd hsets (Operation.not_resumes hop 1 db), fun check hcheck => ?_⟩
  rw [hcheck, Option.map_some, Option.some.injEq] at hinterval
  exact hinterval

/-- A check that fails and is reminded of five minutes later. -/
theorem reminder_law_sample :
    IntervalPassed (some 300) (((failPing 5).log plainCrates .sample ++ []).of 1) (300 * nanosPerSec + 5) ∧
      (Operation.log plainCrates (.nag (300 * nanosPerSec + 5) "")
        ((failPing 5).after plainCrates .sample)).of 1 = [.alert .reminder (300 * nanosPerSec + 5) none] := by
  have hpassed : IntervalPassed (some 300) (((failPing 5).log plainCrates .sample ++ []).of 1) (300 * nanosPerSec + 5) :=
    ⟨300, 5, rfl, by decide, by decide +kernel, by decide⟩
  obtain ⟨check, hrow, hpass, _⟩ := reminder_law plainCrates 1 (some 300) (rfl : Db.sample.findCheck 1 = some _)
    ⟨rfl, rfl, rfl, rfl, rfl⟩
    (.step (failPing 5) .start ⟨by simp [Operation.Completes, failPing, Operation.isPass],
      steadyNag_of_interval rfl (by decide +kernel)⟩)
  refine ⟨hpassed, ?_⟩
  rcases hpass (300 * nanosPerSec + 5) "" ⟨fun _ => by decide +kernel, steadyNag_of_interval rfl (by decide +kernel)⟩ with
    ⟨_, hlog⟩ | ⟨hnot, _⟩
  · exact hlog
  · refine absurd ⟨?_, by decide +kernel, hpassed⟩ hnot
    have hstatus : (((failPing 5).after plainCrates .sample).findCheck 1).map Check.status = some .down := by decide +kernel
    rw [hrow] at hstatus
    simpa using hstatus

/-- The sample with a second check, on an accepted nag interval of a hundred million days. -/
def Db.unnaggable : Db :=
  (exec (.createCheck ⟨1, "archive", "", "u2", .period, some 60, 0, none, "UTC", none, none, some 8640000000000⟩ 0)
    .sample).2

/-- Both checks fail. The nag pass stamps its reminder of the first, panics at the second and sends no reminder. -/
theorem panicking_nag_loses_reminder :
    (∃ form, validateCheck plainCrates form = .ok
        ⟨"archive", "", .period, some 60, 0, none, "UTC", none, none, some 8640000000000⟩) ∧
    ¬∀ (X : Crates) (cid : Int) (interval : Option Int) (start db : Db) (log : Log) (created : Check),
      start.findCheck cid = some created → created.Fresh → Reached X (SteadyNag X cid interval) start db log →
        TracksReminders X (SteadyNag X cid interval) cid interval db log := by
  refine ⟨⟨⟨"archive", "", "period", "1m", "", "0", "UTC", "", "", "100000000d"⟩, by decide +kernel⟩, fun hclaim => ?_⟩
  obtain ⟨check, hrow, hpass, -⟩ := hclaim plainCrates 1 (some 300) .unnaggable _ _ _ rfl ⟨rfl, rfl, rfl, rfl, rfl⟩
    (.step (.ping .fail "u2" [] none 5)
      (.step (failPing 5) .start (steadyNag_of_interval rfl (by decide +kernel)))
      (steadyNag_of_interval rfl (by decide +kernel)))
  have hsilent : (Operation.log plainCrates (.nag (300 * nanosPerSec + 5) "")
      (Operation.after plainCrates (.ping .fail "u2" [] none 5)
        ((failPing 5).after plainCrates .unnaggable))).of 1 = [] := by decide +kernel
  rcases hpass (300 * nanosPerSec + 5) "" (steadyNag_of_interval rfl (by decide +kernel)) with ⟨_, hlog⟩ | ⟨hnot, _⟩
  · rw [hsilent] at hlog
    cases hlog
  · refine hnot ⟨?_, by decide +kernel, 300, 5, rfl, by decide, by decide +kernel, by decide⟩
    have hstatus : ((Operation.after plainCrates (.ping .fail "u2" [] none 5)
        ((failPing 5).after plainCrates .unnaggable)).findCheck 1).map Check.status = some .down := by decide +kernel
    rw [hrow] at hstatus
    simpa using hstatus

end Pingward
