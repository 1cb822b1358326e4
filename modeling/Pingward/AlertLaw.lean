import Pingward.RowRequest

/-! The alerts of a check along a sequential run. A history is cut at each pause; within a segment Down
and Up alternate, starting with Down, reminders stand between a Down and the next Up, and the stored
status says which of the two came last. -/

open KeyedTable StoreProgram

namespace Pingward

/-- The last Down or Up since the last pause. -/
def lastSwitch : List Item → Option EventKind
  | .paused :: _ => none
  | .alert .down _ _ :: _ => some .down
  | .alert .up _ _ :: _ => some .up
  | _ :: older => lastSwitch older
  | [] => none

/-- Whether an acknowledgement came after the last Down. -/
def ackedSince : List Item → Bool
  | .acknowledged :: _ => true
  | .alert .down _ _ :: _ => false
  | _ :: older => ackedSince older
  | [] => false

/-- Where in a history an alert may stand, `older` being what came before it. -/
def AlertAllowed (older : List Item) : EventKind → Prop
  | .down => lastSwitch older ≠ some .down
  | .up => lastSwitch older = some .down
  | .reminder => lastSwitch older = some .down ∧ ackedSince older = false
  | .test => False

/-- Every alert of the history, of a kind and at an instant, was raised on a history where `P` held. -/
def EveryAlert (P : List Item → EventKind → Instant → Prop) (history : List Item) : Prop :=
  ∀ newer kind at_ cause older, history = newer ++ .alert kind at_ cause :: older → P older kind at_

/-- Every alert stands where it may. -/
def AlertLaw (history : List Item) : Prop := EveryAlert (fun older kind _ => AlertAllowed older kind) history

section EveryAlert

variable {P : List Item → EventKind → Instant → Prop} {history : List Item}

theorem everyAlert_nil : EveryAlert P [] := by
  intro newer kind at_ cause older heq
  simp at heq

theorem EveryAlert.cons_alert {kind : EventKind} {at_ : Instant} (hevery : EveryAlert P history)
    (hhead : P history kind at_) (cause : Option DownCause) : EveryAlert P (.alert kind at_ cause :: history) := by
  intro newer kind' at_' cause' older heq
  cases newer with
  | nil =>
      simp only [List.nil_append, List.cons.injEq, Item.alert.injEq] at heq
      obtain ⟨⟨rfl, rfl, _⟩, rfl⟩ := heq
      exact hhead
  | cons item newer =>
      simp only [List.cons_append, List.cons.injEq] at heq
      exact hevery newer kind' at_' cause' older heq.2

theorem EveryAlert.cons {item : Item} (hevery : EveryAlert P history)
    (hitem : ∀ kind at_ cause, item ≠ .alert kind at_ cause) : EveryAlert P (item :: history) := by
  intro newer kind at_ cause older heq
  cases newer with
  | nil =>
      simp only [List.nil_append, List.cons.injEq] at heq
      exact absurd heq.1 (hitem kind at_ cause)
  | cons first newer =>
      simp only [List.cons_append, List.cons.injEq] at heq
      exact hevery newer kind at_ cause older heq.2

end EveryAlert

section Skips

variable (kind : PingKind) (now : Instant) (cause : Option DownCause) (history : List Item)

@[simp] theorem lastSwitch_ping : lastSwitch (.ping kind now :: history) = lastSwitch history := rfl
@[simp] theorem lastSwitch_acknowledged : lastSwitch (.acknowledged :: history) = lastSwitch history := rfl
@[simp] theorem lastSwitch_paused : lastSwitch (.paused :: history) = none := rfl
@[simp] theorem lastSwitch_down : lastSwitch (.alert .down now cause :: history) = some .down := rfl
@[simp] theorem lastSwitch_up : lastSwitch (.alert .up now cause :: history) = some .up := rfl
@[simp] theorem lastSwitch_reminder : lastSwitch (.alert .reminder now cause :: history) = lastSwitch history := rfl

@[simp] theorem ackedSince_ping : ackedSince (.ping kind now :: history) = ackedSince history := rfl
@[simp] theorem ackedSince_acknowledged : ackedSince (.acknowledged :: history) = true := rfl
@[simp] theorem ackedSince_paused : ackedSince (.paused :: history) = ackedSince history := rfl
@[simp] theorem ackedSince_down : ackedSince (.alert .down now cause :: history) = false := rfl
@[simp] theorem ackedSince_up : ackedSince (.alert .up now cause :: history) = ackedSince history := rfl
@[simp] theorem ackedSince_reminder : ackedSince (.alert .reminder now cause :: history) = ackedSince history := rfl

end Skips

/-- What ties the row of a check to its history. -/
structure AlertInv (check : Check) (history : List Item) : Prop where
  law : AlertLaw history
  switch : check.status ≠ .paused → (check.status = .down ↔ lastSwitch history = some .down)
  paused : check.status = .paused → lastSwitch history = none
  baseline : check.status = .down → check.lastAlertAt.isSome
  acked : check.status = .down → check.acknowledged = ackedSince history

namespace AlertInv

variable {check : Check} {history : List Item}

theorem fresh (hfresh : check.Fresh) : AlertInv check [] where
  law := everyAlert_nil
  switch := by simp [hfresh.status, lastSwitch]
  paused := by simp [hfresh.status]
  baseline := by simp [hfresh.status]
  acked := by simp [hfresh.status]

/-- The ping's own record changes nothing. -/
theorem record (hinv : AlertInv check history) (kind : PingKind) (now : Instant) :
    AlertInv check (.ping kind now :: history) where
  law := hinv.law.cons (by intro kind at_ cause heq; cases heq)
  switch := by simpa using hinv.switch
  paused := by simpa using hinv.paused
  baseline := hinv.baseline
  acked := by simpa using hinv.acked

/-- A change of columns the invariant does not read. -/
theorem congr {check' : Check} (hinv : AlertInv check history) (hstatus : check'.status = check.status)
    (halert : check'.lastAlertAt = check.lastAlertAt) (hack : check'.acknowledged = check.acknowledged) :
    AlertInv check' history where
  law := hinv.law
  switch := by rw [hstatus]; exact hinv.switch
  paused := by rw [hstatus]; exact hinv.paused
  baseline := by rw [hstatus, halert]; exact hinv.baseline
  acked := by rw [hstatus, hack]; exact hinv.acked

/-- A check in service goes down with an alert. -/
theorem goDown {check' : Check} (hinv : AlertInv check history) (hactive : check.status = .new ∨ check.status = .up)
    (now : Instant) (cause : Option DownCause) (hstatus : check'.status = .down)
    (halert : check'.lastAlertAt = some now) (hack : check'.acknowledged = false) :
    AlertInv check' (.alert .down now cause :: history) where
  law := by
    refine hinv.law.cons_alert ?_ cause
    intro hlast
    have hdown := (hinv.switch (by rcases hactive with h | h <;> simp [h])).mpr hlast
    rcases hactive with h | h <;> simp [h] at hdown
  switch := by simp [hstatus]
  paused := by simp [hstatus]
  baseline := by simp [halert]
  acked := by simp [hack]

/-- A down check comes up with an alert. -/
theorem goUp {check' : Check} (hinv : AlertInv check history) (hdown : check.status = .down) (now : Instant)
    (cause : Option DownCause) (hstatus : check'.status = .up) :
    AlertInv check' (.alert .up now cause :: history) where
  law := by
    have hallowed : AlertAllowed history .up := (hinv.switch (by simp [hdown])).mp hdown
    exact hinv.law.cons_alert hallowed cause
  switch := by simp [hstatus]
  paused := by simp [hstatus]
  baseline := by simp [hstatus]
  acked := by simp [hstatus]

/-- A check in service stays there, or a check comes back into service, without an alert. -/
theorem stayUp {check' : Check} (hinv : AlertInv check history) (hdown : check.status ≠ .down)
    (hstatus : check'.status = .up ∨ check'.status = .new) : AlertInv check' history where
  law := hinv.law
  switch := by
    intro _
    have hlast : lastSwitch history ≠ some .down := by
      by_cases hpaused : check.status = .paused
      · simp [hinv.paused hpaused]
      · exact fun hlast => hdown ((hinv.switch hpaused).mpr hlast)
    rcases hstatus with h | h <;> simp [h, hlast]
  paused := by rcases hstatus with h | h <;> simp [h]
  baseline := by rcases hstatus with h | h <;> simp [h]
  acked := by rcases hstatus with h | h <;> simp [h]

theorem ping (X : Crates) (hinv : AlertInv check history) (hpaused : check.status ≠ .paused) (kind : PingKind)
    (exitCode : Option Int) (now : Instant) :
    AlertInv (RowInput.row X (.ping kind exitCode now) check)
      (RowInput.items X (.ping kind exitCode now) check ++ history) := by
  have hrecord := hinv.record kind now
  cases kind with
  | success =>
      by_cases hdown : check.status = .down
      · simp only [RowInput.row, RowInput.items, RowInput.pinged, hdown, pingAlert]
        exact hrecord.goUp hdown now _ rfl
      · have halert : pingAlert .success check.status = none := by
          cases hstatus : check.status <;> simp_all [pingAlert]
        simp only [RowInput.row, RowInput.items, RowInput.pinged, halert]
        exact hrecord.stayUp hdown (Or.inl rfl)
  | fail =>
      by_cases hdown : check.status = .down
      · simp only [RowInput.row, RowInput.items, RowInput.pinged, hdown, pingAlert]
        exact hrecord.congr hdown.symm rfl rfl
      · have hactive : check.status = .new ∨ check.status = .up := by
          cases hstatus : check.status <;> simp_all
        have halert : pingAlert .fail check.status = some .down := by
          rcases hactive with h | h <;> simp [h, pingAlert]
        simp only [RowInput.row, RowInput.items, RowInput.pinged, halert]
        exact hrecord.goDown hactive now _ rfl rfl rfl
  | start => exact hrecord.congr rfl rfl rfl
  | log => exact hrecord
  | exitcode => exact hrecord

/-- **Step.** An input keeps the invariant, when a resume finds the check paused. -/
theorem step (X : Crates) (hinv : AlertInv check history) {input : RowInput}
    (hping : ∀ kind exitCode now, input = .ping kind exitCode now → check.status ≠ .paused)
    (hresume : input = .resume → check.status = .paused) :
    AlertInv (input.row X check) (input.items X check ++ history) := by
  cases input with
  | idle => exact hinv
  | record kind now => exact hinv.record kind now
  | ping kind exitCode now => exact hinv.ping X (hping _ _ _ rfl) kind exitCode now
  | scan now =>
      simp only [RowInput.row, RowInput.items]
      by_cases hdowned : check.isDowned X now = true
      · rw [if_pos hdowned, if_pos hdowned]
        simp only [Check.isDowned, Bool.and_eq_true] at hdowned
        exact hinv.goDown (Check.isActive_iff.mp hdowned.1) now _ rfl rfl rfl
      · rw [if_neg hdowned, if_neg hdowned]
        exact hinv
  | nag interval now =>
      simp only [RowInput.row, RowInput.items]
      by_cases hreminded : check.isReminded interval now = true
      · rw [if_pos hreminded, if_pos hreminded]
        simp only [Check.isReminded, Bool.and_eq_true, decide_eq_true_eq, Bool.not_eq_true'] at hreminded
        obtain ⟨⟨hdown, hack⟩, _⟩ := hreminded
        have hallowed : AlertAllowed history .reminder :=
          ⟨(hinv.switch (by simp [hdown])).mp hdown, (hinv.acked hdown).symm.trans hack⟩
        refine ⟨hinv.law.cons_alert hallowed none, ?_, ?_, ?_, ?_⟩
        · simpa using hinv.switch
        · simpa using hinv.paused
        · simp
        · simpa using hinv.acked
      · rw [if_neg hreminded, if_neg hreminded]
        exact hinv
  | acknowledge =>
      refine ⟨hinv.law.cons (by intro kind at_ cause heq; cases heq), ?_, ?_, hinv.baseline, ?_⟩
      · simpa [RowInput.row, RowInput.items] using hinv.switch
      · simpa [RowInput.row, RowInput.items] using hinv.paused
      · simp [RowInput.row, RowInput.items]
  | edit fields => exact hinv.congr rfl rfl rfl
  | pause =>
      refine ⟨hinv.law.cons (by intro kind at_ cause heq; cases heq), ?_, ?_, ?_, ?_⟩ <;>
        simp [RowInput.row, RowInput.items]
  | resume =>
      have hpaused := hresume rfl
      exact hinv.stayUp (by simp [hpaused]) (Or.inr rfl)

end AlertInv

theorem Operation.Gives.not_paused {X : Crates} {db : Db} {check : Check} {op : Operation} {kind : PingKind}
    {exitCode : Option Int} {now : Instant} (hgives : op.Gives X db check (.ping kind exitCode now)) :
    check.status ≠ .paused := by
  cases op with
  | ping route uuid body clientIp now' =>
      simp only [Operation.Gives] at hgives
      split at hgives
      · split at hgives
        · cases hgives
        · rename_i hactive
          exact fun hpaused => hactive (Or.inl hpaused)
      · cases hgives
  | scan now' baseUrl => cases hgives
  | nag now' baseUrl => cases hgives
  | web ctx id action => rcases hgives with h | ⟨_, h⟩ <;> cases action <;> simp [CheckAction.input] at h
  | admin ctx id action => rcases hgives with h | ⟨_, h⟩ <;> cases action <;> simp [CheckAction.input] at h
  | api ctx id action => rcases hgives with h | ⟨_, h⟩ <;> cases action <;> simp [CheckAction.input] at h

/-- What an operation gives a check is a status only if it gets as far as writing it. -/
theorem Operation.Gives.setsStatus {X : Crates} {db : Db} {check : Check} {op : Operation} {input : RowInput}
    {status : CheckStatus} (hgives : op.Gives X db check input) (hsets : input.sets = some status) :
    op.SetsStatus X status check.id db := by
  cases op with
  | ping route uuid body clientIp now =>
      simp only [Operation.Gives] at hgives
      split at hgives
      · split at hgives <;> rw [hgives] at hsets <;> cases hsets
      · rw [hgives] at hsets
        cases hsets
  | scan now baseUrl =>
      rw [show input = .scan now from hgives] at hsets
      cases hsets
  | nag now baseUrl =>
      rw [show input = .nag _ now from hgives] at hsets
      cases hsets
  | web ctx id action =>
      rcases hgives with rfl | ⟨_, _, hcalled⟩
      · cases hsets
      · exact hcalled status hsets
  | admin ctx id action =>
      rcases hgives with rfl | ⟨_, _, hcalled⟩
      · cases hsets
      · exact hcalled status hsets
  | api ctx id action =>
      rcases hgives with rfl | ⟨_, _, hcalled⟩
      · cases hsets
      · exact hcalled status hsets

/-- A resume of the check that is carried out finds it paused. -/
def ResumesPaused (X : Crates) (cid : Int) (db : Db) (op : Operation) : Prop :=
  op.SetsStatus X .new cid db → ∀ check, db.findCheck cid = some check → check.status = .paused

/-- What a run from the creation of a check leaves: a history that obeys the alert law, a check that, unless paused, is
stored as Down exactly when the last switch of the current segment is Down, and an alert baseline of a stored Down. -/
def TracksAlerts (cid : Int) (db : Db) (log : Log) : Prop :=
  ∃ check, db.findCheck cid = some check ∧ AlertLaw (log.of cid) ∧
    (check.status ≠ .paused → (check.status = .down ↔ lastSwitch (log.of cid) = some .down)) ∧
    (check.status = .down → check.lastAlertAt.isSome)

/-- **Alert trace law.** Along every sequential run from the creation of a check in which a resume finds
it paused and no pass panics, the stored status and the baseline follow the alerts, and the alerts their law. -/
theorem alert_trace_law (X : Crates) (cid : Int) {start db : Db} {log : Log} {created : Check}
    (hcreated : start.findCheck cid = some created) (hfresh : created.Fresh)
    (hreach : Reached X (fun db op => op.Completes X db ∧ ResumesPaused X cid db op) start db log) :
    TracksAlerts cid db log := by
  obtain ⟨check, hrow, hinv⟩ := hreach.row_invariant AlertInv ⟨created, hcreated, AlertInv.fresh hfresh⟩
    (fun _ _ hallowed => hallowed.1)
    (by
      intro db log op check input _ hallowed hrow hgives hinv
      have hcid : check.id = cid := Table.find_key _ hrow
      refine hinv.step X ?_ ?_
      · rintro kind exitCode now rfl
        exact hgives.not_paused
      · rintro rfl
        exact hallowed.2 (hcid ▸ hgives.setsStatus rfl) check hrow)
  exact ⟨check, hrow, hinv.law, hinv.switch, hinv.baseline⟩

/-- The operation is a request on a check. -/
def Operation.isRequest : Operation → Bool
  | .web _ _ _ | .admin _ _ _ | .api _ _ _ => true
  | _ => false

/-- Neither a ping nor a pass puts a check back into service. -/
theorem Operation.not_resumes {X : Crates} {op : Operation} (hop : op.isRequest = false) (cid : Int) (db : Db) :
    ¬op.SetsStatus X .new cid db := by
  intro hmem
  cases op with
  | ping route uuid body clientIp now =>
      have honly : (apply X (route.request uuid body clientIp) now).Only (fun c => c ≠ .setStatus cid .new) fun _ => True :=
        apply_only X _ now (by simp) (by simp) (by simp) (by simp) (by simp)
      exact honly.erase.calls exec db _ hmem rfl
  | scan now baseUrl =>
      have honly : (scanOnce X now baseUrl).Only (fun c => c ≠ .setStatus cid .new) fun _ => False :=
        scanOnce_only X now baseUrl (by simp) (by simp) (by simp) (by simp) (by simp)
      exact (pass_only honly).erase.calls exec db _ hmem rfl
  | nag now baseUrl =>
      have honly : (nagOnce now baseUrl).Only (fun c => c ≠ .setStatus cid .new) fun _ => False :=
        nagOnce_only now baseUrl (by simp) (by simp) (by simp) (by simp) (by simp) (by simp)
      exact (pass_only honly).erase.calls exec db _ hmem rfl
  | web ctx id action => cases hop
  | admin ctx id action => cases hop
  | api ctx id action => cases hop

/-- A check that fails. -/
theorem alert_trace_law_failPing :
    TracksAlerts 1 ((failPing 5).after plainCrates .sample) ((failPing 5).log plainCrates .sample ++ []) :=
  alert_trace_law plainCrates 1 (rfl : Db.sample.findCheck 1 = some _) ⟨rfl, rfl, rfl, rfl, rfl⟩
    (.step (failPing 5) .start ⟨by simp [Operation.Completes, failPing, Operation.isPass],
      fun hsets => absurd hsets (Operation.not_resumes rfl 1 .sample)⟩)

/-- The sample with a second check, on an accepted period of a hundred million days. -/
def Db.rangeless : Db :=
  (exec (.createCheck ⟨1, "archive", "", "u2", .period, some 8640000000000, 0, none, "UTC", none, none, none⟩ 0)
    .sample).2

/-- The scan downs the first check, panics at the second and raises no alert: the first is stored as Down after no
Down. -/
theorem panicking_scan_loses_down :
    (∃ form, validateCheck plainCrates form = .ok
        ⟨"archive", "", .period, some 8640000000000, 0, none, "UTC", none, none, none⟩) ∧
    ¬∀ (X : Crates) (cid : Int) (start db : Db) (log : Log) (created : Check), start.findCheck cid = some created →
      created.Fresh → Reached X (ResumesPaused X cid) start db log → TracksAlerts cid db log := by
  refine ⟨⟨⟨"archive", "", "period", "100000000d", "", "0", "UTC", "", "", ""⟩, by decide +kernel⟩, fun hclaim => ?_⟩
  obtain ⟨check, hrow, -, hswitch, -⟩ := hclaim plainCrates 1 .rangeless _ _ _ rfl ⟨rfl, rfl, rfl, rfl, rfl⟩
    (.step (.scan (200 * nanosPerSec) "") .start fun hsets => absurd hsets (Operation.not_resumes rfl 1 .rangeless))
  have hdown : ((Operation.after plainCrates (.scan (200 * nanosPerSec) "") .rangeless).findCheck 1).map Check.status =
      some .down := by decide +kernel
  rw [hrow, Option.map_some, Option.some.injEq] at hdown
  have hlast := (hswitch (by rw [hdown]; decide)).mp hdown
  have hnone : lastSwitch (Log.of (Operation.log plainCrates (.scan (200 * nanosPerSec) "") .rangeless ++ []) 1) = none := by
    decide +kernel
  rw [hnone] at hlast
  cases hlast

end Pingward
