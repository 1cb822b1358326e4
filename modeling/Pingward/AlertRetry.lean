import Pingward.RowPing

/-! A ping whose request fails in the middle and is sent again. The event is decided by the status the
row was read with, so a retry repeats whatever the first attempt had not yet marked; once the status is
marked, the alert of a flip is lost. -/

open KeyedTable StoreProgram

namespace Pingward

/-- The ping flips the status of its check: a success on a down check, a fail on one in service. -/
def Flips (kind : PingKind) (status : CheckStatus) : Prop :=
  kind = .success ∧ status = .down ∨ kind = .fail ∧ (status = .up ∨ status = .new)

/-- The columns an alert depends on: status, acknowledgement and the presence of a baseline. -/
def alertColumns (db : Db) (cid : Int) : Option (CheckStatus × Bool × Bool) :=
  (db.findCheck cid).map fun check => (check.status, check.acknowledged, check.lastAlertAt.isSome)

section Retry

variable (X : Crates) (ping : PingRequest) (error : StoreError)

/-- The attempt at which the store starts to fail at its call `k`, counted from zero. -/
def failedAttempt (k : Nat) (now : Instant) (db : Db) : Ran Db Spawned AppError Unit :=
  runFaulty exec error (fun n => k ≤ n) 0 (apply X ping now) db

/-- The failed attempt at `now` and its retry at `later` come to what one ping at `now` does: the same
alert columns, and the same set of events. -/
def RetrySame (k : Nat) (now later : Instant) (db : Db) (cid : Int) : Prop :=
  let first := failedAttempt X ping error k now db
  let retry := run exec (apply X ping later) first.state
  let single := run exec (apply X ping now) db
  alertColumns retry.state cid = alertColumns single.state cid ∧
    ∀ kind, kind ∈ (first.events ++ retry.events).map Spawned.kind ↔ kind ∈ single.events.map Spawned.kind

end Retry

theorem pingAlert_isSome_iff (kind : PingKind) (status : CheckStatus) :
    (pingAlert kind status).isSome = true ↔ Flips kind status := by
  cases kind <;> cases status <;> simp [pingAlert, Flips]

/-- A ping that succeeds, for its own check. -/
theorem apply_ok {X : Crates} {db : Db} {ping : PingRequest} {check : Check} {now : Instant}
    (hfound : db.findCheckByUuid ping.uuid = some check) (hok : (run exec (apply X ping now) db).outcome = .ok ()) :
    (run exec (apply X ping now) db).state.findCheck check.id =
        some (if check.status = .paused then check else RowInput.pinged X ping.kind now check) ∧
      (run exec (apply X ping now) db).events =
        if check.status = .paused then [] else pingEvents check ping.kind ping.exitCode now := by
  obtain ⟨hrun, _⟩ := apply_eq (X := X) now hfound
  have hfind : (exec (.insertPing (ping.newPing check) now) db).2.findCheck check.id = some check :=
    (congrArg (fun table : AutoTable Check Check.id => table.find check.id)
      (exec_checks (c := .insertPing (ping.newPing check) now) (by simp [StoreCall.writes]) db)).trans
        (findCheck_of_uuid hfound)
  by_cases hpaused : check.status = .paused
  · simp only [hpaused, if_true] at hrun ⊢
    rw [hrun]
    exact ⟨hfind, rfl⟩
  · simp only [hpaused, if_false] at hrun ⊢
    rcases applyKind_eq X ping.kind ping.exitCode now hfind with hpanic | ⟨db', happly, hmoved, _⟩
    · rw [hrun, hpanic] at hok
      cases hok
    · rw [hrun, happly]
      exact ⟨hmoved, rfl⟩

/-- The alert columns after a ping do not depend on its instant. -/
theorem pinged_alertColumns (X : Crates) (kind : PingKind) (now later : Instant) (check : Check) :
    ((RowInput.pinged X kind now check).status, (RowInput.pinged X kind now check).acknowledged,
        (RowInput.pinged X kind now check).lastAlertAt.isSome) =
      ((RowInput.pinged X kind later check).status, (RowInput.pinged X kind later check).acknowledged,
        (RowInput.pinged X kind later check).lastAlertAt.isSome) := by
  cases kind <;> cases hstatus : check.status <;>
    simp [RowInput.pinged, hstatus, pingAlert, PingMark.ofPing, PingMark.apply, Check.cleared, Check.alerted]

theorem pingEvents_kinds (check : Check) (kind : PingKind) (exitCode : Option Int) (now : Instant) :
    (pingEvents check kind exitCode now).map Spawned.kind = (pingAlert kind check.status).toList := by
  unfold pingEvents
  cases pingAlert kind check.status <;> rfl

theorem findCheckByUuid_markPing (db : Db) (id : Int) (uuid : String) (mark : PingMark) :
    (db.markPing id mark).findCheckByUuid uuid =
      (db.findCheckByUuid uuid).map fun row => if row.id = id then mark.apply row else row :=
  findCheckByUuid_updateCheck db id uuid _ fun _ => rfl

/-- The per-kind updates when the store starts to fail at the third call or later: a failure stands before
the mark, or between the mark and the alert of a flip. -/
theorem applyKind_failed {X : Crates} {check : Check} {kind : PingKind} {exitCode : Option Int} {now : Instant}
    {error : StoreError} {k : Nat} {db : Db} {failure : AppError} (hk : 2 ≤ k)
    (hfailed : (runFaulty exec error (fun n => k ≤ n) 2 (applyKind X check kind exitCode now) db).outcome =
      .fail failure) :
    (k = 2 ∧ runFaulty exec error (fun n => k ≤ n) 2 (applyKind X check kind exitCode now) db =
        ⟨.fail failure, db, []⟩) ∨
      (k = 3 ∧ Flips kind check.status ∧ ∃ mark, PingMark.ofPing X check now kind = some mark ∧
        runFaulty exec error (fun n => k ≤ n) 2 (applyKind X check kind exitCode now) db =
          ⟨.fail failure, db.markPing check.id mark, []⟩) := by
  rcases applyKind_shape X check kind exitCode now with hpanic | ⟨_, _, hret⟩ | ⟨mark, hmark, hbody⟩
  · rw [hpanic] at hfailed
    cases hfailed
  · rw [hret] at hfailed
    cases hfailed
  · rw [hbody] at hfailed ⊢
    by_cases hmarked : k = 2
    · have hrefused : (fun n => decide (k ≤ n)) 2 = true := by simp [hmarked]
      rw [runFaulty_perform_refused exec hrefused] at hfailed ⊢
      cases hfailed
      exact Or.inl ⟨hmarked, rfl⟩
    · have hpassed : (fun n => decide (k ≤ n)) 2 = false := by
        simp only [decide_eq_false_iff_not]
        omega
      have hok : (exec (.markPing check.id mark) db).1 = .ok () := rfl
      rw [runFaulty_perform_ok exec hpassed hok] at hfailed ⊢
      right
      unfold alertTail at hfailed ⊢
      cases halert : pingAlert kind check.status with
      | none =>
          rw [halert] at hfailed
          cases hfailed
      | some event =>
          simp only [halert] at hfailed ⊢
          have hflips : Flips kind check.status := (pingAlert_isSome_iff _ _).mp (by rw [halert]; rfl)
          by_cases halerted : k = 3
          · have hrefused : (fun n => decide (k ≤ n)) (2 + 1) = true := by simp [halerted]
            rw [runFaulty_perform_refused exec hrefused] at hfailed ⊢
            cases hfailed
            exact ⟨halerted, hflips, mark, hmark, rfl⟩
          · have hpassed' : (fun n => decide (k ≤ n)) (2 + 1) = false := by
              simp only [decide_eq_false_iff_not]
              omega
            exfalso
            rcases pingAlert_cases halert with rfl | rfl
            · have hok' : (exec (alertCall check.id now .up) (exec (.markPing check.id mark) db).2).1 = .ok () := rfl
              rw [runFaulty_perform_ok exec hpassed' hok'] at hfailed
              cases hfailed
            · have hok' : (exec (alertCall check.id now .down) (exec (.markPing check.id mark) db).2).1 = .ok () := rfl
              rw [runFaulty_perform_ok exec hpassed' hok'] at hfailed
              cases hfailed

/-- Where the attempt can fail: before it writes the row, or between the mark and the alert of a flip. -/
theorem failedAttempt_cases {X : Crates} {ping : PingRequest} {error : StoreError} {k : Nat} {now : Instant} {db : Db}
    {check : Check} {failure : AppError} (hfound : db.findCheckByUuid ping.uuid = some check)
    (hfailed : (failedAttempt X ping error k now db).outcome = .fail failure) :
    (k ≤ 2 ∧ (failedAttempt X ping error k now db).state.checks = db.checks ∧
        (failedAttempt X ping error k now db).events = []) ∨
      (k = 3 ∧ check.status ≠ .paused ∧ Flips ping.kind check.status ∧
        ∃ mark, PingMark.ofPing X check now ping.kind = some mark ∧
        failedAttempt X ping error k now db =
          ⟨.fail failure, (exec (.insertPing (ping.newPing check) now) db).2.markPing check.id mark, []⟩) := by
  have hfind : (exec (.findCheckByUuid ping.uuid) db).1 = .ok (some check) := congrArg Except.ok hfound
  have hinsert : (exec (.insertPing (ping.newPing check) now) (exec (.findCheckByUuid ping.uuid) db).2).1 =
      .ok () := exec_insertPing_ok (findCheck_of_uuid hfound) now
  have hchecks : (exec (.insertPing (ping.newPing check) now) db).2.checks = db.checks :=
    exec_checks (c := .insertPing (ping.newPing check) now) (by simp [StoreCall.writes]) db
  unfold failedAttempt apply resolve store at hfailed ⊢
  simp only [Prog.bind_eq, Prog.bind_assoc] at hfailed ⊢
  by_cases hfirst : k = 0
  · have hrefused : (fun n => decide (k ≤ n)) 0 = true := by simp [hfirst]
    rw [runFaulty_perform_refused exec hrefused]
    exact Or.inl ⟨by omega, rfl, rfl⟩
  · have hpassed : (fun n => decide (k ≤ n)) 0 = false := by
      simp only [decide_eq_false_iff_not]
      omega
    rw [runFaulty_perform_ok exec hpassed hfind] at hfailed ⊢
    simp only [Prog.pure_eq, Prog.ret_bind] at hfailed ⊢
    by_cases hsecond : k = 1
    · have hrefused : (fun n => decide (k ≤ n)) (0 + 1) = true := by simp [hsecond]
      rw [runFaulty_perform_refused exec hrefused]
      exact Or.inl ⟨by omega, rfl, rfl⟩
    · have hpassed' : (fun n => decide (k ≤ n)) (0 + 1) = false := by
        simp only [decide_eq_false_iff_not]
        omega
      rw [runFaulty_perform_ok exec hpassed' hinsert] at hfailed ⊢
      by_cases hpaused : check.status = .paused
      · rw [if_pos hpaused] at hfailed
        cases hfailed
      · rw [if_neg hpaused] at hfailed ⊢
        rcases applyKind_failed (by omega) hfailed with ⟨hk, hrun⟩ | ⟨hk, hflips, mark, hmark, hrun⟩
        · refine Or.inl ⟨by omega, ?_, ?_⟩
          · exact (congrArg (fun ran => ran.state.checks) hrun).trans hchecks
          · exact congrArg Ran.events hrun
        · exact Or.inr ⟨hk, hpaused, hflips, mark, hmark, hrun⟩

/-- A success on a check that is up, or a fail on one that is down, raises nothing. -/
theorem pingAlert_marked {X : Crates} {check : Check} {kind : PingKind} {now : Instant} {mark : PingMark}
    (hmark : PingMark.ofPing X check now kind = some mark) (hflips : Flips kind check.status) :
    pingAlert kind mark.status = none := by
  rcases hflips with ⟨rfl, _⟩ | ⟨rfl, _⟩
  · rw [PingMark.ofPing, Option.some.injEq] at hmark
    rw [← hmark]
    rfl
  · rw [PingMark.ofPing, Option.some.injEq] at hmark
    rw [← hmark]
    rfl

/-- The events of a ping that succeeds, by kind. -/
theorem apply_event_kinds {X : Crates} {db : Db} {ping : PingRequest} {check : Check} {now : Instant}
    (hfound : db.findCheckByUuid ping.uuid = some check) (hok : (run exec (apply X ping now) db).outcome = .ok ()) :
    (run exec (apply X ping now) db).events.map Spawned.kind = (pingAlert ping.kind check.status).toList := by
  rw [(apply_ok hfound hok).2]
  by_cases hpaused : check.status = .paused
  · rw [if_pos hpaused, hpaused]
    cases ping.kind <;> rfl
  · rw [if_neg hpaused, pingEvents_kinds]

/-- **When a failed ping can be retried.** For every check and every ping whose first attempt fails at the
store's call `k`, the retry comes to the single uninterrupted ping if and only if the failure does not
stand between the mark and the alert of a ping that flips the status. -/
theorem retry_same_iff (X : Crates) (ping : PingRequest) (error : StoreError) (k : Nat) (now later : Instant) {db : Db}
    {check : Check} {failure : AppError} (hfound : db.findCheckByUuid ping.uuid = some check)
    (hfailed : (failedAttempt X ping error k now db).outcome = .fail failure)
    (hretried : (run exec (apply X ping later) (failedAttempt X ping error k now db).state).outcome = .ok ())
    (hsingle : (run exec (apply X ping now) db).outcome = .ok ()) :
    RetrySame X ping error k now later db check.id ↔ ¬(k = 3 ∧ Flips ping.kind check.status) := by
  unfold RetrySame
  dsimp only
  rcases failedAttempt_cases hfound hfailed with ⟨hk, hchecks, hevents⟩ | ⟨hk, hpaused, hflips, mark, hmark, hattempt⟩
  · -- The retry reads the row the first attempt read.
    have hfound' : (failedAttempt X ping error k now db).state.findCheckByUuid ping.uuid = some check := by
      rw [Db.findCheckByUuid, hchecks]
      exact hfound
    have hnot : ¬(k = 3 ∧ Flips ping.kind check.status) := by
      rintro ⟨rfl, _⟩
      omega
    simp only [hnot, not_false_eq_true, iff_true]
    refine ⟨?_, ?_⟩
    · rw [alertColumns, alertColumns, (apply_ok hfound' hretried).1, (apply_ok hfound hsingle).1]
      split
      · rfl
      · exact congrArg some (pinged_alertColumns X ping.kind later now check)
    · intro kind
      rw [hevents, List.nil_append, apply_event_kinds hfound' hretried, apply_event_kinds hfound hsingle]
  · -- The retry reads the marked row, which has nothing left to flip.
    simp only [hk, hflips, and_self, not_true_eq_false, iff_false, not_and]
    intro _ hsame
    have hinsert : (exec (.insertPing (ping.newPing check) now) db).2.findCheckByUuid ping.uuid = some check := by
      rw [Db.findCheckByUuid, exec_checks (c := .insertPing (ping.newPing check) now) (by simp [StoreCall.writes]) db]
      exact hfound
    have hfound' : (failedAttempt X ping error k now db).state.findCheckByUuid ping.uuid = some (mark.apply check) := by
      rw [hattempt, findCheckByUuid_markPing, hinsert, Option.map_some, if_pos rfl]
    obtain ⟨event, halert⟩ := Option.isSome_iff_exists.mp ((pingAlert_isSome_iff _ _).mpr hflips)
    have hnone : pingAlert ping.kind (mark.apply check).status = none := pingAlert_marked hmark hflips
    subst hk
    have hevent := (hsame event).mpr (by rw [apply_event_kinds hfound hsingle, halert]; exact List.mem_singleton_self _)
    rw [List.map_append, apply_event_kinds hfound' hretried, hnone, hattempt] at hevent
    cases hevent

/-- A success ping of a fresh check whose third call fails. -/
theorem retry_same_sample :
    RetrySame plainCrates ⟨"u1", .success, none, [], none⟩ .unavailable 2 5 6 .sample 1 :=
  (retry_same_iff plainCrates ⟨"u1", .success, none, [], none⟩ .unavailable 2 5 6
    (rfl : Db.sample.findCheckByUuid "u1" = some _)
    (rfl : _ = Outcome.fail (AppError.db .unavailable)) (by decide +kernel) (by decide +kernel)).mpr (by omega)

/-- A fail ping of a fresh check whose fourth call, `begin_down_alert`, fails: the retry finds the check
down and stays silent. -/
theorem retry_loses_alert :
    ¬∀ (X : Crates) (ping : PingRequest) (error : StoreError) (k : Nat) (now later : Instant) (db : Db) (check : Check)
      (failure : AppError), db.findCheckByUuid ping.uuid = some check →
      (failedAttempt X ping error k now db).outcome = .fail failure →
      (run exec (apply X ping later) (failedAttempt X ping error k now db).state).outcome = .ok () →
      (run exec (apply X ping now) db).outcome = .ok () → RetrySame X ping error k now later db check.id := by
  intro hclaim
  have hsame := hclaim plainCrates ⟨"u1", .fail, none, [], none⟩ .unavailable 3 5 6 .sample _ (.db .unavailable) rfl
    (by decide +kernel) (by decide +kernel) (by decide +kernel)
  have hcolumns := hsame.1
  revert hcolumns
  decide +kernel

end Pingward
