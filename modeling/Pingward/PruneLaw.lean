import Pingward.DurationGrammar
import Pingward.ModelPrune
import Pingward.RunPairing
import Pingward.SessionExpiry

/-! What the retention prune deletes. A setting that spells a positive number of days gives a cutoff; on stored times of
four-digit years the text comparison with it is the comparison of the instants, whatever the year of the cutoff. -/

open KeyedTable StoreProgram

namespace Pingward

def nanosPerDay : Int := 86400 * nanosPerSec

/-! ### The setting -/

/-- The setting is, trimmed, an integer greater than zero: decimal digits behind an optional plus sign. -/
def SetsDays (setting : Option String) (days : Int) : Prop :=
  0 < days ∧ ∃ s digits, setting = some s ∧ digits ≠ [] ∧ digits.all Char.isDigit = true ∧
    ((trim s).toList = digits ∨ (trim s).toList = '+' :: digits) ∧ days = Nat.ofDigitChars 10 digits 0

/-- A time so many days before now that chrono represents. -/
def CutoffInRange (now : Instant) (days : Int) : Prop := minUtc ≤ now - days * nanosPerDay

theorem head_notMem {digits : List Char} (hdigits : digits.all Char.isDigit = true) {c : Char} (hc : c.isDigit = false)
    (rest : List Char) : digits ≠ c :: rest := by
  rintro rfl
  rw [List.all_cons, hc, Bool.false_and] at hdigits
  cases hdigits

theorem parseI64_pos_iff {s : String} {n : Int} (hpos : 0 < n) :
    parseI64 s = some n ↔ n ≤ i64Max ∧ ∃ digits, digits ≠ [] ∧ digits.all Char.isDigit = true ∧
      (s.toList = digits ∨ s.toList = '+' :: digits) ∧ n = Nat.ofDigitChars 10 digits 0 := by
  have hread (digits : List Char) : parseDigits digits = some n ↔ n ≤ i64Max ∧ digits ≠ [] ∧
      digits.all Char.isDigit = true ∧ n = Nat.ofDigitChars 10 digits 0 := by
    rw [parseDigits_eq_some]
    constructor
    · rintro ⟨hne, hdigits, rfl, hmax⟩
      exact ⟨hmax, hne, hdigits, rfl⟩
    · rintro ⟨hmax, hne, hdigits, rfl⟩
      exact ⟨hne, hdigits, rfl, hmax⟩
  unfold parseI64
  split
  · rename_i digits htext
    rw [htext]
    constructor
    · intro hparse
      split at hparse
      · obtain ⟨rfl, -, -⟩ := checkedI64_eq_some.mp hparse
        omega
      · cases hparse
    · rintro ⟨-, digits', -, hdigits, hsame | hsame, -⟩
      · exact absurd hsame.symm (head_notMem hdigits (by decide) _)
      · cases hsame
  · rename_i digits htext
    rw [htext, hread]
    constructor
    · rintro ⟨hmax, hne, hdigits, hn⟩
      exact ⟨hmax, digits, hne, hdigits, .inr rfl, hn⟩
    · rintro ⟨hmax, digits', hne, hdigits, hsame | hsame, hn⟩
      · exact absurd hsame.symm (head_notMem hdigits (by decide) _)
      · cases hsame
        exact ⟨hmax, hne, hdigits, hn⟩
  · rename_i digits hminus hplus
    rw [hread]
    constructor
    · rintro ⟨hmax, hne, hdigits, hn⟩
      exact ⟨hmax, s.toList, hne, hdigits, .inl rfl, hn⟩
    · rintro ⟨hmax, digits', hne, hdigits, hsame | hsame, hn⟩
      · rw [hsame]
        exact ⟨hmax, hne, hdigits, hn⟩
      · exact absurd hsame (hplus digits')

theorem parseDays_eq_some_iff {setting : Option String} {days : Int} :
    parseDays setting = some days ↔ days ≤ i64Max ∧ SetsDays setting days := by
  unfold parseDays SetsDays
  rw [Option.filter_eq_some_iff, Option.bind_eq_some_iff, decide_eq_true_eq]
  constructor
  · rintro ⟨⟨s, rfl, hparse⟩, hpos⟩
    obtain ⟨hmax, digits, hne, hdigits, htext, hn⟩ := (parseI64_pos_iff hpos).mp hparse
    exact ⟨hmax, hpos, s, digits, rfl, hne, hdigits, htext, hn⟩
  · rintro ⟨hmax, hpos, s, digits, rfl, hne, hdigits, htext, hn⟩
    exact ⟨⟨s, rfl, (parseI64_pos_iff hpos).mpr ⟨hmax, digits, hne, hdigits, htext, hn⟩⟩, hpos⟩

/-! ### The cutoff -/

/-- What a retention setting says about a time. -/
def Expired (setting : Option String) (now t : Instant) : Prop :=
  ∃ days, SetsDays setting days ∧ CutoffInRange now days ∧ t < now - days * nanosPerDay

theorem toRfc3339_lt_iff {t cutoff : Instant} (ht : Calendar.FourDigits t) (hcutoff : cutoff ≤ yearMax) :
    toRfc3339 t < toRfc3339 cutoff ↔ t < cutoff := by
  unfold toRfc3339
  by_cases hlow : yearZero ≤ cutoff
  · exact Calendar.rfc3339_lt_iff ht (fourDigits_iff.mpr ⟨hlow, hcutoff⟩)
  · have hbefore : cutoff < Calendar.yearInstant 0 := not_le.mp hlow
    have hlt : cutoff < t := hbefore.trans_le (fourDigits_iff.mp ht).1
    exact iff_of_false (lt_asymm (Calendar.rfc3339_lt_of_before hbefore ht)) (lt_asymm hlt)

theorem days_bounds {now days : Int} (hnow : now ≤ 253402300799 * 1000000000 + 999999999) (hpos : 0 < days)
    (hrange : -8334601228800 * 1000000000 ≤ now - days * 86400000000000) :
    days ≤ 9223372036854775807 ∧ days * 86400 ≤ 9223372036854775807 / 1000 ∧
      now - days * 86400000000000 ≤ 8210266876799 * 1000000000 + 999999999 := by
  omega

/-- A representable cutoff needs no more days than an integer and a duration hold. -/
theorem days_fit {now : Instant} (hnow : now ≤ yearMax) {days : Int} (hpos : 0 < days) (hrange : CutoffInRange now days) :
    days ≤ i64Max ∧ SecondsOk (days * 86400) ∧ inRange (now - days * nanosPerDay) := by
  obtain ⟨hmax, hseconds, hend⟩ := days_bounds hnow hpos hrange
  exact ⟨hmax, ⟨le_trans (by decide) (Int.mul_nonneg hpos.le (by decide)), hseconds⟩, hrange, hend⟩

theorem retentionCutoff_eq_some_iff {setting : Option String} {now : Instant} (hnow : now ≤ yearMax) {cutoff : String} :
    retentionCutoff now setting = some cutoff ↔
      ∃ days, SetsDays setting days ∧ CutoffInRange now days ∧ toRfc3339 (now - days * nanosPerDay) = cutoff := by
  have hnanos (days : Int) : days * 86400 * nanosPerSec = days * nanosPerDay := Int.mul_assoc _ _ _
  have hcutoff : retentionCutoff now setting = some cutoff ↔ ∃ days, parseDays setting = some days ∧
      ∃ t, (tryDays days).bind (checkedSub now) = some t ∧ toRfc3339 t = cutoff := by
    simp only [retentionCutoff, bind, Option.bind_eq_some_iff, pure, Option.some_inj]
  rw [hcutoff]
  constructor
  · rintro ⟨days, hparse, t, hsub, rfl⟩
    obtain ⟨-, hdays⟩ := parseDays_eq_some_iff.mp hparse
    obtain ⟨d, hd, ht⟩ := Option.bind_eq_some_iff.mp hsub
    obtain ⟨-, hd⟩ := Option.ite_none_right_eq_some.mp hd
    obtain ⟨hrange, ht⟩ := Option.ite_none_right_eq_some.mp ht
    cases hd
    cases ht
    rw [hnanos] at hrange ⊢
    exact ⟨days, hdays, hrange.1, rfl⟩
  · rintro ⟨days, hdays, hrange, rfl⟩
    obtain ⟨hmax, hseconds, hin⟩ := days_fit hnow hdays.1 hrange
    refine ⟨days, parseDays_eq_some_iff.mpr ⟨hmax, hdays⟩, _, ?_, rfl⟩
    rw [tryDays, if_pos hseconds, Option.bind_some, hnanos, checkedSub, if_pos hin]

/-- The rows a cutoff deletes are those past their retention. -/
theorem retentionCutoff_iff {setting : Option String} {now t : Instant} (hnow : Calendar.FourDigits now)
    (ht : Calendar.FourDigits t) :
    (∃ cutoff, retentionCutoff now setting = some cutoff ∧ toRfc3339 t < cutoff) ↔ Expired setting now t := by
  have hlt {days : Int} (hpos : 0 < days) : toRfc3339 t < toRfc3339 (now - days * nanosPerDay) ↔
      t < now - days * nanosPerDay := by
    apply toRfc3339_lt_iff ht
    have hmax := (fourDigits_iff.mp hnow).2
    have hday : 0 ≤ days * nanosPerDay := Int.mul_nonneg hpos.le (by decide)
    linarith
  constructor
  · rintro ⟨cutoff, hcutoff, hbefore⟩
    obtain ⟨days, hdays, hrange, rfl⟩ := (retentionCutoff_eq_some_iff (fourDigits_iff.mp hnow).2).mp hcutoff
    exact ⟨days, hdays, hrange, (hlt hdays.1).mp hbefore⟩
  · rintro ⟨days, hdays, hrange, hbefore⟩
    exact ⟨_, (retentionCutoff_eq_some_iff (fourDigits_iff.mp hnow).2).mpr ⟨days, hdays, hrange, rfl⟩,
      (hlt hdays.1).mpr hbefore⟩

/-! ### The pass -/

/-- What is left of a table after a pass. -/
structure Pruned {ρ : Type} (setting : Option String) (now : Instant) (createdAt : ρ → Instant) (before after : List ρ) :
    Prop where
  sublist : after.Sublist before
  mem_iff : ∀ row ∈ before, row ∈ after ↔ ¬ Expired setting now (createdAt row)

theorem pruned_of_cutoff {ρ : Type} {setting : Option String} {now : Instant} (hnow : Calendar.FourDigits now)
    {createdAt : ρ → Instant} {rows : List ρ} (hrows : ∀ row ∈ rows, Calendar.FourDigits (createdAt row))
    {cutoff : String} (hcutoff : retentionCutoff now setting = some cutoff) :
    Pruned setting now createdAt rows (rows.filter fun row => !decide (toRfc3339 (createdAt row) < cutoff)) := by
  refine ⟨List.filter_sublist, fun row hrow => ?_⟩
  rw [List.mem_filter, and_iff_right hrow, Bool.not_eq_true', decide_eq_false_iff_not,
    ← retentionCutoff_iff hnow (hrows row hrow)]
  constructor
  · rintro hkept ⟨cutoff', hcutoff', hbefore⟩
    rw [hcutoff, Option.some_inj] at hcutoff'
    exact hkept (hcutoff' ▸ hbefore)
  · exact fun hnone hbefore => hnone ⟨cutoff, hcutoff, hbefore⟩

theorem pruned_of_none {ρ : Type} {setting : Option String} {now : Instant} (hnow : Calendar.FourDigits now)
    {createdAt : ρ → Instant} {rows : List ρ} (hrows : ∀ row ∈ rows, Calendar.FourDigits (createdAt row))
    (hnone : retentionCutoff now setting = none) : Pruned setting now createdAt rows rows := by
  refine ⟨List.Sublist.refl _, fun row hrow => ?_⟩
  rw [iff_true_left hrow, ← retentionCutoff_iff hnow (hrows row hrow), hnone]
  rintro ⟨cutoff, hcutoff, -⟩
  cases hcutoff

/-- The times of the three histories have four-digit years. -/
structure Db.Written (db : Db) : Prop where
  pings : ∀ row ∈ db.pings.rows, Calendar.FourDigits row.createdAt
  notifications : ∀ row ∈ db.notifications.rows, Calendar.FourDigits row.createdAt
  audit : ∀ row ∈ db.auditLog.rows, Calendar.FourDigits row.createdAt

section Pass

variable {now : Instant} {db : Db}

theorem run_pruneTable (table : PruneTable) :
    run execPrune (pruneTable now table) db =
      match retentionCutoff now (db.getSetting table.settingKey) with
      | none => ⟨.ok 0, db, []⟩
      | some cutoff =>
          match table with
          | .pings => ⟨.ok (db.deletePingsBefore cutoff).1, (db.deletePingsBefore cutoff).2, []⟩
          | .notifications => ⟨.ok (db.deleteNotificationsBefore cutoff).1, (db.deleteNotificationsBefore cutoff).2, []⟩
          | .audit => ⟨.ok (db.deleteAuditBefore cutoff).1, (db.deleteAuditBefore cutoff).2, []⟩ := by
  have hsetting : (execPrune (.getSetting table.settingKey) db).1 = .ok (db.getSetting table.settingKey) := rfl
  unfold pruneTable
  simp only [Prog.bind_eq]
  rw [run_perform_bind execPrune hsetting]
  dsimp only [execPrune]
  cases retentionCutoff now (db.getSetting table.settingKey) with
  | none => rfl
  | some cutoff => cases table <;> rfl

theorem run_bind_of_eq {α β : Type} {program : PruneProg α} {rest : α → PruneProg β} {value : α} {after : Db}
    (hprogram : run execPrune program db = ⟨.ok value, after, []⟩) :
    run execPrune (program.bind rest) db = run execPrune (rest value) after := by
  rw [run_bind, hprogram]
  rfl

/-- The pings are pruned and nothing else changes. -/
theorem run_prunePings (hnow : Calendar.FourDigits now) (hrows : ∀ row ∈ db.pings.rows, Calendar.FourDigits row.createdAt) :
    ∃ count pings, run execPrune (pruneTable now .pings) db = ⟨.ok count, { db with pings := pings }, []⟩ ∧
      Pruned (db.getSetting "pings_retention_days") now Ping.createdAt db.pings.rows pings.rows := by
  rw [run_pruneTable]
  cases hcutoff : retentionCutoff now (db.getSetting PruneTable.pings.settingKey) with
  | none => exact ⟨0, db.pings, rfl, pruned_of_none hnow hrows hcutoff⟩
  | some cutoff => exact ⟨_, _, rfl, pruned_of_cutoff hnow hrows hcutoff⟩

theorem run_pruneNotifications (db : Db) (hnow : Calendar.FourDigits now)
    (hrows : ∀ row ∈ db.notifications.rows, Calendar.FourDigits row.createdAt) :
    ∃ count notifications,
      run execPrune (pruneTable now .notifications) db = ⟨.ok count, { db with notifications := notifications }, []⟩ ∧
      Pruned (db.getSetting "notifications_retention_days") now Notification.createdAt db.notifications.rows
        notifications.rows := by
  rw [run_pruneTable]
  cases hcutoff : retentionCutoff now (db.getSetting PruneTable.notifications.settingKey) with
  | none => exact ⟨0, db.notifications, rfl, pruned_of_none hnow hrows hcutoff⟩
  | some cutoff => exact ⟨_, _, rfl, pruned_of_cutoff hnow hrows hcutoff⟩

theorem run_pruneAudit (db : Db) (hnow : Calendar.FourDigits now)
    (hrows : ∀ row ∈ db.auditLog.rows, Calendar.FourDigits row.createdAt) :
    ∃ count auditLog, run execPrune (pruneTable now .audit) db = ⟨.ok count, { db with auditLog := auditLog }, []⟩ ∧
      Pruned (db.getSetting "audit_retention_days") now AuditLog.createdAt db.auditLog.rows auditLog.rows := by
  rw [run_pruneTable]
  cases hcutoff : retentionCutoff now (db.getSetting PruneTable.audit.settingKey) with
  | none => exact ⟨0, db.auditLog, rfl, pruned_of_none hnow hrows hcutoff⟩
  | some cutoff => exact ⟨_, _, rfl, pruned_of_cutoff hnow hrows hcutoff⟩

/-- **The prune is exact.** A pass leaves of each history the rows that are not past the retention its own setting
spells, drops sessions, and changes no other table. -/
theorem prune_exact (hnow : Calendar.FourDigits now) (hdb : db.Written) :
    ∃ counts pings notifications auditLog sessions,
      run execPrune (pruneOnce now) db = ⟨.ok counts, { db with
        pings := pings, notifications := notifications, auditLog := auditLog, sessions := sessions }, []⟩ ∧
      Pruned (db.getSetting "pings_retention_days") now Ping.createdAt db.pings.rows pings.rows ∧
      Pruned (db.getSetting "notifications_retention_days") now Notification.createdAt db.notifications.rows
        notifications.rows ∧
      Pruned (db.getSetting "audit_retention_days") now AuditLog.createdAt db.auditLog.rows auditLog.rows := by
  obtain ⟨count, pings, hpings, hprunedPings⟩ := run_prunePings hnow hdb.pings
  obtain ⟨count', notifications, hnotifications, hprunedNotifications⟩ :=
    run_pruneNotifications { db with pings := pings } hnow hdb.notifications
  obtain ⟨count'', auditLog, haudit, hprunedAudit⟩ :=
    run_pruneAudit { db with pings := pings, notifications := notifications } hnow hdb.audit
  have hcap : subDuration now sessionAbsoluteMax = .ok (now - sessionAbsoluteMax) := by
    have hyear := fourDigits_iff.mp hnow
    refine if_pos ⟨?_, ?_⟩
    · have hlow : minUtc + sessionAbsoluteMax ≤ yearZero := by decide
      linarith
    · have hhigh : yearMax ≤ maxUtc + sessionAbsoluteMax := by decide
      linarith
  have hrun : run execPrune (pruneOnce now) db = run execPrune
      (Prog.bind (Prog.perform id (PruneCall.deleteExpiredSessions now (now - sessionAbsoluteMax))) fun sessions =>
        .ret ⟨count, count', count'', sessions⟩)
      { db with pings := pings, notifications := notifications, auditLog := auditLog } := by
    unfold pruneOnce
    simp only [Prog.bind_eq]
    rw [run_bind_of_eq hpings, run_bind_of_eq hnotifications, run_bind_of_eq haudit, hcap]
    rfl
  refine ⟨⟨count, count', count'', (db.deleteExpiredSessions now (now - sessionAbsoluteMax)).1⟩, pings, notifications,
    auditLog, (db.deleteExpiredSessions now (now - sessionAbsoluteMax)).2.sessions, ?_, hprunedPings, hprunedNotifications,
    hprunedAudit⟩
  rw [hrun]
  rfl

/-- A history of two pings, and thirty days of retention. -/
def Db.retained : Db :=
  [StoreCall.setSetting "pings_retention_days" " +30 ",
    .insertPing ⟨1, .success, none, "", none⟩ 0,
    .insertPing ⟨1, .success, none, "", none⟩ (40 * nanosPerDay)].foldl (fun db c => (exec c db).2) .sample

theorem prune_exact_retained :
    ∃ counts pings notifications auditLog sessions,
      run execPrune (pruneOnce (50 * nanosPerDay)) Db.retained = ⟨.ok counts, { Db.retained with
        pings := pings, notifications := notifications, auditLog := auditLog, sessions := sessions }, []⟩ ∧
      Pruned (Db.retained.getSetting "pings_retention_days") (50 * nanosPerDay) Ping.createdAt Db.retained.pings.rows
        pings.rows ∧
      Pruned (Db.retained.getSetting "notifications_retention_days") (50 * nanosPerDay) Notification.createdAt
        Db.retained.notifications.rows notifications.rows ∧
      Pruned (Db.retained.getSetting "audit_retention_days") (50 * nanosPerDay) AuditLog.createdAt
        Db.retained.auditLog.rows auditLog.rows :=
  prune_exact ⟨by decide, by decide⟩
    ⟨by unfold Calendar.FourDigits; decide +kernel, by unfold Calendar.FourDigits; decide +kernel,
      by unfold Calendar.FourDigits; decide +kernel⟩

/-- Of the two, the pass deletes the older one. -/
example : (run execPrune (pruneOnce (50 * nanosPerDay)) Db.retained).state.pings.rows.map Ping.createdAt =
    [40 * nanosPerDay] := by decide +kernel

end Pass

end Pingward
