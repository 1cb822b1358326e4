import Pingward.ModelCall
import Pingward.TimestampOrder

/-! Which sessions are over. Four calls decide it, two of them by comparing stored texts and two by comparing
the times read from them; they agree because the texts of the years 0 to 9999 are in the order of the instants. What an accepted
request leaves in the row is within the policy, unless the stored expiry had reached the cap. -/

open KeyedTable
open Calendar (Stamp)

namespace Pingward

/-! ### Stored times -/

theorem fourDigits_iff {t : Instant} : Calendar.FourDigits t ↔ yearZero ≤ t ∧ t ≤ yearMax := by
  have hlow : Calendar.yearInstant 0 = yearZero := by decide
  have hhigh : Calendar.yearInstant 10000 = yearMax + 1 := by decide
  rw [Calendar.FourDigits, hlow, hhigh, Int.lt_add_one_iff]

/-- A stored instant, read back. -/
theorem parseTs_toRfc3339 (t : Instant) : parseTs (some (toRfc3339 t)) = (storedInstant t).map .ofInstant := by
  unfold parseTs storedInstant
  rw [Option.bind_some]
  split
  · rename_i hyear
    rw [toRfc3339, ← Stamp.text_ofInstant]
    exact readRfc3339Stamp_text (fourDigitYear_ofInstant.mpr (fourDigits_iff.mpr hyear))
  · rename_i hyear
    exact readRfc3339Stamp_eq_none (Calendar.readDate_eq_none_of_sign (mt fourDigits_iff.mp hyear))

theorem parseTs_of_fourDigits {t : Instant} (ht : Calendar.FourDigits t) :
    parseTs (some (toRfc3339 t)) = some (.ofInstant t) := by
  obtain ⟨hlow, hhigh⟩ := fourDigits_iff.mp ht
  rw [parseTs_toRfc3339, storedInstant_of_mem hlow hhigh, Option.map_some]

theorem toRfc3339_le_iff {t t' : Instant} (ht : Calendar.FourDigits t) (ht' : t' ≤ yearMax) :
    toRfc3339 t ≤ toRfc3339 t' ↔ t ≤ t' := by
  unfold toRfc3339
  by_cases hlow : yearZero ≤ t'
  · rw [← not_lt, ← not_lt, Calendar.rfc3339_lt_iff (fourDigits_iff.mpr ⟨hlow, ht'⟩) ht]
  · have hbefore : t' < Calendar.yearInstant 0 := not_le.mp hlow
    have hlt : t' < t := hbefore.trans_le (fourDigits_iff.mp ht).1
    rw [← not_lt, ← not_lt]
    exact iff_of_false (not_not.mpr (Calendar.rfc3339_lt_of_before hbefore ht)) (not_not.mpr hlt)

theorem toRfc3339_ne_empty (t : Instant) : toRfc3339 t ≠ "" := by
  intro hempty
  have hlength := congrArg (fun text => text.toList.length) hempty
  simp [toRfc3339, Calendar.rfc3339] at hlength

/-- The time a stored text stands for: the instant it was written for, or what is read from it. -/
def StandsFor (text : String) (t : Stamp) : Prop :=
  (∃ written : Instant, t = .ofInstant written ∧ text = toRfc3339 written) ∨ parseTs (some text) = some t

theorem StandsFor.eq {text : String} {t t' : Stamp} (hstands : StandsFor text t')
    (hparse : parseTs (some text) = some t) : t' = t := by
  rcases hstands with ⟨written, rfl, htext⟩ | hread
  · rw [htext, parseTs_toRfc3339, Option.map_eq_some_iff] at hparse
    obtain ⟨stored, hstored, rfl⟩ := hparse
    rw [(storedInstant_eq_some_iff.mp hstored).1]
  · rw [hread] at hparse
    exact Option.some.inj hparse

/-! ### Times outside a leap second -/

section Instants

variable {created : Option Instant} {last : Option Instant} {expires now : Instant}

theorem plusSpan_ofInstant (t : Instant) (span : Int) : plusSpan (.ofInstant t) span = t + span := by
  have hsum (t : Int) : t / 1000000000 * 1000000000 + ((t % 1000000000).toNat : Int) % 1000000000 = t := by omega
  exact congrArg (· + span) (hsum t)

theorem spanSince_ofInstant (t now : Instant) : spanSince (.ofInstant t) now = t - now := by
  unfold spanSince Stamp.ofInstant nanosPerSec
  dsimp only
  rw [if_neg (by omega)]
  omega

theorem isPastAbsoluteCap_ofInstant :
    StoredSession.isPastAbsoluteCap (created.map .ofInstant) now = isPastAbsoluteCap created now := by
  unfold StoredSession.isPastAbsoluteCap isPastAbsoluteCap
  simp only [Option.any_map, plusSpan_ofInstant]

theorem isStale_ofInstant : StoredSession.isStale (last.map .ofInstant) now = isStale last now := by
  unfold StoredSession.isStale isStale
  simp only [Option.all_map, spanSince_ofInstant, neg_sub]

theorem refreshedExpiry_ofInstant :
    StoredSession.refreshedExpiry (created.map .ofInstant) (.ofInstant expires) now =
      refreshedExpiry created expires now := by
  unfold StoredSession.refreshedExpiry refreshedExpiry
  simp only [Option.map_map, Function.comp_def, plusSpan_ofInstant, Stamp.ofInstant_before_iff, spanSince_ofInstant,
    not_lt]
  rfl

end Instants

/-! ### The stored expiry of an accepted session -/

/-- One user with one session. -/
def SessionDb.sample (created expires : String) : SessionDb where
  users := (exec (.createUser "alice" none false 0) .empty).2.users
  sessions := (Table.empty.insert ⟨"s1", 1, created, none, expires, none, none, false⟩).getD .empty

/-- A session of the first of January 2026. -/
def SessionDb.january : SessionDb := .sample "2026-01-01T00:00:00+00:00" "2026-01-30T00:00:00+00:00"

theorem SessionDb.sample_rows (created expires : String) :
    (SessionDb.sample created expires).sessions.rows = [⟨"s1", 1, created, none, expires, none, none, false⟩] := rfl

/-- 2026-01-02T00:00:00Z. -/
def secondOfJanuary : Instant := 1767312000 * nanosPerSec

section Accepted

variable {db after : SessionDb} {row : StoredSession} {user : User} {sid : String} {now : Instant} {created expires : Stamp}

theorem StoredSession.touched_expiresAt (row : StoredSession) (expires : Stamp) (now : Instant) :
    (row.touched expires now).expiresAt = ((refreshedExpiry (parseTs (some row.createdAt)) expires now).map
      fun renewal => toRfc3339 renewal.expiresAt).getD row.expiresAt := by
  unfold StoredSession.touched
  cases refreshedExpiry (parseTs (some row.createdAt)) expires now with
  | some renewal => rfl
  | none => cases isStale (parseTs row.lastSeenAt) now <;> rfl

theorem renewal_expiresAt {renewal : SessionRenewal}
    (hrenewal : StoredSession.refreshedExpiry (some created) expires now = some renewal) :
    renewal.expiresAt = min (now + sessionIdleTtl) (plusSpan created sessionAbsoluteMax) := by
  unfold StoredSession.refreshedExpiry at hrenewal
  simp only [Option.map_some, Option.any_some, decide_eq_true_eq] at hrenewal
  split at hrenewal
  · cases hrenewal
  · split at hrenewal
    · cases hrenewal
      rfl
    · split at hrenewal
      · cases hrenewal
      · cases hrenewal
        rfl

theorem refreshedExpiry_none (hrenewal : StoredSession.refreshedExpiry (some created) expires now = none) :
    ¬ expires.Before (.ofInstant (plusSpan created sessionAbsoluteMax)) ∨
      ¬ (Stamp.ofInstant (min (now + sessionIdleTtl) (plusSpan created sessionAbsoluteMax))).Before expires := by
  unfold StoredSession.refreshedExpiry at hrenewal
  simp only [Option.map_some, Option.any_some, decide_eq_true_eq] at hrenewal
  split at hrenewal
  · rename_i hcap
    exact .inl hcap
  · split at hrenewal
    · cases hrenewal
    · rename_i hnext
      exact .inr hnext

theorem refreshedExpiry_of_cap (hcap : ¬ expires.Before (.ofInstant (plusSpan created sessionAbsoluteMax))) :
    StoredSession.refreshedExpiry (some created) expires now = none := by
  unfold StoredSession.refreshedExpiry
  simp only [Option.map_some, Option.any_some, decide_eq_true_eq]
  exact if_pos hcap

theorem SessionDb.findSessionUser_accepted (hrow : db.sessions.find sid = some row)
    (haccepted : db.findSessionUser sid now = .ok (some user, after)) :
    ∃ expires, parseTs (some row.expiresAt) = some expires ∧
      after.sessions.find sid = some (row.touched expires now) := by
  unfold SessionDb.findSessionUser at haccepted
  simp only [hrow] at haccepted
  split at haccepted
  · cases haccepted
  · split at haccepted
    · cases haccepted
    · split at haccepted
      · cases haccepted
      · split at haccepted
        · cases haccepted
        · rename_i expires hexpires
          obtain ⟨_, _, hafter⟩ := except_bind_eq_ok.mp haccepted
          cases hafter
          exact ⟨expires, hexpires, by rw [Table.find_update_self, hrow, Option.map_some]⟩

theorem SessionDb.findSessionUser_of_live (hrow : db.sessions.find sid = some row)
    (huser : db.users.find row.userId = some user) (hidle : toRfc3339 now < row.expiresAt)
    (hcap : StoredSession.isPastAbsoluteCap (parseTs (some row.createdAt)) now = false)
    (hexpires : parseTs (some row.expiresAt) = some expires)
    (hrange : renewalInRange (parseTs (some row.createdAt)) expires now = .ok ()) :
    db.findSessionUser sid now = .ok (some user,
      { db with sessions := db.sessions.update sid (·.touched expires now) fun row => row.touched_id expires now }) := by
  unfold SessionDb.findSessionUser
  simp only [hrow, huser, hexpires, hrange, hcap, if_neg (not_le.mpr hidle)]
  rfl

/-- **Exactly when the stored expiry is clamped.** After a request is accepted the row's expiry is not after the end of one
idle window and not after the cap just when the stored expiry was before the cap, or at the cap and that inside one idle
window. -/
theorem stored_expiry_clamped_iff (hrow : db.sessions.find sid = some row)
    (hcreated : parseTs (some row.createdAt) = some created) (hexpires : parseTs (some row.expiresAt) = some expires)
    (haccepted : db.findSessionUser sid now = .ok (some user, after)) :
    (∃ stored t, after.sessions.find sid = some stored ∧ StandsFor stored.expiresAt t ∧
        ¬ (Stamp.ofInstant (min (now + sessionIdleTtl) (plusSpan created sessionAbsoluteMax))).Before t) ↔
      expires.Before (.ofInstant (plusSpan created sessionAbsoluteMax)) ∨
        expires = .ofInstant (plusSpan created sessionAbsoluteMax) ∧
          plusSpan created sessionAbsoluteMax ≤ now + sessionIdleTtl := by
  obtain ⟨expires', hexpires', hafter⟩ := SessionDb.findSessionUser_accepted hrow haccepted
  rw [hexpires] at hexpires'
  cases hexpires'
  have htouched := row.touched_expiresAt expires now
  rw [hcreated] at htouched
  cases hrenewal : StoredSession.refreshedExpiry (some created) expires now with
  | some renewal =>
      rw [hrenewal, Option.map_some, Option.getD_some] at htouched
      have hshort : expires.Before (.ofInstant (plusSpan created sessionAbsoluteMax)) := by
        by_contra hcap
        rw [refreshedExpiry_of_cap hcap] at hrenewal
        cases hrenewal
      refine iff_of_true ⟨_, .ofInstant renewal.expiresAt, hafter, .inl ⟨_, rfl, htouched⟩, ?_⟩ (.inl hshort)
      rw [renewal_expiresAt hrenewal, Stamp.ofInstant_before_iff]
      exact lt_irrefl _
  | none =>
      rw [hrenewal, Option.map_none, Option.getD_none] at htouched
      constructor
      · rintro ⟨stored, t, hstored, hstands, hle⟩
        rw [hafter] at hstored
        cases hstored
        rw [htouched] at hstands
        rw [hstands.eq hexpires, Stamp.not_min_before_iff] at hle
        rcases Stamp.not_before_iff.mp hle.2 with hlt | heq
        · exact .inl hlt
        · refine .inr ⟨heq.symm, ?_⟩
          have hidle := hle.1
          rw [← heq, Stamp.ofInstant_before_iff] at hidle
          exact not_lt.mp hidle
      · intro hwithin
        refine ⟨_, expires, hafter, .inr (htouched ▸ hexpires), ?_⟩
        rcases refreshedExpiry_none hrenewal with hcap | hle
        · rcases hwithin with hlt | ⟨heq, hidle⟩
          · exact absurd hlt hcap
          · rw [heq, Stamp.ofInstant_before_iff]
            exact not_lt.mpr (le_min hidle le_rfl)
        · exact hle

/-- A session of the first of January whose expiry is more than a day away, inside the cap. -/
theorem stored_expiry_clamped_sample : ∃ after stored t,
    SessionDb.january.findSessionUser "s1" secondOfJanuary =
        .ok (some ⟨1, "alice", none, false, false, 0⟩, after) ∧
      after.sessions.find "s1" = some stored ∧ StandsFor stored.expiresAt t ∧
      ¬ (Stamp.ofInstant (secondOfJanuary + sessionIdleTtl)).Before t := by
  have hexpires : parseTs (some "2026-01-30T00:00:00+00:00") = some (.ofInstant (1769731200 * nanosPerSec)) := by
    decide +kernel
  obtain ⟨after, hafter⟩ : ∃ after,
      SessionDb.january.findSessionUser "s1" secondOfJanuary =
        .ok (some ⟨1, "alice", none, false, false, 0⟩, after) := by
    refine ⟨_, SessionDb.findSessionUser_of_live rfl ?_ ?_ ?_ hexpires ?_⟩ <;> decide +kernel
  have hrow : SessionDb.january.sessions.find "s1" =
      some ⟨"s1", 1, "2026-01-01T00:00:00+00:00", none, "2026-01-30T00:00:00+00:00", none, none, false⟩ := by
    decide +kernel
  have hcreated : parseTs (some "2026-01-01T00:00:00+00:00") = some (.ofInstant (1767225600 * nanosPerSec)) := by
    decide +kernel
  obtain ⟨stored, t, hstored, hstands, hle⟩ :=
    (stored_expiry_clamped_iff hrow hcreated hexpires hafter).mpr (.inl (by decide +kernel))
  exact ⟨after, stored, t, hafter, hstored, hstands, (Stamp.not_min_before_iff.mp hle).1⟩

/-- An expiry beyond the cap stays in the row, a month and more beyond both limits. -/
theorem expiry_past_cap_stays :
    ((SessionDb.sample "2026-01-01T00:00:00+00:00" "2026-03-01T00:00:00+00:00").findSessionUser "s1"
        secondOfJanuary).map (fun answer => (answer.1.isSome, (answer.2.sessions.find "s1").map StoredSession.expiresAt)) =
      .ok (true, some "2026-03-01T00:00:00+00:00") ∧
    parseTs (some "2026-01-01T00:00:00+00:00") = some (.ofInstant (1767225600 * nanosPerSec)) ∧
    parseTs (some "2026-03-01T00:00:00+00:00") = some (.ofInstant (1772323200 * nanosPerSec)) ∧
    ¬ 1772323200 * nanosPerSec ≤ min (secondOfJanuary + sessionIdleTtl) (1767225600 * nanosPerSec + sessionAbsoluteMax) := by
  decide +kernel

/-- An expiry in the leap second before the cap is clamped. -/
example :
    ((SessionDb.sample "2026-01-01T00:00:00+00:00" "2026-01-30T23:59:60.5+00:00").findSessionUser "s1"
        secondOfJanuary).map (fun answer => (answer.2.sessions.find "s1").map StoredSession.expiresAt) =
      .ok (some "2026-01-05T00:00:00+00:00") := by
  decide +kernel

end Accepted

/-! ### The calls that end sessions -/

/-- The times of a row as the program writes them. -/
structure StoredSession.Written (row : StoredSession) : Prop where
  created : row.createdAt = "" ∨ ∃ t, Calendar.FourDigits t ∧ row.createdAt = toRfc3339 t
  expires : ∃ t, Calendar.FourDigits t ∧ row.expiresAt = toRfc3339 t

/-- The row of a session that has not ended, by what the session lookup compares. -/
def StoredSession.Live (row : StoredSession) (now : Instant) : Prop :=
  toRfc3339 now < row.expiresAt ∧ StoredSession.isPastAbsoluteCap (parseTs (some row.createdAt)) now = false

/-- A request in the session would be accepted. -/
def SessionDb.Accepts (db : SessionDb) (sid : String) (now : Instant) : Prop :=
  ∃ user after, db.findSessionUser sid now = .ok (some user, after)

/-- The moments whose absolute cap lies in the years that sort by time. -/
structure CapTime (now : Instant) : Prop where
  low : minUtc ≤ now - sessionAbsoluteMax
  high : now - sessionAbsoluteMax ≤ yearMax

section Paths

variable {db : SessionDb} {row : StoredSession} {now : Instant}

theorem CapTime.cap (hnow : CapTime now) : subDuration now sessionAbsoluteMax = .ok (now - sessionAbsoluteMax) := by
  rw [subDuration_eq_ok_iff]
  have hmax : yearMax ≤ maxUtc := by decide
  exact ⟨⟨hnow.low, hnow.high.trans hmax⟩, rfl⟩

theorem CapTime.renewal (hnow : CapTime now) (created : Option Stamp) (expires : Stamp) :
    renewalInRange created expires now = .ok () := by
  unfold renewalInRange
  split
  · rfl
  · have hlow : (0 : Int) ≤ sessionAbsoluteMax + sessionIdleTtl := by decide
    have hhigh : yearMax + sessionAbsoluteMax + sessionIdleTtl ≤ maxUtc := by decide
    have hrange : inRange (now + sessionIdleTtl) := by
      have hcap := hnow.low
      have hyear := hnow.high
      constructor <;> linarith
    rw [addDuration, if_pos hrange]
    rfl

/-- The cap by texts is the cap by instants. -/
theorem StoredSession.Written.capped_iff (hwritten : row.Written) (hnow : CapTime now) :
    row.createdAt ≠ "" ∧ row.createdAt ≤ toRfc3339 (now - sessionAbsoluteMax) ↔
      StoredSession.isPastAbsoluteCap (parseTs (some row.createdAt)) now = true := by
  unfold StoredSession.isPastAbsoluteCap
  rcases hwritten.created with hempty | ⟨t, ht, htext⟩
  · rw [hempty]
    have hnone : parseTs (some "") = none := by decide
    rw [hnone]
    simp
  · rw [htext, parseTs_of_fourDigits ht, toRfc3339_le_iff ht hnow.high, Option.any_some, plusSpan_ofInstant,
      decide_eq_true_eq, le_sub_iff_add_le]
    exact and_iff_right (toRfc3339_ne_empty t)

theorem StoredSession.Written.parse_expires (hwritten : row.Written) :
    ∃ expires, parseTs (some row.expiresAt) = some expires := by
  obtain ⟨t, ht, htext⟩ := hwritten.expires
  exact ⟨.ofInstant t, by rw [htext, parseTs_of_fourDigits ht]⟩

theorem StoredSession.Written.rowToSession (hwritten : row.Written) :
    ∃ session, Pingward.rowToSession row = .ok session ∧ session.id = row.id ∧
      session.createdAt = parseTs (some row.createdAt) := by
  obtain ⟨expires, hexpires⟩ := hwritten.parse_expires
  unfold Pingward.rowToSession
  rw [hexpires]
  exact ⟨_, rfl, rfl, rfl⟩

/-- The lookup accepts the sessions that are live. -/
theorem SessionDb.accepts_iff (hrow : row ∈ db.sessions.rows) (hwritten : row.Written) (hnow : CapTime now)
    (huser : ∃ user, db.users.find row.userId = some user) : db.Accepts row.id now ↔ row.Live now := by
  obtain ⟨user, huser⟩ := huser
  obtain ⟨expires, hexpires⟩ := hwritten.parse_expires
  have hfind : db.sessions.find row.id = some row := db.sessions.find_eq_some_iff.mpr ⟨hrow, rfl⟩
  constructor
  · rintro ⟨found, after, hfound⟩
    unfold SessionDb.findSessionUser at hfound
    simp only [hfind, huser] at hfound
    split at hfound
    · cases hfound
    · rename_i hidle
      split at hfound
      · cases hfound
      · rename_i hcap
        exact ⟨not_le.mp hidle, Bool.eq_false_iff.mpr hcap⟩
  · intro hlive
    exact ⟨user, _, SessionDb.findSessionUser_of_live hfind huser hlive.1 hlive.2 hexpires (hnow.renewal _ _)⟩

theorem mem_deleteWhere {p : StoredSession → Bool} (hrow : row ∈ db.sessions.rows) :
    row ∉ (db.sessions.deleteWhere p).rows ↔ p row = true := by
  rw [Table.deleteWhere_rows, List.mem_filter, and_iff_right hrow, Bool.not_eq_true', Bool.not_eq_false]

theorem deleteExpiredSessions_eq (hnow : CapTime now) :
    db.deleteExpiredSessions now = .ok (db.deleteWhere fun row =>
      row.expiresAt ≤ toRfc3339 now ∨
        row.createdAt ≠ "" ∧ row.createdAt ≤ toRfc3339 (now - sessionAbsoluteMax)) := by
  unfold SessionDb.deleteExpiredSessions
  rw [hnow.cap]
  rfl

theorem deleteCappedSessionsForUser_eq (hnow : CapTime now) (userId : Int) :
    db.deleteCappedSessionsForUser userId now = .ok (db.deleteWhere fun row =>
      row.userId = userId ∧ row.createdAt ≠ "" ∧ row.createdAt ≤ toRfc3339 (now - sessionAbsoluteMax)) := by
  unfold SessionDb.deleteCappedSessionsForUser
  rw [hnow.cap]
  rfl

/-- The rows of a list read without a fault, each to its session. -/
theorem mapM_rowToSession {rows : List StoredSession} (hwritten : ∀ row ∈ rows, row.Written) :
    ∃ sessions, rows.mapM rowToSession = .ok sessions ∧
      ∀ session, session ∈ sessions ↔ ∃ row ∈ rows, rowToSession row = .ok session := by
  induction rows with
  | nil => exact ⟨[], rfl, fun session => by simp⟩
  | cons row rest ih =>
      obtain ⟨first, hfirst, -⟩ := (hwritten row List.mem_cons_self).rowToSession
      obtain ⟨sessions, hsessions, hmem⟩ := ih fun other hother => hwritten other (List.mem_cons_of_mem _ hother)
      refine ⟨first :: sessions, ?_, fun session => ?_⟩
      · rw [List.mapM_cons, hfirst, hsessions]
        rfl
      · rw [List.mem_cons, hmem, List.exists_mem_cons_iff, hfirst, Except.ok.injEq, eq_comm]

theorem SessionDb.mem_unexpiredRows {userId : Int} : row ∈ db.unexpiredRows userId now ↔
    row ∈ db.sessions.rows ∧ row.userId = userId ∧ toRfc3339 now < row.expiresAt := by
  rw [SessionDb.unexpiredRows, List.mem_mergeSort, List.mem_filter, decide_eq_true_eq]

/-- The list names the live sessions of its user. -/
theorem listSessionsForUser_lists (hwritten : ∀ row ∈ db.sessions.rows, row.Written) (userId : Int) (now : Instant) :
    ∃ listed, db.listSessionsForUser userId now = .ok listed ∧
      ∀ row ∈ db.sessions.rows, row.userId = userId → ((∃ session ∈ listed, session.id = row.id) ↔ row.Live now) := by
  obtain ⟨sessions, hsessions, hread⟩ := mapM_rowToSession fun row hrow =>
    hwritten row (SessionDb.mem_unexpiredRows.mp hrow).1
  refine ⟨sessions.filter fun session => !StoredSession.isPastAbsoluteCap session.createdAt now, ?_, ?_⟩
  · unfold SessionDb.listSessionsForUser
    rw [hsessions]
    rfl
  · intro row hrow huser
    constructor
    · rintro ⟨session, hsession, hid⟩
      rw [List.mem_filter, hread] at hsession
      obtain ⟨⟨other, hother, hrowTo⟩, hcap⟩ := hsession
      rw [SessionDb.mem_unexpiredRows] at hother
      obtain ⟨session', hsession', hid', hcreated⟩ := (hwritten other hother.1).rowToSession
      rw [hrowTo] at hsession'
      cases hsession'
      have heq : other = row := db.sessions.key_inj hother.1 hrow (hid'.symm.trans hid)
      rw [heq] at hother hcreated
      rw [hcreated, Bool.not_eq_true'] at hcap
      exact ⟨hother.2.2, hcap⟩
    · rintro ⟨hidle, hcap⟩
      obtain ⟨session, hsession, hid, hcreated⟩ := (hwritten row hrow).rowToSession
      refine ⟨session, ?_, hid⟩
      rw [List.mem_filter, hread, hcreated, hcap]
      exact ⟨⟨row, SessionDb.mem_unexpiredRows.mpr ⟨hrow, huser, hidle⟩, hsession⟩, rfl⟩

/-- **The paths agree.** Of rows the program wrote, at a moment whose cap is not after the year 9999: the cleanup
deletes those that the lookup does not accept, which are those that no list names; and the removal of a user's
capped sessions deletes those that are past the cap. -/
theorem session_paths_agree (hwritten : ∀ row ∈ db.sessions.rows, row.Written)
    (husers : ∀ row ∈ db.sessions.rows, ∃ user, db.users.find row.userId = some user) (hnow : CapTime now) :
    (∃ count after, db.deleteExpiredSessions now = .ok (count, after) ∧
      ∀ row ∈ db.sessions.rows, row ∉ after.sessions.rows ↔ ¬ db.Accepts row.id now) ∧
    (∀ userId, ∃ listed, db.listSessionsForUser userId now = .ok listed ∧
      ∀ row ∈ db.sessions.rows, row.userId = userId →
        (¬ db.Accepts row.id now ↔ ∀ session ∈ listed, session.id ≠ row.id)) ∧
    (∀ userId, ∃ count after, db.deleteCappedSessionsForUser userId now = .ok (count, after) ∧
      ∀ row ∈ db.sessions.rows, row ∉ after.sessions.rows ↔
        row.userId = userId ∧ StoredSession.isPastAbsoluteCap (parseTs (some row.createdAt)) now = true) := by
  have haccepts (row : StoredSession) (hrow : row ∈ db.sessions.rows) : db.Accepts row.id now ↔ row.Live now :=
    SessionDb.accepts_iff hrow (hwritten row hrow) hnow (husers row hrow)
  refine ⟨⟨_, _, deleteExpiredSessions_eq hnow, ?_⟩, ?_, fun userId => ⟨_, _, deleteCappedSessionsForUser_eq hnow userId, ?_⟩⟩
  · intro row hrow
    dsimp only
    rw [mem_deleteWhere hrow, decide_eq_true_eq, (hwritten row hrow).capped_iff hnow, haccepts row hrow,
      StoredSession.Live, not_and_or, not_lt, Bool.not_eq_false]
  · intro userId
    obtain ⟨listed, hlisted, hnames⟩ := listSessionsForUser_lists hwritten userId now
    refine ⟨listed, hlisted, fun row hrow huser => ?_⟩
    rw [haccepts row hrow, ← hnames row hrow huser]
    push Not
    rfl
  · intro row hrow
    dsimp only
    rw [mem_deleteWhere hrow, decide_eq_true_eq, (hwritten row hrow).capped_iff hnow]

end Paths

/-- The session of January on its second day. -/
theorem session_paths_agree_sample : ∃ count after,
    SessionDb.january.deleteExpiredSessions secondOfJanuary = .ok (count, after) ∧
      ∀ row ∈ SessionDb.january.sessions.rows,
        row ∉ after.sessions.rows ↔ ¬ SessionDb.january.Accepts row.id secondOfJanuary := by
  have hnow : CapTime secondOfJanuary := ⟨by decide, by decide⟩
  refine (session_paths_agree ?_ ?_ hnow).1
  · intro row hrow
    rw [SessionDb.january, SessionDb.sample_rows, List.mem_singleton] at hrow
    rw [hrow]
    exact ⟨.inr ⟨1767225600 * nanosPerSec, fourDigits_iff.mpr (by decide), by decide +kernel⟩,
      ⟨1769731200 * nanosPerSec, fourDigits_iff.mpr (by decide), by decide +kernel⟩⟩
  · intro row hrow
    rw [SessionDb.january, SessionDb.sample_rows, List.mem_singleton] at hrow
    rw [hrow]
    exact ⟨⟨1, "alice", none, false, false, 0⟩, rfl⟩

/-- A session of the end of the year 9999. -/
def SessionDb.december : SessionDb :=
  .sample (toRfc3339 (Calendar.yearInstant 10000 - 12 * 86400 * nanosPerSec))
    (toRfc3339 (Calendar.yearInstant 10000 - 9 * 86400 * nanosPerSec))

/-- In the year 10000 the cap's text sorts below every stored one: the cleanup keeps a session that no lookup
accepts. -/
theorem session_paths_part_in_year_10000 :
    (SessionDb.december.deleteExpiredSessions (Calendar.yearInstant 10000 + 45 * 86400 * nanosPerSec)).map
        (fun answer => answer.1) = .ok 0 ∧
      (SessionDb.december.findSessionUser "s1" (Calendar.yearInstant 10000 + 45 * 86400 * nanosPerSec)).map
        (fun answer => answer.1.isSome) = .ok false := by
  decide +kernel

end Pingward
