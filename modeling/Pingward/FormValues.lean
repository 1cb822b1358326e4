import Pingward.FormDuration
import Pingward.AlertRange

/-! What the validators accept, field by field, and that the value of an accepted field, shown in the edit
form, is accepted again with the same value. -/

namespace Pingward

/-- What is assumed of the time zone names: a name parses back to its zone, has nothing to trim, and the one
of UTC is `UTC`. -/
structure Crates.ZoneNames (X : Crates) : Prop where
  parse : ∀ tz, X.parseTz (X.tzName tz) = some tz
  plain : ∀ tz, trim (X.tzName tz) = X.tzName tz ∧ X.tzName tz ≠ ""
  utc : X.tzName X.utc = "UTC"

/-! ### Fields -/

theorem validateDescription_eq_ok_iff {s description : String} :
    validateDescription s = .ok description ↔ (trim s).length ≤ maxDescriptionChars ∧ trim s = description := by
  unfold validateDescription
  dsimp only
  split
  · rename_i hlong
    exact iff_of_false (fun h => by cases h) fun h => absurd h.1 (by omega)
  · rename_i hshort
    rw [Except.ok.injEq]
    exact ⟨fun h => ⟨by omega, h⟩, fun h => h.2⟩

theorem validateDescription_again {s description : String} (hvalid : validateDescription s = .ok description) :
    validateDescription description = .ok description := by
  rw [validateDescription_eq_ok_iff] at hvalid ⊢
  obtain ⟨hlength, rfl⟩ := hvalid
  rw [trim_trim]
  exact ⟨hlength, rfl⟩

/-- A duration field as the edit form shows it. -/
def shownDuration (v : Option Int) : String := (v.map fmtDuration).getD ""

theorem parseOptPositiveDuration_range {s field : String} {v : Option Int}
    (hvalid : parseOptPositiveDuration s field = .ok v) : ∀ secs, v = some secs → 0 < secs ∧ secs ≤ i64Max := by
  rintro secs rfl
  refine ⟨parseOptPositiveDuration_pos hvalid, ?_⟩
  unfold parseOptPositiveDuration at hvalid
  dsimp only at hvalid
  split at hvalid
  · cases hvalid
  · split at hvalid
    · rename_i hparse
      split at hvalid
      · cases hvalid
        exact parseDuration_le hparse
      · cases hvalid
    · cases hvalid

theorem parseOptPositiveDuration_shown {v : Option Int} (hrange : ∀ secs, v = some secs → 0 < secs ∧ secs ≤ i64Max)
    (field : String) : parseOptPositiveDuration (shownDuration v) field = .ok v := by
  cases v with
  | none => rfl
  | some secs =>
      obtain ⟨hpos, hmax⟩ := hrange secs rfl
      obtain ⟨htrim, hne⟩ := trim_fmtDuration secs
      unfold parseOptPositiveDuration shownDuration
      dsimp only [Option.map_some, Option.getD_some]
      rw [htrim, if_neg hne, parseDuration_fmtDuration hpos.le hmax]
      exact if_pos hpos

theorem parseOptPositiveDuration_again {s field : String} {v : Option Int}
    (hvalid : parseOptPositiveDuration s field = .ok v) (field' : String) :
    parseOptPositiveDuration (shownDuration v) field' = .ok v :=
  parseOptPositiveDuration_shown (parseOptPositiveDuration_range hvalid) field'

section Zones

variable {X : Crates} (hzones : X.ZoneNames)

include hzones

/-- An accepted zone is stored under its name. -/
theorem validateTimezone_name {raw timezone : String} (hvalid : validateTimezone X raw = .ok timezone) :
    ∃ tz, timezone = X.tzName tz := by
  unfold validateTimezone at hvalid
  dsimp only at hvalid
  split at hvalid
  · cases hvalid
    exact ⟨X.utc, hzones.utc.symm⟩
  · split at hvalid
    · rename_i parsed _
      cases hvalid
      exact ⟨parsed, rfl⟩
    · cases hvalid

theorem validateTimezone_again {raw timezone : String} (hvalid : validateTimezone X raw = .ok timezone) :
    validateTimezone X timezone = .ok timezone := by
  obtain ⟨tz, rfl⟩ := validateTimezone_name hzones hvalid
  obtain ⟨htrim, hne⟩ := hzones.plain tz
  unfold validateTimezone
  dsimp only
  rw [htrim, if_neg hne, hzones.parse]

theorem validateOptTimezone_again {raw timezone : String} (hvalid : validateOptTimezone X raw = .ok timezone) :
    validateOptTimezone X timezone = .ok timezone := by
  unfold validateOptTimezone at hvalid
  split at hvalid
  · cases hvalid
    rfl
  · obtain ⟨tz, rfl⟩ := validateTimezone_name hzones hvalid
    rw [validateOptTimezone, if_neg (by rw [(hzones.plain tz).1]; exact (hzones.plain tz).2)]
    exact validateTimezone_again hzones hvalid

end Zones

/-! ### Schedules -/

theorem scheduleKind_fromStr_asStr (kind : ScheduleKind) : ScheduleKind.fromStr kind.asStr = .ok kind := by
  cases kind <;> rfl

theorem validateSchedule_eq_ok_iff {X : Crates} {form : CheckForm} {kind : ScheduleKind}
    {schedule : Option Int × Option String} :
    validateSchedule X form kind = .ok schedule ↔
      match kind with
      | .period => trim form.periodSecs ≠ "" ∧
          ∃ secs, parseDuration form.periodSecs = some secs ∧ 0 < secs ∧ (some secs, none) = schedule
      | .cron => trim form.cronExpr ≠ "" ∧
          (∃ parsed, X.parseSchedule (trim form.cronExpr) = .ok parsed) ∧ (none, some (trim form.cronExpr)) = schedule := by
  cases kind with
  | period =>
      simp only [validateSchedule, except_bind_eq_ok, ensure_eq_ok_iff, exists_const]
      refine and_congr_right fun _ => ?_
      cases parseDuration form.periodSecs with
      | none => exact iff_of_false (fun h => by cases h) (by rintro ⟨secs, ⟨⟩, _⟩)
      | some secs =>
          simp only [except_bind_eq_ok, ensure_eq_ok_iff, exists_const, pure, Except.pure, Except.ok.injEq]
          exact ⟨fun h => ⟨secs, rfl, h⟩, by rintro ⟨secs', ⟨⟩, h⟩; exact h⟩
  | cron =>
      simp only [validateSchedule, except_bind_eq_ok, ensure_eq_ok_iff, exists_const]
      refine and_congr_right fun _ => ?_
      cases X.parseSchedule (trim form.cronExpr) with
      | error e => exact iff_of_false (fun h => by cases h) (by rintro ⟨⟨parsed, ⟨⟩⟩, _⟩)
      | ok parsed =>
          simp only [pure, Except.pure, Except.ok.injEq]
          exact ⟨fun h => ⟨⟨parsed, rfl⟩, h⟩, fun h => h.2⟩

/-- An accepted schedule, shown in the form, is accepted again. -/
theorem validateSchedule_again {X : Crates} {form form' : CheckForm} {kind : ScheduleKind}
    {schedule : Option Int × Option String} (hvalid : validateSchedule X form kind = .ok schedule)
    (hperiod : form'.periodSecs = shownDuration schedule.1) (hcron : form'.cronExpr = schedule.2.getD "") :
    validateSchedule X form' kind = .ok schedule := by
  rw [validateSchedule_eq_ok_iff] at hvalid ⊢
  cases kind with
  | period =>
      obtain ⟨_, secs, hparse, hpos, rfl⟩ := hvalid
      have hshown : form'.periodSecs = fmtDuration secs := hperiod
      obtain ⟨htrim, hne⟩ := trim_fmtDuration secs
      refine ⟨by rw [hshown, htrim]; exact hne, secs, ?_, hpos, rfl⟩
      rw [hshown]
      exact parseDuration_fmtDuration hpos.le (parseDuration_le hparse)
  | cron =>
      obtain ⟨hne, hparse, rfl⟩ := hvalid
      have hshown : trim form'.cronExpr = trim form.cronExpr := by
        rw [hcron]
        exact trim_trim _
      dsimp only
      rw [hshown]
      exact ⟨hne, hparse, rfl⟩

/-! ### Whole forms -/

/-- What the validator of checks asks, and what it returns. -/
structure CheckForm.Gives (X : Crates) (form : CheckForm) (fields : UpdateCheck) : Prop where
  named : trim form.name ≠ ""
  name : trim form.name = fields.name
  description : validateDescription form.description = .ok fields.description
  grace : parseDuration form.graceSecs = some fields.graceSecs
  graceNonneg : 0 ≤ fields.graceSecs
  kind : ScheduleKind.fromStr form.scheduleKind = .ok fields.kind
  schedule : validateSchedule X form fields.kind = .ok (fields.periodSecs, fields.cronExpr)
  timezone : validateTimezone X form.timezone = .ok fields.timezone
  scan : parseOptPositiveDuration form.scanIntervalSecs "scan interval" = .ok fields.scanIntervalSecs
  maxRuntime : parseOptPositiveDuration form.maxRuntimeSecs "max runtime" = .ok fields.maxRuntimeSecs
  nag : parseOptPositiveDuration form.nagIntervalSecs "nag interval" = .ok fields.nagIntervalSecs

theorem validateCheck_eq_ok_iff {X : Crates} {form : CheckForm} {fields : UpdateCheck} :
    validateCheck X form = .ok fields ↔ form.Gives X fields := by
  constructor
  · intro hvalid
    simp only [validateCheck, except_bind_eq_ok, ensure_eq_ok_iff] at hvalid
    obtain ⟨_, hnamed, description, hdescription, hvalid⟩ := hvalid
    split at hvalid
    · cases hvalid
    · rename_i grace hgrace
      simp only [except_bind_eq_ok, ensure_eq_ok_iff] at hvalid
      obtain ⟨_, hnonneg, hvalid⟩ := hvalid
      split at hvalid
      · cases hvalid
      · rename_i kind hkind
        simp only [except_bind_eq_ok, pure, Except.pure, Except.ok.injEq] at hvalid
        obtain ⟨schedule, hschedule, timezone, htimezone, scan, hscan, maxRuntime, hmax, nag, hnag, rfl⟩ := hvalid
        exact ⟨hnamed, rfl, hdescription, hgrace, hnonneg, hkind, hschedule, htimezone, hscan, hmax, hnag⟩
  · intro hgives
    simp only [validateCheck, except_bind_eq_ok, ensure_eq_ok_iff]
    refine ⟨(), hgives.named, _, hgives.description, ?_⟩
    rw [hgives.grace]
    simp only [except_bind_eq_ok, ensure_eq_ok_iff]
    refine ⟨(), hgives.graceNonneg, ?_⟩
    rw [hgives.kind]
    simp only [except_bind_eq_ok, pure, Except.pure, Except.ok.injEq]
    refine ⟨_, hgives.schedule, _, hgives.timezone, _, hgives.scan, _, hgives.maxRuntime, _, hgives.nag, ?_⟩
    rw [hgives.name]

/-- The validated fields a stored check holds. -/
def Check.fields (check : Check) : UpdateCheck where
  name := check.name
  description := check.description
  kind := check.scheduleKind
  periodSecs := check.periodSecs
  graceSecs := check.graceSecs
  cronExpr := check.cronExpr
  timezone := check.timezone
  scanIntervalSecs := check.scanIntervalSecs
  maxRuntimeSecs := check.maxRuntimeSecs
  nagIntervalSecs := check.nagIntervalSecs

/-- **Checks.** The edit form of a check stored from an accepted form gives the fields it was stored with. -/
theorem validateCheck_editForm {X : Crates} (hzones : X.ZoneNames) {form : CheckForm} {check : Check}
    (hvalid : validateCheck X form = .ok check.fields) : validateCheck X (checkEditForm check) = .ok check.fields := by
  rw [validateCheck_eq_ok_iff] at hvalid ⊢
  have hname : trim check.name = check.name := by
    rw [show check.name = trim form.name from hvalid.name.symm, trim_trim]
  exact {
    named := by
      rw [show (checkEditForm check).name = check.name from rfl, hname,
        show check.name = trim form.name from hvalid.name.symm]
      exact hvalid.named
    name := hname
    description := validateDescription_again hvalid.description
    grace := parseDuration_fmtDuration hvalid.graceNonneg (parseDuration_le hvalid.grace)
    graceNonneg := hvalid.graceNonneg
    kind := scheduleKind_fromStr_asStr check.scheduleKind
    schedule := validateSchedule_again hvalid.schedule rfl rfl
    timezone := validateTimezone_again hzones hvalid.timezone
    scan := parseOptPositiveDuration_again hvalid.scan _
    maxRuntime := parseOptPositiveDuration_again hvalid.maxRuntime _
    nag := parseOptPositiveDuration_again hvalid.nag _ }

theorem validateProject_eq_ok_iff {form : ProjectForm} {settings : ProjectSettings} :
    validateProject form = .ok settings ↔ trim form.name ≠ "" ∧ trim form.name = settings.name ∧
      validateDescription form.description = .ok settings.description ∧
      parseOptPositiveDuration form.scanIntervalSecs "scan interval" = .ok settings.scanIntervalSecs ∧
      parseOptPositiveDuration form.nagIntervalSecs "nag interval" = .ok settings.nagIntervalSecs := by
  simp only [validateProject, except_bind_eq_ok, ensure_eq_ok_iff, exists_const, pure, Except.pure, Except.ok.injEq]
  constructor
  · rintro ⟨hnamed, description, hdescription, scan, hscan, nag, hnag, rfl⟩
    exact ⟨hnamed, rfl, hdescription, hscan, hnag⟩
  · rintro ⟨hnamed, hname, hdescription, hscan, hnag⟩
    exact ⟨hnamed, _, hdescription, _, hscan, _, hnag, by rw [hname]⟩

/-- The validated settings a stored project holds. -/
def Project.fields (project : Project) : ProjectSettings :=
  ⟨project.name, project.description, project.scanIntervalSecs, project.nagIntervalSecs⟩

/-- **Projects.** The same for a project. -/
theorem validateProject_editForm {form : ProjectForm} {project : Project}
    (hvalid : validateProject form = .ok project.fields) :
    validateProject (projectEditForm project) = .ok project.fields := by
  rw [validateProject_eq_ok_iff] at hvalid ⊢
  obtain ⟨hnamed, hname, hdescription, hscan, hnag⟩ := hvalid
  have hname : project.name = trim form.name := hname.symm
  have hkept : trim project.name = project.name := by
    rw [hname, trim_trim]
  refine ⟨?_, hkept, validateDescription_again hdescription, parseOptPositiveDuration_again hscan _,
    parseOptPositiveDuration_again hnag _⟩
  rw [show (projectEditForm project).name = project.name from rfl, hkept, hname]
  exact hnamed

end Pingward
