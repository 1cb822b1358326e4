import Pingward.AccountChanges
import Pingward.FormValues

/-! The instance-wide settings and their form. Each stored value was accepted for its key; as the form shows
it, it is accepted again and stays what it is, so that a save of the form as shown finds nothing changed. -/

open KeyedTable StoreProgram

namespace Pingward

/-! ### One setting -/

theorem except_map_eq_ok_iff {ε α β : Type} {x : Except ε α} {f : α → β} {b : β} :
    x.map f = .ok b ↔ ∃ a, x = .ok a ∧ f a = b := by
  cases x with
  | error error => simp [Except.map]
  | ok a => simp [Except.map]

theorem parseI64_le {s : String} {v : Int} (hparse : parseI64 s = some v) : v ≤ i64Max := by
  unfold parseI64 at hparse
  split at hparse
  · split at hparse
    · exact ((checkedI64_eq_some.mp hparse).1.trans_le le_rfl).trans (checkedI64_eq_some.mp hparse).2.2
    · cases hparse
  · exact parseDigits_le hparse
  · exact parseDigits_le hparse

/-- A stored setting as the form shows it. -/
def SettingKind.shown : SettingKind → String → String
  | .duration, value => readableSettingDuration value
  | .days, value => value
  | .timezone, value => value

theorem fmtOptSetting_some {secs : Int} (hpos : 0 < secs) :
    ∃ n : Nat, secs = n ∧ fmtOptSetting (some secs) = i64ToString n := by
  obtain ⟨n, rfl⟩ := Int.eq_ofNat_of_zero_le hpos.le
  exact ⟨n, rfl, rfl⟩

/-- Decimal digits have nothing to trim. -/
theorem trim_i64ToString (n : Nat) : trim (i64ToString n) = i64ToString n ∧ i64ToString n ≠ "" := by
  have hchars := toList_i64ToString n
  constructor
  · refine trim_eq_self fun c hc => ?_
    rw [hchars] at hc
    exact (IsDurationChar.plain (Or.inl (List.all_eq_true.mp (all_isDigit_toDigits n) c hc))).1
  · intro hempty
    rw [hempty] at hchars
    exact Nat.toDigits_ne_nil hchars.symm

/-- A stored interval shows as the duration it is. -/
theorem readableSettingDuration_fmtOptSetting {v : Option Int}
    (hrange : ∀ secs, v = some secs → 0 < secs ∧ secs ≤ i64Max) :
    readableSettingDuration (fmtOptSetting v) = shownDuration v := by
  cases v with
  | none => rfl
  | some secs =>
      obtain ⟨hpos, hmax⟩ := hrange secs rfl
      obtain ⟨n, rfl, htext⟩ := fmtOptSetting_some hpos
      unfold readableSettingDuration
      rw [htext, (trim_i64ToString n).1, parseI64_i64ToString hmax]
      exact if_pos hpos

theorem parseOptPositive_again {s field : String} {v : Option Int} (hvalid : parseOptPositive s field = .ok v)
    (field' : String) : parseOptPositive (fmtOptSetting v) field' = .ok v := by
  cases v with
  | none => rfl
  | some secs =>
      have hrange : 0 < secs ∧ secs ≤ i64Max := by
        unfold parseOptPositive at hvalid
        dsimp only at hvalid
        split at hvalid
        · cases hvalid
        · split at hvalid
          · rename_i hparse
            split at hvalid
            · rename_i hpos
              cases hvalid
              exact ⟨hpos, parseI64_le hparse⟩
            · cases hvalid
          · cases hvalid
      obtain ⟨n, rfl, htext⟩ := fmtOptSetting_some hrange.1
      obtain ⟨htrim, hne⟩ := trim_i64ToString n
      unfold parseOptPositive
      dsimp only
      rw [htext, htrim, if_neg hne, parseI64_i64ToString hrange.2]
      exact if_pos hrange.1

/-- **Settings, one by one.** A stored setting is accepted as the form shows it, and stays what it is. -/
theorem validateSetting_shown {X : Crates} (hzones : X.ZoneNames) {kind : SettingKind} {raw label value : String}
    (hvalid : validateSetting X raw label kind = .ok value) (label' : String) :
    validateSetting X (kind.shown value) label' kind = .ok value := by
  cases kind with
  | duration =>
      rw [validateSetting, except_map_eq_ok_iff] at hvalid
      obtain ⟨v, hparse, rfl⟩ := hvalid
      rw [validateSetting, except_map_eq_ok_iff, SettingKind.shown,
        readableSettingDuration_fmtOptSetting (parseOptPositiveDuration_range hparse)]
      exact ⟨v, parseOptPositiveDuration_again hparse label', rfl⟩
  | days =>
      rw [validateSetting, except_map_eq_ok_iff] at hvalid
      obtain ⟨v, hparse, rfl⟩ := hvalid
      rw [validateSetting, except_map_eq_ok_iff, SettingKind.shown]
      exact ⟨v, parseOptPositive_again hparse label', rfl⟩
  | timezone => exact validateOptTimezone_again hzones hvalid

/-! ### The form -/

/-- When each field has its value, so has the form. -/
theorem validateSettings_of_fields {X : Crates} {form : SettingsForm} (value : String → String)
    (hfields : ∀ field ∈ settingFields form,
      validateSetting X field.2.1 field.2.2.1 field.2.2.2 = .ok (value field.1)) :
    validateSettings X form = .ok ((settingFields form).map fun field => (field.1, value field.1)) := by
  unfold validateSettings
  generalize settingFields form = fields at hfields
  induction fields with
  | nil => rfl
  | cons field rest ih =>
      rw [List.forall_mem_cons] at hfields
      rw [List.mapM_cons, ih hfields.2]
      dsimp only
      rw [hfields.1]
      rfl

/-- An accepted value was accepted for its key. -/
theorem validateSettings_mem {X : Crates} {form : SettingsForm} {parsed : List (String × String)}
    (hparsed : validateSettings X form = .ok parsed) {key value : String} (hmem : (key, value) ∈ parsed) :
    ∃ raw label kind, (key, raw, label, kind) ∈ settingFields form ∧ validateSetting X raw label kind = .ok value := by
  unfold validateSettings at hparsed
  generalize settingFields form = fields at hparsed
  induction fields generalizing parsed with
  | nil =>
      cases hparsed
      cases hmem
  | cons field rest ih =>
      rw [List.mapM_cons, except_bind_eq_ok] at hparsed
      obtain ⟨setting, hsetting, hparsed⟩ := hparsed
      rw [except_bind_eq_ok] at hparsed
      obtain ⟨others, hothers, hparsed⟩ := hparsed
      rw [except_bind_eq_ok] at hsetting
      obtain ⟨accepted, haccepted, hsetting⟩ := hsetting
      cases hsetting
      cases hparsed
      rcases List.mem_cons.mp hmem with hfirst | hlater
      · cases hfirst
        exact ⟨_, _, _, List.mem_cons_self, haccepted⟩
      · obtain ⟨raw, label, kind, hfield, hvalid⟩ := ih hlater hothers
        exact ⟨raw, label, kind, List.mem_cons_of_mem _ hfield, hvalid⟩

/-- The keys of the form with their kinds. -/
def settingKinds : List (String × SettingKind) :=
  [("scan_interval", .duration), ("nag_interval", .duration), ("pings_retention_days", .days),
    ("notifications_retention_days", .days), ("audit_retention_days", .days), ("display_timezone", .timezone)]

theorem settingFields_kinds (form : SettingsForm) :
    (settingFields form).map (fun field => (field.1, field.2.2.2)) = settingKinds := rfl

theorem kind_mem {form : SettingsForm} {key raw label : String} {kind : SettingKind}
    (hfield : (key, raw, label, kind) ∈ settingFields form) : (key, kind) ∈ settingKinds := by
  rw [← settingFields_kinds form]
  exact List.mem_map_of_mem hfield

theorem kind_unique {key : String} {kind kind' : SettingKind} (hkind : (key, kind) ∈ settingKinds)
    (hkind' : (key, kind') ∈ settingKinds) : kind = kind' := by
  have hall : ∀ a ∈ settingKinds, ∀ b ∈ settingKinds, a.1 = b.1 → a.2 = b.2 := by decide
  exact hall _ hkind _ hkind' rfl

/-- A value the validator gave for a key of the form. -/
def AcceptedSetting (X : Crates) (key value : String) : Prop :=
  ∃ form parsed, validateSettings X form = .ok parsed ∧ (key, value) ∈ parsed

namespace Db

/-- The stored settings as `load_settings_fields` shows them. -/
def settingsForm (db : Db) : SettingsForm where
  scanInterval := SettingKind.shown .duration ((db.getSetting "scan_interval").getD "")
  nagInterval := SettingKind.shown .duration ((db.getSetting "nag_interval").getD "")
  pingsRetentionDays := (db.getSetting "pings_retention_days").getD ""
  notificationsRetentionDays := (db.getSetting "notifications_retention_days").getD ""
  auditRetentionDays := (db.getSetting "audit_retention_days").getD ""
  displayTimezone := (db.getSetting "display_timezone").getD ""

/-- The stored settings as they are compared with a save, an absent one as blank. -/
def storedSettings (db : Db) : List (String × String) :=
  settingKinds.map fun setting => (setting.1, (db.getSetting setting.1).getD "")

end Db

theorem settingsForm_fields {db : Db} {field : String × String × String × SettingKind}
    (hfield : field ∈ settingFields db.settingsForm) :
    field.2.1 = field.2.2.2.shown ((db.getSetting field.1).getD "") := by
  simp only [settingFields, List.mem_cons, List.not_mem_nil, or_false] at hfield
  rcases hfield with rfl | rfl | rfl | rfl | rfl | rfl <;> simp only [Db.settingsForm, SettingKind.shown]

theorem run_store_bind {β : Type} {c : StoreCall} {rest : c.Res → StoreProg AppError β} {db : Db} {answer : c.Res}
    (hok : (exec c db).1 = .ok answer) :
    run exec ((store c).bind rest) db = run exec (rest answer) (exec c db).2 := run_perform_bind exec hok

theorem run_loadSettingsFields (db : Db) : run exec loadSettingsFields db = ⟨.ok db.settingsForm, db, []⟩ := by
  unfold loadSettingsFields
  iterate 6 refine (run_store_bind rfl).trans ?_
  rfl

/-- The settings shown are accepted with the values they have. -/
theorem validateSettings_settingsForm {X : Crates} (hzones : X.ZoneNames) {db : Db}
    (haccepted : ∀ key value, db.getSetting key = some value → key ∈ settingKinds.map Prod.fst →
      AcceptedSetting X key value) : validateSettings X db.settingsForm = .ok db.storedSettings := by
  refine validateSettings_of_fields (fun key => (db.getSetting key).getD "") ?_
  rintro ⟨key, raw, label, kind⟩ hfield
  have hshown : raw = kind.shown ((db.getSetting key).getD "") := settingsForm_fields hfield
  dsimp only
  rw [hshown]
  cases hstored : db.getSetting key with
  | none => cases kind <;> rfl
  | some value =>
      obtain ⟨form, parsed, hparsed, hmem⟩ := haccepted key value hstored (List.mem_map_of_mem (kind_mem hfield))
      obtain ⟨raw', label', kind', hfield', hvalid⟩ := validateSettings_mem hparsed hmem
      obtain rfl : kind' = kind := kind_unique (kind_mem hfield') (kind_mem hfield)
      exact validateSetting_shown hzones hvalid label

/-- What is compared with itself has not changed. -/
theorem changedTexts_storedSettings (db : Db) : db.changedTexts db.storedSettings = [] := by
  rw [changedTexts_eq_nil_iff]
  intro setting hmem
  obtain ⟨_, _, rfl⟩ := List.mem_map.mp hmem
  rfl

theorem run_changedSettings (settings : List (String × String)) (db : Db) :
    run exec (changedSettings settings) db = ⟨.ok (db.changedTexts settings), db, []⟩ := by
  induction settings with
  | nil => rfl
  | cons setting rest ih =>
      obtain ⟨key, value⟩ := setting
      unfold changedSettings Db.changedTexts
      apply (run_store_bind rfl).trans
      have hsame : (exec (.getSetting key) db).2 = db := rfl
      rw [Prog.bind_eq, run_bind, hsame, ih, Ran.andThen]
      dsimp only
      split <;> rfl

theorem run_saveSettings (settings : List (String × String)) (db : Db) :
    run exec (saveSettings settings) db = ⟨.ok (), db.applied (saveCalls settings), []⟩ := by
  induction settings generalizing db with
  | nil => rfl
  | cons setting rest ih =>
      obtain ⟨key, value⟩ := setting
      unfold saveSettings
      exact (run_store_bind rfl).trans (ih _)

/-- Writing every setting as it reads leaves all of them as they read. -/
theorem getSetting_applied_storedSettings (db : Db) (key : String) :
    ((db.applied (saveCalls db.storedSettings)).getSetting key).getD "" = (db.getSetting key).getD "" := by
  by_cases hkey : key ∈ db.storedSettings.map Prod.fst
  · obtain ⟨setting, hmem, rfl⟩ := List.mem_map.mp hkey
    have hnodup : (db.storedSettings.map Prod.fst).Nodup := by
      rw [Db.storedSettings, List.map_map]
      exact show (settingKinds.map Prod.fst).Nodup by decide
    have hholds : (db.applied (saveCalls db.storedSettings)).getSetting setting.1 = some setting.2 :=
      holds_applied hnodup hmem
    obtain ⟨_, _, rfl⟩ := List.mem_map.mp hmem
    rw [hholds, Option.getD_some]
  · rw [getSetting_applied_of_notMem hkey]

/-- **Nothing to report.** A save of the settings as shown writes no audit row and leaves every setting as it
reads. -/
theorem settingsSave_shown {X : Crates} {db : Db} (hvalid : validateSettings X db.settingsForm = .ok db.storedSettings)
    (ctx : WebContext) (sid : String) (user : User) :
    (run exec (settingsSave X ctx sid user db.settingsForm) db).outcome = .ok (.redirect "/admin" (some "settings")) ∧
      (run exec (settingsSave X ctx sid user db.settingsForm) db).state.auditLog = db.auditLog ∧
        ∀ key, ((run exec (settingsSave X ctx sid user db.settingsForm) db).state.getSetting key).getD "" =
          (db.getSetting key).getD "" := by
  have hsave : run exec (settingsSave X ctx sid user db.settingsForm) db =
      run exec (saveAndReport ctx user db.storedSettings []) db := by
    unfold settingsSave
    rw [hvalid]
    apply (run_bind exec _ _ _).trans
    rw [run_changedSettings, changedTexts_storedSettings, Ran.andThen]
    rfl
  have hrun : run exec (saveAndReport ctx user db.storedSettings []) db =
      ⟨.ok (.redirect "/admin" (some "settings")), db.applied (saveCalls db.storedSettings), []⟩ := by
    apply (run_bind exec _ _ _).trans
    rw [run_saveSettings, Ran.andThen]
    rfl
  rw [hsave, hrun]
  refine ⟨rfl, applied_frame (t := .auditLog) fun c hc => ?_, getSetting_applied_storedSettings db⟩
  obtain ⟨setting, _, rfl⟩ := List.mem_map.mp hc
  simp [StoreCall.writes]

end Pingward
