import Pingward.FormValues
import Pingward.ModelMessage
import Pingward.RowOperation
import Pingward.TextLines

/-! The shape of a notification. A title holds no control character, whatever the names; a body is its headline, context,
reason and link, a line each, unless one of the texts that it shows as they stand holds a line break. -/

namespace Pingward

/-! ### Texts of one line -/

def OneLine (s : String) : Prop := '\n' ∉ s.toList

instance (s : String) : Decidable (OneLine s) := inferInstanceAs (Decidable (¬ _))

@[simp] theorem oneLine_append {s t : String} : OneLine (s ++ t) ↔ OneLine s ∧ OneLine t := by
  unfold OneLine
  rw [String.toList_append, List.mem_append, not_or]

theorem oneLine_of_chars {s : String} {P : Char → Prop} (hchars : ∀ c ∈ s.toList, P c) (hbreak : ¬ P '\n') : OneLine s :=
  fun hmem => hbreak (hchars _ hmem)

def textLines (text : String) : List (List Char) := text.toList.splitOn '\n'

/-- Lines that are joined are the lines of the text when each is a line. -/
theorem textLines_join_iff {lines : List String} (hne : lines ≠ []) :
    textLines ("\n".intercalate lines) = lines.map String.toList ↔ ∀ line ∈ lines, OneLine line := by
  have hbreak : "\n".toList = ['\n'] := rfl
  rw [textLines, String.toList_intercalate, hbreak, TextLines.splitOn_intercalate_iff (by simpa using hne)]
  simp only [List.mem_map, forall_exists_index, and_imp, forall_apply_eq_imp_iff₂, OneLine]

/-! ### What is printed -/

theorem oneLine_i64ToString (n : Int) : OneLine (i64ToString n) := by
  have hnat (k : Nat) : OneLine (i64ToString k) := by
    refine oneLine_of_chars (P := fun c => c.isDigit = true) (fun c hc => ?_) (by decide)
    rw [toList_i64ToString] at hc
    exact List.all_eq_true.mp (all_isDigit_toDigits k) c hc
  cases n with
  | ofNat k => exact hnat k
  | negSucc k =>
      have htext : i64ToString (Int.negSucc k) = "-" ++ i64ToString (k + 1 : Nat) := rfl
      rw [htext, oneLine_append]
      exact ⟨by decide, hnat _⟩

theorem oneLine_fmtDuration (secs : Int) : OneLine (fmtDuration secs) := by
  by_cases hsecs : 0 < secs
  · obtain ⟨n, rfl⟩ := Int.eq_ofNat_of_zero_le hsecs.le
    refine oneLine_of_chars (P := IsDurationChar) (fun c hc => ?_) ?_
    · rw [toList_fmtDuration (by omega)] at hc
      exact isDurationChar_durationChars hc
    · rintro (hdigit | hunit)
      · cases hdigit
      · exact absurd hunit (by decide)
  · have hzero : fmtDuration secs = "0s" := by
      unfold fmtDuration
      exact if_pos (by omega)
    rw [hzero]
    decide

theorem notMem_digits {c : Char} (hc : c.isDigit = false) (width n : Nat) : c ∉ Calendar.digits width n := by
  intro hmem
  rw [Calendar.isDigit_of_mem_digits hmem] at hc
  cases hc

theorem notMem_yearText {c : Char} (hc : c.isDigit = false) (hsign : c ≠ '-' ∧ c ≠ '+') (year : Int) :
    c ∉ Calendar.yearText year := by
  unfold Calendar.yearText
  split
  · exact notMem_digits hc 4 _
  · have hplain : c ∉ Nat.toDigits 10 year.natAbs := by
      intro hmem
      rw [List.all_eq_true.mp (all_isDigit_toDigits _) c hmem] at hc
      cases hc
    dsimp only
    rw [List.mem_cons, List.mem_append, not_or, not_or, List.mem_replicate, not_and]
    refine ⟨?_, fun _ hzero => ?_, hplain⟩
    · split
      · exact hsign.1
      · exact hsign.2
    · rw [hzero] at hc
      cases hc

section Zone

variable {X : Crates} {clock : ZoneClock X}

/-- The zone table's abbreviations: letters, digits, `+` and `-`. -/
def ZoneClock.Lawful (clock : ZoneClock X) : Prop :=
  ∀ zone t, ∀ c ∈ (clock.abbreviation zone t).toList, c.isAlphanum = true ∨ c = '+' ∨ c = '-'

theorem oneLine_fmtAt (hlawful : clock.Lawful) (at_ : Instant) (tz : Option String) : OneLine (fmtAt clock at_ tz) := by
  unfold fmtAt
  dsimp only
  rw [oneLine_append, oneLine_append]
  refine ⟨⟨?_, by decide⟩, ?_⟩
  · have hdigits (width n : Nat) := notMem_digits (show '\n'.isDigit = false from rfl) width n
    have hyear (year : Int) := notMem_yearText (show '\n'.isDigit = false from rfl) (by decide) year
    rw [OneLine, String.toList_ofList]
    simp only [Calendar.dateText, List.mem_append, List.mem_cons, hdigits, hyear, or_false, false_or]
    decide
  · exact oneLine_of_chars (hlawful _ at_) (by decide)

theorem oneLine_fmtAtRel (hlawful : clock.Lawful) (at_ now : Instant) (tz : Option String) :
    OneLine (fmtAtRel clock at_ now tz) := by
  have hat := oneLine_fmtAt hlawful at_ tz
  unfold fmtAtRel
  dsimp only
  split
  · simp only [oneLine_append, hat, oneLine_fmtDuration, and_true, true_and]
    decide
  · exact hat

theorem oneLine_reasonLine (hlawful : clock.Lawful) (ev : NotificationEvent) : OneLine (reasonLine clock ev) := by
  have hrel := oneLine_fmtAtRel hlawful
  unfold reasonLine
  dsimp only
  split
  · split
    · exact oneLine_append.mpr ⟨by decide, hrel _ _ _⟩
    · decide
  · split
    · exact oneLine_append.mpr ⟨by decide, hrel _ _ _⟩
    · decide
  · split
    · simp only [oneLine_append, hrel, oneLine_fmtDuration, and_true]
      decide
    · split
      · simp only [oneLine_append, oneLine_i64ToString, and_true]
        decide
      · decide
    · split
      · exact oneLine_append.mpr ⟨by decide, hrel _ _ _⟩
      · decide

end Zone

/-! ### The title -/

/-- A text without control characters. -/
def Uncontrolled (s : String) : Prop := ∀ c ∈ s.toList, isControl c = false

instance (s : String) : Decidable (Uncontrolled s) := List.decidableBAll _ s.toList

@[simp] theorem uncontrolled_append {s t : String} : Uncontrolled (s ++ t) ↔ Uncontrolled s ∧ Uncontrolled t := by
  unfold Uncontrolled
  rw [String.toList_append, List.forall_mem_append]

theorem uncontrolled_singleLine (s : String) : Uncontrolled (singleLine s) := by
  intro c hc
  rw [singleLine, String.toList_ofList] at hc
  obtain ⟨d, -, rfl⟩ := List.mem_map.mp hc
  split
  · decide
  · rename_i hd
    exact Bool.eq_false_of_not_eq_true hd

/-- **A title holds no control character.** -/
theorem uncontrolled_eventTitle (ev : NotificationEvent) : Uncontrolled (eventTitle ev) := by
  have hname := uncontrolled_singleLine ev.checkName
  unfold eventTitle
  cases ev.detail.projectName with
  | none =>
      dsimp only
      split <;> exact uncontrolled_append.mpr ⟨uncontrolled_append.mpr ⟨by decide, hname⟩, by decide⟩
  | some p =>
      have hsubject : Uncontrolled (singleLine p ++ "/" ++ singleLine ev.checkName) :=
        uncontrolled_append.mpr ⟨uncontrolled_append.mpr ⟨uncontrolled_singleLine p, by decide⟩, hname⟩
      dsimp only
      split <;> exact uncontrolled_append.mpr ⟨uncontrolled_append.mpr ⟨by decide, hsubject⟩, by decide⟩

/-! ### The body -/

section Body

variable {X : Crates} {clock : ZoneClock X}

/-- The texts of an event that its body shows as they stand. -/
def NotificationEvent.shown (ev : NotificationEvent) : List String :=
  ev.checkName :: ev.detail.projectName.toList ++
    if ev.event = .test then [] else ev.detail.schedule.toList ++ ev.detail.url.toList

/-- The headline, the context, the reason and the link are a line each, in this order, and there is no other; the title
has no control character. -/
structure KeepsShape (clock : ZoneClock X) (ev : NotificationEvent) : Prop where
  lines : textLines (eventText clock ev) = (eventMessage clock ev).lines.map String.toList
  few : (textLines (eventText clock ev)).length ≤ 4
  title : Uncontrolled (eventTitle ev)

theorem Message.length_lines (message : Message) : message.lines.length ≤ 4 := by
  obtain ⟨headline, context, reason, link⟩ := message
  cases context <;> cases link <;> simp [Message.lines]

theorem Message.forall_lines {message : Message} {P : String → Prop} : (∀ line ∈ message.lines, P line) ↔
    P message.headline ∧ (∀ context ∈ message.context.toList, P context) ∧ P message.reason ∧
      ∀ link ∈ message.link.toList, P link := by
  unfold Message.lines
  rw [List.cons_append, List.forall_mem_cons, List.forall_mem_append, List.forall_mem_cons]

theorem oneLine_contextLine (detail : EventDetail) : (∀ context ∈ (contextLine detail).toList, OneLine context) ↔
    (∀ p ∈ detail.projectName.toList, OneLine p) ∧ ∀ s ∈ detail.schedule.toList, OneLine s := by
  have hproject : OneLine "Project: " := by decide
  have hdot : OneLine " · " := by decide
  have hschedule : OneLine "Schedule: " := by decide
  unfold contextLine
  cases detail.projectName <;> cases detail.schedule <;> simp [hproject, hdot, hschedule]

theorem checkMessage_oneLine (hlawful : clock.Lawful) {words : String} (hwords : OneLine words) (ev : NotificationEvent)
    (hevent : ev.event ≠ .test) :
    (∀ line ∈ (checkMessage clock words ev).lines, OneLine line) ↔ ∀ s ∈ ev.shown, OneLine s := by
  have hreason := oneLine_reasonLine hlawful ev
  unfold NotificationEvent.shown
  rw [Message.forall_lines, if_neg hevent]
  simp only [checkMessage, oneLine_append, oneLine_contextLine, List.forall_mem_cons, List.forall_mem_append]
  tauto

theorem eventMessage_oneLine (hlawful : clock.Lawful) (ev : NotificationEvent) :
    (∀ line ∈ (eventMessage clock ev).lines, OneLine line) ↔ ∀ s ∈ ev.shown, OneLine s := by
  have hcheck (words : String) (hwords : OneLine words) (hevent : ev.event ≠ .test) :=
    checkMessage_oneLine hlawful hwords ev hevent
  unfold eventMessage
  split
  · rename_i htest
    have hat := oneLine_fmtAt hlawful ev.at_ ev.detail.timezone
    have hquote : OneLine "Channel \"" ∧ OneLine "\"" ∧ OneLine "\" · project " ∧
        OneLine "🔔 pingward test notification" := by decide
    unfold NotificationEvent.shown
    rw [Message.forall_lines, if_pos htest]
    cases ev.detail.projectName <;> simp [hquote, hat]
  · rename_i hdown
    exact hcheck _ (by decide) (by rw [hdown]; decide)
  · rename_i hreminder
    exact hcheck _ (by decide) (by rw [hreminder]; decide)
  · rename_i hup
    exact hcheck _ (by decide) (by rw [hup]; decide)

end Body

/-! ### The names the validators accept -/

section Names

variable (X : Crates)

def AcceptsCheckName (name : String) : Prop := ∃ form fields, validateCheck X form = .ok fields ∧ fields.name = name

def AcceptsProjectName (name : String) : Prop := ∃ form settings, validateProject form = .ok settings ∧ settings.name = name

def AcceptsChannelName (name : String) : Prop :=
  ∃ form existing kind config, validateChannelUpdate X form existing = .ok (kind, name, config)

/-- The names in an event were accepted: that of the channel in a test, else that of the check, and that of the project. -/
structure NotificationEvent.Accepted (ev : NotificationEvent) : Prop where
  name : if ev.event = .test then AcceptsChannelName X ev.checkName else AcceptsCheckName X ev.checkName
  project : ∀ p ∈ ev.detail.projectName, AcceptsProjectName p

theorem validateDescription_blank : validateDescription "" = .ok "" := by decide

theorem parseOptPositiveDuration_blank (field : String) : parseOptPositiveDuration "" field = .ok none := by
  unfold parseOptPositiveDuration
  exact if_pos (by decide)

theorem validateTimezone_blank : validateTimezone X "" = .ok "UTC" := by
  unfold validateTimezone
  exact if_pos (by decide)

/-- No validator looks at more of a name than its ends. -/
theorem acceptsProjectName_iff {name : String} : AcceptsProjectName name ↔ trim name = name ∧ name ≠ "" := by
  constructor
  · rintro ⟨form, settings, hvalid, rfl⟩
    obtain ⟨hnamed, hname, -⟩ := validateProject_eq_ok_iff.mp hvalid
    rw [← hname]
    exact ⟨trim_trim _, hnamed⟩
  · rintro ⟨htrim, hne⟩
    refine ⟨⟨name, "", "", ""⟩, ⟨name, "", none, none⟩, ?_, rfl⟩
    rw [validateProject_eq_ok_iff, htrim]
    exact ⟨hne, rfl, validateDescription_blank, parseOptPositiveDuration_blank _, parseOptPositiveDuration_blank _⟩

theorem acceptsCheckName_iff {name : String} : AcceptsCheckName X name ↔ trim name = name ∧ name ≠ "" := by
  constructor
  · rintro ⟨form, fields, hvalid, rfl⟩
    have hgives := validateCheck_eq_ok_iff.mp hvalid
    rw [← hgives.name]
    exact ⟨trim_trim _, hgives.named⟩
  · rintro ⟨htrim, hne⟩
    have hminute : trim "60" ≠ "" ∧ parseDuration "60" = some 60 ∧ (0 : Int) < 60 := by decide
    refine ⟨⟨name, "", "period", "60", "", "0", "", "", "", ""⟩,
      ⟨name, "", .period, some 60, 0, none, "UTC", none, none, none⟩, validateCheck_eq_ok_iff.mpr ?_, rfl⟩
    exact {
      named := by
        rw [htrim]
        exact hne
      name := htrim
      description := validateDescription_blank
      grace := show parseDuration "0" = some 0 by decide
      graceNonneg := le_refl (0 : Int)
      kind := rfl
      schedule := validateSchedule_eq_ok_iff.mpr ⟨hminute.1, 60, hminute.2.1, hminute.2.2, rfl⟩
      timezone := validateTimezone_blank X
      scan := parseOptPositiveDuration_blank _
      maxRuntime := parseOptPositiveDuration_blank _
      nag := parseOptPositiveDuration_blank _ }

end Names

/-! ### The law -/

section Law

variable {X : Crates} {clock : ZoneClock X}

theorem lines_kept_iff (hlawful : clock.Lawful) (ev : NotificationEvent) :
    textLines (eventText clock ev) = (eventMessage clock ev).lines.map String.toList ↔ ∀ s ∈ ev.shown, OneLine s := by
  rw [← eventMessage_oneLine hlawful ev]
  exact textLines_join_iff (List.cons_ne_nil _ _)

theorem keepsShape_of_lines {ev : NotificationEvent}
    (hlines : textLines (eventText clock ev) = (eventMessage clock ev).lines.map String.toList) : KeepsShape clock ev := by
  refine ⟨hlines, ?_, uncontrolled_eventTitle ev⟩
  rw [hlines, List.length_map]
  exact Message.length_lines _

/-- **A notification keeps its shape** exactly when no text that it shows as it stands holds a line break. -/
theorem keepsShape_iff {X : Crates} {clock : ZoneClock X} (hlawful : clock.Lawful) (ev : NotificationEvent) :
    KeepsShape clock ev ↔ ∀ s ∈ ev.shown, OneLine s :=
  ⟨fun hshape => (lines_kept_iff hlawful ev).mp hshape.lines,
    fun hshown => keepsShape_of_lines ((lines_kept_iff hlawful ev).mpr hshown)⟩

end Law

/-- The clock of a table that holds UTC alone. -/
def ZoneClock.plain : ZoneClock plainCrates := ⟨fun _ _ => 0, fun _ _ => "UTC"⟩

theorem ZoneClock.plain_lawful : ZoneClock.plain.Lawful := by
  intro _ _ c hc
  have hutc : "UTC".toList = ['U', 'T', 'C'] := by decide
  change c ∈ "UTC".toList at hc
  rw [hutc] at hc
  simp only [List.mem_cons, List.not_mem_nil, or_false] at hc
  rcases hc with rfl | rfl | rfl <;> decide

/-- A check of that name goes down. -/
def NotificationEvent.sample (name : String) : NotificationEvent :=
  downEvent (NewCheck.row ⟨1, name, "", "u1", .period, some 60, 0, none, "UTC", none, none, none⟩ 0 1) 0
    "https://p.test" [(1, "jobs")] none false

theorem keepsShape_backup : KeepsShape .plain (.sample "backup") :=
  (keepsShape_iff ZoneClock.plain_lawful _).mpr (by decide +kernel)

/-- An accepted name adds a line, and this one tells of a check that never reported. -/
theorem forged_line :
    (NotificationEvent.sample "db\n🟢 UP — web").Accepted plainCrates ∧
      textLines (eventText .plain (.sample "db\n🟢 UP — web")) = ["🔴 DOWN — db", "🟢 UP — web",
        "Project: jobs · every 1m", "No ping received yet", "https://p.test/checks/1"].map String.toList ∧
      ¬ KeepsShape .plain (.sample "db\n🟢 UP — web") := by
  have hlines : textLines (eventText .plain (.sample "db\n🟢 UP — web")) = ["🔴 DOWN — db", "🟢 UP — web",
      "Project: jobs · every 1m", "No ping received yet", "https://p.test/checks/1"].map String.toList := by
    decide +kernel
  refine ⟨⟨?_, ?_⟩, hlines, fun hshape => ?_⟩
  · rw [if_neg (by decide), acceptsCheckName_iff]
    decide +kernel
  · rintro p hp
    have hjobs : (NotificationEvent.sample "db\n🟢 UP — web").detail.projectName = some "jobs" := by decide +kernel
    obtain rfl := Option.some.inj (hjobs.symm.trans hp)
    rw [acceptsProjectName_iff]
    decide
  · have hfew := hshape.few
    rw [hlines] at hfew
    exact absurd hfew (by decide)

/-! ### The events of a check -/

@[simp] theorem EventDetail.projectName_withDisplayTimezone (detail : EventDetail) (tz : Option String) :
    (detail.withDisplayTimezone tz).projectName = detail.projectName := by
  unfold EventDetail.withDisplayTimezone
  split <;> rfl

@[simp] theorem EventDetail.schedule_withDisplayTimezone (detail : EventDetail) (tz : Option String) :
    (detail.withDisplayTimezone tz).schedule = detail.schedule := by
  unfold EventDetail.withDisplayTimezone
  split <;> rfl

@[simp] theorem EventDetail.url_withDisplayTimezone (detail : EventDetail) (tz : Option String) :
    (detail.withDisplayTimezone tz).url = detail.url := by
  unfold EventDetail.withDisplayTimezone
  split <;> rfl

section Raised

variable {check : Check} {projectName : Option String} {baseUrl : String}

/-- An event of a check shows what its row says. -/
structure NotificationEvent.Raised (check : Check) (projectName : Option String) (baseUrl : String) (ev : NotificationEvent) :
    Prop where
  kind : ev.event ≠ .test
  name : ev.checkName = check.name
  project : ev.detail.projectName = projectName
  schedule : ev.detail.schedule = some (scheduleSummary check)
  url : ev.detail.url = checkUrl baseUrl check.id

theorem raised_downEvent (now : Instant) (names : List (Int × String)) (tz : Option String) (overrun : Bool) :
    (downEvent check now baseUrl names tz overrun).Raised check (lookup names check.projectId) baseUrl where
  kind := by simp [downEvent]
  name := rfl
  project := by simp [downEvent, EventDetail.withCause, EventDetail.fromCheck]
  schedule := by simp [downEvent, EventDetail.withCause, EventDetail.fromCheck]
  url := by simp [downEvent, EventDetail.withCause, EventDetail.fromCheck]

theorem raised_reminderEvent (now : Instant) (names : List (Int × String)) (tz : Option String) :
    (reminderEvent check now baseUrl names tz).Raised check (lookup names check.projectId) baseUrl where
  kind := by simp [reminderEvent]
  name := rfl
  project := by simp [reminderEvent, EventDetail.fromCheck]
  schedule := by simp [reminderEvent, EventDetail.fromCheck]
  url := by simp [reminderEvent, EventDetail.fromCheck]

theorem raised_delivery {delivery : Delivery} (hkind : delivery.event ≠ .test) (tz : Option String) :
    (delivery.notificationEvent projectName baseUrl tz).Raised delivery.check projectName baseUrl where
  kind := hkind
  name := rfl
  project := by simp [Delivery.notificationEvent, EventDetail.fromCheck]
  schedule := by simp [Delivery.notificationEvent, EventDetail.fromCheck]
  url := by simp [Delivery.notificationEvent, EventDetail.fromCheck]

theorem oneLine_scheduleSummary : OneLine (scheduleSummary check) ↔
    (check.scheduleKind = .cron → ∀ expr ∈ check.cronExpr, OneLine expr ∧ OneLine check.timezone) := by
  have hgrace : OneLine (if check.graceSecs > 0 then " (grace " ++ fmtDuration check.graceSecs ++ ")" else "") := by
    split
    · simp only [oneLine_append, oneLine_fmtDuration, and_true]
      decide
    · decide
  have hwords : OneLine "every " ∧ OneLine "no period set" ∧ OneLine "cron \"" ∧ OneLine "\" " ∧
      OneLine "no cron expression set" := by decide
  unfold scheduleSummary
  dsimp only
  split
  · rename_i hkind
    split <;> simp [hkind, hgrace, hwords, oneLine_fmtDuration]
  · rename_i hkind
    split
    · rename_i expr hexpr
      simp [hkind, hexpr, hgrace, hwords]
    · rename_i hexpr
      simp [hkind, hexpr, hgrace, hwords]

theorem oneLine_checkUrl (checkId : Int) :
    (∀ url ∈ (checkUrl baseUrl checkId).toList, OneLine url) ↔ OneLine (trimEndSlashes (trim baseUrl)) := by
  unfold checkUrl
  dsimp only
  split
  · rename_i hblank
    rw [hblank]
    simp [OneLine]
  · have hpath : OneLine "/checks/" := by decide
    simp [hpath, oneLine_i64ToString]

/-- The names, the cron schedule and the base URL are of one line. -/
structure Check.OfOneLine (check : Check) (projectName : Option String) (baseUrl : String) : Prop where
  name : OneLine check.name
  project : ∀ p ∈ projectName.toList, OneLine p
  schedule : check.scheduleKind = .cron → ∀ expr ∈ check.cronExpr, OneLine expr ∧ OneLine check.timezone
  base : OneLine (trimEndSlashes (trim baseUrl))

theorem NotificationEvent.Raised.shown_iff {ev : NotificationEvent} (hraised : ev.Raised check projectName baseUrl) :
    (∀ s ∈ ev.shown, OneLine s) ↔ check.OfOneLine projectName baseUrl := by
  unfold NotificationEvent.shown
  rw [if_neg hraised.kind, hraised.name, hraised.project, hraised.schedule, hraised.url]
  simp only [List.cons_append, List.forall_mem_cons, List.forall_mem_append, oneLine_checkUrl, Option.toList_some,
    oneLine_scheduleSummary, List.nil_append]
  exact ⟨fun ⟨hname, hproject, hschedule, hbase⟩ => ⟨hname, hproject, hschedule, hbase⟩,
    fun hone => ⟨hone.name, hone.project, hone.schedule, hone.base⟩⟩

theorem NotificationEvent.Raised.keeps_iff {X : Crates} {clock : ZoneClock X} (hlawful : clock.Lawful)
    {ev : NotificationEvent} (hraised : ev.Raised check projectName baseUrl) :
    KeepsShape clock ev ↔ check.OfOneLine projectName baseUrl := by
  rw [← hraised.shown_iff, ← lines_kept_iff hlawful ev]
  exact ⟨KeepsShape.lines, keepsShape_of_lines⟩

/-- **What is raised for a check keeps its shape** exactly when the texts of its row, the name of its project and the
base URL are of one line, whether a scan pass, a nag pass or a ping raises it. -/
theorem check_events_keep_shape {X : Crates} {clock : ZoneClock X} (hlawful : clock.Lawful) (check : Check)
    (now : Instant) (names : List (Int × String)) (baseUrl : String) (tz : Option String) :
    (∀ overrun, KeepsShape clock (downEvent check now baseUrl names tz overrun) ↔
      check.OfOneLine (lookup names check.projectId) baseUrl) ∧
    (KeepsShape clock (reminderEvent check now baseUrl names tz) ↔
      check.OfOneLine (lookup names check.projectId) baseUrl) ∧
    ∀ (delivery : Delivery) (projectName : Option String), delivery.event ≠ .test →
      (KeepsShape clock (delivery.notificationEvent projectName baseUrl tz) ↔
        delivery.check.OfOneLine projectName baseUrl) :=
  ⟨fun overrun => (raised_downEvent now names tz overrun).keeps_iff hlawful,
    (raised_reminderEvent now names tz).keeps_iff hlawful,
    fun _ _ hkind => (raised_delivery hkind tz).keeps_iff hlawful⟩

end Raised

end Pingward
