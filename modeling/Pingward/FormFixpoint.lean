import Pingward.FormSettings
import Pingward.ProgramMeets

/-! Resubmitting an edit form as it was rendered. Every check, project and setting in the database came from
an accepted form, whatever requests were interleaved; each validator accepts what the edit form shows of
such a row and returns the values of the row. -/

open KeyedTable StoreProgram

namespace Pingward

/-! ### What is stored -/

/-- Every check, project and setting came from an accepted form. -/
structure Db.FromForms (X : Crates) (db : Db) : Prop where
  checks : ∀ check ∈ db.checks.rows, ∃ form, validateCheck X form = .ok check.fields
  projects : ∀ project ∈ db.projects.rows, ∃ form, validateProject form = .ok project.fields
  settings : ∀ key value, db.getSetting key = some value → key ∈ settingKinds.map Prod.fst → AcceptedSetting X key value

/-- A call that stores nothing but what a validator returned. -/
def StoreCall.FromForm (X : Crates) : StoreCall → Prop
  | .createCheck new _ => ∃ form fields projectId pingUuid,
      validateCheck X form = .ok fields ∧ new = fields.newCheck projectId pingUuid
  | .updateCheckSchedule _ fields => ∃ form, validateCheck X form = .ok fields
  | .createProject _ settings _ => ∃ form, validateProject form = .ok settings
  | .updateProject _ settings => ∃ form, validateProject form = .ok settings
  | .setSetting key value => key ∈ settingKinds.map Prod.fst → AcceptedSetting X key value
  | _ => True

theorem fromForms_empty (X : Crates) : Db.empty.FromForms X :=
  ⟨fun _ hrow => absurd hrow List.not_mem_nil, fun _ hrow => absurd hrow List.not_mem_nil, fun _ _ hvalue => by cases hvalue⟩

section Exec

variable {X : Crates} {c : StoreCall} {db : Db}

theorem exec_checks_fromForm (hc : c.FromForm X)
    (hrows : ∀ check ∈ db.checks.rows, ∃ form, validateCheck X form = .ok check.fields) :
    ∀ check ∈ (exec c db).2.checks.rows, ∃ form, validateCheck X form = .ok check.fields := by
  by_cases hwrites : .checks ∈ c.writes
  · cases c
    case createCheck new now =>
      obtain ⟨form, fields, projectId, pingUuid, hvalid, rfl⟩ := hc
      simp only [exec, Db.createCheck]
      split
      · exact hrows
      · split
        · exact hrows
        · exact AutoTable.forall_insert _ hrows _ (fun _ => rfl) ⟨form, hvalid⟩
    case regenerateUuid id uuid =>
      simp only [exec, Db.regenerateUuid]
      split
      · exact hrows
      · exact AutoTable.forall_update _ hrows _ _ fun _ hrow => hrow
    case updateCheckSchedule id fields => exact AutoTable.forall_update _ hrows _ _ fun _ _ => hc
    case deleteCheck id => exact AutoTable.forall_deleteWhere _ hrows _
    case deleteProject id => exact AutoTable.forall_deleteWhere _ hrows _
    case deleteUser id => exact AutoTable.forall_deleteWhere _ hrows _
    all_goals first | exact AutoTable.forall_update _ hrows _ _ fun _ hrow => hrow | simp [StoreCall.writes] at hwrites
  · rw [exec_checks hwrites db]
    exact hrows

theorem exec_projects_fromForm (hc : c.FromForm X)
    (hrows : ∀ project ∈ db.projects.rows, ∃ form, validateProject form = .ok project.fields) :
    ∀ project ∈ (exec c db).2.projects.rows, ∃ form, validateProject form = .ok project.fields := by
  by_cases hwrites : .projects ∈ c.writes
  · cases c
    case createProject userId settings now =>
      simp only [exec, Db.createProject]
      split
      · exact hrows
      · exact AutoTable.forall_insert _ hrows _ _ hc
    case updateProject id settings => exact AutoTable.forall_update _ hrows _ _ fun _ _ => hc
    case deleteProject id => exact AutoTable.forall_deleteWhere _ hrows _
    case deleteUser id => exact AutoTable.forall_deleteWhere _ hrows _
    all_goals simp [StoreCall.writes] at hwrites
  · have hsame : (exec c db).2.projects = db.projects := exec_frame hwrites db
    rw [hsame]
    exact hrows

/-- Such a call keeps the stored rows what they are. -/
theorem exec_fromForms (hc : c.FromForm X) (hdb : db.FromForms X) : (exec c db).2.FromForms X where
  checks := exec_checks_fromForm hc hdb.checks
  projects := exec_projects_fromForm hc hdb.projects
  settings := by
    by_cases hwrites : .settings ∈ c.writes
    · cases c
      case setSetting key value =>
        intro other stored hstored hmem
        have hstored : (db.setSetting key value).getSetting other = some stored := hstored
        rw [getSetting_setSetting] at hstored
        split at hstored
        · rename_i hkey
          rw [Option.some.injEq] at hstored
          rw [hkey] at hmem ⊢
          exact hstored ▸ hc hmem
        · exact hdb.settings other stored hstored hmem
      all_goals simp [StoreCall.writes] at hwrites
    · have hsame : (exec c db).2.settings = db.settings := exec_frame hwrites db
      unfold Db.getSetting
      rw [hsame]
      exact hdb.settings

end Exec

/-! ### The requests that store a form -/

/-- What an owner can post. -/
inductive FormPost where
  | projectCreate (form : ProjectForm)
  | projectUpdate (id : Int) (form : ProjectForm)
  | checkCreate (projectId : Int) (form : CheckForm)
  | checkUpdate (id : Int) (form : CheckForm)

def FormPost.route : FormPost → WebRoute
  | .projectCreate form => .projectCreate form
  | .projectUpdate id form => .projectUpdate id form
  | .checkCreate projectId form => .checkCreate projectId form
  | .checkUpdate id form => .checkUpdate id form

/-- What an administrator can post. -/
inductive AdminFormPost where
  | projectUpdate (id : Int) (form : ProjectForm)
  | checkCreate (projectId : Int) (form : CheckForm)
  | checkUpdate (id : Int) (form : CheckForm)
  | settingsSave (form : SettingsForm)

def AdminFormPost.route : AdminFormPost → AdminRoute
  | .projectUpdate id form => .projectUpdate id form
  | .checkCreate projectId form => .checkCreate projectId form
  | .checkUpdate id form => .checkUpdate id form
  | .settingsSave form => .settingsSave form

/-- The same through `/api/v1`, a body that could not be read included. -/
inductive FormCall where
  | createProject (body : Except String ProjectInput)
  | updateProject (id : Int) (body : Except String ProjectInput)
  | createCheck (projectId : Int) (body : Except String CheckInput)
  | updateCheck (id : Int) (body : Except String CheckInput)

def FormCall.route : FormCall → ApiRoute
  | .createProject body => .createProject body
  | .updateProject id body => .updateProject id body
  | .createCheck projectId body => .createCheck projectId body
  | .updateCheck id body => .updateCheck id body

inductive FormRequest where
  | web (ctx : WebContext) (post : FormPost)
  | admin (ctx : WebContext) (post : AdminFormPost)
  | api (ctx : ApiContext) (call : FormCall)

def FormRequest.program (X : Crates) : FormRequest → StoreProg Unit Unit
  | .web ctx post => (webRequest X ctx post.route).erase
  | .admin ctx post => (adminRequest X ctx post.route).erase
  | .api ctx call => (apiRequest X ctx call.route).erase

/-- Every call of the program stores nothing but what a validator returned. -/
def StoresForms {A α : Type} (X : Crates) (program : StoreProg A α) : Prop :=
  program.Only (StoreCall.FromForm X) fun _ => True

section Handlers

variable {X : Crates}

theorem storesForms_auth {A α : Type} {ctx : WebContext} {program : StoreProg A α}
    (honly : program.Only (AuthCall ctx) fun _ => False) : StoresForms X program := by
  refine honly.mono (fun c hc => ?_) fun _ hfalse => hfalse.elim
  cases hc <;> trivial

theorem storesForms_reads {A α : Type} {program : StoreProg A α} (hreads : Reads program) : StoresForms X program := by
  refine hreads.mono (fun c hc => ?_) fun _ h => h
  cases c <;> trivial

theorem adminProject_storesForms (ctx : WebContext) (user : User) (method : String) (id : Int) :
    StoresForms X (adminProject ctx user method id) := adminProject_only user method (by trivial) fun _ => by trivial

theorem adminCheck_storesForms (ctx : WebContext) (user : User) (method : String) (id : Int) :
    StoresForms X (adminCheck ctx user method id) := by
  refine (store_only (by trivial)).bind fun found => ?_
  split
  · trivial
  · exact (store_only (by trivial)).bind fun _ => (auditAccess_only fun _ => by trivial).bind fun _ => trivial

theorem resolveCheck_storesForms (ctx : ApiContext) (user : User) (method : String) (id : Int) :
    StoresForms X (resolveCheck ctx user method id) :=
  (apiStore_only (by trivial)).bind fun _ => (okOr_only _ _).bind fun _ => (apiStore_only (by trivial)).bind fun _ =>
    resolveOwned_only user _ _ _ _ _ fun _ => by trivial

theorem checkCreateCore_storesForms (ctx : WebContext) (sid : String) (user : User) (base : String) (projectId : Int)
    (form : CheckForm) : StoresForms X (checkCreateCore X ctx sid user base projectId form) := by
  unfold checkCreateCore
  split
  · trivial
  · rename_i fields hvalid
    exact (store_only ⟨form, fields, projectId, ctx.uuid, hvalid, rfl⟩).bind fun _ =>
      (store_only (by trivial)).bind fun _ => trivial

theorem checkUpdateCore_storesForms (sid : String) (user : User) (base : String) (id : Int) (form : CheckForm) :
    StoresForms X (checkUpdateCore X sid user base id form) := by
  unfold checkUpdateCore
  split
  · trivial
  · rename_i hvalid
    exact (store_only ⟨form, hvalid⟩).bind fun _ => trivial

theorem changedSettings_reads (settings : List (String × String)) : Reads (changedSettings settings) := by
  induction settings with
  | nil => trivial
  | cons setting rest ih =>
      refine (reads_store rfl).bind fun _ => ih.bind fun _ => ?_
      split <;> trivial

theorem saveSettings_storesForms {settings : List (String × String)}
    (hsettings : ∀ setting ∈ settings, AcceptedSetting X setting.1 setting.2) :
    StoresForms X (saveSettings settings) := by
  induction settings with
  | nil => trivial
  | cons setting rest ih =>
      rw [List.forall_mem_cons] at hsettings
      exact (store_only fun _ => hsettings.1).bind fun _ => ih hsettings.2

theorem settingsSave_storesForms (ctx : WebContext) (sid : String) (user : User) (form : SettingsForm) :
    StoresForms X (settingsSave X ctx sid user form) := by
  unfold settingsSave
  split
  · trivial
  · rename_i parsed hparsed
    refine (storesForms_reads (changedSettings_reads parsed)).bind fun changed => ?_
    refine (saveSettings_storesForms fun setting hmem => ⟨form, parsed, hparsed, hmem⟩).bind fun _ => ?_
    split
    · exact (store_only (by trivial)).bind fun _ => trivial
    · trivial

theorem webHandle_storesForms (ctx : WebContext) (sid : String) (user : User) (post : FormPost) :
    StoresForms X (webHandle X ctx sid user post.route) := by
  cases post with
  | projectCreate form =>
      show StoresForms X (projectCreate X ctx sid user form)
      unfold projectCreate
      split
      · trivial
      · rename_i hvalid
        exact (store_only ⟨form, hvalid⟩).bind fun _ => trivial
  | projectUpdate id form =>
      refine (storesForms_reads (ownedProject_reads id user.id)).bind fun _ => ?_
      split
      · trivial
      · rename_i hvalid
        exact (store_only ⟨form, hvalid⟩).bind fun _ => trivial
  | checkCreate projectId form =>
      exact (storesForms_reads (ownedProject_reads projectId user.id)).bind fun _ =>
        checkCreateCore_storesForms ctx sid user "" projectId form
  | checkUpdate id form =>
      exact (storesForms_reads (ownedCheck_reads id user.id)).bind fun _ =>
        checkUpdateCore_storesForms sid user "" id form

theorem adminHandle_storesForms (ctx : WebContext) (sid : String) (user : User) (post : AdminFormPost) :
    StoresForms X (adminHandle X ctx sid user post.route) := by
  cases post with
  | projectUpdate id form =>
      refine (adminProject_storesForms ctx user "POST" id).bind fun _ => ?_
      split
      · trivial
      · rename_i hvalid
        exact (store_only ⟨form, hvalid⟩).bind fun _ => trivial
  | checkCreate projectId form =>
      exact (adminProject_storesForms ctx user "POST" projectId).bind fun _ =>
        checkCreateCore_storesForms ctx sid user "/admin" projectId form
  | checkUpdate id form =>
      exact (adminCheck_storesForms ctx user "POST" id).bind fun _ =>
        checkUpdateCore_storesForms sid user "/admin" id form
  | settingsSave form => exact settingsSave_storesForms ctx sid user form

/-- A row is written and shown again. -/
theorem written_storesForms {β : Type} {c : StoreCall} {rest : c.Res → StoreProg ApiError β} (hc : c.FromForm X)
    (hrest : ∀ answer, Reads (rest answer)) : StoresForms X ((apiStore c).bind rest) :=
  Prog.Only.bind (apiStore_only hc) fun answer => storesForms_reads (hrest answer)

theorem resolveProject_storesForms (ctx : ApiContext) (user : User) (method : String) (id : Int) :
    StoresForms X (resolveProject ctx user method id) := resolveProject_only user method (by trivial) fun _ => by trivial

theorem createProject_storesForms (ctx : ApiContext) (user : User) (input : ProjectInput) :
    StoresForms X (V1.createProject ctx user input) := by
  unfold V1.createProject
  simp only [Prog.bind_eq]
  cases hvalid : validateProject input.form with
  | error msg => trivial
  | ok settings =>
      simp only [orBadRequest, Prog.pure_eq, Prog.ret_bind]
      exact written_storesForms ⟨_, hvalid⟩ fun _ => reload_reads rfl

theorem updateProject_storesForms (ctx : ApiContext) (user : User) (id : Int) (input : ProjectInput) :
    StoresForms X (V1.updateProject ctx user id input) := by
  unfold V1.updateProject
  simp only [Prog.bind_eq]
  refine (resolveProject_storesForms ctx user _ id).bind fun _ => ?_
  cases hvalid : validateProject input.form with
  | error msg => trivial
  | ok settings =>
      simp only [orBadRequest, Prog.pure_eq, Prog.ret_bind]
      exact written_storesForms ⟨_, hvalid⟩ fun _ => reload_reads rfl

theorem createCheck_storesForms (ctx : ApiContext) (user : User) (projectId : Int) (input : CheckInput) :
    StoresForms X (V1.createCheck X ctx user projectId input) := by
  unfold V1.createCheck
  simp only [Prog.bind_eq]
  refine (resolveProject_storesForms ctx user _ projectId).bind fun _ => ?_
  cases hvalid : validateCheck X input.form with
  | error msg => trivial
  | ok fields =>
      simp only [orBadRequest, Prog.pure_eq, Prog.ret_bind]
      have hcreate : (StoreCall.createCheck (fields.newCheck projectId ctx.uuid) ctx.now).FromForm X :=
        ⟨_, fields, projectId, ctx.uuid, hvalid, rfl⟩
      refine Prog.Only.bind (apiStore_only hcreate) fun id => ?_
      have hbind : (StoreCall.bindAllProjectChannels id projectId).FromForm X := trivial
      exact written_storesForms hbind fun _ => reload_reads rfl

theorem updateCheck_storesForms (ctx : ApiContext) (user : User) (id : Int) (input : CheckInput) :
    StoresForms X (V1.updateCheck X ctx user id input) := by
  unfold V1.updateCheck
  simp only [Prog.bind_eq]
  refine (resolveCheck_storesForms ctx user _ id).bind fun _ => ?_
  cases hvalid : validateCheck X input.form with
  | error msg => trivial
  | ok fields =>
      simp only [orBadRequest, Prog.pure_eq, Prog.ret_bind]
      exact written_storesForms ⟨_, hvalid⟩ fun _ => reload_reads rfl

theorem apiHandle_storesForms (ctx : ApiContext) (user : User) (call : FormCall) :
    StoresForms X (apiHandle X ctx user call.route) := by
  cases call with
  | createProject body =>
      simp only [FormCall.route, apiHandle, Prog.bind_eq]
      cases body with
      | error msg => trivial
      | ok input =>
          simp only [orBadRequest, Prog.pure_eq, Prog.ret_bind]
          exact createProject_storesForms ctx user input
  | updateProject id body =>
      simp only [FormCall.route, apiHandle, Prog.bind_eq]
      cases body with
      | error msg => trivial
      | ok input =>
          simp only [orBadRequest, Prog.pure_eq, Prog.ret_bind]
          exact updateProject_storesForms ctx user id input
  | createCheck projectId body =>
      simp only [FormCall.route, apiHandle, Prog.bind_eq]
      cases body with
      | error msg => trivial
      | ok input =>
          simp only [orBadRequest, Prog.pure_eq, Prog.ret_bind]
          exact createCheck_storesForms ctx user projectId input
  | updateCheck id body =>
      simp only [FormCall.route, apiHandle, Prog.bind_eq]
      cases body with
      | error msg => trivial
      | ok input =>
          simp only [orBadRequest, Prog.pure_eq, Prog.ret_bind]
          exact updateCheck_storesForms ctx user id input

theorem FormRequest.program_storesForms (request : FormRequest) : StoresForms X (request.program X) := by
  cases request with
  | web ctx post =>
      refine Prog.Only.erase (Prog.Only.bind (storesForms_auth (requestSession_only ctx)) fun sid => ?_)
      split
      · trivial
      · have hauth : StoresForms X (resolveUser ctx sid) := storesForms_auth (resolveUser_only ctx sid)
        have hhandle (user : User) := webHandle_storesForms (X := X) ctx sid user post
        cases post <;>
        · refine Prog.Only.bind hauth fun found => ?_
          cases found with
          | none => trivial
          | some user => exact hhandle user
  | admin ctx post =>
      refine Prog.Only.erase (Prog.Only.bind (storesForms_auth (requestSession_only ctx)) fun sid => ?_)
      split
      · trivial
      · refine Prog.Only.bind (storesForms_auth (resolveUser_only ctx sid)) fun found => ?_
        cases found with
        | none => trivial
        | some user =>
            dsimp only
            split
            · exact adminHandle_storesForms ctx sid user post
            · trivial
  | api ctx call =>
      exact Prog.Only.erase (Prog.Only.bind (apiUser_only X (fun _ => by trivial) fun _ => by trivial) fun user =>
        apiHandle_storesForms ctx user call)

end Handlers

/-- A call that stores no form. -/
def StoreCall.Formless : StoreCall → Prop
  | .createCheck _ _ | .updateCheckSchedule _ _ | .createProject _ _ _ | .updateProject _ _ => False
  | .setSetting key _ => key ∉ settingKinds.map Prod.fst
  | _ => True

theorem StoreCall.Formless.fromForm {X : Crates} {c : StoreCall} (hc : c.Formless) : c.FromForm X := by
  cases c <;> first | trivial | exact hc.elim

/-- **From forms.** Whatever requests are interleaved with programs that store no form, every row came from an
accepted form. -/
theorem reached_fromForms {ι : Type} [DecidableEq ι] {X : Crates} {pool : ι → StoreProg Unit Unit}
    (hpool : ∀ i, StoresForms X (pool i)) {start : Db} (hstart : start.FromForms X)
    {cfg : Config ι StoreCall StoreCall.Res StoreError Spawned Unit Unit Db}
    (hreach : Reach exec (fun _ _ => True) (.init pool start) cfg) : cfg.state.FromForms X := by
  have hmeets (i : ι) : (pool i).Meets (fun _ _ => True) (answered exec)
      (fun before after => before.FromForms X → after.FromForms X) (fun _ _ => True) start := by
    refine (hpool i).meets (I := fun _ => True) ?_ trivial
    intro c before moved answer after hc _ _ hanswer
    have hafter : (exec c moved).2 = after := congrArg Prod.snd hanswer
    exact ⟨fun hmoved => hafter ▸ exec_fromForms hc hmoved, trivial⟩
  exact (Prog.Meets.reach hreach (fun _ _ _ _ _ => trivial) (fun _ _ _ => trivial) hmeets (fun _ => trivial)
    (fun _ _ hkept => hkept) hstart).2

/-! ### The edit forms -/

/-- The edit forms of a database give back what is stored: no row and no setting changes when its form is
resubmitted, and the save of the settings reports nothing. -/
structure Db.EditFormsFixed (X : Crates) (db : Db) : Prop where
  checks : ∀ check ∈ db.checks.rows, validateCheck X (checkEditForm check) = .ok check.fields
  projects : ∀ project ∈ db.projects.rows, validateProject (projectEditForm project) = .ok project.fields
  shown : (run exec loadSettingsFields db).outcome = .ok db.settingsForm
  settings : validateSettings X db.settingsForm = .ok db.storedSettings
  unchanged : (run exec (changedSettings db.storedSettings) db).outcome = .ok []
  unaudited : ∀ ctx sid user,
    (run exec (settingsSave X ctx sid user db.settingsForm) db).state.auditLog = db.auditLog

theorem Db.FromForms.editFormsFixed {X : Crates} (hzones : X.ZoneNames) {db : Db} (hdb : db.FromForms X) :
    db.EditFormsFixed X := by
  have hsettings := validateSettings_settingsForm hzones hdb.settings
  refine ⟨?_, ?_, ?_, hsettings, ?_, fun ctx sid user => (settingsSave_shown hsettings ctx sid user).2.1⟩
  · intro check hcheck
    obtain ⟨form, hvalid⟩ := hdb.checks check hcheck
    exact validateCheck_editForm hzones hvalid
  · intro project hproject
    obtain ⟨form, hvalid⟩ := hdb.projects project hproject
    exact validateProject_editForm hvalid
  · rw [run_loadSettingsFields]
  · rw [run_changedSettings, changedTexts_storedSettings]

/-- **Edit forms are fixpoints.** A duration of a stored row is read back as it is printed; the edit form of a
row stored from an accepted form is accepted and gives the row's fields; and from a fresh database on, in every
interleaving of the requests that store forms with programs that store none, all rows and the settings are
such. -/
theorem edit_forms_fixpoint (X : Crates) (hzones : X.ZoneNames) :
    (∀ n, 0 ≤ n → n ≤ i64Max → parseDuration (fmtDuration n) = some n) ∧
    (∀ form fields, validateCheck X form = .ok fields → ∀ check : Check, check.fields = fields →
      validateCheck X (checkEditForm check) = .ok fields) ∧
    (∀ form fields, validateProject form = .ok fields → ∀ project : Project, project.fields = fields →
      validateProject (projectEditForm project) = .ok fields) ∧
    Db.empty.FromForms X ∧
    ∀ (ι : Type) [DecidableEq ι] (pool : ι → StoreProg Unit Unit),
      (∀ i, (∃ request : FormRequest, pool i = request.program X) ∨
        (pool i).Only StoreCall.Formless fun _ => True) →
      ∀ start, start.FromForms X → ∀ cfg, Reach exec (fun _ _ => True) (.init pool start) cfg →
        cfg.state.FromForms X ∧ cfg.state.EditFormsFixed X := by
  refine ⟨fun n => parseDuration_fmtDuration, ?_, ?_, fromForms_empty X, ?_⟩
  · rintro form _ hvalid check rfl
    exact validateCheck_editForm hzones hvalid
  · rintro form _ hvalid project rfl
    exact validateProject_editForm hvalid
  · intro ι _ pool hpool start hstart cfg hreach
    have hstores (i : ι) : StoresForms X (pool i) := by
      rcases hpool i with ⟨request, heq⟩ | hformless
      · rw [heq]
        exact request.program_storesForms
      · exact hformless.mono (fun _ => StoreCall.Formless.fromForm) fun _ h => h
    have hreached := reached_fromForms hstores hstart hreach
    exact ⟨hreached, hreached.editFormsFixed hzones⟩

/-! ### A form with units -/

theorem plainCrates_zones : plainCrates.ZoneNames where
  parse := fun _ => show (if "UTC" = "UTC" then some () else none) = some () from if_pos rfl
  plain := fun _ => show trim "UTC" = "UTC" ∧ "UTC" ≠ "" by decide
  utc := rfl

/-- Typed with blanks and capitals, and the longest period there is. -/
def CheckForm.spaced : CheckForm :=
  ⟨" backup ", "nightly ", "period", "106751991167300D 15h 30m 7s", "", "0", "", " 90 ", "", "1H"⟩

/-- The same as the edit form shows it. -/
def CheckForm.tidy : CheckForm :=
  ⟨"backup", "nightly", "period", "106751991167300d15h30m7s", "", "0s", "UTC", "1m30s", "", "1h"⟩

theorem sample_fromForms : Db.sample.FromForms plainCrates := by
  refine ⟨fun check hcheck => ?_, fun project hproject => ?_, fun key value hvalue => ?_⟩
  · have hrows : Db.sample.checks.rows.map Check.fields =
        [⟨"backup", "", .period, some 60, 0, none, "UTC", none, none, none⟩] := by decide +kernel
    have hmem := List.mem_map_of_mem (f := Check.fields) hcheck
    rw [hrows, List.mem_singleton] at hmem
    exact ⟨⟨"backup", "", "period", "60", "", "0", "UTC", "", "", ""⟩, by rw [hmem]; decide +kernel⟩
  · have hrows : Db.sample.projects.rows.map Project.fields = [⟨"jobs", "", none, some 300⟩] := by decide +kernel
    have hmem := List.mem_map_of_mem (f := Project.fields) hproject
    rw [hrows, List.mem_singleton] at hmem
    exact ⟨⟨"jobs", "", "", "300"⟩, by rw [hmem]; decide +kernel⟩
  · cases hvalue

/-- Alice saves the form for her check; its edit form then shows the tidy text and is accepted. -/
theorem edit_forms_fixpoint_spaced :
    ∃ cfg, Reach exec (fun _ _ => True)
        (.init (fun _ : Unit => (FormRequest.web WebContext.sample (.checkUpdate 1 .spaced)).program plainCrates) .sample) cfg ∧
      cfg.state.EditFormsFixed plainCrates ∧ (cfg.state.findCheck 1).map checkEditForm = some .tidy := by
  obtain ⟨_, _, _, _, hruns⟩ := edit_forms_fixpoint plainCrates plainCrates_zones
  have hrun : (Config.advanceWhen exec (fun _ _ => true) (List.replicate 4 ())
      (.init (fun _ : Unit => (FormRequest.web WebContext.sample (.checkUpdate 1 .spaced)).program plainCrates)
        .sample)).any (fun cfg => (cfg.state.findCheck 1).map checkEditForm = some .tidy) = true := by
    decide +kernel
  obtain ⟨cfg, hreach, hfinal⟩ := exists_reach exec (fun _ _ _ => trivial : ∀ _ _, true = true → True) _ hrun
  refine ⟨cfg, hreach, (hruns Unit _ (fun _ => Or.inl ⟨_, rfl⟩) _ sample_fromForms cfg hreach).2, ?_⟩
  simpa using hfinal

end Pingward
