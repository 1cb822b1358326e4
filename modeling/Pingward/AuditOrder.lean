import Pingward.TenantIsolation

/-! An administrator who reaches another user's project, check or channel leaves an audit row first. The
order is that of the request's calls: wherever the store stops answering, the rows of other users have
changed only if the audit row is already there. -/

open KeyedTable StoreProgram

namespace Pingward

/-! ### Targets -/

/-- The type an audit row gives the target. -/
def Address.auditType : Address → Option String
  | .project _ => some "project"
  | .check _ => some "check"
  | .channel _ => some "channel"
  | _ => none

def Address.rowId : Address → Option Int
  | .project id | .check id | .channel id | .apiKey id => some id
  | .session _ => none

/-- The resource of a project, check or channel route under `/admin`. -/
def AdminRoute.address : AdminRoute → Option Address
  | .projectShow id | .projectEdit id | .projectUpdate id _ | .projectDelete id _ | .checkNew id | .checkCreate id _
  | .channelNew id | .channelCreate id _ => some (.project id)
  | .checkRevealPingUrl id _ | .checkShow id _ | .checkPings id _ | .checkEvents id | .checkNotifications id _
  | .checkEdit id | .checkUpdate id _ | .checkPause id | .checkResume id | .checkAck id | .checkRegenerate id _
  | .checkDelete id _ | .checkSetChannels id _ => some (.check id)
  | .channelEdit id | .channelUpdate id _ | .channelDelete id | .channelTest id => some (.channel id)
  | _ => none

namespace Db

def projectOwner (db : Db) (id : Int) : Option Int := (db.findProject id).map Project.userId

def ownerOf (db : Db) : Address → Option Int
  | .project id => db.projectOwner id
  | .check id => (db.findCheck id).bind fun row => db.projectOwner row.projectId
  | .channel id => (db.findChannel id).bind fun row => db.projectOwner row.projectId
  | _ => none

/-- The projects, checks, channels and bindings of the users other than `u`. -/
def estate (db : Db) (u : Int) : List Project × List Check × List Channel × List Binding :=
  ((db.others u []).projects, (db.others u []).checks, (db.others u []).channels, (db.others u []).bindings)

/-- The tables an access through `/admin` or `/api/v1` is about, and the audit log, are the same. -/
structure SameEstate (a b : Db) : Prop where
  projects : b.projects = a.projects
  checks : b.checks = a.checks
  channels : b.channels = a.channels
  bindings : b.checkChannels = a.checkChannels
  auditLog : b.auditLog = a.auditLog

end Db

theorem Db.SameEstate.refl (db : Db) : db.SameEstate db := ⟨rfl, rfl, rfl, rfl, rfl⟩

theorem Db.SameEstate.trans {a b c : Db} (hab : a.SameEstate b) (hbc : b.SameEstate c) : a.SameEstate c :=
  ⟨hbc.projects.trans hab.projects, hbc.checks.trans hab.checks, hbc.channels.trans hab.channels,
    hbc.bindings.trans hab.bindings, hbc.auditLog.trans hab.auditLog⟩

theorem Db.SameEstate.estate {a b : Db} (hsame : a.SameEstate b) (u : Int) : b.estate u = a.estate u := by
  unfold Db.estate Db.others Db.otherCheck Db.otherChannel Db.otherProject Db.findProject Db.findCheck Db.findChannel
  rw [hsame.projects, hsame.checks, hsame.channels, hsame.bindings]

theorem Db.SameEstate.ownerOf {a b : Db} (hsame : a.SameEstate b) (address : Address) :
    b.ownerOf address = a.ownerOf address := by
  cases address <;>
    simp only [Db.ownerOf, Db.projectOwner, Db.findProject, Db.findCheck, Db.findChannel, hsame.projects, hsame.checks,
      hsame.channels]

/-- A call on none of those tables. -/
def OffEstate (c : StoreCall) : Prop :=
  ∀ t ∈ [TableName.projects, .checks, .channels, .checkChannels, .auditLog], t ∉ c.writes

theorem OffEstate.same {c : StoreCall} (hc : OffEstate c) (db : Db) : db.SameEstate (exec c db).2 where
  projects := exec_frame (hc .projects (by simp)) db
  checks := exec_frame (hc .checks (by simp)) db
  channels := exec_frame (hc .channels (by simp)) db
  bindings := exec_frame (hc .checkChannels (by simp)) db
  auditLog := exec_frame (hc .auditLog (by simp)) db

theorem offEstate_of_reads {c : StoreCall} (hreads : c.writes = []) : OffEstate c :=
  fun t _ => by rw [hreads]; exact List.not_mem_nil

theorem AuthCall.offEstate {ctx : WebContext} {c : StoreCall} (hauth : AuthCall ctx c) : OffEstate c := by
  intro t ht
  cases hauth <;> simp only [List.mem_cons, List.not_mem_nil, or_false] at ht <;>
    rcases ht with rfl | rfl | rfl | rfl | rfl <;> simp [StoreCall.writes]

/-! ### The order of the steps -/

/-- Since the start an audit row has been inserted that names the actor, the target and its owner. -/
def Audited (actor : User) (start : Db) (address : Option Address) (db : Db) : Prop :=
  ∃ target, address = some target ∧ ∃ row ∈ db.auditLog.rows, start.auditLog.next ≤ row.id ∧
    row.actorUserId = actor.id ∧ row.actorUsername = actor.username ∧ row.targetType = target.auditType ∧
    row.targetId = target.rowId ∧ row.targetOwnerId = start.ownerOf target

/-- A step that changes other users' rows starts from a state with the audit row; only the first step on
the audit log finds it as it was, and no row of it goes away. -/
structure Orderly (actor : User) (start : Db) (address : Option Address) (before after : Db) : Prop where
  audited : after.estate actor.id = before.estate actor.id ∨ Audited actor start address before
  first : after.auditLog = before.auditLog ∨ before.auditLog = start.auditLog
  kept : ∀ row ∈ before.auditLog.rows, row ∈ after.auditLog.rows

section Steps

variable {actor : User} {start : Db} {address : Option Address}

theorem Orderly.refl (db : Db) : Orderly actor start address db db := ⟨Or.inl rfl, Or.inl rfl, fun _ h => h⟩

theorem Orderly.of_same {before after : Db} (hsame : before.SameEstate after) : Orderly actor start address before after :=
  ⟨Or.inl (hsame.estate actor.id), Or.inl hsame.auditLog, fun row hrow => by rw [hsame.auditLog]; exact hrow⟩

theorem Orderly.of_noAudit {c : StoreCall} {before : Db} (hc : NoAudit c)
    (hrows : (exec c before).2.estate actor.id = before.estate actor.id ∨ Audited actor start address before) :
    Orderly actor start address before (exec c before).2 := by
  have hlog : (exec c before).2.auditLog = before.auditLog := exec_frame hc before
  exact ⟨hrows, Or.inl hlog, fun row hrow => by rw [hlog]; exact hrow⟩

theorem Audited.mono {before after : Db} (haudited : Audited actor start address before)
    (hkept : ∀ row ∈ before.auditLog.rows, row ∈ after.auditLog.rows) : Audited actor start address after := by
  obtain ⟨target, haddress, row, hrow, hfacts⟩ := haudited
  exact ⟨target, haddress, row, hkept row hrow, hfacts⟩

/-- Alone, the program's steps are in order. -/
def InOrder {A α : Type} (actor : User) (start : Db) (address : Option Address) (Q : α → Db → Prop)
    (program : StoreProg A α) (db : Db) : Prop :=
  program.Meets Eq (answered exec) (Orderly actor start address) Q db

variable {A α β : Type} {db : Db}

theorem InOrder.bind {Q : α → Db → Prop} {Q' : β → Db → Prop} {program : StoreProg A α} {rest : α → StoreProg A β}
    (hprogram : InOrder actor start address Q program db)
    (hrest : ∀ value after, Q value after → InOrder actor start address Q' (rest value) after) :
    InOrder actor start address Q' (program.bind rest) db := Prog.Meets.bind hprogram hrest

/-- Calls off the estate, such as those of authentication. -/
theorem inOrder_of_offEstate {okEvent : Spawned → Prop} {program : StoreProg A α} (honly : program.Only OffEstate okEvent)
    (hsame : start.SameEstate db) : InOrder actor start address (fun _ after => start.SameEstate after) program db := by
  refine honly.meets (I := fun after => start.SameEstate after) ?_ hsame
  rintro c before moved answer after hc hbefore rfl hanswer
  have hstate : after = (exec c before).2 := (congrArg Prod.snd hanswer).symm
  subst hstate
  exact ⟨Orderly.of_same (hc.same before), hbefore.trans (hc.same before)⟩

theorem Reads.inOrder {program : StoreProg A α} (hreads : Reads program) :
    InOrder actor start address (fun _ after => after = db) program db := by
  refine hreads.meets (I := fun after => after = db) ?_ rfl
  rintro c before moved answer after hc rfl rfl hanswer
  have hstate : after = before := by
    rw [← exec_reads hc before]
    exact (congrArg Prod.snd hanswer).symm
  exact ⟨hstate ▸ Orderly.refl _, hstate⟩

/-- Once the audit row is there, anything goes but another audit. -/
theorem inOrder_of_audited {program : StoreProg A α} (honly : program.Only NoAudit fun _ => True)
    (haudited : Audited actor start address db) : InOrder actor start address (fun _ _ => True) program db := by
  refine (honly.meets (I := Audited actor start address) ?_ haudited).mono (fun _ _ h => h) fun _ _ _ => trivial
  rintro c before moved answer after hc hbefore rfl hanswer
  have hstate : after = (exec c before).2 := (congrArg Prod.snd hanswer).symm
  subst hstate
  have hstep : Orderly actor start address before (exec c before).2 := Orderly.of_noAudit hc (Or.inr hbefore)
  exact ⟨hstep, hbefore.mono hstep.kept⟩

/-- Within the actor's own rows no audit is needed. -/
theorem inOrder_of_keeps {program : StoreProg A α} (hkeeps : Keeps actor.id [] (fun _ _ => True) program db)
    (honly : program.Only NoAudit fun _ => True) : InOrder actor start address (fun _ _ => True) program db := by
  have hquiet : ∀ (c : StoreCall) (before : Db) (answer : Except StoreError c.Res) (after : Db), NoAudit c →
      answered exec c before answer after → after.auditLog = before.auditLog := by
    rintro c before answer after hc hanswer
    have hstate : after = (exec c before).2 := (congrArg Prod.snd hanswer).symm
    subst hstate
    exact exec_frame hc before
  refine (Prog.Meets.and_only hkeeps honly hquiet).mono ?_ fun _ _ _ => trivial
  rintro before after ⟨hothers, hlog⟩
  refine ⟨Or.inl ?_, Or.inl hlog, fun row hrow => by rw [hlog]; exact hrow⟩
  unfold Db.estate
  rw [hothers]

theorem recordAudit_rows (entry : NewAudit) (now : Instant) (db : Db) :
    (exec (.recordAudit entry now) db).2.auditLog.rows = db.auditLog.rows ++
      [⟨db.auditLog.next, entry.actorUserId, entry.actorUsername, entry.action, entry.targetType, entry.targetId,
        entry.targetOwnerId, entry.method, entry.path, entry.detail, now⟩] := rfl

/-- The audit insert, from a state in which nothing has happened yet. -/
theorem audit_step {entry : NewAudit} (now : Instant) {target : Address} (hsame : start.SameEstate db)
    (hactor : entry.actorUserId = actor.id ∧ entry.actorUsername = actor.username)
    (htarget : entry.targetType = target.auditType ∧ entry.targetId = target.rowId ∧
      entry.targetOwnerId = start.ownerOf target) :
    Orderly actor start (some target) db (exec (.recordAudit entry now) db).2 ∧
      Audited actor start (some target) (exec (.recordAudit entry now) db).2 := by
  have hrows := recordAudit_rows entry now db
  refine ⟨⟨Or.inl rfl, Or.inr hsame.auditLog, fun row hrow => ?_⟩, target, rfl, ?_⟩
  · rw [hrows]
    exact List.mem_append_left _ hrow
  · refine ⟨_, hrows ▸ List.mem_append_right _ (List.mem_singleton.mpr rfl), ?_⟩
    exact ⟨hsame.auditLog ▸ le_refl _, hactor.1, hactor.2, htarget⟩

theorem InOrder.weaken {Q : α → Db → Prop} {program : StoreProg A α} (hprogram : InOrder actor start address Q program db) :
    InOrder actor start address (fun _ _ => True) program db := hprogram.mono (fun _ _ h => h) fun _ _ _ => trivial

theorem inOrder_of_reads {program : StoreProg A α} (hreads : Reads program) :
    InOrder actor start address (fun _ _ => True) program db := hreads.inOrder.weaken

/-- In front of the rest stands a part that reads. -/
theorem Reads.inOrder_bind {program : StoreProg A α} {rest : α → StoreProg A β} {Q : β → Db → Prop} (hreads : Reads program)
    (hrest : ∀ value, InOrder actor start address Q (rest value) db) :
    InOrder actor start address Q (program.bind rest) db :=
  hreads.inOrder.bind fun value after hafter => by rw [hafter]; exact hrest value

/-- A lookup and what it found. -/
theorem inOrder_read {c : StoreCall} (hreads : c.writes = []) {wrap : StoreError → A} :
    InOrder actor start address (fun value after => after = db ∧ (exec c db).1 = .ok value)
      (Prog.perform wrap c : StoreProg A c.Res) db := by
  apply Prog.Meets.perform
  rintro moved rfl answer after hanswer
  have hstate : after = db := (congrArg Prod.snd hanswer).symm.trans (exec_reads hreads db)
  refine ⟨hstate ▸ Orderly.refl _, fun value hvalue => ⟨hstate, ?_⟩⟩
  exact (congrArg Prod.fst hanswer).trans hvalue

/-- The audit insert as a call of a program. -/
theorem inOrder_audit (target : Address) {entry : NewAudit} {now : Instant} {wrap : StoreError → A}
    (hsame : start.SameEstate db)
    (hactor : entry.actorUserId = actor.id ∧ entry.actorUsername = actor.username)
    (htarget : entry.targetType = target.auditType ∧ entry.targetId = target.rowId ∧
      entry.targetOwnerId = start.ownerOf target) :
    InOrder actor start (some target) (fun _ after => Audited actor start (some target) after)
      (Prog.perform wrap (.recordAudit entry now) : StoreProg A _) db := by
  obtain ⟨hstep, haudited⟩ := audit_step now hsame hactor htarget
  apply Prog.Meets.perform
  rintro moved rfl answer after hanswer
  have hstate : after = (exec (.recordAudit entry now) db).2 := (congrArg Prod.snd hanswer).symm
  subst hstate
  exact ⟨hstep, fun _ _ => haudited⟩

end Steps

/-! ### Owners -/

section Owners

variable {db : Db} {id : Int}

theorem ownerOf_project {project : Project} (hfound : db.findProject id = some project) :
    db.ownerOf (.project id) = some project.userId := by
  simp only [Db.ownerOf, Db.projectOwner, hfound, Option.map_some]

theorem ownerOf_check {check : Check} (hfound : db.findCheck id = some check) :
    db.ownerOf (.check id) = (db.findProject check.projectId).map Project.userId := by
  simp only [Db.ownerOf, Db.projectOwner, hfound, Option.bind_some]

theorem ownerOf_channel {channel : Channel} (hfound : db.findChannel id = some channel) :
    db.ownerOf (.channel id) = (db.findProject channel.projectId).map Project.userId := by
  simp only [Db.ownerOf, Db.projectOwner, hfound, Option.bind_some]

end Owners

/-! ### `/admin` -/

section Admin

variable {X : Crates} {ctx : WebContext} {sid : String} {user : User} {start db : Db}

theorem auditAccess_inOrder (target : Address) {targetType : String} {targetId : Int} {owner : Option Int}
    (hsame : start.SameEstate db) (htype : target.auditType = some targetType) (hid : target.rowId = some targetId)
    (howner : start.ownerOf target = owner) :
    InOrder user start (some target) (fun _ after => Audited user start (some target) after)
      (auditAccess ctx user "POST" targetType targetId owner) db := by
  refine InOrder.bind (inOrder_audit target hsame ⟨rfl, rfl⟩ ⟨htype.symm, hid.symm, howner.symm⟩) ?_
  exact fun _ _ haudited => haudited

theorem adminProject_inOrder (hsame : start.SameEstate db) (id : Int) :
    InOrder user start (some (.project id)) (fun _ after => Audited user start (some (.project id)) after)
      (adminProject ctx user "POST" id) db := by
  apply (inOrder_read rfl).bind
  rintro found after ⟨rfl, hfound⟩
  cases found with
  | none => trivial
  | some project =>
      have hrow : after.findProject id = some project := Except.ok.inj hfound
      have hkey : project.id = id := Table.find_key _ hrow
      have howner := (hsame.ownerOf (.project id)).symm.trans (ownerOf_project hrow)
      exact (auditAccess_inOrder (.project id) hsame rfl (congrArg some hkey.symm) howner).bind fun _ _ haudited => haudited

/-- The owner is that of the project of the row. -/
theorem auditRow_inOrder {ρ : Type} (target : Address) {targetType : String} {targetId projectId : Int} {row : ρ}
    (hsame : start.SameEstate db) (htype : target.auditType = some targetType) (hid : target.rowId = some targetId)
    (howner : db.ownerOf target = (db.findProject projectId).map Project.userId) :
    InOrder user start (some target) (fun _ after => Audited user start (some target) after)
      ((store (.findProject projectId)).bind fun project =>
        (auditAccess ctx user "POST" targetType targetId (project.map Project.userId)).bind fun _ => .ret row) db := by
  apply (inOrder_read rfl).bind
  rintro project after ⟨rfl, hproject⟩
  have hstart := (hsame.ownerOf target).symm.trans howner
  rw [Except.ok.inj hproject] at hstart
  exact (auditAccess_inOrder target hsame htype hid hstart).bind fun _ _ haudited => haudited

theorem adminCheck_inOrder (hsame : start.SameEstate db) (id : Int) :
    InOrder user start (some (.check id)) (fun _ after => Audited user start (some (.check id)) after)
      (adminCheck ctx user "POST" id) db := by
  apply (inOrder_read rfl).bind
  rintro found after ⟨rfl, hfound⟩
  cases found with
  | none => trivial
  | some check =>
      have hrow : after.findCheck id = some check := Except.ok.inj hfound
      have hkey : check.id = id := Table.find_key _ hrow
      exact auditRow_inOrder (.check id) hsame rfl (congrArg some hkey.symm) (ownerOf_check hrow)

theorem adminChannel_inOrder (hsame : start.SameEstate db) (id : Int) :
    InOrder user start (some (.channel id)) (fun _ after => Audited user start (some (.channel id)) after)
      (adminChannel ctx user "POST" id) db := by
  apply (inOrder_read rfl).bind
  rintro found after ⟨rfl, hfound⟩
  cases found with
  | none => trivial
  | some channel =>
      have hrow : after.findChannel id = some channel := Except.ok.inj hfound
      have hkey : channel.id = id := Table.find_key _ hrow
      exact auditRow_inOrder (.channel id) hsame rfl (congrArg some hkey.symm) (ownerOf_channel hrow)

/-- What a handler does after the audited lookup of its target: anything but another audit. -/
theorem adminProject_bind_inOrder {β : Type} (hsame : start.SameEstate db) (id : Int) {rest : Project → StoreProg AppError β}
    (hrest : ∀ project, (rest project).Only NoAudit fun _ => True) :
    InOrder user start (some (.project id)) (fun _ _ => True) ((adminProject ctx user "POST" id).bind rest) db :=
  (adminProject_inOrder hsame id).bind fun project _ haudited => inOrder_of_audited (hrest project) haudited

theorem adminCheck_bind_inOrder {β : Type} (hsame : start.SameEstate db) (id : Int) {rest : Check → StoreProg AppError β}
    (hrest : ∀ check, (rest check).Only NoAudit fun _ => True) :
    InOrder user start (some (.check id)) (fun _ _ => True) ((adminCheck ctx user "POST" id).bind rest) db :=
  (adminCheck_inOrder hsame id).bind fun check _ haudited => inOrder_of_audited (hrest check) haudited

theorem adminChannel_bind_inOrder {β : Type} (hsame : start.SameEstate db) (id : Int) {rest : Channel → StoreProg AppError β}
    (hrest : ∀ channel, (rest channel).Only NoAudit fun _ => True) :
    InOrder user start (some (.channel id)) (fun _ _ => True) ((adminChannel ctx user "POST" id).bind rest) db :=
  (adminChannel_inOrder hsame id).bind fun channel _ haudited => inOrder_of_audited (hrest channel) haudited

/-! Reads are not audited. -/

theorem adminProject_reads (id : Int) : Reads (adminProject ctx user "GET" id) := by
  refine (reads_store rfl).bind fun found => ?_
  split <;> trivial

theorem adminCheck_reads (id : Int) : Reads (adminCheck ctx user "GET" id) := by
  refine (reads_store rfl).bind fun found => ?_
  split
  · trivial
  · exact (reads_store rfl).bind fun _ => trivial

theorem adminChannel_reads (id : Int) : Reads (adminChannel ctx user "GET" id) := by
  refine (reads_store rfl).bind fun found => ?_
  split
  · trivial
  · exact (reads_store rfl).bind fun _ => trivial

theorem noAudit_store {c : StoreCall} (hc : NoAudit c) : (store c).Only NoAudit fun _ => True := store_only hc

theorem checkCreateCore_noAudit (base : String) (projectId : Int) (form : CheckForm) :
    (checkCreateCore X ctx sid user base projectId form).Only NoAudit fun _ => True := by
  unfold checkCreateCore
  split
  · trivial
  · exact (noAudit_store (by simp [NoAudit, StoreCall.writes])).bind fun _ =>
      (noAudit_store (by simp [NoAudit, StoreCall.writes])).bind fun _ => trivial

theorem checkUpdateCore_noAudit (base : String) (id : Int) (form : CheckForm) :
    (checkUpdateCore X sid user base id form).Only NoAudit fun _ => True := by
  unfold checkUpdateCore
  split
  · trivial
  · exact (noAudit_store (by simp [NoAudit, StoreCall.writes])).bind fun _ => trivial

theorem channelCreateCore_noAudit (base : String) (projectId : Int) (form : ChannelForm) :
    (channelCreateCore X ctx sid user base projectId form).Only NoAudit fun _ => True := by
  unfold channelCreateCore
  split
  · trivial
  · exact (noAudit_store (by simp [NoAudit, StoreCall.writes])).bind fun _ => trivial

theorem channelUpdateCore_noAudit (base : String) (channel : Channel) (form : ChannelForm) :
    (channelUpdateCore X ctx sid user base channel form).Only NoAudit fun _ => True := by
  unfold channelUpdateCore
  split
  · trivial
  · exact (noAudit_store (by simp [NoAudit, StoreCall.writes])).bind fun _ => trivial

theorem bindChannels_noAudit (order : SetOrder) (check : Check) (channelIds : List Int) :
    (bindChannels order check channelIds).Only NoAudit fun _ => True := by
  refine (reads_store rfl).noAudit.bind fun channels => (reads_store rfl).noAudit.bind fun current => ?_
  refine (forEach_noAudit (fun id => noAudit_store (by simp [NoAudit, StoreCall.writes])) _).bind fun _ => ?_
  exact forEach_noAudit (fun id => noAudit_store (by simp [NoAudit, StoreCall.writes])) _

theorem adminChannelTest_rest_reads (channel : Channel) : Reads ((store (.findProject channel.projectId)).bind fun found =>
    match found with
    | none => Prog.fail .notFound
    | some project => (runChannelTest X ctx channel).bind fun result =>
        renderProjectPage X ctx sid user project (some result)) := by
  refine (reads_store rfl).bind fun found => ?_
  split
  · trivial
  · exact (runChannelTest_reads X ctx channel).bind fun _ => renderProjectPage_reads X ctx sid user _ _

/-- The reveal audits another user's check and then only reads. -/
theorem adminCheckRevealPingUrl_inOrder (hsame : start.SameEstate db) (id : Int) (query : CheckPageQuery) :
    InOrder user start (some (.check id)) (fun _ _ => True) (adminCheckRevealPingUrl X ctx sid user id query) db := by
  apply (inOrder_read rfl).bind
  rintro found after ⟨rfl, hfound⟩
  cases found with
  | none => trivial
  | some check =>
      have hrow : after.findCheck id = some check := Except.ok.inj hfound
      have hkey : check.id = id := Table.find_key _ hrow
      apply (inOrder_read rfl).bind
      rintro project _ ⟨rfl, hproject⟩
      have howner := (hsame.ownerOf (.check id)).symm.trans (ownerOf_check hrow)
      rw [Except.ok.inj hproject] at howner
      dsimp only
      split
      · refine InOrder.bind (inOrder_audit (.check id) hsame ⟨rfl, rfl⟩
          ⟨rfl, congrArg some hkey, howner.symm⟩) fun _ _ haudited => ?_
        exact inOrder_of_reads (renderCheckPage_reads X ctx sid user _ _ _ _)
      · exact inOrder_of_reads (renderCheckPage_reads X ctx sid user _ _ _ _)

/-- Every project, check and channel handler under `/admin` is in order. -/
theorem adminHandle_inOrder (hsame : start.SameEstate db) {route : AdminRoute} {target : Address}
    (haddress : route.address = some target) :
    InOrder user start (some target) (fun _ _ => True) (adminHandle X ctx sid user route) db := by
  cases route <;> cases haddress
  case projectShow id =>
      exact inOrder_of_reads ((adminProject_reads id).bind fun _ => renderProjectPage_reads X ctx sid user _ _)
  case projectEdit id => exact inOrder_of_reads ((adminProject_reads id).bind fun _ => trivial)
  case projectUpdate id form =>
      refine adminProject_bind_inOrder hsame id fun project => ?_
      split
      · trivial
      · exact (noAudit_store (by simp [NoAudit, StoreCall.writes])).bind fun _ => trivial
  case projectDelete id confirmed =>
      refine adminProject_bind_inOrder hsame id fun project => ?_
      split
      · trivial
      · exact (noAudit_store (by simp [NoAudit, StoreCall.writes])).bind fun _ => trivial
  case checkNew id => exact inOrder_of_reads ((adminProject_reads id).bind fun _ => trivial)
  case checkCreate id form => exact adminProject_bind_inOrder hsame id fun _ => checkCreateCore_noAudit "/admin" id form
  case checkRevealPingUrl id query => exact adminCheckRevealPingUrl_inOrder hsame id query
  case checkShow id query =>
      exact inOrder_of_reads ((adminCheck_reads id).bind fun _ => renderCheckPage_reads X ctx sid user _ _ _ _)
  case checkPings id query =>
      refine inOrder_of_reads ((adminCheck_reads id).bind fun check => ?_)
      split
      · trivial
      · exact (buildPingsPartial_reads _ _ _).bind fun _ => trivial
  case checkEvents id => exact inOrder_of_reads ((adminCheck_reads id).bind fun _ => trivial)
  case checkNotifications id query =>
      refine inOrder_of_reads ((adminCheck_reads id).bind fun check => ?_)
      split
      · trivial
      · exact (reads_store rfl).bind fun _ => (reads_store rfl).bind fun _ => trivial
  case checkEdit id => exact inOrder_of_reads ((adminCheck_reads id).bind fun _ => trivial)
  case checkUpdate id form => exact adminCheck_bind_inOrder hsame id fun _ => checkUpdateCore_noAudit "/admin" id form
  case checkPause id =>
      exact adminCheck_bind_inOrder hsame id fun _ =>
        (noAudit_store (by simp [NoAudit, StoreCall.writes])).bind fun _ => trivial
  case checkResume id =>
      exact adminCheck_bind_inOrder hsame id fun _ =>
        (noAudit_store (by simp [NoAudit, StoreCall.writes])).bind fun _ => trivial
  case checkAck id =>
      exact adminCheck_bind_inOrder hsame id fun _ =>
        (noAudit_store (by simp [NoAudit, StoreCall.writes])).bind fun _ => trivial
  case checkRegenerate id confirmed =>
      refine adminCheck_bind_inOrder hsame id fun check => ?_
      split
      · trivial
      · exact (noAudit_store (by simp [NoAudit, StoreCall.writes])).bind fun _ => trivial
  case checkDelete id confirmed =>
      refine adminCheck_bind_inOrder hsame id fun check => ?_
      split
      · trivial
      · exact (noAudit_store (by simp [NoAudit, StoreCall.writes])).bind fun _ => trivial
  case checkSetChannels id channelIds =>
      exact adminCheck_bind_inOrder hsame id fun check =>
        (bindChannels_noAudit ctx.setOrder check channelIds).bind fun _ => trivial
  case channelNew id => exact inOrder_of_reads ((adminProject_reads id).bind fun _ => trivial)
  case channelCreate id form => exact adminProject_bind_inOrder hsame id fun _ => channelCreateCore_noAudit "/admin" id form
  case channelEdit id => exact inOrder_of_reads ((adminChannel_reads id).bind fun _ => trivial)
  case channelUpdate id form =>
      exact adminChannel_bind_inOrder hsame id fun channel => channelUpdateCore_noAudit "/admin" channel form
  case channelDelete id =>
      exact adminChannel_bind_inOrder hsame id fun _ =>
        (noAudit_store (by simp [NoAudit, StoreCall.writes])).bind fun _ => trivial
  case channelTest id =>
      exact adminChannel_bind_inOrder hsame id fun channel => (adminChannelTest_rest_reads channel).noAudit

end Admin

/-! ### `/api/v1` -/

section Api

variable {ctx : ApiContext} {user : User} {start db : Db} {β : Type}

/-- The resource is the caller's own, or the access has been audited. -/
def OwnOrAudited (user : User) (start : Db) (target : Address) (db after : Db) : Prop :=
  after = db ∧ db.ownerOf target = some user.id ∨ Audited user start (some target) after

theorem resolveOwned_inOrder {α : Type} (method : String) {targetType : String} {targetId : Int} (row : α)
    (target : Address) (hadmin : user.isAdmin = true) (hsame : start.SameEstate db) (htype : target.auditType = some targetType)
    (hid : target.rowId = some targetId) :
    InOrder user start (some target) (fun _ after => OwnOrAudited user start target db after)
      (resolveOwned ctx user method targetType targetId (db.ownerOf target) row) db := by
  unfold resolveOwned
  split
  · rename_i hown
    exact Or.inl ⟨rfl, hown⟩
  · refine InOrder.bind (Q := fun _ after => Audited user start (some target) after) ?_
      fun _ _ haudited => Or.inr haudited
    refine InOrder.bind (inOrder_audit target hsame ⟨rfl, rfl⟩ ⟨htype.symm, hid.symm, hsame.ownerOf target⟩) ?_
    exact fun _ _ haudited => haudited

theorem resolveProject_inOrder (method : String) (hadmin : user.isAdmin = true) (hsame : start.SameEstate db) (id : Int) :
    InOrder user start (some (.project id)) (fun _ after => OwnOrAudited user start (.project id) db after)
      (resolveProject ctx user method id) db := by
  apply (inOrder_read rfl).bind
  rintro found after ⟨rfl, hfound⟩
  cases found with
  | none => trivial
  | some project =>
      have hrow : after.findProject id = some project := Except.ok.inj hfound
      have hkey : project.id = id := Table.find_key _ hrow
      refine InOrder.bind (Q := fun value last => value = project ∧ last = after) ⟨rfl, rfl⟩ ?_
      rintro _ _ ⟨rfl, rfl⟩
      rw [← ownerOf_project hrow]
      exact resolveOwned_inOrder method _ (.project id) hadmin hsame rfl (congrArg some hkey.symm)

/-- The owner of a row is that of its project, whichever row it is. -/
theorem resolveRow_inOrder {ρ : Type} (method : String) (target : Address) {find : StoreProg ApiError (Option ρ)}
    {targetType : String} {projectId rowId : ρ → Int} (hadmin : user.isAdmin = true) (hsame : start.SameEstate db)
    (htype : target.auditType = some targetType)
    (hfind : InOrder user start (some target) (fun found after => after = db ∧ ∀ row, found = some row →
      target.rowId = some (rowId row) ∧ db.ownerOf target = (db.findProject (projectId row)).map Project.userId) find db) :
    InOrder user start (some target) (fun _ after => OwnOrAudited user start target db after)
      (find.bind fun found => (okOr .notFound found).bind fun row =>
        (apiStore (.findProject (projectId row))).bind fun project =>
          resolveOwned ctx user method targetType (rowId row) (project.map Project.userId) row) db := by
  apply hfind.bind
  rintro found after ⟨rfl, hfound⟩
  cases found with
  | none => trivial
  | some row =>
      obtain ⟨hid, howner⟩ := hfound row rfl
      refine InOrder.bind (Q := fun value last => value = row ∧ last = after) ⟨rfl, rfl⟩ ?_
      rintro _ _ ⟨rfl, rfl⟩
      apply (inOrder_read rfl).bind
      rintro project _ ⟨rfl, hproject⟩
      rw [← Except.ok.inj hproject, ← howner]
      exact resolveOwned_inOrder method _ target hadmin hsame htype hid

theorem resolveCheck_inOrder (method : String) (hadmin : user.isAdmin = true) (hsame : start.SameEstate db) (id : Int) :
    InOrder user start (some (.check id)) (fun _ after => OwnOrAudited user start (.check id) db after)
      (resolveCheck ctx user method id) db := by
  refine resolveRow_inOrder method (.check id) hadmin hsame rfl ((inOrder_read rfl).mono (fun _ _ h => h) ?_)
  rintro found after ⟨hafter, hfound⟩
  refine ⟨hafter, fun check hsome => ?_⟩
  have hrow : db.findCheck id = some check := (Except.ok.inj hfound).trans hsome
  have hkey : check.id = id := Table.find_key _ hrow
  exact ⟨congrArg some hkey.symm, ownerOf_check hrow⟩

theorem resolveChannel_inOrder (method : String) (hadmin : user.isAdmin = true) (hsame : start.SameEstate db) (id : Int) :
    InOrder user start (some (.channel id)) (fun _ after => OwnOrAudited user start (.channel id) db after)
      (resolveChannel ctx user method id) db := by
  refine resolveRow_inOrder method (.channel id) hadmin hsame rfl ((inOrder_read rfl).mono (fun _ _ h => h) ?_)
  rintro found after ⟨hafter, hfound⟩
  refine ⟨hafter, fun channel hsome => ?_⟩
  have hrow : db.findChannel id = some channel := (Except.ok.inj hfound).trans hsome
  have hkey : channel.id = id := Table.find_key _ hrow
  exact ⟨congrArg some hkey.symm, ownerOf_channel hrow⟩

theorem otherCheck_of_owner {u id : Int} (howner : db.ownerOf (.check id) = some u) : db.otherCheck u id = false := by
  obtain ⟨check, hcheck, hproject⟩ := Option.bind_eq_some_iff.mp howner
  exact otherCheck_of_own hcheck (otherProject_of_owner hproject)

theorem otherChannel_of_owner {u id : Int} (howner : db.ownerOf (.channel id) = some u) : db.otherChannel u id = false := by
  obtain ⟨channel, hchannel, hproject⟩ := Option.bind_eq_some_iff.mp howner
  exact otherChannel_of_own hchannel (otherProject_of_owner hproject)

/-- What follows a lookup is in order, whichever way the lookup succeeded. -/
theorem OwnOrAudited.inOrder {target : Address} {own : Db → Prop} {after : Db} {program : StoreProg ApiError β}
    (hfound : OwnOrAudited user start target db after) (hprogram : Contained user [] own program)
    (hown : db.ownerOf target = some user.id → own db) :
    InOrder user start (some target) (fun _ _ => True) program after := by
  rcases hfound with ⟨rfl, howner⟩ | haudited
  · exact inOrder_of_keeps (hprogram.keeps _ (hown howner)) hprogram.audits
  · exact inOrder_of_audited hprogram.audits haudited

/-- Every handler of `/api/v1` is in order for an administrator's key. -/
theorem ApiShape.inOrder {address : Option Address} {program : StoreProg ApiError ApiResponse}
    (hshape : ApiShape ctx user [] address program) (hadmin : user.isAdmin = true) (hsame : start.SameEstate db) :
    InOrder user start address (fun _ _ => True) program db := by
  induction hshape with
  | account hown haudit =>
      exact inOrder_of_keeps (Keeps.of_own (hown.mono (fun _ hc db => hc [] db) fun _ h => h)) haudit
  | body input hrest ih => exact (orBadRequest_reads input).inOrder_bind ih
  | project method id hrest =>
      exact (resolveProject_inOrder method hadmin hsame id).bind fun project _ hfound =>
        hfound.inOrder (hrest project) otherProject_of_owner
  | check method id hrest =>
      exact (resolveCheck_inOrder method hadmin hsame id).bind fun check _ hfound =>
        hfound.inOrder (hrest check) otherCheck_of_owner
  | channel method id hrest =>
      exact (resolveChannel_inOrder method hadmin hsame id).bind fun channel _ hfound =>
        hfound.inOrder (hrest channel) otherChannel_of_owner

end Api

/-! ### Requests -/

/-- A request on the surfaces an administrator reaches other users' resources through. -/
inductive EstateRequest where
  | admin (ctx : WebContext) (route : AdminRoute)
  | api (ctx : ApiContext) (route : ApiRoute)

namespace EstateRequest

/-- A project, check or channel route; all of `/api/v1` is. -/
def OnEstate : EstateRequest → Prop
  | .admin _ route => route.address.isSome = true
  | .api _ _ => True

def address : EstateRequest → Option Address
  | .admin _ route => route.address
  | .api _ route => route.address

/-- The user the request is authenticated as. -/
def actor (X : Crates) (db : Db) : EstateRequest → Option User
  | .admin ctx _ =>
      match (run exec (authenticate ctx) db).outcome with
      | .ok (_, found) => found
      | _ => none
  | .api ctx _ =>
      match (run exec (apiUser X ctx) db).outcome with
      | .ok user => some user
      | _ => none

/-- The calls of the request on a working store. -/
def calls (X : Crates) (db : Db) : EstateRequest → List StoreCall
  | .admin ctx route => StoreProgram.calls exec (adminRequest X ctx route) db
  | .api ctx route => StoreProgram.calls exec (apiRequest X ctx route) db

/-- The database the request leaves when the store fails from the `k`-th call on. -/
def stoppedAt (X : Crates) (error : StoreError) (k : Nat) (db : Db) : EstateRequest → Db
  | .admin ctx route => Prog.stoppedAt exec error k (adminRequest X ctx route) db
  | .api ctx route => Prog.stoppedAt exec error k (apiRequest X ctx route) db

end EstateRequest

section Requests

variable {X : Crates} {actor : User} {db : Db}

/-- What authentication does is off the estate, and it ends as its run does. -/
theorem offEstate_exact {A α : Type} {start : Db} {address : Option Address} {okEvent : Spawned → Prop}
    {program : StoreProg A α} (honly : program.Only OffEstate okEvent) (hsame : start.SameEstate db) :
    InOrder actor start address (fun value after => start.SameEstate after ∧
      (run exec program db).outcome = .ok value ∧ (run exec program db).state = after) program db :=
  Prog.Meets.exact (inOrder_of_offEstate honly hsame)

theorem adminRequest_inOrder {ctx : WebContext} {route : AdminRoute} {sid : String} {target : Address}
    (haddress : route.address = some target) (hauth : (run exec (authenticate ctx) db).outcome = .ok (sid, some actor)) :
    InOrder actor db (some target) (fun _ _ => True) (adminRequest X ctx route) db := by
  obtain ⟨sid', hsid, hrest⟩ := run_bind_eq_ok exec hauth
  obtain ⟨found, hfound, hrest⟩ := run_bind_eq_ok exec hrest
  cases hrest
  have hsession : (requestSession ctx).Only OffEstate fun _ => False :=
    (requestSession_only ctx).mono (fun _ hc => hc.offEstate) fun _ h => h
  have hresolve : (resolveUser ctx sid).Only OffEstate fun _ => False :=
    (resolveUser_only ctx sid).mono (fun _ hc => hc.offEstate) fun _ h => h
  apply (offEstate_exact hsession (.refl db)).bind
  rintro sid'' after ⟨hsame, houtcome, rfl⟩
  cases hsid.symm.trans houtcome
  split
  · trivial
  · apply (offEstate_exact hresolve hsame).bind
    rintro found' after ⟨hsame, houtcome, rfl⟩
    cases hfound.symm.trans houtcome
    dsimp only
    split
    · exact adminHandle_inOrder hsame haddress
    · trivial

theorem apiUser_offEstate (X : Crates) (ctx : ApiContext) : (apiUser X ctx).Only OffEstate fun _ => False := by
  refine (okOr_only _ _).bind fun token => (apiStore_only ?_).bind fun found => (okOr_only _ _).bind fun userId =>
    (apiStore_only (offEstate_of_reads rfl)).bind fun row => okOr_only _ _
  intro t ht
  simp only [List.mem_cons, List.not_mem_nil, or_false] at ht
  rcases ht with rfl | rfl | rfl | rfl | rfl <;> simp [StoreCall.writes]

theorem apiRequest_inOrder {ctx : ApiContext} {route : ApiRoute} (hadmin : actor.isAdmin = true)
    (hauth : (run exec (apiUser X ctx) db).outcome = .ok actor) :
    InOrder actor db route.address (fun _ _ => True) (apiRequest X ctx route) db := by
  apply (offEstate_exact (apiUser_offEstate X ctx) (.refl db)).bind
  rintro caller after ⟨hsame, houtcome, rfl⟩
  cases hauth.symm.trans houtcome
  exact (apiHandle_shape X route).inOrder hadmin hsame

namespace EstateRequest

variable {request : EstateRequest} (error : StoreError)

theorem stoppedAt_zero : request.stoppedAt X error 0 db = db := by
  cases request <;> exact Prog.stoppedAt_eq_foldl exec error 0 _ db

theorem stoppedAt_audit {k : Nat} {entry : NewAudit} {now : Instant}
    (hcall : (request.calls X db)[k]? = some (.recordAudit entry now)) :
    request.stoppedAt X error (k + 1) db = (exec (.recordAudit entry now) (request.stoppedAt X error k db)).2 := by
  cases request <;> exact Prog.stoppedAt_succ exec hcall

/-- From one failing call to the next the request is in order. -/
theorem stoppedAt_orderly (hestate : request.OnEstate) (hactor : request.actor X db = some actor)
    (hadmin : actor.isAdmin = true) (k : Nat) :
    Orderly actor db request.address (request.stoppedAt X error k db) (request.stoppedAt X error (k + 1) db) := by
  cases request with
  | admin ctx route =>
      obtain ⟨target, htarget⟩ := Option.isSome_iff_exists.mp hestate
      simp only [EstateRequest.actor] at hactor
      split at hactor
      · rename_i sid found houtcome
        subst hactor
        have horder := adminRequest_inOrder (X := X) htarget houtcome
        rw [← htarget] at horder
        exact horder.stoppedAt_step Orderly.refl k
      · cases hactor
  | api ctx route =>
      simp only [EstateRequest.actor] at hactor
      split at hactor
      · rename_i caller houtcome
        cases hactor
        exact (apiRequest_inOrder hadmin houtcome).stoppedAt_step Orderly.refl k
      · cases hactor

/-- Wherever the store stops, other users' rows have changed only after the audit row. -/
theorem stoppedAt_audited (hestate : request.OnEstate) (hactor : request.actor X db = some actor)
    (hadmin : actor.isAdmin = true) (k : Nat) :
    (request.stoppedAt X error k db).estate actor.id = db.estate actor.id ∨
      Audited actor db request.address (request.stoppedAt X error k db) := by
  induction k with
  | zero => exact Or.inl (by rw [stoppedAt_zero error])
  | succ k ih =>
      have hstep := stoppedAt_orderly error hestate hactor hadmin k
      rcases ih with hsame | haudited
      · rcases hstep.audited with hkept | haudited
        · exact Or.inl (hkept.trans hsame)
        · exact Or.inr (haudited.mono hstep.kept)
      · exact Or.inr (haudited.mono hstep.kept)

end EstateRequest

/-- The row an audit of this request would leave is not in the log it starts from. -/
theorem not_audited_of_log {address : Option Address} {after : Db} (hlog : after.auditLog = db.auditLog) :
    ¬ Audited actor db address after := by
  rintro ⟨target, _, row, hrow, hid, _⟩
  rw [hlog] at hrow
  exact absurd (db.auditLog.below row hrow) (not_lt.mpr hid)

/-- **Audit before change.** Wherever the store starts to fail in a request of an administrator, another
user's projects, checks, channels and bindings have changed only if the audit row of the access is there;
the step that changes them starts from a state with the row; and when the audit insert is the call that
fails, they are as they were. -/
theorem audit_precedes_cross_user_change (X : Crates) (db : Db) (request : EstateRequest) (actor : User)
    (error : StoreError) (k : Nat) (hestate : request.OnEstate) (hactor : request.actor X db = some actor)
    (hadmin : actor.isAdmin = true) :
    ((request.stoppedAt X error k db).estate actor.id ≠ db.estate actor.id →
      Audited actor db request.address (request.stoppedAt X error k db)) ∧
    ((request.stoppedAt X error (k + 1) db).estate actor.id ≠ (request.stoppedAt X error k db).estate actor.id →
      Audited actor db request.address (request.stoppedAt X error k db)) ∧
    ∀ entry now, (request.calls X db)[k]? = some (.recordAudit entry now) →
      (request.stoppedAt X error k db).estate actor.id = db.estate actor.id := by
  have hstep := EstateRequest.stoppedAt_orderly error hestate hactor hadmin k
  have hstate := EstateRequest.stoppedAt_audited error hestate hactor hadmin k
  refine ⟨fun hchanged => hstate.resolve_left hchanged, fun hchanged => hstep.audited.resolve_left hchanged, ?_⟩
  intro entry now hcall
  refine hstate.resolve_right (not_audited_of_log ?_)
  refine hstep.first.resolve_left fun hlog => ?_
  rw [EstateRequest.stoppedAt_audit error hcall] at hlog
  have hrows := congrArg (fun table => table.rows.length) hlog
  simp only [recordAudit_rows, List.length_append, List.length_singleton] at hrows
  omega

end Requests

/-! ### Alice pauses Bob's check -/

def Db.aliceAdmin : Db := (exec (.setUserAdmin 1 true) .tenants).2

def adminAlice : User := ⟨1, "alice", none, true, false, 0⟩

/-- An administrator pauses another user's check; the store fails at every call in turn. -/
def alicePauses : EstateRequest := .admin WebContext.sample (.checkPause 2)

theorem audit_precedes_pause :
    (alicePauses.stoppedAt plainCrates .unavailable 5 .aliceAdmin).estate 1 ≠ Db.aliceAdmin.estate 1 ∧
    Audited adminAlice .aliceAdmin (some (.check 2)) (alicePauses.stoppedAt plainCrates .unavailable 4 .aliceAdmin) ∧
    (alicePauses.stoppedAt plainCrates .unavailable 3 .aliceAdmin).estate 1 = Db.aliceAdmin.estate 1 := by
  have hactor : alicePauses.actor plainCrates .aliceAdmin = some adminAlice := by decide +kernel
  have hestate : alicePauses.OnEstate := rfl
  have hchanged : (alicePauses.stoppedAt plainCrates .unavailable 5 .aliceAdmin).estate 1 ≠
      (alicePauses.stoppedAt plainCrates .unavailable 4 .aliceAdmin).estate 1 := by decide +kernel
  obtain ⟨_, haudited, _⟩ :=
    audit_precedes_cross_user_change plainCrates .aliceAdmin alicePauses adminAlice .unavailable 4 hestate hactor rfl
  obtain ⟨_, _, hrefused⟩ :=
    audit_precedes_cross_user_change plainCrates .aliceAdmin alicePauses adminAlice .unavailable 3 hestate hactor rfl
  exact ⟨by decide +kernel, haudited hchanged, hrefused _ _ (by decide +kernel :
    (alicePauses.calls plainCrates .aliceAdmin)[3]? = some (.recordAudit ⟨1, "alice", "admin.access", some "check",
      some 2, some 2, some "POST", some WebContext.sample.path, none⟩ WebContext.sample.now))⟩

end Pingward
