import Mathlib.Data.List.Dedup
import Pingward.RowRequest
import Pingward.ProgramMeets

/-! The bindings of checks to channels, under requests interleaved call by call. A replacement reads the
project's channels first and binds them one by one later; what carries it is that no id is handed out twice
and that neither a check nor a channel ever changes its project, so that an id once read as the project's
names a channel of the project or none. -/

open KeyedTable StoreProgram

namespace Pingward

/-! ### States over time -/

/-- A later state, as far as the projects of checks and channels go. -/
structure Db.Later (before after : Db) : Prop where
  checks : AutoTable.Later Check.projectId before.checks after.checks
  channels : AutoTable.Later Channel.projectId before.channels after.channels

theorem Db.Later.refl (db : Db) : db.Later db := ⟨.refl _, .refl _⟩

theorem Db.Later.trans {before middle after : Db} (hfirst : before.Later middle) (hsecond : middle.Later after) :
    before.Later after := ⟨hfirst.checks.trans hsecond.checks, hfirst.channels.trans hsecond.channels⟩

theorem exec_later_checks (c : StoreCall) (db : Db) :
    AutoTable.Later Check.projectId db.checks (exec c db).2.checks := by
  by_cases hwrites : .checks ∈ c.writes
  · cases c
    case createCheck new now =>
      simp only [exec, Db.createCheck]
      split
      · exact .refl _
      · split
        · exact .refl _
        · exact AutoTable.later_insert _ _ fun _ => rfl
    case regenerateUuid id uuid =>
      simp only [exec, Db.regenerateUuid]
      split
      · exact .refl _
      · exact AutoTable.later_update _ _ fun _ => rfl
    case deleteCheck id => exact AutoTable.later_deleteWhere _ _
    case deleteProject id => exact AutoTable.later_deleteWhere _ _
    case deleteUser id => exact AutoTable.later_deleteWhere _ _
    all_goals first | exact AutoTable.later_update _ _ fun _ => rfl | simp [StoreCall.writes] at hwrites
  · rw [exec_checks hwrites db]
    exact .refl _

theorem exec_later_channels (c : StoreCall) (db : Db) :
    AutoTable.Later Channel.projectId db.channels (exec c db).2.channels := by
  by_cases hwrites : .channels ∈ c.writes
  · cases c
    case createChannel new now =>
      simp only [exec, Db.createChannel]
      split
      · exact .refl _
      · simp only [commit]
        exact AutoTable.later_insert _ _ fun _ => rfl
    case deleteChannel id => exact AutoTable.later_deleteWhere _ _
    case deleteProject id => exact AutoTable.later_deleteWhere _ _
    case deleteUser id => exact AutoTable.later_deleteWhere _ _
    all_goals first | exact AutoTable.later_update _ _ fun _ => rfl | simp [StoreCall.writes] at hwrites
  · have hsame : (exec c db).2.channels = db.channels := exec_frame hwrites db
    rw [hsame]
    exact .refl _

/-- Every call leads to a later state. -/
theorem exec_later (c : StoreCall) (db : Db) : db.Later (exec c db).2 :=
  ⟨exec_later_checks c db, exec_later_channels c db⟩

/-! ### Bindings within a project -/

/-- The check and the channel of a binding exist and are of one project. -/
def Db.Binds (db : Db) (binding : Binding) : Prop :=
  ∃ check channel, db.checks.find binding.checkId = some check ∧ db.channels.find binding.channelId = some channel ∧
    check.projectId = channel.projectId

/-- Every binding is within a project. -/
def Db.Bound (db : Db) : Prop := ∀ binding ∈ db.checkChannels.rows, db.Binds binding

/-- A call other than those that bind. -/
def StoreCall.Unbinding : StoreCall → Prop
  | .bindChannel _ _ => False
  | .bindAllProjectChannels _ _ => False
  | _ => True

section Bound

variable {db after : Db}

/-- A statement that keeps the checks and the channels of the bindings it keeps. -/
theorem Db.Bound.kept (hbound : db.Bound)
    (hkept : ∀ binding ∈ after.checkChannels.rows, binding ∈ db.checkChannels.rows ∧
      (∀ check, db.checks.find binding.checkId = some check → ∃ check', after.checks.find binding.checkId = some check' ∧
        check'.projectId = check.projectId) ∧
      ∀ channel, db.channels.find binding.channelId = some channel →
        ∃ channel', after.channels.find binding.channelId = some channel' ∧ channel'.projectId = channel.projectId) :
    after.Bound := by
  intro binding hbinding
  obtain ⟨hold, hchecks, hchannels⟩ := hkept binding hbinding
  obtain ⟨check, channel, hcheck, hchannel, hproject⟩ := hbound binding hold
  obtain ⟨check', hcheck', hsame⟩ := hchecks check hcheck
  obtain ⟨channel', hchannel', hsame'⟩ := hchannels channel hchannel
  exact ⟨check', channel', hcheck', hchannel', by rw [hsame, hsame', hproject]⟩

theorem Db.Bound.updateCheck (hbound : db.Bound) {id : Int} {f : Check → Check} {hid : ∀ row, (f row).id = row.id}
    (hproject : ∀ row, (f row).projectId = row.projectId) : (db.updateCheck id f hid).Bound := by
  refine hbound.kept fun binding hbinding =>
    ⟨hbinding, fun check hcheck => ?_, fun channel hchannel => ⟨channel, hchannel, rfl⟩⟩
  by_cases hbound : binding.checkId = id
  · refine ⟨f check, ?_, hproject check⟩
    rw [← hbound]
    exact (findCheck_updateCheck_self db _ f hid).trans (by rw [Db.findCheck, hcheck, Option.map_some])
  · exact ⟨check, (findCheck_updateCheck_of_ne db hbound f hid).trans hcheck, rfl⟩

theorem Db.Bound.updateChannel (hbound : db.Bound) (id : Int) (name configJson : String) :
    (db.updateChannel id name configJson).Bound := by
  refine hbound.kept fun binding hbinding => ⟨hbinding, fun check hcheck => ⟨check, hcheck, rfl⟩, fun channel hchannel => ?_⟩
  unfold Db.updateChannel
  by_cases hid : binding.channelId = id
  · subst hid
    refine ⟨{ channel with name := name, configJson := configJson }, ?_, rfl⟩
    rw [AutoTable.update_toTable, Table.find_update_self, hchannel, Option.map_some]
  · refine ⟨channel, ?_, rfl⟩
    rw [AutoTable.update_toTable, Table.find_update_of_ne _ hid, hchannel]

/-- A row that a delete does not select. -/
theorem find_of_not_gone {ρ : Type} {key : ρ → Int} {table : AutoTable ρ key} {p : ρ → Bool} {k : Int} {row : ρ}
    (hrow : table.find k = some row) (hgone : (table.rows.any fun row => p row ∧ key row = k) = false) :
    (table.deleteWhere p).find k = some row := by
  have hkeep : p row = false := by
    rw [List.any_eq_false] at hgone
    have hnot := hgone row (table.find_mem hrow)
    simpa [table.find_key hrow] using hnot
  have hfind : (table.deleteWhere p).find k = (table.find k).filter fun row => !p row := table.find_deleteWhere p k
  rw [hfind, hrow]
  simp [hkeep]

theorem Db.Bound.deleteChecksWhere (hbound : db.Bound) (p : Check → Bool) : (db.deleteChecksWhere p).Bound := by
  refine hbound.kept fun binding hbinding => ?_
  obtain ⟨hold, hgone⟩ := List.mem_filter.mp hbinding
  refine ⟨hold, fun check hcheck => ⟨check, ?_, rfl⟩, fun channel hchannel => ⟨channel, hchannel, rfl⟩⟩
  exact find_of_not_gone hcheck (by simpa using hgone)

theorem Db.Bound.deleteChannelsWhere (hbound : db.Bound) (p : Channel → Bool) : (db.deleteChannelsWhere p).Bound := by
  refine hbound.kept fun binding hbinding => ?_
  obtain ⟨hold, hgone⟩ := List.mem_filter.mp hbinding
  refine ⟨hold, fun check hcheck => ⟨check, hcheck, rfl⟩, fun channel hchannel => ⟨channel, ?_, rfl⟩⟩
  exact find_of_not_gone hchannel (by simpa using hgone)

theorem Db.Bound.deleteProjectsWhere (hbound : db.Bound) (p : Project → Bool) : (db.deleteProjectsWhere p).Bound :=
  (hbound.deleteChecksWhere _).deleteChannelsWhere _

theorem Db.Bound.createCheck (hbound : db.Bound) (new : NewCheck) (now : Instant) :
    (exec (.createCheck new now) db).2.Bound := by
  simp only [exec, Db.createCheck]
  split
  · exact hbound
  · split
    · exact hbound
    · refine hbound.kept fun binding hbinding => ⟨hbinding, fun check hcheck => ⟨check, ?_, rfl⟩,
        fun channel hchannel => ⟨channel, hchannel, rfl⟩⟩
      apply (AutoTable.find_insert db.checks (new.row now) (fun _ => rfl) _).trans
      rw [if_neg, hcheck]
      intro heq
      rw [heq, db.checks.find_next] at hcheck
      cases hcheck

theorem Db.Bound.createChannel (hbound : db.Bound) (new : NewChannel) (now : Instant) :
    (exec (.createChannel new now) db).2.Bound := by
  simp only [exec, Db.createChannel]
  split
  · exact hbound
  · refine hbound.kept fun binding hbinding => ⟨hbinding, fun check hcheck => ⟨check, hcheck, rfl⟩,
      fun channel hchannel => ⟨channel, ?_, rfl⟩⟩
    apply (AutoTable.find_insert db.channels _ (fun _ => rfl) _).trans
    rw [if_neg, hchannel]
    intro heq
    rw [heq, db.channels.find_next] at hchannel
    cases hchannel

theorem Db.Bound.unbindChannel (hbound : db.Bound) (checkId channelId : Int) : (db.unbindChannel checkId channelId).Bound :=
  hbound.kept fun _ hbinding => ⟨(List.mem_filter.mp hbinding).1, fun check hcheck => ⟨check, hcheck, rfl⟩,
    fun channel hchannel => ⟨channel, hchannel, rfl⟩⟩

/-- **Calls that do not bind.** -/
theorem exec_bound {c : StoreCall} (hc : c.Unbinding) (hbound : db.Bound) : (exec c db).2.Bound := by
  by_cases hwrites : .checks ∈ c.writes ∨ .channels ∈ c.writes ∨ .checkChannels ∈ c.writes
  · cases c
    case bindChannel => exact hc.elim
    case bindAllProjectChannels => exact hc.elim
    case createCheck new now => exact hbound.createCheck new now
    case createChannel new now => exact hbound.createChannel new now
    case regenerateUuid id uuid =>
      simp only [exec, Db.regenerateUuid]
      split
      · exact hbound
      · exact hbound.updateCheck fun _ => rfl
    case updateChannel id name configJson => exact hbound.updateChannel id name configJson
    case deleteCheck id => exact hbound.deleteChecksWhere _
    case deleteChannel id => exact hbound.deleteChannelsWhere _
    case deleteProject id => exact hbound.deleteProjectsWhere _
    case deleteUser id => exact hbound.deleteProjectsWhere _
    case unbindChannel checkId channelId => exact hbound.unbindChannel checkId channelId
    all_goals first | exact hbound.updateCheck fun _ => rfl | simp [StoreCall.writes] at hwrites
  · rw [not_or, not_or] at hwrites
    have hchecks : (exec c db).2.checks = db.checks := exec_checks hwrites.1 db
    have hchannels : (exec c db).2.channels = db.channels := exec_frame hwrites.2.1 db
    have hbindings : (exec c db).2.checkChannels = db.checkChannels := exec_frame hwrites.2.2 db
    unfold Db.Bound Db.Binds
    rw [hchecks, hchannels, hbindings]
    exact hbound

/-! ### Calls that bind -/

/-- What is known of a check or a channel id: the project of its row, now and later. -/
def Db.CheckOf (db : Db) (checkId projectId : Int) : Prop := AutoTable.Known Check.projectId db.checks checkId projectId

def Db.ChannelOf (db : Db) (channelId projectId : Int) : Prop :=
  AutoTable.Known Channel.projectId db.channels channelId projectId

/-- A binding that is added to the others. -/
theorem Db.Bound.insert (hbound : db.Bound) {binding : Binding} {table : Table Binding Binding id}
    (hinsert : db.checkChannels.insert binding = some table) (hbinds : db.Binds binding) :
    { db with checkChannels := table }.Bound := by
  intro other hother
  have hrows : other ∈ table.rows := hother
  rw [Table.insert_rows _ hinsert] at hrows
  rcases List.mem_append.mp hrows with hold | hnew
  · exact hbound other hold
  · rw [List.mem_singleton.mp hnew]
    exact hbinds

theorem exec_bindChannel_bound {checkId channelId projectId : Int} (hcheck : db.CheckOf checkId projectId)
    (hchannel : db.ChannelOf channelId projectId) (hbound : db.Bound) :
    (exec (.bindChannel checkId channelId) db).2.Bound := by
  simp only [exec, Db.bindChannel]
  split
  · exact hbound
  · rename_i hfound
    rw [not_or] at hfound
    obtain ⟨check, hfindCheck⟩ := Option.ne_none_iff_exists'.mp (mt Option.isNone_iff_eq_none.mpr hfound.1)
    obtain ⟨channel, hfindChannel⟩ := Option.ne_none_iff_exists'.mp (mt Option.isNone_iff_eq_none.mpr hfound.2)
    split
    · exact hbound
    · rename_i table hinsert
      refine hbound.insert hinsert ⟨check, channel, hfindCheck, hfindChannel, ?_⟩
      exact (hcheck.agrees check hfindCheck).trans (hchannel.agrees channel hfindChannel).symm

theorem Db.Bound.bindAll (hbound : db.Bound) {checkId : Int} {channelIds : List Int}
    (hbinds : ∀ channelId ∈ channelIds, db.Binds ⟨checkId, channelId⟩) : (db.bindAll checkId channelIds).Bound := by
  induction channelIds generalizing db with
  | nil => exact hbound
  | cons channelId rest ih =>
      have hrest : ∀ other ∈ rest, db.Binds ⟨checkId, other⟩ := fun other hother => hbinds other (List.mem_cons_of_mem _ hother)
      unfold Db.bindAll
      split
      · exact ih hbound hrest
      · rename_i table hinsert
        exact ih (hbound.insert hinsert (hbinds channelId List.mem_cons_self)) hrest

theorem exec_bindAll_bound {checkId projectId : Int} (hcheck : db.CheckOf checkId projectId) (hbound : db.Bound) :
    (exec (.bindAllProjectChannels checkId projectId) db).2.Bound := by
  simp only [exec, Db.bindAllProjectChannels]
  split
  · exact hbound
  · rename_i hfound
    refine hbound.bindAll fun channelId hchannelId => ?_
    have hsome : ¬ (db.checks.find checkId).isNone = true := by
      intro hnone
      exact hfound ⟨List.ne_nil_of_mem hchannelId, hnone⟩
    obtain ⟨check, hfindCheck⟩ := Option.ne_none_iff_exists'.mp (mt Option.isNone_iff_eq_none.mpr hsome)
    obtain ⟨channel, hchannel, rfl⟩ := List.mem_map.mp hchannelId
    obtain ⟨hmem, hproject⟩ := List.mem_filter.mp hchannel
    refine ⟨check, channel, hfindCheck, (db.channels.find_eq_some_iff).mpr ⟨hmem, rfl⟩, ?_⟩
    rw [hcheck.agrees check hfindCheck, of_decide_eq_true hproject]

end Bound

/-! ### The guarantee -/

/-- A step of a request: to a later state, and from bindings within projects to such. -/
def BindGuarantee (before after : Db) : Prop := before.Later after ∧ (before.Bound → after.Bound)

/-- A request among others that keep the guarantee too. -/
def BindSafe {A α : Type} (Q : α → Db → Prop) (program : StoreProg A α) (db : Db) : Prop :=
  program.Meets Db.Later (answered exec) BindGuarantee Q db

section Safe

variable {A α β : Type} {db : Db}

theorem BindSafe.bind {Q : α → Db → Prop} {Q' : β → Db → Prop} {program : StoreProg A α} {rest : α → StoreProg A β}
    (hprogram : BindSafe Q program db) (hrest : ∀ value after, Q value after → BindSafe Q' (rest value) after) :
    BindSafe Q' (program.bind rest) db := Prog.Meets.bind hprogram hrest

theorem BindSafe.mono {Q Q' : α → Db → Prop} {program : StoreProg A α} (hprogram : BindSafe Q program db)
    (hpost : ∀ value after, Q value after → Q' value after) : BindSafe Q' program db :=
  Prog.Meets.mono hprogram (fun _ _ h => h) hpost

/-- A call, with what is known of its answer. -/
theorem bindSafe_perform {wrap : StoreError → A} {c : StoreCall} {Q : c.Res → Db → Prop}
    (hbound : ∀ moved, db.Later moved → moved.Bound → (exec c moved).2.Bound)
    (hpost : ∀ moved value, db.Later moved → (exec c moved).1 = .ok value → Q value (exec c moved).2) :
    BindSafe Q (Prog.perform wrap c) db := by
  apply Prog.Meets.perform
  rintro moved hmoved answer after hanswer
  have hanswer' : (exec c moved).1 = answer := congrArg Prod.fst hanswer
  have hafter : (exec c moved).2 = after := congrArg Prod.snd hanswer
  subst hanswer' hafter
  exact ⟨⟨exec_later c moved, hbound moved hmoved⟩, fun value hvalue => hpost moved value hmoved hvalue⟩

/-- A program that makes no call that binds. -/
abbrev Unbinds (program : StoreProg A α) : Prop := program.Only StoreCall.Unbinding fun _ => True

theorem bindSafe_only {program : StoreProg A α} (honly : Unbinds program) :
    BindSafe (fun _ after => db.Later after) program db := by
  refine honly.meets (I := fun after => db.Later after) ?_ (.refl db)
  rintro c before moved answer after hc hbefore hmoved hanswer
  have hafter : (exec c moved).2 = after := congrArg Prod.snd hanswer
  subst hafter
  exact ⟨⟨exec_later c moved, exec_bound hc⟩, hbefore.trans (hmoved.trans (exec_later c moved))⟩

/-! ### The parts of a request -/

theorem unbinds_auth {ctx : WebContext} {program : StoreProg A α} (honly : program.Only (AuthCall ctx) fun _ => False) :
    Unbinds program :=
  honly.mono (fun _ hauth => by cases hauth <;> trivial) fun _ hevent => hevent.elim

theorem ownedProject_unbinds (id userId : Int) : Unbinds (ownedProject id userId) := by
  refine (store_only (by trivial)).bind fun found => ?_
  split
  · trivial
  · split <;> trivial

theorem adminProject_unbinds (ctx : WebContext) (user : User) (method : String) (id : Int) :
    Unbinds (adminProject ctx user method id) := by
  refine (store_only (by trivial)).bind fun found => ?_
  split
  · trivial
  · exact (auditAccess_only fun _ => by trivial).bind fun _ => trivial

theorem resolveOwned_unbinds (ctx : ApiContext) (user : User) (method targetType : String) (targetId : Int)
    (owner : Option Int) (row : α) : Unbinds (resolveOwned ctx user method targetType targetId owner row) := by
  unfold resolveOwned
  split
  · trivial
  · split
    · exact Prog.Only.bind ((apiStore_only (by trivial)).bind fun _ => trivial) fun _ => trivial
    · trivial

theorem resolveProject_unbinds (ctx : ApiContext) (user : User) (method : String) (id : Int) :
    Unbinds (resolveProject ctx user method id) :=
  (apiStore_only (by trivial)).bind fun _ => (okOr_only _ _).bind fun _ => resolveOwned_unbinds ctx user _ _ _ _ _

theorem apiUser_unbinds (X : Crates) (ctx : ApiContext) : Unbinds (apiUser X ctx) :=
  (okOr_only _ _).bind fun _ => (apiStore_only (by trivial)).bind fun _ => (okOr_only _ _).bind fun _ =>
    (apiStore_only (by trivial)).bind fun _ => okOr_only _ _

/-- What a handler knows of the check it was asked for. -/
def ChecksOut (id : Int) (check : Check) (after : Db) : Prop := check.id = id ∧ after.CheckOf check.id check.projectId

theorem ChecksOut.later {id : Int} {check : Check} {before after : Db} (hout : ChecksOut id check before)
    (hlater : before.Later after) : ChecksOut id check after := ⟨hout.1, hout.2.later hlater.checks⟩

theorem bindSafe_findCheck {wrap : StoreError → A} (id : Int) :
    BindSafe (fun found after => ∀ check, found = some check → ChecksOut id check after)
      (Prog.perform wrap (StoreCall.findCheck id)) db := by
  refine bindSafe_perform (fun _ _ hbound => hbound) ?_
  intro moved found _ hfound check hcheck
  have hfind : moved.checks.find id = some check := (Except.ok.inj hfound).trans hcheck
  have hid : check.id = id := Table.find_key _ hfind
  refine ⟨hid, ?_⟩
  rw [hid]
  exact AutoTable.known_of_find _ hfind

theorem ownedCheck_safe (id userId : Int) : BindSafe (ChecksOut id) (ownedCheck id userId) db := by
  apply (bindSafe_findCheck id).bind
  intro found after hfound
  cases found with
  | none => trivial
  | some check =>
      apply (bindSafe_only (ownedProject_unbinds check.projectId userId)).bind
      exact fun _ _ hlater => (hfound check rfl).later hlater

theorem adminCheck_safe (ctx : WebContext) (user : User) (method : String) (id : Int) :
    BindSafe (ChecksOut id) (adminCheck ctx user method id) db := by
  apply (bindSafe_findCheck id).bind
  intro found after hfound
  cases found with
  | none => trivial
  | some check =>
      have hread : Unbinds (store (.findProject check.projectId)) := store_only (by trivial)
      refine (bindSafe_only hread).bind fun project after' hlater => ?_
      have haudit : Unbinds (auditAccess ctx user method "check" check.id (project.map Project.userId)) :=
        auditAccess_only fun _ => by trivial
      apply (bindSafe_only haudit).bind
      exact fun _ _ hlater' => (hfound check rfl).later (hlater.trans hlater')

theorem resolveOwned_safe {id : Int} {check : Check} (hout : ChecksOut id check db) (ctx : ApiContext) (user : User)
    (method : String) (owner : Option Int) :
    BindSafe (ChecksOut id) (resolveOwned ctx user method "check" check.id owner check) db := by
  unfold resolveOwned
  split
  · exact hout
  · split
    · have haudit : Unbinds (auditCrossUser ctx user method "check" check.id owner) :=
        (apiStore_only (by trivial)).bind fun _ => trivial
      exact (bindSafe_only haudit).bind fun _ _ hlater => hout.later hlater
    · trivial

theorem resolveCheck_safe (ctx : ApiContext) (user : User) (method : String) (id : Int) :
    BindSafe (ChecksOut id) (resolveCheck ctx user method id) db := by
  apply (bindSafe_findCheck id).bind
  intro found after hfound
  cases found with
  | none => trivial
  | some check =>
      have hread : Unbinds (apiStore (.findProject check.projectId)) := apiStore_only (by trivial)
      refine (bindSafe_only hread).bind fun project after' hlater => ?_
      exact resolveOwned_safe ((hfound check rfl).later hlater) ctx user method _

/-! ### Replacing the bindings of a check -/

/-- What `bind_channels` and `set_check_channels` share. -/
def replaceBindings (wrap : StoreError → A) (order : SetOrder) (checkId projectId : Int) (channelIds : List Int) :
    StoreProg A Unit := do
  let channels ← Prog.perform wrap (StoreCall.listChannelsForProject projectId)
  let current ← Prog.perform wrap (StoreCall.boundChannelIds checkId)
  let desired := (channelIds.filter fun id => (channels.map Channel.id).contains id).dedup
  forEach (fun id => Prog.perform wrap (StoreCall.bindChannel checkId id))
    (order.arrange (desired.filter fun id => !current.contains id))
  forEach (fun id => Prog.perform wrap (StoreCall.unbindChannel checkId id))
    (order.arrange (current.filter fun id => !desired.contains id))

theorem bindChannels_eq (order : SetOrder) (check : Check) (channelIds : List Int) :
    bindChannels order check channelIds = replaceBindings .db order check.id check.projectId channelIds := rfl

theorem setCheckChannels_eq (ctx : ApiContext) (user : User) (id : Int) (channelIds : List Int) :
    V1.setCheckChannels ctx user id channelIds = (resolveCheck ctx user "PUT" id).bind fun check =>
      (replaceBindings (fun _ => .internal) ctx.setOrder id check.projectId channelIds).bind fun _ =>
        (apiStore (.boundChannelIds id)).bind fun bound => .ret (.boundChannels bound) := by
  simp only [V1.setCheckChannels, replaceBindings, apiStore, Prog.bind_eq, Prog.bind_assoc, Prog.pure_eq]

theorem forEach_only {okCall : StoreCall → Prop} {okEvent : Spawned → Prop} {step : Int → StoreProg A Unit} {ids : List Int}
    (hstep : ∀ id ∈ ids, (step id).Only okCall okEvent) : (forEach step ids).Only okCall okEvent := by
  induction ids with
  | nil => trivial
  | cons id rest ih =>
      exact (hstep id List.mem_cons_self).bind fun _ => ih fun other hother => hstep other (List.mem_cons_of_mem _ hother)

/-- Binding one by one channels that were read as the project's. -/
theorem forEach_bind_safe {wrap : StoreError → A} {checkId projectId : Int} {ids : List Int}
    (hcheck : db.CheckOf checkId projectId) (hids : ∀ id ∈ ids, db.ChannelOf id projectId) :
    BindSafe (fun _ after => db.Later after)
      (forEach (fun id => Prog.perform wrap (StoreCall.bindChannel checkId id)) ids) db := by
  induction ids generalizing db with
  | nil => exact .refl db
  | cons id rest ih =>
      have hfirst : BindSafe (fun _ after => db.Later after) (Prog.perform wrap (StoreCall.bindChannel checkId id)) db := by
        refine bindSafe_perform (fun moved hmoved hbound => ?_) fun moved _ hmoved _ => hmoved.trans (exec_later _ moved)
        exact exec_bindChannel_bound (hcheck.later hmoved.checks) ((hids id List.mem_cons_self).later hmoved.channels) hbound
      refine hfirst.bind fun _ after hlater => ?_
      refine (ih (hcheck.later hlater.checks) fun other hother => ?_).mono fun _ _ hrest => hlater.trans hrest
      exact (hids other (List.mem_cons_of_mem _ hother)).later hlater.channels

theorem replaceBindings_safe {wrap : StoreError → A} {checkId projectId : Int} (hcheck : db.CheckOf checkId projectId)
    (order : SetOrder) (channelIds : List Int) :
    BindSafe (fun _ _ => True) (replaceBindings wrap order checkId projectId channelIds) db := by
  have hlist : BindSafe (fun channels after => after.CheckOf checkId projectId ∧
      ∀ channel ∈ channels, after.ChannelOf channel.id projectId)
      (Prog.perform wrap (StoreCall.listChannelsForProject projectId)) db := by
    refine bindSafe_perform (fun _ _ hbound => hbound) ?_
    intro moved channels hmoved hchannels
    refine ⟨hcheck.later hmoved.checks, fun channel hchannel => ?_⟩
    rw [← Except.ok.inj hchannels] at hchannel
    have hmem := (List.mergeSort_perm _ _).mem_iff.mp hchannel
    obtain ⟨hrow, hproject⟩ := List.mem_filter.mp hmem
    have hknown : AutoTable.Known Channel.projectId moved.channels channel.id channel.projectId :=
      AutoTable.known_of_find moved.channels ((moved.channels.find_eq_some_iff).mpr ⟨hrow, rfl⟩)
    rw [of_decide_eq_true hproject] at hknown
    exact hknown
  refine hlist.bind fun channels listed hlisted => ?_
  have hread : Unbinds (Prog.perform wrap (StoreCall.boundChannelIds checkId)) := Prog.Only.perform (by trivial)
  refine (bindSafe_only hread).bind fun current after hlater => ?_
  refine (forEach_bind_safe (hlisted.1.later hlater.checks) fun id hid => ?_).bind fun _ _ _ => ?_
  · have hadded := (order.perm _).mem_iff.mp hid
    have hdesired := List.mem_dedup.mp (List.mem_filter.mp hadded).1
    have hcontains : id ∈ channels.map Channel.id := by simpa using (List.mem_filter.mp hdesired).2
    obtain ⟨channel, hchannel, rfl⟩ := List.mem_map.mp hcontains
    exact (hlisted.2 channel hchannel).later hlater.channels
  · have hunbind : Unbinds (forEach (fun id => Prog.perform wrap (StoreCall.unbindChannel checkId id))
        (order.arrange (current.filter fun id =>
          !((channelIds.filter fun id => (channels.map Channel.id).contains id).dedup).contains id))) :=
      forEach_only fun _ _ => Prog.Only.perform (by trivial)
    exact (bindSafe_only hunbind).mono fun _ _ _ => trivial

/-! ### Handlers -/

variable {X : Crates}

/-- A new check is bound to the channels of the project it was created in. -/
theorem createCheck_bind_safe {wrap : StoreError → A} (new : NewCheck) (now : Instant) {rest : Int → StoreProg A β}
    (hrest : ∀ id, Unbinds (rest id)) :
    BindSafe (fun _ _ => True) ((Prog.perform wrap (StoreCall.createCheck new now)).bind fun id =>
      (Prog.perform wrap (StoreCall.bindAllProjectChannels id new.projectId)).bind fun _ => rest id) db := by
  have hcreate : BindSafe (fun id after => after.CheckOf id new.projectId)
      (Prog.perform wrap (StoreCall.createCheck new now)) db := by
    refine bindSafe_perform (fun _ _ hbound => exec_bound (c := .createCheck new now) trivial hbound) ?_
    intro moved id _ hid
    simp only [exec, Db.createCheck] at hid ⊢
    split at hid
    · cases hid
    · split at hid
      · cases hid
      · rename_i hproject huuid
        rw [if_neg hproject, if_neg huuid]
        obtain rfl : moved.checks.next = id := Except.ok.inj hid
        exact AutoTable.known_insert moved.checks (new.row now) fun _ => rfl
  refine hcreate.bind fun id after hknown => ?_
  have hall : BindSafe (fun _ _ => True) (Prog.perform wrap (StoreCall.bindAllProjectChannels id new.projectId)) after :=
    bindSafe_perform (fun moved hmoved hbound => exec_bindAll_bound (hknown.later hmoved.checks) hbound) fun _ _ _ _ => trivial
  exact hall.bind fun _ _ _ => (bindSafe_only (hrest id)).mono fun _ _ _ => trivial

theorem checkCreateCore_safe (ctx : WebContext) (sid : String) (user : User) (base : String) (projectId : Int)
    (form : CheckForm) : BindSafe (fun _ _ => True) (checkCreateCore X ctx sid user base projectId form) db := by
  unfold checkCreateCore
  split
  · trivial
  · exact createCheck_bind_safe _ _ fun _ => trivial

theorem channelCreateCore_unbinds (ctx : WebContext) (sid : String) (user : User) (base : String) (projectId : Int)
    (form : ChannelForm) : Unbinds (channelCreateCore X ctx sid user base projectId form) := by
  unfold channelCreateCore
  split
  · trivial
  · exact (store_only (by trivial)).bind fun _ => trivial

/-- The requests that make or end bindings, for an owner and under `/admin`. -/
inductive BindingAction where
  | checkCreate (projectId : Int) (form : CheckForm)
  | checkDelete (id : Int) (confirmed : Bool)
  | channelCreate (projectId : Int) (form : ChannelForm)
  | channelDelete (id : Int)
  | projectDelete (id : Int) (confirmed : Bool)
  | setChannels (id : Int) (channelIds : List Int)

def BindingAction.webRoute : BindingAction → WebRoute
  | .checkCreate projectId form => .checkCreate projectId form
  | .checkDelete id confirmed => .checkDelete id confirmed
  | .channelCreate projectId form => .channelCreate projectId form
  | .channelDelete id => .channelDelete id
  | .projectDelete id confirmed => .projectDelete id confirmed
  | .setChannels id channelIds => .checkSetChannels id channelIds

def BindingAction.adminRoute : BindingAction → AdminRoute
  | .checkCreate projectId form => .checkCreate projectId form
  | .checkDelete id confirmed => .checkDelete id confirmed
  | .channelCreate projectId form => .channelCreate projectId form
  | .channelDelete id => .channelDelete id
  | .projectDelete id confirmed => .projectDelete id confirmed
  | .setChannels id channelIds => .checkSetChannels id channelIds

/-- The same through `/api/v1`, a body that could not be read included. -/
inductive BindingCall where
  | createCheck (projectId : Int) (body : Except String CheckInput)
  | deleteCheck (id : Int)
  | createChannel (projectId : Int) (body : Except String ChannelForm)
  | deleteChannel (id : Int)
  | deleteProject (id : Int)
  | setCheckChannels (id : Int) (body : Except String (List Int))

def BindingCall.route : BindingCall → ApiRoute
  | .createCheck projectId body => .createCheck projectId body
  | .deleteCheck id => .deleteCheck id
  | .createChannel projectId body => .createChannel projectId body
  | .deleteChannel id => .deleteChannel id
  | .deleteProject id => .deleteProject id
  | .setCheckChannels id body => .setCheckChannels id body

/-- A handler that checks its check and then does not bind. -/
theorem bindSafe_of_check {id : Int} {program : StoreProg A Check} {rest : Check → StoreProg A β}
    (hprogram : BindSafe (ChecksOut id) program db) (hrest : ∀ check, Unbinds (rest check)) :
    BindSafe (fun _ _ => True) (program.bind rest) db :=
  hprogram.bind fun check _ _ => (bindSafe_only (hrest check)).mono fun _ _ _ => trivial

/-- A handler that does not bind. -/
theorem bindSafe_unbinds {program : StoreProg A α} (hprogram : Unbinds program) :
    BindSafe (fun _ _ => True) program db := (bindSafe_only hprogram).mono fun _ _ _ => trivial

theorem bindChannels_safe {id : Int} {check : Check} (hout : ChecksOut id check db) (order : SetOrder) (channelIds : List Int)
    (response : Response) :
    BindSafe (fun _ _ => True) ((bindChannels order check channelIds).bind fun _ => .ret response) db := by
  rw [bindChannels_eq]
  exact (replaceBindings_safe hout.2 order channelIds).bind fun _ _ _ => trivial

theorem confirmed_unbinds (confirmed : Bool) {page : Response} {c : StoreCall} (hc : c.Unbinding) {done : Response} :
    Unbinds (if !confirmed then (.ret page : StoreProg AppError Response) else (store c).bind fun _ => .ret done) := by
  cases confirmed with
  | false => trivial
  | true => exact (store_only hc).bind fun _ => trivial

theorem webHandle_safe (ctx : WebContext) (sid : String) (user : User) (action : BindingAction) :
    BindSafe (fun _ _ => True) (webHandle X ctx sid user action.webRoute) db := by
  cases action with
  | checkCreate projectId form =>
      exact (bindSafe_only (ownedProject_unbinds projectId user.id)).bind fun _ _ _ =>
        checkCreateCore_safe ctx sid user "" projectId form
  | checkDelete id confirmed =>
      exact bindSafe_of_check (ownedCheck_safe id user.id) fun check => confirmed_unbinds confirmed (by trivial)
  | channelCreate projectId form =>
      exact bindSafe_unbinds ((ownedProject_unbinds projectId user.id).bind fun _ =>
        channelCreateCore_unbinds ctx sid user "" projectId form)
  | channelDelete id =>
      refine bindSafe_unbinds (Prog.Only.bind ?_ fun channel => (store_only (by trivial)).bind fun _ => trivial)
      refine (store_only (by trivial)).bind fun found => ?_
      split
      · trivial
      · exact (ownedProject_unbinds _ user.id).bind fun _ => trivial
  | projectDelete id confirmed =>
      exact bindSafe_unbinds ((ownedProject_unbinds id user.id).bind fun _ => confirmed_unbinds confirmed (by trivial))
  | setChannels id channelIds =>
      exact (ownedCheck_safe id user.id).bind fun check _ hout => bindChannels_safe hout ctx.setOrder channelIds _

theorem adminHandle_safe (ctx : WebContext) (sid : String) (user : User) (action : BindingAction) :
    BindSafe (fun _ _ => True) (adminHandle X ctx sid user action.adminRoute) db := by
  cases action with
  | checkCreate projectId form =>
      exact (bindSafe_only (adminProject_unbinds ctx user "POST" projectId)).bind fun _ _ _ =>
        checkCreateCore_safe ctx sid user "/admin" projectId form
  | checkDelete id confirmed =>
      exact bindSafe_of_check (adminCheck_safe ctx user "POST" id) fun check => confirmed_unbinds confirmed (by trivial)
  | channelCreate projectId form =>
      exact bindSafe_unbinds ((adminProject_unbinds ctx user "POST" projectId).bind fun _ =>
        channelCreateCore_unbinds ctx sid user "/admin" projectId form)
  | channelDelete id =>
      refine bindSafe_unbinds (Prog.Only.bind ?_ fun channel => (store_only (by trivial)).bind fun _ => trivial)
      refine (store_only (by trivial)).bind fun found => ?_
      split
      · trivial
      · exact (store_only (by trivial)).bind fun _ => (auditAccess_only fun _ => by trivial).bind fun _ => trivial
  | projectDelete id confirmed =>
      exact bindSafe_unbinds ((adminProject_unbinds ctx user "POST" id).bind fun _ => confirmed_unbinds confirmed (by trivial))
  | setChannels id channelIds =>
      exact (adminCheck_safe ctx user "POST" id).bind fun check _ hout => bindChannels_safe hout ctx.setOrder channelIds _

theorem apiHandle_safe (ctx : ApiContext) (user : User) (call : BindingCall) :
    BindSafe (fun _ _ => True) (apiHandle X ctx user call.route) db := by
  cases call with
  | createCheck projectId body =>
      refine (bindSafe_only (orBadRequest_only body)).bind fun input _ _ => ?_
      refine (bindSafe_only (resolveProject_unbinds ctx user "POST" projectId)).bind fun _ _ _ => ?_
      refine (bindSafe_only (orBadRequest_only _)).bind fun fields _ _ => ?_
      exact createCheck_bind_safe _ _ fun _ =>
        (apiStore_only (by trivial)).bind fun _ => (okOr_only _ _).bind fun _ => trivial
  | deleteCheck id =>
      exact bindSafe_of_check (resolveCheck_safe ctx user "DELETE" id) fun _ =>
        (apiStore_only (by trivial)).bind fun _ => trivial
  | createChannel projectId body =>
      refine bindSafe_unbinds ((orBadRequest_only body).bind fun form => ?_)
      refine (resolveProject_unbinds ctx user "POST" projectId).bind fun _ => (orBadRequest_only _).bind fun fields => ?_
      exact (apiStore_only (by trivial)).bind fun _ => (apiStore_only (by trivial)).bind fun _ =>
        (okOr_only _ _).bind fun _ => trivial
  | deleteChannel id =>
      refine bindSafe_unbinds (Prog.Only.bind ?_ fun _ => (apiStore_only (by trivial)).bind fun _ => trivial)
      exact (apiStore_only (by trivial)).bind fun _ => (okOr_only _ _).bind fun _ =>
        (apiStore_only (by trivial)).bind fun _ => resolveOwned_unbinds ctx user _ _ _ _ _
  | deleteProject id =>
      exact bindSafe_unbinds ((resolveProject_unbinds ctx user "DELETE" id).bind fun _ =>
        (apiStore_only (by trivial)).bind fun _ => trivial)
  | setCheckChannels id body =>
      refine (bindSafe_only (orBadRequest_only body)).bind fun channelIds _ _ => ?_
      rw [setCheckChannels_eq]
      refine (resolveCheck_safe ctx user "PUT" id).bind fun check after hout => ?_
      have hcheck : after.CheckOf id check.projectId := hout.1 ▸ hout.2
      refine (replaceBindings_safe hcheck ctx.setOrder channelIds).bind fun _ _ _ => ?_
      exact bindSafe_unbinds ((apiStore_only (by trivial)).bind fun _ => trivial)

end Safe

/-! ### Interleavings -/

/-- A request with what it carries. -/
inductive BindingRequest where
  | web (ctx : WebContext) (action : BindingAction)
  | admin (ctx : WebContext) (action : BindingAction)
  | api (ctx : ApiContext) (call : BindingCall)

def BindingRequest.program (X : Crates) : BindingRequest → StoreProg Unit Unit
  | .web ctx action => (webRequest X ctx action.webRoute).erase
  | .admin ctx action => (adminRequest X ctx action.adminRoute).erase
  | .api ctx call => (apiRequest X ctx call.route).erase

theorem BindingRequest.program_safe (X : Crates) (request : BindingRequest) (db : Db) :
    BindSafe (fun _ _ => True) (request.program X) db := by
  cases request with
  | web ctx action =>
      refine Prog.Meets.erase (Q := fun _ _ => True) ?_
      refine (bindSafe_only (unbinds_auth (requestSession_only ctx))).bind fun sid _ _ => ?_
      split
      · trivial
      · have hhandle (user : User) (after : Db) :
            BindSafe (fun _ _ => True) (webHandle X ctx sid user action.webRoute) after :=
          webHandle_safe ctx sid user action
        have hauth := unbinds_auth (resolveUser_only ctx sid)
        cases action <;>
        · refine (bindSafe_only hauth).bind fun found after _ => ?_
          cases found with
          | none => trivial
          | some user => exact hhandle user after
  | admin ctx action =>
      refine Prog.Meets.erase (Q := fun _ _ => True) ?_
      refine (bindSafe_only (unbinds_auth (requestSession_only ctx))).bind fun sid _ _ => ?_
      split
      · trivial
      · refine (bindSafe_only (unbinds_auth (resolveUser_only ctx sid))).bind fun found after _ => ?_
        cases found with
        | none => trivial
        | some user =>
            dsimp only
            split
            · exact adminHandle_safe ctx sid user action
            · trivial
  | api ctx call =>
      refine Prog.Meets.erase (Q := fun _ _ => True) ?_
      exact (bindSafe_only (apiUser_unbinds X ctx)).bind fun user _ _ => apiHandle_safe ctx user call

/-- **Bindings stay within a project** in every interleaving of such requests. -/
theorem bindings_bound {ι : Type} [DecidableEq ι] (X : Crates) (requests : ι → BindingRequest) {start : Db}
    (hstart : start.Bound) {cfg : Config ι StoreCall StoreCall.Res StoreError Spawned Unit Unit Db}
    (hreach : Reach exec (fun _ _ => True) (.init (fun i => (requests i).program X) start) cfg) : cfg.state.Bound := by
  have hpool : ∀ i, ((requests i).program X).Meets Db.Later (answered exec) BindGuarantee (fun _ _ => True) start :=
    fun i => (requests i).program_safe X start
  refine (Prog.Meets.reach hreach ?_ ?_ hpool Db.Later.refl ?_ hstart).2
  · exact fun _ _ _ => Db.Later.trans
  · exact fun _ _ hguar => hguar.1
  · exact fun _ _ hguar => hguar.2

/-! ### A replacement alone -/

/-- The bindings after a replacement: the check's are the submitted ids that are channels of its project, and
those of other checks are what they were. -/
def Replaced (before after : Db) (check : Check) (channelIds : List Int) : Prop :=
  ∀ binding, binding ∈ after.checkChannels.rows ↔
    if binding.checkId = check.id then
      binding.channelId ∈ channelIds ∧
        ∃ channel, before.channels.find binding.channelId = some channel ∧ channel.projectId = check.projectId
    else binding ∈ before.checkChannels.rows

section Alone

variable {A : Type} {wrap : StoreError → A} {db : Db} {checkId : Int} {ids : List Int}

theorem mem_bindAll (binding : Binding) :
    binding ∈ (db.bindAll checkId ids).checkChannels.rows ↔
      binding ∈ db.checkChannels.rows ∨ binding.checkId = checkId ∧ binding.channelId ∈ ids := by
  induction ids generalizing db with
  | nil => simp [Db.bindAll]
  | cons id rest ih =>
      have heq : binding = ⟨checkId, id⟩ ↔ binding.checkId = checkId ∧ binding.channelId = id := by
        cases binding
        simp
      unfold Db.bindAll
      split
      · rename_i hinsert
        have hmem : (⟨checkId, id⟩ : Binding) ∈ db.checkChannels.rows := by
          have hsome := (db.checkChannels.insert_eq_none_iff).mp hinsert
          obtain ⟨row, hrow⟩ := Option.isSome_iff_exists.mp hsome
          obtain rfl : row = ⟨checkId, id⟩ := Table.find_key _ hrow
          exact Table.find_mem _ hrow
        rw [ih, List.mem_cons, and_or_left, ← heq, ← or_assoc]
        constructor
        · rintro (hold | hrest)
          · exact Or.inl (Or.inl hold)
          · exact Or.inr hrest
        · rintro ((hold | rfl) | hrest)
          · exact Or.inl hold
          · exact Or.inl hmem
          · exact Or.inr hrest
      · rename_i table hinsert
        rw [ih, List.mem_cons, and_or_left, ← heq, ← or_assoc]
        show binding ∈ table.rows ∨ _ ↔ _
        rw [Table.insert_rows _ hinsert, List.mem_append, List.mem_singleton]

theorem run_forEach_bind (hcheck : (db.checks.find checkId).isNone = false)
    (hids : ∀ id ∈ ids, (db.channels.find id).isNone = false) :
    run exec (forEach (fun id => Prog.perform wrap (StoreCall.bindChannel checkId id)) ids) db =
      ⟨.ok (), db.bindAll checkId ids, []⟩ := by
  induction ids generalizing db with
  | nil => rfl
  | cons id rest ih =>
      have hid := hids id List.mem_cons_self
      have hrest : ∀ other ∈ rest, (db.channels.find other).isNone = false :=
        fun other hother => hids other (List.mem_cons_of_mem _ hother)
      have hexec : exec (.bindChannel checkId id) db = (.ok (), db.bindAll checkId [id]) := by
        simp only [exec, Db.bindChannel, hcheck, hid, Bool.false_eq_true, or_self, if_false, Db.bindAll]
        cases db.checkChannels.insert ⟨checkId, id⟩ <;> rfl
      have hok : (exec (.bindChannel checkId id) db).1 = .ok () := by rw [hexec]
      have hbody : forEach (fun id => Prog.perform wrap (StoreCall.bindChannel checkId id)) (id :: rest) =
          (Prog.perform wrap (StoreCall.bindChannel checkId id)).bind fun _ =>
            forEach (fun id => Prog.perform wrap (StoreCall.bindChannel checkId id)) rest := rfl
      rw [hbody, run_perform_bind exec hok, hexec]
      simp only [Db.bindAll]
      cases db.checkChannels.insert ⟨checkId, id⟩ with
      | none => exact ih hcheck hrest
      | some table => exact ih hcheck hrest

theorem run_forEach_unbind :
    ∃ after, run exec (forEach (fun id => Prog.perform wrap (StoreCall.unbindChannel checkId id)) ids) db =
        ⟨.ok (), after, []⟩ ∧
      ∀ binding, binding ∈ after.checkChannels.rows ↔
        binding ∈ db.checkChannels.rows ∧ ¬ (binding.checkId = checkId ∧ binding.channelId ∈ ids) := by
  induction ids generalizing db with
  | nil => exact ⟨db, rfl, by simp⟩
  | cons id rest ih =>
      obtain ⟨after, hrun, hmem⟩ := @ih (db.unbindChannel checkId id)
      refine ⟨after, ?_, ?_⟩
      · have hbody : forEach (fun id => Prog.perform wrap (StoreCall.unbindChannel checkId id)) (id :: rest) =
            (Prog.perform wrap (StoreCall.unbindChannel checkId id)).bind fun _ =>
              forEach (fun id => Prog.perform wrap (StoreCall.unbindChannel checkId id)) rest := rfl
        have hok : (exec (.unbindChannel checkId id) db).1 = .ok () := rfl
        rw [hbody, run_perform_bind exec hok]
        exact hrun
      · intro binding
        rw [hmem, Db.unbindChannel]
        simp only [Table.deleteWhere_rows, List.mem_filter, List.mem_cons]
        simp only [Bool.not_eq_true', decide_eq_false_iff_not]
        tauto

theorem mem_boundChannelIds {id : Int} : id ∈ db.boundChannelIds checkId ↔ ⟨checkId, id⟩ ∈ db.checkChannels.rows := by
  have hsorted : id ∈ db.boundChannelIds checkId ↔
      id ∈ (db.checkChannels.rows.filter fun row => row.checkId = checkId).map Binding.channelId :=
    (List.mergeSort_perm _ _).mem_iff
  rw [hsorted, List.mem_map]
  constructor
  · rintro ⟨binding, hbinding, rfl⟩
    obtain ⟨hmem, hcheck⟩ := List.mem_filter.mp hbinding
    rw [← of_decide_eq_true hcheck]
    exact hmem
  · intro hmem
    exact ⟨_, List.mem_filter.mpr ⟨hmem, decide_eq_true rfl⟩, rfl⟩

theorem mem_listChannelsForProject {projectId id : Int} :
    id ∈ (db.listChannelsForProject projectId).map Channel.id ↔
      ∃ channel, db.channels.find id = some channel ∧ channel.projectId = projectId := by
  have hsorted (channel : Channel) : channel ∈ db.listChannelsForProject projectId ↔
      channel ∈ db.channels.rows.filter fun row => row.projectId = projectId := (List.mergeSort_perm _ _).mem_iff
  simp only [List.mem_map, hsorted, List.mem_filter, decide_eq_true_eq, Table.find_eq_some_iff]
  constructor
  · rintro ⟨channel, ⟨hmem, hproject⟩, rfl⟩
    exact ⟨channel, ⟨hmem, rfl⟩, hproject⟩
  · rintro ⟨channel, ⟨hmem, hid⟩, hproject⟩
    exact ⟨channel, ⟨hmem, hproject⟩, hid⟩

/-- **A replacement alone** succeeds and leaves what was asked for. -/
theorem replaceBindings_alone (wrap : StoreError → A) (order : SetOrder) {check : Check}
    (hcheck : db.findCheck check.id = some check) (channelIds : List Int) :
    ∃ after, run exec (replaceBindings wrap order check.id check.projectId channelIds) db = ⟨.ok (), after, []⟩ ∧
      Replaced db after check channelIds := by
  let desired := (channelIds.filter fun id => ((db.listChannelsForProject check.projectId).map Channel.id).contains id).dedup
  let current := db.boundChannelIds check.id
  have hdesired (id : Int) : id ∈ desired ↔ id ∈ channelIds ∧
      ∃ channel, db.channels.find id = some channel ∧ channel.projectId = check.projectId := by
    rw [List.mem_dedup, List.mem_filter, List.contains_iff_mem, mem_listChannelsForProject]
  let adds := order.arrange (desired.filter fun id => !current.contains id)
  let removals := order.arrange (current.filter fun id => !desired.contains id)
  have hadds (id : Int) : id ∈ adds ↔ id ∈ desired ∧ id ∉ current := by
    rw [(order.perm _).mem_iff, List.mem_filter, Bool.not_eq_true', List.contains_eq_mem, decide_eq_false_iff_not]
  have hremovals (id : Int) : id ∈ removals ↔ id ∈ current ∧ id ∉ desired := by
    rw [(order.perm _).mem_iff, List.mem_filter, Bool.not_eq_true', List.contains_eq_mem, decide_eq_false_iff_not]
  have hadd : run exec (forEach (fun id => Prog.perform wrap (StoreCall.bindChannel check.id id)) adds) db =
      ⟨.ok (), db.bindAll check.id adds, []⟩ := by
    refine run_forEach_bind ?_ fun id hid => ?_
    · rw [show db.checks.find check.id = some check from hcheck]
      rfl
    · obtain ⟨_, channel, hchannel, _⟩ := (hdesired id).mp ((hadds id).mp hid).1
      rw [hchannel]
      rfl
  obtain ⟨after, hremove, hmem⟩ := @run_forEach_unbind A wrap (db.bindAll check.id adds) check.id removals
  refine ⟨after, ?_, ?_⟩
  · have hbody : run exec (replaceBindings wrap order check.id check.projectId channelIds) db =
        run exec ((forEach (fun id => Prog.perform wrap (StoreCall.bindChannel check.id id)) adds).bind fun _ =>
          forEach (fun id => Prog.perform wrap (StoreCall.unbindChannel check.id id)) removals) db := rfl
    rw [hbody, run_bind, hadd, Ran.andThen]
    simp only [hremove, List.append_nil]
  · intro binding
    have hcurrent (hid : binding.checkId = check.id) : binding.channelId ∈ current ↔ binding ∈ db.checkChannels.rows := by
      rw [mem_boundChannelIds, ← hid]
    rw [hmem, mem_bindAll, hadds, hremovals]
    split
    · rename_i hid
      rw [← hdesired, hcurrent hid]
      tauto
    · rename_i hid
      tauto

/-- Looking a check up for the API leaves checks, channels and bindings alone. -/
theorem resolveCheck_leaves (ctx : ApiContext) (user : User) (method : String) (id : Int) (db : Db) :
    (run exec (resolveCheck ctx user method id) db).state.checks = db.checks ∧
      (run exec (resolveCheck ctx user method id) db).state.channels = db.channels ∧
      (run exec (resolveCheck ctx user method id) db).state.checkChannels = db.checkChannels := by
  have honly : (resolveCheck ctx user method id).Only
      (fun c => .checks ∉ c.writes ∧ .channels ∉ c.writes ∧ .checkChannels ∉ c.writes) fun _ => True := by
    refine (apiStore_only (by simp [StoreCall.writes])).bind fun found => (okOr_only _ _).bind fun check =>
      (apiStore_only (by simp [StoreCall.writes])).bind fun project => ?_
    unfold resolveOwned
    split
    · trivial
    · split
      · exact Prog.Only.bind ((apiStore_only (by simp [StoreCall.writes])).bind fun _ => trivial) fun _ => trivial
      · trivial
  refine honly.run_rel exec (fun before after => after.checks = before.checks ∧ after.channels = before.channels ∧
    after.checkChannels = before.checkChannels) (fun _ => ⟨rfl, rfl, rfl⟩) ?_ ?_ db
  · rintro a b c ⟨h1, h2, h3⟩ ⟨h4, h5, h6⟩
    exact ⟨h4.trans h1, h5.trans h2, h6.trans h3⟩
  · rintro c ⟨hchecks, hchannels, hbindings⟩ before
    exact ⟨exec_frame hchecks before, exec_frame hchannels before, exec_frame hbindings before⟩

/-- The same through the API, for a caller that may. -/
theorem setCheckChannels_alone {ctx : ApiContext} {user : User} {check : Check}
    (hcheck : db.findCheck check.id = some check)
    (hmay : (run exec (resolveCheck ctx user "PUT" check.id) db).outcome = .ok check) (channelIds : List Int) :
    Replaced db (run exec (V1.setCheckChannels ctx user check.id channelIds) db).state check channelIds ∧
      (run exec (V1.setCheckChannels ctx user check.id channelIds) db).outcome = .ok (.boundChannels
        ((run exec (V1.setCheckChannels ctx user check.id channelIds) db).state.boundChannelIds check.id)) := by
  obtain ⟨hchecks, hchannels, hbindings⟩ := resolveCheck_leaves ctx user "PUT" check.id db
  have hfind : (run exec (resolveCheck ctx user "PUT" check.id) db).state.findCheck check.id = some check := by
    rw [Db.findCheck, hchecks]
    exact hcheck
  obtain ⟨after, hreplace, hreplaced⟩ := replaceBindings_alone (fun _ => ApiError.internal) ctx.setOrder hfind channelIds
  have hrun : run exec (V1.setCheckChannels ctx user check.id channelIds) db =
      ⟨.ok (.boundChannels (after.boundChannelIds check.id)), after,
        (run exec (resolveCheck ctx user "PUT" check.id) db).events⟩ := by
    have hlist : run exec ((apiStore (.boundChannelIds check.id)).bind fun bound =>
        .ret (ApiResponse.boundChannels bound)) after =
          ⟨.ok (.boundChannels (after.boundChannelIds check.id)), after, []⟩ := rfl
    rw [setCheckChannels_eq, run_bind_of_ok exec hmay, run_bind, hreplace]
    simp only [Ran.andThen, hlist, List.append_nil]
  rw [hrun]
  refine ⟨?_, rfl⟩
  intro binding
  rw [hreplaced binding, hchannels, hbindings]

end Alone

/-- **Channel bindings.** In every interleaving of requests that create or delete checks, channels and projects or
replace bindings, every binding has its check and its channel, of one project. And a replacement that runs
alone leaves the check bound to exactly the submitted channels of its project and the others as they were,
through the web as through the API. -/
theorem channel_bindings (X : Crates) :
    (∀ (ι : Type) [DecidableEq ι] (requests : ι → BindingRequest) (start : Db), start.Bound →
      ∀ cfg, Reach exec (fun _ _ => True) (.init (fun i => (requests i).program X) start) cfg → cfg.state.Bound) ∧
    ∀ (db : Db) (order : SetOrder) (check : Check) (channelIds : List Int), db.findCheck check.id = some check →
      ((run exec (bindChannels order check channelIds) db).outcome = .ok () ∧
        Replaced db (run exec (bindChannels order check channelIds) db).state check channelIds) ∧
      ∀ ctx user, (run exec (resolveCheck ctx user "PUT" check.id) db).outcome = .ok check →
        Replaced db (run exec (V1.setCheckChannels ctx user check.id channelIds) db).state check channelIds ∧
        ∀ binding, binding ∈ (run exec (V1.setCheckChannels ctx user check.id channelIds) db).state.checkChannels.rows ↔
          binding ∈ (run exec (bindChannels order check channelIds) db).state.checkChannels.rows := by
  refine ⟨fun ι _ requests start hstart cfg hreach => bindings_bound X requests hstart hreach, ?_⟩
  intro db order check channelIds hcheck
  obtain ⟨after, hrun, hreplaced⟩ := replaceBindings_alone AppError.db order hcheck channelIds
  rw [bindChannels_eq, hrun]
  refine ⟨⟨rfl, hreplaced⟩, fun ctx user hmay => ?_⟩
  have hapi := (setCheckChannels_alone hcheck hmay channelIds).1
  exact ⟨hapi, fun binding => (hapi binding).trans (hreplaced binding).symm⟩

/-! ### Two users with channels -/

/-- The sample with two channels in its project, the first of them bound, and another user's project with a third. -/
def Db.withChannels : Db :=
  [StoreCall.createChannel ⟨1, .webhook, "ops", "a"⟩ 0, .createChannel ⟨1, .webhook, "dev", "b"⟩ 0,
    .createUser "bob" none false 0, .createProject 2 ⟨"hers", "", none, none⟩ 0,
    .createChannel ⟨2, .webhook, "hers", "c"⟩ 0, .bindChannel 1 1].foldl (fun db c => (exec c db).2) .sample

/-- A replacement beside a deletion of one of the channels it asks for. -/
def replaceAndDelete : Bool → BindingRequest
  | false => .web WebContext.sample (.setChannels 1 [2, 2, 3, 99])
  | true => .web WebContext.sample (.channelDelete 2)

def backupCheck : Check := NewCheck.row ⟨1, "backup", "", "u1", .period, some 60, 0, none, "UTC", none, none, none⟩ 0 1

/-- The duplicate, the other user's channel and the unknown id come to nothing. -/
theorem channel_bindings_sample :
    (∀ cfg, Reach exec (fun _ _ => True) (.init (fun i => (replaceAndDelete i).program plainCrates) .withChannels) cfg →
      cfg.state.Bound) ∧
    (⟨1, 2⟩ : Binding) ∈
      (run exec (V1.setCheckChannels ⟨0, none, "", "", .asListed⟩ ⟨1, "alice", none, false, false, 0⟩ 1 [2, 2, 3, 99])
        .withChannels).state.checkChannels.rows := by
  obtain ⟨hbound, halone⟩ := channel_bindings plainCrates
  have hstart : Db.withChannels.Bound := by
    intro binding hbinding
    have hrows : Db.withChannels.checkChannels.rows = [⟨1, 1⟩] := by decide +kernel
    rw [hrows, List.mem_singleton] at hbinding
    subst hbinding
    exact ⟨backupCheck, ⟨1, 1, .webhook, "ops", "a", 0⟩, by decide +kernel, by decide +kernel, rfl⟩
  refine ⟨hbound Bool replaceAndDelete _ hstart, ?_⟩
  have hreplaced := (halone .withChannels .asListed backupCheck [2, 2, 3, 99] (by decide +kernel)).2
    ⟨0, none, "", "", .asListed⟩
    ⟨1, "alice", none, false, false, 0⟩ (by decide +kernel)
  exact (hreplaced.1 ⟨1, 2⟩).mpr ⟨by decide, ⟨2, 1, .webhook, "dev", "b", 0⟩, by decide +kernel, rfl⟩

end Pingward
