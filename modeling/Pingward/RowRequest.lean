import Pingward.RowPing
import Pingward.RowPass

/-! Requests on a check through the web, `/admin` and `/api/v1`. Such a request makes at most one call
that touches a check. The last theorem collects what every operation of a run comes to. -/

open KeyedTable StoreProgram

namespace Pingward

/-- A call that leaves the checks alone and no entry in the log. -/
def Quiet (c : StoreCall) : Prop := .checks ∉ c.writes ∧ callEntry c = none

theorem AuthCall.quiet {ctx : WebContext} {c : StoreCall} (hauth : AuthCall ctx c) : Quiet c := by
  cases hauth <;> exact ⟨by simp [StoreCall.writes], rfl⟩

theorem ownedProject_quiet (id userId : Int) : (ownedProject id userId).Only Quiet fun _ => False := by
  refine (store_only ⟨by simp [StoreCall.writes], rfl⟩).bind fun found => ?_
  split
  · trivial
  · split <;> trivial

theorem ownedCheck_quiet (id userId : Int) : (ownedCheck id userId).Only Quiet fun _ => False := by
  refine (store_only ⟨by simp [StoreCall.writes], rfl⟩).bind fun found => ?_
  split
  · trivial
  · exact (ownedProject_quiet _ userId).bind fun _ => trivial

theorem adminCheck_quiet (ctx : WebContext) (user : User) (method : String) (id : Int) :
    (adminCheck ctx user method id).Only Quiet fun _ => False := by
  refine (store_only ⟨by simp [StoreCall.writes], rfl⟩).bind fun found => ?_
  split
  · trivial
  · refine (store_only ⟨by simp [StoreCall.writes], rfl⟩).bind fun project => ?_
    exact (auditAccess_only fun _ => ⟨by simp [StoreCall.writes], rfl⟩).bind fun _ => trivial

theorem apiUser_quiet (X : Crates) (ctx : ApiContext) : (apiUser X ctx).Only Quiet fun _ => False :=
  (okOr_only _ _).bind fun token => (apiStore_only ⟨by simp [StoreCall.writes], rfl⟩).bind fun found =>
    (okOr_only _ _).bind fun userId => (apiStore_only ⟨by simp [StoreCall.writes], rfl⟩).bind fun row => okOr_only _ _

theorem resolveCheck_quiet (ctx : ApiContext) (user : User) (method : String) (id : Int) :
    (resolveCheck ctx user method id).Only Quiet fun _ => False := by
  refine (apiStore_only ⟨by simp [StoreCall.writes], rfl⟩).bind fun found => (okOr_only _ _).bind fun check =>
    (apiStore_only ⟨by simp [StoreCall.writes], rfl⟩).bind fun project => ?_
  unfold resolveOwned
  split
  · trivial
  · split
    · refine Prog.Only.bind ?_ fun _ => trivial
      exact (apiStore_only ⟨by simp [StoreCall.writes], rfl⟩).bind fun _ => trivial
    · trivial

theorem reloadCheck_quiet (id : Int) : (V1.reloadCheck id).Only Quiet fun _ => False :=
  (apiStore_only ⟨by simp [StoreCall.writes], rfl⟩).bind fun found => (okOr_only _ _).bind fun _ => trivial

/-- The input a call on a check is for the row it names. -/
def callInput : StoreCall → Option (Int × RowInput)
  | .setStatus id .paused => some (id, .pause)
  | .setStatus id .new => some (id, .resume)
  | .acknowledge id => some (id, .acknowledge)
  | .updateCheckSchedule id fields => some (id, .edit fields)
  | _ => none

/-- The calls `callInput` knows. -/
theorem callInput_cases {c : StoreCall} {id : Int} {input : RowInput} (hinput : callInput c = some (id, input)) :
    c = .setStatus id .paused ∧ input = .pause ∨ c = .setStatus id .new ∧ input = .resume ∨
      c = .acknowledge id ∧ input = .acknowledge ∨
      ∃ fields, c = .updateCheckSchedule id fields ∧ input = .edit fields := by
  unfold callInput at hinput
  split at hinput <;> simp_all

theorem callInput_entries (X : Crates) {c : StoreCall} {id : Int} {input : RowInput}
    (hinput : callInput c = some (id, input)) (check : Check) :
    (callEntry c).toList = (input.items X check).map fun item => (id, item) := by
  rcases callInput_cases hinput with ⟨rfl, rfl⟩ | ⟨rfl, rfl⟩ | ⟨rfl, rfl⟩ | ⟨fields, rfl, rfl⟩ <;> rfl

theorem exec_callInput (X : Crates) {c : StoreCall} {id : Int} {input : RowInput}
    (hinput : callInput c = some (id, input)) (db : Db) (cid : Int) :
    (exec c db).2.findCheck cid = if cid = id then (db.findCheck cid).map (input.row X) else db.findCheck cid := by
  by_cases hid : cid = id
  · rw [if_pos hid]
    subst hid
    rcases callInput_cases hinput with ⟨rfl, rfl⟩ | ⟨rfl, rfl⟩ | ⟨rfl, rfl⟩ | ⟨fields, rfl, rfl⟩ <;>
      exact findCheck_updateCheck_self db cid _ _
  · rw [if_neg hid]
    rcases callInput_cases hinput with ⟨rfl, rfl⟩ | ⟨rfl, rfl⟩ | ⟨rfl, rfl⟩ | ⟨fields, rfl, rfl⟩ <;>
      exact findCheck_updateCheck_of_ne db hid _ _

theorem foldl_quiet {queries : List StoreCall} (hquiet : ∀ c ∈ queries, Quiet c) (db : Db) :
    (queries.foldl (fun db c => (exec c db).2) db).checks = db.checks := by
  induction queries generalizing db with
  | nil => rfl
  | cons c rest ih =>
      rw [List.foldl_cons, ih fun other hother => hquiet other (List.mem_cons_of_mem _ hother)]
      exact exec_checks (hquiet c (List.mem_cons_self ..)).1 db

theorem findCheck_foldl_quiet {queries : List StoreCall} (hquiet : ∀ c ∈ queries, Quiet c) (db : Db) (cid : Int) :
    (queries.foldl (fun db c => (exec c db).2) db).findCheck cid = db.findCheck cid :=
  congrArg (fun table : AutoTable Check Check.id => table.find cid) (foldl_quiet hquiet db)

theorem filterMap_quiet {queries : List StoreCall} (hquiet : ∀ c ∈ queries, Quiet c) :
    queries.filterMap callEntry = [] := by
  rw [List.filterMap_eq_nil_iff]
  exact fun c hc => (hquiet c hc).2

theorem quiet_refines {A α : Type} (X : Crates) {program : StoreProg A α} {cid : Int} {db : Db} {check : Check}
    (honly : program.Only Quiet fun _ => False) (hrow : db.findCheck cid = some check) :
    (run exec program.erase db).state.findCheck cid = some (RowInput.idle.row X check) ∧
      Log.of ((calls exec program.erase db).filterMap callEntry ++
        (run exec program.erase db).events.map eventEntry).reverse cid = RowInput.idle.items X check := by
  have hquiet := honly.erase.calls exec db
  have hevents : (run exec program.erase db).events = [] :=
    List.eq_nil_iff_forall_not_mem.mpr (honly.erase.events exec db)
  refine ⟨?_, ?_⟩
  · rw [run_state_eq_foldl exec program.erase db, findCheck_foldl_quiet hquiet]
    exact hrow
  · rw [hevents, filterMap_quiet hquiet]
    rfl

/-- A request that makes at most one call on a check comes to that call, or to nothing. -/
theorem once_refines {A α : Type} (X : Crates) {program : StoreProg A α} {special : StoreCall} {id cid : Int}
    {input : RowInput} {db : Db} {check : Check} (honce : program.Once Quiet special)
    (hinput : callInput special = some (id, input)) (hrow : db.findCheck cid = some check) :
    ∃ input', (input' = .idle ∨ cid = id ∧ input' = input ∧ special ∈ calls exec program.erase db) ∧
      (run exec program.erase db).state.findCheck cid = some (input'.row X check) ∧
      Log.of ((calls exec program.erase db).filterMap callEntry ++
        (run exec program.erase db).events.map eventEntry).reverse cid = input'.items X check := by
  have hevents : (run exec program.erase db).events = [] := honce.erase.events exec db
  have hstate := run_state_eq_foldl exec program.erase db
  rcases honce.erase.calls exec db with hquiet | ⟨before, after, hcalls, hbefore, hafter⟩
  · refine ⟨.idle, Or.inl rfl, ?_, ?_⟩
    · rw [hstate, findCheck_foldl_quiet hquiet]
      exact hrow
    · rw [hevents, filterMap_quiet hquiet]
      rfl
  · have hentries : (calls exec program.erase db).filterMap callEntry = (callEntry special).toList := by
      rw [hcalls, List.filterMap_append, filterMap_quiet hbefore, List.nil_append, List.filterMap_cons,
        filterMap_quiet hafter]
      cases callEntry special <;> rfl
    have hrow' : (run exec program.erase db).state.findCheck cid =
        if cid = id then some (input.row X check) else some check := by
      rw [hstate, hcalls, List.foldl_append, List.foldl_cons, findCheck_foldl_quiet hafter, exec_callInput X hinput,
        findCheck_foldl_quiet hbefore, hrow, Option.map_some]
    have hlog : Log.of ((calls exec program.erase db).filterMap callEntry ++
        (run exec program.erase db).events.map eventEntry).reverse cid =
          if cid = id then (input.items X check).reverse else [] := by
      rw [hevents, hentries, callInput_entries X hinput check]
      by_cases hid : cid = id
      · simp [Log.of, hid, List.filter_map, Function.comp_def]
      · simp [Log.of, hid, List.filter_map, Function.comp_def, Ne.symm hid]
    by_cases hid : cid = id
    · refine ⟨input, Or.inr ⟨hid, rfl, by rw [hcalls]; exact List.mem_append_right _ List.mem_cons_self⟩, ?_, ?_⟩
      · rw [hrow', if_pos hid]
      · rw [hlog, if_pos hid]
        rcases callInput_cases hinput with ⟨_, rfl⟩ | ⟨_, rfl⟩ | ⟨_, rfl⟩ | ⟨fields, _, rfl⟩ <;> rfl
    · exact ⟨.idle, Or.inl rfl, by rw [hrow', if_neg hid]; rfl, by rw [hlog, if_neg hid]; rfl⟩

theorem store_once {special : StoreCall} : (store special).Once Quiet special := Prog.Once.perform

theorem apiStore_once {special : StoreCall} : (apiStore special).Once Quiet special := Prog.Once.perform

/-- The call a request on a check makes once it is allowed to. -/
def CheckAction.call {β : Type} (validated : β → Option UpdateCheck) (id : Int) : CheckAction β → Option StoreCall
  | .pause => some (.setStatus id .paused)
  | .resume => some (.setStatus id .new)
  | .ack => some (.acknowledge id)
  | .edit body => (validated body).map fun fields => .updateCheckSchedule id fields

/-- The program makes the call of the action at most once, and is quiet otherwise. -/
def Performs {A α β : Type} (program : StoreProg A α) (validated : β → Option UpdateCheck) (id : Int)
    (action : CheckAction β) : Prop :=
  match action.call validated id with
  | some special => program.Once Quiet special
  | none => program.Only Quiet fun _ => False

section Performs

variable {A α γ β : Type} {validated : β → Option UpdateCheck} {id : Int} {action : CheckAction β}

theorem Performs.of_quiet {program : StoreProg A α} (honly : program.Only Quiet fun _ => False) :
    Performs program validated id action := by
  unfold Performs
  split
  · exact honly.once
  · exact honly

theorem Performs.bind {program : StoreProg A α} {rest : α → StoreProg A γ}
    (honly : program.Only Quiet fun _ => False) (hrest : ∀ value, Performs (rest value) validated id action) :
    Performs (program.bind rest) validated id action := by
  unfold Performs at hrest ⊢
  split
  · rename_i special hspecial
    simp only [hspecial] at hrest
    exact honly.bind_once hrest
  · rename_i hspecial
    simp only [hspecial] at hrest
    exact honly.bind hrest

end Performs

theorem checkUpdateCore_performs (X : Crates) (sid : String) (user : User) (base : String) (id : Int) (form : CheckForm) :
    Performs (checkUpdateCore X sid user base id form) (validatedForm X) id (.edit form) := by
  unfold Performs checkUpdateCore
  cases hvalid : validateCheck X form with
  | error msg =>
      simp only [CheckAction.call, validatedForm, hvalid, Except.toOption, Option.map_none]
      trivial
  | ok fields =>
      simp only [CheckAction.call, validatedForm, hvalid, Except.toOption, Option.map_some, Prog.bind_eq]
      exact store_once.bind_only fun _ => trivial

theorem webHandle_performs (X : Crates) (ctx : WebContext) (sid : String) (user : User) (id : Int)
    (action : CheckAction CheckForm) :
    Performs (webHandle X ctx sid user (action.webRoute id)) (validatedForm X) id action := by
  cases action with
  | pause => exact Performs.bind (ownedCheck_quiet id user.id) fun _ => store_once.bind_only fun _ => trivial
  | resume => exact Performs.bind (ownedCheck_quiet id user.id) fun _ => store_once.bind_only fun _ => trivial
  | ack => exact Performs.bind (ownedCheck_quiet id user.id) fun _ => store_once.bind_only fun _ => trivial
  | edit form =>
      exact Performs.bind (ownedCheck_quiet id user.id) fun _ => checkUpdateCore_performs X sid user "" id form

theorem adminHandle_performs (X : Crates) (ctx : WebContext) (sid : String) (user : User) (id : Int)
    (action : CheckAction CheckForm) :
    Performs (adminHandle X ctx sid user (action.adminRoute id)) (validatedForm X) id action := by
  have hcheck := adminCheck_quiet ctx user "POST" id
  cases action with
  | pause => exact Performs.bind hcheck fun _ => store_once.bind_only fun _ => trivial
  | resume => exact Performs.bind hcheck fun _ => store_once.bind_only fun _ => trivial
  | ack => exact Performs.bind hcheck fun _ => store_once.bind_only fun _ => trivial
  | edit form => exact Performs.bind hcheck fun _ => checkUpdateCore_performs X sid user "/admin" id form

theorem updateCheck_performs (X : Crates) (ctx : ApiContext) (user : User) (id : Int) (body : Except String CheckInput) :
    Performs (apiHandle X ctx user (.updateCheck id body)) (validatedBody X) id (.edit body) := by
  unfold Performs apiHandle
  cases body with
  | error msg => trivial
  | ok input =>
      cases hvalid : validateCheck X input.form with
      | error msg =>
          simp only [CheckAction.call, validatedBody, Except.toOption, Option.bind_some, hvalid, Option.map_none,
            orBadRequest, V1.updateCheck, Prog.pure_eq, Prog.bind_eq, Prog.ret_bind, Prog.fail_bind]
          exact (resolveCheck_quiet ctx user "PATCH" id).bind fun _ => trivial
      | ok fields =>
          simp only [CheckAction.call, validatedBody, Except.toOption, Option.bind_some, hvalid, Option.map_some,
            orBadRequest, V1.updateCheck, Prog.pure_eq, Prog.bind_eq, Prog.ret_bind]
          exact (resolveCheck_quiet ctx user "PATCH" id).bind_once fun _ =>
            apiStore_once.bind_only fun _ => reloadCheck_quiet id

theorem apiHandle_performs (X : Crates) (ctx : ApiContext) (user : User) (id : Int)
    (action : CheckAction (Except String CheckInput)) :
    Performs (apiHandle X ctx user (action.apiRoute id)) (validatedBody X) id action := by
  have hcheck := resolveCheck_quiet ctx user "POST" id
  cases action with
  | pause => exact Performs.bind hcheck fun _ => apiStore_once.bind_only fun _ => reloadCheck_quiet id
  | resume => exact Performs.bind hcheck fun _ => apiStore_once.bind_only fun _ => reloadCheck_quiet id
  | ack => exact Performs.bind hcheck fun _ => apiStore_once.bind_only fun _ => reloadCheck_quiet id
  | edit body => exact updateCheck_performs X ctx user id body

theorem requestSession_quiet (ctx : WebContext) : (requestSession ctx).Only Quiet fun _ => False :=
  (requestSession_only ctx).mono (fun _ hauth => hauth.quiet) fun _ hevent => hevent

theorem resolveUser_quiet (ctx : WebContext) (sid : String) : (resolveUser ctx sid).Only Quiet fun _ => False :=
  (resolveUser_only ctx sid).mono (fun _ hauth => hauth.quiet) fun _ hevent => hevent

theorem webRequest_performs (X : Crates) (ctx : WebContext) (id : Int) (action : CheckAction CheckForm) :
    Performs (webRequest X ctx (action.webRoute id)) (validatedForm X) id action := by
  refine Performs.bind (requestSession_quiet ctx) fun sid => ?_
  split
  · exact Performs.of_quiet trivial
  · have hhandle := fun user => webHandle_performs X ctx sid user id action
    cases action <;>
    · refine Performs.bind (resolveUser_quiet ctx sid) fun found => ?_
      cases found with
      | none => exact Performs.of_quiet trivial
      | some user => exact hhandle user

theorem adminRequest_performs (X : Crates) (ctx : WebContext) (id : Int) (action : CheckAction CheckForm) :
    Performs (adminRequest X ctx (action.adminRoute id)) (validatedForm X) id action := by
  refine Performs.bind (requestSession_quiet ctx) fun sid => ?_
  split
  · exact Performs.of_quiet trivial
  · refine Performs.bind (resolveUser_quiet ctx sid) fun found => ?_
    cases found with
    | none => exact Performs.of_quiet trivial
    | some user =>
        dsimp only
        split
        · exact adminHandle_performs X ctx sid user id action
        · exact Performs.of_quiet trivial

theorem apiRequest_performs (X : Crates) (ctx : ApiContext) (id : Int)
    (action : CheckAction (Except String CheckInput)) :
    Performs (apiRequest X ctx (action.apiRoute id)) (validatedBody X) id action :=
  Performs.bind (apiUser_quiet X ctx) fun user => apiHandle_performs X ctx user id action

/-- What a request that performs an action comes to for a check. -/
theorem performs_refines {A α β : Type} (X : Crates) {program : StoreProg A α} {validated : β → Option UpdateCheck}
    {id cid : Int} {action : CheckAction β} {db : Db} {check : Check}
    (hperforms : Performs program validated id action) (hrow : db.findCheck cid = some check) :
    ∃ input, (input = .idle ∨ id = cid ∧ action.input validated input ∧
        ∀ status, input.sets = some status → StoreCall.setStatus cid status ∈ calls exec program.erase db) ∧
      (run exec program.erase db).state.findCheck cid = some (input.row X check) ∧
      Log.of ((calls exec program.erase db).filterMap callEntry ++
        (run exec program.erase db).events.map eventEntry).reverse cid = input.items X check := by
  unfold Performs at hperforms
  cases hcall : action.call validated id with
  | none =>
      simp only [hcall] at hperforms
      exact ⟨.idle, Or.inl rfl, quiet_refines X hperforms hrow⟩
  | some special =>
      simp only [hcall] at hperforms
      have hinput : ∃ input, callInput special = some (id, input) ∧ action.input validated input := by
        cases action with
        | pause => cases hcall; exact ⟨.pause, rfl, rfl⟩
        | resume => cases hcall; exact ⟨.resume, rfl, rfl⟩
        | ack => cases hcall; exact ⟨.acknowledge, rfl, rfl⟩
        | edit body =>
            simp only [CheckAction.call, Option.map_eq_some_iff] at hcall
            obtain ⟨fields, hfields, rfl⟩ := hcall
            exact ⟨.edit fields, rfl, fields, hfields, rfl⟩
      obtain ⟨input, hspecial, haction⟩ := hinput
      obtain ⟨input', hcases, hrefines⟩ := once_refines X hperforms hspecial hrow
      refine ⟨input', ?_, hrefines⟩
      rcases hcases with hidle | ⟨hid, rfl, hcalled⟩
      · exact Or.inl hidle
      · refine Or.inr ⟨hid.symm, haction, fun status hsets => ?_⟩
        rw [hid]
        rcases callInput_cases hspecial with ⟨rfl, rfl⟩ | ⟨rfl, rfl⟩ | ⟨rfl, rfl⟩ | ⟨fields, rfl, rfl⟩ <;> cases hsets
        · exact hcalled
        · exact hcalled

/-- **Every operation refines the machine.** For a check that exists, an operation comes to one of the
inputs it gives. -/
theorem operation_refines (X : Crates) (op : Operation) {db : Db} {cid : Int} {check : Check}
    (hcompletes : op.Completes X db) (hrow : db.findCheck cid = some check) : op.Refines X db cid check := by
  obtain rfl : check.id = cid := Table.find_key _ hrow
  cases op with
  | ping route uuid body clientIp now => exact ping_refines X route uuid body clientIp now hrow
  | scan now baseUrl => exact scan_refines X now baseUrl hcompletes hrow
  | nag now baseUrl => exact nag_refines X now baseUrl hcompletes hrow
  | web ctx id action =>
      obtain ⟨input, hinput, hrefines⟩ := performs_refines X (webRequest_performs X ctx id action) hrow
      exact ⟨input, hinput, hrefines⟩
  | admin ctx id action =>
      obtain ⟨input, hinput, hrefines⟩ := performs_refines X (adminRequest_performs X ctx id action) hrow
      exact ⟨input, hinput, hrefines⟩
  | api ctx id action =>
      obtain ⟨input, hinput, hrefines⟩ := performs_refines X (apiRequest_performs X ctx id action) hrow
      exact ⟨input, hinput, hrefines⟩

/-! ### Runs -/

/-- A relation between a check's row and its history holds along a run that may contain passes that panic: every input
keeps it, and so does a change of the row that takes it out of no Down and leaves no entry. -/
theorem Reached.row_invariant_aborting {X : Crates} {allowed : Db → Operation → Prop} {start db : Db} {log : Log}
    {cid : Int} (Inv : Check → List Item → Prop) (hstart : ∃ check, start.findCheck cid = some check ∧ Inv check [])
    (hstep : ∀ db log op check input, Reached X allowed start db log → allowed db op → db.findCheck cid = some check →
      op.Gives X db check input → Inv check (log.of cid) → Inv (input.row X check) (input.items X check ++ log.of cid))
    (haborts : ∀ db (log : Log) op check check', allowed db op → ¬op.Completes X db →
      (check.status = .down → check'.status = .down) → Inv check (log.of cid) → Inv check' (log.of cid))
    (hreach : Reached X allowed start db log) : ∃ check, db.findCheck cid = some check ∧ Inv check (log.of cid) := by
  induction hreach with
  | start => exact hstart
  | @step db log op before hallowed ih =>
      obtain ⟨check, hrow, hinv⟩ := ih
      rw [Log.of_append]
      by_cases hcompletes : op.Completes X db
      · obtain ⟨input, hgives, hafter, hlog⟩ := operation_refines X op hcompletes hrow
        refine ⟨input.row X check, hafter, ?_⟩
        rw [hlog]
        exact hstep _ _ op check input before hallowed hrow hgives hinv
      · obtain ⟨hlog, hkeeps⟩ := aborted_pass hcompletes cid
        obtain ⟨check', hrow', hdown⟩ := hkeeps check hrow
        refine ⟨check', hrow', ?_⟩
        rw [hlog]
        exact haborts db log op check check' hallowed hcompletes hdown hinv

/-- Along a run whose passes run to their end. -/
theorem Reached.row_invariant {X : Crates} {allowed : Db → Operation → Prop} {start db : Db} {log : Log} {cid : Int}
    (Inv : Check → List Item → Prop) (hstart : ∃ check, start.findCheck cid = some check ∧ Inv check [])
    (hcompletes : ∀ db op, allowed db op → op.Completes X db)
    (hstep : ∀ db log op check input, Reached X allowed start db log → allowed db op → db.findCheck cid = some check →
      op.Gives X db check input → Inv check (log.of cid) → Inv (input.row X check) (input.items X check ++ log.of cid))
    (hreach : Reached X allowed start db log) : ∃ check, db.findCheck cid = some check ∧ Inv check (log.of cid) :=
  hreach.row_invariant_aborting Inv hstart hstep fun db _ op _ _ hallowed haborts => absurd (hcompletes db op hallowed) haborts

end Pingward
