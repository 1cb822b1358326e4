import Pingward.FrameAuth
import Pingward.FrameCalls
import Pingward.ProgramInterleave
import Pingward.RowOperation

/-! Administrators that remove one another at the same time. Each request refuses to touch its own actor,
so an administrator survives as long as every actor still is one when its request writes. -/

open KeyedTable StoreProgram

namespace Pingward

/-! ### Requests -/

/-- The requests that can take an administrator away. -/
inductive AdminChange where
  | delete (id : Int) (confirmed : Bool)
  | toggleAdmin (id : Int) (confirmed : Bool)
  | setDisabled (id : Int) (confirmed : Bool)
  deriving DecidableEq, Repr

def AdminChange.route : AdminChange → AdminRoute
  | .delete id confirmed => .usersDelete id confirmed
  | .toggleAdmin id confirmed => .usersToggleAdmin id confirmed
  | .setDisabled id confirmed => .usersSetDisabled id confirmed

/-- The whole request, from the layers on. -/
def AdminChange.program (X : Crates) (ctx : WebContext) (change : AdminChange) : StoreProg Unit Unit :=
  (adminRequest X ctx change.route).erase

/-! ### Administrators -/

/-- The user is an enabled administrator. -/
def Db.IsAdmin (db : Db) (uid : Int) : Prop := ∃ row ∈ db.users.rows, row.id = uid ∧ row.isEnabledAdmin = true

/-- The user whose administration a call may end. -/
def StoreCall.removes : StoreCall → Option Int
  | .deleteUser id => some id
  | .setUserAdmin id isAdmin => if isAdmin then none else some id
  | .setUserDisabled id disabled => if disabled then some id else none
  | _ => none

/-- An update of the users that leaves the administrator `uid` one. -/
theorem isAdmin_updateUser {db : Db} {uid id : Int} {f : User → User} (hid : ∀ row, (f row).id = row.id)
    (hkeep : ∀ row, row.id = id → row.id = uid → row.isEnabledAdmin = true → (f row).isEnabledAdmin = true)
    (hadmin : db.IsAdmin uid) : (db.updateUser id f hid).IsAdmin uid := by
  obtain ⟨row, hmem, rfl, henabled⟩ := hadmin
  have hrows : (db.updateUser id f hid).users.rows = db.users.rows.map fun row => if row.id = id then f row else row :=
    Table.update_rows _ id f hid
  refine ⟨if row.id = id then f row else row, ?_, ?_⟩
  · rw [hrows]
    exact List.mem_map_of_mem hmem
  · split
    · rename_i heq
      exact ⟨hid row, hkeep row heq rfl henabled⟩
    · exact ⟨rfl, henabled⟩

/-- A call that does not end the administration of `uid` leaves it. -/
theorem exec_isAdmin {c : StoreCall} {db : Db} {uid : Int} (hkeep : c.removes ≠ some uid) (hadmin : db.IsAdmin uid) :
    (exec c db).2.IsAdmin uid := by
  by_cases hwrites : TableName.users ∈ c.writes
  · cases c
    case createUser username hash isAdmin now =>
      obtain ⟨row, hmem, hrow⟩ := hadmin
      refine ⟨row, ?_, hrow⟩
      simp only [exec, Db.createUser]
      split
      · exact hmem
      · exact List.mem_append_left _ hmem
    case setUserDisabled id disabled =>
      refine isAdmin_updateUser _ (fun row hid huid henabled => ?_) hadmin
      have hfalse : disabled = false := by
        cases disabled with
        | false => rfl
        | true => exact absurd (congrArg some (hid.symm.trans huid)) hkeep
      simp only [User.isEnabledAdmin, Bool.and_eq_true] at henabled ⊢
      exact ⟨henabled.1, by rw [hfalse]; rfl⟩
    case setUserPassword id hash => exact isAdmin_updateUser _ (fun _ _ _ henabled => henabled) hadmin
    case setUserAdmin id isAdmin =>
      refine isAdmin_updateUser _ (fun row hid huid henabled => ?_) hadmin
      have htrue : isAdmin = true := by
        cases isAdmin with
        | true => rfl
        | false => exact absurd (congrArg some (hid.symm.trans huid)) hkeep
      simp only [User.isEnabledAdmin, Bool.and_eq_true] at henabled ⊢
      exact ⟨htrue, henabled.2⟩
    case deleteUser id =>
      obtain ⟨row, hmem, rfl, henabled⟩ := hadmin
      refine ⟨row, List.mem_filter.mpr ⟨hmem, ?_⟩, rfl, henabled⟩
      have hne : row.id ≠ id := fun heq => hkeep (congrArg some heq.symm)
      simpa using hne
    all_goals simp [StoreCall.writes] at hwrites
  · have husers : (exec c db).2.users = db.users := exec_frame hwrites db
    unfold Db.IsAdmin
    rw [husers]
    exact hadmin

/-! ### Actors -/

section Actor

variable {A α β : Type}

/-- The audit rows of the program name this actor. -/
def ActsFor (uid : Int) (program : StoreProg A α) : Prop :=
  program.Only (fun c => ∀ entry now, c = .recordAudit entry now → entry.actorUserId = uid) fun _ => True

/-- Wherever the program ends somebody's administration, it is not its own actor's. -/
def SparesActor (program : StoreProg A α) : Prop :=
  program.AtCalls fun c next =>
    ∀ target, c.removes = some target → ∀ uid, ActsFor uid (.call c next : StoreProg A α) → uid ≠ target

/-- A program that ends nobody's administration. -/
def Harmless (program : StoreProg A α) : Prop := program.Only (fun c => c.removes = none) fun _ => True

theorem Harmless.bind {program : StoreProg A α} {rest : α → StoreProg A β} (hharmless : Harmless program)
    (hrest : ∀ value, SparesActor (rest value)) : SparesActor (program.bind rest) := by
  refine Prog.AtCalls.bind hharmless (fun c next hc target htarget => ?_) hrest
  rw [hc] at htarget
  cases htarget

theorem SparesActor.erase {program : StoreProg A α} (hspares : SparesActor program) : SparesActor program.erase :=
  Prog.AtCalls.erase hspares fun _ _ hspares target htarget uid hacts =>
    hspares target htarget uid (Prog.Only.of_erase hacts)

/-- A call whose target is not the actor of what follows it. -/
theorem spares_store {c : StoreCall} {rest : c.Res → StoreProg AppError β}
    (hother : ∀ target, c.removes = some target → ∀ uid, (∀ answer, ActsFor uid (rest answer)) → uid ≠ target)
    (hrest : ∀ answer, SparesActor (rest answer)) : SparesActor ((store c).bind rest) :=
  Prog.AtCalls.perform (fun _ hnext target htarget uid hacts => hother target htarget uid fun answer => by
    rw [← hnext answer]
    exact hacts.2 (.ok answer)) hrest

end Actor

/-! ### The handlers -/

section Handlers

variable {X : Crates} {ctx : WebContext} {sid : String} {user : User} {β : Type}

theorem store_harmless {c : StoreCall} (hc : c.removes = none) : Harmless (store c) := store_only hc

theorem auditUser_harmless (action : String) (target : Int) (detail : Option String) :
    Harmless (auditUser ctx user action target detail) :=
  Prog.Only.bind (store_harmless rfl) fun _ => trivial

theorem actsFor_auditUser {action : String} {target : Int} {detail : Option String} {rest : Unit → StoreProg AppError β}
    {uid : Int} (hacts : ActsFor uid ((auditUser ctx user action target detail).bind rest)) : user.id = uid :=
  hacts.1 _ _ rfl

theorem lastAdminGuard_harmless (target : User) : Harmless (lastAdminGuard target) := by
  unfold lastAdminGuard
  split
  · trivial
  · exact Prog.Only.bind (store_harmless rfl) fun _ => trivial

theorem usersDelete_spares (id : Int) (confirmed : Bool) : SparesActor (usersDelete X ctx sid user id confirmed) := by
  unfold usersDelete
  split
  · trivial
  · rename_i hself
    refine (store_harmless rfl).bind fun found => ?_
    split
    · trivial
    · refine (lastAdminGuard_harmless _).bind fun blocked => ?_
      split
      · trivial
      · split
        · trivial
        · refine spares_store ?_ fun _ => (auditUser_harmless ..).bind fun _ => trivial
          rintro target ⟨⟩ uid hacts rfl
          exact hself (actsFor_auditUser (hacts ())).symm

theorem usersToggleAdmin_spares (id : Int) (confirmed : Bool) :
    SparesActor (usersToggleAdmin X ctx sid user id confirmed) := by
  unfold usersToggleAdmin
  split
  · trivial
  · rename_i hself
    refine (store_harmless rfl).bind fun found => ?_
    split
    · trivial
    · dsimp only
      split
      · trivial
      · refine Harmless.bind ?_ fun blocked => ?_
        · split
          · trivial
          · exact lastAdminGuard_harmless _
        · split
          · trivial
          · split
            · trivial
            · refine spares_store ?_ fun _ => (auditUser_harmless ..).bind fun _ => trivial
              intro target htarget uid hacts
              have hid : id = target := by
                simp only [StoreCall.removes, Option.ite_none_left_eq_some, Option.some.injEq] at htarget
                exact htarget.2
              rw [← hid, ← actsFor_auditUser (hacts ())]
              exact fun heq => hself heq.symm

theorem usersSetDisabled_spares (id : Int) (confirmed : Bool) :
    SparesActor (usersSetDisabled X ctx sid user id confirmed) := by
  unfold usersSetDisabled
  split
  · trivial
  · rename_i hself
    refine (store_harmless rfl).bind fun found => ?_
    split
    · trivial
    · dsimp only
      refine Harmless.bind ?_ fun blocked => ?_
      · split
        · exact lastAdminGuard_harmless _
        · trivial
      · split
        · trivial
        · split
          · trivial
          · refine spares_store ?_ fun _ => ?_
            · intro removed hremoved uid hacts
              simp only [StoreCall.removes, Option.ite_none_right_eq_some, Option.some.injEq] at hremoved
              obtain ⟨hdisabled, rfl⟩ := hremoved
              have hrest := hacts ()
              simp only [hdisabled, if_true] at hrest
              have haudit := hrest.2 (.ok 0)
              rw [← actsFor_auditUser haudit]
              exact fun heq => hself heq.symm
            · split
              · exact (store_harmless rfl).bind fun _ => (auditUser_harmless ..).bind fun _ => trivial
              · exact (auditUser_harmless ..).bind fun _ => trivial

theorem AuthCall.harmless {c : StoreCall} (hauth : AuthCall ctx c) : c.removes = none := by
  cases hauth <;> rfl

theorem AdminChange.spares (X : Crates) (ctx : WebContext) (change : AdminChange) :
    SparesActor (change.program X ctx) := by
  apply SparesActor.erase
  refine Harmless.bind ((requestSession_only ctx).mono (fun _ h => h.harmless) fun _ _ => trivial) fun sid => ?_
  split
  · trivial
  · refine Harmless.bind ((resolveUser_only ctx sid).mono (fun _ h => h.harmless) fun _ _ => trivial) fun found => ?_
    split
    · trivial
    · split
      · cases change with
        | delete id confirmed => exact usersDelete_spares id confirmed
        | toggleAdmin id confirmed => exact usersToggleAdmin_spares id confirmed
        | setDisabled id confirmed => exact usersSetDisabled_spares id confirmed
      · trivial

end Handlers

/-! ### Any order of steps -/

/-- When a request ends the administration of an enabled administrator, its actor still is one. -/
def ActorIsAdmin {ι : Type} (cfg : Config ι StoreCall StoreCall.Res StoreError Spawned Unit Unit Db) (i : ι) : Prop :=
  ∀ c next target, cfg.pool i = .call c next → c.removes = some target → cfg.state.IsAdmin target →
    ∃ uid, ActsFor uid (cfg.pool i) ∧ cfg.state.IsAdmin uid

/-- **The last administrator.** Along any interleaving in which every request that takes an enabled administrator
away is made by one who still is an enabled administrator at that step, some enabled administrator is
left. -/
theorem enabled_admin_remains {ι : Type} [DecidableEq ι] (X : Crates) (start : Db) (ctx : ι → WebContext)
    (change : ι → AdminChange) (hadmin : ∃ row ∈ start.users.rows, row.isAdmin = true ∧ row.disabled = false)
    {cfg : Config ι StoreCall StoreCall.Res StoreError Spawned Unit Unit Db}
    (hreach : Reach exec ActorIsAdmin (.init (fun i => (change i).program X (ctx i)) start) cfg) :
    ∃ row ∈ cfg.state.users.rows, row.isAdmin = true ∧ row.disabled = false := by
  have hinv := hreach.invariant exec
    (fun cfg => (∃ uid, cfg.state.IsAdmin uid) ∧ ∀ i, SparesActor (cfg.pool i)) ?_ ?_
  · obtain ⟨⟨uid, row, hmem, _, henabled⟩, _⟩ := hinv
    exact ⟨row, hmem, by simpa [User.isEnabledAdmin] using henabled⟩
  · obtain ⟨row, hmem, henabled⟩ := hadmin
    exact ⟨⟨row.id, row, hmem, rfl, by simpa [User.isEnabledAdmin] using henabled⟩, fun i => (change i).spares X (ctx i)⟩
  · rintro cfg cfg' i ⟨⟨uid, hadmin⟩, hspares⟩ hallowed hstep
    refine ⟨?_, Config.advance_inherit exec (fun _ _ _ h => h) (fun _ _ _ h => h.2) hspares hstep⟩
    have hi := hspares i
    rcases Config.advance_cases exec hstep with ⟨event, next, hpool, rfl⟩ | ⟨c, next, hpool, rfl⟩
    · exact ⟨uid, hadmin⟩
    · rw [hpool] at hi
      by_cases hremoves : c.removes = some uid
      · obtain ⟨actor, hacts, hactor⟩ := hallowed c next uid hpool hremoves hadmin
        rw [hpool] at hacts
        have hne := hi.1 uid hremoves actor hacts
        exact ⟨actor, exec_isAdmin (by rw [hremoves]; exact fun heq => hne (Option.some.inj heq).symm) hactor⟩
      · exact ⟨uid, exec_isAdmin hremoves hadmin⟩

/-! ### Two administrators -/

/-- Two administrators, both signed in. -/
def Db.twoAdmins : Db :=
  [StoreCall.createUser "alice" none true 0, .createUser "bob" none true 0,
    .createSession ⟨"s1", 1, 1000 * nanosPerSec, none, none, false⟩ 0,
    .createSession ⟨"s2", 2, 1000 * nanosPerSec, none, none, false⟩ 0].foldl (fun db c => (exec c db).2) .empty

/-- Each of them disables the other. -/
def mutualDisable : Bool → WebContext × AdminChange
  | false => ({ WebContext.sample with sessionId := some "s1" }, .setDisabled 2 true)
  | true => ({ WebContext.sample with sessionId := some "s2" }, .setDisabled 1 true)

/-- Both requests before their first step. -/
def mutualDisableStart : Config Bool StoreCall StoreCall.Res StoreError Spawned Unit Unit Db :=
  .init (fun i => (mutualDisable i).2.program plainCrates (mutualDisable i).1) Db.twoAdmins

/-- The next call of the request ends nobody's administration. -/
def nextIsHarmless (cfg : Config Bool StoreCall StoreCall.Res StoreError Spawned Unit Unit Db) (i : Bool) : Bool :=
  match cfg.pool i with
  | .call c _ => c.removes.isNone
  | _ => true

theorem actorIsAdmin_of_test {cfg : Config Bool StoreCall StoreCall.Res StoreError Spawned Unit Unit Db} {i : Bool}
    (htest : nextIsHarmless cfg i = true) : ActorIsAdmin cfg i := by
  intro c next target hpool hremoves
  simp only [nextIsHarmless, hpool, Option.isNone_iff_eq_none] at htest
  rw [htest] at hremoves
  cases hremoves

/-- The first of them is about to write, in its own name. -/
theorem mutualDisable_acts {cfg : Config Bool StoreCall StoreCall.Res StoreError Spawned Unit Unit Db}
    (hrun : mutualDisableStart.advanceWhen exec nextIsHarmless [false, false, false] = some cfg) :
    ∃ next, cfg.pool false = .call (.setUserDisabled 2 true) next ∧ ActsFor 1 (cfg.pool false) := by
  obtain rfl : cfg = (mutualDisableStart.advanceWhen exec nextIsHarmless [false, false, false]).get
      (by decide +kernel) := by simp [hrun]
  refine ⟨_, rfl, ?_, ?_⟩
  · rintro _ _ ⟨⟩
  · rintro (_ | _)
    · trivial
    · refine ⟨?_, ?_⟩
      · rintro _ _ ⟨⟩
      · rintro (_ | _)
        · trivial
        · refine ⟨?_, ?_⟩
          · rintro _ _ ⟨⟩
            rfl
          · rintro (_ | _) <;> trivial

theorem enabled_admin_remains_alice :
    ∃ cfg, Reach exec ActorIsAdmin mutualDisableStart cfg ∧ cfg.state.users.rows.any (fun row => row.disabled) = true ∧
      ∃ row ∈ cfg.state.users.rows, row.isAdmin = true ∧ row.disabled = false := by
  obtain ⟨cfg, hrun⟩ := Option.isSome_iff_exists.mp
    (show (mutualDisableStart.advanceWhen exec nextIsHarmless [false, false, false]).isSome = true by decide +kernel)
  have hbefore := reach_of_advanceWhen exec (fun _ _ => actorIsAdmin_of_test) _ hrun
  have hstate : (mutualDisableStart.advanceWhen exec nextIsHarmless [false, false, false]).any
      (fun cfg => decide (∃ row ∈ cfg.state.users.rows, row.id = 1 ∧ row.isEnabledAdmin = true) &&
        (cfg.state.setUserDisabled 2 true).users.rows.any fun row => row.disabled) = true := by decide +kernel
  rw [hrun, Option.any_some, Bool.and_eq_true, decide_eq_true_eq] at hstate
  obtain ⟨next, hpool, hacts⟩ := mutualDisable_acts hrun
  have hreach := hbefore.step false (fun _ _ _ _ _ _ => ⟨1, hacts, hstate.1⟩) (Config.advance_call exec hpool)
  exact ⟨_, hreach, hstate.2, enabled_admin_remains plainCrates .twoAdmins (fun i => (mutualDisable i).1)
    (fun i => (mutualDisable i).2) (by decide +kernel) hreach⟩

/-- Both requests authenticate, read their target and count two administrators before either writes; then
nobody is left. -/
theorem mutual_disable_leaves_no_admin :
    (∃ row ∈ Db.twoAdmins.users.rows, row.isAdmin = true ∧ row.disabled = false) ∧
      ∃ cfg, Reach exec (fun _ _ => True) mutualDisableStart cfg ∧
        ¬∃ row ∈ cfg.state.users.rows, row.isAdmin = true ∧ row.disabled = false := by
  refine ⟨by decide +kernel, ?_⟩
  obtain ⟨cfg, hreach, hnone⟩ := exists_reach exec (fun _ _ _ => trivial : ∀ _ _, true = true → True)
    [false, false, false, true, true, true, false, true]
    (show (mutualDisableStart.advanceWhen exec (fun _ _ => true)
      [false, false, false, true, true, true, false, true]).any
        (fun cfg => decide ¬∃ row ∈ cfg.state.users.rows, row.isAdmin = true ∧ row.disabled = false) = true
      by decide +kernel)
  exact ⟨cfg, hreach, of_decide_eq_true hnone⟩

end Pingward
