import Pingward.ElevationRefines

/-! What the gate is for: under an account that is not elevated no user gains access, so in every run a gain was
unlocked. -/

open KeyedTable StoreProgram

namespace Pingward

/-! ### Access -/

/-- A user has access it had not: it is new, has become an administrator, or signs in with another password. -/
def Db.GainsAccess (before after : Db) : Prop :=
  ∃ user ∈ after.users.rows, ∀ was ∈ before.users.rows, was.id = user.id →
    (user.isAdmin = true ∧ was.isAdmin = false) ∨ user.passwordHash ≠ was.passwordHash

/-- A call that may give a user access. -/
def StoreCall.GivesAccess : StoreCall → Prop
  | .createUser _ _ _ _ | .setUserPassword _ _ => True
  | .setUserAdmin _ isAdmin => isAdmin = true
  | _ => False

/-- Each user had the access it has. -/
def Db.HeldAccess (before after : Db) : Prop :=
  ∀ user ∈ after.users.rows, ∃ was ∈ before.users.rows, was.id = user.id ∧ (user.isAdmin = true → was.isAdmin = true) ∧
    user.passwordHash = was.passwordHash

theorem Db.HeldAccess.not_gains {before after : Db} (hheld : before.HeldAccess after) : ¬before.GainsAccess after := by
  rintro ⟨user, huser, hgains⟩
  obtain ⟨was, hwas, hid, hadmin, hhash⟩ := hheld user huser
  rcases hgains was hwas hid with ⟨hnow, hbefore⟩ | hother
  · rw [hadmin hnow] at hbefore
    cases hbefore
  · exact hother hhash

theorem Db.HeldAccess.refl (db : Db) : db.HeldAccess db := fun user huser => ⟨user, huser, rfl, id, rfl⟩

theorem Db.HeldAccess.of_users {before after : Db} (husers : after.users = before.users) : before.HeldAccess after := by
  intro user huser
  rw [husers] at huser
  exact ⟨user, huser, rfl, id, rfl⟩

theorem Db.HeldAccess.trans {a b c : Db} (hab : a.HeldAccess b) (hbc : b.HeldAccess c) : a.HeldAccess c := by
  intro user huser
  obtain ⟨was, hwas, hid, hadmin, hhash⟩ := hbc user huser
  obtain ⟨old, hold, hid', hadmin', hhash'⟩ := hab was hwas
  exact ⟨old, hold, hid'.trans hid, hadmin' ∘ hadmin, hhash.trans hhash'⟩

/-- A call that gives nobody access. -/
theorem exec_heldAccess {c : StoreCall} (hc : ¬c.GivesAccess) (db : Db) : db.HeldAccess (exec c db).2 := by
  cases c with
  | createUser username hash isAdmin now => exact absurd trivial hc
  | setUserPassword id phc => exact absurd trivial hc
  | setUserAdmin uid isAdmin =>
      intro user huser
      obtain ⟨was, hwas, rfl⟩ := List.mem_map.mp huser
      refine ⟨was, hwas, ?_⟩
      split
      · exact ⟨rfl, fun hadmin => absurd hadmin hc, rfl⟩
      · exact ⟨rfl, id, rfl⟩
  | setUserDisabled uid disabled =>
      intro user huser
      obtain ⟨was, hwas, rfl⟩ := List.mem_map.mp huser
      refine ⟨was, hwas, ?_⟩
      split <;> exact ⟨rfl, id, rfl⟩
  | deleteUser uid => exact fun user huser => ⟨user, (List.mem_filter.mp huser).1, rfl, id, rfl⟩
  | _ => exact .of_users (exec_frame (t := .users) (by simp [StoreCall.writes]) db)

/-! ### Handlers -/

theorem run_map_state {C E A S α β ε : Type} {R : C → Type} {exec : (c : C) → S → Except ε (R c) × S}
    {program : Prog C R ε E A α} {f : α → β} {state : S} :
    (run exec (program.bind fun value => .ret (f value)) state).state = (run exec program state).state := by
  rw [run_bind, Ran.andThen]
  split <;> rfl

section Handlers

variable {X : Crates} {ctx : WebContext} {sid : String} {user : User}

/-- A program that gives nobody access. -/
def GivesNone {α : Type} (program : StoreProg AppError α) : Prop := program.Only (fun c => ¬c.GivesAccess) fun _ => True

theorem store_givesNone {c : StoreCall} (hc : ¬c.GivesAccess) : GivesNone (store c) := store_only hc

theorem auditUser_givesNone (action : String) (target : Int) (detail : Option String) :
    GivesNone (auditUser ctx user action target detail) :=
  Prog.Only.bind (store_givesNone nofun) fun _ => trivial

theorem lastAdminGuard_givesNone (target : User) : GivesNone (lastAdminGuard target) := by
  unfold lastAdminGuard
  split
  · trivial
  · exact Prog.Only.bind (store_givesNone nofun) fun _ => trivial

theorem usersCreate_givesNone (form : NewUserForm) (hlocked : elevationAllows ctx user = false) :
    GivesNone (usersCreate X ctx sid user form) := by
  unfold usersCreate
  dsimp only
  rw [hlocked]
  split
  · refine Prog.Only.bind trivial fun found => ?_
    split <;> trivial
  · refine Prog.Only.bind (store_givesNone nofun) fun found => ?_
    split <;> trivial

theorem usersDelete_givesNone (id : Int) (confirmed : Bool) : GivesNone (usersDelete X ctx sid user id confirmed) := by
  unfold usersDelete
  split
  · trivial
  · refine Prog.Only.bind (store_givesNone nofun) fun found => ?_
    split
    · trivial
    · refine Prog.Only.bind (lastAdminGuard_givesNone _) fun guarded => ?_
      split
      · trivial
      · split
        · trivial
        · exact Prog.Only.bind (store_givesNone nofun) fun _ =>
            Prog.Only.bind (auditUser_givesNone _ _ _) fun _ => trivial

theorem usersSetPassword_givesNone (id : Int) (password : String) (hlocked : elevationAllows ctx user = false) :
    GivesNone (usersSetPassword X ctx sid user id password) := by
  unfold usersSetPassword
  rw [hlocked]
  trivial

/-- A demotion is not gated. -/
theorem usersToggleAdmin_givesNone (id : Int) (confirmed : Bool) (hlocked : elevationAllows ctx user = false) :
    GivesNone (usersToggleAdmin X ctx sid user id confirmed) := by
  unfold usersToggleAdmin
  rw [hlocked]
  split
  · trivial
  · refine Prog.Only.bind (store_givesNone nofun) fun found => ?_
    cases found with
    | none => trivial
    | some target =>
        dsimp only
        cases target.isAdmin with
        | false => trivial
        | true =>
            refine Prog.Only.bind (lastAdminGuard_givesNone _) fun guarded => ?_
            split
            · trivial
            · split
              · trivial
              · exact Prog.Only.bind (store_givesNone nofun) fun _ =>
                  Prog.Only.bind (auditUser_givesNone _ _ _) fun _ => trivial

theorem usersSetDisabled_givesNone (id : Int) (confirmed : Bool) :
    GivesNone (usersSetDisabled X ctx sid user id confirmed) := by
  have haudited : ∀ detail, GivesNone (do
      auditUser ctx user "user.set_disabled" id (some detail)
      return Response.redirect "/admin") := fun _ => Prog.Only.bind (auditUser_givesNone _ _ _) fun _ => trivial
  unfold usersSetDisabled
  split
  · trivial
  · refine Prog.Only.bind (store_givesNone nofun) fun found => ?_
    cases found with
    | none => trivial
    | some target =>
        dsimp only
        cases target.disabled with
        | false =>
            refine Prog.Only.bind (lastAdminGuard_givesNone _) fun guarded => ?_
            split
            · trivial
            · split
              · trivial
              · exact Prog.Only.bind (store_givesNone nofun) fun _ =>
                  Prog.Only.bind (store_givesNone nofun) fun _ => haudited _
        | true =>
            refine Prog.Only.bind trivial fun guarded => ?_
            split
            · trivial
            · exact Prog.Only.bind (store_givesNone nofun) fun _ => haudited _

end Handlers

namespace Paired

section Gate

variable {X : Crates} {ctx : WebContext} {clock : Nat} {sid : String} {user : User} {world : World}

theorem refines_held {α : Type} {program : PairedProg α} {alone : StoreProg AppError α}
    (hrefines : Refines world.elevations.remainingSecs Asks program alone) (hgives : GivesNone alone) :
    world.db.HeldAccess (run execWorld program world).state.db := by
  rw [(run_refines hrefines).state]
  exact hgives.run_rel exec Db.HeldAccess Db.HeldAccess.refl (fun _ _ _ => Db.HeldAccess.trans)
    (fun _ hc db => exec_heldAccess hc db) world.db

theorem elevation_run (hpassword : user.passwordHash.isSome = true) :
    run execWorld (elevation X clock sid user) world =
      ⟨.ok ⟨false, world.elevations.remainingSecs (currentSessionHandle X sid) clock⟩, world, []⟩ := by
  unfold elevation
  cases hhash : user.passwordHash with
  | none => simp [hhash] at hpassword
  | some hash => rfl

/-- The unlock form is no business of the database. -/
theorem adminUnlock_held (password : String) :
    world.db.HeldAccess (run execWorld (adminUnlock X ctx clock sid user password) world).state.db := by
  have hcheck : (elevation X clock sid user).Only (fun c => ∃ query, c = .inr query) fun _ => True := by
    unfold elevation
    split
    · trivial
    · exact Prog.Only.bind (Prog.Only.perform ⟨_, rfl⟩) fun _ => trivial
  have hpage : ∀ error, (renderAdminUnlock X clock sid user none error).Only (fun c => ∃ query, c = .inr query) fun _ => True :=
    fun _ => hcheck.bind fun _ => trivial
  have hgrant : ∀ answer : UnlockAnswer, ((grantElevation X clock sid user.id).bind fun _ => .ret answer).Only
      (fun c => ∃ query, c = .inr query) fun _ => True :=
    fun _ => Prog.Only.bind (Prog.Only.perform ⟨_, rfl⟩) fun _ => trivial
  have honly : (adminUnlock X ctx clock sid user password).Only (fun c => ∃ query, c = .inr query) fun _ => True := by
    unfold adminUnlock
    cases reauthenticate X ctx user password with
    | passed => cases ctx.fragment <;> exact hgrant _
    | failed =>
        cases ctx.fragment with
        | true => trivial
        | false => exact hpage _
    | throttled =>
        cases ctx.fragment with
        | true => trivial
        | false => exact hpage _
  refine honly.run_rel execWorld (fun before after => before.db.HeldAccess after.db) (fun _ => .refl _)
    (fun _ _ _ => Db.HeldAccess.trans) (fun c hc before => ?_) world
  obtain ⟨query, rfl⟩ := hc
  exact .refl _

/-- Nobody gains access where the session is not elevated. -/
theorem adminHandle_held (ctx : WebContext) (post : AdminPost) (hpassword : user.passwordHash.isSome = true)
    (hlocked : world.elevations.remainingSecs (currentSessionHandle X sid) clock = none) :
    world.db.HeldAccess (run execWorld (adminHandle X ctx clock sid user post) world).state.db := by
  have hallows : elevationAllows { ctx with
      elevated := (world.elevations.remainingSecs (currentSessionHandle X sid) clock).isSome } user = false := by
    rw [hlocked]
    cases hhash : user.passwordHash with
    | none => simp [hhash] at hpassword
    | some hash => simp [elevationAllows, hhash]
  have hmap : ∀ {program : PairedProg Response} {alone : StoreProg AppError Response},
      adminHandle X ctx clock sid user post = (program.bind fun value => .ret (.inr value)) →
      Refines world.elevations.remainingSecs Asks program alone → GivesNone alone →
      world.db.HeldAccess (run execWorld (adminHandle X ctx clock sid user post) world).state.db := by
    intro program alone hhandle hrefines hgives
    rw [hhandle, run_map_state]
    exact refines_held hrefines hgives
  cases post with
  | unlock password =>
      have hhandle : adminHandle X ctx clock sid user (.unlock password) =
          (adminUnlock X ctx clock sid user password).bind fun value => .ret (.inl value) := rfl
      rw [hhandle, run_map_state]
      exact adminUnlock_held password
  | usersCreate form => exact hmap rfl (usersCreate_refines X ctx clock sid user _ form) (usersCreate_givesNone form hallows)
  | usersDelete id confirmed =>
      exact hmap rfl (usersDelete_refines X ctx clock sid user _ id confirmed) (usersDelete_givesNone id confirmed)
  | usersSetPassword id password =>
      exact hmap rfl (usersSetPassword_refines X ctx clock sid user _ id password)
        (usersSetPassword_givesNone id password hallows)
  | usersToggleAdmin id confirmed =>
      exact hmap rfl (usersToggleAdmin_refines X ctx clock sid user _ id confirmed)
        (usersToggleAdmin_givesNone id confirmed hallows)
  | usersSetDisabled id confirmed =>
      exact hmap rfl (usersSetDisabled_refines X ctx clock sid user _ id confirmed)
        (usersSetDisabled_givesNone id confirmed)

end Gate

end Paired

/-! ### Runs -/

/-- **Gate.** In every run that starts without a session of a disabled user and whose session ids have handles of their own,
a request under `/admin` of a user with a password lets someone gain access only if that user passed an unlock in that
session less than the TTL before. -/
theorem access_gained_unlocked (X : Crates) (db : Db) (henabled : db.SessionsEnabled) (boot : Nat) (steps : List Step)
    (hhandles : ((issuedBy db steps).map X.hashApiKey).Nodup) :
    let server := (Server.start db boot).play X steps
    ∀ (visit : Visit) (post : AdminPost) (clock : Nat) (sid : String) (user : User),
      ((issuedBy db steps ++ [visit.freshSession]).map X.hashApiKey).Nodup → server.clock ≤ clock →
      (run exec (signedInAdmin visit.toWebContext) server.world.db).outcome = .ok (.ok (sid, user)) →
      user.passwordHash.isSome = true →
      (run exec (signedInAdmin visit.toWebContext) server.world.db).state.GainsAccess
        ((Event.admin visit post).serve X clock server.world).db →
      ∃ unlock ∈ server.unlocks, unlock.session = sid ∧ unlock.userId = user.id ∧ unlock.passedAt ≤ clock ∧
        clock < unlock.passedAt + elevationTtlSecs * 10 ^ 9 := by
  intro server visit post clock sid user hvisit hclock hsigned hpassword hgains
  have hsound : server.Sound X (issuedBy db steps) := Server.reached_sound henabled boot hhandles
  obtain ⟨hsame, hdb⟩ := run_moved (signedInAdmin visit.toWebContext) server.world
  rw [hsigned] at hsame
  have hfront : (run execWorld (stored (signedInAdmin visit.toWebContext)) server.world).outcome = .ok (.ok (sid, user)) := by
    rw [stored, execWorld, run_lift]
    exact hsame
  have hfronted : (run execWorld (stored (signedInAdmin visit.toWebContext)) server.world).state.db =
      (run exec (signedInAdmin visit.toWebContext) server.world.db).state := by
    rw [stored, execWorld, run_lift]
    exact hdb
  have hserved : (Event.admin visit post).serve X clock server.world =
      (run execWorld (Paired.adminHandle X visit.toWebContext clock sid user post)
        (run execWorld (stored (signedInAdmin visit.toWebContext)) server.world).state).state := by
    rw [Event.serve, Paired.adminRequest, Prog.bind_eq, run_bind_of_ok execWorld hfront]
  cases hleft : (run execWorld (stored (signedInAdmin visit.toWebContext)) server.world).state.elevations.remainingSecs
    (Paired.currentSessionHandle X sid) clock with
  | none =>
      have hheld := Paired.adminHandle_held visit.toWebContext post hpassword hleft
      rw [← hserved, hfronted] at hheld
      exact absurd hgains hheld.not_gains
  | some left =>
      have hcheck : (run execWorld (Paired.elevationCheck X visit.toWebContext clock) server.world).outcome =
          .ok (some (sid, user, true)) := by
        rw [Paired.elevationCheck, Prog.bind_eq, run_bind_of_ok execWorld hfront]
        dsimp only
        rw [Prog.bind_eq, run_bind_of_ok execWorld (congrArg Ran.outcome (Paired.elevation_run hpassword)), hleft]
        rfl
      obtain ⟨unlock, hunlock, hsession, huser, hyoung⟩ :=
        (elevationCheck_earned hvisit hsound.world).value _ hcheck sid user rfl hpassword
      refine ⟨unlock, hunlock, hsession, huser, (hsound.past unlock hunlock).trans hclock, ?_⟩
      unfold elapsedSecs at hyoung
      omega

instance (before after : Db) : Decidable (before.GainsAccess after) :=
  inferInstanceAs (Decidable (∃ user ∈ after.users.rows, ∀ was ∈ before.users.rows, was.id = user.id →
    (user.isAdmin = true ∧ was.isAdmin = false) ∨ user.passwordHash ≠ was.passwordHash))

/-- The first account creates another one five minutes after its unlock. -/
theorem access_gained_unlocked_setup :
    let server := (Server.start .empty 0).play handleCrates unlockedSteps
    ∃ unlock ∈ server.unlocks, unlock.session = "s9" ∧ unlock.userId = 1 ∧ unlock.passedAt ≤ 305 * 10 ^ 9 ∧
      305 * 10 ^ 9 < unlock.passedAt + elevationTtlSecs * 10 ^ 9 :=
  access_gained_unlocked handleCrates .empty nofun 0 unlockedSteps (by decide +kernel) (visitOf (some "s9") "s3")
    (.usersCreate ⟨"bob", "another long password", none⟩) (305 * 10 ^ 9) "s9"
    ⟨1, "alice", some "salt$correct horse battery", true, false, 200 * nanosPerSec⟩ (by decide +kernel) (by decide +kernel)
    (by decide +kernel) rfl (by decide +kernel)

end Pingward
