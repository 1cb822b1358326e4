import Pingward.ElevationInvariant
import Pingward.ModelRoutes

/-! The handlers beside the elevation map against the handlers over the database alone: what the map answers is what
comes with the request. -/

open StoreProgram

namespace Pingward

/-- The route of the same post over the database alone. -/
def AccountPost.route : AccountPost → WebRoute
  | .password form => .accountPassword form
  | .sessionsRevoke handle confirmed => .sessionsRevoke handle confirmed
  | .sessionsRevokeOthers confirmed => .sessionsRevokeOthers confirmed

/-- The unlock form has no route over the database. -/
def AdminPost.route : AdminPost → Option AdminRoute
  | .unlock _ => none
  | .usersCreate form => some (.usersCreate form)
  | .usersDelete id confirmed => some (.usersDelete id confirmed)
  | .usersSetPassword id password => some (.usersSetPassword id password)
  | .usersToggleAdmin id confirmed => some (.usersToggleAdmin id confirmed)
  | .usersSetDisabled id confirmed => some (.usersSetDisabled id confirmed)

namespace Paired

/-! ### The same handlers without the map -/

section Forget

variable (X : Crates) (ctx : WebContext) (clock : Nat) (sid : String) (user : User)

/-- The map as the handlers over the database alone see it: an answer that comes with the request. -/
def assumed (answers : String → Nat → Option Nat) : (c : ElevationCall) → c.Res
  | .remainingSecs handle now => answers handle now
  | .grant _ _ _ | .revoke _ | .revokeUser _ _ => ()

variable (answers : String → Nat → Option Nat)

/-- A call that grants or revokes. -/
def Tells : ElevationCall → Prop
  | .remainingSecs _ _ => False
  | .grant _ _ _ | .revoke _ | .revokeUser _ _ => True

/-- A call of the check. -/
def Asks (query : ElevationCall) : Prop := ¬Tells query

/-- A handler beside the map, against the handler over the database that is given what the map answers. -/
abbrev Refines {α : Type} (asks : ElevationCall → Prop) (program : PairedProg α) (alone : StoreProg AppError α) : Prop :=
  Prog.Mirrors Tells (assumed answers) asks program alone

section Rules

variable {asks : ElevationCall → Prop} {α β : Type}

theorem refines_stored (program : StoreProg AppError α) : Refines answers asks (stored program) program :=
  Prog.Mirrors.lift program

theorem refines_stored_bind (program : StoreProg AppError α) {rest : α → PairedProg β} {alone : α → StoreProg AppError β}
    (hrest : ∀ value, Refines answers asks (rest value) (alone value)) :
    Refines answers asks ((stored program).bind rest) (program.bind alone) := Prog.Mirrors.lift_bind program hrest

theorem refines_ret (value : α) : Refines answers asks (pure value) (pure value) := Prog.Mirrors.ret value

theorem refines_revoke_bind (handle : String) {rest : Unit → PairedProg β} {alone : StoreProg AppError β}
    (hrest : Refines answers (fun _ => False) (rest ()) alone) :
    Refines answers asks ((inMemory (.revoke handle)).bind rest) alone := Prog.Mirrors.told_bind trivial fun _ => hrest

theorem refines_revokeUser_bind (userId : Int) (keep : Option String) {rest : Unit → PairedProg β}
    {alone : StoreProg AppError β}
    (hrest : Refines answers (fun _ => False) (rest ()) alone) :
    Refines answers asks ((inMemory (.revokeUser userId keep)).bind rest) alone := Prog.Mirrors.told_bind trivial fun _ => hrest

/-- A lookup that is skipped. -/
theorem refines_lookup_bind {p : Prop} [Decidable p] (program : StoreProg AppError (Option α))
    {rest : Option α → PairedProg β} {alone : Option α → StoreProg AppError β}
    (hrest : ∀ found, Refines answers asks (rest found) (alone found)) :
    Refines answers asks ((if p then pure none else stored program).bind rest)
      (if p then (Prog.ret none).bind alone else program.bind alone) := by
  split
  · exact hrest none
  · exact refines_stored_bind answers program hrest

/-- The gate of an action that grants access. -/
theorem refines_gate {locked body : PairedProg β} {locked' body' : StoreProg AppError β}
    (hlocked : Refines answers Asks locked locked') (hbody : Refines answers Asks body body') :
    Refines answers Asks
      ((elevation X clock sid user).bind fun current => if !current.allows then locked else body)
      (if !elevationAllows { ctx with elevated := (answers (currentSessionHandle X sid) clock).isSome } user then
        locked' else body') := by
  unfold elevation elevationAllows
  cases user.passwordHash with
  | none => exact hbody
  | some hash =>
      have hasked : Asks (.remainingSecs (currentSessionHandle X sid) clock) := id
      have hverdict : ∀ answer : Option Nat, Refines answers Asks
          (if !(Elevation.mk false answer).allows then locked else body) (if !answer.isSome then locked' else body') := by
        intro answer
        cases answer with
        | none => exact hlocked
        | some secs => exact hbody
      rw [if_neg (by simp), Prog.bind_eq, Prog.bind_assoc]
      exact Prog.Mirrors.asked_bind (Q := ElevationCall.Res)
        (fun answer : Option Nat => if !answer.isSome then locked' else body') hasked
        hverdict

end Rules

variable {asks : ElevationCall → Prop}

theorem logout_refines : Refines answers asks (logout X ctx sid) (Pingward.logout ctx sid) := by
  refine refines_stored_bind answers _ fun _ => refines_revoke_bind answers _ ?_
  cases ctx.forwardAuthLogoutUrl with
  | some url => exact refines_ret answers _
  | none => cases ctx.gatewayUser <;> exact refines_ret answers _

theorem accountPassword_refines (form : ChangePasswordForm) :
    Refines answers asks (accountPassword X ctx sid user form) (Pingward.accountPassword X ctx sid user form) := by
  unfold accountPassword Pingward.accountPassword
  split
  · exact refines_ret answers _
  · cases reauthenticate X ctx user form.currentPassword with
    | failed => exact refines_stored answers _
    | throttled => exact refines_stored answers _
    | passed =>
        cases validatePassword form.newPassword with
        | error msg => exact refines_stored answers _
        | ok _ =>
            dsimp only
            split
            · exact refines_stored answers _
            · refine refines_stored_bind answers _ fun phc => refines_stored_bind answers _ fun _ => ?_
              refine refines_stored_bind answers _ fun revoked => refines_revokeUser_bind answers _ _ ?_
              exact refines_stored_bind answers _ fun _ => refines_ret answers _

theorem sessionsRevoke_refines (handle : String) (confirmed : Bool) :
    Refines answers asks (sessionsRevoke X ctx sid user handle confirmed)
      (Pingward.sessionsRevoke X ctx sid user handle confirmed) := by
  refine refines_stored_bind answers _ fun sessions => ?_
  cases sessions.find? fun s => X.hashApiKey s.id = handle with
  | none => exact refines_ret answers _
  | some target =>
      dsimp only
      split
      · exact refines_stored answers _
      · refine refines_stored_bind answers _ fun _ => refines_revoke_bind answers _ ?_
        split <;> exact refines_ret answers _

theorem sessionsRevokeOthers_refines (confirmed : Bool) :
    Refines answers asks (sessionsRevokeOthers X sid user confirmed) (Pingward.sessionsRevokeOthers X sid user confirmed) := by
  unfold sessionsRevokeOthers Pingward.sessionsRevokeOthers
  split
  · exact refines_stored answers _
  · exact refines_stored_bind answers _ fun _ => refines_revokeUser_bind answers _ _ (refines_ret answers _)

theorem usersCreate_refines (form : NewUserForm) :
    Refines answers Asks (usersCreate X ctx clock sid user form)
      (Pingward.usersCreate X { ctx with elevated := (answers (currentSessionHandle X sid) clock).isSome } sid user form) := by
  unfold usersCreate Pingward.usersCreate
  refine refines_lookup_bind answers _ fun found => ?_
  dsimp only
  cases newUserError form (trim form.username) found.isSome with
  | some error => exact refines_stored answers _
  | none =>
      apply refines_gate X ctx clock sid user answers (refines_ret answers _)
      refine refines_stored_bind answers _ fun phc => refines_stored_bind answers _ fun created => ?_
      match created with
      | .error .uniqueViolation => exact refines_stored answers _
      | .error .foreignKeyViolation => exact Prog.Mirrors.fail _
      | .error .unavailable => exact Prog.Mirrors.fail _
      | .ok id => exact refines_stored_bind answers _ fun _ => refines_ret answers _

theorem usersDelete_refines (id : Int) (confirmed : Bool) :
    Refines answers asks (usersDelete X ctx sid user id confirmed)
      (Pingward.usersDelete X { ctx with elevated := (answers (currentSessionHandle X sid) clock).isSome } sid user
        id confirmed) := by
  unfold usersDelete Pingward.usersDelete
  split
  · exact refines_ret answers _
  · refine refines_stored_bind answers _ fun found => ?_
    cases found with
    | none => exact refines_ret answers _
    | some target =>
        refine refines_stored_bind answers _ fun guarded => ?_
        split
        · exact refines_ret answers _
        · split
          · exact refines_stored answers _
          · refine refines_stored_bind answers _ fun _ => refines_revokeUser_bind answers _ _ ?_
            exact refines_stored_bind answers _ fun _ => refines_ret answers _

theorem usersSetPassword_refines (id : Int) (password : String) :
    Refines answers Asks (usersSetPassword X ctx clock sid user id password)
      (Pingward.usersSetPassword X { ctx with elevated := (answers (currentSessionHandle X sid) clock).isSome } sid
        user id password) := by
  apply refines_gate X ctx clock sid user answers (refines_ret answers _)
  cases validatePassword password with
  | error msg => exact refines_stored answers _
  | ok _ =>
      refine refines_stored_bind answers _ fun found => ?_
      cases found with
      | none => exact refines_ret answers _
      | some target =>
          refine refines_stored_bind answers _ fun phc => refines_stored_bind answers _ fun _ => ?_
          dsimp only
          by_cases hself : id = user.id
          · rw [if_pos hself, if_pos hself, hself]
            refine refines_stored_bind answers _ fun revoked => refines_revokeUser_bind answers _ _ ?_
            refine refines_stored_bind answers _ fun _ => refines_stored_bind answers _ fun keys => ?_
            split <;> exact refines_ret answers _
          · rw [if_neg hself, if_neg hself]
            refine refines_stored_bind answers _ fun revoked => refines_revokeUser_bind answers _ _ ?_
            refine refines_stored_bind answers _ fun _ => refines_stored_bind answers _ fun keys => ?_
            split <;> exact refines_ret answers _

theorem usersToggleAdmin_refines (id : Int) (confirmed : Bool) :
    Refines answers Asks (usersToggleAdmin X ctx clock sid user id confirmed)
      (Pingward.usersToggleAdmin X { ctx with elevated := (answers (currentSessionHandle X sid) clock).isSome } sid
        user id confirmed) := by
  unfold usersToggleAdmin Pingward.usersToggleAdmin
  split
  · exact refines_ret answers _
  · refine refines_stored_bind answers _ fun found => ?_
    cases found with
    | none => exact refines_ret answers _
    | some target =>
        dsimp only
        -- a promotion is gated, a demotion is guarded
        cases target.isAdmin with
        | false =>
            simp only [Bool.not_false, if_true, true_and, Prog.bind_eq, Prog.bind_assoc]
            apply refines_gate X ctx clock sid user answers (refines_ret answers _)
            exact refines_stored_bind answers _ fun _ => refines_stored_bind answers _ fun _ => refines_ret answers _
        | true =>
            refine refines_stored_bind answers _ fun guarded => ?_
            split
            · exact refines_ret answers _
            · split
              · exact refines_stored answers _
              · exact refines_stored_bind answers _ fun _ => refines_stored_bind answers _ fun _ => refines_ret answers _

theorem usersSetDisabled_refines (id : Int) (confirmed : Bool) :
    Refines answers asks (usersSetDisabled X ctx sid user id confirmed)
      (Pingward.usersSetDisabled X { ctx with elevated := (answers (currentSessionHandle X sid) clock).isSome } sid
        user id confirmed) := by
  unfold usersSetDisabled Pingward.usersSetDisabled
  split
  · exact refines_ret answers _
  · refine refines_stored_bind answers _ fun found => ?_
    cases found with
    | none => exact refines_ret answers _
    | some target =>
        dsimp only
        cases target.disabled with
        | false =>
            refine refines_stored_bind answers _ fun guarded => ?_
            split
            · exact refines_ret answers _
            · split
              · exact refines_stored answers _
              · refine refines_stored_bind answers _ fun _ => refines_stored_bind answers _ fun revoked => ?_
                exact refines_revokeUser_bind answers _ _ (refines_stored_bind answers _ fun _ => refines_ret answers _)
        | true => exact refines_stored_bind answers _ fun _ => refines_stored_bind answers _ fun _ => refines_ret answers _

/-! ### Requests -/

theorem accountHandle_refines (post : AccountPost) :
    Refines answers asks (accountHandle X ctx sid user post) (webHandle X ctx sid user post.route) := by
  cases post with
  | password form => exact accountPassword_refines X ctx sid user answers form
  | sessionsRevoke handle confirmed => exact sessionsRevoke_refines X ctx sid user answers handle confirmed
  | sessionsRevokeOthers confirmed => exact sessionsRevokeOthers_refines X sid user answers confirmed

theorem adminHandle_refines (post : AdminPost) (route : AdminRoute) (hroute : post.route = some route) :
    Refines answers Asks (adminHandle X ctx clock sid user post)
      ((Pingward.adminHandle X { ctx with elevated := (answers (currentSessionHandle X sid) clock).isSome } sid user route).bind
        fun response => .ret (.inr response)) := by
  cases post with
  | unlock password => cases hroute
  | usersCreate form =>
      cases hroute
      exact Prog.Mirrors.map Sum.inr (usersCreate_refines X ctx clock sid user answers form)
  | usersDelete id confirmed =>
      cases hroute
      exact Prog.Mirrors.map Sum.inr (usersDelete_refines X ctx clock sid user answers id confirmed)
  | usersSetPassword id password =>
      cases hroute
      exact Prog.Mirrors.map Sum.inr (usersSetPassword_refines X ctx clock sid user answers id password)
  | usersToggleAdmin id confirmed =>
      cases hroute
      exact Prog.Mirrors.map Sum.inr (usersToggleAdmin_refines X ctx clock sid user answers id confirmed)
  | usersSetDisabled id confirmed =>
      cases hroute
      exact Prog.Mirrors.map Sum.inr (usersSetDisabled_refines X ctx clock sid user answers id confirmed)

theorem logoutRequest_refines : Refines answers asks (logoutRequest X ctx) (webRequest X ctx .logout) := by
  refine refines_stored_bind answers _ fun sid => ?_
  cases ctx.csrfOk with
  | false => exact refines_ret answers _
  | true => exact logout_refines X ctx sid answers

/-- The layers and the extractor in front of a handler of a signed-in user's `POST`. -/
theorem signedIn_bind (handler : String → User → StoreProg AppError Response) :
    ((signedIn ctx).bind fun found => match found with
      | .error response => .ret response
      | .ok (sid, user) => handler sid user) = (do
        let sid ← requestSession ctx
        if !ctx.csrfOk then return .status 403 ""
        match ← resolveUser ctx sid with
        | none => return .redirect "/login"
        | some user => handler sid user) := by
  unfold signedIn
  rw [Prog.bind_eq, Prog.bind_assoc, Prog.bind_eq]
  congr 1
  funext sid
  cases ctx.csrfOk with
  | false => rfl
  | true =>
      simp only [Prog.bind_eq]
      rw [if_neg (by decide), if_neg (by decide), Prog.bind_assoc]
      congr 1
      funext found
      cases found <;> rfl

theorem asAdmin_bind (handler : String → User → StoreProg AppError Response) :
    asAdmin ctx true handler = (signedInAdmin ctx).bind fun found => match found with
      | .error response => .ret response
      | .ok (sid, user) => handler sid user := by
  have hinner : ((signedInAdmin ctx).bind fun found => match found with
      | .error response => .ret response
      | .ok (sid, user) => handler sid user) =
      (signedIn ctx).bind fun found => match found with
        | .error response => .ret response
        | .ok (sid, user) => if user.isAdmin then handler sid user else .ret (.status 403 "admin only") := by
    unfold signedInAdmin
    rw [Prog.bind_eq, Prog.bind_assoc]
    congr 1
    funext found
    match found with
    | .error response => rfl
    | .ok (sid, user) =>
        dsimp only [Prog.pure_eq, Prog.ret_bind]
        cases user.isAdmin <;> rfl
  rw [hinner, signedIn_bind]
  rfl

theorem accountRequest_refines (post : AccountPost) :
    Refines answers asks (accountRequest X ctx post) (webRequest X ctx post.route) := by
  have hrequest : webRequest X ctx post.route = (signedIn ctx).bind fun found => match found with
      | .error response => .ret response
      | .ok (sid, user) => webHandle X ctx sid user post.route := by
    rw [signedIn_bind]
    cases post <;>
    · refine congrArg (Prog.bind _) (funext fun sid => ?_)
      refine ite_congr rfl (fun _ => rfl) fun _ => congrArg (Prog.bind _) (funext fun found => ?_)
      cases found <;> rfl
  rw [hrequest]
  refine refines_stored_bind answers _ fun found => ?_
  cases found with
  | error response => exact refines_ret answers _
  | ok signed => exact accountHandle_refines X ctx signed.1 signed.2 answers post

theorem adminRequest_refines (post : AdminPost) (route : AdminRoute) (hroute : post.route = some route) :
    Refines answers Asks (adminRequest X ctx clock post)
      ((asAdmin ctx true fun sid user => Pingward.adminHandle X
          { ctx with elevated := (answers (currentSessionHandle X sid) clock).isSome } sid user route).bind
        fun response => .ret (.inr response)) := by
  rw [asAdmin_bind, Prog.bind_assoc]
  refine refines_stored_bind answers _ fun found => ?_
  cases found with
  | error response => exact refines_ret answers _
  | ok signed => exact adminHandle_refines X ctx clock signed.1 signed.2 answers post route hroute

end Forget

/-- The map beside the database. -/
theorem beside (answers : String → Nat → Option Nat) :
    Beside execMoved execHeld exec World.db Tells (assumed answers) Asks fun world =>
      world.elevations.remainingSecs = answers where
  seen _ _ := ⟨rfl, rfl⟩
  kept _ _ hstate := hstate
  unseen _ _ := rfl
  asked query state hquery hstate := by
    cases query with
    | remainingSecs handle now => exact ⟨congrArg Except.ok (congrFun (congrFun hstate handle) now), hstate⟩
    | grant handle userId now => exact absurd trivial hquery
    | revoke handle => exact absurd trivial hquery
    | revokeUser userId keep => exact absurd trivial hquery
  told query state htells := by
    cases query with
    | remainingSecs handle now => exact htells.elim
    | grant handle userId now => rfl
    | revoke handle => rfl
    | revokeUser userId keep => rfl

theorem run_refines {α : Type} {program : PairedProg α} {alone : StoreProg AppError α} {world : World}
    (hrefines : Refines world.elevations.remainingSecs Asks program alone) :
    Alike World.db (run execWorld program world) (run exec alone world.db) :=
  (beside _).run_mirrors hrefines rfl

end Paired

/-- **Refinement.** A request beside the map answers and leaves the database as the request over the database alone, for
which the check is a verdict that comes with the request: what the map says, before the request, of the session that the
layers find. -/
theorem requests_beside_map (X : Crates) (ctx : WebContext) (clock : Nat) (world : World) :
    Alike World.db (run execWorld (Paired.logoutRequest X ctx) world) (run exec (webRequest X ctx .logout) world.db) ∧
    (∀ post : AccountPost, Alike World.db (run execWorld (Paired.accountRequest X ctx post) world)
      (run exec (webRequest X ctx post.route) world.db)) ∧
    ∀ (post : AdminPost) (route : AdminRoute), post.route = some route →
      Alike World.db (run execWorld (Paired.adminRequest X ctx clock post) world)
        (run exec ((asAdmin ctx true fun sid user => adminHandle X
            { ctx with elevated := (world.elevations.remainingSecs (X.hashApiKey sid) clock).isSome } sid user route).bind
          fun response => .ret (.inr response)) world.db) :=
  ⟨Paired.run_refines (Paired.logoutRequest_refines ..),
    fun post => Paired.run_refines (Paired.accountRequest_refines X ctx _ post),
    fun post route hroute => Paired.run_refines (Paired.adminRequest_refines X ctx clock _ post route hroute)⟩

/-- A new account, created from a session that is not elevated. -/
theorem requests_beside_map_create :
    Alike World.db
      (run execWorld (Paired.adminRequest plainCrates WebContext.sample 0 (.usersCreate ⟨"bob", "another long password", none⟩))
        ⟨.sample, .new elevationTtlSecs, []⟩)
      (run exec ((asAdmin WebContext.sample true fun sid user => adminHandle plainCrates
          { WebContext.sample with
            elevated := ((Elevations.new elevationTtlSecs).remainingSecs (plainCrates.hashApiKey sid) 0).isSome } sid user
          (.usersCreate ⟨"bob", "another long password", none⟩)).bind
        fun response => .ret (.inr response)) .sample) :=
  (requests_beside_map plainCrates WebContext.sample 0 ⟨.sample, .new elevationTtlSecs, []⟩).2.2
    (.usersCreate ⟨"bob", "another long password", none⟩) (.usersCreate ⟨"bob", "another long password", none⟩) rfl

end Pingward
