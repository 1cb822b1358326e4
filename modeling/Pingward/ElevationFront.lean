import Pingward.ElevationHandlers
import Pingward.TenantIsolation

/-! The session a handler sees is one of its user: the layers hand on a session that is accepted, a new one of the
gateway's user, or an id under which nobody is signed in. -/

open KeyedTable StoreProgram

namespace Pingward

/-! ### Accepted sessions -/

section Accepted

variable {db : Db} {sid : String} {now : Instant} {user : User}

/-- A session is accepted for the user its row names. -/
theorem findSessionUser_some (hfound : (db.findSessionUser sid now).1 = some user) :
    (∃ session, db.sessions.find sid = some session ∧ session.userId = user.id ∧ session.accepts now) ∧
      db.users.find user.id = some user := by
  unfold Db.findSessionUser at hfound
  split at hfound
  · cases hfound
  · rename_i session hsession
    split at hfound
    · cases hfound
    · rename_i account haccount
      have hid := Table.find_key _ haccount
      split at hfound
      · cases hfound
      · rename_i hlive
        split at hfound
        · cases hfound
        · rename_i hage
          cases hfound
          refine ⟨⟨session, hsession, hid.symm, not_le.mp hlive, by simpa using hage⟩, ?_⟩
          rw [hid]
          exact haccount

/-- A session that is not accepted is left alone. -/
theorem findSessionUser_none (hnone : (db.findSessionUser sid now).1 = none) : (db.findSessionUser sid now).2 = db := by
  unfold Db.findSessionUser at hnone ⊢
  split
  · rfl
  · split
    · rfl
    · split
      · rfl
      · split
        · rfl
        · simp_all

/-- An accepted session is accepted once more at the same time, whatever the renewal wrote. -/
theorem Session.accepts_touched {session : Session} (haccepts : session.accepts now) : (session.touched now).accepts now := by
  obtain ⟨hlive, hage⟩ := haccepts
  have hnext : now < now + sessionIdleTtl := lt_add_of_pos_right _ (by decide)
  refine ⟨?_, by rw [session.touched_createdAt]; exact hage⟩
  rw [session.touched_expiresAt]
  unfold refreshedExpiry
  cases hcreated : session.createdAt with
  | none =>
      simp only [Option.map_none, Option.any_none, Bool.false_eq_true, if_false]
      split
      · exact hnext
      · split
        · exact hlive
        · exact hnext
  | some opened =>
      have hcap : now < opened + sessionAbsoluteMax := by
        rw [hcreated, isPastAbsoluteCap, Option.any_some, decide_eq_false_iff_not, not_le] at hage
        exact hage
      simp only [Option.map_some, Option.any_some, decide_eq_true_eq]
      split
      · exact hlive
      · split
        · exact lt_min hnext hcap
        · split
          · exact hlive
          · exact lt_min hnext hcap

theorem findSessionUser_again (hfound : (db.findSessionUser sid now).1 = some user) :
    ((db.findSessionUser sid now).2.findSessionUser sid now).1 = some user := by
  obtain ⟨⟨session, hsession, huserId, haccepts⟩, huser⟩ := findSessionUser_some hfound
  rw [← huserId] at huser
  have hexec := findSessionUser_of_accepts hsession huser haccepts
  have hstate : (db.findSessionUser sid now).2 =
      { db with sessions := db.sessions.update sid (·.touched now) fun row => row.touched_id now } := congrArg Prod.snd hexec
  have htouched : (db.sessions.update sid (·.touched now) fun row => row.touched_id now).find sid =
      some (session.touched now) := by rw [Table.find_update_self, hsession, Option.map_some]
  have hagain : (exec (.findSessionUser sid now) { db with
      sessions := db.sessions.update sid (·.touched now) fun row => row.touched_id now }).1 = .ok (some user) :=
    congrArg Prod.fst (findSessionUser_of_accepts htouched (by rw [session.touched_userId]; exact huser)
      (Session.accepts_touched haccepts))
  rw [hstate]
  exact Except.ok.inj hagain

end Accepted

/-! ### New users -/

/-- An accepted insert of a user, who is enabled. -/
theorem createUser_row {db after : Db} {username : String} {phc : Option String} {isAdmin : Bool} {now : Instant} {uid : Int}
    (hcreate : exec (.createUser username phc isAdmin now) db = (.ok uid, after)) :
    after.users.find uid = some ⟨uid, username, phc, isAdmin, false, now⟩ := by
  simp only [exec, Db.createUser] at hcreate
  split at hcreate
  · cases hcreate
  · cases hcreate
    apply (AutoTable.find_insert db.users _ _ _).trans
    rw [if_pos rfl]

/-! ### The gateway's user -/

theorem forwardAuthUser_mild (ctx : WebContext) : (forwardAuthUser ctx).Only StoreCall.Mild fun _ => True := by
  unfold forwardAuthUser
  split
  · trivial
  · refine (attemptCall_only (mild_of_frame (by simp [StoreCall.writes]) (by simp [StoreCall.writes]))).bind fun answer => ?_
    split
    · trivial
    · trivial
    · refine (attemptCall_only (Or.inl (calm_createUser _ _ _ _))).bind fun answer => ?_
      split
      · trivial
      · exact (attemptCall_only (mild_of_frame (by simp [StoreCall.writes]) (by simp [StoreCall.writes]))).bind
          fun _ => trivial

theorem sessionLive_mild (ctx : WebContext) : (sessionLive ctx).Only StoreCall.Mild fun _ => True := by
  unfold sessionLive
  split
  · trivial
  · exact (attemptCall_only (Or.inl (calm_findSessionUser _ _))).bind fun _ => trivial

/-- The user named by the gateway is enabled. Where none is, nothing is written. -/
theorem forwardAuthUser_run (ctx : WebContext) (db : Db) : ∃ found after,
    run exec (forwardAuthUser ctx) db = ⟨.ok found, after, []⟩ ∧
      (∀ user, found = some user → after.users.find user.id = some user ∧ user.disabled = false) ∧
      (found = none → after = db) := by
  unfold forwardAuthUser
  cases hgateway : ctx.gatewayUser with
  | none => exact ⟨none, db, rfl, by simp, fun _ => rfl⟩
  | some username =>
      have hread : ∀ rest : Except StoreError (Option User) → StoreProg AppError (Option User),
          run exec ((attemptCall (.findUserByUsername username)).bind rest) db =
            run exec (rest (.ok (db.findUserByUsername username))) db := fun _ => rfl
      simp only [Prog.bind_eq, Prog.pure_eq, hread]
      cases hfound : db.findUserByUsername username with
      | some row =>
          have hrow : db.users.find row.id = some row :=
            (Table.find_eq_some_iff _).mpr ⟨List.mem_of_find?_eq_some hfound, rfl⟩
          cases hdisabled : row.disabled with
          | true => exact ⟨none, db, by simp [hdisabled], by simp, fun _ => rfl⟩
          | false =>
              refine ⟨some row, db, by simp [hdisabled], ?_, fun h => by cases h⟩
              rintro user ⟨⟩
              exact ⟨hrow, hdisabled⟩
      | none =>
          let added : Db := { db with
            users := db.users.insert (fun id => ⟨id, username, none, false, false, ctx.now⟩) fun _ => rfl }
          have hcreate : exec (.createUser username none false ctx.now) db = (.ok db.users.next, added) := by
            simp only [exec, Db.createUser, hfound, Option.isSome_none, Bool.false_eq_true, if_false]
            rfl
          have hrow : added.users.find db.users.next = some ⟨db.users.next, username, none, false, false, ctx.now⟩ :=
            createUser_row hcreate
          have hrun : ∀ rest : Except StoreError Int → StoreProg AppError (Option User),
              run exec ((attemptCall (.createUser username none false ctx.now)).bind rest) db =
                run exec (rest (.ok db.users.next)) added := by
            intro rest
            simp only [attemptCall, Prog.attempt, Prog.call_bind, Prog.ret_bind, run_call, hcreate]
          refine ⟨some ⟨db.users.next, username, none, false, false, ctx.now⟩, added, ?_, ?_, fun h => by cases h⟩
          · simp only [hrun]
            simp only [attemptCall, Prog.attempt, Prog.call_bind, Prog.ret_bind, run_call, exec, Db.findUserById, hrow]
            rfl
          · rintro user ⟨⟩
            exact ⟨hrow, rfl⟩

/-! ### The layers and the extractor -/

section Front

variable {X : Crates} {issued : List String} {unlocks : List Unlock} {world : World}

/-- A program over the database alone sees the database of the world. -/
theorem run_moved {A α : Type} (program : StoreProg A α) (world : World) :
    (run execMoved program world).outcome = (run exec program world.db).outcome ∧
      (run execMoved program world).state.db = (run exec program world.db).state :=
  run_view World.db (fun _ _ => ⟨rfl, rfl⟩) program world

/-- A call of the database, refused or not. -/
theorem settles_call {c : StoreCall} {I : World → Prop} (hleft : I (execMoved c world).2) :
    Settles execMoved I (fun _ _ => True) (store c) world := Settles.performed hleft fun _ _ => trivial

/-- Under this id a user is signed in, or the gateway names nobody. -/
def Fronted (ctx : WebContext) (sid : String) (db : Db) : Prop :=
  (∃ user, (db.findSessionUser sid ctx.now).1 = some user) ∨ run exec (forwardAuthUser ctx) db = ⟨.ok none, db, []⟩

theorem forwardAuthUser_settles (ctx : WebContext) (hsound : world.Sound X issued unlocks) :
    Settles execMoved (World.Sound X issued unlocks) (fun found after => after.Sound X issued unlocks ∧
      (∀ user, found = some user → after.db.users.find user.id = some user ∧ user.disabled = false) ∧
      (found = none → run exec (forwardAuthUser ctx) after.db = ⟨.ok none, after.db, []⟩))
      (forwardAuthUser ctx) world := by
  have hsettles := settles_moved (forwardAuthUser_mild ctx) hsound
  refine ⟨hsettles.left, fun found hok => ⟨hsettles.left, ?_⟩⟩
  obtain ⟨houtcome, hdb⟩ := run_moved (forwardAuthUser ctx) world
  obtain ⟨found', after, hrun, hsome, hnone⟩ := forwardAuthUser_run ctx world.db
  rw [hok, hrun] at houtcome
  rw [hrun] at hdb
  cases houtcome
  rw [hdb]
  refine ⟨hsome, fun hfound => ?_⟩
  dsimp only
  rw [hnone hfound, hrun, hfound, hnone hfound]

theorem sessionLive_settles (ctx : WebContext) (hsound : world.Sound X issued unlocks) :
    Settles execMoved (World.Sound X issued unlocks) (fun live after => after.Sound X issued unlocks ∧
      (live = true → Fronted ctx (ctx.sessionId.getD ctx.anonymousSession) after.db)) (sessionLive ctx) world := by
  have hsettles := settles_moved (sessionLive_mild ctx) hsound
  refine ⟨hsettles.left, fun live hok => ⟨hsettles.left, fun hlive => Or.inl ?_⟩⟩
  obtain ⟨houtcome, hdb⟩ := run_moved (sessionLive ctx) world
  rw [hok] at houtcome
  rw [hdb]
  subst hlive
  unfold sessionLive at houtcome ⊢
  cases hid : ctx.sessionId with
  | none =>
      rw [hid] at houtcome
      cases houtcome
  | some id =>
      rw [hid] at houtcome
      cases hfound : (world.db.findSessionUser id ctx.now).1 with
      | none =>
          simp only [Prog.bind_eq, attemptCall, Prog.attempt, Prog.call_bind, Prog.ret_bind, Prog.pure_eq, run_call, exec,
            hfound] at houtcome
          cases houtcome
      | some user => exact ⟨user, findSessionUser_again hfound⟩

variable {visit : Visit}

/-- The id the layers hand on, and the session they may open. -/
theorem requestSession_settles (hfresh : visit.freshSession ∉ issued) (hsound : world.Sound X issued unlocks) :
    Settles execMoved (World.Sound X (issued ++ [visit.freshSession]) unlocks)
      (fun sid after => Fronted visit.toWebContext sid after.db) (requestSession visit.toWebContext) world := by
  have hgrow : ∀ after : World, after.Sound X issued unlocks → after.Sound X (issued ++ [visit.freshSession]) unlocks :=
    fun after hafter => hafter.mono (fun _ h => List.mem_append_left _ h) fun _ h => h
  unfold requestSession
  cases hforward : visit.forwardAuth with
  | false =>
      have hgateway : visit.gatewayUser = none := by
        cases huser : visit.gatewayUser with
        | none => rfl
        | some username =>
            have hon := visit.gateway (by rw [huser]; rfl)
            rw [hforward] at hon
            cases hon
      refine Settles.ret (hgrow world hsound) (Or.inr ?_)
      unfold forwardAuthUser
      rw [hgateway]
      rfl
  | true =>
      refine ((sessionLive_settles visit.toWebContext hsound).mono hgrow fun _ _ _ h => h).bind
        fun live looked _ hlooked => ?_
      cases live with
      | true => exact Settles.ret (hgrow looked hlooked.1) (hlooked.2 rfl)
      | false =>
          refine ((forwardAuthUser_settles visit.toWebContext hlooked.1).mono hgrow fun _ _ _ h => h).bind
            fun found named _ hnamed => ?_
          obtain ⟨hnamedSound, hsome, hnone⟩ := hnamed
          cases found with
          | none => exact Settles.ret (hgrow named hnamedSound) (Or.inr (hnone rfl))
          | some user =>
              obtain ⟨huser, henabled⟩ := hsome user rfl
              have hnew : ∀ ending ∈ named.ended, visit.freshSession ≠ ending.session := fun ending hending heq =>
                hfresh (heq ▸ hnamedSound.keyed.endedIssued ending hending)
              have hfree : named.db.sessions.find visit.freshSession = none := by
                rw [Table.find_eq_none_iff]
                intro row hrow heq
                exact hfresh (heq ▸ hnamedSound.keyed.sessionsIssued _ (Db.mem_sessionUsers.mpr ⟨row, hrow, rfl, rfl⟩))
              obtain ⟨opened, hcreate⟩ : ∃ opened, exec (.createSession ⟨visit.freshSession, user.id,
                  visit.now + sessionIdleTtl, visit.userAgent, visit.ip, true⟩ visit.now) named.db = (.ok (), opened) := by
                simp only [exec, Db.createSession, huser, Option.isNone_some, Bool.false_eq_true, if_false]
                split
                · rename_i hrefused
                  rw [Table.insert_eq_none_iff, hfree] at hrefused
                  cases hrefused
                · exact ⟨_, rfl⟩
              have hopened := (findSessionUser_createSession huser rfl hcreate).1
              refine Settles.bind (P := fun answer after => answer = .ok () ∧ after.db = opened)
                (Settles.attempt ?_ ?_) ?_
              · exact (hgrow named hnamedSound).opened (List.mem_append_right _ (List.mem_singleton.mpr rfl)) hnew
                  huser henabled
              · exact ⟨congrArg Prod.fst hcreate, congrArg Prod.snd hcreate⟩
              · rintro answer after hafter ⟨rfl, hdb⟩
                exact Settles.ret hafter (Or.inl ⟨user, hdb ▸ hopened⟩)

theorem resolveUser_settles {ctx : WebContext} {sid : String} (hfronted : Fronted ctx sid world.db)
    (hsound : world.Sound X issued unlocks) :
    Settles execMoved (World.Sound X issued unlocks)
      (fun found after => ∀ user, found = some user → (sid, user.id) ∈ after.db.sessionUsers) (resolveUser ctx sid) world := by
  refine Settles.bind (P := fun answer after => answer = .ok (world.db.findSessionUser sid ctx.now).1 ∧
    after.db = (world.db.findSessionUser sid ctx.now).2)
    (Settles.attempt (hsound.mild (Or.inl (calm_findSessionUser _ _))) ⟨rfl, rfl⟩) ?_
  rintro answer after hafter ⟨rfl, hdb⟩
  cases hfound : (world.db.findSessionUser sid ctx.now).1 with
  | some user =>
      obtain ⟨⟨session, hsession, huserId, -⟩, huser⟩ := findSessionUser_some hfound
      have hrow : (sid, user.id) ∈ world.db.sessionUsers :=
        Db.mem_sessionUsers.mpr ⟨session, Table.find_mem _ hsession, Table.find_key _ hsession, huserId⟩
      have henabled : user.disabled = false := hsound.enabled _ hrow user huser
      have hrows : after.db.sessionUsers = world.db.sessionUsers := hdb ▸ (calm_findSessionUser sid ctx.now world.db).1
      simp only [Except.toOption, Option.join_some, henabled]
      apply Settles.ret hafter
      rintro other ⟨⟩
      rw [hrows]
      exact hrow
  | none =>
      rw [findSessionUser_none hfound] at hdb
      rcases hfronted with ⟨user, huser⟩ | hnobody
      · rw [hfound] at huser
        cases huser
      · refine ⟨(forwardAuthUser_settles ctx hafter).left, fun found hok user huser => ?_⟩
        have houtcome := (run_moved (forwardAuthUser ctx) after).1
        rw [hdb, hnobody] at houtcome
        have hnone : found = none := Outcome.ok.inj (hok.symm.trans houtcome)
        rw [hnone] at huser
        cases huser

/-- The session a handler sees is one of its user. -/
theorem signedIn_settles (hfresh : visit.freshSession ∉ issued) (hsound : world.Sound X issued unlocks) :
    Settles execMoved (World.Sound X (issued ++ [visit.freshSession]) unlocks)
      (fun found after => ∀ sid user, found = .ok (sid, user) → (sid, user.id) ∈ after.db.sessionUsers)
      (signedIn visit.toWebContext) world := by
  refine (requestSession_settles hfresh hsound).bind fun sid after hafter hfronted => ?_
  split
  · apply Settles.ret hafter
    rintro _ _ ⟨⟩
  · refine (resolveUser_settles hfronted hafter).bind fun found resolved hresolved hfound => ?_
    cases found with
    | none =>
        apply Settles.ret hresolved
        rintro _ _ ⟨⟩
    | some user =>
        apply Settles.ret hresolved
        rintro _ _ ⟨⟩
        exact hfound user rfl

theorem signedInAdmin_settles (hfresh : visit.freshSession ∉ issued) (hsound : world.Sound X issued unlocks) :
    Settles execMoved (World.Sound X (issued ++ [visit.freshSession]) unlocks)
      (fun found after => ∀ sid user, found = .ok (sid, user) → (sid, user.id) ∈ after.db.sessionUsers)
      (signedInAdmin visit.toWebContext) world := by
  refine (signedIn_settles hfresh hsound).bind fun found after hafter hfound => ?_
  cases found with
  | error response =>
      apply Settles.ret hafter
      rintro _ _ ⟨⟩
  | ok signed =>
      apply Settles.ret hafter
      intro sid user heq
      split at heq
      · cases heq
        exact hfound _ _ rfl
      · cases heq

/-- A session is opened for an enabled user, under an id no session had. -/
theorem openSession_settles (ctx : WebContext) (user : User) (sso : Bool) (hfresh : ctx.freshSession ∉ issued)
    (huser : world.db.users.find user.id = some user) (henabled : user.disabled = false)
    (hsound : world.Sound X issued unlocks) :
    Settles execMoved (World.Sound X (issued ++ [ctx.freshSession]) unlocks) (fun _ _ => True)
      (openSession ctx user.id sso) world := by
  have hnew : ∀ ending ∈ world.ended, ctx.freshSession ≠ ending.session := fun ending hending heq =>
    hfresh (heq ▸ hsound.keyed.endedIssued ending hending)
  apply settles_call (c := .createSession _ _)
  have hgrown : world.Sound X (issued ++ [ctx.freshSession]) unlocks :=
    hsound.mono (fun _ h => List.mem_append_left _ h) fun _ h => h
  exact hgrown.opened (List.mem_append_right _ (List.mem_singleton.mpr rfl)) hnew huser henabled

/-- A sign-in opens a session of an enabled user. -/
theorem loginSubmit_settles (ctx : WebContext) (sid : String) (creds : Credentials) (hfresh : ctx.freshSession ∉ issued)
    (hsound : world.Sound X issued unlocks) :
    Settles execMoved (World.Sound X (issued ++ [ctx.freshSession]) unlocks) (fun _ _ => True) (loginSubmit X ctx sid creds)
      world := by
  have hgrow : ∀ after : World, after.Sound X issued unlocks → after.Sound X (issued ++ [ctx.freshSession]) unlocks :=
    fun after hafter => hafter.mono (fun _ h => List.mem_append_left _ h) fun _ h => h
  unfold loginSubmit
  split
  · exact Settles.ret (hgrow _ hsound) trivial
  · split
    · exact Settles.ret (hgrow _ hsound) trivial
    · have hread := hsound.mild (mild_of_frame (c := .findUserByUsername creds.username) (by simp [StoreCall.writes])
        (by simp [StoreCall.writes]))
      apply Settles.perform rfl
      split
      · exact Settles.ret (hgrow _ hread) trivial
      · split
        · exact Settles.panic (hgrow _ hread)
        · rename_i account haccount
          split
          · exact Settles.ret (hgrow _ hread) trivial
          · rename_i henabled
            have huser : (execMoved (.findUserByUsername creds.username) world).2.db.users.find account.id = some account :=
              (Table.find_eq_some_iff _).mpr ⟨List.mem_of_find?_eq_some haccount, rfl⟩
            have hopened := openSession_settles ctx account false hfresh huser (by simpa using henabled) hread
            refine hopened.bind fun opened after hafter _ => ?_
            exact Settles.ret hafter trivial

/-- The setup opens a session of the user it creates. -/
theorem setupSubmit_settles (ctx : WebContext) (sid : String) (creds : Credentials) (hfresh : ctx.freshSession ∉ issued)
    (hsound : world.Sound X issued unlocks) :
    Settles execMoved (World.Sound X (issued ++ [ctx.freshSession]) unlocks) (fun _ _ => True) (setupSubmit X ctx sid creds)
      world := by
  have hgrow : ∀ after : World, after.Sound X issued unlocks → after.Sound X (issued ++ [ctx.freshSession]) unlocks :=
    fun after hafter => hafter.mono (fun _ h => List.mem_append_left _ h) fun _ h => h
  have hcounted := hsound.mild (mild_of_frame (c := .countUsers) (by simp [StoreCall.writes]) (by simp [StoreCall.writes]))
  apply Settles.perform rfl
  split
  · exact Settles.ret (hgrow _ hcounted) trivial
  · split
    · exact Settles.ret (hgrow _ hcounted) trivial
    · have hhash : Settles execMoved (World.Sound X (issued ++ [ctx.freshSession]) unlocks)
          (fun _ after => after.Sound X issued unlocks) (hashOrFail X ctx creds.password) _ :=
        (settles_moved (hashOrFail_mild creds.password) hcounted).mono hgrow fun _ _ hafter _ => hafter
      refine hhash.bind fun phc hashed _ hhashed => ?_
      have hcreated := hhashed.mild (Or.inl (calm_createUser creds.username (some phc) true ctx.now))
      refine Settles.bind (P := fun answer after => after.Sound X issued unlocks ∧ ∀ uid, answer = .ok uid →
        after.db.users.find uid = some ⟨uid, creds.username, some phc, true, false, ctx.now⟩)
        (Settles.attempt (hgrow _ hcreated) ?_) ?_
      · exact ⟨hcreated, fun uid hanswer => createUser_row (Prod.ext hanswer rfl)⟩
      · rintro answer after hafter ⟨hbefore, hrow⟩
        split
        · exact Settles.ret hafter trivial
        · exact Settles.fail hafter
        · rename_i uid
          have hopened := openSession_settles ctx ⟨uid, creds.username, some phc, true, false, ctx.now⟩ false hfresh
            (hrow uid rfl)
            rfl hbefore
          refine hopened.bind fun session opened hleft _ => ?_
          exact Settles.ret hleft trivial

end Front

end Pingward
