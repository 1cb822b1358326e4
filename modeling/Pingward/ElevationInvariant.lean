import Pingward.ElevationFront

/-! Sequential runs: an elevated session was unlocked by its user less than the TTL ago, and no entry of the map
outlives a session that a handler ended. -/

open KeyedTable StoreProgram

namespace Pingward

/-! ### Requests -/

section Requests

variable {X : Crates} {issued : List String} {unlocks : List Unlock} {world : World} {visit : Visit}

theorem accountRequest_settles (post : AccountPost) (hfresh : visit.freshSession ∉ issued)
    (hhandles : ((issued ++ [visit.freshSession]).map X.hashApiKey).Nodup) (hsound : world.Sound X issued unlocks) :
    Settles execWorld (World.Sound X (issued ++ [visit.freshSession]) unlocks) (fun _ _ => True)
      (Paired.accountRequest X visit.toWebContext post) world := by
  refine (signedIn_settles hfresh hsound).lift.bind fun found after hafter hfound => ?_
  cases found with
  | error response => exact Settles.ret hafter trivial
  | ok signed =>
      obtain ⟨sid, user⟩ := signed
      have hapart : Apart X (issued ++ [visit.freshSession]) sid :=
        apart_of_nodup hhandles (hafter.keyed.sessionsIssued _ (hfound sid user rfl))
      cases post with
      | password form => exact Paired.accountPassword_settles hapart form hafter
      | sessionsRevoke handle confirmed => exact Paired.sessionsRevoke_settles handle confirmed hafter
      | sessionsRevokeOthers confirmed => exact Paired.sessionsRevokeOthers_settles hapart confirmed hafter

theorem logoutRequest_settles (hfresh : visit.freshSession ∉ issued) (hsound : world.Sound X issued unlocks) :
    Settles execWorld (World.Sound X (issued ++ [visit.freshSession]) unlocks) (fun _ _ => True)
      (Paired.logoutRequest X visit.toWebContext) world := by
  refine (requestSession_settles hfresh hsound).lift.bind fun sid after hafter _ => ?_
  split
  · exact Settles.ret hafter trivial
  · exact Paired.logout_settles hafter

/-- The front of a request of nobody, then a program that opens a session of its own. -/
theorem opening_settles {opened : String} {answer : Response} {program : String → StoreProg AppError Response}
    (hfresh : visit.freshSession ∉ issued) (hsound : world.Sound X issued unlocks)
    (hprogram : ∀ sid after, after.Sound X (issued ++ [visit.freshSession]) unlocks →
      Settles execMoved (World.Sound X (issued ++ [visit.freshSession] ++ [opened]) unlocks) (fun _ _ => True) (program sid)
        after) :
    Settles execWorld (World.Sound X (issued ++ [visit.freshSession] ++ [opened]) unlocks) (fun _ _ => True)
      ((stored (requestSession visit.toWebContext)).bind fun sid =>
        if !visit.csrfOk then .ret answer else stored (program sid)) world := by
  have hgrow : ∀ after : World, after.Sound X (issued ++ [visit.freshSession]) unlocks →
      after.Sound X (issued ++ [visit.freshSession] ++ [opened]) unlocks :=
    fun after hafter => hafter.mono (fun _ h => List.mem_append_left _ h) fun _ h => h
  have hfront : Settles execWorld (World.Sound X (issued ++ [visit.freshSession] ++ [opened]) unlocks)
      (fun _ after => after.Sound X (issued ++ [visit.freshSession]) unlocks)
      (stored (requestSession visit.toWebContext)) world :=
    (requestSession_settles hfresh hsound).lift.mono hgrow fun _ _ hafter _ => hafter
  refine hfront.bind fun sid after hafter hbefore => ?_
  split
  · exact Settles.ret hafter trivial
  · exact (hprogram sid after hbefore).lift

theorem adminRequest_settles (clock : Nat) (post : AdminPost) (hfresh : visit.freshSession ∉ issued)
    (hhandles : ((issued ++ [visit.freshSession]).map X.hashApiKey).Nodup) (hsound : world.Sound X issued unlocks) :
    Settles execWorld (World.Sound X (issued ++ [visit.freshSession])
        (unlocks ++ ((Event.admin visit post).unlock X world.db clock).toList)) (fun _ _ => True)
      (Paired.adminRequest X visit.toWebContext clock post) world := by
  have hgrow : world.Sound X issued (unlocks ++ ((Event.admin visit post).unlock X world.db clock).toList) :=
    hsound.mono (fun _ h => h) fun _ h => List.mem_append_left _ h
  refine (signedInAdmin_settles hfresh hgrow).exact.lift.bind fun found after hafter hfound => ?_
  obtain ⟨hsession, hok⟩ := hfound
  rw [(run_moved _ world).1] at hok
  cases found with
  | error response => exact Settles.ret hafter trivial
  | ok signed =>
      obtain ⟨sid, user⟩ := signed
      have hapart : Apart X (issued ++ [visit.freshSession]) sid :=
        apart_of_nodup hhandles (hafter.keyed.sessionsIssued _ (hsession sid user rfl))
      have hdone : ∀ {α : Type} {program : PairedProg α} {answer : α → Paired.UnlockAnswer ⊕ Response} {I : World → Prop},
          Settles execWorld I (fun _ _ => True) program after →
          Settles execWorld I (fun _ _ => True) (program.bind fun value => .ret (answer value)) after :=
        fun hprogram => hprogram.bind fun _ _ hleft _ => Settles.ret hleft trivial
      cases post with
      | unlock password =>
          refine hdone (Paired.adminUnlock_settles password (hsession sid user rfl) (fun hpassed => ?_) hafter)
          apply List.mem_append_right _
          simp only [Event.unlock, hok, hpassed, if_true, Option.toList_some, List.mem_singleton]
      | usersCreate form => exact hdone (Paired.usersCreate_settles form hafter)
      | usersDelete id confirmed => exact hdone (Paired.usersDelete_settles id confirmed hafter)
      | usersSetPassword id password => exact hdone (Paired.usersSetPassword_settles hapart id password hafter)
      | usersToggleAdmin id confirmed => exact hdone (Paired.usersToggleAdmin_settles id confirmed hafter)
      | usersSetDisabled id confirmed => exact hdone (Paired.usersSetDisabled_settles id confirmed hafter)

end Requests

/-! ### Expiry -/

/-- A pass of the prune ends sessions and changes no user. -/
theorem pruneOnce_sessions (now : Instant) (db : Db) :
    (run execPrune (pruneOnce now) db).state.users = db.users ∧
      ∀ session ∈ (run execPrune (pruneOnce now) db).state.sessionUsers, session ∈ db.sessionUsers := by
  refine (Prog.only_any (pruneOnce now)).run_rel execPrune
    (fun before after => after.users = before.users ∧ ∀ session ∈ after.sessionUsers, session ∈ before.sessionUsers)
    (fun _ => ⟨rfl, fun _ h => h⟩) (fun _ _ _ hab hbc => ⟨hbc.1.trans hab.1, fun session h => hab.2 _ (hbc.2 session h)⟩)
    (fun query _ before => ?_) db
  cases query with
  | deleteExpiredSessions now capBefore =>
      refine ⟨rfl, fun session hsession => ?_⟩
      obtain ⟨row, hrow, rfl⟩ := List.mem_map.mp hsession
      exact List.mem_map_of_mem (List.mem_filter.mp hrow).1
  | _ => exact ⟨rfl, fun _ h => h⟩

theorem World.Sound.pruned {X : Crates} {issued : List String} {unlocks : List Unlock} {world : World} (now : Instant)
    (hsound : world.Sound X issued unlocks) :
    (world.move .expiry (run execPrune (pruneOnce now) world.db).state).Sound X issued unlocks := by
  obtain ⟨husers, hsub⟩ := pruneOnce_sessions now world.db
  refine hsound.moved hsub (fun session hsession user huser => ?_) fun hcause => nomatch hcause
  rw [husers] at huser
  exact hsound.enabled session (hsub session hsession) user huser

/-! ### Runs -/

section Runs

variable {X : Crates} {issued : List String}

theorem opened_fresh {fresh opened : String} (hfresh : (issued ++ [fresh, opened]).Nodup) : opened ∉ issued ++ [fresh] := by
  have hsplit : issued ++ [fresh, opened] = (issued ++ [fresh]) ++ [opened] := by simp
  rw [hsplit, List.nodup_append] at hfresh
  intro hmem
  exact hfresh.2.2 opened hmem opened (List.mem_singleton.mpr rfl) rfl

/-- **Step.** An event keeps the map and the table in step. -/
theorem serve_sound {unlocks : List Unlock} {world : World} (event : Event) (clock : Nat)
    (hhandles : ((issued ++ event.freshIds).map X.hashApiKey).Nodup) (hsound : world.Sound X issued unlocks) :
    (event.serve X clock world).Sound X (issued ++ event.freshIds) (unlocks ++ (event.unlock X world.db clock).toList) := by
  have hfresh : (issued ++ event.freshIds).Nodup := hhandles.of_map
  have hnew : ∀ sid ∈ event.freshIds, sid ∉ issued := fun sid hsid hissued =>
    (List.nodup_append.mp hfresh).2.2 sid hissued sid hsid rfl
  cases event with
  | setup visit creds opened =>
      have hsettles : Settles execWorld (World.Sound X (issued ++ [visit.freshSession] ++ [opened]) unlocks) (fun _ _ => True)
          (Paired.setupRequest X visit.toWebContext creds opened) world :=
        opening_settles (hnew visit.freshSession (by simp [Event.freshIds])) hsound
          fun sid after hafter => setupSubmit_settles { visit.toWebContext with freshSession := opened } sid creds
            (opened_fresh hfresh) hafter
      simpa [Event.serve, Event.freshIds, Event.unlock] using hsettles.left
  | login visit creds opened =>
      have hsettles : Settles execWorld (World.Sound X (issued ++ [visit.freshSession] ++ [opened]) unlocks) (fun _ _ => True)
          (Paired.loginRequest X visit.toWebContext creds opened) world :=
        opening_settles (hnew visit.freshSession (by simp [Event.freshIds])) hsound
          fun sid after hafter => loginSubmit_settles { visit.toWebContext with freshSession := opened } sid creds
            (opened_fresh hfresh) hafter
      simpa [Event.serve, Event.freshIds, Event.unlock] using hsettles.left
  | logout visit =>
      have hsettles := logoutRequest_settles (hnew visit.freshSession (by simp [Event.freshIds])) hsound
      simpa [Event.serve, Event.freshIds, Event.unlock] using hsettles.left
  | account visit post =>
      have hsettles := accountRequest_settles post (hnew visit.freshSession (by simp [Event.freshIds])) hhandles hsound
      simpa [Event.serve, Event.freshIds, Event.unlock] using hsettles.left
  | admin visit post =>
      exact (adminRequest_settles clock post (hnew visit.freshSession (by simp [Event.freshIds])) hhandles hsound).left
  | prune now =>
      simpa [Event.serve, Event.freshIds, Event.unlock] using hsound.pruned now

/-- The world of a run, and no unlock from the future. -/
structure Server.Sound (X : Crates) (issued : List String) (server : Server) : Prop where
  world : server.world.Sound X issued server.unlocks
  past : ∀ unlock ∈ server.unlocks, unlock.passedAt ≤ server.clock

theorem Event.unlock_passedAt {event : Event} {db : Db} {clock : Nat} {unlock : Unlock}
    (hunlock : unlock ∈ (event.unlock X db clock).toList) : unlock.passedAt = clock := by
  rw [Option.mem_toList] at hunlock
  unfold Event.unlock at hunlock
  split at hunlock
  · split at hunlock
    · split at hunlock
      · cases hunlock
        rfl
      · cases hunlock
    · cases hunlock
  · cases hunlock

theorem Server.Sound.step {server : Server} (next : Step)
    (hhandles : ((issued ++ next.event.freshIds).map X.hashApiKey).Nodup) (hsound : server.Sound X issued) :
    (server.step X next).Sound X (issued ++ next.event.freshIds) := by
  refine ⟨serve_sound next.event _ hhandles hsound.world, fun unlock hunlock => ?_⟩
  rcases List.mem_append.mp hunlock with hold | hnew
  · exact (hsound.past unlock hold).trans (Nat.le_add_right ..)
  · exact (Event.unlock_passedAt hnew).le

/-- **Run.** By induction on the events, each of which gives out ids of its own. -/
theorem Server.Sound.play (steps : List Step) {server : Server}
    (hhandles : ((issued ++ steps.flatMap fun step => step.event.freshIds).map X.hashApiKey).Nodup)
    (hsound : server.Sound X issued) :
    (server.play X steps).Sound X (issued ++ steps.flatMap fun step => step.event.freshIds) := by
  induction steps generalizing issued server with
  | nil => simpa [Server.play] using hsound
  | cons next rest ih =>
      rw [List.flatMap_cons, ← List.append_assoc] at hhandles ⊢
      have hfirst : ((issued ++ next.event.freshIds).map X.hashApiKey).Nodup := by
        rw [List.map_append] at hhandles
        exact hhandles.of_append_left
      exact ih hhandles (hsound.step next hfirst)

/-- The session ids of a database and of the events after it. -/
def issuedBy (db : Db) (steps : List Step) : List String :=
  db.sessions.rows.map Session.id ++ steps.flatMap fun step => step.event.freshIds

theorem Server.start_sound {db : Db} (henabled : db.SessionsEnabled)
    (hissued : ∀ session ∈ db.sessionUsers, session.1 ∈ issued) (clock : Nat) : (Server.start db clock).Sound X issued :=
  ⟨⟨⟨rfl, hissued, nofun, nofun, List.nodup_nil, nofun⟩, henabled⟩, nofun⟩

theorem Server.reached_sound {db : Db} (henabled : db.SessionsEnabled) (clock : Nat) {steps : List Step}
    (hhandles : ((issuedBy db steps).map X.hashApiKey).Nodup) :
    ((Server.start db clock).play X steps).Sound X (issuedBy db steps) := by
  refine Server.Sound.play steps hhandles (Server.start_sound henabled (fun session hsession => ?_) clock)
  obtain ⟨row, hrow, rfl⟩ := List.mem_map.mp hsession
  exact List.mem_map_of_mem hrow

/-- **Restarts.** What a process leaves is something to start on: no session of a disabled user, and no session id that
was not given out. By induction on the processes. -/
theorem Db.lived_sound {lives : List Life} {db : Db}
    (hhandles : ((issued ++ lives.flatMap Life.freshIds).map X.hashApiKey).Nodup) (henabled : db.SessionsEnabled)
    (hissued : ∀ session ∈ db.sessionUsers, session.1 ∈ issued) :
    (db.lived X lives).SessionsEnabled ∧
      ∀ session ∈ (db.lived X lives).sessionUsers, session.1 ∈ issued ++ lives.flatMap Life.freshIds := by
  induction lives generalizing db issued with
  | nil =>
      rw [List.flatMap_nil, List.append_nil]
      exact ⟨henabled, hissued⟩
  | cons life rest ih =>
      rw [List.flatMap_cons, ← List.append_assoc] at hhandles ⊢
      have hfirst : ((issued ++ life.freshIds).map X.hashApiKey).Nodup := by
        rw [List.map_append] at hhandles
        exact hhandles.of_append_left
      have hended := Server.Sound.play life.steps hfirst (Server.start_sound henabled hissued life.boot)
      exact ih hhandles hended.world.enabled hended.world.keyed.sessionsIssued

/-- What the check admits was earned by an unlock. -/
theorem elevationCheck_earned {unlocks : List Unlock} {world : World} {visit : Visit} {clock : Nat}
    (hhandles : ((issued ++ [visit.freshSession]).map X.hashApiKey).Nodup) (hsound : world.Sound X issued unlocks) :
    Settles execWorld (World.Sound X (issued ++ [visit.freshSession]) unlocks)
      (fun checked _ => ∀ sid user, checked = some (sid, user, true) → user.passwordHash.isSome = true →
        ∃ unlock ∈ unlocks, unlock.session = sid ∧ unlock.userId = user.id ∧
          elapsedSecs unlock.passedAt clock < elevationTtlSecs)
      (Paired.elevationCheck X visit.toWebContext clock) world := by
  have hfresh : visit.freshSession ∉ issued := fun hissued =>
    (List.nodup_append.mp hhandles.of_map).2.2 _ hissued _ (List.mem_singleton.mpr rfl) rfl
  refine (signedInAdmin_settles hfresh hsound).lift.bind fun found after hafter hfound => ?_
  cases found with
  | error response =>
      apply Settles.ret hafter
      rintro _ _ ⟨⟩
  | ok signed =>
      obtain ⟨sid, user⟩ := signed
      have hsession := hfound sid user rfl
      refine (Paired.elevation_admits hafter).bind fun current checked hchecked hcurrent => ?_
      obtain ⟨rfl, hadmits⟩ := hcurrent
      apply Settles.ret hchecked
      intro sid' user' heq hpassword
      simp only [Option.some.injEq, Prod.mk.injEq] at heq
      obtain ⟨rfl, rfl, hallows⟩ := heq
      obtain ⟨entry, hentry, hhandle, hyoung⟩ := hadmits hallows hpassword
      obtain ⟨holder, hholder, hstands, hunlock⟩ := hchecked.keyed.entries entry hentry
      have hissued : sid ∈ issued ++ [visit.freshSession] := hchecked.keyed.sessionsIssued _ hsession
      obtain rfl : holder = sid :=
        apart_of_nodup hhandles hissued holder (hchecked.keyed.stands_issued hstands) (hholder.trans hhandle)
      refine ⟨_, hunlock, rfl, ?_, hchecked.keyed.ttl ▸ hyoung⟩
      rcases hstands with hrow | hended
      · exact congrArg Prod.snd (Db.sessionUsers_unique hrow hsession rfl)
      · exact absurd rfl (hchecked.keyed.gone _ hended _ hsession)

theorem Server.Sound.earned {server : Server} (hsound : server.Sound X issued) {visit : Visit} {clock : Nat} {sid : String}
    {user : User} (hvisit : ((issued ++ [visit.freshSession]).map X.hashApiKey).Nodup) (hclock : server.clock ≤ clock)
    (hcheck : (run execWorld (Paired.elevationCheck X visit.toWebContext clock) server.world).outcome =
      .ok (some (sid, user, true))) (hpassword : user.passwordHash.isSome = true) :
    ∃ unlock ∈ server.unlocks, unlock.session = sid ∧ unlock.userId = user.id ∧ unlock.passedAt ≤ clock ∧
      clock < unlock.passedAt + elevationTtlSecs * 10 ^ 9 := by
  obtain ⟨unlock, hunlock, hsession, huser, hyoung⟩ :=
    (elevationCheck_earned hvisit hsound.world).value _ hcheck sid user rfl hpassword
  refine ⟨unlock, hunlock, hsession, huser, (hsound.past unlock hunlock).trans hclock, ?_⟩
  unfold elapsedSecs at hyoung
  omega

theorem Server.Sound.entry_stands {server : Server} (hsound : server.Sound X issued) {entry : Grant}
    (hentry : entry ∈ server.world.elevations.granted.rows) : ∃ sid, X.hashApiKey sid = entry.handle ∧
      ((sid, entry.userId) ∈ server.world.db.sessionUsers ∨ ⟨sid, entry.userId, .expiry⟩ ∈ server.world.ended) ∧
      ∀ ending ∈ server.world.ended, ending.session = sid → ending.cause = .expiry := by
  have hkeyed := hsound.world.keyed
  obtain ⟨sid, hhandle, hstands, -⟩ := hkeyed.entries entry hentry
  refine ⟨sid, hhandle, hstands, fun ending hending hsession => ?_⟩
  rcases hstands with hrow | hended
  · exact absurd hsession.symm (hkeyed.gone ending hending _ hrow)
  · have hsame := List.inj_on_of_nodup_map hkeyed.once hending hended hsession
    rw [hsame]

/-- **Elevation.** In every run that starts with an empty map and no session of a disabled user, and whose session ids have
handles of their own: the check admits a user with a password in a session only if that user passed an unlock in that
session less than the TTL before; and an entry of the map names a session that is there and its user's, or that was its
user's and has ended by expiry, never one that a handler ended. -/
theorem elevation_earned (X : Crates) (db : Db) (henabled : db.SessionsEnabled) (boot : Nat) (steps : List Step)
    (hhandles : ((issuedBy db steps).map X.hashApiKey).Nodup) :
    let server := (Server.start db boot).play X steps
    (∀ (visit : Visit) (clock : Nat) (sid : String) (user : User),
      ((issuedBy db steps ++ [visit.freshSession]).map X.hashApiKey).Nodup → server.clock ≤ clock →
      (run execWorld (Paired.elevationCheck X visit.toWebContext clock) server.world).outcome =
        .ok (some (sid, user, true)) →
      user.passwordHash.isSome = true →
      ∃ unlock ∈ server.unlocks, unlock.session = sid ∧ unlock.userId = user.id ∧ unlock.passedAt ≤ clock ∧
        clock < unlock.passedAt + elevationTtlSecs * 10 ^ 9) ∧
    ∀ entry ∈ server.world.elevations.granted.rows, ∃ sid, X.hashApiKey sid = entry.handle ∧
      ((sid, entry.userId) ∈ server.world.db.sessionUsers ∨ ⟨sid, entry.userId, .expiry⟩ ∈ server.world.ended) ∧
      ∀ ending ∈ server.world.ended, ending.session = sid → ending.cause = .expiry := by
  intro server
  have hsound : server.Sound X (issuedBy db steps) := Server.reached_sound henabled boot hhandles
  exact ⟨fun _ _ _ _ hvisit hclock hcheck hpassword => hsound.earned hvisit hclock hcheck hpassword,
    fun _ hentry => hsound.entry_stands hentry⟩

end Runs

/-- A table of the handles of four session ids. -/
def handleCrates : Crates :=
  { plainCrates with
    hashApiKey := fun token =>
      match token with
      | "s1" => "e8bc163c82eee18733288c7d4ac636db3a6deb013ef2d37b68322be20edc45cc"
      | "s2" => "ad328846aa18b32a335816374511cac1063c704b8c57999e51da9f908290a7a4"
      | "s3" => "41242b9fae56fad4e6e77dfe33cb18d1c3fc583f988cf25ef9f2d9be0d440bbb"
      | "s9" => "e72d310dbb213f4c2e34da28935b38905332ee3628a04df2dd13859fd769c6c5"
      | _ => "" }

def visitOf (sessionId : Option String) (freshSession : String) : Visit :=
  ⟨{ WebContext.sample with sessionId := sessionId, freshSession := freshSession }, nofun⟩

/-- The first account is set up in the session `s9`, and unlocks it five seconds later. -/
def unlockedSteps : List Step :=
  [⟨0, .setup (visitOf none "s1") ⟨"alice", "correct horse battery"⟩ "s9"⟩,
    ⟨5 * 10 ^ 9, .admin (visitOf (some "s9") "s2") (.unlock "correct horse battery")⟩]

/-- Five minutes later the session is still elevated. -/
theorem elevation_earned_setup :
    let server := (Server.start .empty 0).play handleCrates unlockedSteps
    ∃ unlock ∈ server.unlocks, unlock.session = "s9" ∧ unlock.userId = 1 ∧ unlock.passedAt ≤ 305 * 10 ^ 9 ∧
      305 * 10 ^ 9 < unlock.passedAt + elevationTtlSecs * 10 ^ 9 :=
  (elevation_earned handleCrates .empty nofun 0 unlockedSteps (by decide +kernel)).1 (visitOf (some "s9") "s3") (305 * 10 ^ 9)
    "s9" ⟨1, "alice", some "salt$correct horse battery", true, false, 200 * nanosPerSec⟩ (by decide +kernel) (by decide +kernel)
    (by decide +kernel) rfl

/-! ### From the fresh instance -/

/-- **The elevation map over the life of an instance.** However often the process is restarted, and whatever its users do
from the empty database on, as long as the session ids given out have handles of their own: the check admits a user with
a password in a session only if that user passed an unlock in that session less than the TTL before; and an entry of the
map names a session that is there and its user's, or that was its user's and has ended by expiry, never one that a
handler ended. -/
theorem elevation_invariant (X : Crates) (lives : List Life) (boot : Nat) (steps : List Step)
    (hhandles : ((lives.flatMap Life.freshIds ++ steps.flatMap fun step => step.event.freshIds).map X.hashApiKey).Nodup) :
    let server := (Server.start (Db.empty.lived X lives) boot).play X steps
    (∀ (visit : Visit) (clock : Nat) (sid : String) (user : User),
      ((lives.flatMap Life.freshIds ++ (steps.flatMap fun step => step.event.freshIds) ++ [visit.freshSession]).map
        X.hashApiKey).Nodup → server.clock ≤ clock →
      (run execWorld (Paired.elevationCheck X visit.toWebContext clock) server.world).outcome =
        .ok (some (sid, user, true)) →
      user.passwordHash.isSome = true →
      ∃ unlock ∈ server.unlocks, unlock.session = sid ∧ unlock.userId = user.id ∧ unlock.passedAt ≤ clock ∧
        clock < unlock.passedAt + elevationTtlSecs * 10 ^ 9) ∧
    ∀ entry ∈ server.world.elevations.granted.rows, ∃ sid, X.hashApiKey sid = entry.handle ∧
      ((sid, entry.userId) ∈ server.world.db.sessionUsers ∨ ⟨sid, entry.userId, .expiry⟩ ∈ server.world.ended) ∧
      ∀ ending ∈ server.world.ended, ending.session = sid → ending.cause = .expiry := by
  intro server
  have hlives : (([] ++ lives.flatMap Life.freshIds).map X.hashApiKey).Nodup := by
    rw [List.map_append] at hhandles
    exact hhandles.of_append_left
  have hempty : Db.empty.SessionsEnabled := nofun
  have hnone : ∀ session ∈ Db.empty.sessionUsers, session.1 ∈ ([] : List String) := nofun
  obtain ⟨henabled, hissued⟩ := Db.lived_sound hlives hempty hnone
  have hsound : server.Sound X _ := Server.Sound.play steps hhandles (Server.start_sound henabled hissued boot)
  exact ⟨fun _ _ _ _ hvisit hclock hcheck hpassword => hsound.earned hvisit hclock hcheck hpassword,
    fun _ hentry => hsound.entry_stands hentry⟩

/-- The first account is set up, the process restarts, and the session of the setup is unlocked; five minutes later it is
still elevated. -/
theorem elevation_invariant_restarted :
    let server := (Server.start (Db.empty.lived handleCrates [⟨0, unlockedSteps.take 1⟩]) 0).play handleCrates
      (unlockedSteps.drop 1)
    ∃ unlock ∈ server.unlocks, unlock.session = "s9" ∧ unlock.userId = 1 ∧ unlock.passedAt ≤ 305 * 10 ^ 9 ∧
      305 * 10 ^ 9 < unlock.passedAt + elevationTtlSecs * 10 ^ 9 :=
  (elevation_invariant handleCrates [⟨0, unlockedSteps.take 1⟩] 0 (unlockedSteps.drop 1) (by decide +kernel)).1
    (visitOf (some "s9") "s3") (305 * 10 ^ 9) "s9"
    ⟨1, "alice", some "salt$correct horse battery", true, false, 200 * nanosPerSec⟩ (by decide +kernel) (by decide +kernel)
    (by decide +kernel) rfl

end Pingward
