import Pingward.ModelElevationRun
import Pingward.FrameAuth
import Pingward.FrameCalls
import Pingward.SessionLifetime

/-! The elevation map against the sessions table: each entry names a session that stands, or that ended by expiry only,
and that was unlocked. The invariant is kept by every call that ends no session, and by every pair of a deletion with
the revocation that goes with it. -/

open KeyedTable StoreProgram

namespace Pingward

/-! ### The sessions -/

theorem Db.mem_sessionUsers {db : Db} {sid : String} {uid : Int} :
    (sid, uid) ∈ db.sessionUsers ↔ ∃ row ∈ db.sessions.rows, row.id = sid ∧ row.userId = uid := by
  simp [Db.sessionUsers]

theorem Db.sessionUsers_nodup (db : Db) : (db.sessionUsers.map Prod.fst).Nodup := by
  rw [Db.sessionUsers, List.map_map]
  exact db.sessions.nodup

/-- A session has one user. -/
theorem Db.sessionUsers_unique {db : Db} {session other : String × Int} (hsession : session ∈ db.sessionUsers)
    (hother : other ∈ db.sessionUsers) (hid : session.1 = other.1) : session = other :=
  List.inj_on_of_nodup_map db.sessionUsers_nodup hsession hother hid

/-- No session is a disabled user's. -/
def Db.SessionsEnabled (db : Db) : Prop :=
  ∀ session ∈ db.sessionUsers, ∀ user, db.users.find session.2 = some user → user.disabled = false

/-! ### The invariant -/

/-- The session is there and the user's, or it was the user's and has ended by expiry. -/
def World.Stands (world : World) (sid : String) (uid : Int) : Prop :=
  (sid, uid) ∈ world.db.sessionUsers ∨ ⟨sid, uid, .expiry⟩ ∈ world.ended

/-- The map and the table are in step, for the session ids given out and the unlocks passed so far. -/
structure World.Keyed (X : Crates) (issued : List String) (unlocks : List Unlock) (world : World) : Prop where
  ttl : world.elevations.ttlSecs = elevationTtlSecs
  sessionsIssued : ∀ session ∈ world.db.sessionUsers, session.1 ∈ issued
  endedIssued : ∀ ending ∈ world.ended, ending.session ∈ issued
  gone : ∀ ending ∈ world.ended, ∀ session ∈ world.db.sessionUsers, session.1 ≠ ending.session
  once : (world.ended.map Ending.session).Nodup
  entries : ∀ entry ∈ world.elevations.granted.rows, ∃ sid, X.hashApiKey sid = entry.handle ∧
    world.Stands sid entry.userId ∧ ⟨sid, entry.userId, entry.grantedAt⟩ ∈ unlocks

/-- And no session is a disabled user's. -/
structure World.Sound (X : Crates) (issued : List String) (unlocks : List Unlock) (world : World) : Prop where
  keyed : world.Keyed X issued unlocks
  enabled : world.db.SessionsEnabled

section Invariant

variable {X : Crates} {issued : List String} {unlocks : List Unlock} {world : World}

theorem World.Keyed.mono {issued' : List String} {unlocks' : List Unlock} (hkeyed : world.Keyed X issued unlocks)
    (hissued : ∀ sid ∈ issued, sid ∈ issued') (hunlocks : ∀ unlock ∈ unlocks, unlock ∈ unlocks') :
    world.Keyed X issued' unlocks' where
  ttl := hkeyed.ttl
  sessionsIssued session hsession := hissued _ (hkeyed.sessionsIssued session hsession)
  endedIssued ending hending := hissued _ (hkeyed.endedIssued ending hending)
  gone := hkeyed.gone
  once := hkeyed.once
  entries entry hentry := by
    obtain ⟨sid, hhandle, hstands, hunlock⟩ := hkeyed.entries entry hentry
    exact ⟨sid, hhandle, hstands, hunlocks _ hunlock⟩

theorem World.Keyed.stands_issued {sid : String} {uid : Int} (hkeyed : world.Keyed X issued unlocks)
    (hstands : world.Stands sid uid) : sid ∈ issued := by
  rcases hstands with hrow | hended
  · exact hkeyed.sessionsIssued _ hrow
  · exact hkeyed.endedIssued _ hended

theorem World.Sound.mono {issued' : List String} {unlocks' : List Unlock} (hsound : world.Sound X issued unlocks)
    (hissued : ∀ sid ∈ issued, sid ∈ issued') (hunlocks : ∀ unlock ∈ unlocks, unlock ∈ unlocks') :
    world.Sound X issued' unlocks' := ⟨hsound.keyed.mono hissued hunlocks, hsound.enabled⟩

/-- A session whose entry stays does not end by a handler. -/
theorem World.Keyed.shrink {cause : EndCause} {db : Db} {elevations : Elevations} (hkeyed : world.Keyed X issued unlocks)
    (hsub : ∀ session ∈ db.sessionUsers, session ∈ world.db.sessionUsers)
    (httl : elevations.ttlSecs = world.elevations.ttlSecs)
    (hfewer : ∀ entry ∈ elevations.granted.rows, entry ∈ world.elevations.granted.rows)
    (hkeep : cause = .handler → ∀ entry ∈ elevations.granted.rows, ∀ session ∈ world.db.sessionUsers,
      X.hashApiKey session.1 = entry.handle → session.2 = entry.userId → session ∈ db.sessionUsers) :
    World.Keyed X issued unlocks { world.move cause db with elevations := elevations } := by
  have hgone : ∀ ending ∈ (world.move cause db).ended, ending ∈ world.ended ∨
      ∃ session ∈ world.db.sessionUsers, session.1 ∉ db.sessionUsers.map Prod.fst ∧
        ending = ⟨session.1, session.2, cause⟩ := by
    intro ending hending
    rcases List.mem_append.mp hending with hold | hnew
    · exact Or.inl hold
    · obtain ⟨session, hsession, rfl⟩ := List.mem_map.mp hnew
      rw [List.mem_filter, Bool.not_eq_true', List.contains_eq_mem, decide_eq_false_iff_not] at hsession
      exact Or.inr ⟨session, hsession.1, hsession.2, rfl⟩
  refine ⟨httl.trans hkeyed.ttl, fun session hsession => hkeyed.sessionsIssued session (hsub session hsession), ?_, ?_, ?_, ?_⟩
  · intro ending hending
    rcases hgone ending hending with hold | ⟨session, hsession, -, rfl⟩
    · exact hkeyed.endedIssued ending hold
    · exact hkeyed.sessionsIssued session hsession
  · intro ending hending session hsession
    rcases hgone ending hending with hold | ⟨other, -, hother, rfl⟩
    · exact hkeyed.gone ending hold session (hsub session hsession)
    · intro heq
      have hid : session.1 = other.1 := heq
      exact hother (hid ▸ List.mem_map_of_mem hsession)
  · rw [show World.ended _ = world.ended ++ _ from rfl, List.map_append, List.nodup_append]
    refine ⟨hkeyed.once, ?_, ?_⟩
    · rw [List.map_map]
      exact world.db.sessionUsers_nodup.sublist (List.filter_sublist.map Prod.fst)
    · intro sid hsid other hother heq
      obtain ⟨ending, hending, rfl⟩ := List.mem_map.mp hsid
      rw [List.map_map] at hother
      obtain ⟨session, hsession, rfl⟩ := List.mem_map.mp hother
      exact hkeyed.gone ending hending session (List.mem_filter.mp hsession).1 heq.symm
  · intro entry hentry
    obtain ⟨sid, hhandle, hstands, hunlock⟩ := hkeyed.entries entry (hfewer entry hentry)
    refine ⟨sid, hhandle, ?_, hunlock⟩
    rcases hstands with hrow | hended
    · by_cases hstays : (sid, entry.userId) ∈ db.sessionUsers
      · exact Or.inl hstays
      · cases cause with
        | handler => exact absurd (hkeep rfl entry hentry _ hrow hhandle rfl) hstays
        | expiry =>
            refine Or.inr (List.mem_append_right _ (List.mem_map.mpr ⟨(sid, entry.userId), ?_, rfl⟩))
            rw [List.mem_filter, Bool.not_eq_true', List.contains_eq_mem, decide_eq_false_iff_not]
            refine ⟨hrow, fun hmem => ?_⟩
            obtain ⟨session, hsession, hid⟩ := List.mem_map.mp hmem
            exact hstays (Db.sessionUsers_unique (hsub session hsession) hrow hid ▸ hsession)
    · exact Or.inr (List.mem_append_left _ hended)

theorem World.Sound.moved {cause : EndCause} {db : Db} (hsound : world.Sound X issued unlocks)
    (hsub : ∀ session ∈ db.sessionUsers, session ∈ world.db.sessionUsers) (henabled : db.SessionsEnabled)
    (hkeep : cause = .handler → ∀ session ∈ world.db.sessionUsers, session ∈ db.sessionUsers) :
    (world.move cause db).Sound X issued unlocks :=
  ⟨hsound.keyed.shrink hsub rfl (fun _ h => h) fun hcause _ _ session hsession _ _ => hkeep hcause session hsession, henabled⟩

/-- Nothing ends where every session is still there. -/
theorem World.move_eq {cause : EndCause} {db : Db}
    (hsub : ∀ session ∈ world.db.sessionUsers, session.1 ∈ db.sessionUsers.map Prod.fst) :
    world.move cause db = { world with db := db } := by
  have hnone : (world.db.sessionUsers.filter fun session => !(db.sessionUsers.map Prod.fst).contains session.1) = [] := by
    rw [List.filter_eq_nil_iff]
    intro session hsession
    simpa using hsub session hsession
  rw [World.move, hnone, List.map_nil, List.append_nil]

/-- A session is opened, under an id no session had. -/
theorem World.Sound.opened {session : NewSession} {now : Instant} {user : User} (hsound : world.Sound X issued unlocks)
    (hissued : session.id ∈ issued) (hfresh : ∀ ending ∈ world.ended, session.id ≠ ending.session)
    (huser : world.db.users.find session.userId = some user) (henabled : user.disabled = false) :
    (execMoved (.createSession session now) world).2.Sound X issued unlocks := by
  have hrows : ∀ db, (exec (.createSession session now) world.db).2 = db → db.users = world.db.users ∧
      (db.sessionUsers = world.db.sessionUsers ∨
        db.sessionUsers = world.db.sessionUsers ++ [(session.id, session.userId)]) := by
    rintro db rfl
    simp only [exec, Db.createSession, huser, Option.isNone_some, Bool.false_eq_true, if_false]
    split
    · exact ⟨rfl, Or.inl rfl⟩
    · rename_i table htable
      refine ⟨rfl, Or.inr ?_⟩
      simp only [commit, Db.sessionUsers]
      rw [Table.insert_rows _ htable, List.map_append]
      rfl
  obtain ⟨husers, hsessions⟩ := hrows _ rfl
  have hkeyed := hsound.keyed
  rw [show (execMoved (.createSession session now) world).2 = world.move .handler _ from rfl]
  generalize (exec (.createSession session now) world.db).2 = db at husers hsessions ⊢
  rcases hsessions with hsame | hadded
  · refine hsound.moved (fun _ h => hsame ▸ h) ?_ fun _ _ h => hsame ▸ h
    rw [Db.SessionsEnabled, hsame, husers]
    exact hsound.enabled
  · have hold : ∀ other ∈ world.db.sessionUsers, other ∈ db.sessionUsers := fun other hother =>
      hadded ▸ List.mem_append_left _ hother
    have hcases : ∀ other ∈ db.sessionUsers, other ∈ world.db.sessionUsers ∨ other = (session.id, session.userId) := by
      intro other hother
      rw [hadded] at hother
      exact (List.mem_append.mp hother).imp_right List.mem_singleton.mp
    rw [World.move_eq fun other hother => List.mem_map_of_mem (hold other hother)]
    refine ⟨⟨hkeyed.ttl, ?_, hkeyed.endedIssued, ?_, hkeyed.once, ?_⟩, ?_⟩
    · intro other hother
      rcases hcases other hother with hbefore | rfl
      · exact hkeyed.sessionsIssued other hbefore
      · exact hissued
    · intro ending hending other hother
      rcases hcases other hother with hbefore | rfl
      · exact hkeyed.gone ending hending other hbefore
      · exact hfresh ending hending
    · intro entry hentry
      obtain ⟨sid, hhandle, hstands, hunlock⟩ := hkeyed.entries entry hentry
      exact ⟨sid, hhandle, hstands.imp_left (hold _), hunlock⟩
    · intro other hother account haccount
      rw [husers] at haccount
      rcases hcases other hother with hbefore | rfl
      · exact hsound.enabled other hbefore account haccount
      · exact Option.some.inj (huser.symm.trans haccount) ▸ henabled

end Invariant

/-! ### Calls that end no session -/

/-- The call ends no session, opens none and disables no user. -/
def StoreCall.Calm (c : StoreCall) : Prop :=
  ∀ db, (exec c db).2.sessionUsers = db.sessionUsers ∧ (db.SessionsEnabled → (exec c db).2.SessionsEnabled)

theorem calm_of_frame {c : StoreCall} (hsessions : TableName.sessions ∉ c.writes) (husers : TableName.users ∉ c.writes) :
    c.Calm := by
  intro db
  have hsame : (exec c db).2.sessions = db.sessions := exec_frame hsessions db
  have hsame' : (exec c db).2.users = db.users := exec_frame husers db
  have hrows : (exec c db).2.sessionUsers = db.sessionUsers := by rw [Db.sessionUsers, hsame, Db.sessionUsers]
  refine ⟨hrows, fun henabled => ?_⟩
  rw [Db.SessionsEnabled, hrows, hsame']
  exact henabled

/-- The users change, the sessions do not. -/
theorem calm_of_users {c : StoreCall} (hsessions : TableName.sessions ∉ c.writes)
    (husers : ∀ db uid user, (exec c db).2.users.find uid = some user → user.disabled = true →
      ∃ before, db.users.find uid = some before ∧ before.disabled = true) : c.Calm := by
  intro db
  have hsame : (exec c db).2.sessions = db.sessions := exec_frame hsessions db
  have hrows : (exec c db).2.sessionUsers = db.sessionUsers := by rw [Db.sessionUsers, hsame, Db.sessionUsers]
  refine ⟨hrows, fun henabled session hsession user huser => ?_⟩
  rw [hrows] at hsession
  by_contra hdisabled
  obtain ⟨before, hbefore, hdisabled'⟩ := husers db _ user huser (by simpa using hdisabled)
  rw [henabled session hsession before hbefore] at hdisabled'
  cases hdisabled'

/-- An update of a user that does not disable it. -/
theorem calm_of_update {c : StoreCall} {id : Int} {f : User → User} {hid : ∀ row, (f row).id = row.id}
    (hsessions : TableName.sessions ∉ c.writes) (hexec : ∀ db, (exec c db).2 = db.updateUser id f hid)
    (hf : ∀ row, (f row).disabled = true → row.disabled = true) : c.Calm := by
  refine calm_of_users hsessions fun db uid user huser hdisabled => ?_
  rw [hexec] at huser
  have hfind : (db.users.toTable.update id f hid).find uid = some user := huser
  by_cases huid : uid = id
  · subst huid
    rw [Table.find_update_self, Option.map_eq_some_iff] at hfind
    obtain ⟨before, hbefore, rfl⟩ := hfind
    exact ⟨before, hbefore, hf before hdisabled⟩
  · rw [Table.find_update_of_ne _ huid] at hfind
    exact ⟨user, hfind, hdisabled⟩

theorem calm_setUserPassword (id : Int) (phc : String) : (StoreCall.setUserPassword id phc).Calm :=
  calm_of_update (by simp [StoreCall.writes]) (fun _ => rfl) fun _ h => h

theorem calm_setUserAdmin (id : Int) (isAdmin : Bool) : (StoreCall.setUserAdmin id isAdmin).Calm :=
  calm_of_update (by simp [StoreCall.writes]) (fun _ => rfl) fun _ h => h

theorem calm_enable (id : Int) : (StoreCall.setUserDisabled id false).Calm :=
  calm_of_update (by simp [StoreCall.writes]) (fun _ => rfl) fun _ h => nomatch h

/-- A new user is enabled. -/
theorem calm_createUser (username : String) (phc : Option String) (isAdmin : Bool) (now : Instant) :
    (StoreCall.createUser username phc isAdmin now).Calm := by
  refine calm_of_users (by simp [StoreCall.writes]) fun db uid user huser hdisabled => ?_
  simp only [exec, Db.createUser] at huser
  split at huser
  · exact ⟨user, huser, hdisabled⟩
  · simp only [commit] at huser
    rw [AutoTable.find_insert] at huser
    split at huser
    · cases huser
      cases hdisabled
    · exact ⟨user, huser, hdisabled⟩

theorem calm_findSessionUser (sid : String) (now : Instant) : (StoreCall.findSessionUser sid now).Calm := by
  intro db
  have hframe : (exec (.findSessionUser sid now) db).2.users = db.users :=
    findSessionUser_frame db sid now (t := .users) (by simp)
  have hrows : (exec (.findSessionUser sid now) db).2.sessionUsers = db.sessionUsers := by
    simp only [exec, Db.findSessionUser]
    split
    · rfl
    · split
      · rfl
      · split
        · rfl
        · split
          · rfl
          · simp only [Db.sessionUsers, Table.update_rows, List.map_map]
            refine List.map_congr_left fun row _ => ?_
            simp only [Function.comp_apply]
            split
            · rw [row.touched_id, row.touched_userId]
            · rfl
  refine ⟨hrows, fun henabled => ?_⟩
  rw [Db.SessionsEnabled, hrows, hframe]
  exact henabled

/-- A calm call, or the one that deletes the sessions past the cap. -/
def StoreCall.Mild (c : StoreCall) : Prop := c.Calm ∨ ∃ uid now, c = .deleteCappedSessionsForUser uid now

section Mild

variable {A α : Type} {X : Crates} {issued : List String} {unlocks : List Unlock} {world : World}

theorem World.Sound.mild {c : StoreCall} (hc : c.Mild) (hsound : world.Sound X issued unlocks) :
    (execMoved c world).2.Sound X issued unlocks := by
  rcases hc with hcalm | ⟨uid, now, rfl⟩
  · obtain ⟨hrows, henabled⟩ := hcalm world.db
    exact hsound.moved (fun _ h => hrows ▸ h) (henabled hsound.enabled) fun _ _ h => hrows ▸ h
  · have hsub : ∀ session ∈ (exec (.deleteCappedSessionsForUser uid now) world.db).2.sessionUsers,
        session ∈ world.db.sessionUsers := by
      intro session hsession
      obtain ⟨row, hrow, rfl⟩ := List.mem_map.mp hsession
      exact List.mem_map_of_mem (List.mem_filter.mp hrow).1
    have hkeep : EndCause.expiry = .handler → ∀ session ∈ world.db.sessionUsers,
        session ∈ (exec (.deleteCappedSessionsForUser uid now) world.db).2.sessionUsers := nofun
    exact hsound.moved hsub (fun session hsession => hsound.enabled session (hsub session hsession)) hkeep

theorem settles_moved {program : StoreProg AppError α} (honly : program.Only StoreCall.Mild fun _ => True)
    (hsound : world.Sound X issued unlocks) :
    Settles execMoved (World.Sound X issued unlocks) (fun _ _ => True) program world :=
  Settles.of_only honly (fun _ hc _ hbefore => hbefore.mild hc) hsound

/-- A program of mild calls keeps the map and the table in step. -/
theorem settles_stored {program : StoreProg AppError α} (honly : program.Only StoreCall.Mild fun _ => True)
    (hsound : world.Sound X issued unlocks) :
    Settles execWorld (World.Sound X issued unlocks) (fun _ _ => True) (stored program) world :=
  (settles_moved honly hsound).lift

end Mild

end Pingward
