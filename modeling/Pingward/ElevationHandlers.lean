import Pingward.ElevationStores

/-! The handlers keep the elevation map and the sessions table in step: each that deletes sessions goes on to revoke
their windows. -/

open KeyedTable StoreProgram

namespace Pingward

/-! ### A deletion and the revocation that goes with it -/

section Pairs

variable {X : Crates} {issued : List String} {unlocks : List Unlock} {world : World}

theorem sessionUsers_deleteWhere {db : Db} {p : String × Int → Bool} {p' : Session → Bool}
    (hp : ∀ row, p' row = p (row.id, row.userId)) :
    (db.sessions.deleteWhere p').rows.map (fun row => (row.id, row.userId)) =
      db.sessionUsers.filter fun session => !p session := by
  rw [Table.deleteWhere_rows, Db.sessionUsers, List.filter_map]
  exact congrArg _ (List.filter_congr fun row _ => by rw [hp]; rfl)

/-- No other session id given out has the handle of this one. -/
def Apart (X : Crates) (issued : List String) (sid : String) : Prop :=
  ∀ other ∈ issued, X.hashApiKey other = X.hashApiKey sid → other = sid

theorem apart_of_nodup (hhandles : (issued.map X.hashApiKey).Nodup) {sid : String} (hsid : sid ∈ issued) : Apart X issued sid :=
  fun _ hother heq => List.inj_on_of_nodup_map hhandles hother hsid heq

/-- The windows of the sessions deleted are revoked. -/
theorem World.Keyed.endSessions {db : Db} {p : String × Int → Bool} {q : Grant → Bool} {elevations : Elevations}
    (hkeyed : world.Keyed X issued unlocks) (hdb : db.sessionUsers = world.db.sessionUsers.filter fun session => !p session)
    (helevations : elevations = { world.elevations with granted := world.elevations.granted.deleteWhere q })
    (hpq : ∀ session entry, session.1 ∈ issued → p session = true → entry.handle = X.hashApiKey session.1 →
      entry.userId = session.2 →
      q entry = true) :
    World.Keyed X issued unlocks { world.move .handler db with elevations := elevations } := by
  subst helevations
  refine hkeyed.shrink (fun session hsession => ?_) rfl (fun entry hentry => (List.mem_filter.mp hentry).1) ?_
  · rw [hdb] at hsession
    exact (List.mem_filter.mp hsession).1
  · intro _ entry hentry session hsession hhandle huser
    rw [hdb]
    refine List.mem_filter.mpr ⟨hsession, ?_⟩
    cases hp : p session with
    | false => rfl
    | true =>
        have hq := hpq session entry (hkeyed.sessionsIssued session hsession) hp hhandle.symm huser.symm
        rw [Table.deleteWhere_rows, List.mem_filter, hq] at hentry
        cases hentry.2

theorem Db.SessionsEnabled.filter {db db' : Db} {p : String × Int → Bool} (henabled : db.SessionsEnabled)
    (hdb : db'.sessionUsers = db.sessionUsers.filter p) (husers : db'.users = db.users) : db'.SessionsEnabled := by
  intro session hsession user huser
  rw [hdb] at hsession
  rw [husers] at huser
  exact henabled session (List.mem_filter.mp hsession).1 user huser

theorem World.Sound.endSessions {p : String × Int → Bool} {p' : Session → Bool} {q : Grant → Bool} {db : Db}
    {elevations : Elevations} (hsound : world.Sound X issued unlocks)
    (hdb : db = { world.db with sessions := world.db.sessions.deleteWhere p' })
    (helevations : elevations = { world.elevations with granted := world.elevations.granted.deleteWhere q })
    (hp : ∀ row, p' row = p (row.id, row.userId))
    (hpq : ∀ session entry, session.1 ∈ issued → p session = true → entry.handle = X.hashApiKey session.1 →
      entry.userId = session.2 →
      q entry = true) :
    World.Sound X issued unlocks { world.move .handler db with elevations := elevations } := by
  have hrows : db.sessionUsers = world.db.sessionUsers.filter fun session => !p session := by
    rw [← sessionUsers_deleteWhere hp, hdb]
    rfl
  exact ⟨hsound.keyed.endSessions hrows helevations hpq, hsound.enabled.filter hrows (by subst hdb; rfl)⟩

/-- A session and its window. -/
theorem sound_deleteSession (sid : String) (hsound : world.Sound X issued unlocks) :
    (execHeld (.revoke (X.hashApiKey sid)) (execMoved (.deleteSession sid) world).2).2.Sound X issued unlocks := by
  refine hsound.endSessions (p := fun session => session.1 = sid) rfl rfl (fun _ => rfl) ?_
  intro session entry _ hsession hhandle _
  simp only [decide_eq_true_eq] at hsession ⊢
  rw [hhandle, hsession]

theorem sound_deleteSessionOwned (sid : String) (uid : Int) (hsound : world.Sound X issued unlocks) :
    (execHeld (.revoke (X.hashApiKey sid)) (execMoved (.deleteSessionOwned sid uid) world).2).2.Sound X issued unlocks := by
  refine hsound.endSessions (p := fun session => session.1 = sid ∧ session.2 = uid) rfl rfl (fun _ => rfl) ?_
  intro session entry _ hsession hhandle _
  simp only [decide_eq_true_eq] at hsession ⊢
  rw [hhandle, hsession.1]

/-- The sessions of a user but one, and their windows. -/
theorem sound_deleteOtherSessions (uid : Int) (keep : String) (hapart : Apart X issued keep)
    (hsound : world.Sound X issued unlocks) :
    (execHeld (.revokeUser uid (some (X.hashApiKey keep)))
      (execMoved (.deleteOtherSessionsForUser uid keep) world).2).2.Sound X issued unlocks := by
  refine hsound.endSessions (p := fun session => session.2 = uid ∧ session.1 ≠ keep) rfl rfl (fun _ => rfl) ?_
  intro session entry hissued hsession hhandle huser
  simp only [decide_eq_true_eq] at hsession ⊢
  rintro (hother | hkept)
  · exact hother (huser.trans hsession.1)
  · rw [Option.some.injEq, hhandle] at hkept
    exact hsession.2 (hapart _ hissued hkept.symm)

theorem sound_deleteSessions (uid : Int) (hsound : world.Sound X issued unlocks) :
    (execHeld (.revokeUser uid none) (execMoved (.deleteSessionsForUser uid) world).2).2.Sound X issued unlocks := by
  refine hsound.endSessions (p := fun session => session.2 = uid) rfl rfl (fun _ => rfl) ?_
  intro session entry _ hsession _ huser
  simp only [decide_eq_true_eq] at hsession ⊢
  rintro (hother | hkept)
  · exact hother (huser.trans hsession)
  · cases hkept

/-- A user, the sessions that go with it, and their windows. -/
theorem sound_deleteUser (uid : Int) (hsound : world.Sound X issued unlocks) :
    (execHeld (.revokeUser uid none) (execMoved (.deleteUser uid) world).2).2.Sound X issued unlocks := by
  have hrows : (world.db.deleteUser uid).sessionUsers = world.db.sessionUsers.filter fun session => !decide (session.2 = uid) :=
    sessionUsers_deleteWhere fun _ => rfl
  refine ⟨hsound.keyed.endSessions (p := fun session => session.2 = uid) hrows rfl ?_, ?_⟩
  · intro session entry _ hsession _ huser
    simp only [decide_eq_true_eq] at hsession ⊢
    rintro (hother | hkept)
    · exact hother (huser.trans hsession)
    · cases hkept
  · intro session hsession user huser
    rw [show World.db _ = world.db.deleteUser uid from rfl] at hsession huser
    rw [hrows] at hsession
    have hfind : (world.db.users.toTable.deleteWhere fun row => row.id = uid).find session.2 = some user := huser
    rw [Table.find_deleteWhere] at hfind
    exact hsound.enabled session (List.mem_filter.mp hsession).1 user (Option.filter_eq_some_iff.mp hfind).1

/-- Disabling a user leaves its sessions behind for the deletion that follows. -/
theorem sound_disable (uid : Int) (hsound : world.Sound X issued unlocks) :
    (execHeld (.revokeUser uid none) (execMoved (.deleteSessionsForUser uid)
      (execMoved (.setUserDisabled uid true) world).2).2).2.Sound X issued unlocks := by
  have hsame : (execMoved (.setUserDisabled uid true) world).2 = { world with db := world.db.setUserDisabled uid true } :=
    World.move_eq fun session hsession => List.mem_map_of_mem hsession
  have hrows : (exec (.deleteSessionsForUser uid) (world.db.setUserDisabled uid true)).2.sessionUsers =
      world.db.sessionUsers.filter fun session => !decide (session.2 = uid) := sessionUsers_deleteWhere fun _ => rfl
  rw [hsame]
  refine ⟨?_, ?_⟩
  · have hkeyed : World.Keyed X issued unlocks { world with db := world.db.setUserDisabled uid true } :=
      ⟨hsound.keyed.ttl, hsound.keyed.sessionsIssued, hsound.keyed.endedIssued, hsound.keyed.gone, hsound.keyed.once,
        hsound.keyed.entries⟩
    refine hkeyed.endSessions (p := fun session => session.2 = uid) hrows rfl ?_
    intro session entry _ hsession _ huser
    simp only [decide_eq_true_eq] at hsession ⊢
    rintro (hother | hkept)
    · exact hother (huser.trans hsession)
    · cases hkept
  · intro session hsession user huser
    replace hsession : session ∈ (exec (.deleteSessionsForUser uid) (world.db.setUserDisabled uid true)).2.sessionUsers :=
      hsession
    rw [hrows, List.mem_filter] at hsession
    have hother : session.2 ≠ uid := by simpa using hsession.2
    have hfind : (world.db.users.toTable.update uid (fun row => { row with disabled := true }) fun _ => rfl).find session.2 =
        some user := huser
    rw [Table.find_update_of_ne _ hother] at hfind
    exact hsound.enabled session hsession.1 user hfind

end Pairs

/-! ### The calls of the shared parts -/

section Mild

variable {X : Crates} {ctx : WebContext} {sid : String} {user : User}

theorem mild_of_frame {c : StoreCall} (hsessions : TableName.sessions ∉ c.writes) (husers : TableName.users ∉ c.writes) :
    c.Mild := Or.inl (calm_of_frame hsessions husers)

theorem store_mild {c : StoreCall} (hc : c.Mild) : (store c).Only StoreCall.Mild fun _ => True := store_only hc

/-- A call that writes neither users nor sessions. -/
theorem store_framed {c : StoreCall} (hsessions : TableName.sessions ∉ c.writes) (husers : TableName.users ∉ c.writes) :
    (store c).Only StoreCall.Mild fun _ => True := store_mild (mild_of_frame hsessions husers)

theorem auditUser_mild (action : String) (target : Int) (detail : Option String) :
    (auditUser ctx user action target detail).Only StoreCall.Mild fun _ => True :=
  (store_framed (by simp [StoreCall.writes]) (by simp [StoreCall.writes])).bind fun _ => trivial

theorem lastAdminGuard_mild (target : User) : (lastAdminGuard target).Only StoreCall.Mild fun _ => True := by
  unfold lastAdminGuard
  split
  · trivial
  · exact (store_framed (by simp [StoreCall.writes]) (by simp [StoreCall.writes])).bind fun _ => trivial

theorem hashOrFail_mild (plain : String) : (hashOrFail X ctx plain).Only StoreCall.Mild fun _ => True := by
  unfold hashOrFail
  split <;> trivial

theorem renderAccount_mild (parts : AccountRender) :
    (renderAccount X ctx sid user parts).Only StoreCall.Mild fun _ => True :=
  (store_mild (Or.inr ⟨_, _, rfl⟩)).bind fun _ =>
    (store_framed (by simp [StoreCall.writes]) (by simp [StoreCall.writes])).bind fun _ =>
      (store_framed (by simp [StoreCall.writes]) (by simp [StoreCall.writes])).bind fun _ => trivial

end Mild

/-! ### Windows -/

namespace Elevations

/-- A session with time left has an entry younger than the TTL. -/
theorem exists_of_remainingSecs {elevations : Elevations} {handle : String} {now : Nat}
    (hleft : (elevations.remainingSecs handle now).isSome = true) :
    ∃ entry ∈ elevations.granted.rows, entry.handle = handle ∧ elapsedSecs entry.grantedAt now < elevations.ttlSecs := by
  unfold remainingSecs at hleft
  cases hentry : elevations.granted.find handle with
  | none =>
      rw [hentry] at hleft
      cases hleft
  | some entry =>
      rw [hentry] at hleft
      refine ⟨entry, Table.find_mem _ hentry, Table.find_key _ hentry, ?_⟩
      dsimp only at hleft
      split at hleft
      · rw [Option.filter_some] at hleft
        split at hleft
        · rename_i hpos
          have hpos : 0 < elevations.ttlSecs - elapsedSecs entry.grantedAt now := of_decide_eq_true hpos
          omega
        · cases hleft
      · cases hleft

/-- What `put` adds is the entry. -/
theorem mem_put {granted : Table String Grant Grant.handle} {entry other : Grant} (hother : other ∈ (put granted entry).rows) :
    other ∈ granted.rows ∨ other = entry := by
  unfold put at hother
  dsimp only at hother
  cases hinsert : (granted.deleteWhere fun other => other.handle = entry.handle).insert entry with
  | none =>
      rw [hinsert] at hother
      exact Or.inl (List.mem_filter.mp hother).1
  | some table =>
      rw [hinsert, Option.getD_some, Table.insert_rows _ hinsert] at hother
      rcases List.mem_append.mp hother with hold | hnew
      · exact Or.inl (List.mem_filter.mp hold).1
      · exact Or.inr (List.mem_singleton.mp hnew)

end Elevations

/-- A window is opened for a session of the user. -/
theorem sound_grant {X : Crates} {issued : List String} {unlocks : List Unlock} {world : World} {sid : String} {uid : Int}
    {now : Nat} (hsession : (sid, uid) ∈ world.db.sessionUsers) (hunlock : ⟨sid, uid, now⟩ ∈ unlocks)
    (hsound : world.Sound X issued unlocks) :
    (execHeld (.grant (X.hashApiKey sid) uid now) world).2.Sound X issued unlocks := by
  have hkeyed := hsound.keyed
  refine ⟨⟨hkeyed.ttl, hkeyed.sessionsIssued, hkeyed.endedIssued, hkeyed.gone, hkeyed.once, ?_⟩, hsound.enabled⟩
  intro entry hentry
  rcases Elevations.mem_put hentry with hold | rfl
  · exact hkeyed.entries entry (List.mem_filter.mp hold).1
  · exact ⟨sid, rfl, Or.inl hsession, hunlock⟩

/-! ### Handlers -/

section Settle

variable {α β : Type} {I : World → Prop} {P : α → World → Prop} {world : World}

/-- A call of the database that is answered. -/
theorem settles_store {c : StoreCall} {answer : c.Res} {rest : c.Res → PairedProg α} (hok : (exec c world.db).1 = .ok answer)
    (hrest : Settles execWorld I P (rest answer) (execMoved c world).2) :
    Settles execWorld I P ((stored (store c)).bind rest) world := by
  rw [stored, store, Prog.lift_perform]
  exact Settles.perform hok hrest

theorem settles_inMemory {c : ElevationCall} {rest : c.Res → PairedProg α}
    (hrest : Settles execWorld I P (rest (execElevations c world.elevations).1) (execHeld c world).2) :
    Settles execWorld I P ((inMemory c).bind rest) world := Settles.perform rfl hrest

end Settle

namespace Paired

variable {X : Crates} {ctx : WebContext} {clock : Nat} {sid : String} {user : User} {issued : List String}
  {unlocks : List Unlock} {world : World}

/-- The check looks at the map and leaves it alone. -/
theorem elevation_settles (hsound : world.Sound X issued unlocks) :
    Settles execWorld (World.Sound X issued unlocks) (fun _ _ => True) (elevation X clock sid user) world := by
  unfold elevation
  split
  · exact Settles.ret hsound trivial
  · exact settles_inMemory (Settles.ret hsound trivial)

/-- Of an account with a password it admits a session with a live window only. -/
theorem elevation_admits {I : World → Prop} (hleft : I world) :
    Settles execWorld I (fun current after => after = world ∧ (current.allows = true → user.passwordHash.isSome = true →
      ∃ entry ∈ world.elevations.granted.rows, entry.handle = X.hashApiKey sid ∧
        elapsedSecs entry.grantedAt clock < world.elevations.ttlSecs)) (elevation X clock sid user) world := by
  unfold elevation
  split
  · rename_i hnone
    refine Settles.ret hleft ⟨rfl, fun _ hsome => ?_⟩
    rw [Option.isNone_iff_eq_none] at hnone
    rw [hnone] at hsome
    cases hsome
  · refine settles_inMemory (Settles.ret hleft ⟨rfl, fun hallows _ => ?_⟩)
    simp only [Elevation.allows, Bool.false_or] at hallows
    exact Elevations.exists_of_remainingSecs hallows

/-- The window is opened where the password passes. -/
theorem adminUnlock_settles (password : String) (hsession : (sid, user.id) ∈ world.db.sessionUsers)
    (hpassed : reauthenticate X ctx user password = .passed → ⟨sid, user.id, clock⟩ ∈ unlocks)
    (hsound : world.Sound X issued unlocks) :
    Settles execWorld (World.Sound X issued unlocks) (fun _ _ => True) (adminUnlock X ctx clock sid user password) world := by
  have hgrant : ∀ answer : UnlockAnswer, reauthenticate X ctx user password = .passed →
      Settles execWorld (World.Sound X issued unlocks) (fun _ _ => True)
        ((grantElevation X clock sid user.id).bind fun _ => .ret answer) world := fun answer houtcome =>
    settles_inMemory (Settles.ret (sound_grant hsession (hpassed houtcome) hsound) trivial)
  have hrefused : ∀ msg, Settles execWorld (World.Sound X issued unlocks) (fun _ _ => True)
      (renderAdminUnlock X clock sid user none (some msg)) world := fun msg =>
    (elevation_settles hsound).bind fun _ after hafter _ => Settles.ret hafter trivial
  unfold adminUnlock
  cases houtcome : reauthenticate X ctx user password with
  | passed =>
      cases ctx.fragment with
      | true => exact hgrant _ houtcome
      | false => exact hgrant _ houtcome
  | failed =>
      cases ctx.fragment with
      | true => exact Settles.ret hsound trivial
      | false => exact hrefused _
  | throttled =>
      cases ctx.fragment with
      | true => exact Settles.ret hsound trivial
      | false => exact hrefused _

theorem logout_settles (hsound : world.Sound X issued unlocks) :
    Settles execWorld (World.Sound X issued unlocks) (fun _ _ => True) (logout X ctx sid) world := by
  have hafter := sound_deleteSession sid hsound
  refine settles_store rfl (settles_inMemory ?_)
  split
  · exact Settles.ret hafter trivial
  · split
    · exact Settles.ret hafter trivial
    · exact Settles.ret hafter trivial

theorem accountPassword_settles (hapart : Apart X issued sid) (form : ChangePasswordForm)
    (hsound : world.Sound X issued unlocks) :
    Settles execWorld (World.Sound X issued unlocks) (fun _ _ => True) (accountPassword X ctx sid user form) world := by
  have herror : ∀ msg, Settles execWorld (World.Sound X issued unlocks) (fun _ _ => True)
      (stored (passwordError X ctx sid user msg)) world := fun msg => settles_stored (renderAccount_mild _) hsound
  unfold accountPassword
  split
  · exact Settles.ret hsound trivial
  · split
    · exact herror _
    · exact herror _
    · split
      · exact herror _
      · split
        · exact herror _
        · refine (settles_stored (hashOrFail_mild _) hsound).bind fun phc hashed hhashed _ => ?_
          apply settles_store rfl
          have hset := hhashed.mild (Or.inl (calm_setUserPassword user.id phc))
          refine settles_store rfl (settles_inMemory ?_)
          refine (settles_stored (store_framed (by simp [StoreCall.writes]) (by simp [StoreCall.writes]))
            (sound_deleteOtherSessions user.id sid hapart hset)).bind fun _ after hafter _ => ?_
          exact Settles.ret hafter trivial

theorem sessionsRevoke_settles (handle : String) (confirmed : Bool) (hsound : world.Sound X issued unlocks) :
    Settles execWorld (World.Sound X issued unlocks) (fun _ _ => True) (sessionsRevoke X ctx sid user handle confirmed)
      world := by
  refine (settles_stored (store_framed (by simp [StoreCall.writes]) (by simp [StoreCall.writes])) hsound).bind
    fun sessions after hafter _ => ?_
  split
  · exact Settles.ret hafter trivial
  · rename_i target htarget
    -- the handle of the request is the hash of the session that is found under it
    obtain rfl : X.hashApiKey target.id = handle := by simpa using List.find?_some htarget
    split
    · exact settles_stored trivial hafter
    · have hended := sound_deleteSessionOwned target.id user.id hafter
      refine settles_store rfl (settles_inMemory ?_)
      split
      · exact Settles.ret hended trivial
      · exact Settles.ret hended trivial

theorem sessionsRevokeOthers_settles (hapart : Apart X issued sid) (confirmed : Bool)
    (hsound : world.Sound X issued unlocks) :
    Settles execWorld (World.Sound X issued unlocks) (fun _ _ => True) (sessionsRevokeOthers X sid user confirmed) world := by
  unfold sessionsRevokeOthers
  split
  · exact settles_stored trivial hsound
  · refine settles_store rfl (settles_inMemory ?_)
    exact Settles.ret (sound_deleteOtherSessions user.id sid hapart hsound) trivial

theorem usersDelete_settles (id : Int) (confirmed : Bool) (hsound : world.Sound X issued unlocks) :
    Settles execWorld (World.Sound X issued unlocks) (fun _ _ => True) (usersDelete X ctx sid user id confirmed) world := by
  unfold usersDelete
  split
  · exact Settles.ret hsound trivial
  · refine (settles_stored (store_framed (by simp [StoreCall.writes]) (by simp [StoreCall.writes])) hsound).bind
      fun found looked hlooked _ => ?_
    split
    · exact Settles.ret hlooked trivial
    · refine (settles_stored (lastAdminGuard_mild _) hlooked).bind fun blocked guarded hguarded _ => ?_
      split
      · exact Settles.ret hguarded trivial
      · split
        · exact settles_stored trivial hguarded
        · refine settles_store rfl (settles_inMemory ?_)
          refine (settles_stored (auditUser_mild _ _ _) (sound_deleteUser id hguarded)).bind fun _ after hafter _ => ?_
          exact Settles.ret hafter trivial

theorem usersSetDisabled_settles (id : Int) (confirmed : Bool) (hsound : world.Sound X issued unlocks) :
    Settles execWorld (World.Sound X issued unlocks) (fun _ _ => True) (usersSetDisabled X ctx sid user id confirmed)
      world := by
  unfold usersSetDisabled
  split
  · exact Settles.ret hsound trivial
  · refine (settles_stored (store_framed (by simp [StoreCall.writes]) (by simp [StoreCall.writes])) hsound).bind
      fun found looked hlooked _ => ?_
    split
    · exact Settles.ret hlooked trivial
    · rename_i target
      dsimp only
      refine Settles.bind (P := fun _ _ => True) ?_ fun blocked guarded hguarded _ => ?_
      · split
        · exact settles_stored (lastAdminGuard_mild _) hlooked
        · exact Settles.ret hlooked trivial
      · split
        · exact Settles.ret hguarded trivial
        · split
          · exact settles_stored trivial hguarded
          · apply settles_store rfl
            cases target.disabled with
            | false =>
                refine settles_store rfl (settles_inMemory ?_)
                refine (settles_stored (auditUser_mild _ _ _) (sound_disable id hguarded)).bind fun _ after hafter _ => ?_
                exact Settles.ret hafter trivial
            | true =>
                refine (settles_stored (auditUser_mild _ _ _) (hguarded.mild (Or.inl (calm_enable id)))).bind
                  fun _ after hafter _ => ?_
                exact Settles.ret hafter trivial

theorem usersToggleAdmin_settles (id : Int) (confirmed : Bool) (hsound : world.Sound X issued unlocks) :
    Settles execWorld (World.Sound X issued unlocks) (fun _ _ => True) (usersToggleAdmin X ctx clock sid user id confirmed)
      world := by
  unfold usersToggleAdmin
  split
  · exact Settles.ret hsound trivial
  · refine (settles_stored (store_framed (by simp [StoreCall.writes]) (by simp [StoreCall.writes])) hsound).bind
      fun found looked hlooked _ => ?_
    split
    · exact Settles.ret hlooked trivial
    · rename_i target
      dsimp only
      refine Settles.bind (P := fun _ _ => True) ?_ fun allowed checked hchecked _ => ?_
      · split
        · exact (elevation_settles hlooked).bind fun _ after hafter _ => Settles.ret hafter trivial
        · exact Settles.ret hlooked trivial
      · split
        · exact Settles.ret hchecked trivial
        · refine Settles.bind (P := fun _ _ => True) ?_ fun blocked guarded hguarded _ => ?_
          · split
            · exact Settles.ret hchecked trivial
            · exact settles_stored (lastAdminGuard_mild _) hchecked
          · split
            · exact Settles.ret hguarded trivial
            · split
              · exact settles_stored trivial hguarded
              · apply settles_store rfl
                refine (settles_stored (auditUser_mild _ _ _)
                  (hguarded.mild (Or.inl (calm_setUserAdmin id _)))).bind fun _ after hafter _ => ?_
                exact Settles.ret hafter trivial

theorem usersCreate_settles (form : NewUserForm) (hsound : world.Sound X issued unlocks) :
    Settles execWorld (World.Sound X issued unlocks) (fun _ _ => True) (usersCreate X ctx clock sid user form) world := by
  refine Settles.bind (P := fun _ _ => True) ?_ fun found looked hlooked _ => ?_
  · split
    · exact Settles.ret hsound trivial
    · exact settles_stored (store_framed (by simp [StoreCall.writes]) (by simp [StoreCall.writes])) hsound
  · split
    · exact settles_stored trivial hlooked
    · refine (elevation_settles hlooked).bind fun current checked hchecked _ => ?_
      split
      · exact Settles.ret hchecked trivial
      · refine (settles_stored (hashOrFail_mild _) hchecked).bind fun phc hashed hhashed _ => ?_
        refine (settles_stored (attemptCall_only (Or.inl (calm_createUser _ _ _ _))) hhashed).bind
          fun answer created hcreated _ => ?_
        split
        · exact settles_stored trivial hcreated
        · exact Settles.fail hcreated
        · refine (settles_stored (auditUser_mild _ _ _) hcreated).bind fun _ after hafter _ => ?_
          exact Settles.ret hafter trivial

theorem usersSetPassword_settles (hapart : Apart X issued sid) (id : Int) (password : String)
    (hsound : world.Sound X issued unlocks) :
    Settles execWorld (World.Sound X issued unlocks) (fun _ _ => True) (usersSetPassword X ctx clock sid user id password)
      world := by
  refine (elevation_settles hsound).bind fun current checked hchecked _ => ?_
  split
  · exact Settles.ret hchecked trivial
  · split
    · exact settles_stored trivial hchecked
    · refine (settles_stored (store_framed (by simp [StoreCall.writes]) (by simp [StoreCall.writes])) hchecked).bind
        fun found looked hlooked _ => ?_
      split
      · exact Settles.ret hlooked trivial
      · refine (settles_stored (hashOrFail_mild _) hlooked).bind fun phc hashed hhashed _ => ?_
        apply settles_store rfl
        have hset := hhashed.mild (Or.inl (calm_setUserPassword id phc))
        have hrest : ∀ (target : User) (revoked : Nat) (ended : World), ended.Sound X issued unlocks →
            Settles execWorld (World.Sound X issued unlocks) (fun _ _ => True) (do
              stored (auditUser ctx user "user.password_reset" id (some ("sessions_revoked=" ++ toString revoked)))
              let keys ← stored (store (.listApiKeysForUser id))
              let keyCount := keys.countP fun k => k.expiresAt.all (ctx.now < ·)
              if 0 < keyCount ∧ !target.disabled then
                return Response.redirect "/admin"
                  (some ("password_reset_keys:" ++ toString revoked ++ ":" ++ toString keyCount))
              return .redirect "/admin") ended := by
          intro target revoked ended hended
          refine (settles_stored (auditUser_mild _ _ _) hended).bind fun _ audited haudited _ => ?_
          refine (settles_stored (store_framed (by simp [StoreCall.writes]) (by simp [StoreCall.writes])) haudited).bind
            fun keys listed hlisted _ => ?_
          dsimp only
          split
          · exact Settles.ret hlisted trivial
          · exact Settles.ret hlisted trivial
        by_cases hself : id = user.id
        · rw [if_pos hself]
          exact settles_store rfl (settles_inMemory (hrest _ _ _ (sound_deleteOtherSessions id sid hapart hset)))
        · rw [if_neg hself]
          exact settles_store rfl (settles_inMemory (hrest _ _ _ (sound_deleteSessions id hset)))

end Paired

end Pingward
