import Pingward.AccountChanges

/-! Visitors that submit the setup page of an empty instance at the same time. The count and the insert are
separate calls, and only the constraint on the username arbitrates between visitors that both counted no
user: one account is created whatever the order exactly when all of them ask for the same name. -/

open KeyedTable StoreProgram

namespace Pingward

/-! ### The steps of a submission -/

section Submission

variable (X : Crates) (ctx : WebContext) (sid : String) (creds : Credentials)

/-- The form is in order and the password can be hashed. -/
def SetupAccepted : Prop := setupError creds = none ∧ (X.hashPassword ctx.salt creds.password).isSome = true

/-- What is left once the account is in. -/
def setupOpen (uid : Int) : StoreProg AppError Response := do
  openSession ctx uid false
  return .redirect "/"

/-- What is left after the insert. -/
def setupCreated : Except StoreError Int → StoreProg AppError Response
  | .error .uniqueViolation => .ret (.page (.setup (some (usernameTaken creds.username))) false (X.deriveCsrf sid))
  | .error error => .fail (.db error)
  | .ok uid => setupOpen ctx uid

/-- What is left after the count and the hash. -/
def setupCreate (phc : String) : StoreProg AppError Response :=
  .call (.createUser creds.username (some phc) true ctx.now) (setupCreated X ctx sid creds)

/-- What is left after the count. -/
def setupCounted (count : Int) : StoreProg AppError Response :=
  if count > 0 then .ret (.redirect "/login")
  else
    match setupError creds with
    | some error => .ret (.page (.setup (some error)) false (X.deriveCsrf sid))
    | none => (hashOrFail X ctx creds.password).bind fun phc => setupCreate X ctx sid creds phc

theorem setupCreate_eq (phc : String) : ((attemptCall (.createUser creds.username (some phc) true ctx.now)).bind fun answer =>
    match answer with
    | .error .uniqueViolation => pure (.page (.setup (some (usernameTaken creds.username))) false (X.deriveCsrf sid))
    | .error error => Prog.fail (.db error)
    | .ok uid => do
        openSession ctx uid false
        return .redirect "/") = setupCreate X ctx sid creds phc := by
  refine congrArg (Prog.call _) (funext fun answer => ?_)
  cases answer with
  | ok uid => rfl
  | error error => cases error <;> rfl

theorem setupSubmit_eq : setupSubmit X ctx sid creds = .call .countUsers fun answer =>
    match answer with
    | .ok count => setupCounted X ctx sid creds count
    | .error error => .fail (.db error) := by
  refine congrArg (Prog.call _) (funext fun answer => ?_)
  cases answer with
  | error error => rfl
  | ok count =>
      unfold setupCounted
      cases setupError creds with
      | some error => rfl
      | none =>
          exact congrArg
            (fun rest => if count > 0 then .ret (.redirect "/login") else (hashOrFail X ctx creds.password).bind rest)
            (funext fun phc => setupCreate_eq X ctx sid creds phc)

theorem setupCounted_cases (count : Int) :
    (∃ value, setupCounted X ctx sid creds count = .ret value) ∨ (∃ error, setupCounted X ctx sid creds count = .fail error) ∨
      ∃ phc, SetupAccepted X ctx creds ∧ setupCounted X ctx sid creds count = setupCreate X ctx sid creds phc := by
  unfold setupCounted
  split
  · exact Or.inl ⟨_, rfl⟩
  · split
    · exact Or.inl ⟨_, rfl⟩
    · rename_i haccepted
      unfold hashOrFail
      cases hhash : X.hashPassword ctx.salt creds.password with
      | none => exact Or.inr (Or.inl ⟨_, rfl⟩)
      | some phc => exact Or.inr (Or.inr ⟨phc, ⟨haccepted, by rw [hhash]; rfl⟩, rfl⟩)

variable {X ctx creds}

theorem setupCounted_zero (sid : String) (haccepted : SetupAccepted X ctx creds) :
    ∃ phc, setupCounted X ctx sid creds 0 = setupCreate X ctx sid creds phc := by
  obtain ⟨phc, hphc⟩ := Option.isSome_iff_exists.mp haccepted.2
  refine ⟨phc, ?_⟩
  unfold setupCounted hashOrFail
  rw [if_neg (by decide), haccepted.1, hphc]
  rfl

end Submission

/-! ### Any order of steps -/

abbrev SetupConfig (ι : Type) := Config ι StoreCall StoreCall.Res StoreError Spawned AppError Response Db

def StoreCall.isCreateUser : StoreCall → Bool
  | .createUser _ _ _ _ => true
  | _ => false

/-- Whose `create_user` came first. On an empty table that is the one that creates the account. -/
def setupCreator {ι : Type} (trace : List (ι × StoreCall)) : Option ι :=
  (trace.reverse.find? fun entry => entry.2.isCreateUser).map Prod.fst

/-- At most one user exists, and only the request that created it has opened a session. -/
structure SetupOnce {ι : Type} (cfg : SetupConfig ι) : Prop where
  users : cfg.state.users.rows.length ≤ 1
  sessions : ∀ i session now, (i, StoreCall.createSession session now) ∈ cfg.trace → setupCreator cfg.trace = some i

theorem setupCreator_cons {ι : Type} (i : ι) (c : StoreCall) (trace : List (ι × StoreCall)) :
    setupCreator ((i, c) :: trace) = (setupCreator trace).or (if c.isCreateUser then some i else none) := by
  unfold setupCreator
  rw [List.reverse_cons, List.find?_append]
  cases trace.reverse.find? fun entry => entry.2.isCreateUser with
  | some entry => rfl
  | none => cases hc : c.isCreateUser <;> simp [hc]

theorem setupCreator_cons_of_ne {ι : Type} {i : ι} {c : StoreCall} {trace : List (ι × StoreCall)}
    (hc : c.isCreateUser = false) : setupCreator ((i, c) :: trace) = setupCreator trace := by
  rw [setupCreator_cons, hc]
  exact Option.or_none

section Race

variable {ι : Type} {X : Crates} {ctx : ι → WebContext} {sid : ι → String} {creds : ι → Credentials}

/-- How far a submission has come. -/
inductive SetupPhase (X : Crates) (ctx : ι → WebContext) (sid : ι → String) (creds : ι → Credentials)
    (creator : Option ι) (i : ι) : StoreProg AppError Response → Prop where
  | counting : SetupPhase X ctx sid creds creator i (setupSubmit X (ctx i) (sid i) (creds i))
  | creating (phc : String) (haccepted : SetupAccepted X (ctx i) (creds i)) :
      SetupPhase X ctx sid creds creator i (setupCreate X (ctx i) (sid i) (creds i) phc)
  | opening (uid : Int) (hcreator : creator = some i) : SetupPhase X ctx sid creds creator i (setupOpen (ctx i) uid)
  | answered (response : Response) : SetupPhase X ctx sid creds creator i (.ret response)
  | failed (error : AppError) : SetupPhase X ctx sid creds creator i (.fail error)

theorem SetupPhase.mono {creator creator' : Option ι} {i : ι} {program : StoreProg AppError Response}
    (hphase : SetupPhase X ctx sid creds creator i program) (hkept : ∀ j, creator = some j → creator' = some j) :
    SetupPhase X ctx sid creds creator' i program := by
  cases hphase with
  | counting => exact .counting
  | creating phc haccepted => exact .creating phc haccepted
  | opening uid hcreator => exact .opening uid (hkept i hcreator)
  | answered response => exact .answered response
  | failed error => exact .failed error

/-- The one account there is, if any, is the first creator's. -/
def OneAccount (X : Crates) (ctx : ι → WebContext) (creds : ι → Credentials) (creator : Option ι) (db : Db) : Prop :=
  creator = none ∧ db.users.rows = [] ∨
    ∃ i row, creator = some i ∧ SetupAccepted X (ctx i) (creds i) ∧ db.users.rows = [row] ∧
      row.username = (creds i).username

structure SetupInv (X : Crates) (ctx : ι → WebContext) (sid : ι → String) (creds : ι → Credentials) (cfg : SetupConfig ι) :
    Prop where
  phases : ∀ i, SetupPhase X ctx sid creds (setupCreator cfg.trace) i (cfg.pool i)
  account : OneAccount X ctx creds (setupCreator cfg.trace) cfg.state
  sessions : ∀ i session now, (i, StoreCall.createSession session now) ∈ cfg.trace → setupCreator cfg.trace = some i

theorem SetupInv.once {cfg : SetupConfig ι} (hinv : SetupInv X ctx sid creds cfg) : SetupOnce cfg := by
  refine ⟨?_, hinv.sessions⟩
  rcases hinv.account with ⟨_, hnone⟩ | ⟨_, row, _, _, hone, _⟩
  · rw [hnone]
    exact Nat.zero_le 1
  · rw [hone]
    exact le_refl 1

theorem OneAccount.of_users {creator : Option ι} {db db' : Db} (haccount : OneAccount X ctx creds creator db)
    (husers : db'.users.rows = db.users.rows) : OneAccount X ctx creds creator db' := by
  rw [OneAccount, husers]
  exact haccount

variable [DecidableEq ι]

/-- A call, from the phase it leaves its request in and the account it leaves. -/
theorem SetupInv.of_call {cfg : SetupConfig ι} {i : ι} {c : StoreCall} {next : StoreProg AppError Response} {db : Db}
    (hinv : SetupInv X ctx sid creds cfg)
    (hnext : SetupPhase X ctx sid creds (setupCreator ((i, c) :: cfg.trace)) i next)
    (haccount : OneAccount X ctx creds (setupCreator ((i, c) :: cfg.trace)) db)
    (hopens : ∀ session now, c = .createSession session now → setupCreator cfg.trace = some i) :
    SetupInv X ctx sid creds
      { cfg with pool := Function.update cfg.pool i next, state := db, trace := (i, c) :: cfg.trace } := by
  have hkept : ∀ j, setupCreator cfg.trace = some j → setupCreator ((i, c) :: cfg.trace) = some j := by
    intro j hj
    rw [setupCreator_cons, hj]
    rfl
  refine ⟨fun j => ?_, haccount, fun j session now hmem => ?_⟩
  · by_cases hj : j = i
    · subst hj
      simp only [Function.update_self]
      exact hnext
    · simp only [Function.update_of_ne hj]
      exact (hinv.phases j).mono hkept
  · rcases List.mem_cons.mp hmem with heq | hold
    · cases heq
      exact hkept i (hopens session now rfl)
    · exact hkept j (hinv.sessions j session now hold)

/-- The insert: the first one finds the table empty, and a later one finds its name taken. -/
theorem SetupInv.create {cfg : SetupConfig ι} {i : ι} {phc : String}
    (hsame : ∀ i j, SetupAccepted X (ctx i) (creds i) → SetupAccepted X (ctx j) (creds j) →
      (creds i).username = (creds j).username)
    (hinv : SetupInv X ctx sid creds cfg) (haccepted : SetupAccepted X (ctx i) (creds i)) :
    SetupInv X ctx sid creds
      { cfg with
        pool := Function.update cfg.pool i (setupCreated X (ctx i) (sid i) (creds i)
          (exec (.createUser (creds i).username (some phc) true (ctx i).now) cfg.state).1)
        state := (exec (.createUser (creds i).username (some phc) true (ctx i).now) cfg.state).2
        trace := (i, .createUser (creds i).username (some phc) true (ctx i).now) :: cfg.trace } := by
  rcases hinv.account with ⟨hnone, hempty⟩ | ⟨owner, row, hcreator, howner, hone, hname⟩
  · have hfree : cfg.state.findUserByUsername (creds i).username = none := by
      rw [Db.findUserByUsername, hempty]
      rfl
    have hfirst : setupCreator ((i, .createUser (creds i).username (some phc) true (ctx i).now) :: cfg.trace) = some i := by
      rw [setupCreator_cons, hnone]
      rfl
    rw [exec_createUser hfree]
    refine hinv.of_call (.opening _ hfirst) (Or.inr ⟨i, ⟨cfg.state.users.next, (creds i).username, some phc, true, false,
      (ctx i).now⟩, hfirst, haccepted, ?_, rfl⟩) fun _ _ hcall => by cases hcall
    rw [AutoTable.insert_rows, hempty]
    rfl
  · have htaken : cfg.state.findUserByUsername (creds i).username = some row := by
      rw [Db.findUserByUsername, hone, hsame i owner haccepted howner]
      simp [hname]
    have hrefused : exec (.createUser (creds i).username (some phc) true (ctx i).now) cfg.state =
        (.error .uniqueViolation, cfg.state) := by
      simp only [exec, Db.createUser, htaken, Option.isSome_some, if_true]
      rfl
    have hlater : setupCreator ((i, .createUser (creds i).username (some phc) true (ctx i).now) :: cfg.trace) = some owner := by
      rw [setupCreator_cons, hcreator]
      rfl
    rw [hrefused]
    exact hinv.of_call (.answered _) (Or.inr ⟨owner, row, hlater, howner, hone, hname⟩) fun _ _ hcall => by cases hcall

/-- The invariant along a step. -/
theorem SetupInv.step {cfg cfg' : SetupConfig ι} {i : ι}
    (hsame : ∀ i j, SetupAccepted X (ctx i) (creds i) → SetupAccepted X (ctx j) (creds j) →
      (creds i).username = (creds j).username)
    (hinv : SetupInv X ctx sid creds cfg) (hstep : cfg.advance exec i = some cfg') : SetupInv X ctx sid creds cfg' := by
  have hphase := hinv.phases i
  generalize hpool : cfg.pool i = program at hphase
  cases hphase with
  | counting =>
      rw [setupSubmit_eq] at hpool
      rw [Config.advance_call exec hpool, Option.some.injEq] at hstep
      subst hstep
      have hcreator : setupCreator ((i, .countUsers) :: cfg.trace) = setupCreator cfg.trace := setupCreator_cons_of_ne rfl
      refine hinv.of_call ?_ (hcreator ▸ hinv.account) fun _ _ hcall => by cases hcall
      show SetupPhase X ctx sid creds _ i (setupCounted X (ctx i) (sid i) (creds i) cfg.state.users.rows.length)
      rcases setupCounted_cases X (ctx i) (sid i) (creds i) (cfg.state.users.rows.length : Int) with
        ⟨value, hvalue⟩ | ⟨error, herror⟩ | ⟨phc, haccepted, hcreate⟩
      · rw [hvalue]
        exact .answered value
      · rw [herror]
        exact .failed error
      · rw [hcreate]
        exact .creating phc haccepted
  | creating phc haccepted =>
      rw [Config.advance_call exec hpool, Option.some.injEq] at hstep
      subst hstep
      exact hinv.create hsame haccepted
  | opening uid hcreator =>
      rw [Config.advance_call exec hpool, Option.some.injEq] at hstep
      subst hstep
      have hkept : setupCreator ((i, .createSession ⟨(ctx i).freshSession, uid, (ctx i).now + sessionIdleTtl, (ctx i).userAgent,
          (ctx i).ip, false⟩ (ctx i).now) :: cfg.trace) = setupCreator cfg.trace := setupCreator_cons_of_ne rfl
      refine hinv.of_call ?_ (hkept ▸ hinv.account.of_users ?_) fun _ _ _ => hcreator
      · cases (exec (.createSession ⟨(ctx i).freshSession, uid, (ctx i).now + sessionIdleTtl, (ctx i).userAgent,
            (ctx i).ip, false⟩ (ctx i).now) cfg.state).1 with
        | error error => exact .failed _
        | ok _ => exact .answered _
      · have husers : (exec (.createSession ⟨(ctx i).freshSession, uid, (ctx i).now + sessionIdleTtl, (ctx i).userAgent,
            (ctx i).ip, false⟩ (ctx i).now) cfg.state).2.users = cfg.state.users :=
          exec_frame (t := .users) (by simp [StoreCall.writes]) cfg.state
        rw [husers]
  | answered response => simp [Config.advance, hpool] at hstep
  | failed error => simp [Config.advance, hpool] at hstep

/-- The submissions before their first step. -/
def setupStart (X : Crates) (ctx : ι → WebContext) (sid : ι → String) (creds : ι → Credentials) (db : Db) : SetupConfig ι :=
  .init (fun i => setupSubmit X (ctx i) (sid i) (creds i)) db

/-- Visitors that all ask for the same name. -/
theorem setup_once_of_same_name {start : Db} (hempty : start.users.rows = [])
    (hsame : ∀ i j, SetupAccepted X (ctx i) (creds i) → SetupAccepted X (ctx j) (creds j) →
      (creds i).username = (creds j).username)
    {cfg : SetupConfig ι} (hreach : Reach exec (fun _ _ => True) (setupStart X ctx sid creds start) cfg) :
    SetupOnce cfg := by
  refine (hreach.invariant exec (SetupInv X ctx sid creds) ?_ fun _ _ _ hinv _ hstep => hinv.step hsame hstep).once
  refine ⟨fun i => .counting, Or.inl ⟨rfl, hempty⟩, fun i session now hmem => ?_⟩
  cases hmem

/-- A count on an empty table, of a submission in order. -/
theorem setup_count_step {cfg : SetupConfig ι} {i : ι} (hpool : cfg.pool i = setupSubmit X (ctx i) (sid i) (creds i))
    (hempty : cfg.state.users.rows = []) (haccepted : SetupAccepted X (ctx i) (creds i)) :
    ∃ cfg' phc, cfg.advance exec i = some cfg' ∧ cfg'.state = cfg.state ∧
      cfg'.pool i = setupCreate X (ctx i) (sid i) (creds i) phc := by
  obtain ⟨phc, hcreate⟩ := setupCounted_zero (sid i) haccepted
  rw [setupSubmit_eq] at hpool
  refine ⟨_, phc, Config.advance_call exec hpool, rfl, ?_⟩
  rw [← hcreate]
  simp only [Function.update_self, exec, hempty]
  rfl

/-- An insert of a name that is free. -/
theorem setup_create_step {cfg : SetupConfig ι} {i : ι} {phc : String}
    (hpool : cfg.pool i = setupCreate X (ctx i) (sid i) (creds i) phc)
    (hfree : ∀ row ∈ cfg.state.users.rows, row.username ≠ (creds i).username) :
    ∃ cfg' row, cfg.advance exec i = some cfg' ∧ cfg'.state.users.rows = cfg.state.users.rows ++ [row] ∧
      row.username = (creds i).username := by
  have hnone : cfg.state.findUserByUsername (creds i).username = none := by
    rw [Db.findUserByUsername, List.find?_eq_none]
    simpa using hfree
  refine ⟨_, ⟨cfg.state.users.next, (creds i).username, some phc, true, false, (ctx i).now⟩,
    Config.advance_call exec hpool, ?_, rfl⟩
  simp only [exec_createUser hnone]
  rfl

/-- Two visitors with different names both count no user, and then both insert. -/
theorem setup_twice {start : Db} (hempty : start.users.rows = []) {i j : ι} (hi : SetupAccepted X (ctx i) (creds i))
    (hj : SetupAccepted X (ctx j) (creds j)) (hname : (creds i).username ≠ (creds j).username) :
    ∃ cfg, Reach exec (fun _ _ => True) (setupStart X ctx sid creds start) cfg ∧ 1 < cfg.state.users.rows.length := by
  have hne : j ≠ i := fun heq => hname (heq ▸ rfl)
  have hi0 : (setupStart X ctx sid creds start).pool i = setupSubmit X (ctx i) (sid i) (creds i) := rfl
  obtain ⟨cfg1, phci, hstep1, hstate1, hpool1⟩ := setup_count_step hi0 hempty hi
  have hj1 : cfg1.pool j = setupSubmit X (ctx j) (sid j) (creds j) := Config.advance_pool_of_ne exec hne hstep1
  have hempty1 : cfg1.state.users.rows = [] := by
    rw [hstate1]
    exact hempty
  obtain ⟨cfg2, phcj, hstep2, hstate2, hpool2⟩ := setup_count_step hj1 hempty1 hj
  have hi2 : cfg2.pool i = setupCreate X (ctx i) (sid i) (creds i) phci :=
    (Config.advance_pool_of_ne exec hne.symm hstep2).trans hpool1
  have hempty2 : cfg2.state.users.rows = [] := by rw [hstate2, hempty1]
  obtain ⟨cfg3, row, hstep3, hrows3, hrow⟩ := setup_create_step hi2 (by rw [hempty2]; simp)
  rw [hempty2, List.nil_append] at hrows3
  have hj3 : cfg3.pool j = setupCreate X (ctx j) (sid j) (creds j) phcj :=
    (Config.advance_pool_of_ne exec hne hstep3).trans hpool2
  obtain ⟨cfg4, row', hstep4, hrows4, _⟩ := setup_create_step hj3 (by
    rw [hrows3]
    intro other hother
    rw [List.mem_singleton.mp hother, hrow]
    exact hname)
  refine ⟨cfg4, .step j (.step i (.step j (.step i .refl trivial hstep1) trivial hstep2) trivial hstep3) trivial hstep4, ?_⟩
  rw [hrows4, hrows3]
  exact Nat.lt_succ_self 1

/-- **One account.** From an empty users table, concurrent submissions of the setup page create at most one
account, and only its creator opens a session, in every order of their steps, exactly when those that are
in order all ask for the same username. -/
theorem setup_once_iff (X : Crates) (ctx : ι → WebContext) (sid : ι → String) (creds : ι → Credentials) (start : Db)
    (hempty : start.users.rows = []) :
    (∀ cfg, Reach exec (fun _ _ => True) (setupStart X ctx sid creds start) cfg → SetupOnce cfg) ↔
      ∀ i j, SetupAccepted X (ctx i) (creds i) → SetupAccepted X (ctx j) (creds j) →
        (creds i).username = (creds j).username := by
  constructor
  · intro honce i j hi hj
    by_contra hname
    obtain ⟨cfg, hreach, htwo⟩ := setup_twice hempty hi hj hname
    exact absurd (honce cfg hreach).users (not_le.mpr htwo)
  · intro hsame cfg hreach
    exact setup_once_of_same_name hempty hsame hreach

end Race

/-! ### Two visitors -/

def visitorNames : Bool → Credentials
  | false => ⟨"alice", "correct horse battery"⟩
  | true => ⟨"mallory", "battery horse correct"⟩

def visitorContext : Bool → WebContext
  | false => WebContext.sample
  | true => { WebContext.sample with freshSession := "s4" }

/-- Both count no user and both are let in, as administrators and with a session each. -/
theorem setup_race_two_admins :
    Db.empty.users.rows = [] ∧
      ∃ cfg, Reach exec (fun _ _ => True) (setupStart plainCrates visitorContext (fun _ => "s0") visitorNames .empty) cfg ∧
        cfg.state.users.rows.length = 2 ∧ cfg.state.sessions.rows.length = 2 ∧ ¬ SetupOnce cfg := by
  refine ⟨rfl, ?_⟩
  obtain ⟨cfg, hreach, hboth⟩ := exists_reach exec (fun _ _ _ => trivial : ∀ _ _, true = true → True)
    [false, true, false, true, false, true]
    (show ((setupStart plainCrates visitorContext (fun _ => "s0") visitorNames .empty).advanceWhen exec (fun _ _ => true)
      [false, true, false, true, false, true]).any (fun cfg => decide (cfg.state.users.rows.length = 2) &&
        decide (cfg.state.sessions.rows.length = 2)) = true by decide +kernel)
  rw [Bool.and_eq_true, decide_eq_true_eq, decide_eq_true_eq] at hboth
  exact ⟨cfg, hreach, hboth.1, hboth.2, fun honce => absurd honce.users (by omega)⟩

/-- Visitors that all ask for the same name. -/
theorem setup_once_alice :
    Db.empty.users.rows = [] ∧ ∀ cfg, Reach exec (fun _ _ => True)
      (setupStart plainCrates visitorContext (fun _ => "s0") (fun _ => visitorNames false) .empty) cfg → SetupOnce cfg :=
  ⟨rfl, (setup_once_iff plainCrates visitorContext (fun _ => "s0") (fun _ => visitorNames false) .empty rfl).mpr
    fun _ _ _ _ => rfl⟩

end Pingward
