import Pingward.ModelElevation
import Pingward.ModelPrune

/-! Sequential runs over the database and the elevation map: what ends a session is noted in a journal that no call
reads, and so is every passed unlock. -/

open KeyedTable StoreProgram

namespace Pingward

/-! ### The database and the map -/

/-- What a session ends by: a handler, or the idle window and the absolute cap. -/
inductive EndCause where
  | handler
  | expiry
  deriving DecidableEq, Repr

structure Ending where
  session : String
  userId : Int
  cause : EndCause
  deriving DecidableEq, Repr

/-- The sessions with their users. -/
def Db.sessionUsers (db : Db) : List (String × Int) := db.sessions.rows.map fun row => (row.id, row.userId)

structure World where
  db : Db
  elevations : Elevations
  /-- The sessions that have ended. -/
  ended : List Ending

/-- The database moves on, and the sessions that are gone have ended. -/
def World.move (world : World) (cause : EndCause) (db : Db) : World :=
  let gone := world.db.sessionUsers.filter fun session => !(db.sessionUsers.map Prod.fst).contains session.1
  { world with db := db, ended := world.ended ++ gone.map fun session => ⟨session.1, session.2, cause⟩ }

/-- The account page deletes the sessions past the cap; every other deletion is a handler's. -/
def StoreCall.cause : StoreCall → EndCause
  | .deleteCappedSessionsForUser _ _ => .expiry
  | _ => .handler

def execMoved (c : StoreCall) (world : World) : Except StoreError c.Res × World :=
  ((exec c world.db).1, world.move c.cause (exec c world.db).2)

def execHeld (c : ElevationCall) (world : World) : Except StoreError c.Res × World :=
  (.ok (execElevations c world.elevations).1, { world with elevations := (execElevations c world.elevations).2 })

/-- A working database beside the map. -/
def execWorld : (c : StoreCall ⊕ ElevationCall) → World →
    Except StoreError (PairRes (fun c => c.Res) ElevationCall.Res c) × World :=
  execBoth execMoved execHeld

/-! ### Requests -/

/-- A request's context: only configured forward auth yields a gateway user. -/
structure Visit extends WebContext where
  gateway : gatewayUser.isSome → forwardAuth = true

/-- The layers and the extractor in front of a handler of a signed-in user's `POST`: the answer of a layer, or the
session and its user. -/
def signedIn (ctx : WebContext) : StoreProg AppError (Except Response (String × User)) := do
  let sid ← requestSession ctx
  if !ctx.csrfOk then return .error (.status 403 "")
  match ← resolveUser ctx sid with
  | none => return .error (.redirect "/login")
  | some user => return .ok (sid, user)

/-- The same for a handler under `/admin`. -/
def signedInAdmin (ctx : WebContext) : StoreProg AppError (Except Response (String × User)) := do
  match ← signedIn ctx with
  | .error response => return .error response
  | .ok (sid, user) => return if user.isAdmin then .ok (sid, user) else .error (.status 403 "admin only")

inductive AccountPost where
  | password (form : ChangePasswordForm)
  | sessionsRevoke (handle : String) (confirmed : Bool)
  | sessionsRevokeOthers (confirmed : Bool)
  deriving DecidableEq, Repr

inductive AdminPost where
  | unlock (password : String)
  | usersCreate (form : NewUserForm)
  | usersDelete (id : Int) (confirmed : Bool)
  | usersSetPassword (id : Int) (password : String)
  | usersToggleAdmin (id : Int) (confirmed : Bool)
  | usersSetDisabled (id : Int) (confirmed : Bool)
  deriving DecidableEq, Repr

/-- An event of a run. A sign-in, and the setup of an empty instance, name the id of the session they open. -/
inductive Event where
  | setup (visit : Visit) (creds : Credentials) (opened : String)
  | login (visit : Visit) (creds : Credentials) (opened : String)
  | logout (visit : Visit)
  | account (visit : Visit) (post : AccountPost)
  | admin (visit : Visit) (post : AdminPost)
  | prune (now : Instant)

/-- The session ids an event may give out. -/
def Event.freshIds : Event → List String
  | .setup visit _ opened | .login visit _ opened => [visit.freshSession, opened]
  | .logout visit | .account visit _ | .admin visit _ => [visit.freshSession]
  | .prune _ => []

namespace Paired

variable (X : Crates) (ctx : WebContext) (clock : Nat) (sid : String) (user : User)

def accountHandle : AccountPost → PairedProg Response
  | .password form => accountPassword X ctx sid user form
  | .sessionsRevoke handle confirmed => sessionsRevoke X ctx sid user handle confirmed
  | .sessionsRevokeOthers confirmed => sessionsRevokeOthers X sid user confirmed

def adminHandle : AdminPost → PairedProg (UnlockAnswer ⊕ Response)
  | .unlock password => do return .inl (← adminUnlock X ctx clock sid user password)
  | .usersCreate form => do return .inr (← usersCreate X ctx clock sid user form)
  | .usersDelete id confirmed => do return .inr (← usersDelete X ctx sid user id confirmed)
  | .usersSetPassword id password => do return .inr (← usersSetPassword X ctx clock sid user id password)
  | .usersToggleAdmin id confirmed => do return .inr (← usersToggleAdmin X ctx clock sid user id confirmed)
  | .usersSetDisabled id confirmed => do return .inr (← usersSetDisabled X ctx sid user id confirmed)

def setupRequest (creds : Credentials) (opened : String) : PairedProg Response := do
  let sid ← stored (requestSession ctx)
  if !ctx.csrfOk then return .status 403 ""
  stored (setupSubmit X { ctx with freshSession := opened } sid creds)

def loginRequest (creds : Credentials) (opened : String) : PairedProg Response := do
  let sid ← stored (requestSession ctx)
  if !ctx.csrfOk then return .status 403 ""
  stored (loginSubmit X { ctx with freshSession := opened } sid creds)

def logoutRequest : PairedProg Response := do
  let sid ← stored (requestSession ctx)
  if !ctx.csrfOk then return .status 403 ""
  logout X ctx sid

def accountRequest (post : AccountPost) : PairedProg Response := do
  match ← stored (signedIn ctx) with
  | .error response => return response
  | .ok (sid, user) => accountHandle X ctx sid user post

def adminRequest (post : AdminPost) : PairedProg (UnlockAnswer ⊕ Response) := do
  match ← stored (signedInAdmin ctx) with
  | .error response => return .inr response
  | .ok (sid, user) => adminHandle X ctx clock sid user post

/-- What the elevation check says of a request under `/admin`, with its session and its user. -/
def elevationCheck : PairedProg (Option (String × User × Bool)) := do
  match ← stored (signedInAdmin ctx) with
  | .error _ => return none
  | .ok (sid, user) => return some (sid, user, (← elevation X clock sid user).allows)

end Paired

/-! ### Runs -/

/-- A submission of the unlock form that passed `reauthenticate`. -/
structure Unlock where
  session : String
  userId : Int
  passedAt : Nat
  deriving DecidableEq, Repr

/-- The unlock a request comes to, from its session, its user and its password alone. -/
def Event.unlock (X : Crates) (db : Db) (clock : Nat) : Event → Option Unlock
  | .admin visit (.unlock password) =>
      match (run exec (signedInAdmin visit.toWebContext) db).outcome with
      | .ok (.ok (sid, user)) =>
          if reauthenticate X visit.toWebContext user password = .passed then some ⟨sid, user.id, clock⟩ else none
      | _ => none
  | _ => none

def Event.serve (X : Crates) (clock : Nat) (world : World) : Event → World
  | .setup visit creds opened => (run execWorld (Paired.setupRequest X visit.toWebContext creds opened) world).state
  | .login visit creds opened => (run execWorld (Paired.loginRequest X visit.toWebContext creds opened) world).state
  | .logout visit => (run execWorld (Paired.logoutRequest X visit.toWebContext) world).state
  | .account visit post => (run execWorld (Paired.accountRequest X visit.toWebContext post) world).state
  | .admin visit post => (run execWorld (Paired.adminRequest X visit.toWebContext clock post) world).state
  | .prune now => world.move .expiry (run execPrune (pruneOnce now) world.db).state

/-- An event some time after the one before it. -/
structure Step where
  wait : Nat
  event : Event

/-- A process: its stores, its clock and the unlocks so far. -/
structure Server where
  world : World
  clock : Nat
  unlocks : List Unlock

namespace Server

/-- A process just started on a database. -/
def start (db : Db) (clock : Nat) : Server := ⟨⟨db, .new elevationTtlSecs, []⟩, clock, []⟩

variable (X : Crates) (server : Server)

def step (next : Step) : Server :=
  let clock := server.clock + next.wait
  { world := next.event.serve X clock server.world
    clock := clock
    unlocks := server.unlocks ++ (next.event.unlock X server.world.db clock).toList }

def play (steps : List Step) : Server := steps.foldl (step X) server

end Server

/-- The life of a process, from its start to the next restart. -/
structure Life where
  boot : Nat
  steps : List Step

def Life.freshIds (life : Life) : List String := life.steps.flatMap fun step => step.event.freshIds

/-- The database that processes leave, each started on what the one before it left. -/
def Db.lived (X : Crates) (db : Db) (lives : List Life) : Db :=
  lives.foldl (fun db life => ((Server.start db life.boot).play X life.steps).world.db) db

end Pingward
