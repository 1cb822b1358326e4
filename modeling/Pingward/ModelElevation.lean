import Pingward.ModelLimiter
import Pingward.ModelRoutes
import Pingward.ProgramPair

/-! `src/elevate.rs`: the sessions that were unlocked for access-granting actions, and the handlers of `src/web.rs`
that read the map or keep it in step with the sessions table. A handler is a program over the database and the map. -/

open KeyedTable StoreProgram

namespace Pingward

def elevationTtlSecs : Nat := 900

/-- An entry of `granted`. -/
structure Grant where
  handle : String
  userId : Int
  grantedAt : Nat
  deriving DecidableEq, Repr

/-- Live elevations by session handle. The clock is monotonic and counts nanoseconds. -/
structure Elevations where
  granted : Table String Grant Grant.handle
  ttlSecs : Nat

namespace Elevations

def new (ttlSecs : Nat) : Elevations := ⟨.empty, ttlSecs⟩

/-- `HashMap::insert`: what stood under the key is replaced. -/
def put (granted : Table String Grant Grant.handle) (entry : Grant) : Table String Grant Grant.handle :=
  let others := granted.deleteWhere fun other => other.handle = entry.handle
  (others.insert entry).getD others

variable (elevations : Elevations)

/-- Start or restart a window, sweeping expired entries. -/
def grant (handle : String) (userId : Int) (now : Nat) : Elevations :=
  let live := elevations.granted.deleteWhere fun entry => ¬ elapsedSecs entry.grantedAt now < elevations.ttlSecs
  { elevations with granted := put live ⟨handle, userId, now⟩ }

/-- Seconds left on a window, if it has any. -/
def remainingSecs (handle : String) (now : Nat) : Option Nat :=
  match elevations.granted.find handle with
  | none => none
  | some entry =>
      let elapsed := elapsedSecs entry.grantedAt now
      (if elapsed ≤ elevations.ttlSecs then some (elevations.ttlSecs - elapsed) else none).filter fun left => 0 < left

/-- End a window early. -/
def revoke (handle : String) : Elevations :=
  { elevations with granted := elevations.granted.deleteWhere fun entry => entry.handle = handle }

/-- End the window of every session of the user except `keep`. -/
def revokeUser (userId : Int) (keep : Option String) : Elevations :=
  { elevations with
    granted := elevations.granted.deleteWhere fun entry => ¬(entry.userId ≠ userId ∨ keep = some entry.handle) }

end Elevations

/-! ### Calls -/

inductive ElevationCall where
  | grant (handle : String) (userId : Int) (now : Nat)
  | remainingSecs (handle : String) (now : Nat)
  | revoke (handle : String)
  | revokeUser (userId : Int) (keep : Option String)
  deriving DecidableEq, Repr

@[reducible] def ElevationCall.Res : ElevationCall → Type
  | .remainingSecs _ _ => Option Nat
  | .grant _ _ _ | .revoke _ | .revokeUser _ _ => Unit

/-- The map: the answer to a call and the map after it. -/
def execElevations : (c : ElevationCall) → Elevations → c.Res × Elevations
  | .grant handle userId now, elevations => ((), elevations.grant handle userId now)
  | .remainingSecs handle now, elevations => (elevations.remainingSecs handle now, elevations)
  | .revoke handle, elevations => ((), elevations.revoke handle)
  | .revokeUser userId keep, elevations => ((), elevations.revokeUser userId keep)

/-- A program over the database and the map. -/
abbrev PairedProg (α : Type) :=
  Prog (StoreCall ⊕ ElevationCall) (PairRes (fun c => c.Res) ElevationCall.Res) StoreError Spawned AppError α

def stored {α : Type} (program : StoreProg AppError α) : PairedProg α := program.lift

def inMemory (c : ElevationCall) : PairedProg c.Res := Prog.perform AppError.db (Sum.inr c)

/-! ### Handlers -/

namespace Paired

section Handlers

variable (X : Crates) (ctx : WebContext) (clock : Nat) (sid : String) (user : User)

/-- The hash of the session id. -/
def currentSessionHandle : String := X.hashApiKey sid

structure Elevation where
  notApplicable : Bool
  remainingSecs : Option Nat
  deriving DecidableEq, Repr

/-- Whether an access-granting admin action may proceed. -/
def Elevation.allows (current : Elevation) : Bool := current.notApplicable || current.remainingSecs.isSome

def elevation : PairedProg Elevation := do
  if user.passwordHash.isNone then return ⟨true, none⟩
  let left ← inMemory (.remainingSecs (currentSessionHandle X sid) clock)
  return ⟨false, left⟩

def grantElevation (userId : Int) : PairedProg Unit := inMemory (.grant (currentSessionHandle X sid) userId clock)

structure UnlockPage where
  applies : Bool
  remaining : Option String
  ttl : String
  bouncedFlash : Option String
  error : Option String
  deriving DecidableEq, Repr

inductive UnlockAnswer where
  | status (code : Nat) (retryAfterSecs : Option Nat)
  | page (page : UnlockPage) (csrf : String)
  | redirect (location flash : String)
  deriving DecidableEq, Repr

def fmtElevationSecs (secs : Nat) : String := fmtDuration (if (secs : Int) ≤ i64Max then secs else i64Max)

def renderAdminUnlock (bouncedFlash error : Option String) : PairedProg UnlockAnswer := do
  let current ← elevation X clock sid user
  return .page
    ⟨!current.notApplicable, current.remainingSecs.map fmtElevationSecs, fmtElevationSecs elevationTtlSecs,
      bouncedFlash, error⟩
    (X.deriveCsrf sid)

/-- The dialog of a page with script wants a status instead of a page. -/
def adminUnlock (password : String) : PairedProg UnlockAnswer := do
  let outcome := reauthenticate X ctx user password
  if ctx.fragment then
    match outcome with
    | .passed =>
        grantElevation X clock sid user.id
        return .status 204 none
    | .failed => return .status 403 none
    | .throttled => return .status 429 (some accountWindowSecs)
  else
    let refusal : Option String :=
      match outcome with
      | .passed => none
      | .failed => some "That password is not correct."
      | .throttled => some "Too many attempts — try again later."
    match refusal with
    | some msg => renderAdminUnlock X clock sid user none (some msg)
    | none =>
        grantElevation X clock sid user.id
        return .redirect "/admin" "admin_unlocked"

def logout : PairedProg Response := do
  stored (store (.deleteSession sid))
  inMemory (.revoke (X.hashApiKey sid))
  match ctx.forwardAuthLogoutUrl with
  | some url => return .redirect url
  | none =>
      if ctx.gatewayUser.isSome then return .redirect "/" (some "forward_auth_logout")
      return .redirect "/login"

def accountPassword (form : ChangePasswordForm) : PairedProg Response :=
  if user.passwordHash.isNone then return .status 403 "this account has no local password"
  else
    match reauthenticate X ctx user form.currentPassword with
    | .failed => stored (passwordError X ctx sid user "Current password is incorrect.")
    | .throttled => stored (passwordError X ctx sid user "Too many attempts — try again later.")
    | .passed =>
        match validatePassword form.newPassword with
        | .error msg => stored (passwordError X ctx sid user msg)
        | .ok _ =>
            if form.newPassword ≠ form.confirmPassword then
              stored (passwordError X ctx sid user "The new passwords do not match.")
            else do
              let phc ← stored (hashOrFail X ctx form.newPassword)
              stored (store (.setUserPassword user.id phc))
              let revoked ← stored (revokeOtherSessions sid user)
              inMemory (.revokeUser user.id (some (X.hashApiKey sid)))
              let _ ← stored (store (.recordAudit
                ⟨user.id, user.username, "user.password_change", some "user", some user.id, none, none, none,
                  some ("sessions_revoked=" ++ toString revoked)⟩ ctx.now))
              return .redirect "/account" (some "password_changed")

def sessionsRevoke (handle : String) (confirmed : Bool) : PairedProg Response := do
  let sessions ← stored (store (.listSessionsForUser user.id ctx.now))
  match sessions.find? fun s => X.hashApiKey s.id = handle with
  | none => return .redirect "/account"
  | some target =>
      if !confirmed then
        stored (confirmationPage X sid user confirmRevokeSession ("/account/sessions/" ++ handle ++ "/revoke") "/account")
      else
        let _ ← stored (store (.deleteSessionOwned target.id user.id))
        inMemory (.revoke handle)
        if sid = target.id then return .redirect "/login"
        return .redirect "/account"

def sessionsRevokeOthers (confirmed : Bool) : PairedProg Response := do
  if !confirmed then
    stored (confirmationPage X sid user confirmRevokeOtherSessions "/account/sessions/revoke-others" "/account")
  else
    let _ ← stored (revokeOtherSessions sid user)
    inMemory (.revokeUser user.id (some (X.hashApiKey sid)))
    return .redirect "/account"

def usersCreate (form : NewUserForm) : PairedProg Response := do
  let username := trim form.username
  let found ← (if username = "" then pure none else stored (store (.findUserByUsername username)))
  match newUserError form username found.isSome with
  | some error => stored (renderPage X sid user (.admin (some error)))
  | none =>
      let current ← elevation X clock sid user
      if !current.allows then return adminLocked
      let phc ← stored (hashOrFail X ctx form.password)
      let isAdmin := form.isAdmin.any (· ≠ "")
      match ← stored (attemptCall (.createUser username (some phc) isAdmin ctx.now)) with
      | .error .uniqueViolation => stored (renderPage X sid user (.admin (some (usernameTaken username))))
      | .error error => Prog.fail (.db error)
      | .ok id =>
          stored (auditUser ctx user "user.create" id (some (if isAdmin then "admin" else "member")))
          return .redirect "/admin"

def usersDelete (id : Int) (confirmed : Bool) : PairedProg Response := do
  if id = user.id then return usersBlocked
  match ← stored (store (.findUserById id)) with
  | none => return .redirect "/admin"
  | some target =>
      if ← stored (lastAdminGuard target) then return usersBlocked
      if !confirmed then
        stored (confirmationPage X sid user confirmDeleteUser ("/admin/users/" ++ i64ToString id ++ "/delete") "/admin")
      else
        stored (store (.deleteUser id))
        inMemory (.revokeUser id none)
        stored (auditUser ctx user "user.delete" id none)
        return .redirect "/admin"

def usersSetPassword (id : Int) (password : String) : PairedProg Response := do
  let current ← elevation X clock sid user
  if !current.allows then return adminLocked
  match validatePassword password with
  | .error msg => stored (renderPage X sid user (.admin (some msg)))
  | .ok _ =>
      match ← stored (store (.findUserById id)) with
      | none => return .redirect "/admin"
      | some target =>
          let phc ← stored (hashOrFail X ctx password)
          stored (store (.setUserPassword id phc))
          let keep := if id = user.id then some sid else none
          let revoked ←
            match keep with
            | some current => stored (store (.deleteOtherSessionsForUser id current))
            | none => stored (store (.deleteSessionsForUser id))
          inMemory (.revokeUser id (keep.map X.hashApiKey))
          stored (auditUser ctx user "user.password_reset" id (some ("sessions_revoked=" ++ toString revoked)))
          let keys ← stored (store (.listApiKeysForUser id))
          let keyCount := keys.countP fun k => k.expiresAt.all (ctx.now < ·)
          if 0 < keyCount ∧ !target.disabled then
            return .redirect "/admin"
              (some ("password_reset_keys:" ++ toString revoked ++ ":" ++ toString keyCount))
          return .redirect "/admin"

def usersToggleAdmin (id : Int) (confirmed : Bool) : PairedProg Response := do
  if id = user.id then return usersBlocked
  match ← stored (store (.findUserById id)) with
  | none => return .redirect "/admin"
  | some target =>
      let newAdmin := !target.isAdmin
      let allowed ← (if newAdmin then (do return (← elevation X clock sid user).allows) else pure true)
      if !allowed then return adminLocked
      if ← (if newAdmin then pure false else stored (lastAdminGuard target)) then return usersBlocked
      if !newAdmin ∧ !confirmed then
        stored (confirmationPage X sid user confirmDemoteAdmin ("/admin/users/" ++ i64ToString id ++ "/admin") "/admin")
      else
        stored (store (.setUserAdmin id newAdmin))
        stored (auditUser ctx user "user.set_admin" id (some (if newAdmin then "promote" else "demote")))
        return .redirect "/admin"

def usersSetDisabled (id : Int) (confirmed : Bool) : PairedProg Response := do
  if id = user.id then return usersBlocked
  match ← stored (store (.findUserById id)) with
  | none => return .redirect "/admin"
  | some target =>
      let newDisabled := !target.disabled
      if ← (if newDisabled then stored (lastAdminGuard target) else pure false) then return usersBlocked
      if newDisabled ∧ !confirmed then
        stored (confirmationPage X sid user confirmDisableUser ("/admin/users/" ++ i64ToString id ++ "/disabled") "/admin")
      else
        stored (store (.setUserDisabled id newDisabled))
        if newDisabled then
          let revoked ← stored (store (.deleteSessionsForUser id))
          inMemory (.revokeUser id none)
          stored (auditUser ctx user "user.set_disabled" id (some ("disable sessions_revoked=" ++ toString revoked)))
        else
          stored (auditUser ctx user "user.set_disabled" id (some "enable"))
        return .redirect "/admin"

end Handlers

end Paired

end Pingward
