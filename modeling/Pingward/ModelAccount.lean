import Pingward.ModelWeb

/-! Signing in and out, the account page and the user administration of `src/web.rs`. A fresh session
id, a password salt and the verdicts of the limiters and of the elevation store come with the request's
context. -/

open StoreProgram

namespace Pingward

def minPasswordChars : Nat := 15
def maxPasswordChars : Nat := 128

/-- The single password policy. -/
def validatePassword (plain : String) : Except String Unit :=
  if plain.length < minPasswordChars then
    .error ("Password must be at least " ++ toString minPasswordChars ++ " characters.")
  else if plain.length > maxPasswordChars then
    .error ("Password must be at most " ++ toString maxPasswordChars ++ " characters.")
  else .ok ()

inductive Reauth where
  | passed
  | failed
  | throttled
  deriving DecidableEq, Repr

structure Credentials where
  username : String
  password : String
  deriving DecidableEq, Repr

section Handlers

variable (X : Crates) (ctx : WebContext) (sid : String) (user : User)

/-- Spends a verification on a dummy hash when there is none stored, and refuses. -/
def verifyPasswordOrDummy (plain : String) (stored : Option String) : Bool :=
  match stored with
  | some phc => X.verifyPassword plain phc
  | none => false

/-- Hashing failures are `AppError::Other`. -/
def hashOrFail (plain : String) : StoreProg AppError String :=
  match X.hashPassword ctx.salt plain with
  | some phc => return phc
  | none => Prog.fail .other

/-! ### Sessions -/

/-- The row of a new session, its expiry one idle window away. -/
def openSession (userId : Int) (sso : Bool) : StoreProg AppError Unit :=
  store (.createSession
    ⟨ctx.freshSession, userId, ctx.now + sessionIdleTtl, ctx.userAgent, ctx.ip, sso⟩ ctx.now)

def loginWindowSecs : Nat := 60
def accountWindowSecs : Nat := 900

/-- Shared by both limiters, so that the wording never hints that the username is real. -/
def throttledLogin (retryAfterSecs : Nat) : Response :=
  .throttled retryAfterSecs (.login (some "too many login attempts — try again later"))

def loginSubmit (creds : Credentials) : StoreProg AppError Response := do
  if !ctx.loginLimiterOpen then return throttledLogin loginWindowSecs
  if !ctx.accountLimiterOpen then return throttledLogin accountWindowSecs
  let found ← store (.findUserByUsername creds.username)
  if !verifyPasswordOrDummy X creds.password (found.bind User.passwordHash) then
    return .page (.login (some "invalid username or password")) false (X.deriveCsrf sid)
  match found with
  | none => Prog.panic
  | some account =>
      if account.disabled then
        return .page (.login (some "account is disabled")) false (X.deriveCsrf sid)
      openSession ctx account.id false
      return .redirect "/"

/-- Worded once, so that the pre-check and the constraint cannot drift apart. -/
def usernameTaken (username : String) : String :=
  "A user named \"" ++ username ++ "\" already exists."

/-- Why the first account is refused before it is inserted. -/
def setupError (creds : Credentials) : Option String :=
  match validatePassword creds.password with
  | .error msg => some (if creds.username = "" then "username and password are required" else msg)
  | .ok _ => if creds.username = "" then some "username and password are required" else none

/-- The first account is an administrator. Of two visitors that both find no user, the constraint on the
username tells the loser. -/
def setupSubmit (creds : Credentials) : StoreProg AppError Response := do
  if (← store .countUsers) > 0 then return .redirect "/login"
  match setupError creds with
  | some error => return .page (.setup (some error)) false (X.deriveCsrf sid)
  | none =>
      let phc ← hashOrFail X ctx creds.password
      match ← attemptCall (.createUser creds.username (some phc) true ctx.now) with
      | .error .uniqueViolation =>
          return .page (.setup (some (usernameTaken creds.username))) false (X.deriveCsrf sid)
      | .error error => Prog.fail (.db error)
      | .ok uid =>
          openSession ctx uid false
          return .redirect "/"

/-- Behind a gateway without a logout address the next request signs the user in again, which the
flash says. -/
def logout : StoreProg AppError Response := do
  store (.deleteSession sid)
  match ctx.forwardAuthLogoutUrl with
  | some url => return .redirect url
  | none =>
      if ctx.gatewayUser.isSome then return .redirect "/" (some "forward_auth_logout")
      return .redirect "/login"

/-! ### The account page -/

/-- Re-demands the user's password; an account without one passes. -/
def reauthenticate (submitted : String) : Reauth :=
  match user.passwordHash with
  | none => .passed
  | some stored =>
      if !ctx.accountLimiterOpen then .throttled
      else if X.verifyPassword submitted stored then .passed
      else .failed

def sessionRows (sessions : List Session) : List SessionRow :=
  (sessions.map fun s =>
    { handle := X.hashApiKey s.id, createdAt := s.createdAt, lastSeenAt := s.lastSeenAt,
      expiresAt := s.expiresAt, userAgent := s.userAgent, ip := s.ip,
      current := X.hashApiKey s.id = X.hashApiKey sid, sso := s.sso : SessionRow }).mergeSort
    fun a b => a.current ∨ !b.current

def apiKeyRows (keys : List ApiKey) : List ApiKeyRow :=
  keys.map fun k =>
    ⟨k.id, k.name, k.keyPrefix, k.createdAt, k.lastUsedAt, k.expiresAt, k.expiresAt.any (· ≤ ctx.now)⟩

/-- Sessions past the cap are deleted first, so that what is not listed is gone. -/
def renderAccount (parts : AccountRender) : StoreProg AppError Response := do
  let _ ← store (.deleteCappedSessionsForUser user.id ctx.now)
  let sessions ← store (.listSessionsForUser user.id ctx.now)
  let keys ← store (.listApiKeysForUser user.id)
  renderPage X sid user
    (.account (sessionRows X sid sessions) user.passwordHash.isSome (apiKeyRows ctx keys) parts)

def accountPage : StoreProg AppError Response :=
  renderAccount X ctx sid user
    { passwordFlash := takeFlash ctx "password_changed"
        "Password changed. Any other signed-in sessions were signed out; API keys are unaffected." }

def passwordError (msg : String) : StoreProg AppError Response :=
  renderAccount X ctx sid user { passwordError := some msg }

/-- Delete the user's sessions but the request's own, and say how many went. -/
def revokeOtherSessions : StoreProg AppError Nat := store (.deleteOtherSessionsForUser user.id sid)

/-- Requires the current password; success revokes every other session. -/
def accountPassword (form : ChangePasswordForm) : StoreProg AppError Response :=
  if user.passwordHash.isNone then return .status 403 "this account has no local password"
  else
    match reauthenticate X ctx user form.currentPassword with
    | .failed => passwordError X ctx sid user "Current password is incorrect."
    | .throttled => passwordError X ctx sid user "Too many attempts — try again later."
    | .passed =>
        match validatePassword form.newPassword with
        | .error msg => passwordError X ctx sid user msg
        | .ok _ =>
            if form.newPassword ≠ form.confirmPassword then
              passwordError X ctx sid user "The new passwords do not match."
            else do
              let phc ← hashOrFail X ctx form.newPassword
              store (.setUserPassword user.id phc)
              let revoked ← revokeOtherSessions sid user
              let _ ← store (.recordAudit
                ⟨user.id, user.username, "user.password_change", some "user", some user.id, none, none, none,
                  some ("sessions_revoked=" ++ toString revoked)⟩ ctx.now)
              return .redirect "/account" (some "password_changed")

def keyError (msg : String) : StoreProg AppError Response :=
  renderAccount X ctx sid user { keyError := some msg }

/-- Blank is never; otherwise a positive duration from now. -/
def keyExpiry (raw : String) : Option (Checked (Option Instant)) :=
  if raw = "" then some (.ok none)
  else
    match parseDuration raw with
    | some secs =>
        if secs > 0 then some (do return some (← addDuration ctx.now (← durationSeconds secs))) else none
    | none => none

def apiKeysCreate (form : NewApiKeyForm) : StoreProg AppError Response :=
  match reauthenticate X ctx user form.currentPassword with
  | .failed => keyError X ctx sid user "Current password is incorrect."
  | .throttled => keyError X ctx sid user "Too many attempts — try again later."
  | .passed =>
      let name := trim form.name
      if name = "" then keyError X ctx sid user "a name is required"
      else
        match keyExpiry ctx (trim form.expiresIn) with
        | none => keyError X ctx sid user "expiry must be a duration like 30d, or blank for never"
        | some expiry => do
            let expiresAt ← Prog.orPanic expiry
            let _ ← store (.insertApiKey
              ⟨user.id, name, X.hashApiKey ctx.newToken.1, ctx.newToken.2, expiresAt⟩ ctx.now)
            renderAccount X ctx sid user { newToken := some ctx.newToken.1 }

def confirmRevokeApiKey : Confirm where
  title := "Revoke this API key?"
  message := "Anything using this key stops being able to reach the API immediately. The key cannot be recovered — a replacement is a new key with a new token."
  button := "Revoke key"

/-- Owner-scoped: a key the caller does not own is silently a no-op. -/
def apiKeysDelete (id : Int) (confirmed : Bool) : StoreProg AppError Response := do
  if !confirmed then
    confirmationPage X sid user confirmRevokeApiKey
      ("/account/api-keys/" ++ i64ToString id ++ "/delete") "/account"
  else
    let _ ← store (.deleteApiKey id user.id)
    return .redirect "/account"

def confirmRevokeSession : Confirm where
  title := "Revoke this session?"
  message := "The browser holding it is signed out at once. If it is the session you are using now, that includes this one."
  button := "Revoke session"

/-- Owner-scoped: the handle is looked up among the caller's own sessions. -/
def sessionsRevoke (handle : String) (confirmed : Bool) : StoreProg AppError Response := do
  let sessions ← store (.listSessionsForUser user.id ctx.now)
  match sessions.find? fun s => X.hashApiKey s.id = handle with
  | none => return .redirect "/account"
  | some target =>
      if !confirmed then
        confirmationPage X sid user confirmRevokeSession ("/account/sessions/" ++ handle ++ "/revoke")
          "/account"
      else
        let _ ← store (.deleteSessionOwned target.id user.id)
        if sid = target.id then return .redirect "/login"
        return .redirect "/account"

def confirmRevokeOtherSessions : Confirm where
  title := "Revoke every other session?"
  message := "Every other signed-in browser is signed out at once. Only this one stays. API keys are unaffected — they are separate credentials, revoked from the API keys card below."
  button := "Revoke the others"

def sessionsRevokeOthers (confirmed : Bool) : StoreProg AppError Response := do
  if !confirmed then
    confirmationPage X sid user confirmRevokeOtherSessions "/account/sessions/revoke-others" "/account"
  else
    let _ ← revokeOtherSessions sid user
    return .redirect "/account"

/-! ### User administration

The actor `user` is an administrator here. -/

def confirmDeleteUser : Confirm where
  title := "Delete this user?"
  message := "The account goes away along with everything it owns: its projects, their checks, and the whole ping history behind them. This cannot be undone. To cut off access while keeping the data, disable the account instead."
  button := "Delete user"

def confirmDemoteAdmin : Confirm where
  title := "Revoke this user's admin rights?"
  message := "They keep their account and their own projects, but lose access to /admin and to every other user's data."
  button := "Revoke admin rights"

def confirmDisableUser : Confirm where
  title := "Disable this user?"
  message := "They cannot sign in again until the account is re-enabled. Nothing they own is deleted, and their checks keep running and alerting."
  button := "Disable user"

def usersBlocked : Response := .redirect "/admin" (some "users_blocked")

def adminLocked : Response := .redirect "/admin/unlock" (some "admin_locked")

/-- An account without a password has nothing to re-assert. -/
def elevationAllows : Bool := user.passwordHash.isNone || ctx.elevated

/-- The audit row of a user-management action. -/
def auditUser (action : String) (target : Int) (detail : Option String) : StoreProg AppError Unit := do
  let _ ← store (.recordAudit
    ⟨user.id, user.username, action, some "user", some target, none, none, none, detail⟩ ctx.now)
  return ()

/-- Whether removing the target would be refused: it is an enabled admin and the count, read when it
is needed, says it is the last one. -/
def lastAdminGuard (target : User) : StoreProg AppError Bool := do
  if !target.isEnabledAdmin then return false
  let count ← store .countEnabledAdmins
  return count ≤ 1

def usersDelete (id : Int) (confirmed : Bool) : StoreProg AppError Response := do
  if id = user.id then return usersBlocked
  match ← store (.findUserById id) with
  | none => return .redirect "/admin"
  | some target =>
      if ← lastAdminGuard target then return usersBlocked
      if !confirmed then
        confirmationPage X sid user confirmDeleteUser ("/admin/users/" ++ i64ToString id ++ "/delete") "/admin"
      else
        store (.deleteUser id)
        auditUser ctx user "user.delete" id none
        return .redirect "/admin"

def usersToggleAdmin (id : Int) (confirmed : Bool) : StoreProg AppError Response := do
  if id = user.id then return usersBlocked
  match ← store (.findUserById id) with
  | none => return .redirect "/admin"
  | some target =>
      let newAdmin := !target.isAdmin
      if newAdmin ∧ !elevationAllows ctx user then return adminLocked
      if ← (if newAdmin then pure false else lastAdminGuard target) then return usersBlocked
      if !newAdmin ∧ !confirmed then
        confirmationPage X sid user confirmDemoteAdmin ("/admin/users/" ++ i64ToString id ++ "/admin") "/admin"
      else
        store (.setUserAdmin id newAdmin)
        auditUser ctx user "user.set_admin" id (some (if newAdmin then "promote" else "demote"))
        return .redirect "/admin"

def usersSetDisabled (id : Int) (confirmed : Bool) : StoreProg AppError Response := do
  if id = user.id then return usersBlocked
  match ← store (.findUserById id) with
  | none => return .redirect "/admin"
  | some target =>
      let newDisabled := !target.disabled
      if ← (if newDisabled then lastAdminGuard target else pure false) then return usersBlocked
      if newDisabled ∧ !confirmed then
        confirmationPage X sid user confirmDisableUser ("/admin/users/" ++ i64ToString id ++ "/disabled") "/admin"
      else
        store (.setUserDisabled id newDisabled)
        if newDisabled then
          let revoked ← store (.deleteSessionsForUser id)
          auditUser ctx user "user.set_disabled" id (some ("disable sessions_revoked=" ++ toString revoked))
        else
          auditUser ctx user "user.set_disabled" id (some "enable")
        return .redirect "/admin"

/-- A self-reset spares the session it is made from. -/
def usersSetPassword (id : Int) (password : String) : StoreProg AppError Response := do
  if !elevationAllows ctx user then return adminLocked
  match validatePassword password with
  | .error msg => renderPage X sid user (.admin (some msg))
  | .ok _ =>
      match ← store (.findUserById id) with
      | none => return .redirect "/admin"
      | some target =>
          let phc ← hashOrFail X ctx password
          store (.setUserPassword id phc)
          let revoked ← if id = user.id then revokeOtherSessions sid user else store (.deleteSessionsForUser id)
          auditUser ctx user "user.password_reset" id (some ("sessions_revoked=" ++ toString revoked))
          let keys ← store (.listApiKeysForUser id)
          let keyCount := keys.countP fun k => k.expiresAt.all (ctx.now < ·)
          if 0 < keyCount ∧ !target.disabled then
            return .redirect "/admin"
              (some ("password_reset_keys:" ++ toString revoked ++ ":" ++ toString keyCount))
          return .redirect "/admin"

end Handlers

end Pingward
