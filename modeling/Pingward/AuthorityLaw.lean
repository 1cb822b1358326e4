import Pingward.AuthorityStore
import Pingward.InterleaveBindings
import Pingward.ProgramRely
import Pingward.RowPing

/-! Nobody gets an administrator's rights without an administrator's credential, whatever requests and tasks run together
and however their calls interleave. -/

open KeyedTable StoreProgram

namespace Pingward

/-! ### Requests -/

section Access

variable (X : Crates)

/-- `POST /login` behind its layers, `opened` the id of the session it may open. -/
def loginPost (ctx : WebContext) (creds : Credentials) (opened : String) : StoreProg AppError Response := do
  let sid ← requestSession ctx
  if !ctx.csrfOk then return .status 403 ""
  loginSubmit X { ctx with freshSession := opened } sid creds

/-- `POST /setup` behind its layers. -/
def setupPost (ctx : WebContext) (creds : Credentials) (opened : String) : StoreProg AppError Response := do
  let sid ← requestSession ctx
  if !ctx.csrfOk then return .status 403 ""
  setupSubmit X { ctx with freshSession := opened } sid creds

/-- A request, or a pass of the scheduler. Under `/admin` the handler may be any. -/
inductive Access where
  | web (ctx : WebContext) (route : WebRoute)
  | admin (ctx : WebContext) (isPost : Bool) (handler : String → User → StoreProg AppError Response)
  | api (ctx : ApiContext) (route : ApiRoute)
  | login (ctx : WebContext) (creds : Credentials) (opened : String)
  | setup (ctx : WebContext) (creds : Credentials) (opened : String)
  | ping (request : PingRequest) (now : Instant)
  | scan (now : Instant) (baseUrl : String)
  | nag (now : Instant) (baseUrl : String)

def Access.program : Access → StoreProg Unit Unit
  | .web ctx route => (webRequest X ctx route).erase
  | .admin ctx isPost handler => (asAdmin ctx isPost handler).erase
  | .api ctx route => (apiRequest X ctx route).erase
  | .login ctx creds opened => (loginPost X ctx creds opened).erase
  | .setup ctx creds opened => (setupPost X ctx creds opened).erase
  | .ping request now => (apply X request now).erase
  | .scan now baseUrl => (scanPass X now baseUrl).erase
  | .nag now baseUrl => (nagPass now baseUrl).erase

/-- Neither the cookie nor the gateway's header is an enabled administrator's, and no id drawn for the request is the id of
a session of one. -/
structure WebContext.Uncredentialed (start : Db) (ctx : WebContext) : Prop where
  cookie : ∀ id, ctx.sessionId = some id → ¬ start.AdminSession id
  drawn : ¬ start.AdminSession ctx.anonymousSession ∧ ¬ start.AdminSession ctx.freshSession
  gateway : ∀ username, ctx.gatewayUser = some username →
    ∀ row ∈ start.users.rows, row.username = username → row.isEnabledAdmin = false

/-- The request carries no credential of an enabled administrator. A key of the API may be anybody's. -/
def Access.Uncredentialed (start : Db) : Access → Prop
  | .web ctx _ | .admin ctx _ _ | .setup ctx _ _ => WebContext.Uncredentialed start ctx
  | .login ctx creds _ => ctx.Uncredentialed start ∧ ∀ row ∈ start.users.rows, row.username = creds.username →
      row.isEnabledAdmin = true → verifyPasswordOrDummy X creds.password row.passwordHash = false
  | .api _ _ | .ping _ _ | .scan _ _ | .nag _ _ => True

end Access

/-! ### Who a request acts for -/

section Layers

variable {start : Db} {ctx : WebContext}

/-- Within bounds, as long as the database answers as it should. -/
abbrev Modest {A α : Type} (start : Db) (P : α → Prop) (program : StoreProg A α) : Prop :=
  program.Relying (Shown start) (StoreCall.Within start) P

theorem modest_attempt_bind {A β : Type} {Q : β → Prop} {c : StoreCall} {rest : Except StoreError c.Res → StoreProg A β}
    (hc : c.Within start) (hrest : ∀ answer, Shown start c answer → Modest start Q (rest answer)) :
    Modest start Q ((attemptCall c).bind rest) := ⟨hc, hrest⟩

theorem modest_store_bind {β : Type} {Q : β → Prop} {c : StoreCall} {rest : c.Res → StoreProg AppError β}
    (hc : c.Within start) (hrest : ∀ value, Shown start c (.ok value) → Modest start Q (rest value)) :
    Modest start Q ((store c).bind rest) := (Prog.Relying.perform hc).bind hrest

theorem modest_of_only {A α : Type} {program : StoreProg A α}
    (honly : program.Only (StoreCall.Within start) fun _ => True) : Modest start (fun _ => True) program := .of_only honly

theorem forwardAuthUser_modest (hctx : ctx.Uncredentialed start) :
    Modest start (fun found => ∀ user, found = some user → Ordinary start user) (forwardAuthUser ctx) := by
  unfold forwardAuthUser
  cases hgateway : ctx.gatewayUser with
  | none => exact fun _ hnone => by cases hnone
  | some username =>
      refine modest_attempt_bind trivial fun answer hanswer => ?_
      cases answer with
      | error error => exact fun _ hnone => by cases hnone
      | ok found =>
          cases found with
          | some user =>
              obtain ⟨hname, hknown⟩ : user.username = username ∧ Known start user := hanswer
              intro other hother
              cases hdisabled : user.disabled with
              | true => simp [hdisabled] at hother
              | false =>
                  obtain rfl : user = other := by simpa [hdisabled] using hother
                  refine hknown.ordinary_of_enabled hdisabled (Bool.eq_false_iff.mpr fun hadmin => ?_)
                  have hold := hknown.mem (Bool.and_eq_true_iff.mp hadmin).1
                  rw [hctx.gateway username hgateway user hold hname] at hadmin
                  cases hadmin
          | none =>
              refine modest_attempt_bind rfl fun created hcreated => ?_
              cases created with
              | error error => exact fun _ hnone => by cases hnone
              | ok id =>
                  refine modest_attempt_bind trivial fun again hagain user huser => ?_
                  cases again with
                  | error error => cases huser
                  | ok row =>
                      obtain rfl : row = some user := huser
                      obtain ⟨hid, hknown⟩ : user.id = id ∧ Known start user := hagain
                      have hlow : start.users.next ≤ id := hcreated
                      refine hknown.ordinary (Bool.eq_false_iff.mpr fun hadmin => ?_)
                      have hbelow := start.users.below user (hknown.mem hadmin)
                      omega

theorem sessionLive_within (ctx : WebContext) :
    (sessionLive ctx).Only (StoreCall.Within start) fun _ => True := by
  unfold sessionLive
  split
  · trivial
  · exact (attemptCall_only trivial).bind fun _ => trivial

theorem requestSession_modest (hctx : ctx.Uncredentialed start) :
    Modest start (fun sid => ¬ start.AdminSession sid) (requestSession ctx) := by
  have hcookie : ¬ start.AdminSession (ctx.sessionId.getD ctx.anonymousSession) := by
    cases hid : ctx.sessionId with
    | none => exact hctx.drawn.1
    | some id => exact hctx.cookie id hid
  unfold requestSession
  split
  · exact hcookie
  · apply (modest_of_only (sessionLive_within ctx)).bind
    intro live _
    split
    · exact hcookie
    · apply (forwardAuthUser_modest hctx).bind
      intro found hfound
      cases found with
      | none => exact hcookie
      | some user =>
          refine modest_attempt_bind (hfound user rfl).not_isAdmin fun answer _ => ?_
          cases answer with
          | error error => exact hcookie
          | ok value => exact hctx.drawn.2

/-- Whoever the layers find is ordinary. -/
theorem resolveUser_modest (hctx : ctx.Uncredentialed start) {sid : String} (hsid : ¬ start.AdminSession sid) :
    Modest start (fun found => ∀ user, found = some user → Ordinary start user) (resolveUser ctx sid) := by
  refine modest_attempt_bind trivial fun answer hanswer => ?_
  cases answer with
  | error error => exact forwardAuthUser_modest hctx
  | ok found =>
      cases found with
      | none => exact forwardAuthUser_modest hctx
      | some user =>
          obtain ⟨hknown, hadmin⟩ : Known start user ∧ (user.isEnabledAdmin = true → start.AdminSession sid) := hanswer
          cases hdisabled : user.disabled with
          | true =>
              simp only [Except.toOption, Option.join_some, hdisabled]
              exact forwardAuthUser_modest hctx
          | false =>
              simp only [Except.toOption, Option.join_some, hdisabled]
              intro other hother
              obtain rfl : user = other := Option.some.inj hother
              exact hknown.ordinary_of_enabled hdisabled (Bool.eq_false_iff.mpr fun h => hsid (hadmin h))

end Layers

/-! ### Handlers -/

section Handlers

variable (X : Crates) (ctx : WebContext) (sid : String) {start : Db}

theorem store_within {c : StoreCall} (hc : c.Within start) :
    (store c).Only (StoreCall.Within start) fun _ => True := store_only hc

theorem store_within_bind {c : StoreCall} {β : Type} {rest : c.Res → StoreProg AppError β} (hc : c.Within start)
    (hrest : ∀ value, (rest value).Only (StoreCall.Within start) fun _ => True) :
    ((store c).bind rest).Only (StoreCall.Within start) fun _ => True := (store_within hc).bind hrest

theorem ownedProject_bind_within {id userId : Int} {rest : Project → StoreProg AppError Response}
    (hrest : ∀ project, (rest project).Only (StoreCall.Within start) fun _ => True) :
    ((ownedProject id userId).bind rest).Only (StoreCall.Within start) fun _ => True :=
  (ownedProject_reads id userId).within.bind hrest

theorem ownedCheck_bind_within {id userId : Int} {rest : Check → StoreProg AppError Response}
    (hrest : ∀ check, (rest check).Only (StoreCall.Within start) fun _ => True) :
    ((ownedCheck id userId).bind rest).Only (StoreCall.Within start) fun _ => True :=
  (ownedCheck_reads id userId).within.bind hrest

theorem ownedChannel_bind_within {id userId : Int} {rest : Channel → StoreProg AppError Response}
    (hrest : ∀ channel, (rest channel).Only (StoreCall.Within start) fun _ => True) :
    ((ownedChannel id userId).bind rest).Only (StoreCall.Within start) fun _ => True :=
  (ownedChannel_reads id userId).within.bind hrest

theorem bindChannels_within (order : SetOrder) (check : Check) (channelIds : List Int) :
    (bindChannels order check channelIds).Only (StoreCall.Within start) fun _ => True :=
  store_within_bind trivial fun _ => store_within_bind trivial fun _ =>
    Prog.Only.bind (forEach_only fun _ _ => store_within trivial) fun _ => forEach_only fun _ _ => store_within trivial

theorem renderAccount_within (user : User) (parts : AccountRender) :
    (renderAccount X ctx sid user parts).Only (StoreCall.Within start) fun _ => True :=
  store_within_bind trivial fun _ => store_within_bind trivial fun _ => store_within_bind trivial fun _ => trivial

/-- The one change of an account: its own password. -/
theorem accountPassword_within {user : User} (hordinary : Ordinary start user) (form : ChangePasswordForm) :
    (accountPassword X ctx sid user form).Only (StoreCall.Within start) fun _ => True := by
  unfold accountPassword
  split
  · trivial
  · split
    · exact renderAccount_within X ctx sid user _
    · exact renderAccount_within X ctx sid user _
    · split
      · exact renderAccount_within X ctx sid user _
      · split
        · exact renderAccount_within X ctx sid user _
        · refine Prog.Only.bind ?_ fun phc => store_within_bind hordinary.2 fun _ =>
            store_within_bind trivial fun _ => store_within_bind trivial fun _ => trivial
          unfold hashOrFail
          split <;> trivial

theorem apiKeysCreate_within (user : User) (form : NewApiKeyForm) :
    (apiKeysCreate X ctx sid user form).Only (StoreCall.Within start) fun _ => True := by
  unfold apiKeysCreate
  split
  · exact renderAccount_within X ctx sid user _
  · exact renderAccount_within X ctx sid user _
  · dsimp only
    split
    · exact renderAccount_within X ctx sid user _
    · split
      · exact renderAccount_within X ctx sid user _
      · exact (Prog.Only.orPanic _).bind fun _ => store_within_bind trivial fun _ => renderAccount_within X ctx sid user _

theorem sessionsRevoke_within (user : User) (handle : String) (confirmed : Bool) :
    (sessionsRevoke X ctx sid user handle confirmed).Only (StoreCall.Within start) fun _ => True := by
  refine store_within_bind trivial fun sessions => ?_
  split
  · trivial
  · split
    · trivial
    · refine store_within_bind trivial fun _ => ?_
      split <;> trivial

theorem logout_within : (logout ctx sid).Only (StoreCall.Within start) fun _ => True := by
  refine store_within_bind trivial fun _ => ?_
  split
  · trivial
  · split <;> trivial

/-- A handler behind a confirmation: nothing, or one call. -/
theorem confirmed_within {c : StoreCall} {asked : Prop} [Decidable asked] {page : StoreProg AppError Response}
    {rest : c.Res → StoreProg AppError Response} (hpage : page.Only (StoreCall.Within start) fun _ => True)
    (hc : c.Within start) (hrest : ∀ value, (rest value).Only (StoreCall.Within start) fun _ => True) :
    (if asked then page else (store c).bind rest).Only (StoreCall.Within start) fun _ => True := by
  split
  · exact hpage
  · exact store_within_bind hc hrest

/-- A handler of an ordinary user stays within bounds. -/
theorem webHandle_within {user : User} (hordinary : Ordinary start user) (route : WebRoute) :
    (webHandle X ctx sid user route).Only (StoreCall.Within start) fun _ => True := by
  cases route with
  | dashboard query => exact (dashboard_reads X ctx sid user query).within
  | logout => exact logout_within ctx sid
  | projectNew => trivial
  | projectCreate form =>
      show (projectCreate X ctx sid user form).Only _ _
      unfold projectCreate
      split
      · trivial
      · exact store_within_bind trivial fun _ => trivial
  | projectShow id => exact ownedProject_bind_within fun _ => (renderProjectPage_reads X ctx sid user _ _).within
  | projectEdit id => exact ownedProject_bind_within fun _ => trivial
  | projectUpdate id form =>
      refine ownedProject_bind_within fun _ => ?_
      split
      · trivial
      · exact store_within_bind trivial fun _ => trivial
  | projectDelete id confirmed => exact ownedProject_bind_within fun _ => confirmed_within trivial trivial fun _ => trivial
  | checkNew projectId => exact ownedProject_bind_within fun _ => trivial
  | checkCreate projectId form =>
      refine ownedProject_bind_within fun _ => ?_
      unfold checkCreateCore
      split
      · trivial
      · exact store_within_bind trivial fun _ => store_within_bind trivial fun _ => trivial
  | checkShow id query => exact ownedCheck_bind_within fun _ => (renderCheckPage_reads X ctx sid user _ _ _ _).within
  | checkPings id query => exact (checkPings_reads X ctx sid user id query).within
  | checkEvents id => exact ownedCheck_bind_within fun _ => trivial
  | checkNotifications id query => exact (checkNotifications_reads X ctx sid user id query).within
  | checkEdit id => exact ownedCheck_bind_within fun _ => trivial
  | checkUpdate id form =>
      refine ownedCheck_bind_within fun _ => ?_
      unfold checkUpdateCore
      split
      · trivial
      · exact store_within_bind trivial fun _ => trivial
  | checkPause id => exact ownedCheck_bind_within fun _ => store_within_bind trivial fun _ => trivial
  | checkResume id => exact ownedCheck_bind_within fun _ => store_within_bind trivial fun _ => trivial
  | checkAck id => exact ownedCheck_bind_within fun _ => store_within_bind trivial fun _ => trivial
  | checkRegenerate id confirmed => exact ownedCheck_bind_within fun _ => confirmed_within trivial trivial fun _ => trivial
  | checkDelete id confirmed => exact ownedCheck_bind_within fun _ => confirmed_within trivial trivial fun _ => trivial
  | checkSetChannels id channelIds =>
      exact ownedCheck_bind_within fun check => (bindChannels_within ctx.setOrder check channelIds).bind fun _ => trivial
  | channelNew projectId => exact ownedProject_bind_within fun _ => trivial
  | channelCreate projectId form =>
      refine ownedProject_bind_within fun _ => ?_
      unfold channelCreateCore
      split
      · trivial
      · exact store_within_bind trivial fun _ => trivial
  | channelEdit id => exact ownedChannel_bind_within fun _ => trivial
  | channelUpdate id form =>
      refine ownedChannel_bind_within fun _ => ?_
      unfold channelUpdateCore
      split
      · trivial
      · exact store_within_bind trivial fun _ => trivial
  | channelDelete id => exact ownedChannel_bind_within fun _ => store_within_bind trivial fun _ => trivial
  | channelTest id => exact (channelTest_reads X ctx sid user id).within
  | accountPage => exact renderAccount_within X ctx sid user _
  | accountPassword form => exact accountPassword_within X ctx sid hordinary form
  | apiKeysCreate form => exact apiKeysCreate_within X ctx sid user form
  | apiKeysDelete id confirmed => exact confirmed_within trivial trivial fun _ => trivial
  | sessionsRevoke handle confirmed => exact sessionsRevoke_within X ctx sid user handle confirmed
  | sessionsRevokeOthers confirmed => exact confirmed_within trivial trivial fun _ => trivial

end Handlers

/-! ### `/api/v1` -/

section Api

variable (X : Crates) (ctx : ApiContext) (user : User) {start : Db} {α β : Type}

/-- A call of the API that is within bounds whoever makes it. -/
theorem apiStore_within_bind {c : StoreCall} {rest : c.Res → StoreProg ApiError β} (hc : c.Within start)
    (hrest : ∀ value, (rest value).Only (StoreCall.Within start) fun _ => True) :
    ((apiStore c).bind rest).Only (StoreCall.Within start) fun _ => True := (apiStore_only hc).bind hrest

theorem input_within {input : Except String α} {rest : α → StoreProg ApiError β}
    (hrest : ∀ value, (rest value).Only (StoreCall.Within start) fun _ => True) :
    ((orBadRequest input).bind rest).Only (StoreCall.Within start) fun _ => True := (orBadRequest_only input).bind hrest

theorem found_within {error : ApiError} {row : Option α} {rest : α → StoreProg ApiError β}
    (hrest : ∀ value, (rest value).Only (StoreCall.Within start) fun _ => True) :
    ((okOr error row).bind rest).Only (StoreCall.Within start) fun _ => True := (okOr_only error row).bind hrest

theorem resolveProject_within {method : String} {id : Int} {rest : Project → StoreProg ApiError β}
    (hrest : ∀ project, (rest project).Only (StoreCall.Within start) fun _ => True) :
    ((resolveProject ctx user method id).bind rest).Only (StoreCall.Within start) fun _ => True :=
  Prog.Only.bind (resolveProject_only user method trivial fun _ => trivial) hrest

theorem resolveCheck_within {method : String} {id : Int} {rest : Check → StoreProg ApiError β}
    (hrest : ∀ check, (rest check).Only (StoreCall.Within start) fun _ => True) :
    ((resolveCheck ctx user method id).bind rest).Only (StoreCall.Within start) fun _ => True :=
  Prog.Only.bind (apiStore_within_bind trivial fun _ => found_within fun _ => apiStore_within_bind trivial fun _ =>
    resolveOwned_only user _ _ _ _ _ fun _ => trivial) hrest

theorem resolveChannel_within {method : String} {id : Int} {rest : Channel → StoreProg ApiError β}
    (hrest : ∀ channel, (rest channel).Only (StoreCall.Within start) fun _ => True) :
    ((resolveChannel ctx user method id).bind rest).Only (StoreCall.Within start) fun _ => True :=
  Prog.Only.bind (apiStore_within_bind trivial fun _ => found_within fun _ => apiStore_within_bind trivial fun _ =>
    resolveOwned_only user _ _ _ _ _ fun _ => trivial) hrest

theorem apiCheckAction_within {id : Int} {action : StoreProg ApiError Unit}
    (haction : action.Only (StoreCall.Within start) fun _ => True) :
    (V1.apiCheckAction ctx user id action).Only (StoreCall.Within start) fun _ => True :=
  resolveCheck_within ctx user fun _ => haction.bind fun _ => apiStore_within_bind trivial fun _ =>
    found_within fun _ => trivial

theorem setCheckChannels_within (id : Int) (channelIds : List Int) :
    (V1.setCheckChannels ctx user id channelIds).Only (StoreCall.Within start) fun _ => True := by
  refine resolveCheck_within ctx user fun check => apiStore_within_bind trivial fun channels =>
    apiStore_within_bind trivial fun current => ?_
  refine Prog.Only.bind (forEach_only fun _ _ => apiStore_only trivial) fun _ => ?_
  refine Prog.Only.bind (forEach_only fun _ _ => apiStore_only trivial) fun _ => ?_
  exact apiStore_within_bind trivial fun _ => trivial

theorem updateChannel_within (id : Int) (form : ChannelForm) :
    (V1.updateChannel X ctx user id form).Only (StoreCall.Within start) fun _ => True := by
  refine resolveChannel_within ctx user fun existing => input_within fun parts => ?_
  exact apiStore_within_bind trivial fun _ => apiStore_within_bind trivial fun _ => found_within fun _ => trivial

/-- The API has no call on an account. -/
theorem apiHandle_within (route : ApiRoute) :
    (apiHandle X ctx user route).Only (StoreCall.Within start) fun _ => True := by
  cases route with
  | listProjects => exact apiStore_within_bind trivial fun _ => trivial
  | createProject body =>
      exact input_within fun _ => input_within fun _ => apiStore_within_bind trivial fun _ =>
        apiStore_within_bind trivial fun _ => found_within fun _ => trivial
  | getProject id => exact resolveProject_within ctx user fun _ => trivial
  | updateProject id body =>
      exact input_within fun _ => resolveProject_within ctx user fun _ => input_within fun _ =>
        apiStore_within_bind trivial fun _ => apiStore_within_bind trivial fun _ => found_within fun _ => trivial
  | deleteProject id => exact resolveProject_within ctx user fun _ => apiStore_within_bind trivial fun _ => trivial
  | listProjectChecks id => exact resolveProject_within ctx user fun _ => apiStore_within_bind trivial fun _ => trivial
  | createCheck projectId body =>
      exact input_within fun _ => resolveProject_within ctx user fun _ => input_within fun _ =>
        apiStore_within_bind trivial fun _ => apiStore_within_bind trivial fun _ => apiStore_within_bind trivial fun _ =>
          found_within fun _ => trivial
  | listProjectChannels id => exact resolveProject_within ctx user fun _ => apiStore_within_bind trivial fun _ => trivial
  | createChannel projectId body =>
      exact input_within fun _ => resolveProject_within ctx user fun _ => input_within fun _ =>
        apiStore_within_bind trivial fun _ => apiStore_within_bind trivial fun _ => found_within fun _ => trivial
  | getCheck id => exact resolveCheck_within ctx user fun _ => trivial
  | updateCheck id body =>
      exact input_within fun _ => resolveCheck_within ctx user fun _ => input_within fun _ =>
        apiStore_within_bind trivial fun _ => apiStore_within_bind trivial fun _ => found_within fun _ => trivial
  | deleteCheck id => exact resolveCheck_within ctx user fun _ => apiStore_within_bind trivial fun _ => trivial
  | listCheckPings id params => exact resolveCheck_within ctx user fun _ => apiStore_within_bind trivial fun _ => trivial
  | listCheckNotifications id params =>
      exact resolveCheck_within ctx user fun _ => apiStore_within_bind trivial fun _ => trivial
  | pauseCheck id => exact apiCheckAction_within ctx user (apiStore_only trivial)
  | resumeCheck id => exact apiCheckAction_within ctx user (apiStore_only trivial)
  | ackCheck id => exact apiCheckAction_within ctx user (apiStore_only trivial)
  | regenerateCheck id => exact apiCheckAction_within ctx user (apiStore_only trivial)
  | setCheckChannels id body => exact input_within fun channelIds => setCheckChannels_within ctx user id channelIds
  | getChannel id => exact resolveChannel_within ctx user fun _ => trivial
  | updateChannel id body => exact input_within fun form => updateChannel_within X ctx user id form
  | deleteChannel id => exact resolveChannel_within ctx user fun _ => apiStore_within_bind trivial fun _ => trivial
  | listKeys => exact apiStore_within_bind trivial fun _ => trivial

end Api

/-! ### Whole requests -/

section Requests

variable (X : Crates) {start : Db} {ctx : WebContext}

theorem webRequest_modest (hctx : ctx.Uncredentialed start) (route : WebRoute) :
    Modest start (fun _ => True) (webRequest X ctx route) := by
  apply (requestSession_modest hctx).bind
  intro sid hsid
  split
  · trivial
  · split
    · exact modest_of_only (logout_within ctx sid)
    · apply (resolveUser_modest hctx hsid).bind
      intro found hfound
      split
      · exact modest_of_only (webHandle_within X ctx sid (hfound _ rfl) _)
      · split
        · exact modest_store_bind trivial fun _ _ => trivial
        · trivial

/-- Nobody the layers find passes the check of the extractor. -/
theorem asAdmin_modest (hctx : ctx.Uncredentialed start) (isPost : Bool)
    (handler : String → User → StoreProg AppError Response) :
    Modest start (fun _ => True) (asAdmin ctx isPost handler) := by
  apply (requestSession_modest hctx).bind
  intro sid hsid
  split
  · trivial
  · apply (resolveUser_modest hctx hsid).bind
    intro found hfound
    cases found with
    | none => trivial
    | some user =>
        have hordinary := (hfound user rfl).1
        simp only [hordinary]
        trivial

theorem loginPost_modest (hctx : ctx.Uncredentialed start) {creds : Credentials} (opened : String)
    (hcreds : ∀ row ∈ start.users.rows, row.username = creds.username → row.isEnabledAdmin = true →
      verifyPasswordOrDummy X creds.password row.passwordHash = false) :
    Modest start (fun _ => True) (loginPost X ctx creds opened) := by
  apply (requestSession_modest hctx).bind
  intro sid _
  split
  · trivial
  unfold loginSubmit
  split
  · trivial
  split
  · trivial
  refine modest_store_bind trivial fun found hfound => ?_
  split
  · trivial
  rename_i hverified
  cases found with
  | none => trivial
  | some account =>
      obtain ⟨hname, hknown⟩ : account.username = creds.username ∧ Known start account := hfound
      cases hdisabled : account.disabled with
      | true =>
          simp only [hdisabled]
          trivial
      | false =>
          simp only [hdisabled]
          have hordinary : Ordinary start account := by
            refine hknown.ordinary_of_enabled hdisabled (Bool.eq_false_iff.mpr fun hadmin => hverified ?_)
            have hold := hknown.mem (Bool.and_eq_true_iff.mp hadmin).1
            simpa using hcreds account hold hname hadmin
          exact modest_store_bind hordinary.not_isAdmin fun _ _ => trivial

/-- Once there is a user, the setup is over. -/
theorem setupPost_modest (hctx : ctx.Uncredentialed start) (hsome : start.users.rows ≠ []) (creds : Credentials)
    (opened : String) : Modest start (fun _ => True) (setupPost X ctx creds opened) := by
  apply (requestSession_modest hctx).bind
  intro sid _
  split
  · trivial
  refine modest_store_bind trivial fun count hcount => ?_
  have hpos : count > 0 := hcount hsome
  simp only [hpos, if_true]
  trivial

theorem Access.modest (hsome : start.users.rows ≠ []) {access : Access} (haccess : access.Uncredentialed X start) :
    Modest start (fun _ => True) (access.program X) := by
  cases access with
  | web ctx route => exact (webRequest_modest X haccess route).erase
  | admin ctx isPost handler => exact (asAdmin_modest haccess isPost handler).erase
  | api ctx route =>
      refine (modest_of_only ?_).erase
      exact Prog.Only.bind (apiUser_only X (fun _ => trivial) fun _ => trivial) fun user => apiHandle_within X ctx user route
  | login ctx creds opened => exact (loginPost_modest X haccess.1 opened haccess.2).erase
  | setup ctx creds opened => exact (setupPost_modest X haccess hsome creds opened).erase
  | ping request now =>
      exact (modest_of_only (apply_only X request now trivial (fun _ => trivial) (fun _ _ _ => trivial) (fun _ => trivial)
        fun _ => trivial)).erase
  | scan now baseUrl =>
      exact (modest_of_only (scanPass_only X now baseUrl trivial trivial trivial (fun _ => trivial) fun _ => trivial)).erase
  | nag now baseUrl =>
      exact (modest_of_only (nagPass_only now baseUrl trivial trivial trivial trivial trivial fun _ => trivial)).erase

end Requests

/-! ### The law -/

section Law

variable {ι : Type} [DecidableEq ι] {X : Crates}
  {allowed : Config ι StoreCall StoreCall.Res StoreError Spawned Unit Unit Db → ι → Prop}

/-- **Nobody makes himself an administrator.** In every interleaving of requests without an administrator's credential
with the passes of the scheduler, the accounts stay what they were but for passwords and new members of ordinary ones, and
nobody is signed in as an administrator. -/
theorem authority_kept {start : Db} (hsome : start.users.rows ≠ []) {accesses : ι → Access}
    (hnone : ∀ i, (accesses i).Uncredentialed X start)
    {cfg : Config ι StoreCall StoreCall.Res StoreError Spawned Unit Unit Db}
    (hreach : Reach exec allowed (Config.init (fun i => (accesses i).program X) start) cfg) :
    AccountsKept start cfg.state ∧ SessionsKept start cfg.state := by
  have hkept : AuthorityKept start cfg.state := by
    refine Reach.relying (I := AuthorityKept start) (P := fun _ _ => True) ?_ ?_
      (fun i => Access.modest X hsome (hnone i)) (.refl start) hreach
    · exact fun c _ hkept => shown_exec c hkept
    · exact fun _ _ hwithin hkept => exec_authorityKept hwithin hkept
  exact ⟨hkept.accounts, hkept.sessions⟩

end Law

/-- An administrator has joined, and is signed in. -/
def Db.ruled : Db :=
  [StoreCall.createUser "root" (some "salt$a long password") true 0,
    .createSession ⟨"s9", 2, 1000 * nanosPerSec, none, none, false⟩ 0].foldl (fun db c => (exec c db).2) .sample

/-- A member asks to be an administrator, while somebody guesses the administrator's password. -/
def climbers (climbs : Bool) : Access :=
  if climbs then .admin .sample true fun sid user => adminHandle plainCrates .sample sid user (.usersToggleAdmin 1 true)
  else .login .sample ⟨"root", "a long guess"⟩ "s4"

theorem authority_kept_climbers :
    ∃ cfg, Reach exec (fun _ _ => True) (Config.init (fun i => (climbers i).program plainCrates) Db.ruled) cfg ∧
      (∀ i, cfg.isFinished i = true) ∧ AccountsKept Db.ruled cfg.state ∧ SessionsKept Db.ruled cfg.state := by
  have hsample : WebContext.sample.Uncredentialed Db.ruled := by
    have honly : ∀ session ∈ Db.ruled.sessions.rows,
        (∃ row ∈ Db.ruled.users.rows, row.id = session.userId ∧ row.isEnabledAdmin = true) → session.id = "s9" := by
      decide +kernel
    have hnone : ∀ id, id ≠ "s9" → ¬ Db.ruled.AdminSession id := by
      rintro id hid ⟨session, hsession, rfl, hadmin⟩
      exact hid (honly session hsession hadmin)
    exact ⟨fun id hcookie => hnone id (by cases hcookie; decide), ⟨hnone _ (by decide), hnone _ (by decide)⟩,
      fun username hgateway => by cases hgateway⟩
  have hall (i : Bool) : (climbers i).Uncredentialed plainCrates Db.ruled := by
    cases i with
    | true => exact hsample
    | false => exact ⟨hsample, by decide +kernel⟩
  obtain ⟨cfg, hreach, hfinal⟩ := exists_reach exec (fun _ _ _ => trivial : ∀ _ _, true = true → True) [true, false]
    (show ((Config.init (fun i => (climbers i).program plainCrates) Db.ruled).advanceWhen exec (fun _ _ => true)
      [true, false]).any (fun cfg => cfg.isFinished true && cfg.isFinished false) = true by decide +kernel)
  obtain ⟨htrue, hfalse⟩ := Bool.and_eq_true_iff.mp hfinal
  refine ⟨cfg, hreach, fun i => ?_, authority_kept (by decide +kernel) hall hreach⟩
  cases i with
  | true => exact htrue
  | false => exact hfalse

end Pingward
