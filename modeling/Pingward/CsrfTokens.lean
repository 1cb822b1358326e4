import Pingward.CsrfLayers
import Pingward.RowOperation

/-! The synchronizer token over two requests. A page's token is accepted from the browser it was sent to, unless the
gateway's layer opens a session for the later request; then it is refused. -/

open StoreProgram

namespace Pingward

section Visits

variable {S : Type} (exec : (c : StoreCall) → S → Except StoreError c.Res × S) (C : CookieCrates) (config : CookieConfig)

/-- The handler runs, whatever it is, and its reply is sent. -/
def Passes (ctx : WebContext) (req : HttpRequest) (db : S) : Prop :=
  ∃ handed between cookies, ∀ handler, run exec (app C config ctx handler req) db =
    run exec ((handled C config handler handed).bind fun reply => .ret (reply.withCookies cookies)) between

/-- The guard refuses the request, whatever the handler is. -/
def Refused (ctx : WebContext) (req : HttpRequest) (db : S) : Prop :=
  ∃ reason setCookies, ∀ handler, (run exec (app C config ctx handler req) db).outcome = .ok ⟨.error reason, setCookies⟩

/-- The later request submits the token, with the session cookie the browser has after the reply. -/
structure Resubmits (req : HttpRequest) (reply : WebReply) (token : String) (later : HttpRequest) : Prop where
  canonical : CanonicalCookies C later.cookies
  method : later.method.isSafe = false
  token : submittedToken later = some token
  cookie : cookieJar C later.cookies config.sessionName =
    browserCookie config.sessionName (cookieJar C req.cookies config.sessionName) reply.setCookies

variable {exec C config} {ctx : WebContext} {req : HttpRequest}

/-- The layers alone give the handlers of the model the session they run under. -/
theorem requestSession_eq (hown : ctx.sessionId = requestSessionId C config req) :
    requestSession ctx = (forwardAuthCookie C config ctx req).bind fun opened =>
      .ret (passedSession C config ctx req opened) := by
  unfold requestSession forwardAuthCookie
  simp only [passedSession, ← hown]
  by_cases hforward : ctx.forwardAuth = true
  · simp only [hforward, Bool.not_true, Bool.false_eq_true, if_false, Prog.bind_eq, Prog.bind_assoc]
    refine congrArg (Prog.bind _) (funext fun live => ?_)
    cases live with
    | true => rfl
    | false =>
        simp only [Bool.false_eq_true, if_false, Prog.bind_assoc]
        refine congrArg (Prog.bind _) (funext fun found => ?_)
        cases found with
        | none => rfl
        | some user =>
            refine congrArg (Prog.call _) (funext fun answer => ?_)
            cases answer <;> rfl
  · simp only [Bool.not_eq_true] at hforward
    simp only [hforward, Bool.not_false, if_true]
    rfl

/-- What a run of the layers comes to: a session is opened or not, and the guard goes by what it is given. -/
theorem run_app (exec : (c : StoreCall) → S → Except StoreError c.Res × S) (C : CookieCrates) (config : CookieConfig)
    (ctx : WebContext) (req : HttpRequest) (db : S) : ∃ opened between,
    run exec (forwardAuthCookie C config ctx req) db = ⟨.ok opened, between, []⟩ ∧
      (opened = none ∨ opened = some (signedCookie C config ctx.freshSession)) ∧
      ∀ handler, run exec (app C config ctx handler req) db =
        run exec ((csrfGuard C config (handled C config handler) (seenRequest C config ctx req opened)).bind fun reply =>
          .ret (reply.withCookies (sentCookies C config ctx req opened))) between := by
  obtain ⟨opened, between, hrun, hopened⟩ := (forwardAuthCookie_returns C config ctx req).run exec db
  refine ⟨opened, between, hrun, hopened, fun handler => ?_⟩
  rw [app_eq, run_bind_of_ok exec (by rw [hrun]), hrun]
  rfl

/-- A reply with a token rendered in it: a handler's page, with the token of the session the handler was given. -/
theorem rendered {db : S} {handler : HttpRequest → StoreProg AppError (HandlerReply config)} {sid token : String}
    {seen : HttpRequest} {cookies : List Cookie} {reply : WebReply} (hsid : requestSessionId C config seen = some sid)
    (hrun : (run exec ((csrfGuard C config (handled C config handler) seen).bind fun reply =>
      .ret (reply.withCookies cookies)) db).outcome = .ok reply) (htoken : reply.outcome = .ok (some token)) :
    token = deriveCsrf C.hmac config.secret sid ∧
      ∃ own, reply.setCookies = own ++ cookies ∧ ∀ cookie ∈ own, cookie.name ≠ config.sessionName := by
  obtain ⟨first, hfirst, hreply⟩ := run_bind_eq_ok exec hrun
  rw [run_ret, Outcome.ok.injEq] at hreply
  subst hreply
  unfold csrfGuard at hfirst
  cases hverdict : csrfVerdict C config seen with
  | error reason =>
      rw [hverdict] at hfirst
      cases hfirst
      cases htoken
  | ok handed =>
      rw [hverdict] at hfirst
      obtain ⟨answer, -, hanswer⟩ := run_bind_eq_ok exec hfirst
      rw [Prog.pure_eq, run_ret, Outcome.ok.injEq] at hanswer
      subst hanswer
      simp only [WebReply.withCookies, Except.ok.injEq] at htoken
      split at htoken
      · rename_i hpage
        cases htoken
        refine ⟨?_, _, rfl, answer.page_keeps hpage⟩
        rw [currentCsrf, (csrfVerdict_ok hsid hverdict).1]
      · cases htoken

theorem passes_of_session (hC : C.Documented) {later : HttpRequest} {sid token : String} {db : S}
    (hids : ctx.UuidIds) (hcanonical : CanonicalCookies C later.cookies) (htoken : submittedToken later = some token)
    (hsid : requestSessionId C config later = some sid) (hverify : verifyCsrf C.hmac config.secret sid token = true)
    (hkept : (run exec (forwardAuthCookie C config ctx later) db).outcome = .ok none) :
    Passes exec C config ctx later db := by
  obtain ⟨opened, between, hrun, hopened, happ⟩ := run_app exec C config ctx later db
  rw [hrun, Outcome.ok.injEq] at hkept
  subst hkept
  have hseen := (passage hC hids hcanonical hopened).1
  rw [passedSession, hsid, Option.getD_some] at hseen
  obtain ⟨handed, hverdict⟩ := (csrfVerdict_of_token hseen
    ((seenRequest_same C config ctx later none).2.trans htoken)).1 hverify
  refine ⟨handed, between, sentCookies C config ctx later none, fun handler => ?_⟩
  rw [happ, csrfGuard, hverdict]

/-- A token of another session is refused once a session is opened. -/
theorem refused_of_opened (hC : C.Documented) {later : HttpRequest} {sid : String} {db : S}
    (hinjective : Function.Injective (C.hmac config.secret)) (hids : ctx.UuidIds)
    (hcanonical : CanonicalCookies C later.cookies) (hmethod : later.method.isSafe = false)
    (htoken : submittedToken later = some (deriveCsrf C.hmac config.secret sid)) (hfresh : ctx.freshSession ≠ sid)
    (hopens : (run exec (forwardAuthCookie C config ctx later) db).outcome ≠ .ok none) :
    Refused exec C config ctx later db := by
  obtain ⟨opened, between, hrun, hopened, happ⟩ := run_app exec C config ctx later db
  have hseen := (passage hC hids hcanonical hopened).1
  rcases hopened with rfl | rfl
  · exact absurd (by rw [hrun]) hopens
  · have hsame := seenRequest_same C config ctx later (some (signedCookie C config ctx.freshSession))
    have hverify : verifyCsrf C.hmac config.secret ctx.freshSession (deriveCsrf C.hmac config.secret sid) = false := by
      rw [← Bool.not_eq_true]
      exact fun hverify => hfresh (eq_of_verifyCsrf hinjective hverify).symm
    obtain ⟨reason, hverdict⟩ := (csrfVerdict_of_token hseen (hsame.2.trans htoken)).2
      (by rw [hsame.1, hmethod]) hverify
    refine ⟨reason, sentCookies C config ctx later (some (signedCookie C config ctx.freshSession)), fun handler => ?_⟩
    rw [happ, csrfGuard, hverdict]
    simp only [Prog.pure_eq, Prog.ret_bind, run_ret, WebReply.withCookies, List.nil_append]

/-- A refused request does not get to a handler. -/
theorem Refused.not_passes {later : HttpRequest} {db : S} (hrefused : Refused exec C config ctx later db) :
    ¬Passes exec C config ctx later db := by
  rintro ⟨handed, between, cookies, hpasses⟩
  obtain ⟨reason, setCookies, hrefused⟩ := hrefused
  -- a handler that answers at once
  have hanswer := hrefused fun _ => .ret ⟨[], false, fun hpage => absurd hpage Bool.false_ne_true⟩
  rw [hpasses] at hanswer
  cases hanswer

/-- **The layers and the token.** Whatever canonical cookies a request has, the guard is given a validly signed session
id, the handler the same one, and behind an unsafe method only with the MAC of that id, which is the token of no other
session. A token rendered into the reply, submitted with the cookie the browser then has, is accepted when no session is
opened for the later request, and refused when a fresh one is. -/
theorem csrf_layers {S : Type} (exec : (c : StoreCall) → S → Except StoreError c.Res × S) {C : CookieCrates}
    (config : CookieConfig) {ctx : WebContext} (req : HttpRequest) (hC : C.Documented)
    (hinjective : Function.Injective (C.hmac config.secret)) (hids : ctx.UuidIds)
    (hcanonical : CanonicalCookies C req.cookies) (db : S) : ∃ seen sid between cookies,
      (∀ handler, run exec (app C config ctx handler req) db =
        run exec ((csrfGuard C config (handled C config handler) seen).bind fun reply =>
          .ret (reply.withCookies cookies)) between) ∧
      requestSessionId C config seen = some sid ∧ csrfVerdict C config seen ≠ .error .noSession ∧
      (∀ handed, csrfVerdict C config seen = .ok handed → requestSessionId C config handed = some sid ∧
        (req.method.isSafe = false → ∃ token, submittedToken req = some token ∧
          IsHex token (mac C.hmac config.secret csrfDomain sid) ∧
          ∀ other, token = deriveCsrf C.hmac config.secret other → other = sid)) ∧
      ∀ handler reply token, (run exec (app C config ctx handler req) db).outcome = .ok reply →
        reply.outcome = .ok (some token) → ∀ (ctx' : WebContext) (later : HttpRequest) (db' : S), ctx'.UuidIds →
          Resubmits C config req reply token later →
          ((run exec (forwardAuthCookie C config ctx' later) db').outcome = .ok none →
            Passes exec C config ctx' later db') ∧
          ((run exec (forwardAuthCookie C config ctx' later) db').outcome ≠ .ok none → ctx'.freshSession ≠ sid →
            Refused exec C config ctx' later db') := by
  obtain ⟨opened, between, hrun, hopened, happ⟩ := run_app exec C config ctx req db
  obtain ⟨hsid, hbrowser⟩ := passage hC hids hcanonical hopened
  have hsame := seenRequest_same C config ctx req opened
  refine ⟨seenRequest C config ctx req opened, passedSession C config ctx req opened, between,
    sentCookies C config ctx req opened, happ, hsid, csrfVerdict_ne_noSession hsid, ?_, ?_⟩
  · intro handed hverdict
    obtain ⟨hhanded, htoken⟩ := csrfVerdict_ok hsid hverdict
    refine ⟨hhanded, fun hmethod => ?_⟩
    obtain ⟨token, hsubmitted, hverify⟩ := htoken (by rw [hsame.1, hmethod])
    refine ⟨token, hsame.2 ▸ hsubmitted, verifyCsrf_iff.mp hverify, ?_⟩
    rintro other rfl
    exact eq_of_verifyCsrf hinjective hverify
  · intro handler reply token hreply htoken ctx' later db' hids' hlater
    rw [happ] at hreply
    obtain ⟨rfl, own, hown, hother⟩ := rendered hsid hreply htoken
    obtain ⟨value, hvalue, hverified⟩ := hbrowser own hother
    have hsession : requestSessionId C config later = some (passedSession C config ctx req opened) := by
      rw [requestSessionId, sessionIdFromJar, hlater.cookie, hown, hvalue]
      exact hverified
    exact ⟨passes_of_session hC hids' hlater.canonical hlater.token hsession (deriveCsrf_verifies _ _ _),
      fun hopens hfresh => refused_of_opened hC hinjective hids' hlater.canonical hlater.method hlater.token hfresh hopens⟩

end Visits

/-! ### A visitor that the gateway signs in between two requests -/

def visitorId : String := "0b2f6a51-7d3c-4e88-9a10-5c6d7e8f9a0b"
def gatewayId : String := "c41d2b77-93e5-4f06-8b2a-1e0f3d4c5b6a"

/-- The HMAC-SHA-256 of the sessions and of their tokens under the sample key. -/
def visitTags : List (List UInt8 × List UInt8) :=
  [(HexText.utf8 "session:0b2f6a51-7d3c-4e88-9a10-5c6d7e8f9a0b",
      [96, 236, 30, 76, 168, 201, 179, 124, 193, 96, 84, 105, 216, 73, 236, 63, 178, 3, 237, 248, 13, 46, 214, 98, 138, 225,
        98, 93, 34, 55, 205, 56]),
    (HexText.utf8 "csrf:0b2f6a51-7d3c-4e88-9a10-5c6d7e8f9a0b",
      [134, 107, 210, 165, 166, 156, 234, 233, 41, 51, 160, 191, 127, 68, 156, 183, 93, 58, 161, 22, 243, 12, 167, 38, 15,
        104, 25, 71, 128, 228, 9, 188]),
    (HexText.utf8 "session:c41d2b77-93e5-4f06-8b2a-1e0f3d4c5b6a",
      [144, 236, 166, 77, 136, 62, 180, 193, 203, 131, 176, 90, 178, 113, 138, 114, 154, 79, 142, 56, 89, 82, 222, 91, 86,
        74, 175, 210, 85, 241, 236, 225]),
    (HexText.utf8 "csrf:c41d2b77-93e5-4f06-8b2a-1e0f3d4c5b6a",
      [75, 113, 47, 192, 36, 210, 230, 103, 238, 0, 243, 169, 221, 252, 131, 119, 167, 94, 157, 90, 139, 22, 146, 249, 190,
        229, 51, 170, 218, 56, 106, 158])]

/-- HMAC on those messages, and elsewhere something longer that does not collide. -/
def visitMac (secret message : List UInt8) : List UInt8 :=
  match visitTags.find? fun entry => secret = sampleKey ∧ entry.1 = message with
  | some entry => entry.2
  | none => List.replicate 33 0 ++ message

theorem visitMac_injective (secret : List UInt8) : Function.Injective (visitMac secret) := by
  have htags : ∀ entry ∈ visitTags, ∀ other ∈ visitTags, entry.2 = other.2 → entry = other := by decide
  have hshort : ∀ entry ∈ visitTags, entry.2.length = 32 := by decide
  have hlong {entry : List UInt8 × List UInt8} (hentry : entry ∈ visitTags) (message : List UInt8) :
      entry.2 ≠ List.replicate 33 0 ++ message := by
    intro heq
    have hlength := congrArg List.length heq
    rw [List.length_append, List.length_replicate, hshort entry hentry] at hlength
    omega
  intro message message' heq
  unfold visitMac at heq
  split at heq
  · rename_i entry hfind
    have hentry := List.mem_of_find?_eq_some hfind
    have hmessage := List.find?_some hfind
    rw [decide_eq_true_eq] at hmessage
    split at heq
    · rename_i other hother
      have hmessage' := List.find?_some hother
      rw [decide_eq_true_eq] at hmessage'
      rw [← hmessage.2, ← hmessage'.2, htags entry hentry other (List.mem_of_find?_eq_some hother) heq]
    · exact absurd heq (hlong hentry _)
  · split at heq
    · rename_i other hother
      exact absurd heq.symm (hlong (List.mem_of_find?_eq_some hother) _)
    · exact List.append_cancel_left heq

/-- The crates on pairs without escapes: a pair is cut at its first equals sign, and of the values of a name the last is
kept. -/
def visitCrates : CookieCrates where
  hmac := visitMac
  parseEncoded := fun piece => (splitOnce '=' (trim piece)).filter fun pair => pair.1 ≠ ""
  keep := fun first others => others.getLast?.getD first

def visitConfig : CookieConfig := ⟨sampleKey, false⟩

theorem visitCrates_documented : visitCrates.Documented where
  trimmed := by
    intro piece
    simp only [visitCrates, trim_trim]
  plain := by
    intro name value hname hchars
    have hequals : '=' ∉ name.toList := fun hmem => (cookieChar_plain (hchars _ (List.mem_append_left _ hmem))).2.2 rfl
    have hfront : ∀ c ∈ name.toList, decide (c ≠ '=') = true := fun c hc => decide_eq_true fun heq => hequals (heq ▸ hc)
    have hsplit : splitOnce '=' (name ++ "=" ++ value) = some (name, value) := by
      have htext : (name ++ "=" ++ value).toList = name.toList ++ '=' :: value.toList := by simp
      rw [splitOnce, htext, if_pos (by simp), List.takeWhile_append_of_pos hfront, List.dropWhile_append_of_pos hfront]
      simp
    have hcookie : PlainCookie { sessionCookie visitConfig value with name := name } := ⟨hname, hchars⟩
    have htrim : trim (name ++ "=" ++ value) = name ++ "=" ++ value := hcookie.trim
    simp only [visitCrates, htrim, hsplit]
    simp [hname]
  single := fun _ => rfl

/-- The first request, past the gateway. -/
def unnamedContext : WebContext :=
  { WebContext.sample with
    sessionId := none, forwardAuth := true, freshSession := gatewayId, anonymousSession := visitorId }

/-- The second, named by it. -/
def namedContext : WebContext := { unnamedContext with gatewayUser := some "alice" }

theorem unnamedContext_uuidIds : unnamedContext.UuidIds where
  fresh := List.forall_iff_forall_mem.mp (by decide)
  anonymous := List.forall_iff_forall_mem.mp (by decide)

def visitToken : String := deriveCsrf visitMac sampleKey visitorId

def firstVisit : HttpRequest := ⟨.get, [], [], some []⟩

/-- The form of the first page, posted with the cookie that came with it. -/
def formPost : HttpRequest :=
  replaceRequestCookie ⟨.post, [], (HeaderValue.parse visitToken).toList, some []⟩
    (signedCookie visitCrates visitConfig visitorId)

def renderPageOnly (config : CookieConfig) : HttpRequest → StoreProg AppError (HandlerReply config) :=
  fun _ => return ⟨[], true, fun _ _ hcookie => absurd hcookie List.not_mem_nil⟩

/-- The reply to the first request. -/
def firstReply : WebReply := ⟨.ok (some visitToken), [signedCookie visitCrates visitConfig visitorId]⟩

theorem canonical_nil (C : CookieCrates) : CanonicalCookies C [] := fun _ hpiece => absurd hpiece List.not_mem_nil

theorem visitCookie_plain : PlainCookie (signedCookie visitCrates visitConfig visitorId) :=
  plainCookie_session unnamedContext_uuidIds.anonymous

theorem formPost_session : requestSessionId visitCrates visitConfig formPost = some visitorId :=
  requestSessionId_replace visitCrates_documented (canonical_nil visitCrates) unnamedContext_uuidIds.anonymous

theorem formPost_resubmits : Resubmits visitCrates visitConfig firstVisit firstReply visitToken formPost where
  canonical := canonicalCookies_replace visitCrates_documented (canonical_nil visitCrates) visitCookie_plain
  method := by
    rw [formPost, replaceRequestCookie_method]
    rfl
  token := by
    have hvisible : Visible visitToken := by
      intro c hc
      rw [visitToken, deriveCsrf, hexEncode, String.toList_ofList] at hc
      obtain ⟨digit, hdigit, rfl⟩ := HexText.encode_ascii hc
      have hhex : ∀ digit < 16, 32 ≤ digit.digitChar.toNat ∧ digit.digitChar.toNat < 127 := by decide
      exact Or.inl (hhex digit hdigit)
    obtain ⟨value, hparse, htext⟩ := parse_of_visible hvisible
    rw [formPost, submittedToken_replace, submittedToken, headerToken, hparse]
    simp [htext]
  cookie := by
    have hcanonical : CanonicalCookies visitCrates
        (⟨.post, [], (HeaderValue.parse visitToken).toList, some []⟩ : HttpRequest).cookies := canonical_nil visitCrates
    exact cookieJar_replace visitCrates_documented hcanonical visitCookie_plain

theorem firstVisit_reply :
    (run exec (app visitCrates visitConfig unnamedContext (renderPageOnly visitConfig) firstVisit) Db.empty).outcome =
      .ok firstReply := by
  have hnone : forwardAuthCookie visitCrates visitConfig unnamedContext firstVisit = .ret none := rfl
  have hanonymous : anonymousCookie visitCrates visitConfig unnamedContext firstVisit =
      some (signedCookie visitCrates visitConfig visitorId) := rfl
  have hsid : requestSessionId visitCrates visitConfig
      (replaceRequestCookie firstVisit (signedCookie visitCrates visitConfig visitorId)) = some visitorId :=
    requestSessionId_replace visitCrates_documented (canonical_nil visitCrates) unnamedContext_uuidIds.anonymous
  have hverdict : csrfVerdict visitCrates visitConfig
      (replaceRequestCookie firstVisit (signedCookie visitCrates visitConfig visitorId)) =
        .ok (replaceRequestCookie firstVisit (signedCookie visitCrates visitConfig visitorId)) := by
    rw [csrfVerdict, replaceRequestCookie_method]
    rfl
  have hcsrf : currentCsrf visitCrates visitConfig
      (replaceRequestCookie firstVisit (signedCookie visitCrates visitConfig visitorId)) = visitToken := by
    rw [currentCsrf, hsid]
    rfl
  have hsent : (signedCookie visitCrates visitConfig visitorId).isSendable = true :=
    sessionCookie_sent unnamedContext_uuidIds.anonymous
  rw [app_eq, hnone, Prog.ret_bind, seenRequest, HttpRequest.with, hanonymous, HttpRequest.with, csrfGuard, hverdict]
  simp only [handled, renderPageOnly, Prog.bind_eq, Prog.pure_eq, Prog.ret_bind, run_ret, hcsrf, if_true, sentCookies,
    HttpRequest.with, hanonymous, Option.toList_some, Option.toList_none, List.append_nil,
    List.filter_cons_of_pos hsent, List.filter_nil]
  rfl

/-- The form is accepted as long as the gateway does not name the visitor. -/
theorem form_accepted : (∃ seen sid, requestSessionId visitCrates visitConfig seen = some sid ∧
      csrfVerdict visitCrates visitConfig seen ≠ .error .noSession) ∧
    Passes exec visitCrates visitConfig unnamedContext formPost Db.empty := by
  obtain ⟨seen, sid, _, _, _, hsid, hverdict, _, hlater⟩ := csrf_layers exec visitConfig firstVisit
    visitCrates_documented (visitMac_injective sampleKey) unnamedContext_uuidIds (canonical_nil visitCrates) Db.empty
  refine ⟨⟨seen, sid, hsid, hverdict⟩, (hlater (renderPageOnly visitConfig) firstReply visitToken firstVisit_reply rfl
    unnamedContext formPost Db.empty unnamedContext_uuidIds formPost_resubmits).1 ?_⟩
  unfold forwardAuthCookie
  rw [formPost_session]
  rfl

/-- A form that a visitor got before the gateway named the user, and posts behind it, is refused. -/
theorem form_refused :
    (run exec (app visitCrates visitConfig unnamedContext (renderPageOnly visitConfig) firstVisit) Db.empty).outcome =
        .ok firstReply ∧
      firstReply.outcome = .ok (some visitToken) ∧
      Resubmits visitCrates visitConfig firstVisit firstReply visitToken formPost ∧
      Refused exec visitCrates visitConfig namedContext formPost Db.empty ∧
      ¬Passes exec visitCrates visitConfig namedContext formPost Db.empty := by
  have hopens : (run exec (forwardAuthCookie visitCrates visitConfig namedContext formPost) Db.empty).outcome ≠
      .ok none := by
    unfold forwardAuthCookie
    rw [formPost_session]
    intro heq
    cases heq
  have hrefused : Refused exec visitCrates visitConfig namedContext formPost Db.empty :=
    refused_of_opened visitCrates_documented (visitMac_injective sampleKey)
      ⟨unnamedContext_uuidIds.fresh, unnamedContext_uuidIds.anonymous⟩ formPost_resubmits.canonical
      formPost_resubmits.method formPost_resubmits.token (by decide) hopens
  exact ⟨firstVisit_reply, rfl, formPost_resubmits, hrefused, hrefused.not_passes⟩

end Pingward
