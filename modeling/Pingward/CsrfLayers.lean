import Pingward.CookieHeader
import Pingward.LossyText

/-! The session cookie and the CSRF token through the layers. Whatever cookies a request comes with, one validly signed
session id comes out of the two session layers: the guard and the handler read it, the token of a page is its MAC, and
the cookies that go back leave the browser with it. -/

open StoreProgram

namespace Pingward

/-! ### The session layers -/

theorem forwardAuthUser_returns (ctx : WebContext) : (forwardAuthUser ctx).Returns fun _ => True := by
  unfold forwardAuthUser
  split
  · trivial
  · refine Prog.Returns.bind Prog.Returns.attempt fun answer _ => ?_
    split
    · trivial
    · trivial
    · refine Prog.Returns.bind Prog.Returns.attempt fun answer _ => ?_
      split
      · trivial
      · exact Prog.Returns.bind Prog.Returns.attempt fun _ _ => trivial

theorem sessionLive_returns (ctx : WebContext) : (sessionLive ctx).Returns fun _ => True := by
  unfold sessionLive
  split
  · trivial
  · exact Prog.Returns.bind Prog.Returns.attempt fun _ _ => trivial

/-! ### Replies -/

/-- A reply with cookies sent along. -/
def WebReply.withCookies (reply : WebReply) (cookies : List Cookie) : WebReply :=
  { reply with setCookies := reply.setCookies ++ cookies }

@[simp] theorem WebReply.withCookies_nil (reply : WebReply) : reply.withCookies [] = reply := by
  rw [withCookies, List.append_nil]

@[simp] theorem WebReply.withCookies_withCookies (reply : WebReply) (cookies others : List Cookie) :
    (reply.withCookies cookies).withCookies others = reply.withCookies (cookies ++ others) := by
  simp only [withCookies, List.append_assoc]

theorem WebReply.append_eq (reply : WebReply) (cookie : Cookie) :
    reply.append cookie = reply.withCookies ([cookie].filter Cookie.isSendable) := by
  rw [append]
  split
  · rename_i hsent
    rw [List.filter_cons_of_pos hsent]
    rfl
  · rename_i hsent
    rw [List.filter_cons_of_neg hsent]
    exact (withCookies_nil reply).symm

section Layers

variable (C : CookieCrates) (config : CookieConfig) (ctx : WebContext)

/-- The cookie of a session with the id. -/
def signedCookie (id : String) : Cookie := sessionCookie config (signSession C.hmac config.secret id)

/-- The layer opens the fresh session or none. -/
theorem forwardAuthCookie_returns (req : HttpRequest) : (forwardAuthCookie C config ctx req).Returns fun opened =>
    opened = none ∨ opened = some (signedCookie C config ctx.freshSession) := by
  unfold forwardAuthCookie
  split
  · exact Or.inl rfl
  · refine Prog.Returns.bind (sessionLive_returns _) fun live _ => ?_
    split
    · exact Or.inl rfl
    · refine Prog.Returns.bind (forwardAuthUser_returns ctx) fun found _ => ?_
      split
      · exact Or.inl rfl
      · refine Prog.Returns.bind Prog.Returns.attempt fun answer _ => ?_
        split
        · exact Or.inl rfl
        · exact Or.inr rfl

/-- The request with a cookie put into it. -/
def HttpRequest.with (req : HttpRequest) : Option Cookie → HttpRequest
  | none => req
  | some cookie => replaceRequestCookie req cookie

/-- What the guard is given, once the outer layer has opened a session or none. -/
def seenRequest (req : HttpRequest) (opened : Option Cookie) : HttpRequest :=
  (req.with opened).with (anonymousCookie C config ctx (req.with opened))

/-- The cookies that both layers append to the reply. -/
def sentCookies (req : HttpRequest) (opened : Option Cookie) : List Cookie :=
  ((anonymousCookie C config ctx (req.with opened)).toList ++ opened.toList).filter Cookie.isSendable

/-- The layers around the guard, as what they do to the request and to the reply. -/
theorem app_eq (handler : HttpRequest → StoreProg AppError (HandlerReply config)) (req : HttpRequest) :
    app C config ctx handler req = (forwardAuthCookie C config ctx req).bind fun opened =>
      (csrfGuard C config (handled C config handler) (seenRequest C config ctx req opened)).bind fun reply =>
        .ret (reply.withCookies (sentCookies C config ctx req opened)) := by
  have hinner (next : HttpRequest → StoreProg AppError WebReply) (req : HttpRequest) :
      anonymousSession C config ctx next req = (next (req.with (anonymousCookie C config ctx req))).bind fun reply =>
        .ret (reply.withCookies (sentCookies C config ctx req none)) := by
    unfold anonymousSession sentCookies
    cases hminted : anonymousCookie C config ctx req with
    | none => simp [HttpRequest.with, hminted]
    | some cookie => simp [HttpRequest.with, hminted, WebReply.append_eq]
  unfold app forwardAuthSession
  refine congrArg (Prog.bind _) (funext fun opened => ?_)
  cases opened with
  | none => exact hinner _ req
  | some cookie =>
      simp [hinner, HttpRequest.with, WebReply.append_eq, sentCookies, seenRequest]

end Layers

/-! ### The guard -/

section Guard

variable {C : CookieCrates} {config : CookieConfig} {req handed : HttpRequest} {sid token : String}

theorem utf8_injective {s t : String} (heq : HexText.utf8 s = HexText.utf8 t) : s = t := by
  have hlossy := congrArg fromUtf8Lossy heq
  rw [HexText.utf8, HexText.utf8, fromUtf8Lossy_flatMap, fromUtf8Lossy_flatMap] at hlossy
  exact String.toList_inj.mp hlossy

theorem deriveCsrf_verifies (hmac : List UInt8 → List UInt8 → List UInt8) (secret : List UInt8) (sid : String) :
    verifyCsrf hmac secret sid (deriveCsrf hmac secret sid) = true :=
  verifyCsrf_iff.mpr (isHex_hexEncode _)

/-- While HMAC does not collide, a session accepts the token of no other. -/
theorem eq_of_verifyCsrf {hmac : List UInt8 → List UInt8 → List UInt8} {secret : List UInt8}
    (hinjective : Function.Injective (hmac secret)) {other : String}
    (hverify : verifyCsrf hmac secret sid (deriveCsrf hmac secret other) = true) : other = sid := by
  have hmacs := (isHex_hexEncode (mac hmac secret csrfDomain other)).eq (verifyCsrf_iff.mp hverify)
  exact utf8_injective (List.append_cancel_left (hinjective hmacs))

/-- What the guard hands on has the session of the request, and the request submitted the session's token. -/
theorem csrfVerdict_ok (hsid : requestSessionId C config req = some sid)
    (hverdict : csrfVerdict C config req = .ok handed) : requestSessionId C config handed = some sid ∧
      (req.method.isSafe = false →
        ∃ token, submittedToken req = some token ∧ verifyCsrf C.hmac config.secret sid token = true) := by
  unfold csrfVerdict at hverdict
  split at hverdict
  · rename_i hsafe
    cases hverdict
    exact ⟨hsid, fun hmethod => absurd hsafe (by rw [hmethod]; exact Bool.false_ne_true)⟩
  · simp only [hsid] at hverdict
    split at hverdict
    · rename_i submitted hheader
      split at hverdict
      · rename_i hverify
        cases hverdict
        exact ⟨hsid, fun _ => ⟨submitted, by rw [submittedToken, hheader], hverify⟩⟩
      · cases hverdict
    · rename_i hheader
      split at hverdict
      · cases hverdict
      · rename_i octets hbody
        split at hverdict
        · cases hverdict
        · rename_i submitted htoken
          split at hverdict
          · rename_i hverify
            cases hverdict
            refine ⟨hsid, fun _ => ⟨submitted, ?_, hverify⟩⟩
            rw [submittedToken, hheader, hbody]
            exact htoken
          · cases hverdict

theorem csrfVerdict_ne_noSession (hsid : requestSessionId C config req = some sid) :
    csrfVerdict C config req ≠ .error .noSession := by
  intro hverdict
  unfold csrfVerdict at hverdict
  simp only [hsid] at hverdict
  repeat' split at hverdict
  all_goals cases hverdict

/-- The guard goes by the token that is submitted. -/
theorem csrfVerdict_of_token (hsid : requestSessionId C config req = some sid) (htoken : submittedToken req = some token) :
    (verifyCsrf C.hmac config.secret sid token = true → ∃ handed, csrfVerdict C config req = .ok handed) ∧
      (req.method.isSafe = false → verifyCsrf C.hmac config.secret sid token = false →
        ∃ reason, csrfVerdict C config req = .error reason) := by
  unfold csrfVerdict
  simp only [hsid]
  by_cases hsafe : req.method.isSafe = true
  · rw [if_pos hsafe]
    exact ⟨fun _ => ⟨req, rfl⟩, fun hmethod => absurd hsafe (by rw [hmethod]; exact Bool.false_ne_true)⟩
  · rw [if_neg hsafe]
    unfold submittedToken at htoken
    cases hheader : headerToken req with
    | some submitted =>
        rw [hheader] at htoken
        cases htoken
        refine ⟨fun hverify => ⟨req, if_pos hverify⟩, fun _ hverify => ⟨.headerMismatch, if_neg ?_⟩⟩
        rw [hverify]
        exact Bool.false_ne_true
    | none =>
        rw [hheader] at htoken
        obtain ⟨octets, hbody, htoken⟩ := Option.bind_eq_some_iff.mp htoken
        simp only [hbody, htoken]
        refine ⟨fun hverify => ⟨_, if_pos hverify⟩, fun _ hverify => ⟨.tokenMismatch, if_neg ?_⟩⟩
        rw [hverify]
        exact Bool.false_ne_true

end Guard

/-! ### What the browser holds -/

/-- The cookie a browser has under a name after a reply: it keeps one value, the last that was set. -/
def browserCookie (name : String) (held : Option String) (setCookies : List Cookie) : Option String :=
  setCookies.foldl (fun held cookie =>
    if cookie.name = name then (if cookie.removal then none else some cookie.value) else held) held

theorem browserCookie_other {name : String} (held : Option String) {setCookies : List Cookie}
    (hother : ∀ cookie ∈ setCookies, cookie.name ≠ name) : browserCookie name held setCookies = held := by
  unfold browserCookie
  induction setCookies generalizing held with
  | nil => rfl
  | cons cookie rest ih =>
      rw [List.foldl_cons, if_neg (hother cookie List.mem_cons_self)]
      exact ih held fun other hmem => hother other (List.mem_cons_of_mem _ hmem)

theorem browserCookie_append (name : String) (held : Option String) (setCookies : List Cookie) (cookie : Cookie)
    (hname : cookie.name = name) (hkept : cookie.removal = false) :
    browserCookie name held (setCookies ++ [cookie]) = some cookie.value := by
  rw [browserCookie, List.foldl_append, List.foldl_cons, List.foldl_nil, if_pos hname, if_neg]
  rw [hkept]
  exact Bool.false_ne_true

section Passage

variable {C : CookieCrates} {config : CookieConfig} {ctx : WebContext} {req : HttpRequest}

/-- The session ids a request may be given are UUIDs. -/
structure WebContext.UuidIds (ctx : WebContext) : Prop where
  fresh : UuidText ctx.freshSession
  anonymous : UuidText ctx.anonymousSession

/-- The session a request leaves the two session layers with: its own, unless one was opened for it; an anonymous one if
it has none. -/
def passedSession (C : CookieCrates) (config : CookieConfig) (ctx : WebContext) (req : HttpRequest) :
    Option Cookie → String
  | some _ => ctx.freshSession
  | none => (requestSessionId C config req).getD ctx.anonymousSession

/-- What the guard reads is the session passed on; what the browser holds after a reply that leaves the session cookie
alone is a cookie of that session. -/
theorem passage (hC : C.Documented) (hids : ctx.UuidIds) (hcanonical : CanonicalCookies C req.cookies)
    {opened : Option Cookie} (hopened : opened = none ∨ opened = some (signedCookie C config ctx.freshSession)) :
    requestSessionId C config (seenRequest C config ctx req opened) = some (passedSession C config ctx req opened) ∧
      ∀ setCookies : List Cookie, (∀ cookie ∈ setCookies, cookie.name ≠ config.sessionName) →
        ∃ value, browserCookie config.sessionName (cookieJar C req.cookies config.sessionName)
            (setCookies ++ sentCookies C config ctx req opened) = some value ∧
          verifySession C.hmac config.secret value = some (passedSession C config ctx req opened) := by
  have hminted (id : String) (hid : UuidText id) (setCookies : List Cookie) :
      ∃ value, browserCookie config.sessionName (cookieJar C req.cookies config.sessionName)
          (setCookies ++ [signedCookie C config id].filter Cookie.isSendable) = some value ∧
        verifySession C.hmac config.secret value = some id := by
    refine ⟨signSession C.hmac config.secret id, ?_, verify_sign sessionDomain id⟩
    have hsent : (signedCookie C config id).isSendable = true := sessionCookie_sent hid
    rw [List.filter_cons_of_pos hsent, List.filter_nil]
    exact browserCookie_append _ _ _ _ rfl rfl
  rcases hopened with rfl | rfl
  · cases hown : requestSessionId C config req with
    | some id =>
        have hanonymous : anonymousCookie C config ctx req = none := by
          rw [anonymousCookie, hown]
          rfl
        simp only [seenRequest, sentCookies, HttpRequest.with, hanonymous, passedSession, hown, Option.getD_some,
          true_and, Option.toList_none, List.append_nil, List.filter_nil]
        intro setCookies hother
        rw [browserCookie_other _ hother]
        unfold requestSessionId sessionIdFromJar at hown
        split at hown
        · cases hown
        · rename_i value hvalue
          exact ⟨value, hvalue, hown⟩
    | none =>
        have hanonymous : anonymousCookie C config ctx req = some (signedCookie C config ctx.anonymousSession) := by
          rw [anonymousCookie, hown]
          rfl
        simp only [seenRequest, sentCookies, HttpRequest.with, hanonymous, passedSession, hown, Option.getD_none,
          Option.toList_none, Option.toList_some, List.append_nil]
        exact ⟨requestSessionId_replace hC hcanonical hids.anonymous, fun setCookies _ => hminted _ hids.anonymous _⟩
  · have hfresh : requestSessionId C config (replaceRequestCookie req (signedCookie C config ctx.freshSession)) =
        some ctx.freshSession := requestSessionId_replace hC hcanonical hids.fresh
    have hanonymous : anonymousCookie C config ctx (replaceRequestCookie req (signedCookie C config ctx.freshSession)) =
        none := by
      rw [anonymousCookie, hfresh]
      rfl
    simp only [seenRequest, sentCookies, HttpRequest.with, hanonymous, passedSession, Option.toList_none,
      Option.toList_some, List.nil_append]
    exact ⟨hfresh, fun setCookies _ => hminted _ hids.fresh _⟩

theorem seenRequest_same (C : CookieCrates) (config : CookieConfig) (ctx : WebContext) (req : HttpRequest)
    (opened : Option Cookie) :
    (seenRequest C config ctx req opened).method = req.method ∧
      submittedToken (seenRequest C config ctx req opened) = submittedToken req := by
  have hwith (req : HttpRequest) (cookie : Option Cookie) :
      (req.with cookie).method = req.method ∧ submittedToken (req.with cookie) = submittedToken req := by
    cases cookie with
    | none => exact ⟨rfl, rfl⟩
    | some cookie => exact ⟨replaceRequestCookie_method req cookie, submittedToken_replace req cookie⟩
  have hinner := hwith req opened
  have houter := hwith (req.with opened) (anonymousCookie C config ctx (req.with opened))
  exact ⟨houter.1.trans hinner.1, houter.2.trans hinner.2⟩

end Passage

end Pingward
