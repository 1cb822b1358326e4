import Pingward.ModelProxy
import Pingward.ModelQuery
import Pingward.ModelSecret
import Pingward.ModelWeb

/-! The cookies of a browser request and the layers in front of the browser routes (`src/web.rs`, in the order of
`src/lib.rs`): `forward_auth_session`, `anonymous_session`, `csrf_guard`. A request is kept as its method, its `Cookie`
and `X-CSRF-Token` lines and its body; what the gateway and the clock say about it is its context. -/

open StoreProgram

namespace Pingward

/-! ### Cookies -/

inductive SameSite where
  | strict
  | lax
  | none
  deriving DecidableEq, Repr

structure Cookie where
  name : String
  value : String
  httpOnly : Bool
  sameSite : SameSite
  path : String
  secure : Bool
  /-- Whether it makes the browser drop the cookie of its name. -/
  removal : Bool
  deriving DecidableEq, Repr

/-- The cookie and HMAC crates. -/
structure CookieCrates where
  hmac : List UInt8 → List UInt8 → List UInt8
  /-- `Cookie::parse_encoded` of one piece of a `Cookie` line. -/
  parseEncoded : String → Option (String × String)
  /-- Which of the values that came under one name, the first and the others, a `CookieJar` keeps. -/
  keep : String → List String → String

structure CookieConfig where
  secret : List UInt8
  cookieSecure : Bool
  deriving DecidableEq, Repr

def sessionCookieBase : String := "pingward_session"
def sessionCookieHostPrefixed : String := "__Host-pingward_session"

def sessionCookieName (cookieSecure : Bool) : String :=
  if cookieSecure then sessionCookieHostPrefixed else sessionCookieBase

def CookieConfig.sessionName (config : CookieConfig) : String := sessionCookieName config.cookieSecure

def sessionCookie (config : CookieConfig) (value : String) : Cookie where
  name := config.sessionName
  value := value
  httpOnly := true
  sameSite := .lax
  path := "/"
  secure := config.cookieSecure
  removal := false

def SameSite.asStr : SameSite → String
  | .strict => "Strict"
  | .lax => "Lax"
  | .none => "None"

/-- The pair as a `Cookie` line has it. -/
def Cookie.pair (cookie : Cookie) : String := cookie.name ++ "=" ++ cookie.value

/-- The `Set-Cookie` line of a cookie that is no removal. -/
def Cookie.toText (cookie : Cookie) : String :=
  cookie.pair ++ (if cookie.httpOnly then "; HttpOnly" else "") ++ "; SameSite=" ++ cookie.sameSite.asStr ++
    (if cookie.secure then "; Secure" else "") ++ "; Path=" ++ cookie.path

/-! ### Requests -/

inductive Method where
  | get
  | head
  | options
  | post
  | put
  | delete
  | patch
  | trace
  | connect
  | extension (token : String)
  deriving DecidableEq, Repr

/-- `GET`, `HEAD` and `OPTIONS`, which the guard lets through. -/
def Method.isSafe : Method → Bool
  | .get | .head | .options => true
  | _ => false

structure HttpRequest where
  method : Method
  /-- The `Cookie` lines. -/
  cookies : List HeaderValue
  /-- The `X-CSRF-Token` lines. -/
  csrfTokens : List HeaderValue
  /-- The octets that arrive; `none` when the body breaks off. -/
  body : Option (List UInt8)

/-- `str::parse::<HeaderValue>`. -/
def HeaderValue.parse (text : String) : Option HeaderValue :=
  if valid : (HexText.utf8 text).all (fun byte => (32 ≤ byte && byte != 127) || byte == 9) = true then
    some ⟨HexText.utf8 text, by simpa using valid⟩
  else none

/-- The pieces between the semicolons of the lines that are visible ASCII. -/
def cookiePieces (lines : List HeaderValue) : List String :=
  (lines.filterMap HeaderValue.toStr).flatMap fun line => (line.toList.splitOn ';').map String.ofList

/-- The pairs that stay when the cookie of a name is replaced. -/
def keptPairs (lines : List HeaderValue) (name : String) : List String :=
  ((cookiePieces lines).map trim).filter fun pair => pair ≠ "" ∧ ¬(name ++ "=").toList <+: pair.toList

/-- The stale entry is dropped, not appended past. -/
def replaceRequestCookie (req : HttpRequest) (cookie : Cookie) : HttpRequest :=
  match HeaderValue.parse ("; ".intercalate (keptPairs req.cookies cookie.name ++ [cookie.pair])) with
  | some value => { req with cookies := [value] }
  | none => req

/-! ### Form bodies (`form_urlencoded`) -/

/-- A percent sign with two hexadecimal digits is one octet. -/
def percentDecodeOctets : List UInt8 → List UInt8
  | 37 :: high :: low :: rest =>
      match HexText.digitOf 16 (Char.ofNat high.toNat), HexText.digitOf 16 (Char.ofNat low.toNat) with
      | some h, some l => UInt8.ofNat (16 * h + l) :: percentDecodeOctets rest
      | _, _ => 37 :: percentDecodeOctets (high :: low :: rest)
  | byte :: rest => byte :: percentDecodeOctets rest
  | [] => []

/-- A plus sign is a space. -/
def decodeFormOctets (octets : List UInt8) : String :=
  String.ofList (fromUtf8Lossy (percentDecodeOctets (octets.map fun byte => if byte = 43 then 32 else byte)))

/-- The pieces between the ampersands, each a name up to the first equals sign and the value behind it. -/
def formUrlencodedParse (octets : List UInt8) : List (String × String) :=
  ((octets.splitOn 38).filter (· ≠ [])).map fun piece =>
    (decodeFormOctets (piece.takeWhile (· ≠ 61)), decodeFormOctets ((piece.dropWhile (· ≠ 61)).drop 1))

def csrfMaxBodyBytes : Nat := 1048576

/-- `axum::body::to_bytes`: the whole body, if it does not break off and is not longer than the limit. -/
def toBytes (body : Option (List UInt8)) (limit : Nat) : Option (List UInt8) :=
  body.filter fun octets => octets.length ≤ limit

def headerToken (req : HttpRequest) : Option String := req.csrfTokens.head?.bind HeaderValue.toStr

def bodyToken (octets : List UInt8) : Option String :=
  ((formUrlencodedParse octets).find? fun pair => pair.1 = "_csrf").map (·.2)

/-- The token a request submits: that of the header, without one that of the form. -/
def submittedToken (req : HttpRequest) : Option String :=
  match headerToken req with
  | some submitted => some submitted
  | none => (toBytes req.body csrfMaxBodyBytes).bind bodyToken

section Layers

variable (C : CookieCrates) (config : CookieConfig)

/-- `CookieJar::from_headers` and `CookieJar::get`. -/
def cookieJar (lines : List HeaderValue) (name : String) : Option String :=
  match (((cookiePieces lines).filterMap C.parseEncoded).filter (·.1 = name)).map (·.2) with
  | [] => none
  | value :: others => some (C.keep value others)

/-- The session id of the request's cookies, if its signature is right. -/
def requestSessionId (req : HttpRequest) : Option String :=
  sessionIdFromJar C.hmac (cookieJar C req.cookies) config.secret config.sessionName

/-- The `_csrf` value of a form; empty without a valid session. -/
def currentCsrf (req : HttpRequest) : String :=
  match requestSessionId C config req with
  | some id => deriveCsrf C.hmac config.secret id
  | none => ""

/-! ### Replies -/

/-- Why the guard refuses a request. -/
inductive CsrfRejection where
  | noSession
  | headerMismatch
  | bodyUnreadable
  | tokenMissing
  | tokenMismatch
  deriving DecidableEq, Repr

/-- What a handler answers. A page has the token of its request in its forms and leaves the session cookie alone; the
handlers that set it or remove it redirect. -/
structure HandlerReply where
  setCookies : List Cookie
  isPage : Bool
  page_keeps : isPage = true → ∀ cookie ∈ setCookies, cookie.name ≠ config.sessionName

/-- A reply as it leaves: refused by the guard, or a handler's with the token that is rendered in it, and its
`Set-Cookie` lines in order. -/
@[ext]
structure WebReply where
  outcome : Except CsrfRejection (Option String)
  setCookies : List Cookie
  deriving DecidableEq

/-- Whether the `Set-Cookie` line of a cookie is a header value. -/
def Cookie.isSendable (cookie : Cookie) : Bool := (HeaderValue.parse cookie.toText).isSome

def WebReply.append (reply : WebReply) (cookie : Cookie) : WebReply :=
  if cookie.isSendable then { reply with setCookies := reply.setCookies ++ [cookie] } else reply

/-! ### The layers -/

section Context

variable (ctx : WebContext)

/-- The session that `forward_auth_session` opens, if it does. The check is of liveness: an anonymous cookie is validly
signed but has no row. -/
def forwardAuthCookie (req : HttpRequest) : StoreProg AppError (Option Cookie) := do
  if !ctx.forwardAuth then return none
  if ← sessionLive { ctx with sessionId := requestSessionId C config req } then return none
  match ← forwardAuthUser ctx with
  | none => return none
  | some user =>
      match ← attemptCall (.createSession
        ⟨ctx.freshSession, user.id, ctx.now + sessionIdleTtl, ctx.userAgent, ctx.ip, true⟩ ctx.now) with
      | .error _ => return none
      | .ok _ => return some (sessionCookie config (signSession C.hmac config.secret ctx.freshSession))

/-- The cookie goes into the request as well, so that forms rendered now hold a matching token. -/
def forwardAuthSession (next : HttpRequest → StoreProg AppError WebReply) (req : HttpRequest) :
    StoreProg AppError WebReply := do
  match ← forwardAuthCookie C config ctx req with
  | none => next req
  | some cookie => return (← next (replaceRequestCookie req cookie)).append cookie

/-- A signed cookie without a row for a visitor that has none. -/
def anonymousCookie (req : HttpRequest) : Option Cookie :=
  if (requestSessionId C config req).isSome then none
  else some (sessionCookie config (signSession C.hmac config.secret ctx.anonymousSession))

def anonymousSession (next : HttpRequest → StoreProg AppError WebReply) (req : HttpRequest) :
    StoreProg AppError WebReply := do
  match anonymousCookie C config ctx req with
  | none => next req
  | some cookie => return (← next (replaceRequestCookie req cookie)).append cookie

end Context

/-- Hand the request on, its body buffered if that was read, or refuse it. -/
def csrfVerdict (req : HttpRequest) : Except CsrfRejection HttpRequest :=
  if req.method.isSafe then .ok req
  else
    match requestSessionId C config req with
    | none => .error .noSession
    | some sessionId =>
        match headerToken req with
        | some submitted =>
            if verifyCsrf C.hmac config.secret sessionId submitted then .ok req else .error .headerMismatch
        | none =>
            match toBytes req.body csrfMaxBodyBytes with
            | none => .error .bodyUnreadable
            | some octets =>
                match bodyToken octets with
                | none => .error .tokenMissing
                | some submitted =>
                    if verifyCsrf C.hmac config.secret sessionId submitted then .ok { req with body := some octets }
                    else .error .tokenMismatch

def csrfGuard (next : HttpRequest → StoreProg AppError WebReply) (req : HttpRequest) : StoreProg AppError WebReply :=
  match csrfVerdict C config req with
  | .ok req => next req
  | .error reason => return ⟨.error reason, []⟩

/-- A handler behind the layers, its page with the token of the request it got. -/
def handled (handler : HttpRequest → StoreProg AppError (HandlerReply config)) (req : HttpRequest) :
    StoreProg AppError WebReply := do
  let reply ← handler req
  return ⟨.ok (if reply.isPage then some (currentCsrf C config req) else none), reply.setCookies⟩

/-- The browser routes: the layer that is added last runs first. -/
def app (ctx : WebContext) (handler : HttpRequest → StoreProg AppError (HandlerReply config)) :
    HttpRequest → StoreProg AppError WebReply :=
  forwardAuthSession C config ctx (anonymousSession C config ctx (csrfGuard C config (handled C config handler)))

end Layers

end Pingward
