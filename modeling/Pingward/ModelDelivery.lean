import Pingward.ModelKeyset
import Pingward.ModelMessage
import Pingward.ModelSession
import Pingward.ProgramPair

/-! Delivery (`src/notify.rs`): what each notifier sends, the retries, and the task that delivers an event to the channels
of its check. A delivery is a program over the database and what lies outside: the HTTP client, the SMTP transport, and
the clock that a task sleeps by. -/

open StoreProgram

namespace Pingward

/-- The crates behind the notifiers: what the HTTP client makes a request of, the texts of HTTP statuses, and the address
and message types of `lettre`. -/
structure Transports where
  /-- A URL that the client can send to, or the error as it prints. -/
  parseUrl : String → Except String Unit
  /-- `HeaderValue::try_from`, the error as it prints. -/
  headerValue : String → Except String Unit
  /-- `StatusCode` as it prints. -/
  statusText : Nat → String
  Mailbox : Type
  Email : Type
  /-- `str::parse::<Mailbox>`, the error as it prints. -/
  parseMailbox : String → Except String Mailbox
  buildMessage : (sender recipient : Mailbox) → (subject body : String) → Except String Email
  /-- `AsyncSmtpTransport::relay`. -/
  relay : (host : String) → Except String Unit
  /-- `AsyncSmtpTransport::starttls_relay`. -/
  starttlsRelay : (host : String) → Except String Unit

structure NotifyError where
  text : String
  deriving DecidableEq, Repr

/-- `NotifyError` as it prints. -/
def NotifyError.print (e : NotifyError) : String := "notify failed: " ++ e.text

/-! ### Requests -/

/-- What a `reqwest::Error` says of itself, and the text it prints, which names the URL. -/
structure TransportFailure where
  isTimeout : Bool
  isConnect : Bool
  isRedirect : Bool
  isBody : Bool
  isDecode : Bool
  text : String
  deriving DecidableEq, Repr

/-- The error of a request that could not be built. -/
def TransportFailure.builder (text : String) : TransportFailure := ⟨false, false, false, false, false, text⟩

/-- Classify only: the text would leak the URL into the stored error. -/
def transportErr (e : TransportFailure) : NotifyError :=
  if e.isTimeout then ⟨"request timed out"⟩
  else if e.isConnect then ⟨"connection failed"⟩
  else if e.isRedirect then ⟨"too many redirects"⟩
  else if e.isBody || e.isDecode then ⟨"invalid response"⟩
  else ⟨"request failed"⟩

inductive JsonField where
  | null
  | text (value : String)
  | number (value : Int)
  deriving DecidableEq, Repr

/-- `Option<String>` in a JSON object. -/
def JsonField.ofText : Option String → JsonField
  | some value => .text value
  | none => .null

inductive HttpBody where
  | json (fields : List (String × JsonField))
  | form (fields : List (String × String))
  | text (body : String)
  deriving DecidableEq, Repr

/-- A `POST`. -/
structure PostRequest where
  url : String
  headers : List (String × String)
  bearer : Option String
  body : HttpBody
  deriving DecidableEq, Repr

structure SmtpTransport where
  host : String
  tls : SmtpTls
  port : Nat
  credentials : Option (String × String)
  deriving DecidableEq, Repr

/-- What a delivery does outside the database. -/
inductive OutsideCall (T : Transports) where
  | post (request : PostRequest)
  | mail (transport : SmtpTransport) (message : T.Email)
  | sleep (nanos : Nat)

/-- A request is answered with a status. -/
@[reducible] def OutsideCall.Res {T : Transports} : OutsideCall T → Type
  | .post _ => Except TransportFailure Nat
  | .mail _ _ => Except String Unit
  | .sleep _ => Unit

abbrev DeliveryProg (T : Transports) (α : Type) :=
  Prog (StoreCall ⊕ OutsideCall T) (PairRes (fun c => c.Res) OutsideCall.Res) StoreError Spawned StoreError α

/-- A call to the outside, which always answers. -/
def outside {T : Transports} (c : OutsideCall T) : DeliveryProg T c.Res := Prog.perform id (Sum.inr c)

section Send

variable {X : Crates} (T : Transports) (clock : ZoneClock X)

/-- Whether the client can build a request: the first of its parts that is refused keeps it from being sent. -/
def PostRequest.build (request : PostRequest) : Except String Unit := do
  T.parseUrl request.url
  request.headers.forM fun header => T.headerValue header.2
  match request.bearer with
  | some token => T.headerValue ("Bearer " ++ token)
  | none => .ok ()

/-- What the answer to a request makes of a send. -/
def judgeAnswer : Except TransportFailure Nat → Except NotifyError Unit
  | .error e => .error (transportErr e)
  | .ok status => if 200 ≤ status ∧ status < 300 then .ok () else .error ⟨"status " ++ T.statusText status⟩

/-- Send a request and judge its answer. -/
def postRequest (request : PostRequest) : DeliveryProg T (Except NotifyError Unit) :=
  match request.build T with
  | .error text => return .error (transportErr (.builder text))
  | .ok () => do
      let answer ← outside (.post request)
      return judgeAnswer T answer

/-- The exit code in the payload: that of a `fail` ping. -/
def exitCodeOf : Option DownCause → JsonField
  | some (.failed (some exitCode)) => .number exitCode
  | _ => .null

def DownCause.asStr : DownCause → String
  | .overdue => "overdue"
  | .overrun _ _ => "overrun"
  | .failed _ => "failed"

/-- `WebhookNotifier::send`. The first four keys stay verbatim. -/
def webhookRequest (url : String) (ev : NotificationEvent) : PostRequest :=
  ⟨url, [], none, .json
    [("check", .text ev.checkName), ("event", .text ev.event.asStr), ("at", .text (toRfc3339 ev.at_)),
      ("project_id", .number ev.projectId), ("check_id", .number ev.checkId),
      ("project", .ofText ev.detail.projectName), ("url", .ofText ev.detail.url),
      ("schedule", .ofText ev.detail.schedule), ("timezone", .ofText ev.detail.timezone),
      ("last_ping_at", .ofText (ev.detail.lastPingAt.map toRfc3339)),
      ("cause", .ofText (ev.detail.cause.map DownCause.asStr)), ("exit_code", exitCodeOf ev.detail.cause),
      ("text", .text (eventText clock ev))]⟩

def telegramRequest (token chatId baseUrl : String) (ev : NotificationEvent) : PostRequest :=
  ⟨baseUrl ++ "/bot" ++ token ++ "/sendMessage", [], none,
    .json [("chat_id", .text chatId), ("text", .text (eventText clock ev))]⟩

def slackRequest (url : String) (ev : NotificationEvent) : PostRequest :=
  ⟨url, [], none, .json [("text", .text (eventText clock ev))]⟩

/-- A link that may stand in a header. -/
def headerSafe (url : String) : Bool :=
  decide (url ≠ "") && !url.toList.any fun c => isControl c || isWhiteSpace c

def ntfyRequest (baseUrl topic : String) (token : Option String) (ev : NotificationEvent) : PostRequest :=
  let (priority, tags) := match ev.event with
    | .down | .reminder => ("high", "red_circle")
    | .up => ("default", "green_circle")
    | .test => ("default", "bell")
  let click := (ev.detail.url.filter fun u => headerSafe u).toList.map fun u => ("Click", u)
  ⟨baseUrl ++ "/" ++ topic, [("Title", eventTitle ev), ("Priority", priority), ("Tags", tags)] ++ click, token,
    .text (eventText clock ev)⟩

def pushoverRequest (token user baseUrl : String) (ev : NotificationEvent) : PostRequest :=
  let priority := match ev.event with
    | .down | .reminder => "1"
    | .up | .test => "0"
  let link := match ev.detail.url.filter fun u => u ≠ "" with
    | some u => [("url", u), ("url_title", "Open in pingward")]
    | none => []
  ⟨baseUrl ++ "/1/messages.json", [], none,
    .form ([("token", token), ("user", user), ("title", eventTitle ev), ("message", eventText clock ev),
      ("priority", priority)] ++ link)⟩

/-- A malformed address is a `NotifyError`. -/
def buildEmail (sender recipient : String) (ev : NotificationEvent) : Except NotifyError T.Email := do
  let sender ← (T.parseMailbox sender).mapError fun e => ⟨"invalid from address: " ++ e⟩
  let recipient ← (T.parseMailbox recipient).mapError fun e => ⟨"invalid recipient address: " ++ e⟩
  (T.buildMessage sender recipient (eventTitle ev) (eventText clock ev)).mapError fun e =>
    ⟨"failed to build email: " ++ e⟩

/-- What `EmailNotifier::send` hands to the transport, or why it does not get there. -/
def prepareEmail (smtp : Option SmtpConfig) (recipient : String) (ev : NotificationEvent) :
    Except NotifyError (SmtpTransport × T.Email) := do
  let some smtp := smtp | .error ⟨"instance SMTP not configured"⟩
  let message ← buildEmail T clock smtp.sender recipient ev
  match smtp.tls with
  | .tls => (T.relay smtp.host).mapError fun e => ⟨"smtp setup failed: " ++ e⟩
  | .starttls => (T.starttlsRelay smtp.host).mapError fun e => ⟨"smtp setup failed: " ++ e⟩
  | .none => .ok ()
  let credentials := match smtp.username, smtp.password with
    | some username, some password => some (username, password)
    | _, _ => none
  return (⟨smtp.host, smtp.tls, smtp.port, credentials⟩, message)

/-- `Notifier::send`. -/
def Notifier.send (notifier : Notifier) (ev : NotificationEvent) : DeliveryProg T (Except NotifyError Unit) :=
  match notifier with
  | .webhook url => postRequest T (webhookRequest clock url ev)
  | .telegram token chatId baseUrl => postRequest T (telegramRequest clock token chatId baseUrl ev)
  | .slack url => postRequest T (slackRequest clock url ev)
  | .ntfy baseUrl topic token => postRequest T (ntfyRequest clock baseUrl topic token ev)
  | .pushover token user baseUrl => postRequest T (pushoverRequest clock token user baseUrl ev)
  | .email smtp recipient =>
      match prepareEmail T clock smtp recipient ev with
      | .error e => return .error e
      | .ok (transport, message) => do
          let sent ← outside (.mail transport message)
          return sent.mapError fun e => ⟨"smtp send failed: " ++ e⟩

end Send

/-! ### Retries -/

/-- A `std::time::Duration` in nanoseconds, which holds `u64::MAX` seconds and a fraction. -/
def durationLimit : Nat := 2 ^ 64 * 1000000000

structure RetryPolicy where
  maxAttempts : Nat
  baseBackoff : Nat
  deriving DecidableEq, Repr

def RetryPolicy.default : RetryPolicy := ⟨3, 500000000⟩

/-- `base_backoff * 2u32.saturating_pow(attempt)`, before the bounds of a duration. -/
def RetryPolicy.backoff (policy : RetryPolicy) (attempt : Nat) : Nat :=
  policy.baseBackoff * min (2 ^ attempt) (2 ^ 32 - 1)

structure DeliveryOptions where
  retry : RetryPolicy
  smtp : Option SmtpConfig
  deriving DecidableEq, Repr

section Deliver

variable (X : Crates) (T : Transports) (clock : ZoneClock X)

/-- Wait before the next attempt, if there is one. A product that no duration holds panics. -/
def backOff (policy : RetryPolicy) (attempt : Nat) : DeliveryProg T Unit :=
  if attempt + 1 < policy.maxAttempts then
    if policy.backoff attempt < durationLimit then outside (.sleep (policy.backoff attempt)) else .panic
  else return ()

/-- The rounds of the retry loop, `last` being the error so far. -/
def sendAttempts (notifier : Notifier) (ev : NotificationEvent) (policy : RetryPolicy) :
    List Nat → NotifyError → DeliveryProg T (Except NotifyError Unit)
  | [], last => return .error last
  | attempt :: attempts, _ => do
      match ← notifier.send T clock ev with
      | .ok () => return .ok ()
      | .error e => do
          backOff T policy attempt
          sendAttempts notifier ev policy attempts e

/-- Exponential-backoff retry; the last error if every attempt fails. -/
def sendWithRetry (notifier : Notifier) (ev : NotificationEvent) (policy : RetryPolicy) :
    DeliveryProg T (Except NotifyError Unit) :=
  sendAttempts X T clock notifier ev policy (List.range (max policy.maxAttempts 1)) ⟨"no attempts"⟩

/-- The row that tells how a send to a channel went. -/
def outcomeRow (ev : NotificationEvent) (channelId : Int) (sent : Except NotifyError Unit) : NewNotification :=
  let (status, error) := match sent with
    | .ok () => (.ok, none)
    | .error e => (NotifyStatus.error, some e.print)
  ⟨ev.checkId, channelId, ev.event, status, error⟩

/-- Deliver to one channel and record the outcome. A channel without a notifier is skipped. -/
def deliverTo (ev : NotificationEvent) (options : DeliveryOptions) (now : Instant) (channel : Channel) :
    DeliveryProg T Unit :=
  match notifierFor X.parseConfig channel options.smtp with
  | none => return ()
  | some notifier => do
      let sent ← sendWithRetry X T clock notifier ev options.retry
      let _ ← Prog.lift (attemptCall (.recordNotification (outcomeRow ev channel.id sent) now))
      return ()

def deliverAll (ev : NotificationEvent) (options : DeliveryOptions) (now : Instant) : List Channel → DeliveryProg T Unit
  | [] => return ()
  | channel :: channels => do
      deliverTo X T clock ev options now channel
      deliverAll ev options now channels

/-- Deliver to each bound channel with retry and record every outcome. Failures are recorded, never propagated. -/
def deliverEvent (ev : NotificationEvent) (options : DeliveryOptions) (now : Instant) : DeliveryProg T Unit := do
  match ← Prog.lift (attemptCall (.channelsForCheck ev.checkId)) with
  | .error _ => return ()
  | .ok channels => deliverAll X T clock ev options now channels

/-- The task of a spawned delivery: `spawn_delivery` of `src/ping.rs`, which looks up the project first, and
`spawn_deliveries` of `src/scheduler.rs`, which reads the clock when the task starts. -/
def deliveryTask (smtp : Option SmtpConfig) (baseUrl : String) (started : Instant) : Spawned → DeliveryProg T Unit
  | .delivery delivery => do
      let project ← Prog.lift (attemptCall (.findProject delivery.check.projectId))
      let displayTz ← Prog.lift displayTimezone
      let ev := delivery.notificationEvent (project.toOption.join.map Project.name) baseUrl displayTz
      deliverEvent X T clock ev ⟨.default, smtp⟩ delivery.now
  | .event ev => deliverEvent X T clock ev ⟨.default, smtp⟩ started

end Deliver

/-! ### The outside -/

/-- What the outside does with the calls of a delivery. Its state is whatever the answers depend on. -/
structure Network (T : Transports) (W : Type) where
  post : PostRequest → W → Except TransportFailure Nat × W
  mail : SmtpTransport → T.Email → W → Except String Unit × W
  sleep : Nat → W → W

def Network.exec {T : Transports} {W : Type} (network : Network T W) : (c : OutsideCall T) → W → c.Res × W
  | .post request, world => network.post request world
  | .mail transport message, world => network.mail transport message world
  | .sleep nanos, world => ((), network.sleep nanos world)

/-- The database beside the network. -/
def execDelivery {T : Transports} {W : Type} (network : Network T W) :
    (c : StoreCall ⊕ OutsideCall T) → Db × W → Except StoreError (PairRes (fun c => c.Res) OutsideCall.Res c) × (Db × W)
  | .inl c, state => ((exec c state.1).1, ((exec c state.1).2, state.2))
  | .inr c, state => (.ok (network.exec c state.2).1, (state.1, (network.exec c state.2).2))

end Pingward
