import Pingward.MessageShape
import Pingward.ModelDelivery
import Pingward.ProgramLog

/-! What a delivery exchanges with the database and the network, whatever these answer and whatever runs beside it: a
round for each channel that can be delivered to, made of spaced attempts up to the first success, and its record. -/

open StoreProgram

namespace Pingward

section Law

variable {X : Crates} {T : Transports}

abbrev DeliveryExchange (T : Transports) :=
  Exchange (StoreCall ⊕ OutsideCall T) (PairRes (fun c => c.Res) OutsideCall.Res) StoreError

/-- The store may refuse a call; what lies outside answers. -/
def Answered :
    (c : StoreCall ⊕ OutsideCall T) → Except StoreError (PairRes (fun c => c.Res) OutsideCall.Res c) → Prop
  | .inl _, _ => True
  | .inr _, answer => ∃ value, answer = .ok value

theorem answered_execDelivery {W : Type} (network : Network T W) (c : StoreCall ⊕ OutsideCall T) (state : Db × W) :
    Answered c (execDelivery network c state).1 := by
  cases c with
  | inl c => trivial
  | inr c => exact ⟨_, rfl⟩

theorem exists_answered (c : StoreCall ⊕ OutsideCall T) : ∃ answer, Answered c answer := by
  cases c with
  | inl c => exact ⟨.error .unavailable, trivial⟩
  | inr c =>
      cases c with
      | post request => exact ⟨.ok (.ok 200), _, rfl⟩
      | mail transport message => exact ⟨.ok (.ok ()), _, rfl⟩
      | sleep nanos => exact ⟨.ok (), _, rfl⟩

/-! ### One attempt -/

variable (T) (clock : ZoneClock X)

/-- The call of a request, if it can be built. -/
def PostRequest.call (request : PostRequest) : Except NotifyError (OutsideCall T) :=
  ((request.build T).mapError fun text => transportErr (.builder text)).map fun _ => .post request

/-- The call that a send makes, or the error that comes before it. -/
def Notifier.call (ev : NotificationEvent) : Notifier → Except NotifyError (OutsideCall T)
  | .webhook url => (webhookRequest clock url ev).call T
  | .telegram token chatId baseUrl => (telegramRequest clock token chatId baseUrl ev).call T
  | .slack url => (slackRequest clock url ev).call T
  | .ntfy baseUrl topic token => (ntfyRequest clock baseUrl topic token ev).call T
  | .pushover token user baseUrl => (pushoverRequest clock token user baseUrl ev).call T
  | .email smtp recipient =>
      (prepareEmail T clock smtp recipient ev).map fun (transport, message) => .mail transport message

/-- What an answer of the outside makes of a send. -/
def verdict : (c : OutsideCall T) → c.Res → Except NotifyError Unit
  | .post _, answer => judgeAnswer T answer
  | .mail _ _, answer => answer.mapError fun e => ⟨"smtp send failed: " ++ e⟩
  | .sleep _, _ => .ok ()

/-- How a send may go: it fails before it gets outside, or makes its one call. -/
inductive Sent (ev : NotificationEvent) (notifier : Notifier) :
    Except NotifyError Unit → List (DeliveryExchange T) → Prop where
  | kept (error : NotifyError) (hcall : notifier.call T clock ev = .error error) : Sent ev notifier (.error error) []
  | made (c : OutsideCall T) (answer : c.Res) (hcall : notifier.call T clock ev = .ok c) :
      Sent ev notifier (verdict T c answer) [⟨.inr c, .ok answer⟩]

variable {T clock} {ev : NotificationEvent} {notifier : Notifier}

theorem outside_bind_ends {α : Type} {c : OutsideCall T} {rest : c.Res → DeliveryProg T α}
    {P : α → List (DeliveryExchange T) → Prop}
    (hrest : ∀ value, (rest value).Ends Answered fun last after => P last (⟨.inr c, .ok value⟩ :: after)) :
    ((outside c).bind rest).Ends Answered P :=
  Prog.Ends.perform_bind (fun _ hanswer => hanswer) fun value _ => hrest value

theorem postRequest_ends {request : PostRequest} (hcall : notifier.call T clock ev = request.call T) :
    (postRequest T request).Ends Answered (Sent T clock ev notifier) := by
  unfold postRequest
  unfold PostRequest.call at hcall
  cases hbuild : request.build T with
  | error text =>
      rw [hbuild] at hcall
      exact .kept (transportErr (.builder text)) hcall
  | ok _ =>
      rw [hbuild] at hcall
      apply outside_bind_ends
      intro answer
      exact Sent.made (OutsideCall.post request) answer hcall

theorem send_ends (notifier : Notifier) : (notifier.send T clock ev).Ends Answered (Sent T clock ev notifier) := by
  cases notifier with
  | webhook url => exact postRequest_ends rfl
  | telegram token chatId baseUrl => exact postRequest_ends rfl
  | slack url => exact postRequest_ends rfl
  | ntfy baseUrl topic token => exact postRequest_ends rfl
  | pushover token user baseUrl => exact postRequest_ends rfl
  | email smtp recipient =>
      unfold Notifier.send
      dsimp only
      cases hprepared : prepareEmail T clock smtp recipient ev with
      | error e => exact .kept e (by simp only [Notifier.call, hprepared, Except.map])
      | ok prepared =>
          apply outside_bind_ends
          intro answer
          exact .made (.mail prepared.1 prepared.2) answer (by simp only [Notifier.call, hprepared, Except.map])

/-! ### The attempts of a round -/

/-- The exchanges of the attempts from the `k`-th on, with the pause between each and the next. -/
def paused (policy : RetryPolicy) : Nat → List (List (DeliveryExchange T)) → List (DeliveryExchange T)
  | _, [] => []
  | _, [log] => log
  | k, log :: next :: logs => log ++ ⟨.inr (.sleep (policy.backoff k)), .ok ()⟩ :: paused policy (k + 1) (next :: logs)

variable (T clock) in
/-- The sends of a round from the `k`-th attempt on, and how it ends: each failed but the last, and if the last failed
there was no attempt left. -/
structure SendRound (policy : RetryPolicy) (ev : NotificationEvent) (notifier : Notifier) (k : Nat)
    (sends : List (Except NotifyError Unit × List (DeliveryExchange T))) (result : Except NotifyError Unit) : Prop where
  sent : ∀ send ∈ sends, Sent T clock ev notifier send.1 send.2
  failed : ∀ send ∈ sends.dropLast, ∃ error, send.1 = .error error
  last : sends.getLast?.map Prod.fst = some result
  few : k + sends.length ≤ max policy.maxAttempts 1
  exhausted : ∀ error, result = .error error → k + sends.length = max policy.maxAttempts 1

variable {policy : RetryPolicy} {k : Nat} {result : Except NotifyError Unit} {log : List (DeliveryExchange T)}

theorem SendRound.delivered (hsent : Sent T clock ev notifier (.ok ()) log) (hk : k < max policy.maxAttempts 1) :
    SendRound T clock policy ev notifier k [(.ok (), log)] (.ok ()) where
  sent := by simpa using hsent
  failed := by simp
  last := rfl
  few := hk
  exhausted := by simp

theorem SendRound.gaveUp {error : NotifyError} (hsent : Sent T clock ev notifier (.error error) log)
    (hk : k + 1 = max policy.maxAttempts 1) : SendRound T clock policy ev notifier k [(.error error, log)] (.error error) where
  sent := by simpa using hsent
  failed := by simp
  last := rfl
  few := hk.le
  exhausted := fun _ _ => hk

theorem SendRound.again {error : NotifyError} {sends : List (Except NotifyError Unit × List (DeliveryExchange T))}
    (hsent : Sent T clock ev notifier (.error error) log)
    (hround : SendRound T clock policy ev notifier (k + 1) sends result) :
    SendRound T clock policy ev notifier k ((.error error, log) :: sends) result := by
  have hne : sends ≠ [] := by
    rintro rfl
    cases hround.last
  refine ⟨?_, ?_, ?_, ?_, fun other hother => ?_⟩
  · exact List.forall_mem_cons.mpr ⟨hsent, hround.sent⟩
  · rw [List.dropLast_cons_of_ne_nil hne]
    exact List.forall_mem_cons.mpr ⟨⟨error, rfl⟩, hround.failed⟩
  · rw [List.getLast?_cons_of_ne_nil hne]
    exact hround.last
  · have hfew := hround.few
    rw [List.length_cons]
    omega
  · have hall := hround.exhausted other hother
    rw [List.length_cons]
    omega

theorem paused_cons {logs : List (List (DeliveryExchange T))} (hne : logs ≠ []) :
    paused policy k (log :: logs) = log ++ ⟨.inr (.sleep (policy.backoff k)), .ok ()⟩ :: paused policy (k + 1) logs := by
  cases logs with
  | nil => exact absurd rfl hne
  | cons next logs => rfl

/-- Every pause the policy asks for fits a duration. -/
def RetryPolicy.Representable (policy : RetryPolicy) : Prop :=
  ∀ k, k + 1 < policy.maxAttempts → policy.backoff k < durationLimit

theorem RetryPolicy.default_representable : RetryPolicy.default.Representable := by
  intro k hk
  have hk : k + 1 < 3 := hk
  have hpause : min (2 ^ k) (2 ^ 32 - 1) ≤ 2 ^ 32 - 1 := min_le_right ..
  unfold RetryPolicy.backoff RetryPolicy.default durationLimit
  dsimp only
  omega

theorem sendAttempts_ends (hpolicy : policy.Representable) {n : Nat} (hn : k + (n + 1) = max policy.maxAttempts 1)
    (error : NotifyError) :
    (sendAttempts X T clock notifier ev policy (List.range' k (n + 1)) error).Ends Answered fun result log =>
      ∃ sends, SendRound T clock policy ev notifier k sends result ∧ log = paused policy k (sends.map Prod.snd) := by
  induction n generalizing k error with
  | zero =>
      apply Prog.Ends.bind
      refine (send_ends notifier).mono fun sent log hsent => ?_
      cases sent with
      | ok value => exact ⟨_, .delivered hsent (by omega), by simp [paused]⟩
      | error error =>
          have hlast : ¬ k + 1 < policy.maxAttempts := by omega
          unfold backOff
          rw [if_neg hlast]
          exact ⟨_, .gaveUp hsent (by omega), by simp [paused]⟩
  | succ n ih =>
      apply Prog.Ends.bind
      refine (send_ends notifier).mono fun sent log hsent => ?_
      cases sent with
      | ok value => exact ⟨_, .delivered hsent (by omega), by simp [paused]⟩
      | error error =>
          have hmore : k + 1 < policy.maxAttempts := by omega
          unfold backOff
          dsimp only
          rw [if_pos hmore, if_pos (hpolicy k hmore)]
          apply outside_bind_ends
          intro _
          apply (ih (by omega) error).mono
          rintro result after ⟨sends, hround, rfl⟩
          refine ⟨_, .again hsent hround, ?_⟩
          have hne : sends.map Prod.snd ≠ [] := by
            intro hnil
            have hlast := hround.last
            rw [List.map_eq_nil_iff.mp hnil] at hlast
            cases hlast
          rw [List.map_cons, paused_cons hne]

theorem sendWithRetry_ends (hpolicy : policy.Representable) (notifier : Notifier) :
    (sendWithRetry X T clock notifier ev policy).Ends Answered fun result log =>
      ∃ sends, SendRound T clock policy ev notifier 0 sends result ∧ log = paused policy 0 (sends.map Prod.snd) := by
  obtain ⟨n, hn⟩ : ∃ n, max policy.maxAttempts 1 = n + 1 := ⟨max policy.maxAttempts 1 - 1, by omega⟩
  unfold sendWithRetry
  rw [List.range_eq_range', hn]
  exact sendAttempts_ends hpolicy (by omega) _

/-! ### The delivery -/

variable (T clock) in
/-- The exchanges with one channel: a round, and the record of how it ended. -/
def Notified (ev : NotificationEvent) (options : DeliveryOptions) (now : Instant) (target : Channel × Notifier)
    (log : List (DeliveryExchange T)) : Prop :=
  ∃ sends result answer, SendRound T clock options.retry ev target.2 0 sends result ∧
    log = paused options.retry 0 (sends.map Prod.snd) ++
      [⟨.inl (.recordNotification (outcomeRow ev target.1.id result) now), answer⟩]

variable (X) in
/-- The channels that can be delivered to, each with its notifier. -/
def deliverable (smtp : Option SmtpConfig) (channels : List Channel) : List (Channel × Notifier) :=
  channels.filterMap fun channel => (notifierFor X.parseConfig channel smtp).map fun notifier => (channel, notifier)

variable (T clock) in
/-- The exchanges of a delivery: its channels are loaded once, and each that can be delivered to has its part, in order. -/
inductive Delivered (ev : NotificationEvent) (options : DeliveryOptions) (now : Instant) :
    List (DeliveryExchange T) → Prop where
  | unloaded (error : StoreError) : Delivered ev options now [⟨.inl (.channelsForCheck ev.checkId), .error error⟩]
  | loaded (channels : List Channel) (parts : List (List (DeliveryExchange T)))
      (hparts : List.Forall₂ (Notified T clock ev options now) (deliverable X options.smtp channels) parts) :
      Delivered ev options now (⟨.inl (.channelsForCheck ev.checkId), .ok channels⟩ :: parts.flatten)

variable {options : DeliveryOptions} {now : Instant}

theorem deliverTo_ends (hpolicy : options.retry.Representable) (channel : Channel) :
    (deliverTo X T clock ev options now channel).Ends Answered fun _ log =>
      ∃ parts, List.Forall₂ (Notified T clock ev options now) (deliverable X options.smtp [channel]) parts ∧
        log = parts.flatten := by
  unfold deliverTo
  cases hnotifier : notifierFor X.parseConfig channel options.smtp with
  | none => exact ⟨[], by simp [deliverable, hnotifier], rfl⟩
  | some notifier =>
      have hdeliverable : deliverable X options.smtp [channel] = [(channel, notifier)] := by
        simp [deliverable, hnotifier]
      rw [hdeliverable]
      apply Prog.Ends.bind
      apply (sendWithRetry_ends hpolicy notifier).mono
      rintro result log ⟨sends, hround, rfl⟩
      intro answer _
      exact ⟨[_], .cons ⟨sends, result, answer, hround, rfl⟩ .nil, by simp⟩

theorem deliverAll_ends (hpolicy : options.retry.Representable) (channels : List Channel) :
    (deliverAll X T clock ev options now channels).Ends Answered fun _ log =>
      ∃ parts, List.Forall₂ (Notified T clock ev options now) (deliverable X options.smtp channels) parts ∧
        log = parts.flatten := by
  induction channels with
  | nil => exact ⟨[], .nil, rfl⟩
  | cons channel channels ih =>
      apply Prog.Ends.bind
      apply (deliverTo_ends hpolicy channel).mono
      rintro _ _ ⟨parts, hparts, rfl⟩
      apply ih.mono
      rintro _ _ ⟨others, hothers, rfl⟩
      refine ⟨parts ++ others, ?_, List.flatten_append.symm⟩
      have hsplit : deliverable X options.smtp (channel :: channels) =
          deliverable X options.smtp [channel] ++ deliverable X options.smtp channels :=
        List.filterMap_append (l := [channel])
      rw [hsplit]
      exact List.rel_append hparts hothers

theorem deliverEvent_ends (hpolicy : options.retry.Representable) :
    (deliverEvent X T clock ev options now).Ends Answered fun _ => Delivered T clock ev options now := by
  intro answer _
  cases answer with
  | error error => exact .unloaded error
  | ok channels =>
      apply (deliverAll_ends hpolicy channels).mono
      rintro _ _ ⟨parts, hparts, rfl⟩
      exact .loaded channels parts hparts

/-! ### The law -/

variable (X T clock) in
/-- The exchanges of a delivery task. That of a ping asks for the project and the timezone of its event first. -/
def TaskDelivered (smtp : Option SmtpConfig) (baseUrl : String) (started : Instant) :
    Spawned → List (DeliveryExchange T) → Prop
  | .event ev, log => Delivered T clock ev ⟨.default, smtp⟩ started log
  | .delivery delivery, log =>
      ∃ project zone rest,
        log = ⟨.inl (.findProject delivery.check.projectId), project⟩ ::
          ⟨.inl (.getSetting "display_timezone"), zone⟩ :: rest ∧
        Delivered T clock
          (delivery.notificationEvent (project.toOption.join.map Project.name) baseUrl
            ((zone.toOption.join.map trim).filter fun s => s ≠ ""))
          ⟨.default, smtp⟩ delivery.now rest

theorem deliveryTask_ends (smtp : Option SmtpConfig) (baseUrl : String) (started : Instant) (task : Spawned) :
    (deliveryTask X T clock smtp baseUrl started task).Ends Answered fun _ =>
      TaskDelivered X T clock smtp baseUrl started task := by
  have hpolicy : (⟨.default, smtp⟩ : DeliveryOptions).retry.Representable := RetryPolicy.default_representable
  cases task with
  | event ev => exact deliverEvent_ends hpolicy
  | delivery delivery =>
      intro project _ zone _
      apply (deliverEvent_ends hpolicy).mono
      intro _ rest hrest
      exact ⟨project, zone, rest, rfl, hrest⟩

variable {ι W : Type} [DecidableEq ι] {network : Network T W} {pool : ι → DeliveryProg T Unit}
  {allowed : Config ι (StoreCall ⊕ OutsideCall T) (PairRes (fun c => c.Res) OutsideCall.Res) StoreError Spawned StoreError Unit
    ((Db × W) × List (DeliveryExchange T)) → ι → Prop}
  {cfg : Config ι (StoreCall ⊕ OutsideCall T) (PairRes (fun c => c.Res) OutsideCall.Res) StoreError Spawned StoreError Unit
    ((Db × W) × List (DeliveryExchange T))}

/-- **The delivery law.** A delivery task among any other programs, over any network, neither fails nor panics. What it
has exchanged at any time is the beginning of a delivery, and once it is over it is one. -/
theorem delivery_law {smtp : Option SmtpConfig} {baseUrl : String} {started : Instant} {task : Spawned} {i : ι} {state : Db × W}
    (hreach : Reach (recording (execDelivery network)) allowed (Config.init pool (state, [])) cfg)
    (htask : pool i = deliveryTask X T clock smtp baseUrl started task) :
    ((∀ error, cfg.pool i ≠ .fail error) ∧ cfg.pool i ≠ .panic) ∧
      (∃ rest, TaskDelivered X T clock smtp baseUrl started task (cfg.exchanges i ++ rest)) ∧
      (cfg.pool i = .ret () → TaskDelivered X T clock smtp baseUrl started task (cfg.exchanges i)) := by
  have hends : (pool i).Ends Answered fun _ => TaskDelivered X T clock smtp baseUrl started task := by
    rw [htask]
    exact deliveryTask_ends smtp baseUrl started task
  have hleft := hends.reach (answered_execDelivery network) hreach
  refine ⟨⟨fun error hfail => ?_, fun hpanic => ?_⟩, ?_, fun hover => ?_⟩
  · rw [hfail] at hleft
    exact hleft
  · rw [hpanic] at hleft
    exact hleft
  · obtain ⟨_, rest, hrest⟩ := hleft.exists_log exists_answered
    exact ⟨rest, hrest⟩
  · rw [hover] at hleft
    simpa [Prog.Ends] using hleft

end Law

/-! ### A delivery -/

/-- A channel config is a URL. -/
def hookCrates : Crates :=
  { plainCrates with parseConfig := fun text => some fun key => if key = "url" then some text else none }

def hookClock : ZoneClock hookCrates := ⟨fun _ _ => 0, fun _ _ => "UTC"⟩

def Transports.plain : Transports where
  parseUrl url := if "https://".toList.isPrefixOf url.toList then .ok () else .error "builder error"
  headerValue text := if text.toList.any isControl then .error "builder error" else .ok ()
  statusText _ := "500 Internal Server Error"
  Mailbox := String
  Email := String
  parseMailbox text := .ok text
  buildMessage _ _ _ body := .ok body
  relay _ := .ok ()
  starttlsRelay _ := .ok ()

/-- The first request times out, the others are taken. The state counts the requests. -/
def Network.flaky : Network .plain Nat where
  post request n :=
    (if n = 0 then
      .error ⟨true, false, false, false, false, "error sending request for url (" ++ request.url ++ ")"⟩
    else .ok 200, n + 1)
  mail _ _ n := (.ok (), n)
  sleep _ n := n

/-- A webhook is bound to the check. -/
def Db.hooked : Db :=
  [StoreCall.createChannel ⟨1, .webhook, "ops", "https://hooks.test/ops"⟩ 0, .bindChannel 1 1].foldl
    (fun db c => (exec c db).2) .sample

/-- A delivery alone: the channels, an attempt, a pause, an attempt, the record. -/
theorem delivery_law_hooked :
    let task := deliveryTask hookCrates .plain hookClock none "" 0 (.event (.sample "backup"))
    ∃ cfg, Reach (recording (execDelivery Network.flaky)) (fun _ _ => True)
        (Config.init (fun _ : Unit => task) ((Db.hooked, 0), [])) cfg ∧
      cfg.pool () = .ret () ∧ (cfg.exchanges ()).length = 5 ∧
      TaskDelivered hookCrates .plain hookClock none "" 0 (.event (.sample "backup")) (cfg.exchanges ()) := by
  intro task
  obtain ⟨cfg, hreach, hfinal⟩ := exists_reach (recording (execDelivery Network.flaky))
    (fun _ _ _ => trivial : ∀ _ _, true = true → True) [(), (), (), (), ()]
    (show ((Config.init (fun _ : Unit => task) ((Db.hooked, 0), [])).advanceWhen (recording (execDelivery Network.flaky))
      (fun _ _ => true) [(), (), (), (), ()]).any (fun cfg => cfg.isFinished () && (cfg.exchanges ()).length == 5) = true by
        decide +kernel)
  rw [Bool.and_eq_true, beq_iff_eq] at hfinal
  obtain ⟨hsafe, -, hlog⟩ := delivery_law hreach rfl
  rcases Config.finished_of_isFinished hfinal.1 with ⟨value, hover⟩ | ⟨error, hfail⟩
  · exact ⟨cfg, hreach, hover, hfinal.2, hlog hover⟩
  · exact absurd hfail (hsafe.1 error)

end Pingward
