import Pingward.DeliveryLaw
import Pingward.ProgramInStep

/-! What a delivery writes down does not depend on the secrets of a channel, except whether a request can be built of them.
Two databases whose channels differ in nothing but the URLs, tokens and ids they send to are driven by the same
deliveries, over a network that answers alike, to the same history. The errors of the network may name the URL. -/

open KeyedTable StoreProgram

namespace Pingward

/-- A notifier without what its channel keeps for it. An email channel keeps a recipient. -/
def Notifier.shell : Notifier → Notifier
  | .webhook _ => .webhook ""
  | .telegram _ _ _ => .telegram "" "" ""
  | .slack _ => .slack ""
  | .ntfy _ _ _ => .ntfy "" "" none
  | .pushover _ _ _ => .pushover "" "" ""
  | .email smtp recipient => .email smtp recipient

/-- Where a notifier posts to. -/
def Notifier.url : Notifier → String
  | .webhook url => url
  | .telegram token _ baseUrl => baseUrl ++ "/bot" ++ token ++ "/sendMessage"
  | .slack url => url
  | .ntfy baseUrl topic _ => baseUrl ++ "/" ++ topic
  | .pushover _ _ baseUrl => baseUrl ++ "/1/messages.json"
  | .email _ _ => ""

def Notifier.bearer : Notifier → Option String
  | .ntfy _ _ token => token
  | _ => none

/-- What shows of a notifier: its shell, and whether the HTTP client takes its URL and its token. -/
structure NotifierFace where
  shell : Notifier
  urlTaken : Bool
  bearerTaken : Bool
  deriving DecidableEq

section Blind

variable {X : Crates} {T : Transports} {clock : ZoneClock X}

variable (T) in
def Notifier.face (notifier : Notifier) : NotifierFace :=
  ⟨notifier.shell, (T.parseUrl notifier.url).isOk,
    notifier.bearer.all fun token => (T.headerValue ("Bearer " ++ token)).isOk⟩

variable (X T) in
/-- A channel without its secrets. -/
def Channel.face (smtp : Option SmtpConfig) (channel : Channel) : Channel × Option NotifierFace :=
  ({ channel with configJson := "" }, (notifierFor X.parseConfig channel smtp).map (Notifier.face T))

theorem Channel.face_id {smtp : Option SmtpConfig} {channel channel' : Channel}
    (hface : channel.face X T smtp = channel'.face X T smtp) : channel.id = channel'.id :=
  congrArg (fun face => face.1.id) hface

variable (X T) in
/-- The two databases differ in the secrets of their channels only. -/
structure Db.SameFaces (smtp : Option SmtpConfig) (db db' : Db) : Prop where
  others : db' = { db with channels := db'.channels }
  channels : db.channels.rows.map (Channel.face X T smtp) = db'.channels.rows.map (Channel.face X T smtp)

/-- Failures that differ in nothing but their texts. -/
def TransportFailure.untold (e : TransportFailure) : TransportFailure := { e with text := "" }

theorem transportErr_untold (e : TransportFailure) : transportErr e.untold = transportErr e := rfl

/-- The same status, or failures that differ in their texts. -/
def AlikeAnswers (answer answer' : Except TransportFailure Nat) : Prop :=
  answer.mapError TransportFailure.untold = answer'.mapError TransportFailure.untold

theorem judgeAnswer_alike {answer answer' : Except TransportFailure Nat} (halike : AlikeAnswers answer answer') :
    judgeAnswer T answer = judgeAnswer T answer' := by
  cases answer with
  | error e =>
      cases answer' with
      | error e' =>
          have hsame : e.untold = e'.untold := Except.error.inj halike
          have herror : transportErr e = transportErr e' := by
            rw [← transportErr_untold e, hsame, transportErr_untold]
          exact congrArg Except.error herror
      | ok status' => cases halike
  | ok status =>
      cases answer' with
      | error e' => cases halike
      | ok status' =>
          have hsame : status = status' := Except.ok.inj halike
          rw [hsame]

/-- Of the requests that can be built, the answer does not depend on the request but for the text of a failure. -/
def Network.Blind {W : Type} (network : Network T W) : Prop :=
  ∀ request request' world, request.build T = .ok () → request'.build T = .ok () →
    AlikeAnswers (network.post request world).1 (network.post request' world).1 ∧
      (network.post request world).2 = (network.post request' world).2

/-! ### Requests that can be built -/

theorem forM_isOk {α ε : Type} (f : α → Except ε Unit) (l : List α) : (l.forM f).isOk = l.all fun a => (f a).isOk := by
  induction l with
  | nil => rfl
  | cons a l ih =>
      change (f a >>= fun _ => l.forM f).isOk = _
      rw [List.all_cons, ← ih]
      cases f a <;> rfl

theorem PostRequest.build_isOk (request : PostRequest) : (request.build T).isOk =
    ((T.parseUrl request.url).isOk && ((request.headers.all fun header => (T.headerValue header.2).isOk) &&
      request.bearer.all fun token => (T.headerValue ("Bearer " ++ token)).isOk)) := by
  rw [← forM_isOk]
  unfold PostRequest.build
  cases T.parseUrl request.url with
  | error text => rfl
  | ok _ =>
      cases request.headers.forM fun header => T.headerValue header.2 with
      | error text => rfl
      | ok _ => cases request.bearer <;> rfl

/-! ### Programs in step -/

/-- The calls of a delivery, two requests being alike that can be built. -/
inductive DeliveryCalls :
    StoreCall ⊕ OutsideCall T → StoreCall ⊕ OutsideCall T → Prop where
  | project (id : Int) : DeliveryCalls (.inl (.findProject id)) (.inl (.findProject id))
  | setting (key : String) : DeliveryCalls (.inl (.getSetting key)) (.inl (.getSetting key))
  | channels (checkId : Int) : DeliveryCalls (.inl (.channelsForCheck checkId)) (.inl (.channelsForCheck checkId))
  | record (row : NewNotification) (now : Instant) :
      DeliveryCalls (.inl (.recordNotification row now)) (.inl (.recordNotification row now))
  | post {request request' : PostRequest} (hbuilt : request.build T = .ok ()) (hbuilt' : request'.build T = .ok ()) :
      DeliveryCalls (.inr (.post request)) (.inr (.post request'))
  | mail (transport : SmtpTransport) (message : T.Email) :
      DeliveryCalls (.inr (.mail transport message)) (.inr (.mail transport message))
  | sleep (nanos : Nat) : DeliveryCalls (.inr (.sleep nanos)) (.inr (.sleep nanos))

variable (X T) in
/-- The answers are the same, or channels of the same faces, or alike. -/
inductive DeliveryAnswers (smtp : Option SmtpConfig) :
    (c d : StoreCall ⊕ OutsideCall T) → Except StoreError (PairRes (fun c => c.Res) OutsideCall.Res c) →
      Except StoreError (PairRes (fun c => c.Res) OutsideCall.Res d) → Prop where
  | same (c : StoreCall ⊕ OutsideCall T) (answer : Except StoreError (PairRes (fun c => c.Res) OutsideCall.Res c)) :
      DeliveryAnswers smtp c c answer answer
  | channels (checkId : Int) {rows rows' : List Channel}
      (hfaces : rows.map (Channel.face X T smtp) = rows'.map (Channel.face X T smtp)) :
      DeliveryAnswers smtp (.inl (.channelsForCheck checkId)) (.inl (.channelsForCheck checkId)) (.ok rows) (.ok rows')
  | post (request request' : PostRequest) {answer answer' : Except TransportFailure Nat}
      (halike : AlikeAnswers answer answer') :
      DeliveryAnswers smtp (.inr (.post request)) (.inr (.post request')) (.ok answer) (.ok answer')

variable (X T) in
def deliveryLikeness (smtp : Option SmtpConfig) :
    Likeness (StoreCall ⊕ OutsideCall T) (PairRes (fun c => c.Res) OutsideCall.Res) StoreError :=
  ⟨DeliveryCalls, DeliveryAnswers X T smtp⟩

variable {smtp : Option SmtpConfig} {ev : NotificationEvent} {options : DeliveryOptions} {now : Instant}

/-- A delivery that goes on alike. -/
abbrev DeliveryInStep (X : Crates) {T : Transports} (smtp : Option SmtpConfig) {α : Type} (program other : DeliveryProg T α) :
    Prop :=
  Prog.InStep (deliveryLikeness X T smtp) Eq program other

theorem postRequest_inStep {request request' : PostRequest}
    (hbuild : (request.build T).isOk = (request'.build T).isOk) :
    DeliveryInStep X smtp (postRequest T request) (postRequest T request') := by
  unfold postRequest
  cases hfirst : request.build T with
  | error text =>
      cases hsecond : request'.build T with
      | error text' => exact .ret rfl
      | ok _ =>
          rw [hfirst, hsecond] at hbuild
          cases hbuild
  | ok _ =>
      cases hsecond : request'.build T with
      | error text' =>
          rw [hfirst, hsecond] at hbuild
          cases hbuild
      | ok _ =>
          refine .call (.post hfirst hsecond) fun answer answer' hlike => ?_
          cases hlike with
          | same =>
              cases answer with
              | error error => exact .fail error
              | ok answer => exact .ret rfl
          | post _ _ halike => exact .ret (judgeAnswer_alike halike)

/-- Requests of the same headers, to a URL and with a token that are both taken or both refused. -/
theorem build_isOk_congr {request request' : PostRequest} (hheaders : request.headers = request'.headers)
    (hurl : (T.parseUrl request.url).isOk = (T.parseUrl request'.url).isOk)
    (hbearer : (request.bearer.all fun token => (T.headerValue ("Bearer " ++ token)).isOk) =
      request'.bearer.all fun token => (T.headerValue ("Bearer " ++ token)).isOk) :
    (request.build T).isOk = (request'.build T).isOk := by
  rw [PostRequest.build_isOk, PostRequest.build_isOk, hheaders, hurl, hbearer]

theorem send_inStep {notifier notifier' : Notifier} (hface : notifier.face T = notifier'.face T) :
    DeliveryInStep X smtp (notifier.send T clock ev) (notifier'.send T clock ev) := by
  rw [Notifier.face, Notifier.face, NotifierFace.mk.injEq] at hface
  obtain ⟨hshell, hurl, hbearer⟩ := hface
  cases notifier <;> cases notifier' <;> simp only [Notifier.shell, reduceCtorEq] at hshell
  case email.email =>
    obtain ⟨rfl, rfl⟩ := Notifier.email.inj hshell
    unfold Notifier.send
    dsimp only
    split
    · exact .ret rfl
    · refine .call (.mail _ _) fun answer answer' hlike => ?_
      obtain rfl : answer = answer' := by cases hlike; rfl
      cases answer with
      | error error => exact .fail error
      | ok answer => exact .ret rfl
  all_goals exact postRequest_inStep (build_isOk_congr rfl hurl hbearer)

theorem backOff_inStep (policy : RetryPolicy) (attempt : Nat) :
    DeliveryInStep X smtp (backOff T policy attempt) (backOff T policy attempt) := by
  unfold backOff
  split
  · split
    · refine .call (.sleep _) fun answer answer' hlike => ?_
      obtain rfl : answer = answer' := by cases hlike; rfl
      cases answer with
      | error error => exact .fail error
      | ok answer => exact .ret rfl
    · exact .panic
  · exact .ret rfl

theorem sendAttempts_inStep {notifier notifier' : Notifier} (hface : notifier.face T = notifier'.face T) (policy : RetryPolicy)
    (attempts : List Nat) (last : NotifyError) :
    DeliveryInStep X smtp (sendAttempts X T clock notifier ev policy attempts last)
      (sendAttempts X T clock notifier' ev policy attempts last) := by
  induction attempts generalizing last with
  | nil => exact .ret rfl
  | cons attempt attempts ih =>
      apply (send_inStep hface).bind
      rintro sent _ rfl
      cases sent with
      | ok value => exact .ret rfl
      | error error => exact (backOff_inStep policy attempt).bind fun _ _ _ => ih error

theorem deliverTo_inStep {channel channel' : Channel}
    (hface : channel.face X T options.smtp = channel'.face X T options.smtp) :
    DeliveryInStep X options.smtp (deliverTo X T clock ev options now channel)
      (deliverTo X T clock ev options now channel') := by
  have hid := Channel.face_id hface
  have hnotifiers : (notifierFor X.parseConfig channel options.smtp).map (Notifier.face T) =
      (notifierFor X.parseConfig channel' options.smtp).map (Notifier.face T) := congrArg Prod.snd hface
  unfold deliverTo
  rw [hid]
  cases hnotifier : notifierFor X.parseConfig channel options.smtp with
  | none =>
      rw [hnotifier, Option.map_none, eq_comm, Option.map_eq_none_iff] at hnotifiers
      rw [hnotifiers]
      exact .ret rfl
  | some notifier =>
      rw [hnotifier, Option.map_some, eq_comm, Option.map_eq_some_iff] at hnotifiers
      obtain ⟨notifier', hnotifier', hsame⟩ := hnotifiers
      rw [hnotifier']
      apply (sendAttempts_inStep hsame.symm _ _ _).bind
      rintro sent _ rfl
      exact .call (.record _ _) fun _ _ _ => .ret rfl

theorem deliverAll_inStep {channels channels' : List Channel}
    (hfaces : channels.map (Channel.face X T options.smtp) = channels'.map (Channel.face X T options.smtp)) :
    DeliveryInStep X options.smtp (deliverAll X T clock ev options now channels)
      (deliverAll X T clock ev options now channels') := by
  induction channels generalizing channels' with
  | nil =>
      obtain rfl : channels' = [] := List.map_eq_nil_iff.mp hfaces.symm
      exact .ret rfl
  | cons channel channels ih =>
      cases channels' with
      | nil => cases hfaces
      | cons channel' channels' =>
          rw [List.map_cons, List.map_cons, List.cons.injEq] at hfaces
          exact (deliverTo_inStep hfaces.1).bind fun _ _ _ => ih hfaces.2

theorem deliverEvent_inStep (options : DeliveryOptions) :
    DeliveryInStep X options.smtp (deliverEvent X T clock ev options now) (deliverEvent X T clock ev options now) := by
  refine .call (.channels ev.checkId) fun answer answer' hlike => ?_
  cases hlike with
  | same =>
      cases answer with
      | error error => exact .ret rfl
      | ok rows => exact deliverAll_inStep rfl
  | channels _ hfaces => exact deliverAll_inStep hfaces

theorem deliveryTask_inStep (baseUrl : String) (started : Instant) (task : Spawned) :
    DeliveryInStep X smtp (deliveryTask X T clock smtp baseUrl started task)
      (deliveryTask X T clock smtp baseUrl started task) := by
  cases task with
  | event ev => exact deliverEvent_inStep ⟨.default, smtp⟩
  | delivery delivery =>
      refine .call (.project _) fun project project' hlike => ?_
      obtain rfl : project = project' := by cases hlike; rfl
      refine .call (.setting _) fun zone zone' hlike => ?_
      obtain rfl : zone = zone' := by cases hlike; rfl
      exact deliverEvent_inStep ⟨.default, smtp⟩

/-! ### Stores of the same faces -/

section Stores

variable {db db' : Db} (hfaces : Db.SameFaces X T smtp db db')

include hfaces

theorem Db.SameFaces.channelsForCheck (checkId : Int) :
    (db.channelsForCheck checkId).map (Channel.face X T smtp) = (db'.channelsForCheck checkId).map (Channel.face X T smtp) := by
  have hshown (db : Db) : (db.channelsForCheck checkId).map (Channel.face X T smtp) =
      ((db.channels.rows.map (Channel.face X T smtp)).filter fun face =>
        db.checkChannels.rows.contains ⟨checkId, face.1.id⟩).mergeSort fun a b => decide (a.1.id ≤ b.1.id) := by
    rw [List.filter_map]
    exact List.map_mergeSort fun _ _ _ _ => rfl
  have hbindings : db'.checkChannels = db.checkChannels := by rw [hfaces.others]
  rw [hshown, hshown, hbindings, hfaces.channels]

theorem Db.SameFaces.noChannel (id : Int) : (db.channels.find id).isNone = (db'.channels.find id).isNone := by
  have hnone (db : Db) : (db.channels.find id).isNone = true ↔
      ∀ face ∈ db.channels.rows.map (Channel.face X T smtp), face.1.id ≠ id := by
    rw [Option.isNone_iff_eq_none, Table.find_eq_none_iff]
    simp [Channel.face]
  rw [Bool.eq_iff_iff, hnone, hnone, hfaces.channels]

theorem Db.SameFaces.recordNotification (row : NewNotification) (now : Instant) :
    (exec (.recordNotification row now) db).1 = (exec (.recordNotification row now) db').1 ∧
      Db.SameFaces X T smtp (exec (.recordNotification row now) db).2 (exec (.recordNotification row now) db').2 := by
  have hchecks : db'.checks = db.checks := by rw [hfaces.others]
  have hchannel := hfaces.noChannel row.channelId
  simp only [exec, Db.recordNotification, hchecks, ← hchannel]
  split
  · exact ⟨rfl, hfaces⟩
  · refine ⟨rfl, ?_, hfaces.channels⟩
    have hothers := hfaces.others
    rw [hothers]
    rfl

end Stores

/-- The two sides of a comparison: databases of the same faces, and one network. -/
def SameSides (X : Crates) (T : Transports) (smtp : Option SmtpConfig) {W : Type} (state state' : Db × W) : Prop :=
  Db.SameFaces X T smtp state.1 state'.1 ∧ state.2 = state'.2

theorem execDelivery_same {W : Type} {network : Network T W} (hblind : network.Blind) {c d : StoreCall ⊕ OutsideCall T}
    {state state' : Db × W} (hcalls : DeliveryCalls c d) (hsame : SameSides X T smtp state state') :
    DeliveryAnswers X T smtp c d (execDelivery network c state).1 (execDelivery network d state').1 ∧
      SameSides X T smtp (execDelivery network c state).2 (execDelivery network d state').2 := by
  obtain ⟨db, world⟩ := state
  obtain ⟨db', world'⟩ := state'
  have hfaces : Db.SameFaces X T smtp db db' := hsame.1
  obtain rfl : world = world' := hsame.2
  cases hcalls with
  | project id =>
      have hprojects : db'.projects = db.projects := by rw [hfaces.others]
      refine ⟨?_, hfaces, rfl⟩
      simp only [execDelivery, exec, Db.findProject, hprojects]
      exact .same _ _
  | setting key =>
      have hsettings : db'.settings = db.settings := by rw [hfaces.others]
      refine ⟨?_, hfaces, rfl⟩
      simp only [execDelivery, exec, Db.getSetting, hsettings]
      exact .same _ _
  | channels checkId => exact ⟨.channels checkId (hfaces.channelsForCheck checkId), hfaces, rfl⟩
  | record row now =>
      obtain ⟨hanswer, hafter⟩ := hfaces.recordNotification row now
      refine ⟨?_, hafter, rfl⟩
      simp only [execDelivery, hanswer]
      exact .same _ _
  | @post request request' hbuilt hbuilt' =>
      obtain ⟨halike, hworld⟩ := hblind request request' world hbuilt hbuilt'
      exact ⟨.post request request' halike, hfaces, hworld⟩
  | mail transport message => exact ⟨.same _ _, hfaces, rfl⟩
  | sleep nanos => exact ⟨.same _ _, hfaces, rfl⟩

theorem deliveryTask_same {W : Type} {network : Network T W} (hblind : network.Blind) (baseUrl : String) (started : Instant)
    (task : Spawned) {state state' : Db × W} (hsame : SameSides X T smtp state state') :
    SameSides X T smtp (run (execDelivery network) (deliveryTask X T clock smtp baseUrl started task) state).state
      (run (execDelivery network) (deliveryTask X T clock smtp baseUrl started task) state').state := by
  refine Prog.InStep.run_same ?_ (deliveryTask_inStep baseUrl started task) hsame
  intro c d before before' hcalls hbefore
  exact execDelivery_same hblind hcalls hbefore

/-! ### The law -/

/-- Delivery tasks one after another, each with the time it starts at. -/
def afterTasks (X : Crates) (T : Transports) (clock : ZoneClock X) {W : Type} (network : Network T W)
    (smtp : Option SmtpConfig) (baseUrl : String) (tasks : List (Instant × Spawned)) (state : Db × W) : Db × W :=
  tasks.foldl (fun state task =>
    (run (execDelivery network) (deliveryTask X T clock smtp baseUrl task.1 task.2) state).state) state

/-- **The history tells nothing of the secrets.** After the same deliveries over a network whose answers do not depend on
the requests it can be sent, but for the texts of failures, two databases that differ in the secrets of their channels
have the same notifications. -/
theorem history_blind {W : Type} {network : Network T W} (hblind : network.Blind) (clock : ZoneClock X) {db db' : Db}
    (hfaces : Db.SameFaces X T smtp db db') (baseUrl : String) (tasks : List (Instant × Spawned)) (world : W) :
    (afterTasks X T clock network smtp baseUrl tasks (db, world)).1.notifications =
        (afterTasks X T clock network smtp baseUrl tasks (db', world)).1.notifications ∧
      (afterTasks X T clock network smtp baseUrl tasks (db, world)).2 =
        (afterTasks X T clock network smtp baseUrl tasks (db', world)).2 := by
  have hsame : ∀ state state', SameSides X T smtp state state' →
      SameSides X T smtp (afterTasks X T clock network smtp baseUrl tasks state)
        (afterTasks X T clock network smtp baseUrl tasks state') := by
    induction tasks with
    | nil => exact fun _ _ h => h
    | cons task tasks ih =>
        intro state state' h
        exact ih _ _ (deliveryTask_same hblind baseUrl task.1 task.2 h)
  obtain ⟨hend, hworld⟩ := hsame (db, world) (db', world) ⟨hfaces, rfl⟩
  refine ⟨?_, hworld⟩
  rw [hend.others]

end Blind

/-- The webhook has moved, and its first request fails as before, with another text. -/
theorem history_blind_moved :
    Network.flaky.Blind ∧
      (afterTasks hookCrates .plain hookClock Network.flaky none "" [(0, .event (.sample "backup"))]
          (Db.hooked, 0)).1.notifications =
        (afterTasks hookCrates .plain hookClock Network.flaky none "" [(0, .event (.sample "backup"))]
          ((exec (.updateChannel 1 "ops" "https://hooks.test/moved") Db.hooked).2, 0)).1.notifications := by
  have hblind : Network.flaky.Blind := by
    intro request request' n _ _
    unfold Network.flaky AlikeAnswers
    dsimp only
    split <;> exact ⟨rfl, rfl⟩
  have hfaces : Db.SameFaces hookCrates .plain none Db.hooked
      (exec (.updateChannel 1 "ops" "https://hooks.test/moved") Db.hooked).2 := ⟨rfl, by decide +kernel⟩
  exact ⟨hblind, (history_blind hblind hookClock hfaces "" [(0, .event (.sample "backup"))] 0).1⟩

end Pingward
