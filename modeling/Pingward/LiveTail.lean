import Pingward.FrameCalls
import Pingward.InterleaveBindings
import Pingward.ModelLive
import Pingward.ProgramInterleave
import Pingward.RowPing

/-! The live tail loses no refresh. Whatever the bus drops and however the requests interleave: a ping recorded while a
stream of its check is open is followed by a message on the stream, before the stream waits again with nothing left for it
on the bus and no ping of its check between its row and its signal. -/

open Broadcast KeyedTable StoreProgram

namespace Pingward

/-! ### The pings of a check -/

/-- The pings of a check. -/
def Db.pingsOf (db : Db) (checkId : Int) : List Ping := db.pings.rows.filter fun row => row.checkId = checkId

section Pings

variable {checkId : Int} {db : Db} {c : StoreCall}

/-- A ping of another check is not among them. -/
theorem pingsOf_insertPing {ping : NewPing} {now : Instant} (hother : ping.checkId ≠ checkId) :
    (exec (.insertPing ping now) db).2.pingsOf checkId = db.pingsOf checkId := by
  simp only [exec, Db.insertPing]
  split
  · rfl
  · simp [commit, Db.pingsOf, hother]

theorem exec_insertPing_cases (db : Db) (ping : NewPing) (now : Instant) :
    (∃ error, exec (.insertPing ping now) db = (.error error, db)) ∨ ∃ db', exec (.insertPing ping now) db = (.ok (), db') := by
  simp only [exec, Db.insertPing]
  split
  · exact .inl ⟨_, rfl⟩
  · exact .inr ⟨_, rfl⟩

theorem pingsOf_of_not_writes (hwrites : .pings ∉ c.writes) : (exec c db).2.pingsOf checkId = db.pingsOf checkId := by
  have hpings : (exec c db).2.pings = db.pings := exec_frame (t := .pings) hwrites db
  rw [Db.pingsOf, hpings, Db.pingsOf]

end Pings

/-! ### Beside the bus -/

section Forget

variable {W : Type} (answer : (c : LiveCall W) → c.Res)

theorem publish_forget {A : Type} (checkId : Int) :
    (publish checkId : LiveProg W A Unit).forget answer = .ret () := by
  show (signal checkId (answer .receiverCount) : LiveProg W A Unit).forget answer = .ret ()
  unfold signal
  split <;> rfl

/-- Without the bus, a ping is what it was. -/
theorem applyLive_forget (X : Crates) (ping : PingRequest) (now : Instant) :
    (applyLive X ping now : LiveProg W AppError Unit).forget answer = apply X ping now := by
  unfold applyLive apply
  simp only [Prog.bind_eq, Prog.forget_bind, Prog.forget_lift, publish_forget, Prog.ret_bind, Prog.pure_eq]

/-- Without the bus, so is a scan pass. -/
theorem scanPassLive_forget (X : Crates) (now : Instant) (baseUrl : String) :
    (scanPassLive X now baseUrl : LiveProg W StoreError Unit).forget answer = scanPass X now baseUrl := by
  have hall : ∀ ids : List Int, (publishAll ids : LiveProg W StoreError Unit).forget answer = .ret () := by
    intro ids
    induction ids with
    | nil => rfl
    | cons checkId ids ih =>
        rw [publishAll, Prog.bind_eq, Prog.forget_bind, publish_forget, Prog.ret_bind, ih]
  have htell : ∀ events : List Spawned,
      (Prog.tellAll events : LiveProg W StoreError Unit).forget answer = Prog.tellAll events := by
    intro events
    induction events with
    | nil => rfl
    | cons event events ih => exact congrArg (Prog.emit event) ih
  unfold scanPassLive scanPass
  simp only [Prog.bind_eq, Prog.forget_bind, Prog.forget_lift, hall, htell, Prog.ret_bind]

end Forget

/-! ### Signals that are due -/

section Tasks

variable {ι : Type}

abbrev LiveTask (ι : Type) := LiveProg ι Unit Unit

/-- A task that has recorded a ping of the check and is yet to signal it. -/
inductive Owing (checkId : Int) : LiveTask ι → Prop where
  | counting (next : Except StoreError Nat → LiveTask ι)
      (hnext : ∀ count, 0 < count → ∃ rest, next (.ok count) = .call (.inr (.send checkId)) rest) :
      Owing checkId (.call (.inr .receiverCount) next)
  | sending (rest : Except StoreError Unit → LiveTask ι) : Owing checkId (.call (.inr (.send checkId)) rest)

/-- A ping that is recorded is signalled next, and a stream listens and speaks for itself. -/
def Polite (i : ι) : (c : StoreCall ⊕ LiveCall ι) →
    (Except StoreError (PairRes StoreCall.Res LiveCall.Res c) → LiveTask ι) → Prop
  | .inl (.insertPing ping _), next => Owing ping.checkId (next (.ok ()))
  | .inl c, _ => .pings ∉ c.writes
  | .inr (.subscribe stream), _ | .inr (.leave stream), _ | .inr (.receive stream), _ | .inr (.announce stream), _ =>
      stream = i
  | .inr .receiverCount, _ | .inr (.send _), _ => True

section Polite

variable {W A α : Type} {i : ι}

/-- The erased program is polite. -/
abbrev PoliteTask (i : ι) (program : LiveProg ι A α) : Prop := program.erase.AtCalls (Polite i)

theorem polite_of_not_writes {c : StoreCall}
    {next : Except StoreError c.Res → LiveTask ι} (hwrites : .pings ∉ c.writes) : Polite i (.inl c) next := by
  cases c with
  | insertPing ping now => exact absurd (List.mem_singleton.mpr rfl) hwrites
  | _ => exact hwrites

theorem lift_bind_polite {β : Type} {program : StoreProg A α} {rest : α → LiveProg ι A β}
    (honly : program.Only (fun c => .pings ∉ c.writes) fun _ => True) (hrest : ∀ value, PoliteTask i (rest value)) :
    PoliteTask i (program.lift.bind rest) := by
  induction program with
  | ret value => exact hrest value
  | fail error => trivial
  | panic => trivial
  | emit event next ih => exact ih honly.2
  | call c next ih => exact ⟨polite_of_not_writes honly.1, fun answer => ih answer (honly.2 answer)⟩

theorem lift_polite {program : StoreProg A α} (honly : program.Only (fun c => .pings ∉ c.writes) fun _ => True) :
    PoliteTask i (program.lift : LiveProg ι A α) := by
  have hbind : PoliteTask i ((program.lift : LiveProg ι A α).bind .ret) := lift_bind_polite honly fun _ => trivial
  rwa [Prog.bind_ret] at hbind

theorem publish_bind_polite {β : Type} {checkId : Int} {rest : Unit → LiveProg ι A β} (hrest : PoliteTask i (rest ())) :
    PoliteTask i ((publish checkId).bind rest) := by
  refine ⟨trivial, fun answer => ?_⟩
  cases answer with
  | error error => exact hrest
  | ok receivers =>
      show PoliteTask i ((signal checkId receivers).bind rest)
      unfold signal
      split
      · exact ⟨trivial, fun _ => hrest⟩
      · exact hrest

theorem publishAll_bind_polite {β : Type} {ids : List Int} {rest : Unit → LiveProg ι A β} (hrest : PoliteTask i (rest ())) :
    PoliteTask i ((publishAll ids).bind rest) := by
  induction ids with
  | nil => exact hrest
  | cons checkId ids ih =>
      have hall : PoliteTask i ((publish checkId).bind fun _ => (publishAll ids).bind rest) := publish_bind_polite ih
      rwa [← Prog.bind_assoc] at hall

theorem owing_publish {β : Type} {checkId : Int} {rest : Unit → LiveProg ι A β} :
    Owing checkId ((publish checkId).bind rest).erase := by
  refine .counting _ fun receivers hreceivers => ?_
  show ∃ next, ((signal checkId receivers).bind rest).erase = .call (.inr (.send checkId)) next
  rw [signal, if_pos hreceivers]
  exact ⟨_, rfl⟩

theorem applyLive_polite (X : Crates) (ping : PingRequest) (now : Instant) :
    PoliteTask i (applyLive X ping now : LiveProg ι AppError Unit) := by
  refine lift_bind_polite ?_ fun check => ⟨owing_publish, fun answer => ?_⟩
  · refine Prog.Only.bind (store_only (by simp [StoreCall.writes])) fun found => ?_
    cases found <;> trivial
  · cases answer with
    | error error => trivial
    | ok value =>
        refine publish_bind_polite (lift_polite ?_)
        split
        · trivial
        · exact applyKind_only X check _ _ now (fun _ _ => by simp [StoreCall.writes]) (by simp [StoreCall.writes])
            (by simp [StoreCall.writes])

theorem scanPassLive_polite (X : Crates) (now : Instant) (baseUrl : String) :
    PoliteTask i (scanPassLive X now baseUrl : LiveProg ι StoreError Unit) := by
  refine lift_bind_polite ?_ fun events => publishAll_bind_polite ?_
  · refine (query_only (by simp [StoreCall.writes])).bind fun names => ?_
    refine (displayTimezone_only (by simp [StoreCall.writes])).bind fun tz => ?_
    refine (query_only (by simp [StoreCall.writes])).bind fun checks => ?_
    exact forChecks_only (fun check => scanCheck_only X now baseUrl names tz check (by simp [StoreCall.writes])
      (by simp [StoreCall.writes])) checks
  · induction events with
    | nil => trivial
    | cons event events ih => exact ih

theorem sseForCheck_polite (checkId : Int) (polls : Nat) : PoliteTask i (sseForCheck i checkId polls) := by
  induction polls with
  | zero => exact ⟨rfl, fun _ => trivial⟩
  | succ polls ih =>
      refine ⟨rfl, fun answer => ?_⟩
      cases answer with
      | error error => exact ih
      | ok item =>
          show PoliteTask i (if changed checkId item then (beside (.announce i)).bind fun _ => sseForCheck i checkId polls
            else sseForCheck i checkId polls)
          split
          · exact ⟨rfl, fun _ => ih⟩
          · exact ih

theorem streamAnswer_polite (polls : Nat) (response : Response) : PoliteTask i (streamAnswer i polls response) := by
  cases response with
  | stream checkId => exact ⟨rfl, fun _ => sseForCheck_polite checkId polls⟩
  | page page isAdmin csrf => trivial
  | redirect location flash => trivial
  | status code body => trivial
  | throttled retryAfterSecs page => trivial

theorem ownedCheck_calm (id userId : Int) :
    (ownedCheck id userId).Only (fun c => .pings ∉ c.writes) fun _ => True := by
  refine (store_only (by simp [StoreCall.writes])).bind fun found => ?_
  split
  · trivial
  · refine Prog.Only.bind ((store_only (by simp [StoreCall.writes])).bind fun project => ?_) fun _ => trivial
    split
    · trivial
    · split <;> trivial

theorem adminCheck_calm (ctx : WebContext) (user : User) (method : String) (id : Int) :
    (adminCheck ctx user method id).Only (fun c => .pings ∉ c.writes) fun _ => True := by
  refine (store_only (by simp [StoreCall.writes])).bind fun found => ?_
  split
  · trivial
  · refine (store_only (by simp [StoreCall.writes])).bind fun project => ?_
    exact (auditAccess_only fun _ => by simp [StoreCall.writes]).bind fun _ => trivial

/-- A request for a stream writes no pings. -/
theorem checkEvents_only (X : Crates) (ctx : WebContext) (underAdmin : Bool) (id : Int) :
    (if underAdmin then adminRequest X ctx (.checkEvents id) else webRequest X ctx (.checkEvents id)).Only
      (fun c => .pings ∉ c.writes) fun _ => True := by
  have hauth {c : StoreCall} (hcall : AuthCall ctx c) : .pings ∉ c.writes := by
    cases hcall <;> simp [StoreCall.writes]
  have hsession : (requestSession ctx).Only (fun c => .pings ∉ c.writes) fun _ => True :=
    (requestSession_only ctx).mono (fun _ => hauth) fun _ _ => trivial
  have huser (sid : String) : (resolveUser ctx sid).Only (fun c => .pings ∉ c.writes) fun _ => True :=
    (resolveUser_only ctx sid).mono (fun _ => hauth) fun _ _ => trivial
  split
  · refine hsession.bind fun sid => ?_
    split
    · trivial
    · refine (huser sid).bind fun found => ?_
      split
      · trivial
      · split
        · exact (adminCheck_calm ctx _ "GET" id).bind fun _ => trivial
        · trivial
  · refine hsession.bind fun sid => ?_
    split
    · trivial
    · refine (huser sid).bind fun found => ?_
      split
      · exact (ownedCheck_calm id _).bind fun _ => trivial
      · trivial

end Polite

end Tasks

/-! ### Steps -/

section Steps

variable {ι B : Type} [DecidableEq ι] {bus : Bus ι Int B} {stream j : ι} {checkId : Int}

abbrev LiveConfig (ι B : Type) :=
  Config ι (StoreCall ⊕ LiveCall ι) (PairRes StoreCall.Res LiveCall.Res) StoreError Spawned Unit Unit (LiveState ι B)

/-- A signal for the stream is to come: a task is about to send it, or the bus still has it. -/
def SignalDue (bus : Bus ι Int B) (stream : ι) (checkId : Int) (cfg : LiveConfig ι B) : Prop :=
  (∃ i, Owing checkId (cfg.pool i)) ∨ bus.Owes cfg.state.bus stream checkId

variable {cfg cfg' : LiveConfig ι B}

/-- What another task does beside the database takes nothing from the stream. -/
theorem bus_step {c : StoreCall ⊕ LiveCall ι} {next : Except StoreError (PairRes StoreCall.Res LiveCall.Res c) → LiveTask ι}
    {state : LiveState ι B} (hne : j ≠ stream) (hpolite : Polite j c next) (hlistens : bus.Listens state.bus stream) :
    bus.Listens (execLive bus c state).2.bus stream ∧
      ∀ value, bus.Owes state.bus stream value → bus.Owes (execLive bus c state).2.bus stream value := by
  have hsame : bus.Listens state.bus stream ∧ ∀ value, bus.Owes state.bus stream value → bus.Owes state.bus stream value :=
    ⟨hlistens, fun _ howes => howes⟩
  cases c with
  | inl c => exact hsame
  | inr c =>
      cases c with
      | receiverCount => exact hsame
      | send sent =>
          obtain ⟨hafter, -, howes⟩ := bus.send_listens state.bus stream sent hlistens
          exact ⟨hafter, howes⟩
      | subscribe other =>
          obtain rfl : other = j := hpolite
          exact bus.subscribe_of_ne state.bus other stream hne.symm hlistens
      | leave other =>
          obtain rfl : other = j := hpolite
          exact bus.leave_of_ne state.bus other stream hne.symm hlistens
      | receive other =>
          obtain rfl : other = j := hpolite
          exact bus.receive_of_ne state.bus other stream hne.symm hlistens
      | announce other => exact hsame

/-- A signal that is due stays due, as long as the stream does not receive. -/
theorem signalDue_step (hne : j ≠ stream) (hpolite : (cfg.pool j).AtCalls (Polite j))
    (hlistens : bus.Listens cfg.state.bus stream) (hstep : cfg.advance (execLive bus) j = some cfg')
    (hdue : SignalDue bus stream checkId cfg) : SignalDue bus stream checkId cfg' := by
  rcases Config.advance_cases _ hstep with ⟨event, next, hpool, rfl⟩ | ⟨c, next, hpool, rfl⟩
  · refine hdue.imp_left fun ⟨i, howing⟩ => ⟨i, ?_⟩
    have hi : i ≠ j := by
      rintro rfl
      rw [hpool] at howing
      cases howing
    exact (congrArg (Owing checkId) (Function.update_of_ne hi next cfg.pool)).mpr howing
  · rw [hpool] at hpolite
    obtain ⟨hafter, hkept⟩ := bus_step hne hpolite.1 hlistens
    rcases hdue with ⟨i, howing⟩ | howes
    · by_cases hi : i = j
      · subst hi
        rw [hpool] at howing
        cases howing with
        | counting next hnext =>
            -- the stream itself is one of the receivers that are counted
            obtain ⟨rest, hrest⟩ := hnext _ (bus.receivers_pos _ _ hlistens)
            refine .inl ⟨i, ?_⟩
            have hself : Function.update cfg.pool i (next (.ok (bus.receivers cfg.state.bus))) i =
                .call (.inr (.send checkId)) rest := by rw [Function.update_self, hrest]
            exact (congrArg (Owing checkId) hself).mpr (.sending rest)
        | sending rest => exact .inr (bus.send_listens _ _ checkId hlistens).2.1
      · exact .inl ⟨i, (congrArg (Owing checkId) (Function.update_of_ne hi _ cfg.pool)).mpr howing⟩
    · exact .inr (hkept checkId howes)

/-- Another task leaves the pings of the check as they are, or owes the signal for a new one. -/
theorem pingsOf_step (hpolite : (cfg.pool j).AtCalls (Polite j)) (hstep : cfg.advance (execLive bus) j = some cfg') :
    cfg'.state.db.pingsOf checkId = cfg.state.db.pingsOf checkId ∨ SignalDue bus stream checkId cfg' := by
  rcases Config.advance_cases _ hstep with ⟨event, next, hpool, rfl⟩ | ⟨c, next, hpool, rfl⟩
  · exact .inl rfl
  · rw [hpool] at hpolite
    cases c with
    | inr c => cases c <;> exact .inl rfl
    | inl c =>
        cases c
        case insertPing ping now =>
            by_cases hcheck : ping.checkId = checkId
            · subst hcheck
              rcases exec_insertPing_cases cfg.state.db ping now with ⟨error, hexec⟩ | ⟨db', hexec⟩
              · exact .inl (congrArg (fun ran => Db.pingsOf ran.2 ping.checkId) hexec)
              · refine .inr (.inl ⟨j, ?_⟩)
                have hself : Function.update cfg.pool j (next (exec (.insertPing ping now) cfg.state.db).1) j =
                    next (.ok ()) := by
                  rw [Function.update_self, hexec]
                exact (congrArg (Owing ping.checkId) hself).mpr hpolite.1
            · exact .inl (pingsOf_insertPing hcheck)
        all_goals exact .inl (pingsOf_of_not_writes hpolite.1)

/-- Another task leaves the messages of the stream alone. -/
theorem announced_step (hne : j ≠ stream) (hpolite : (cfg.pool j).AtCalls (Polite j))
    (hstep : cfg.advance (execLive bus) j = some cfg') : cfg'.state.announced stream = cfg.state.announced stream := by
  rcases Config.advance_cases _ hstep with ⟨event, next, hpool, rfl⟩ | ⟨c, next, hpool, rfl⟩
  · rfl
  · rw [hpool] at hpolite
    cases c with
    | inl c => rfl
    | inr c =>
        cases c with
        | announce other =>
            obtain rfl : other = j := hpolite.1
            exact Function.update_of_ne hne.symm _ _
        | _ => rfl

theorem listens_step (hne : j ≠ stream) (hpolite : (cfg.pool j).AtCalls (Polite j))
    (hstep : cfg.advance (execLive bus) j = some cfg') (hlistens : bus.Listens cfg.state.bus stream) :
    bus.Listens cfg'.state.bus stream := by
  rcases Config.advance_cases _ hstep with ⟨event, next, hpool, rfl⟩ | ⟨c, next, hpool, rfl⟩
  · exact hlistens
  · rw [hpool] at hpolite
    exact (bus_step hne hpolite.1 hlistens).1

end Steps

/-! ### The stream -/

/-- A stream that is open: it waits, or is about to send what it was told of. -/
inductive Streaming {ι : Type} (stream : ι) (checkId : Int) : LiveTask ι → Prop where
  | waiting (polls : Nat) : Streaming stream checkId (sseForCheck stream checkId polls).erase
  | announcing (polls : Nat) :
      Streaming stream checkId (.call (.inr (.announce stream)) fun _ => (sseForCheck stream checkId polls).erase)

section Stream

variable {ι B : Type} {bus : Bus ι Int B} {stream j : ι} {checkId : Int} {cfg cfg' : LiveConfig ι B}

theorem Streaming.not_owing {task : LiveTask ι} (hstreaming : Streaming stream checkId task) {other : Int} :
    ¬ Owing other task := by
  intro howing
  cases hstreaming with
  | waiting polls => cases polls <;> cases howing
  | announcing polls => cases howing

/-- An open stream calls beside the database, and has subscribed. -/
theorem Streaming.eq_call {task : LiveTask ι} (hstreaming : Streaming stream checkId task) :
    ∃ c next, task = .call (.inr c) next ∧ c ≠ .subscribe stream := by
  cases hstreaming with
  | waiting polls => cases polls <;> exact ⟨_, _, rfl, by simp⟩
  | announcing polls => exact ⟨_, _, rfl, by simp⟩

/-- A step of an open stream: its browser is gone, or it received something, or it sent what it was told of. -/
inductive StreamStep (bus : Bus ι Int B) (stream : ι) (checkId : Int) (cfg cfg' : LiveConfig ι B) : Prop where
  | left (hpool : cfg'.pool stream = .ret ())
  | told (polls : Nat) (hpool : cfg'.pool stream =
        .call (.inr (.announce stream)) fun _ => (sseForCheck stream checkId polls).erase)
      (hbus : cfg'.state.bus = (bus.receive stream cfg.state.bus).2)
      (hannounced : cfg'.state.announced = cfg.state.announced)
  | passed (polls : Nat) (hpool : cfg'.pool stream = (sseForCheck stream checkId polls).erase)
      (hchanged : changed checkId (bus.receive stream cfg.state.bus).1 = false)
      (hbus : cfg'.state.bus = (bus.receive stream cfg.state.bus).2)
      (hannounced : cfg'.state.announced = cfg.state.announced)
  | sent (polls : Nat) (hpool : cfg'.pool stream = (sseForCheck stream checkId polls).erase)
      (hbus : cfg'.state.bus = cfg.state.bus)
      (hannounced : cfg'.state.announced stream = cfg.state.announced stream + 1)

variable [DecidableEq ι]

theorem Streaming.step (hstreaming : Streaming stream checkId (cfg.pool stream))
    (hstep : cfg.advance (execLive bus) stream = some cfg') :
    cfg'.state.db = cfg.state.db ∧ StreamStep bus stream checkId cfg cfg' := by
  generalize htask : cfg.pool stream = task at hstreaming
  cases hstreaming with
  | announcing polls =>
      rw [Config.advance_call _ htask, Option.some.injEq] at hstep
      subst hstep
      exact ⟨rfl, .sent polls (Function.update_self ..) rfl (Function.update_self ..)⟩
  | waiting polls =>
      cases polls with
      | zero =>
          have hcall : cfg.pool stream = .call (.inr (.leave stream)) fun _ => .ret () := htask
          rw [Config.advance_call _ hcall, Option.some.injEq] at hstep
          subst hstep
          exact ⟨rfl, .left (Function.update_self ..)⟩
      | succ polls =>
          obtain ⟨next, hcall, hnext⟩ : ∃ next, cfg.pool stream = .call (.inr (.receive stream)) next ∧
              ∀ item, next (.ok item) = if changed checkId item then
                .call (.inr (.announce stream)) fun _ => (sseForCheck stream checkId polls).erase
                else (sseForCheck stream checkId polls).erase := by
            refine ⟨_, htask, fun item => ?_⟩
            simp only [Prog.ret_bind]
            split <;> rfl
          rw [Config.advance_call _ hcall, Option.some.injEq] at hstep
          subst hstep
          have hself : Function.update cfg.pool stream (next (.ok (bus.receive stream cfg.state.bus).1)) stream =
              if changed checkId (bus.receive stream cfg.state.bus).1 then
                .call (.inr (.announce stream)) fun _ => (sseForCheck stream checkId polls).erase
              else (sseForCheck stream checkId polls).erase := by rw [Function.update_self, hnext]
          refine ⟨rfl, ?_⟩
          cases hchanged : changed checkId (bus.receive stream cfg.state.bus).1 with
          | true =>
              rw [if_pos hchanged] at hself
              exact .told polls hself rfl rfl
          | false =>
              rw [if_neg (Bool.eq_false_iff.mp hchanged)] at hself
              exact .passed polls hself hchanged rfl rfl

/-- Where a stream is. From the answer to its request on it listens. -/
inductive StreamPhase (bus : Bus ι Int B) (stream : ι) (cfg : LiveConfig ι B) : Prop where
  | opening (polls : Nat) (request : StoreProg AppError Response)
      (hpool : cfg.pool stream = (openStream stream polls request).erase)
  | streaming (checkId : Int) (hpool : Streaming stream checkId (cfg.pool stream))
      (hlistens : bus.Listens cfg.state.bus stream)
  | ended (hpool : cfg.pool stream = .ret () ∨ cfg.pool stream = .fail () ∨ cfg.pool stream = .panic)

/-- A step of the stream's own. -/
theorem StreamPhase.own (hphase : StreamPhase bus stream cfg) (hstep : cfg.advance (execLive bus) stream = some cfg') :
    StreamPhase bus stream cfg' := by
  cases hphase with
  | opening polls request hpool =>
      cases request with
      | ret response =>
          cases response with
          | stream checkId =>
              have hcall : cfg.pool stream =
                  .call (.inr (.subscribe stream)) fun _ => (sseForCheck stream checkId polls).erase := hpool
              rw [Config.advance_call _ hcall, Option.some.injEq] at hstep
              subst hstep
              have hself : Function.update cfg.pool stream (sseForCheck stream checkId polls).erase stream =
                  (sseForCheck stream checkId polls).erase := Function.update_self ..
              refine .streaming checkId ?_ (bus.listens_subscribe _ _)
              dsimp only
              rw [hself]
              exact .waiting polls
          | _ =>
              have hover : cfg.pool stream = .ret () := hpool
              simp [Config.advance, hover] at hstep
      | fail error =>
          have hfail : cfg.pool stream = .fail () := hpool
          simp [Config.advance, hfail] at hstep
      | panic =>
          have hpanic : cfg.pool stream = .panic := hpool
          simp [Config.advance, hpanic] at hstep
      | emit event next =>
          have hemit : cfg.pool stream = .emit event (openStream stream polls next).erase := hpool
          rw [Config.advance_emit _ hemit, Option.some.injEq] at hstep
          subst hstep
          exact .opening polls next (Function.update_self ..)
      | call c next =>
          have hcall : cfg.pool stream = .call (.inl c) fun answer => (openStream stream polls (next answer)).erase := hpool
          rw [Config.advance_call _ hcall, Option.some.injEq] at hstep
          subst hstep
          exact .opening polls _ (Function.update_self ..)
  | streaming checkId hpool hlistens =>
      obtain ⟨-, hmoved⟩ := hpool.step hstep
      cases hmoved with
      | left hpool => exact .ended (.inl hpool)
      | told polls hpool hbus _ =>
          refine .streaming checkId (hpool ▸ .announcing polls) ?_
          rw [hbus]
          exact bus.receive_listens _ _ hlistens
      | passed polls hpool _ hbus _ =>
          refine .streaming checkId (hpool ▸ .waiting polls) ?_
          rw [hbus]
          exact bus.receive_listens _ _ hlistens
      | sent polls hpool hbus _ =>
          refine .streaming checkId (hpool ▸ .waiting polls) ?_
          rw [hbus]
          exact hlistens
  | ended hpool => rcases hpool with hpool | hpool | hpool <;> simp [Config.advance, hpool] at hstep

theorem StreamPhase.step (hphase : StreamPhase bus stream cfg) (hpolite : (cfg.pool j).AtCalls (Polite j))
    (hstep : cfg.advance (execLive bus) j = some cfg') : StreamPhase bus stream cfg' := by
  by_cases hj : j = stream
  · subst hj
    exact hphase.own hstep
  · have hsame : cfg'.pool stream = cfg.pool stream := Config.advance_pool_of_ne _ (Ne.symm hj) hstep
    cases hphase with
    | opening polls request hpool => exact .opening polls request (hsame.trans hpool)
    | streaming checkId hpool hlistens =>
        exact .streaming checkId (hsame ▸ hpool) (listens_step hj hpolite hstep hlistens)
    | ended hpool => exact .ended (hsame ▸ hpool)

omit [DecidableEq ι] in
/-- Only a stream that is open is where an open one is. -/
theorem StreamPhase.listens (hphase : StreamPhase bus stream cfg) (hopen : Streaming stream checkId (cfg.pool stream)) :
    bus.Listens cfg.state.bus stream := by
  obtain ⟨c, next, hcall, hne⟩ := hopen.eq_call
  cases hphase with
  | opening polls request hpool =>
      rw [hcall] at hpool
      cases request with
      | ret response =>
          cases response with
          | stream checkId =>
              cases hpool
              exact absurd rfl hne
          | _ => cases hpool
      | _ => cases hpool
  | streaming checkId hpool hlistens => exact hlistens
  | ended hpool =>
      rw [hcall] at hpool
      rcases hpool with hpool | hpool | hpool <;> cases hpool

/-! ### A message for each ping -/

/-- While a stream is open, it has sent more than `n` messages, or is about to, or a signal for it is to come. -/
inductive Told (bus : Bus ι Int B) (stream : ι) (checkId : Int) (n : Nat) (cfg : LiveConfig ι B) : Prop where
  | waiting (polls : Nat) (hpool : cfg.pool stream = (sseForCheck stream checkId polls).erase)
      (hlistens : bus.Listens cfg.state.bus stream) (hn : n ≤ cfg.state.announced stream)
      (hdue : n < cfg.state.announced stream ∨ SignalDue bus stream checkId cfg)
  | announcing (polls : Nat)
      (hpool : cfg.pool stream = .call (.inr (.announce stream)) fun _ => (sseForCheck stream checkId polls).erase)
      (hlistens : bus.Listens cfg.state.bus stream) (hn : n ≤ cfg.state.announced stream)
  | left (hpool : cfg.pool stream = .ret ())

omit [DecidableEq ι] in
/-- A signal that is due when the stream receives is what it receives, or still due. -/
theorem signalDue_received (hown : ∀ other, ¬ Owing other (cfg.pool stream))
    (hothers : ∀ i, i ≠ stream → cfg'.pool i = cfg.pool i) (hlistens : bus.Listens cfg.state.bus stream)
    (hchanged : changed checkId (bus.receive stream cfg.state.bus).1 = false)
    (hbus : cfg'.state.bus = (bus.receive stream cfg.state.bus).2) (hdue : SignalDue bus stream checkId cfg) :
    SignalDue bus stream checkId cfg' := by
  rcases hdue with ⟨i, howing⟩ | howes
  · have hne : i ≠ stream := by
      rintro rfl
      exact hown checkId howing
    exact .inl ⟨i, (hothers i hne).symm ▸ howing⟩
  · cases hitem : (bus.receive stream cfg.state.bus).1 with
    | pending => exact absurd howes (bus.receive_pending _ _ hlistens hitem checkId)
    | lagged =>
        rw [hitem] at hchanged
        cases hchanged
    | value id =>
        rw [hitem] at hchanged
        rcases bus.receive_value _ _ id hitem checkId howes with hid | hkept
        · exact absurd hid.symm (of_decide_eq_false hchanged)
        · exact .inr (hbus ▸ hkept)

/-- A step of the stream's own. -/
theorem Told.own {n : Nat} (htold : Told bus stream checkId n cfg)
    (hstep : cfg.advance (execLive bus) stream = some cfg') : Told bus stream checkId n cfg' := by
  cases htold with
  | waiting polls hpool hlistens hn hdue =>
      have hopen : Streaming stream checkId (cfg.pool stream) := hpool ▸ .waiting polls
      have hothers : ∀ i, i ≠ stream → cfg'.pool i = cfg.pool i := fun i hi => Config.advance_pool_of_ne _ hi hstep
      have hafter := bus.receive_listens _ _ hlistens
      obtain ⟨-, hmoved⟩ := hopen.step hstep
      cases hmoved with
      | left hpool => exact .left hpool
      | told polls hpool hbus hannounced => exact .announcing polls hpool (hbus ▸ hafter) (hannounced ▸ hn)
      | sent polls hpool hbus hannounced =>
          exact .waiting polls hpool (hbus ▸ hlistens) (by omega) (.inl (by omega))
      | passed polls hpool hchanged hbus hannounced =>
          refine .waiting polls hpool (hbus ▸ hafter) (hannounced ▸ hn) ?_
          rw [hannounced]
          exact hdue.imp_right
            (signalDue_received (fun _ => hopen.not_owing) hothers hlistens hchanged hbus)
  | announcing polls hpool hlistens hn =>
      rw [Config.advance_call _ hpool, Option.some.injEq] at hstep
      subst hstep
      have hsent : n < Function.update cfg.state.announced stream (cfg.state.announced stream + 1) stream := by
        rw [Function.update_self]
        omega
      exact .waiting polls (Function.update_self ..) hlistens hsent.le (.inl hsent)
  | left hpool => simp [Config.advance, hpool] at hstep

theorem Told.step {n : Nat} (htold : Told bus stream checkId n cfg) (hpolite : (cfg.pool j).AtCalls (Polite j))
    (hstep : cfg.advance (execLive bus) j = some cfg') : Told bus stream checkId n cfg' := by
  by_cases hj : j = stream
  · subst hj
    exact htold.own hstep
  · have hsame : cfg'.pool stream = cfg.pool stream := Config.advance_pool_of_ne _ (Ne.symm hj) hstep
    have hcount := announced_step hj hpolite hstep
    cases htold with
    | waiting polls hpool hlistens hn hdue =>
        refine .waiting polls (hsame.trans hpool) (listens_step hj hpolite hstep hlistens) (hcount ▸ hn) ?_
        rw [hcount]
        exact hdue.imp_right (signalDue_step hj hpolite hlistens hstep)
    | announcing polls hpool hlistens hn =>
        exact .announcing polls (hsame.trans hpool) (listens_step hj hpolite hstep hlistens) (hcount ▸ hn)
    | left hpool => exact .left (hsame.trans hpool)

/-- A ping that is recorded while the stream is open. -/
theorem Told.recorded {before after : LiveConfig ι B} (hopen : Streaming stream checkId (before.pool stream))
    (hlistens : bus.Listens before.state.bus stream) (hpolite : (before.pool j).AtCalls (Polite j))
    (hstep : before.advance (execLive bus) j = some after)
    (hnew : after.state.db.pingsOf checkId ≠ before.state.db.pingsOf checkId) :
    Told bus stream checkId (after.state.announced stream) after := by
  have hj : j ≠ stream := by
    rintro rfl
    exact hnew (congrArg (fun db => Db.pingsOf db checkId) (hopen.step hstep).1)
  have hsame : after.pool stream = before.pool stream := Config.advance_pool_of_ne _ hj.symm hstep
  have hstill := listens_step hj hpolite hstep hlistens
  have hdue : SignalDue bus stream checkId after := (pingsOf_step hpolite hstep).resolve_left hnew
  generalize htask : before.pool stream = task at hopen
  cases hopen with
  | waiting polls => exact .waiting polls (hsame.trans htask) hstill le_rfl (.inr hdue)
  | announcing polls => exact .announcing polls (hsame.trans htask) hstill le_rfl

end Stream

/-! ### The law -/

/-- What runs beside a stream: pings, scan passes, other streams, and any program that leaves the table of pings alone. -/
inductive LiveRequest where
  | ping (request : PingRequest) (now : Instant)
  | scan (now : Instant) (baseUrl : String)
  | stream (ctx : WebContext) (underAdmin : Bool) (id : Int) (polls : Nat)
  | other (program : StoreProg Unit Unit) (hother : program.Only (fun c => .pings ∉ c.writes) fun _ => True)

def LiveRequest.task {ι : Type} (X : Crates) (i : ι) : LiveRequest → LiveTask ι
  | .ping request now => (applyLive X request now).erase
  | .scan now baseUrl => (scanPassLive X now baseUrl).erase
  | .stream ctx underAdmin id polls => (checkEventsLive X ctx underAdmin id i polls).erase
  | .other program _ => program.lift.erase

theorem LiveRequest.polite {ι : Type} (X : Crates) (i : ι) (request : LiveRequest) :
    (request.task X i).AtCalls (Polite i) := by
  cases request with
  | ping request now => exact applyLive_polite X request now
  | scan now baseUrl => exact scanPassLive_polite X now baseUrl
  | stream ctx underAdmin id polls =>
      exact lift_bind_polite (checkEvents_only X ctx underAdmin id) (streamAnswer_polite polls)
  | other program hother => exact lift_polite hother

section Law

variable {ι B : Type} [DecidableEq ι] {bus : Bus ι Int B} {X : Crates} {allowed : LiveConfig ι B → ι → Prop}

theorem polite_reach {start cfg : LiveConfig ι B} (hstart : ∀ i, (start.pool i).AtCalls (Polite i))
    (hreach : Reach (execLive bus) allowed start cfg) (i : ι) : (cfg.pool i).AtCalls (Polite i) := by
  refine hreach.invariant _ (fun cfg => ∀ i, (cfg.pool i).AtCalls (Polite i)) hstart ?_ i
  intro cfg cfg' j hpolite _ hstep
  exact Config.advance_inherit _ (fun _ _ _ h => h) (fun _ _ _ h => h.2) hpolite hstep

theorem phase_reach {start cfg : LiveConfig ι B} (hstart : ∀ i, (start.pool i).AtCalls (Polite i)) {stream : ι}
    (hphase : StreamPhase bus stream start) (hreach : Reach (execLive bus) allowed start cfg) :
    StreamPhase bus stream cfg := by
  induction hreach with
  | refl => exact hphase
  | step j before _ hstep ih => exact ih.step (polite_reach hstart before j) hstep

theorem told_reach {start cfg : LiveConfig ι B} (hstart : ∀ i, (start.pool i).AtCalls (Polite i)) {stream : ι}
    {checkId : Int} {n : Nat} (htold : Told bus stream checkId n start)
    (hreach : Reach (execLive bus) allowed start cfg) : Told bus stream checkId n cfg := by
  induction hreach with
  | refl => exact htold
  | step j before _ hstep ih => exact ih.step (polite_reach hstart before j) hstep

/-- **The live tail loses no refresh.** A ping of the check that is recorded while the stream is open is followed by a message:
once the stream waits with nothing left for it on the bus and every recorded ping of the check signalled, it has sent
more than it had when the ping was recorded. -/
theorem live_tail {requests : ι → LiveRequest} {state : LiveState ι B} {before recorded cfg : LiveConfig ι B} {stream j : ι}
    {ctx : WebContext} {underAdmin : Bool} {id checkId : Int} {polls rest : Nat}
    (hrequest : requests stream = .stream ctx underAdmin id polls)
    (hfirst : Reach (execLive bus) allowed (Config.init (fun i => (requests i).task X i) state) before)
    (hopen : Streaming stream checkId (before.pool stream)) (hstep : before.advance (execLive bus) j = some recorded)
    (hnew : recorded.state.db.pingsOf checkId ≠ before.state.db.pingsOf checkId)
    (hsecond : Reach (execLive bus) allowed recorded cfg)
    (hwaits : cfg.pool stream = (sseForCheck stream checkId rest).erase)
    (hempty : (bus.receive stream cfg.state.bus).1 = .pending) (hquiet : ∀ i, ¬ Owing checkId (cfg.pool i)) :
    recorded.state.announced stream < cfg.state.announced stream := by
  have hpolite : ∀ i, ((requests i).task X i).AtCalls (Polite i) := fun i => (requests i).polite X i
  have hopening : StreamPhase bus stream (Config.init (fun i => (requests i).task X i) state : LiveConfig ι B) :=
    .opening polls _ (congrArg (LiveRequest.task X stream) hrequest)
  have hlistens := (phase_reach hpolite hopening hfirst).listens hopen
  have hpoliteBefore := polite_reach hpolite hfirst
  have hpoliteAfter : ∀ i, (recorded.pool i).AtCalls (Polite i) := fun i =>
    Config.advance_inherit _ (fun _ _ _ h => h) (fun _ _ _ h => h.2) hpoliteBefore hstep i
  have htold := told_reach hpoliteAfter (Told.recorded hopen hlistens (hpoliteBefore j) hstep hnew) hsecond
  cases htold with
  | waiting polls hpool hlater hn hdue =>
      rcases hdue with hsent | ⟨i, howing⟩ | howes
      · exact hsent
      · exact absurd howing (hquiet i)
      · exact absurd howes (bus.receive_pending _ _ hlater hempty checkId)
  | announcing polls hpool hlater hn =>
      rw [hwaits] at hpool
      cases rest <;> cases hpool
  | left hpool =>
      rw [hwaits] at hpool
      cases rest <;> cases hpool

end Law

/-- The stream of a check, and two pings of the check. -/
def tailRequests : Fin 3 → LiveRequest
  | 0 => .stream .sample false 1 5
  | _ => .ping ⟨"u1", .log, none, [], none⟩ (200 * nanosPerSec)

/-- A bus that keeps one value. -/
def tailState : LiveState (Fin 3) (Ring (Fin 3) Int) := ⟨.sample, ⟨1, [], []⟩, fun _ => 0⟩

abbrev TailConfig := LiveConfig (Fin 3) (Ring (Fin 3) Int)

def tailStart : TailConfig := Config.init (fun i => (tailRequests i).task plainCrates i) tailState

/-- The stream is open when the first ping is recorded. It lags behind the second, and has sent a message more when it
waits again. -/
theorem live_tail_lagged :
    ∃ before recorded cfg : TailConfig, Reach (execLive ringBus) (fun _ _ => True) tailStart before ∧
      before.advance (execLive ringBus) 1 = some recorded ∧ Reach (execLive ringBus) (fun _ _ => True) recorded cfg ∧
      (cfg.state.db.pingsOf 1).length = 2 ∧ recorded.state.announced 0 < cfg.state.announced 0 := by
  have htest : ∀ (cfg : TailConfig) (i : Fin 3), true = true → True := fun _ _ _ => trivial
  obtain ⟨before, hfirst, recorded, hstep, cfg, hsecond, hopen, hwaits, hempty, hone, htwo, hbefore, hrecorded, hnew⟩ :
      ∃ before, tailStart.advanceWhen (execLive ringBus) (fun _ _ => true) [0, 0, 0, 0, 1] = some before ∧
      ∃ recorded, before.advance (execLive ringBus) 1 = some recorded ∧
      ∃ cfg, recorded.advanceWhen (execLive ringBus) (fun _ _ => true) [1, 1, 2, 2, 2, 2, 0, 0, 0, 0] = some cfg ∧
        before.pool 0 = (sseForCheck 0 1 5).erase ∧ cfg.pool 0 = (sseForCheck 0 1 3).erase ∧
        (ringBus.receive 0 cfg.state.bus).1 = .pending ∧ cfg.pool 1 = .ret () ∧ cfg.pool 2 = .ret () ∧
        (before.state.db.pingsOf 1).length = 0 ∧ (recorded.state.db.pingsOf 1).length = 1 ∧
        (cfg.state.db.pingsOf 1).length = 2 :=
    ⟨_, rfl, _, rfl, _, rfl, rfl, rfl, rfl, rfl, rfl, rfl, rfl, rfl⟩
  have hquiet (i : Fin 3) : ¬ Owing 1 (cfg.pool i) := by
    intro howing
    match i with
    | 0 =>
        rw [hwaits] at howing
        cases howing
    | 1 =>
        rw [hone] at howing
        cases howing
    | 2 =>
        rw [htwo] at howing
        cases howing
  have hreach := reach_of_advanceWhen _ htest _ hfirst
  have hlater := reach_of_advanceWhen _ htest _ hsecond
  have hrequest : tailRequests 0 = .stream .sample false 1 5 := rfl
  have hstreaming : Streaming 0 1 (before.pool 0) := hopen ▸ .waiting 5
  have hping : recorded.state.db.pingsOf 1 ≠ before.state.db.pingsOf 1 := by
    intro hsame
    rw [hsame, hbefore] at hrecorded
    cases hrecorded
  exact ⟨before, recorded, cfg, hreach, hstep, hlater, hnew,
    live_tail hrequest hreach hstreaming hstep hping hlater hwaits hempty hquiet⟩

end Pingward
