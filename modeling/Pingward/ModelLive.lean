import Pingward.BroadcastBus
import Pingward.ModelRoutes
import Pingward.ModelScheduler
import Pingward.ProgramPair

/-! The live tail: the bus of checks that changed (`AppState::events`), what publishes on it (`src/ping.rs`,
`src/scheduler.rs`), and the stream of a check page (`check_events` and `sse_for_check` of `src/web.rs`), which tells the
browser to fetch the pings again. -/

open Broadcast StoreProgram

namespace Pingward

/-- What happens beside the database. A stream is named by its task; `announce` writes a `changed` to its browser. -/
inductive LiveCall (W : Type) where
  | receiverCount
  | send (checkId : Int)
  | subscribe (stream : W)
  | leave (stream : W)
  | receive (stream : W)
  | announce (stream : W)

@[reducible] def LiveCall.Res {W : Type} : LiveCall W → Type
  | .receiverCount => Nat
  | .receive _ => Received Int
  | .send _ | .subscribe _ | .leave _ | .announce _ => Unit

abbrev LiveProg (W A α : Type) :=
  Prog (StoreCall ⊕ LiveCall W) (PairRes StoreCall.Res LiveCall.Res) StoreError Spawned A α

/-- A call beside the database. -/
def beside {W A : Type} (c : LiveCall W) : LiveProg W A (Except StoreError c.Res) := Prog.attempt (Sum.inr c)

/-! ### What publishes -/

section Publish

variable {W A : Type}

/-- Send, if somebody listens. -/
def signal (checkId : Int) (receivers : Nat) : LiveProg W A Unit :=
  if 0 < receivers then (beside (.send checkId)).bind fun _ => return () else return ()

/-- Signal that a check changed. -/
def publish (checkId : Int) : LiveProg W A Unit := do
  match ← beside .receiverCount with
  | .ok receivers => signal checkId receivers
  | .error _ => return ()

def publishAll : List Int → LiveProg W A Unit
  | [] => return ()
  | checkId :: rest => do
      publish checkId
      publishAll rest

/-- `ping::apply`, with the signal between the recorded ping and the change of its check. -/
def applyLive (X : Crates) (ping : PingRequest) (now : Instant) : LiveProg W AppError Unit := do
  let check ← Prog.lift (resolve ping.uuid)
  Prog.lift (store (.insertPing (ping.newPing check) now))
  publish check.id
  Prog.lift (if check.status = .paused then return () else applyKind X check ping.kind ping.exitCode now)

/-- The scan half of the scan loop: each check that went down is signalled, then the deliveries are started. -/
def scanPassLive (X : Crates) (now : Instant) (baseUrl : String) : LiveProg W StoreError Unit := do
  let events ← Prog.lift (scanOnce X now baseUrl)
  publishAll (events.map NotificationEvent.checkId)
  Prog.tellAll (events.map .event)

end Publish

/-! ### What listens -/

section Listen

variable {W : Type}

/-- Whether an item of the bus is a `changed` on the stream of a check. A lag is one, or the page would stay stale. -/
def changed (checkId : Int) : Received Int → Bool
  | .value id => id = checkId
  | .lagged => true
  | .pending => false

/-- `sse_for_check` after it has subscribed, for a number of polls; then the browser is gone. -/
def sseForCheck (stream : W) (checkId : Int) : Nat → LiveProg W AppError Unit
  | 0 => do
      let _ ← beside (.leave stream)
      return ()
  | polls + 1 => do
      match ← beside (.receive stream) with
      | .error _ => sseForCheck stream checkId polls
      | .ok item =>
          if changed checkId item then do
            let _ ← beside (.announce stream)
            sseForCheck stream checkId polls
          else sseForCheck stream checkId polls

/-- What becomes of the answer to a request: a stream subscribes, and goes on. -/
def streamAnswer (stream : W) (polls : Nat) : Response → LiveProg W AppError Unit
  | .stream checkId => do
      let _ ← beside (.subscribe stream)
      sseForCheck stream checkId polls
  | _ => return ()

/-- A request for the stream of a check, and the stream. -/
def openStream (stream : W) (polls : Nat) (request : StoreProg AppError Response) : LiveProg W AppError Unit :=
  (Prog.lift request).bind (streamAnswer stream polls)

/-- `check_events`, of the check's owner or under `/admin`. -/
def checkEventsLive (X : Crates) (ctx : WebContext) (underAdmin : Bool) (id : Int) (stream : W) (polls : Nat) :
    LiveProg W AppError Unit :=
  openStream stream polls (if underAdmin then adminRequest X ctx (.checkEvents id) else webRequest X ctx (.checkEvents id))

end Listen

/-! ### The bus beside the database -/

/-- The database, the bus, and how many messages each stream has sent. -/
structure LiveState (W B : Type) where
  db : Db
  bus : B
  announced : W → Nat

section Exec

variable {W B : Type} [DecidableEq W] (bus : Bus W Int B)

def execLiveCall : (c : LiveCall W) → LiveState W B → Except StoreError c.Res × LiveState W B
  | .receiverCount, state => (.ok (bus.receivers state.bus), state)
  | .send checkId, state => (.ok (), { state with bus := bus.send checkId state.bus })
  | .subscribe stream, state => (.ok (), { state with bus := bus.subscribe stream state.bus })
  | .leave stream, state => (.ok (), { state with bus := bus.leave stream state.bus })
  | .receive stream, state =>
      (.ok (bus.receive stream state.bus).1, { state with bus := (bus.receive stream state.bus).2 })
  | .announce stream, state =>
      (.ok (), { state with announced := Function.update state.announced stream (state.announced stream + 1) })

def execStored (c : StoreCall) (state : LiveState W B) : Except StoreError c.Res × LiveState W B :=
  ((exec c state.db).1, { state with db := (exec c state.db).2 })

def execLive : (c : StoreCall ⊕ LiveCall W) → LiveState W B →
    Except StoreError (PairRes StoreCall.Res LiveCall.Res c) × LiveState W B := execBoth execStored (execLiveCall bus)

end Exec

end Pingward
