import Pingward.ModelScheduler

/-! `src/ping.rs`: what a ping request does to its check. -/

open StoreProgram

namespace Pingward

/-- `AppError` of `src/error.rs`. -/
inductive AppError where
  | notFound
  | db (error : StoreError)
  | other
  deriving DecidableEq, Repr

/-- A call of a request handler, its error turned into `AppError::Db`. -/
def store (c : StoreCall) : StoreProg AppError c.Res := Prog.perform .db c

/-! ### Captured bodies -/

def maxBody : Nat := 10 * 1024

def isContinuation (b : UInt8) : Bool := b.toNat / 64 == 2

/-- The second byte a three- or four-byte lead takes. -/
def isSecondByte (lead b : UInt8) : Bool :=
  let l := lead.toNat
  let n := b.toNat
  if l == 0xE0 then 0xA0 ≤ n && n ≤ 0xBF
  else if l == 0xED then 0x80 ≤ n && n ≤ 0x9F
  else if l == 0xF0 then 0x90 ≤ n && n ≤ 0xBF
  else if l == 0xF4 then 0x80 ≤ n && n ≤ 0x8F
  else 0x80 ≤ n && n ≤ 0xBF

/-- The payload bits of a continuation byte. -/
def lowBits (b : UInt8) : Nat := b.toNat % 64

def replacementChar : Char := Char.ofNat 0xFFFD

/-- `String::from_utf8_lossy`: each maximal invalid piece becomes one replacement character. -/
def fromUtf8Lossy : List UInt8 → List Char
  | [] => []
  | lead :: rest =>
      let l := lead.toNat
      if l < 0x80 then Char.ofNat l :: fromUtf8Lossy rest
      else if 0xC2 ≤ l ∧ l ≤ 0xDF then
        match rest with
        | [] => [replacementChar]
        | b :: rest' =>
            if isContinuation b then Char.ofNat (l % 32 * 64 + lowBits b) :: fromUtf8Lossy rest'
            else replacementChar :: fromUtf8Lossy (b :: rest')
      else if 0xE0 ≤ l ∧ l ≤ 0xEF then
        match rest with
        | [] => [replacementChar]
        | b :: rest' =>
            if isSecondByte lead b then
              match rest' with
              | [] => [replacementChar]
              | c :: rest'' =>
                  if isContinuation c then
                    Char.ofNat ((l % 16 * 64 + lowBits b) * 64 + lowBits c) :: fromUtf8Lossy rest''
                  else replacementChar :: fromUtf8Lossy (c :: rest'')
            else replacementChar :: fromUtf8Lossy (b :: rest')
      else if 0xF0 ≤ l ∧ l ≤ 0xF4 then
        match rest with
        | [] => [replacementChar]
        | b :: rest' =>
            if isSecondByte lead b then
              match rest' with
              | [] => [replacementChar]
              | c :: rest'' =>
                  if isContinuation c then
                    match rest'' with
                    | [] => [replacementChar]
                    | d :: rest''' =>
                        if isContinuation d then
                          Char.ofNat (((l % 8 * 64 + lowBits b) * 64 + lowBits c) * 64 + lowBits d) ::
                            fromUtf8Lossy rest'''
                        else replacementChar :: fromUtf8Lossy (d :: rest''')
                  else replacementChar :: fromUtf8Lossy (c :: rest'')
            else replacementChar :: fromUtf8Lossy (b :: rest')
      else replacementChar :: fromUtf8Lossy rest

def truncate (bytes : List UInt8) : String := String.ofList (fromUtf8Lossy (bytes.take maxBody))

/-! ### Ping requests -/

structure PingRequest where
  uuid : String
  kind : PingKind
  exitCode : Option Int
  body : List UInt8
  clientIp : Option String
  deriving DecidableEq, Repr

/-- The routes under `/ping/{uuid}`. -/
inductive PingRoute where
  | success
  | fail
  | start
  | log
  | exitcode (code : Int)
  deriving DecidableEq, Repr

/-- What each handler passes to `apply`. -/
def PingRoute.request (route : PingRoute) (uuid : String) (body : List UInt8) (clientIp : Option String) :
    PingRequest :=
  match route with
  | .success => ⟨uuid, .success, none, body, clientIp⟩
  | .fail => ⟨uuid, .fail, none, body, clientIp⟩
  | .start => ⟨uuid, .start, none, body, clientIp⟩
  | .log => ⟨uuid, .log, none, body, clientIp⟩
  | .exitcode code => ⟨uuid, if code = 0 then .success else .fail, some code, body, clientIp⟩

/-- The raw row of a ping of the check. -/
def PingRequest.newPing (ping : PingRequest) (check : Check) : NewPing :=
  ⟨check.id, ping.kind, ping.exitCode, truncate ping.body, ping.clientIp⟩

def resolve (uuid : String) : StoreProg AppError Check := do
  match ← store (.findCheckByUuid uuid) with
  | some check => return check
  | none => Prog.fail .notFound

/-- The per-kind updates of `apply`, on the check as it was read. -/
def applyKind (X : Crates) (check : Check) (kind : PingKind) (exitCode : Option Int) (now : Instant) :
    StoreProg AppError Unit :=
  match kind with
  | .success => do
      let next ← Prog.orPanic (dueTime X { check with lastPingAt := some now })
      store (.markPing check.id ⟨.up, some now, none, next⟩)
      if check.status = .down then
        store (.clearNag check.id)
        Prog.tell (.delivery ⟨check, .up, now, none⟩)
  | .fail => do
      store (.markPing check.id ⟨.down, some now, none, none⟩)
      if check.status = .up ∨ check.status = .new then
        store (.beginDownAlert check.id now)
        Prog.tell (.delivery ⟨check, .down, now, some (.failed exitCode)⟩)
  | .start => store (.markPing check.id ⟨check.status, none, some now, check.nextDueAt⟩)
  | .log => return ()
  | .exitcode => Prog.panic

/-- Record the ping and move its check. A paused check's ping is recorded only. -/
def apply (X : Crates) (ping : PingRequest) (now : Instant) : StoreProg AppError Unit := do
  let check ← resolve ping.uuid
  store (.insertPing (ping.newPing check) now)
  if check.status = .paused then return ()
  applyKind X check ping.kind ping.exitCode now

end Pingward
