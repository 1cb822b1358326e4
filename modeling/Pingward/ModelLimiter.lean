import Pingward.ModelAccount
import Pingward.WindowBasic

/-! `src/ratelimit.rs`: the fixed-window limiters of `POST /login`. The clock is monotonic and counts
nanoseconds; each operation runs under the limiter's lock and sees one instant. -/

open KeyedTable FixedWindow

namespace Pingward

def maxAttempts : Nat := 5
def accountMaxAttempts : Nat := 10
def maxEntries : Nat := 10000
def overflowFactor : Nat := 10
def u32Max : Nat := 2 ^ 32 - 1

/-- `Instant::elapsed` in whole seconds; a clock that went back has elapsed nothing. -/
def elapsedSecs (started now : Nat) : Nat := (now - started) / 10 ^ 9

/-- An entry of `per_key`. -/
structure Bucket (κ : Type) where
  key : κ
  counter : Counter
  deriving DecidableEq, Repr

structure Buckets (κ : Type) where
  perKey : Table κ (Bucket κ) Bucket.key
  overflow : Counter

/-- The immutable part of a `RateLimiter`; `max_attempts` is a `u32`. -/
structure RateLimits where
  maxAttempts : Nat
  windowSecs : Nat
  maxEntries : Nat
  isU32 : maxAttempts ≤ u32Max

/-- Charge one attempt to a `(count, window start)` counter, and whether it is allowed. -/
def charge (counter : Counter) (max windowSecs now : Nat) : Bool × Counter :=
  if windowSecs ≤ elapsedSecs counter.started now then (true, ⟨1, now⟩)
  else if max ≤ counter.attempts then (false, counter)
  else (true, { counter with attempts := counter.attempts + 1 })

namespace RateLimits

/-- Per client address. -/
def login : RateLimits := ⟨Pingward.maxAttempts, loginWindowSecs, Pingward.maxEntries, by decide⟩

/-- Per account, from any address. -/
def account : RateLimits := ⟨accountMaxAttempts, accountWindowSecs, Pingward.maxEntries, by decide⟩

/-- `saturating_mul`. -/
def overflowMax (limits : RateLimits) : Nat := min (limits.maxAttempts * overflowFactor) u32Max

/-- The window in nanoseconds. -/
def window (limits : RateLimits) : Nat := limits.windowSecs * 10 ^ 9

end RateLimits

namespace Buckets

variable {κ : Type} [DecidableEq κ]

/-- `RateLimiter::new`. -/
def new (now : Nat) : Buckets κ := ⟨.empty, ⟨0, now⟩⟩

/-- `retain`: the entries whose window has not elapsed. -/
def retain (limits : RateLimits) (now : Nat) (buckets : Buckets κ) : Buckets κ :=
  { buckets with
    perKey := buckets.perKey.deleteWhere fun bucket => ¬ elapsedSecs bucket.counter.started now < limits.windowSecs }

/-- `entry(key).or_insert(counter)`. -/
def orInsert (key : κ) (counter : Counter) (buckets : Buckets κ) : Buckets κ :=
  { buckets with perKey := (buckets.perKey.insert ⟨key, counter⟩).getD buckets.perKey }

/-- The counter of a key, or a new one. -/
def counterOf (key : κ) (now : Nat) (buckets : Buckets κ) : Counter :=
  ((buckets.perKey.find key).map Bucket.counter).getD ⟨0, now⟩

def setCounter (key : κ) (counter : Counter) (buckets : Buckets κ) : Buckets κ :=
  { buckets with perKey := buckets.perKey.update key (fun bucket => { bucket with counter := counter }) fun _ => rfl }

/-- The end of `try_acquire`: the key has a bucket of its own, or gets one. -/
def chargeOwn (limits : RateLimits) (key : κ) (now : Nat) (buckets : Buckets κ) : Bool × Buckets κ :=
  let charged := charge (buckets.counterOf key now) limits.maxAttempts limits.windowSecs now
  (charged.1, (buckets.orInsert key ⟨0, now⟩).setCounter key charged.2)

/-- No room for another key. -/
def isFull (limits : RateLimits) (buckets : Buckets κ) : Bool := limits.maxEntries ≤ buckets.perKey.rows.length

/-- All entries live: they are left alone and the shared bucket is charged. -/
def chargeOverflow (limits : RateLimits) (now : Nat) (buckets : Buckets κ) : Bool × Buckets κ :=
  let charged := charge buckets.overflow limits.overflowMax limits.windowSecs now
  (charged.1, { buckets with overflow := charged.2 })

/-- Reserve an attempt for `key`, and whether it may proceed. -/
def tryAcquire (limits : RateLimits) (key : κ) (now : Nat) (buckets : Buckets κ) : Bool × Buckets κ :=
  if buckets.isFull limits ∧ (buckets.perKey.find key).isNone then
    let live := buckets.retain limits now
    if live.isFull limits then live.chargeOverflow limits now else live.chargeOwn limits key now
  else buckets.chargeOwn limits key now

def clear (key : κ) (buckets : Buckets κ) : Buckets κ :=
  { buckets with perKey := buckets.perKey.deleteWhere fun bucket => bucket.key = key }

/-- Refund the attempt: a bucket without attempts goes away, and a key without a bucket was charged to the
shared one. -/
def release (key : κ) (buckets : Buckets κ) : Buckets κ :=
  match buckets.perKey.find key with
  | some bucket =>
      let attempts := bucket.counter.attempts - 1
      if attempts = 0 then buckets.clear key else buckets.setCounter key { bucket.counter with attempts := attempts }
  | none => { buckets with overflow := { buckets.overflow with attempts := buckets.overflow.attempts - 1 } }

end Buckets

end Pingward
