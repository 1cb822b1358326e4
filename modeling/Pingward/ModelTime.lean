import Pingward.ModelText

/-! Instants and durations as chrono keeps them. An instant is a number of nanoseconds since the Unix
epoch. chrono's operators panic outside their range; a computation that may panic is `Checked`. -/

namespace Pingward

/-- Nanoseconds since 1970-01-01T00:00:00Z. -/
abbrev Instant := Int

def nanosPerSec : Int := 1000000000

/-- `DateTime::<Utc>::MIN_UTC`, the start of the year -262143. -/
def minUtc : Instant := -8334601228800 * nanosPerSec

/-- `DateTime::<Utc>::MAX_UTC`, the end of the year 262142. -/
def maxUtc : Instant := 8210266876799 * nanosPerSec + 999999999

/-- Where a chrono operator panicked. -/
inductive ChronoPanic where
  | duration
  | instant
  deriving DecidableEq, Repr

abbrev Checked := Except ChronoPanic

/-- `Duration::seconds`, in nanoseconds: a duration holds at most `i64::MAX` milliseconds. -/
def durationSeconds (n : Int) : Checked Int :=
  if -(i64Max / 1000) ≤ n ∧ n ≤ i64Max / 1000 then .ok (n * nanosPerSec) else .error .duration

/-- `DateTime<Utc>` within its range. -/
def inRange (t : Instant) : Prop := minUtc ≤ t ∧ t ≤ maxUtc

instance (t : Instant) : Decidable (inRange t) := inferInstanceAs (Decidable (_ ∧ _))

/-- `DateTime<Utc> + Duration`. -/
def addDuration (t : Instant) (d : Int) : Checked Instant :=
  if inRange (t + d) then .ok (t + d) else .error .instant

/-- `DateTime<Utc> - Duration`. -/
def subDuration (t : Instant) (d : Int) : Checked Instant :=
  if inRange (t - d) then .ok (t - d) else .error .instant

/-- Whether `Duration::seconds` takes `n`. -/
def SecondsOk (n : Int) : Prop := -(i64Max / 1000) ≤ n ∧ n ≤ i64Max / 1000

instance (n : Int) : Decidable (SecondsOk n) := inferInstanceAs (Decidable (_ ∧ _))

theorem except_bind_eq_ok {ε α β : Type} {x : Except ε α} {f : α → Except ε β} {b : β} :
    x >>= f = .ok b ↔ ∃ a, x = .ok a ∧ f a = .ok b := by
  cases x with
  | error error => simp [bind, Except.bind]
  | ok a => simp [bind, Except.bind]

theorem durationSeconds_eq_ok_iff {n d : Int} :
    durationSeconds n = .ok d ↔ SecondsOk n ∧ n * nanosPerSec = d := by
  unfold durationSeconds
  split
  · rename_i hn
    simp only [Except.ok.injEq, iff_and_self]
    exact fun _ => hn
  · rename_i hn
    simp only [reduceCtorEq, false_iff, not_and]
    exact fun hok => absurd hok hn

theorem addDuration_eq_ok_iff {t t' : Instant} {d : Int} :
    addDuration t d = .ok t' ↔ inRange (t + d) ∧ t + d = t' := by
  unfold addDuration
  split
  · rename_i ht
    simp [ht]
  · rename_i ht
    simp [ht]

theorem subDuration_eq_ok_iff {t t' : Instant} {d : Int} :
    subDuration t d = .ok t' ↔ inRange (t - d) ∧ t - d = t' := by
  unfold subDuration
  split
  · rename_i ht
    simp [ht]
  · rename_i ht
    simp [ht]

/-! ### Stored texts -/

/-- The start of the year 0. -/
def yearZero : Instant := -62167219200 * nanosPerSec

/-- The last nanosecond of the year 9999. -/
def yearMax : Instant := 253402300799 * nanosPerSec + 999999999

/-- What `parse_ts` reads back from the `to_rfc3339` text of an instant. The RFC 3339 parser takes a
four-digit year only, so an instant outside the years 0 to 9999 is lost. -/
def storedInstant (t : Instant) : Option Instant :=
  if yearZero ≤ t ∧ t ≤ yearMax then some t else none

theorem storedInstant_of_mem {t : Instant} (hlow : yearZero ≤ t) (hhigh : t ≤ yearMax) :
    storedInstant t = some t := if_pos ⟨hlow, hhigh⟩

theorem storedInstant_eq_some_iff {t t' : Instant} :
    storedInstant t = some t' ↔ t' = t ∧ yearZero ≤ t ∧ t ≤ yearMax := by
  unfold storedInstant
  split
  · rename_i hyear
    simp [hyear, eq_comm]
  · rename_i hyear
    simp only [reduceCtorEq, false_iff, not_and]
    exact fun _ hlow hhigh => hyear ⟨hlow, hhigh⟩

end Pingward
