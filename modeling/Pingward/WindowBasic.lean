import Mathlib.Order.Basic
import Mathlib.Tactic.Linarith

/-! Counters of a fixed window, and how many attempts such a counter grants in an interval that is not
aligned with its windows. A counter is opened at some instant, charged at instants that do not go back, and
may be dropped once its window is over. -/

namespace FixedWindow

/-- The attempts charged to the current window, and when it started. -/
structure Counter where
  attempts : ℕ
  started : ℕ
  deriving DecidableEq, Repr

namespace Counter

/-- Charge one attempt: a window that is over is replaced by a new one. -/
def charge (max window now : ℕ) (counter : Counter) : Bool × Counter :=
  if counter.started + window ≤ now then (true, ⟨1, now⟩)
  else if max ≤ counter.attempts then (false, counter)
  else (true, { counter with attempts := counter.attempts + 1 })

end Counter

/-! ### Grants in an interval -/

/-- Whether the instant is in the interval of length `window` from `low`. -/
def Within (low window now : ℕ) : Prop := low ≤ now ∧ now < low + window

instance (low window now : ℕ) : Decidable (Within low window now) := inferInstanceAs (Decidable (_ ∧ _))

/-- What a bucket has granted in the interval from `low`, against what its counter still knows. At most one
window that started before the interval and one that started in it contribute: the grants of the first are
bounded by its counter, and no window ends in the interval that started in it. -/
structure Tally (max window low now : ℕ) (bucket : Option Counter) (grants : ℕ) : Prop where
  bounded : grants ≤ 2 * max
  early : now < low → grants = 0
  absent : bucket = none → now < low + window → grants ≤ max
  attempts : ∀ counter, bucket = some counter → counter.attempts ≤ max
  before : ∀ counter, bucket = some counter → now < low + window → counter.started < low → grants ≤ counter.attempts
  inside : ∀ counter, bucket = some counter → now < low + window → grants ≤ max + counter.attempts

namespace Tally

variable {max window low now : ℕ} {bucket : Option Counter} {counter : Counter} {grants : ℕ}

/-- Nothing granted yet. -/
theorem start (hattempts : ∀ counter, bucket = some counter → counter.attempts ≤ max) :
    Tally max window low now bucket 0 where
  bounded := Nat.zero_le _
  early _ := rfl
  absent _ _ := Nat.zero_le _
  attempts := hattempts
  before _ _ _ _ := Nat.zero_le _
  inside _ _ _ := Nat.zero_le _

/-- Time passes. -/
theorem later (htally : Tally max window low now bucket grants) {now' : ℕ} (hle : now ≤ now') :
    Tally max window low now' bucket grants where
  bounded := htally.bounded
  early hlow := htally.early (hle.trans_lt hlow)
  absent hnone hhigh := htally.absent hnone (hle.trans_lt hhigh)
  attempts := htally.attempts
  before counter hsome hhigh := htally.before counter hsome (hle.trans_lt hhigh)
  inside counter hsome hhigh := htally.inside counter hsome (hle.trans_lt hhigh)

/-- A counter whose window is over is dropped. -/
theorem drop (htally : Tally max window low now (some counter) grants) (hover : counter.started + window ≤ now) :
    Tally max window low now none grants where
  bounded := htally.bounded
  early := htally.early
  absent _ hhigh := by
    have hattempts := htally.attempts counter rfl
    have hbefore := htally.before counter rfl hhigh (by omega)
    omega
  attempts _ hsome := nomatch hsome
  before _ hsome := nomatch hsome
  inside _ hsome := nomatch hsome

/-- The bounds of a bucket that has a counter. -/
theorem of_counter (hbounded : grants ≤ 2 * max) (hearly : now < low → grants = 0) (hattempts : counter.attempts ≤ max)
    (hbefore : now < low + window → counter.started < low → grants ≤ counter.attempts)
    (hinside : now < low + window → grants ≤ max + counter.attempts) :
    Tally max window low now (some counter) grants where
  bounded := hbounded
  early := hearly
  absent hnone := nomatch hnone
  attempts := by
    rintro _ ⟨⟩
    exact hattempts
  before := by
    rintro _ ⟨⟩
    exact hbefore
  inside := by
    rintro _ ⟨⟩
    exact hinside

/-- A counter is opened. -/
theorem reopen (htally : Tally max window low now none grants) : Tally max window low now (some ⟨0, now⟩) grants :=
  of_counter htally.bounded htally.early (Nat.zero_le _) (fun _ hlow => (htally.early hlow).le)
    fun hhigh => (htally.absent rfl hhigh).trans (Nat.le_add_right _ _)

/-- A window that is over is replaced, with one attempt granted. If the new one starts in the interval, the
old one started before it. -/
theorem restart (htally : Tally max window low now (some counter) grants) (hmax : 1 ≤ max)
    (hover : counter.started + window ≤ now) :
    Tally max window low now (some ⟨1, now⟩) (grants + if Within low window now then 1 else 0) := by
  have hattempts := htally.attempts counter rfl
  have hbounded := htally.bounded
  by_cases hin : Within low window now
  · have hold := htally.before counter rfl hin.2 (by have := hin.2; omega)
    rw [if_pos hin]
    refine of_counter (by omega) (fun hlow => ?_) hmax (fun _ hlow => ?_) fun _ => ?_
    · exact absurd hin.1 (not_le.mpr hlow)
    · exact absurd hin.1 (not_le.mpr hlow)
    · show grants + 1 ≤ max + 1
      omega
  · rw [if_neg hin, Nat.add_zero]
    have hearly : now < low + window → grants = 0 := by
      intro hhigh
      exact htally.early (lt_of_not_ge fun hlow => hin ⟨hlow, hhigh⟩)
    refine of_counter hbounded htally.early hmax (fun hhigh _ => ?_) fun hhigh => ?_
    · rw [hearly hhigh]
      exact Nat.zero_le _
    · rw [hearly hhigh]
      exact Nat.zero_le _

/-- An attempt is granted in the current window. -/
theorem grant (htally : Tally max window low now (some counter) grants) (hroom : counter.attempts < max) :
    Tally max window low now (some { counter with attempts := counter.attempts + 1 })
      (grants + if Within low window now then 1 else 0) := by
  have hbounded := htally.bounded
  by_cases hin : Within low window now
  · have hinside := htally.inside counter rfl hin.2
    rw [if_pos hin]
    refine of_counter (by omega) (fun hlow => ?_) hroom (fun hhigh hlow => ?_) fun _ => ?_
    · exact absurd hin.1 (not_le.mpr hlow)
    · exact Nat.succ_le_succ (htally.before counter rfl hhigh hlow)
    · show grants + 1 ≤ max + (counter.attempts + 1)
      omega
  · rw [if_neg hin, Nat.add_zero]
    refine of_counter hbounded htally.early hroom (fun hhigh hlow => ?_) fun hhigh => ?_
    · exact (htally.before counter rfl hhigh hlow).trans (Nat.le_succ _)
    · exact (htally.inside counter rfl hhigh).trans (Nat.le_succ _)

/-- **A charge.** The grant counts when its instant is in the interval. -/
theorem charge (htally : Tally max window low now (some counter) grants) (hmax : 1 ≤ max) :
    Tally max window low now (some (counter.charge max window now).2)
      (grants + if (counter.charge max window now).1 ∧ Within low window now then 1 else 0) := by
  unfold Counter.charge
  split
  · rename_i hover
    simpa using htally.restart hmax hover
  · split
    · simpa using htally
    · rename_i hroom
      simpa using htally.grant (Nat.lt_of_not_le hroom)

end Tally

end FixedWindow
