import Pingward.LimiterContract

/-! Refunds. `release` decides which counter to lower from the map as it then is, while the attempt it hands
back was charged to the map as it was. Every attempt is followed here from the call that charged it to the
call that releases it, with the window it was charged to, over any interleaving of the calls of any number of
logins. -/

open KeyedTable FixedWindow

namespace Pingward

variable {κ : Type} [DecidableEq κ] {limits : RateLimits} {buckets : Buckets κ} {key : κ} {now : Nat}

/-! ### What one call does to each counter -/

theorem elapsedSecs_mono {started now' : Nat} (hle : now ≤ now') : elapsedSecs started now ≤ elapsedSecs started now' :=
  Nat.div_le_div_right (Nat.sub_le_sub_right hle started)

theorem charge_over {counter : Counter} {max windowSecs : Nat} (hover : windowSecs ≤ elapsedSecs counter.started now) :
    charge counter max windowSecs now = (true, ⟨1, now⟩) := if_pos hover

theorem charge_live (max : Nat) {counter : Counter} {windowSecs : Nat}
    (hlive : ¬ windowSecs ≤ elapsedSecs counter.started now) :
    (charge counter max windowSecs now).2.started = counter.started ∧
      (charge counter max windowSecs now).2.attempts =
        counter.attempts + if (charge counter max windowSecs now).1 then 1 else 0 := by
  unfold charge
  rw [if_neg hlive]
  by_cases hfull : max ≤ counter.attempts
  · rw [if_pos hfull]
    exact ⟨rfl, rfl⟩
  · rw [if_neg hfull]
    exact ⟨rfl, rfl⟩

/-- The first charge of a new counter. -/
theorem charge_fresh (max windowSecs now : Nat) :
    (charge ⟨0, now⟩ max windowSecs now).2.started = now ∧
      (if (charge ⟨0, now⟩ max windowSecs now).1 then 1 else 0) ≤ (charge ⟨0, now⟩ max windowSecs now).2.attempts := by
  by_cases hover : windowSecs ≤ elapsedSecs (⟨0, now⟩ : Counter).started now
  · rw [charge_over hover]
    exact ⟨rfl, le_refl 1⟩
  · obtain ⟨hstarted, hattempts⟩ := charge_live max hover
    refine ⟨hstarted, ?_⟩
    rw [hattempts]
    exact Nat.le_add_left _ _

namespace Buckets

/-- The bucket an attempt is charged to. -/
def chargedTo (limits : RateLimits) (key : κ) (now : Nat) (buckets : Buckets κ) : Charged κ :=
  if buckets.overflows limits key now then .overflow else .own key

/-- Whether a charge of the bucket begins a window. -/
def begins (limits : RateLimits) (charged : Charged κ) (now : Nat) (buckets : Buckets κ) : Bool :=
  (buckets.counterAt charged).all fun counter => limits.windowSecs ≤ elapsedSecs counter.started now

/-- The bucket `release` looks at. -/
def refunded (key : κ) (buckets : Buckets κ) : Charged κ :=
  if (buckets.perKey.find key).isSome then .own key else .overflow

/-- The attempts of a bucket; one that is not there has none. -/
def attemptsAt (buckets : Buckets κ) (charged : Charged κ) : Nat :=
  (buckets.counterAt charged).elim 0 Counter.attempts

/-- What a charge does to a bucket: its own counter is charged, another one is left or, elapsed, dropped. -/
structure Charges (limits : RateLimits) (charged : Charged κ) (now : Nat) (buckets : Buckets κ) (granted : Bool)
    (after : Buckets κ) : Prop where
  granted_eq : granted =
    (charge ((buckets.counterAt charged).getD ⟨0, now⟩) (limits.limitOf charged) limits.windowSecs now).1
  counter_eq : after.counterAt charged =
    some (charge ((buckets.counterAt charged).getD ⟨0, now⟩) (limits.limitOf charged) limits.windowSecs now).2
  others : ∀ other, other ≠ charged → after.counterAt other = buckets.counterAt other ∨
    after.counterAt other = none ∧
      ∃ counter, buckets.counterAt other = some counter ∧ limits.windowSecs ≤ elapsedSecs counter.started now

theorem counterAt_retain (limits : RateLimits) (now : Nat) (buckets : Buckets κ) (charged : Charged κ) :
    (buckets.retain limits now).counterAt charged = buckets.counterAt charged ∨
      (buckets.retain limits now).counterAt charged = none ∧
        ∃ counter, buckets.counterAt charged = some counter ∧ limits.windowSecs ≤ elapsedSecs counter.started now := by
  cases charged with
  | overflow => exact Or.inl rfl
  | own k =>
      rw [counterAt_own, counterAt_own, find_retain]
      cases hfind : buckets.perKey.find k with
      | none => exact Or.inl rfl
      | some bucket =>
          by_cases hlive : elapsedSecs bucket.counter.started now < limits.windowSecs
          · left
            rw [Option.filter_some, if_pos (decide_eq_true hlive)]
          · refine Or.inr ⟨?_, bucket.counter, rfl, not_lt.mp hlive⟩
            rw [Option.filter_some, if_neg (by rwa [decide_eq_true_eq])]
            rfl

theorem chargeOwn_charges (limits : RateLimits) (key : κ) (now : Nat) (buckets : Buckets κ) :
    Charges limits (.own key) now buckets (buckets.chargeOwn limits key now).1 (buckets.chargeOwn limits key now).2 := by
  have hcounter : (buckets.counterAt (.own key)).getD ⟨0, now⟩ = buckets.counterOf key now := by
    rw [counterAt_own, counterOf]
  refine ⟨by rw [hcounter]; rfl, ?_, fun other hother => Or.inl ?_⟩
  · rw [hcounter, counterAt_own, find_chargeOwn, if_pos rfl]
    rfl
  · cases other with
    | overflow => rfl
    | own k =>
        rw [counterAt_own, counterAt_own, find_chargeOwn, if_neg]
        exact fun hk => hother (hk ▸ rfl)

namespace Charges

variable {charged : Charged κ} {granted : Bool} {after : Buckets κ}

/-- A charge that begins a window. -/
theorem begun (hcharges : Charges limits charged now buckets granted after)
    (hbegins : buckets.begins limits charged now = true) :
    ∃ counter, after.counterAt charged = some counter ∧ counter.started = now ∧
      (if granted then 1 else 0) ≤ counter.attempts := by
  refine ⟨_, hcharges.counter_eq, ?_⟩
  rw [hcharges.granted_eq]
  cases hcounter : buckets.counterAt charged with
  | none => exact charge_fresh _ _ now
  | some counter =>
      rw [begins, hcounter, Option.all_some, decide_eq_true_eq] at hbegins
      rw [Option.getD_some, charge_over hbegins]
      exact ⟨rfl, le_refl 1⟩

/-- A charge within a window. -/
theorem continued (hcharges : Charges limits charged now buckets granted after)
    (hbegins : buckets.begins limits charged now = false) :
    ∃ old counter, buckets.counterAt charged = some old ∧ after.counterAt charged = some counter ∧
      counter.started = old.started ∧ counter.attempts = old.attempts + if granted then 1 else 0 := by
  cases hcounter : buckets.counterAt charged with
  | none =>
      rw [begins, hcounter] at hbegins
      cases hbegins
  | some old =>
      rw [begins, hcounter, Option.all_some, decide_eq_false_iff_not] at hbegins
      have hlive := charge_live (limits.limitOf charged) hbegins
      refine ⟨old, _, rfl, hcharges.counter_eq, ?_⟩
      rw [hcharges.granted_eq, hcounter, Option.getD_some]
      exact hlive

end Charges

/-- **`try_acquire`.** -/
theorem tryAcquire_charges (limits : RateLimits) (key : κ) (now : Nat) (buckets : Buckets κ) :
    Charges limits (buckets.chargedTo limits key now) now buckets (buckets.tryAcquire limits key now).1
      (buckets.tryAcquire limits key now).2 := by
  unfold tryAcquire chargedTo overflows
  by_cases hfull : buckets.isFull limits ∧ (buckets.perKey.find key).isNone
  · rw [if_pos hfull]
    by_cases hstill : (buckets.retain limits now).isFull limits = true
    · simp only [hfull.1, hfull.2, hstill, and_self, decide_true, if_true]
      refine ⟨rfl, rfl, fun other hother => ?_⟩
      cases other with
      | overflow => exact absurd rfl hother
      | own k => exact counterAt_retain limits now buckets (.own k)
    · simp only [hstill, and_false, decide_false, Bool.false_eq_true, if_false]
      have hcharges := chargeOwn_charges limits key now (buckets.retain limits now)
      have hnone : buckets.counterAt (.own key) = none := by
        rw [counterAt_own, Option.isNone_iff_eq_none.mp hfull.2]
        rfl
      have hsame : (buckets.retain limits now).counterAt (.own key) = buckets.counterAt (.own key) := by
        rcases counterAt_retain limits now buckets (.own key) with h | ⟨_, _, h, _⟩
        · exact h
        · rw [hnone] at h
          cases h
      refine ⟨hsame ▸ hcharges.granted_eq, hsame ▸ hcharges.counter_eq, fun other hother => ?_⟩
      rcases hcharges.others other hother with h | ⟨hafter, counter, hcounter, helapsed⟩
      · rw [h]
        exact counterAt_retain limits now buckets other
      · rcases counterAt_retain limits now buckets other with h | ⟨_, h⟩
        · exact Or.inr ⟨hafter, counter, h ▸ hcounter, helapsed⟩
        · exact Or.inr ⟨hafter, h⟩
  · rw [if_neg hfull]
    have hnot : ¬ (buckets.isFull limits ∧ (buckets.perKey.find key).isNone ∧ (buckets.retain limits now).isFull limits) :=
      fun h => hfull ⟨h.1, h.2.1⟩
    simp only [hnot, decide_false, Bool.false_eq_true, if_false]
    exact chargeOwn_charges limits key now buckets

theorem counterAt_clear (charged : Charged κ) :
    (buckets.clear key).counterAt charged = if charged = .own key then none else buckets.counterAt charged := by
  cases charged with
  | overflow => rfl
  | own k =>
      rw [counterAt_own, counterAt_own]
      have hfind : (buckets.clear key).perKey.find k =
          (buckets.perKey.find k).filter fun bucket => !decide (bucket.key = key) := Table.find_deleteWhere _ _ k
      rw [hfind]
      by_cases hk : k = key
      · subst hk
        rw [if_pos rfl]
        cases hbucket : buckets.perKey.find k with
        | none => rfl
        | some bucket =>
            have hkey : bucket.key = k := Table.find_key _ hbucket
            simp [hkey]
      · rw [if_neg fun h => hk (Charged.own.inj h)]
        cases hbucket : buckets.perKey.find k with
        | none => rfl
        | some bucket =>
            have hkey : bucket.key = k := Table.find_key _ hbucket
            simp [hkey, hk]

/-- `release` leaves every counter but the one it looks at. -/
theorem counterAt_release_of_ne {charged : Charged κ} (hne : charged ≠ buckets.refunded key) :
    (buckets.release key).counterAt charged = buckets.counterAt charged := by
  unfold release
  unfold refunded at hne
  cases hfind : buckets.perKey.find key with
  | none =>
      rw [hfind] at hne
      cases charged with
      | overflow => exact absurd rfl hne
      | own k => rfl
  | some bucket =>
      rw [hfind] at hne
      have hne : charged ≠ .own key := hne
      dsimp only
      split
      · rw [counterAt_clear, if_neg hne]
      · cases charged with
        | overflow => rfl
        | own k =>
            rw [counterAt_own, counterAt_own, find_setCounter, if_neg]
            exact fun hk => hne (hk ▸ rfl)

/-- The counter it looks at loses an attempt; an entry without attempts goes away. -/
theorem counterAt_release_self (key : κ) (buckets : Buckets κ) :
    ∃ counter, buckets.counterAt (buckets.refunded key) = some counter ∧
      ((buckets.release key).counterAt (buckets.refunded key) = some { counter with attempts := counter.attempts - 1 } ∨
        (buckets.release key).counterAt (buckets.refunded key) = none ∧ counter.attempts - 1 = 0) := by
  unfold release refunded
  cases hfind : buckets.perKey.find key with
  | none => exact ⟨buckets.overflow, rfl, Or.inl rfl⟩
  | some bucket =>
      rw [Option.isSome_some, if_pos rfl]
      refine ⟨bucket.counter, by rw [counterAt_own, hfind]; rfl, ?_⟩
      dsimp only
      by_cases hzero : bucket.counter.attempts - 1 = 0
      · rw [if_pos hzero, counterAt_clear, if_pos rfl]
        exact Or.inr ⟨rfl, hzero⟩
      · rw [if_neg hzero, counterAt_own, find_setCounter, if_pos rfl, hfind]
        exact Or.inl rfl

/-- `release` lowers the counter it looks at, if that has an attempt, and no other. -/
theorem attemptsAt_release_lt_iff {charged : Charged κ} :
    (buckets.release key).attemptsAt charged < buckets.attemptsAt charged ↔
      charged = buckets.refunded key ∧ buckets.attemptsAt charged ≠ 0 := by
  unfold attemptsAt
  by_cases hcharged : charged = buckets.refunded key
  · subst hcharged
    obtain ⟨counter, hcounter, hafter | ⟨hafter, hzero⟩⟩ := counterAt_release_self key buckets
    · rw [hcounter, hafter]
      simp only [Option.elim_some, true_and]
      omega
    · rw [hcounter, hafter]
      simp only [Option.elim_some, Option.elim_none, true_and]
      omega
  · rw [counterAt_release_of_ne hcharged]
    simp only [lt_self_iff_false, hcharged, false_and]

end Buckets

/-! ### Attempts that were not handed back -/

/-- The calls of the logins on one limiter. A login hands back an attempt of its own, which is named by the
number of the call that made it. -/
inductive LimiterCall (κ : Type) where
  | attempt (key : κ)
  | release (attempt : Nat)
  | clear (key : κ)
  deriving DecidableEq, Repr

/-- A granted attempt: the bucket it was charged to, the call that began the window it was charged to, and
when that window started. -/
structure Reservation (κ : Type) where
  attempt : Nat
  key : κ
  charged : Charged κ
  window : Nat
  started : Nat
  /-- Whether its bucket was cleared since. -/
  cleared : Bool
  deriving DecidableEq, Repr

/-- A limiter in use, with the call that began the present window of each bucket and the attempts that were
granted and not handed back. -/
structure Reservations (κ : Type) where
  buckets : Buckets κ
  calls : Nat
  now : Nat
  began : Charged κ → Nat
  held : List (Reservation κ)

namespace Reservations

/-- `RateLimiter::new` is the call with number 0. -/
def new (created : Nat) : Reservations κ where
  buckets := .new created
  calls := 1
  now := created
  began _ := 0
  held := []

def attempt (limits : RateLimits) (now : Nat) (key : κ) (s : Reservations κ) : Reservations κ :=
  let charged := s.buckets.chargedTo limits key now
  let acquired := s.buckets.tryAcquire limits key now
  let window := if s.buckets.begins limits charged now then s.calls else s.began charged
  { buckets := acquired.2
    calls := s.calls + 1
    now := now
    began := fun other => if other = charged then window else s.began other
    held :=
      if acquired.1 then
        ⟨s.calls, key, charged, window, (acquired.2.counterAt charged).elim now Counter.started, false⟩ :: s.held
      else s.held }

/-- The attempt of a login that has not handed it back. -/
def reservation (attempt : Nat) (s : Reservations κ) : Option (Reservation κ) :=
  s.held.find? fun held => held.attempt = attempt

/-- A login that has nothing to hand back makes no call. -/
def release (now : Nat) (attempt : Nat) (s : Reservations κ) : Reservations κ :=
  match s.reservation attempt with
  | none => { s with calls := s.calls + 1, now := now }
  | some held =>
      { s with
        buckets := s.buckets.release held.key
        calls := s.calls + 1
        now := now
        held := s.held.eraseP fun held => held.attempt = attempt }

def clear (now : Nat) (key : κ) (s : Reservations κ) : Reservations κ :=
  { s with
    buckets := s.buckets.clear key
    calls := s.calls + 1
    now := now
    held := s.held.map fun held => if held.charged = .own key then { held with cleared := true } else held }

def step (limits : RateLimits) (now : Nat) (call : LimiterCall κ) (s : Reservations κ) : Reservations κ :=
  match call with
  | .attempt key => s.attempt limits now key
  | .release attempt => s.release now attempt
  | .clear key => s.clear now key

/-- The attempts in the present window of a bucket that were not handed back. -/
def remaining (s : Reservations κ) (charged : Charged κ) (window : Nat) : Nat :=
  s.held.countP fun held => held.charged = charged ∧ held.window = window

/-- Handing back the attempt lowers no counter but that of the bucket it was charged to, in the window it was
charged to. -/
def Exact (attempt : Nat) (s : Reservations κ) : Prop :=
  ∀ held, s.reservation attempt = some held → ∀ charged,
    (s.buckets.release held.key).attemptsAt charged < s.buckets.attemptsAt charged →
      charged = held.charged ∧ s.began charged = held.window

/-- The counter that `release` will look at, the key's own one if the key has one now, is without attempts, or
it is that of the bucket the attempt was charged to and no window began there since. -/
def Refundable (attempt : Nat) (s : Reservations κ) : Prop :=
  ∀ held, s.reservation attempt = some held →
    s.buckets.attemptsAt (s.buckets.refunded held.key) = 0 ∨
      s.buckets.refunded held.key = held.charged ∧ s.began held.charged = held.window

/-- The runs of a limiter that was created at some instant, on a clock that does not go back, in which every
attempt is refundable when it is handed back. -/
inductive Reached (limits : RateLimits) (created : Nat) : Reservations κ → Prop where
  | new : Reached limits created (.new created)
  | step {s : Reservations κ} {now : Nat} {call : LimiterCall κ} (hreached : Reached limits created s)
      (hclock : s.now ≤ now) (hmeets : ∀ attempt, call = .release attempt → s.Refundable attempt) :
      Reached limits created (s.step limits now call)

/-- Nothing was lost: in the present window of a bucket its counter is at least the attempts that were not
handed back, and the window of such an attempt is present unless it is over or was cleared. -/
structure Kept (limits : RateLimits) (s : Reservations κ) : Prop where
  counted : ∀ charged counter, s.buckets.counterAt charged = some counter →
    s.remaining charged (s.began charged) ≤ counter.attempts
  present : ∀ held ∈ s.held, limits.windowSecs ≤ elapsedSecs held.started s.now ∨ held.cleared = true ∨
    (s.buckets.counterAt held.charged).isSome = true ∧ s.began held.charged = held.window

/-- **When a refund is exact.** -/
theorem exact_iff_refundable (attempt : Nat) (s : Reservations κ) : s.Exact attempt ↔ s.Refundable attempt := by
  refine forall_congr' fun held => forall_congr' fun _ => ?_
  simp only [Buckets.attemptsAt_release_lt_iff]
  constructor
  · intro hexact
    by_cases hzero : s.buckets.attemptsAt (s.buckets.refunded held.key) = 0
    · exact Or.inl hzero
    · obtain ⟨hcharged, hwindow⟩ := hexact _ ⟨rfl, hzero⟩
      exact Or.inr ⟨hcharged, hcharged ▸ hwindow⟩
  · rintro (hzero | ⟨hcharged, hwindow⟩) charged ⟨rfl, hpos⟩
    · exact absurd hzero hpos
    · exact ⟨hcharged, hcharged ▸ hwindow⟩

/-- The windows of the attempts: each began with an earlier call, and where it is present it was not cleared
and its counter started when the window did. -/
structure Dated (s : Reservations κ) : Prop where
  begun : ∀ charged, s.began charged < s.calls
  earlier : ∀ held ∈ s.held, held.window < s.calls
  same : ∀ held ∈ s.held, s.began held.charged = held.window → ∀ counter,
    s.buckets.counterAt held.charged = some counter → held.cleared = false ∧ counter.started = held.started

variable {s : Reservations κ}

theorem remaining_pos {held : Reservation κ} (hheld : held ∈ s.held) : 0 < s.remaining held.charged held.window :=
  List.countP_pos_iff.mpr ⟨held, hheld, decide_eq_true ⟨rfl, rfl⟩⟩

theorem Dated.remaining_calls (hdated : s.Dated) (charged : Charged κ) : s.remaining charged s.calls = 0 := by
  rw [remaining, List.countP_eq_zero]
  intro held hheld h
  exact absurd (of_decide_eq_true h).2 (Nat.ne_of_lt (hdated.earlier held hheld))

/-! ### An attempt -/

/-- The window an attempt is charged to. -/
def windowOf (limits : RateLimits) (now : Nat) (key : κ) (s : Reservations κ) : Nat :=
  if s.buckets.begins limits (s.buckets.chargedTo limits key now) now then s.calls
  else s.began (s.buckets.chargedTo limits key now)

theorem remaining_attempt (charged : Charged κ) (window : Nat) :
    (s.attempt limits now key).remaining charged window = s.remaining charged window +
      if (s.buckets.tryAcquire limits key now).1 ∧ s.buckets.chargedTo limits key now = charged ∧
          s.windowOf limits now key = window then 1 else 0 := by
  unfold remaining attempt windowOf
  dsimp only
  by_cases hgranted : (s.buckets.tryAcquire limits key now).1 = true
  · rw [if_pos hgranted, List.countP_cons]
    simp only [hgranted, true_and, decide_eq_true_eq]
  · rw [if_neg hgranted, if_neg fun h => hgranted h.1]
    rfl

theorem began_attempt_self :
    (s.attempt limits now key).began (s.buckets.chargedTo limits key now) = s.windowOf limits now key := if_pos rfl

theorem began_attempt_of_ne {charged : Charged κ} (hne : charged ≠ s.buckets.chargedTo limits key now) :
    (s.attempt limits now key).began charged = s.began charged := if_neg hne

theorem mem_held_attempt {held : Reservation κ} (hheld : held ∈ (s.attempt limits now key).held) :
    held ∈ s.held ∨ held = ⟨s.calls, key, s.buckets.chargedTo limits key now, s.windowOf limits now key,
      ((s.attempt limits now key).buckets.counterAt (s.buckets.chargedTo limits key now)).elim now Counter.started,
      false⟩ := by
  unfold attempt at hheld
  dsimp only at hheld
  split at hheld
  · rcases List.mem_cons.mp hheld with h | h
    · exact Or.inr h
    · exact Or.inl h
  · exact Or.inl hheld

theorem Dated.windowOf_lt (hdated : s.Dated) (limits : RateLimits) (now : Nat) (key : κ) :
    s.windowOf limits now key < s.calls + 1 := by
  unfold windowOf
  split
  · exact Nat.lt_succ_self _
  · exact Nat.lt_succ_of_lt (hdated.begun _)

/-- The window of an attempt that was not handed back is charged again: it is not over, and its counter is the
one that was there. -/
theorem Dated.continued (hdated : s.Dated) {held : Reservation κ} (hheld : held ∈ s.held)
    (hwindow : s.windowOf limits now key = held.window) :
    s.buckets.begins limits (s.buckets.chargedTo limits key now) now = false := by
  unfold windowOf at hwindow
  by_cases hbegins : s.buckets.begins limits (s.buckets.chargedTo limits key now) now = true
  · rw [if_pos hbegins] at hwindow
    exact absurd hwindow (Nat.ne_of_gt (hdated.earlier held hheld))
  · exact Bool.not_eq_true _ ▸ hbegins

theorem windowOf_continued (hbegins : s.buckets.begins limits (s.buckets.chargedTo limits key now) now = false) :
    s.windowOf limits now key = s.began (s.buckets.chargedTo limits key now) :=
  if_neg (by rw [hbegins]; exact Bool.false_ne_true)

theorem Dated.attempt (hdated : s.Dated) (limits : RateLimits) (now : Nat) (key : κ) :
    (s.attempt limits now key).Dated := by
  have hcharges := Buckets.tryAcquire_charges limits key now s.buckets
  refine ⟨fun charged => ?_, fun held hheld => ?_, fun held hheld hwindow counter hcounter => ?_⟩
  · by_cases hcharged : charged = s.buckets.chargedTo limits key now
    · rw [hcharged, began_attempt_self]
      exact hdated.windowOf_lt limits now key
    · rw [began_attempt_of_ne hcharged]
      exact Nat.lt_succ_of_lt (hdated.begun charged)
  · rcases mem_held_attempt hheld with h | rfl
    · exact Nat.lt_succ_of_lt (hdated.earlier held h)
    · exact hdated.windowOf_lt limits now key
  · rcases mem_held_attempt hheld with h | rfl
    · by_cases hcharged : held.charged = s.buckets.chargedTo limits key now
      · rw [hcharged, began_attempt_self] at hwindow
        have hbegins := hdated.continued h hwindow
        obtain ⟨old, counter', hold, hcounter', hstarted, _⟩ := hcharges.continued hbegins
        rw [hcharged] at hcounter
        cases hcounter.symm.trans hcounter'
        rw [hstarted]
        exact hdated.same held h (by rw [hcharged, ← windowOf_continued hbegins, hwindow]) old (by rw [hcharged, hold])
      · rw [began_attempt_of_ne hcharged] at hwindow
        rcases hcharges.others _ hcharged with hsame | ⟨hnone, _⟩
        · exact hdated.same held h hwindow counter (hsame ▸ hcounter)
        · cases hcounter.symm.trans hnone
    · dsimp only at hcounter ⊢
      rw [hcounter]
      exact ⟨rfl, rfl⟩

theorem Kept.attempt (hkept : s.Kept limits) (hdated : s.Dated) (hclock : s.now ≤ now) (key : κ) :
    (s.attempt limits now key).Kept limits := by
  have hcharges := Buckets.tryAcquire_charges limits key now s.buckets
  refine ⟨fun charged counter hcounter => ?_, fun held hheld => ?_⟩
  · rw [remaining_attempt]
    by_cases hcharged : charged = s.buckets.chargedTo limits key now
    · subst hcharged
      rw [began_attempt_self]
      simp only [and_true]
      cases hbegins : s.buckets.begins limits (s.buckets.chargedTo limits key now) now with
      | true =>
          obtain ⟨counter', hcounter', _, hattempts⟩ := hcharges.begun hbegins
          cases hcounter.symm.trans hcounter'
          have hwindow : s.windowOf limits now key = s.calls := if_pos hbegins
          rw [hwindow, hdated.remaining_calls, Nat.zero_add]
          exact hattempts
      | false =>
          obtain ⟨old, counter', hold, hcounter', _, hattempts⟩ := hcharges.continued hbegins
          cases hcounter.symm.trans hcounter'
          rw [windowOf_continued hbegins, hattempts]
          exact Nat.add_le_add_right (hkept.counted _ old hold) _
    · rw [began_attempt_of_ne hcharged, if_neg fun h => hcharged h.2.1.symm, Nat.add_zero]
      rcases hcharges.others charged hcharged with hsame | ⟨hnone, _⟩
      · exact hkept.counted charged counter (hsame ▸ hcounter)
      · cases hcounter.symm.trans hnone
  · rcases mem_held_attempt hheld with h | rfl
    · rcases hkept.present held h with hover | hcleared | ⟨hsome, hwindow⟩
      · exact Or.inl (hover.trans (elapsedSecs_mono hclock))
      · exact Or.inr (Or.inl hcleared)
      · obtain ⟨old, hold⟩ := Option.isSome_iff_exists.mp hsome
        have hstarted := (hdated.same held h hwindow old hold).2
        by_cases hcharged : held.charged = s.buckets.chargedTo limits key now
        · rw [hcharged] at hold hwindow ⊢
          cases hbegins : s.buckets.begins limits (s.buckets.chargedTo limits key now) now with
          | true =>
              rw [Buckets.begins, hold, Option.all_some, decide_eq_true_eq, hstarted] at hbegins
              exact Or.inl hbegins
          | false =>
              right
              right
              rw [began_attempt_self, windowOf_continued hbegins]
              refine ⟨?_, hwindow⟩
              exact Option.isSome_iff_exists.mpr ⟨_, hcharges.counter_eq⟩
        · rcases hcharges.others _ hcharged with hsame | ⟨_, counter, hcounter, helapsed⟩
          · right
            right
            rw [began_attempt_of_ne hcharged]
            exact ⟨hsame ▸ hsome, hwindow⟩
          · cases hold.symm.trans hcounter
            rw [hstarted] at helapsed
            exact Or.inl helapsed
    · right
      right
      refine ⟨?_, began_attempt_self⟩
      exact Option.isSome_iff_exists.mpr ⟨_, hcharges.counter_eq⟩

/-! ### A release -/

/-- Time passes. -/
theorem Kept.later (hkept : s.Kept limits) (hclock : s.now ≤ now) (calls : Nat) :
    Kept limits { s with calls := calls, now := now } where
  counted := hkept.counted
  present held hheld := (hkept.present held hheld).imp_left fun hover => hover.trans (elapsedSecs_mono hclock)

theorem Dated.later (hdated : s.Dated) (now : Nat) : Dated { s with calls := s.calls + 1, now := now } where
  begun charged := Nat.lt_succ_of_lt (hdated.begun charged)
  earlier held hheld := Nat.lt_succ_of_lt (hdated.earlier held hheld)
  same := hdated.same

theorem remaining_release (now : Nat) {attempt : Nat} {held : Reservation κ} (hheld : s.reservation attempt = some held)
    (charged : Charged κ) (window : Nat) :
    (s.release now attempt).remaining charged window +
      (if held.charged = charged ∧ held.window = window then 1 else 0) = s.remaining charged window := by
  obtain ⟨hattempt, before, rest, hsplit, hbefore⟩ := List.find?_eq_some_iff_append.mp hheld
  have herase : (s.release now attempt).held = before ++ rest := by
    unfold release
    rw [hheld]
    dsimp only
    rw [hsplit, List.eraseP_append_right,
      List.eraseP_cons_of_pos (p := fun held : Reservation κ => decide (held.attempt = attempt)) hattempt]
    intro other hother
    simpa using hbefore other hother
  unfold remaining
  rw [herase, hsplit, List.countP_append, List.countP_append, List.countP_cons, Nat.add_assoc]
  simp only [decide_eq_true_eq]

theorem mem_held_release {attempt : Nat} {held : Reservation κ} (hheld : held ∈ (s.release now attempt).held) :
    held ∈ s.held := by
  unfold release at hheld
  split at hheld
  · exact hheld
  · exact List.mem_of_mem_eraseP hheld

theorem began_release (attempt : Nat) : (s.release now attempt).began = s.began := by
  unfold release
  split <;> rfl

theorem Dated.release (hdated : s.Dated) (now : Nat) (attempt : Nat) : (s.release now attempt).Dated := by
  cases hreservation : s.reservation attempt with
  | none =>
      unfold Reservations.release
      rw [hreservation]
      exact hdated.later now
  | some reservation =>
      have hbuckets : (s.release now attempt).buckets = s.buckets.release reservation.key := by
        unfold Reservations.release
        rw [hreservation]
      have hcalls : (s.release now attempt).calls = s.calls + 1 := by
        unfold Reservations.release
        rw [hreservation]
      refine ⟨fun charged => ?_, fun held hheld => ?_, fun held hheld hwindow counter hcounter => ?_⟩
      · rw [began_release, hcalls]
        exact Nat.lt_succ_of_lt (hdated.begun charged)
      · rw [hcalls]
        exact Nat.lt_succ_of_lt (hdated.earlier held (mem_held_release hheld))
      · rw [began_release] at hwindow
        rw [hbuckets] at hcounter
        have hsame := hdated.same held (mem_held_release hheld) hwindow
        by_cases hcharged : held.charged = s.buckets.refunded reservation.key
        · obtain ⟨old, hold, hafter | ⟨hafter, _⟩⟩ := Buckets.counterAt_release_self reservation.key s.buckets
          · rw [hcharged, hafter, Option.some.injEq] at hcounter
            subst hcounter
            exact hsame old (hcharged ▸ hold)
          · rw [hcharged, hafter] at hcounter
            cases hcounter
        · rw [Buckets.counterAt_release_of_ne hcharged] at hcounter
          exact hsame counter hcounter

theorem Kept.release (hkept : s.Kept limits) (hclock : s.now ≤ now) {attempt : Nat} (hrefundable : s.Refundable attempt) :
    (s.release now attempt).Kept limits := by
  cases hreservation : s.reservation attempt with
  | none =>
      unfold Reservations.release
      rw [hreservation]
      exact hkept.later hclock _
  | some reservation =>
      have hbuckets : (s.release now attempt).buckets = s.buckets.release reservation.key := by
        unfold Reservations.release
        rw [hreservation]
      have hnow : (s.release now attempt).now = now := by
        unfold Reservations.release
        rw [hreservation]
      obtain ⟨old, hold, hafter⟩ := Buckets.counterAt_release_self reservation.key s.buckets
      -- the attempt that is handed back is one of those its counter covers, or the counter covers none
      have hlowered : (s.release now attempt).remaining (s.buckets.refunded reservation.key)
          (s.began (s.buckets.refunded reservation.key)) ≤ old.attempts - 1 := by
        have hcounted := hkept.counted _ old hold
        have hremaining := remaining_release now hreservation (s.buckets.refunded reservation.key)
          (s.began (s.buckets.refunded reservation.key))
        rcases hrefundable reservation hreservation with hzero | ⟨hcharged, hwindow⟩
        · rw [Buckets.attemptsAt, hold, Option.elim_some] at hzero
          omega
        · rw [if_pos ⟨hcharged.symm, by rw [hcharged, hwindow]⟩] at hremaining
          omega
      refine ⟨fun charged counter hcounter => ?_, fun held hheld => ?_⟩
      · rw [hbuckets] at hcounter
        rw [began_release]
        by_cases hcharged : charged = s.buckets.refunded reservation.key
        · subst hcharged
          rcases hafter with hafter | ⟨hafter, _⟩
          · rw [hafter, Option.some.injEq] at hcounter
            subst hcounter
            exact hlowered
          · rw [hafter] at hcounter
            cases hcounter
        · rw [Buckets.counterAt_release_of_ne hcharged] at hcounter
          have hremaining := remaining_release now hreservation charged (s.began charged)
          have hcounted := hkept.counted charged counter hcounter
          omega
      · rw [hbuckets, began_release, hnow]
        rcases hkept.present held (mem_held_release hheld) with hover | hcleared | ⟨hsome, hwindow⟩
        · exact Or.inl (hover.trans (elapsedSecs_mono hclock))
        · exact Or.inr (Or.inl hcleared)
        · refine Or.inr (Or.inr ⟨?_, hwindow⟩)
          by_cases hcharged : held.charged = s.buckets.refunded reservation.key
          · rcases hafter with hafter | ⟨_, hzero⟩
            · rw [hcharged, hafter]
              rfl
            · have hpos := remaining_pos hheld
              rw [← hcharged, hwindow] at hlowered
              omega
          · rw [Buckets.counterAt_release_of_ne hcharged]
            exact hsome

/-! ### A clear -/

theorem remaining_clear (charged : Charged κ) (window : Nat) :
    (s.clear now key).remaining charged window = s.remaining charged window := by
  unfold remaining clear
  rw [List.countP_map]
  congr 1
  funext held
  simp only [Function.comp_apply]
  split <;> rfl

theorem mem_held_clear {held : Reservation κ} (hheld : held ∈ (s.clear now key).held) :
    ∃ old ∈ s.held, held.charged = old.charged ∧ held.window = old.window ∧ held.started = old.started ∧
      (held.charged ≠ .own key ∧ held.cleared = old.cleared ∨ held.charged = .own key ∧ held.cleared = true) := by
  obtain ⟨old, hold, rfl⟩ := List.mem_map.mp hheld
  refine ⟨old, hold, ?_⟩
  split
  · rename_i hcharged
    exact ⟨rfl, rfl, rfl, Or.inr ⟨hcharged, rfl⟩⟩
  · rename_i hcharged
    exact ⟨rfl, rfl, rfl, Or.inl ⟨hcharged, rfl⟩⟩

theorem Dated.clear (hdated : s.Dated) (now : Nat) (key : κ) : (s.clear now key).Dated := by
  refine ⟨fun charged => Nat.lt_succ_of_lt (hdated.begun charged), fun held hheld => ?_,
    fun held hheld hwindow counter hcounter => ?_⟩
  · obtain ⟨old, hold, _, hwindow, _, _⟩ := mem_held_clear hheld
    rw [hwindow]
    exact Nat.lt_succ_of_lt (hdated.earlier old hold)
  · obtain ⟨old, hold, hcharged, hwindow', hstarted, hcleared⟩ := mem_held_clear hheld
    have hcounter : (s.buckets.clear key).counterAt held.charged = some counter := hcounter
    rw [Buckets.counterAt_clear] at hcounter
    split at hcounter
    · cases hcounter
    · rename_i hother
      have hsame := hdated.same old hold (by rw [← hcharged, ← hwindow']; exact hwindow) counter (hcharged ▸ hcounter)
      rw [hstarted]
      rcases hcleared with ⟨_, hcleared⟩ | ⟨hown, _⟩
      · exact ⟨hcleared ▸ hsame.1, hsame.2⟩
      · exact absurd hown hother

theorem Kept.clear (hkept : s.Kept limits) (hclock : s.now ≤ now) (key : κ) : (s.clear now key).Kept limits := by
  refine ⟨fun charged counter hcounter => ?_, fun held hheld => ?_⟩
  · have hcounter : (s.buckets.clear key).counterAt charged = some counter := hcounter
    rw [Buckets.counterAt_clear] at hcounter
    split at hcounter
    · cases hcounter
    · rw [remaining_clear]
      exact hkept.counted charged counter hcounter
  · obtain ⟨old, hold, hcharged, hwindow, hstarted, hcleared⟩ := mem_held_clear hheld
    rcases hcleared with ⟨hother, hcleared⟩ | ⟨_, hcleared⟩
    · rw [hcharged] at hother
      rw [hstarted, hcleared, hcharged, hwindow]
      rcases hkept.present old hold with hover | hcleared | ⟨hsome, hwindow⟩
      · exact Or.inl (hover.trans (elapsedSecs_mono hclock))
      · exact Or.inr (Or.inl hcleared)
      · refine Or.inr (Or.inr ⟨?_, hwindow⟩)
        show ((s.buckets.clear key).counterAt old.charged).isSome = true
        rw [Buckets.counterAt_clear, if_neg hother]
        exact hsome
    · exact Or.inr (Or.inl hcleared)

/-! ### Runs -/

theorem Dated.step (hdated : s.Dated) (now : Nat) (call : LimiterCall κ) : (s.step limits now call).Dated := by
  cases call with
  | attempt key => exact hdated.attempt limits now key
  | release attempt => exact hdated.release now attempt
  | clear key => exact hdated.clear now key

theorem Kept.step (hkept : s.Kept limits) (hdated : s.Dated) (hclock : s.now ≤ now) {call : LimiterCall κ}
    (hmeets : ∀ attempt, call = .release attempt → s.Refundable attempt) : (s.step limits now call).Kept limits := by
  cases call with
  | attempt key => exact hkept.attempt hdated hclock key
  | release attempt => exact hkept.release hclock (hmeets attempt rfl)
  | clear key => exact hkept.clear hclock key

theorem Reached.kept {created : Nat} (hreached : Reached limits created s) : s.Dated ∧ s.Kept limits := by
  induction hreached with
  | new =>
      refine ⟨⟨fun _ => Nat.one_pos, fun _ hheld => ?_, fun _ hheld => ?_⟩, fun _ _ _ => Nat.zero_le _, fun _ hheld => ?_⟩
      · exact absurd hheld List.not_mem_nil
      · exact absurd hheld List.not_mem_nil
      · exact absurd hheld List.not_mem_nil
  | step _ hclock hmeets ih => exact ⟨ih.1.step _ _, ih.2.step ih.1 hclock hmeets⟩

/-- **Refunds.** A release lowers a counter that its attempt was not charged to, or the count of a window that
began since, exactly when its attempt is not refundable. In a run in which every attempt is refundable when it
is handed back, the attempts that remain charged never fall below those that were not handed back. -/
theorem refunds_exact {created : Nat} (hreached : Reached limits created s) :
    (∀ attempt, s.Exact attempt ↔ s.Refundable attempt) ∧ s.Kept limits :=
  ⟨fun attempt => exact_iff_refundable attempt s, hreached.kept.2⟩

theorem Reached.attempt {created : Nat} (hreached : Reached limits created s) (hclock : s.now ≤ now) (key : κ) :
    Reached limits created (s.step limits now (.attempt key)) :=
  hreached.step hclock fun _ hcall => nomatch hcall

/-- An attempt, handed back after two seconds. -/
theorem refunds_exact_prompt :
    let s := ((Reservations.new 0).step .login 0 (.attempt 7)).step .login (2 * 10 ^ 9) (.release 1)
    (∀ attempt, s.Exact attempt ↔ s.Refundable attempt) ∧ s.Kept .login := by
  have hfirst : ((Reservations.new 0).step .login 0 (.attempt 7)).Refundable 1 := by
    intro held hheld
    right
    cases hheld
    decide
  have hreached : Reached .login 0 ((Reservations.new 0).step .login 0 (.attempt 7)) := Reached.new.attempt le_rfl 7
  refine refunds_exact (hreached.step (by decide) fun attempt hcall => ?_)
  cases hcall
  exact hfirst

/-- **An attempt that is answered in its window is refundable**, where its bucket was not cleared and its key
has a bucket of its own just as it had when the attempt was charged. -/
theorem Kept.refundable (hkept : s.Kept limits) {attempt : Nat} (hclock : s.now ≤ now)
    (hprompt : ∀ held, s.reservation attempt = some held → elapsedSecs held.started now < limits.windowSecs ∧
      held.cleared = false ∧ s.buckets.refunded held.key = held.charged) : s.Refundable attempt := by
  intro held hheld
  obtain ⟨hlive, hcleared, hcharged⟩ := hprompt held hheld
  right
  rcases hkept.present held (List.mem_of_find?_eq_some hheld) with hover | h | ⟨_, hwindow⟩
  · exact absurd hlive (not_lt.mpr (hover.trans (elapsedSecs_mono hclock)))
  · rw [hcleared] at h
    cases h
  · exact ⟨hcharged, hwindow⟩

/-- A window of one address opens with an attempt that fails. A second attempt comes just before the window is
over and a third, which fails, opens the next one: the success of the second drops the third from it. -/
theorem refund_of_next_window :
    let first := (Reservations.new 0).step .login 0 (.attempt 7)
    let second := first.step .login 59900000000 (.attempt 7)
    let third := second.step .login 60000000000 (.attempt 7)
    let after := third.step .login 60100000000 (.release 2)
    Reached .login 0 third ∧ ¬ third.Exact 2 ∧
      third.buckets.attemptsAt (.own 7) = 1 ∧ after.buckets.attemptsAt (.own 7) = 0 ∧ ¬ after.Kept .login := by
  refine ⟨?_, ?_, by decide, by decide, ?_⟩
  · exact ((Reached.new.attempt (by decide) 7).attempt (by decide) 7).attempt (by decide) 7
  · intro hexact
    rw [exact_iff_refundable] at hexact
    exact absurd (hexact _ rfl) (by decide)
  · intro hkept
    have hheld := hkept.present ⟨3, 7, .own 7, 3, 60000000000, false⟩ (by decide)
    exact absurd hheld (by decide)

end Reservations

end Pingward
