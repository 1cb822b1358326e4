import Pingward.ModelLimiter

/-! What the limiters promise over whole runs. The map of buckets never outgrows its cap, a counter never
exceeds its limit, an entry whose window has not elapsed is only touched by its own key, and the grants a
bucket gives in an interval of one window's length are bounded by two windows' worth. -/

open KeyedTable FixedWindow

namespace Pingward

variable {κ : Type} [DecidableEq κ] {limits : RateLimits} {buckets : Buckets κ} {key : κ} {now : Nat}

/-! ### One bucket -/

theorem elapsedSecs_le_iff {started windowSecs : Nat} (hwindow : 1 ≤ windowSecs) :
    windowSecs ≤ elapsedSecs started now ↔ started + windowSecs * 10 ^ 9 ≤ now := by
  unfold elapsedSecs
  rw [Nat.le_div_iff_mul_le (by decide)]
  have hpos : 0 < windowSecs * 10 ^ 9 := Nat.mul_pos hwindow (by decide)
  generalize windowSecs * 10 ^ 9 = window at hpos
  omega

/-- `charge` is a charge of the window in nanoseconds. -/
theorem charge_eq (hwindow : 1 ≤ limits.windowSecs) (counter : Counter) (max : Nat) :
    charge counter max limits.windowSecs now = counter.charge max limits.window now := by
  unfold charge Counter.charge RateLimits.window
  simp only [elapsedSecs_le_iff hwindow]

theorem charge_attempts_le {counter : Counter} {max windowSecs : Nat} (hmax : 1 ≤ max) (hle : counter.attempts ≤ max) :
    (charge counter max windowSecs now).2.attempts ≤ max := by
  unfold charge
  split
  · exact hmax
  · split
    · exact hle
    · rename_i hroom
      exact Nat.lt_of_not_le hroom

theorem overflowMax_le (limits : RateLimits) : limits.overflowMax ≤ 10 * limits.maxAttempts := by
  unfold RateLimits.overflowMax overflowFactor
  omega

theorem overflowMax_pos (hmax : 1 ≤ limits.maxAttempts) : 1 ≤ limits.overflowMax := by
  unfold RateLimits.overflowMax overflowFactor u32Max
  omega

/-! ### The map -/

namespace Buckets

theorem find_retain (k : κ) :
    (buckets.retain limits now).perKey.find k =
      (buckets.perKey.find k).filter fun bucket => elapsedSecs bucket.counter.started now < limits.windowSecs := by
  unfold retain
  rw [Table.find_deleteWhere]
  congr 1
  funext bucket
  simp only [decide_not, Bool.not_not]

theorem find_orInsert (counter : Counter) (k : κ) :
    (buckets.orInsert key counter).perKey.find k =
      (buckets.perKey.find k).or (if key = k then some ⟨key, counter⟩ else none) := by
  unfold orInsert
  cases hinsert : buckets.perKey.insert ⟨key, counter⟩ with
  | none =>
      have hsome : (buckets.perKey.find key).isSome = true := (Table.insert_eq_none_iff _).mp hinsert
      rw [Option.getD_none]
      by_cases hk : key = k
      · subst hk
        obtain ⟨bucket, hbucket⟩ := Option.isSome_iff_exists.mp hsome
        rw [hbucket, Option.some_or]
      · rw [if_neg hk, Option.or_none]
  | some table =>
      have hnone : buckets.perKey.find key = none := Table.find_of_insert _ hinsert
      rw [Option.getD_some, Table.find_insert _ hinsert]
      by_cases hk : key = k
      · subst hk
        rw [if_pos rfl, hnone, Option.none_or, if_pos rfl]
      · rw [if_neg hk, if_neg hk, Option.or_none]

theorem length_orInsert (counter : Counter) :
    (buckets.orInsert key counter).perKey.rows.length =
      buckets.perKey.rows.length + if (buckets.perKey.find key).isNone then 1 else 0 := by
  unfold orInsert
  cases hinsert : buckets.perKey.insert ⟨key, counter⟩ with
  | none =>
      have hsome : (buckets.perKey.find key).isSome = true := (Table.insert_eq_none_iff _).mp hinsert
      rw [Option.getD_none, if_neg, Nat.add_zero]
      rw [← Option.not_isSome, hsome]
      decide
  | some table =>
      have hnone : (buckets.perKey.find key).isNone = true :=
        Option.isNone_iff_eq_none.mpr (Table.find_of_insert _ hinsert)
      rw [Option.getD_some, Table.insert_rows _ hinsert, List.length_append, if_pos hnone, List.length_singleton]

theorem length_setCounter (counter : Counter) :
    (buckets.setCounter key counter).perKey.rows.length = buckets.perKey.rows.length := by
  unfold setCounter
  rw [Table.update_rows, List.length_map]

theorem find_setCounter (counter : Counter) (k : κ) :
    (buckets.setCounter key counter).perKey.find k =
      if k = key then (buckets.perKey.find k).map fun bucket => { bucket with counter := counter }
      else buckets.perKey.find k := by
  unfold setCounter
  split
  · rename_i hk
    subst hk
    rw [Table.find_update_self]
  · rename_i hk
    rw [Table.find_update_of_ne _ hk]

/-- The bucket a charge leaves, and the others. -/
theorem find_chargeOwn (k : κ) :
    (buckets.chargeOwn limits key now).2.perKey.find k =
      if k = key then
        some ⟨key, (charge (buckets.counterOf key now) limits.maxAttempts limits.windowSecs now).2⟩
      else buckets.perKey.find k := by
  unfold chargeOwn
  rw [find_setCounter, find_orInsert]
  by_cases hk : k = key
  · subst hk
    rw [if_pos rfl, if_pos rfl, if_pos rfl]
    cases hfind : buckets.perKey.find k with
    | none => rfl
    | some bucket =>
        have hkey : bucket.key = k := Table.find_key _ hfind
        simp only [Option.some_or, Option.map_some, hkey]
  · rw [if_neg hk, if_neg hk, if_neg (Ne.symm hk), Option.or_none]

theorem length_chargeOwn :
    (buckets.chargeOwn limits key now).2.perKey.rows.length =
      buckets.perKey.rows.length + if (buckets.perKey.find key).isNone then 1 else 0 := by
  unfold chargeOwn
  rw [length_setCounter, length_orInsert]

/-- Whether `try_acquire` turns to the shared bucket: no room, also not after dropping what has elapsed. -/
def overflows (limits : RateLimits) (key : κ) (now : Nat) (buckets : Buckets κ) : Bool :=
  buckets.isFull limits ∧ (buckets.perKey.find key).isNone ∧ (buckets.retain limits now).isFull limits

/-- **What `try_acquire` does.** The shared bucket is charged, or the key's own one, after the entries that
have elapsed were dropped if room was needed. -/
theorem tryAcquire_cases (limits : RateLimits) (key : κ) (now : Nat) (buckets : Buckets κ) :
    (buckets.overflows limits key now = true ∧
        buckets.tryAcquire limits key now = (buckets.retain limits now).chargeOverflow limits now) ∨
      buckets.overflows limits key now = false ∧
      ∃ entries : Buckets κ, (entries = buckets ∨ entries = buckets.retain limits now) ∧
        (entries.isFull limits = false ∨ (entries.perKey.find key).isNone = false) ∧
        buckets.tryAcquire limits key now = entries.chargeOwn limits key now := by
  unfold tryAcquire overflows
  split
  · rename_i hfull
    dsimp only
    split
    · rename_i hstill
      exact Or.inl ⟨by simp only [hfull.1, hfull.2, hstill, and_self, decide_true], rfl⟩
    · rename_i hroom
      exact Or.inr ⟨by simp [hroom], _, Or.inr rfl, Or.inl (Bool.eq_false_iff.mpr hroom), rfl⟩
  · rename_i hroom
    refine Or.inr ⟨?_, buckets, Or.inl rfl, ?_, rfl⟩
    · rw [decide_eq_false_iff_not, ← and_assoc]
      exact fun h => hroom h.1
    · rwa [not_and_or, Bool.not_eq_true, Bool.not_eq_true] at hroom

end Buckets

/-! ### Operations -/

inductive LimiterOp (κ : Type) where
  | tryAcquire (key : κ)
  | release (key : κ)
  | clear (key : κ)
  deriving DecidableEq, Repr

/-- The bucket a grant is charged to. -/
inductive Charged (κ : Type) where
  | own (key : κ)
  | overflow
  deriving DecidableEq, Repr

namespace LimiterOp

def target : LimiterOp κ → κ
  | .tryAcquire key => key
  | .release key => key
  | .clear key => key

def after (limits : RateLimits) (now : Nat) (op : LimiterOp κ) (buckets : Buckets κ) : Buckets κ :=
  match op with
  | .tryAcquire key => (buckets.tryAcquire limits key now).2
  | .release key => buckets.release key
  | .clear key => buckets.clear key

/-- The grant an operation gives. -/
def grant (limits : RateLimits) (now : Nat) (op : LimiterOp κ) (buckets : Buckets κ) : Option (Charged κ) :=
  match op with
  | .tryAcquire key =>
      if (buckets.tryAcquire limits key now).1 then
        some (if buckets.overflows limits key now then .overflow else .own key)
      else none
  | .release _ => none
  | .clear _ => none

end LimiterOp

/-- A limiter in use, with the grants it gave and when, newest first. -/
structure Ledger (κ : Type) where
  buckets : Buckets κ
  grants : List (Nat × Charged κ)

namespace Ledger

/-- `RateLimiter::new`. -/
def new (now : Nat) : Ledger κ := ⟨.new now, []⟩

def step (limits : RateLimits) (ledger : Ledger κ) (event : Nat × LimiterOp κ) : Ledger κ where
  buckets := event.2.after limits event.1 ledger.buckets
  grants := ((event.2.grant limits event.1 ledger.buckets).map (event.1, ·)).toList ++ ledger.grants

/-- A run of a new limiter. -/
def run (limits : RateLimits) (created : Nat) (events : List (Nat × LimiterOp κ)) : Ledger κ :=
  events.foldl (step limits) (new created)

/-- The grants charged to a bucket in the interval of one window from `low`. -/
def granted (limits : RateLimits) (ledger : Ledger κ) (charged : Charged κ) (low : Nat) : Nat :=
  ledger.grants.countP fun grant => grant.2 = charged ∧ Within low limits.window grant.1

end Ledger

/-! ### Sizes and counts -/

/-- The map is within its cap and every counter within its limit. -/
structure Buckets.Bounded (limits : RateLimits) (buckets : Buckets κ) : Prop where
  size : buckets.perKey.rows.length ≤ limits.maxEntries
  attempts : ∀ k bucket, buckets.perKey.find k = some bucket → bucket.counter.attempts ≤ limits.maxAttempts
  overflow : buckets.overflow.attempts ≤ limits.overflowMax

namespace Buckets.Bounded

theorem retain (hbounded : buckets.Bounded limits) : (buckets.retain limits now).Bounded limits where
  size := (List.length_filter_le _ _).trans hbounded.size
  attempts k bucket hfind := by
    rw [find_retain, Option.filter_eq_some_iff] at hfind
    exact hbounded.attempts k bucket hfind.1
  overflow := hbounded.overflow

theorem chargeOwn (hbounded : buckets.Bounded limits) (hmax : 1 ≤ limits.maxAttempts)
    (hroom : buckets.isFull limits = false ∨ (buckets.perKey.find key).isNone = false) :
    (buckets.chargeOwn limits key now).2.Bounded limits where
  size := by
    have hsize := hbounded.size
    rw [length_chargeOwn]
    rcases hroom with hroom | hroom
    · rw [isFull, decide_eq_false_iff_not] at hroom
      split <;> omega
    · rw [hroom]
      exact hsize
  attempts k bucket hfind := by
    rw [find_chargeOwn] at hfind
    split at hfind
    · cases hfind
      apply charge_attempts_le hmax
      unfold counterOf
      cases hold : buckets.perKey.find key with
      | none => exact Nat.zero_le _
      | some old => exact hbounded.attempts key old hold
    · exact hbounded.attempts k bucket hfind
  overflow := hbounded.overflow

theorem chargeOverflow (hbounded : buckets.Bounded limits) (hmax : 1 ≤ limits.maxAttempts) :
    (buckets.chargeOverflow limits now).2.Bounded limits where
  size := hbounded.size
  attempts := hbounded.attempts
  overflow := charge_attempts_le (overflowMax_pos hmax) hbounded.overflow

theorem tryAcquire (hbounded : buckets.Bounded limits) (hmax : 1 ≤ limits.maxAttempts) :
    (buckets.tryAcquire limits key now).2.Bounded limits := by
  rcases tryAcquire_cases limits key now buckets with ⟨_, heq⟩ | ⟨_, entries, hentries, hroom, heq⟩
  · rw [heq]
    exact hbounded.retain.chargeOverflow hmax
  · rw [heq]
    rcases hentries with rfl | rfl
    · exact hbounded.chargeOwn hmax hroom
    · exact hbounded.retain.chargeOwn hmax hroom

theorem clear (hbounded : buckets.Bounded limits) : (buckets.clear key).Bounded limits where
  size := (List.length_filter_le _ _).trans hbounded.size
  attempts k bucket hfind := by
    have hfind : (buckets.perKey.deleteWhere _).find k = some bucket := hfind
    rw [Table.find_deleteWhere, Option.filter_eq_some_iff] at hfind
    exact hbounded.attempts k bucket hfind.1
  overflow := hbounded.overflow

theorem release (hbounded : buckets.Bounded limits) : (buckets.release key).Bounded limits := by
  unfold Buckets.release
  cases hold : buckets.perKey.find key with
  | none => exact ⟨hbounded.size, hbounded.attempts, (Nat.sub_le _ _).trans hbounded.overflow⟩
  | some old =>
      dsimp only
      split
      · exact hbounded.clear
      · refine ⟨by rw [length_setCounter]; exact hbounded.size, ?_, hbounded.overflow⟩
        intro k bucket hfind
        rw [find_setCounter] at hfind
        split at hfind
        · rename_i hk
          subst hk
          rw [hold, Option.map_some, Option.some.injEq] at hfind
          subst hfind
          exact (Nat.sub_le _ _).trans (hbounded.attempts k old hold)
        · exact hbounded.attempts k bucket hfind

/-- **Every operation.** -/
theorem after (hbounded : buckets.Bounded limits) (hmax : 1 ≤ limits.maxAttempts) (op : LimiterOp κ) :
    (op.after limits now buckets).Bounded limits := by
  cases op with
  | tryAcquire key => exact hbounded.tryAcquire hmax
  | release key => exact hbounded.release
  | clear key => exact hbounded.clear

end Buckets.Bounded

/-! ### Other keys -/

/-- **No spray resets a key.** An entry whose window has not elapsed is left as it is by every operation on
another key. -/
theorem LimiterOp.find_after {op : LimiterOp κ} {k : κ} {bucket : Bucket κ} (hk : k ≠ op.target)
    (hfind : buckets.perKey.find k = some bucket) (hlive : elapsedSecs bucket.counter.started now < limits.windowSecs) :
    (op.after limits now buckets).perKey.find k = some bucket := by
  have hretain : (buckets.retain limits now).perKey.find k = some bucket := by
    rw [Buckets.find_retain, hfind]
    simp [hlive]
  have hclear (key : κ) (hkey : k ≠ key) : (buckets.clear key).perKey.find k = some bucket := by
    have hbucket : bucket.key = k := Table.find_key _ hfind
    exact (Table.find_deleteWhere _ _ k).trans (by rw [hfind]; simp [hbucket, hkey])
  cases op with
  | tryAcquire key =>
      have hk : k ≠ key := hk
      show (buckets.tryAcquire limits key now).2.perKey.find k = some bucket
      rcases Buckets.tryAcquire_cases limits key now buckets with ⟨_, heq⟩ | ⟨_, entries, hentries, _, heq⟩
      · rw [heq]
        exact hretain
      · rw [heq, Buckets.find_chargeOwn, if_neg hk]
        rcases hentries with rfl | rfl
        · exact hfind
        · exact hretain
  | release key =>
      have hk : k ≠ key := hk
      show (buckets.release key).perKey.find k = some bucket
      unfold Buckets.release
      split
      · dsimp only
        split
        · exact hclear key hk
        · rw [Buckets.find_setCounter, if_neg hk]
          exact hfind
      · exact hfind
  | clear key => exact hclear key hk

/-! ### Grants -/

/-- The counter of a bucket, and its limit. -/
def Buckets.counterAt (buckets : Buckets κ) : Charged κ → Option Counter
  | .own key => (buckets.perKey.find key).map Bucket.counter
  | .overflow => some buckets.overflow

def RateLimits.limitOf (limits : RateLimits) : Charged κ → Nat
  | .own _ => limits.maxAttempts
  | .overflow => limits.overflowMax

@[simp] theorem Buckets.counterAt_own (buckets : Buckets κ) (key : κ) :
    buckets.counterAt (.own key) = (buckets.perKey.find key).map Bucket.counter := rfl

@[simp] theorem Buckets.counterAt_overflow (buckets : Buckets κ) :
    buckets.counterAt .overflow = some buckets.overflow := rfl

/-- Every bucket's grants, in every interval, against its counter. -/
def Buckets.Tallied (limits : RateLimits) (now : Nat) (buckets : Buckets κ) (count : Charged κ → Nat → Nat) : Prop :=
  ∀ charged low, Tally (limits.limitOf charged) limits.window low now (buckets.counterAt charged) (count charged low)

namespace Buckets.Tallied

variable {count : Charged κ → Nat → Nat}

theorem later (htallied : buckets.Tallied limits now count) {now' : Nat} (hle : now ≤ now') :
    buckets.Tallied limits now' count := fun charged low => (htallied charged low).later hle

theorem retain (htallied : buckets.Tallied limits now count) (hwindow : 1 ≤ limits.windowSecs) :
    (buckets.retain limits now).Tallied limits now count := by
  intro charged low
  have htally := htallied charged low
  cases charged with
  | overflow => exact htally
  | own k =>
      rw [counterAt_own] at htally ⊢
      rw [find_retain]
      cases hfind : buckets.perKey.find k with
      | none =>
          rw [hfind] at htally
          exact htally
      | some bucket =>
          rw [hfind] at htally
          by_cases hlive : elapsedSecs bucket.counter.started now < limits.windowSecs
          · simp only [Option.filter, hlive, decide_true, if_true]
            exact htally
          · simp only [Option.filter, hlive, decide_false, Bool.false_eq_true, if_false, Option.map_none]
            exact htally.drop ((elapsedSecs_le_iff hwindow).mp (not_lt.mp hlive))

theorem chargeOwn (htallied : buckets.Tallied limits now count) (hmax : 1 ≤ limits.maxAttempts)
    (hwindow : 1 ≤ limits.windowSecs) (key : κ) :
    (buckets.chargeOwn limits key now).2.Tallied limits now fun charged low =>
      count charged low + if (buckets.chargeOwn limits key now).1 ∧ charged = .own key ∧ Within low limits.window now
        then 1 else 0 := by
  intro charged low
  beta_reduce
  have htally := htallied charged low
  cases charged with
  | overflow =>
      rw [if_neg (by rintro ⟨_, ⟨⟩, _⟩), Nat.add_zero]
      exact htally
  | own k =>
      rw [counterAt_own] at htally ⊢
      rw [find_chargeOwn]
      by_cases hk : k = key
      · subst hk
        have hopen : Tally limits.maxAttempts limits.window low now (some (buckets.counterOf k now)) (count (.own k) low) := by
          unfold counterOf
          cases hfind : buckets.perKey.find k with
          | none =>
              rw [hfind] at htally
              exact htally.reopen
          | some bucket =>
              rw [hfind] at htally
              exact htally
        have hcharged := hopen.charge hmax
        rw [← charge_eq hwindow] at hcharged
        simp only [if_true, true_and, Option.map_some]
        exact hcharged
      · rw [if_neg hk, if_neg (fun h => hk (Charged.own.inj h.2.1)), Nat.add_zero]
        exact htally

theorem chargeOverflow (htallied : buckets.Tallied limits now count) (hmax : 1 ≤ limits.maxAttempts)
    (hwindow : 1 ≤ limits.windowSecs) :
    (buckets.chargeOverflow limits now).2.Tallied limits now fun charged low =>
      count charged low + if (buckets.chargeOverflow limits now).1 ∧ charged = .overflow ∧ Within low limits.window now
        then 1 else 0 := by
  intro charged low
  beta_reduce
  have htally := htallied charged low
  cases charged with
  | own k =>
      rw [if_neg (by rintro ⟨_, ⟨⟩, _⟩), Nat.add_zero]
      exact htally
  | overflow =>
      have hopen : Tally limits.overflowMax limits.window low now (some buckets.overflow) (count .overflow low) := htally
      have hcharged := hopen.charge (overflowMax_pos hmax)
      rw [← charge_eq hwindow] at hcharged
      simp only [true_and]
      exact hcharged

end Buckets.Tallied

namespace Ledger

variable {ledger : Ledger κ} {charged : Charged κ} {low : Nat}

/-- An operation adds its grant. -/
theorem granted_step (event : Nat × LimiterOp κ) :
    (ledger.step limits event).granted limits charged low = ledger.granted limits charged low +
      if event.2.grant limits event.1 ledger.buckets = some charged ∧ Within low limits.window event.1 then 1 else 0 := by
  unfold granted step
  cases event.2.grant limits event.1 ledger.buckets with
  | none => simp
  | some other =>
      simp only [Option.map_some, Option.toList_some, List.singleton_append, List.countP_cons, decide_eq_true_eq,
        Option.some.injEq]

/-- **One attempt.** -/
theorem tallied_step (htallied : ledger.buckets.Tallied limits now (ledger.granted limits)) (hmax : 1 ≤ limits.maxAttempts)
    (hwindow : 1 ≤ limits.windowSecs) (key : κ) :
    (ledger.step limits (now, .tryAcquire key)).buckets.Tallied limits now
      ((ledger.step limits (now, .tryAcquire key)).granted limits) := by
  intro charged low
  rw [granted_step]
  simp only [step, LimiterOp.after, LimiterOp.grant]
  rcases Buckets.tryAcquire_cases limits key now ledger.buckets with ⟨hover, heq⟩ | ⟨hover, entries, hentries, _, heq⟩
  · have hcharged := (htallied.retain hwindow).chargeOverflow hmax hwindow charged low
    rw [heq, hover]
    cases hgranted : ((ledger.buckets.retain limits now).chargeOverflow limits now).1 with
    | true => simpa [hgranted, eq_comm] using hcharged
    | false => simpa [hgranted] using hcharged
  · have hentries : entries.Tallied limits now (ledger.granted limits) := by
      rcases hentries with rfl | rfl
      · exact htallied
      · exact htallied.retain hwindow
    have hcharged := hentries.chargeOwn hmax hwindow key charged low
    rw [heq, hover]
    cases hgranted : (entries.chargeOwn limits key now).1 with
    | true => simpa [hgranted, eq_comm] using hcharged
    | false => simpa [hgranted] using hcharged

/-! ### Runs -/

theorem new_bounded (created : Nat) : (new created : Ledger κ).buckets.Bounded limits where
  size := Nat.zero_le _
  attempts _ _ hfind := nomatch hfind
  overflow := Nat.zero_le _

theorem foldl_bounded (hbounded : ledger.buckets.Bounded limits) (hmax : 1 ≤ limits.maxAttempts)
    (events : List (Nat × LimiterOp κ)) : (events.foldl (step limits) ledger).buckets.Bounded limits := by
  induction events generalizing ledger with
  | nil => exact hbounded
  | cons event rest ih => exact ih (hbounded.after hmax event.2)

theorem new_tallied (created : Nat) :
    (new created : Ledger κ).buckets.Tallied limits created ((new created : Ledger κ).granted limits) := by
  intro charged low
  refine Tally.start fun counter hcounter => ?_
  cases charged with
  | own key => cases hcounter
  | overflow =>
      cases hcounter
      exact Nat.zero_le _

theorem foldl_tallied (htallied : ledger.buckets.Tallied limits now (ledger.granted limits))
    (hmax : 1 ≤ limits.maxAttempts) (hwindow : 1 ≤ limits.windowSecs) {events : List (Nat × LimiterOp κ)}
    (hclock : (now :: events.map Prod.fst).Pairwise (· ≤ ·)) (hacquires : ∀ event ∈ events, ∃ key, event.2 = .tryAcquire key) :
    ∃ last, (events.foldl (step limits) ledger).buckets.Tallied limits last
      ((events.foldl (step limits) ledger).granted limits) := by
  induction events generalizing ledger now with
  | nil => exact ⟨now, htallied⟩
  | cons event rest ih =>
      obtain ⟨at_, op⟩ := event
      rw [List.map_cons, List.pairwise_cons] at hclock
      obtain ⟨key, rfl⟩ : ∃ key, op = .tryAcquire key := hacquires _ List.mem_cons_self
      have hlater := htallied.later (hclock.1 at_ List.mem_cons_self)
      exact ih (tallied_step hlater hmax hwindow key) hclock.2 fun other hother =>
        hacquires other (List.mem_cons_of_mem _ hother)

end Ledger

/-- **The contract of the limiters.** Over any operations at instants that do not go back: the map is within its
cap; every count is within its limit; an entry whose window has not elapsed is left alone by an operation on
another key; and where only attempts are made, any interval of one window's length has at most twice the
limit granted by a key's own bucket, and at most twenty times the limit by the shared one. -/
theorem limiter_contract (limits : RateLimits) (hmax : 1 ≤ limits.maxAttempts) (hwindow : 1 ≤ limits.windowSecs)
    (created : Nat) (events : List (Nat × LimiterOp κ)) (hclock : (created :: events.map Prod.fst).Pairwise (· ≤ ·)) :
    (Ledger.run limits created events).buckets.perKey.rows.length ≤ limits.maxEntries ∧
      (∀ bucket ∈ (Ledger.run limits created events).buckets.perKey.rows, bucket.counter.attempts ≤ limits.maxAttempts) ∧
      (∀ (now : Nat) (op : LimiterOp κ), ∀ bucket ∈ (Ledger.run limits created events).buckets.perKey.rows,
        bucket.key ≠ op.target →
        elapsedSecs bucket.counter.started now < limits.windowSecs →
        (op.after limits now (Ledger.run limits created events).buckets).perKey.find bucket.key = some bucket) ∧
      ((∀ event ∈ events, ∃ key, event.2 = .tryAcquire key) → ∀ low,
        (∀ key, (Ledger.run limits created events).granted limits (.own key) low ≤ 2 * limits.maxAttempts) ∧
        (Ledger.run limits created events).granted limits .overflow low ≤ 20 * limits.maxAttempts) := by
  have hbounded := Ledger.foldl_bounded (Ledger.new_bounded created) hmax events
  have hfind (bucket : Bucket κ) (hbucket : bucket ∈ (Ledger.run limits created events).buckets.perKey.rows) :
      (Ledger.run limits created events).buckets.perKey.find bucket.key = some bucket :=
    (Table.find_eq_some_iff _).mpr ⟨hbucket, rfl⟩
  refine ⟨hbounded.size, ?_, ?_, ?_⟩
  · intro bucket hbucket
    exact hbounded.attempts _ bucket (hfind bucket hbucket)
  · intro now op bucket hbucket hother hlive
    exact LimiterOp.find_after hother (hfind bucket hbucket) hlive
  · intro hacquires low
    obtain ⟨last, htallied⟩ := Ledger.foldl_tallied (Ledger.new_tallied created) hmax hwindow hclock hacquires
    refine ⟨fun key => (htallied (.own key) low).bounded, ?_⟩
    have hshared : (Ledger.run limits created events).granted limits .overflow low ≤ 2 * limits.overflowMax :=
      (htallied .overflow low).bounded
    have hlimit := overflowMax_le limits
    omega

/-- Six attempts from one address in half a minute. -/
theorem limiter_contract_login :
    (Ledger.run .login 0 ((List.range 6).map fun i => (i * 5 * 10 ^ 9, LimiterOp.tryAcquire "10.0.0.1"))).granted .login
      (.own "10.0.0.1") 0 ≤ 10 :=
  ((limiter_contract .login (by decide) (by decide) 0
    ((List.range 6).map fun i => (i * 5 * 10 ^ 9, LimiterOp.tryAcquire "10.0.0.1")) (by decide)).2.2.2
      (by
        intro event hevent
        obtain ⟨i, _, rfl⟩ := List.mem_map.mp hevent
        exact ⟨_, rfl⟩) 0).1 "10.0.0.1"

end Pingward
