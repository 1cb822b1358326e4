import Pingward.ProgramInterleave

/-! A program against a store that may move between its calls. `Meets` says that, in every such run, each
step of the program stays within a guarantee and the value it ends with satisfies a postcondition. Alone
on a working store nothing moves; a store that stops answering cuts such a run short. -/

namespace StoreProgram

variable {C : Type} {R : C → Type} {ε E A α β S : Type}

section Answers

variable (exec : (c : C) → S → Except ε (R c) × S)

/-- A working store. -/
def answered (query : C) (state : S) (answer : Except ε (R query)) (after : S) : Prop :=
  exec query state = (answer, after)

end Answers

namespace Prog

/-- Before each call the store may move along `rely`; the call is then answered along `answers`. The
program's own steps are in `guar`, and it ends with a value in `Q`, with an error, or in a panic. -/
def Meets (rely : S → S → Prop) (answers : (query : C) → S → Except ε (R query) → S → Prop) (guar : S → S → Prop)
    (Q : α → S → Prop) : Prog C R ε E A α → S → Prop
  | .ret value, state => Q value state
  | .fail _, _ => True
  | .panic, _ => True
  | .emit _ next, state => Meets rely answers guar Q next state
  | .call query next, state => ∀ moved, rely state moved → ∀ answer after, answers query moved answer after →
      guar moved after ∧ Meets rely answers guar Q (next answer) after

section Rules

variable {rely : S → S → Prop} {answers : (query : C) → S → Except ε (R query) → S → Prop} {guar : S → S → Prop}

theorem Meets.bind {Q : α → S → Prop} {Q' : β → S → Prop} {program : Prog C R ε E A α}
    {rest : α → Prog C R ε E A β} {state : S} (hprogram : program.Meets rely answers guar Q state)
    (hrest : ∀ value after, Q value after → (rest value).Meets rely answers guar Q' after) :
    (program.bind rest).Meets rely answers guar Q' state := by
  induction program generalizing state with
  | ret value => exact hrest value state hprogram
  | fail error => trivial
  | panic => trivial
  | emit event next ih => exact ih hprogram
  | call query next ih =>
      intro moved hmoved answer after hanswer
      obtain ⟨hguar, hnext⟩ := hprogram moved hmoved answer after hanswer
      exact ⟨hguar, ih answer hnext⟩

theorem Meets.mono {guar' : S → S → Prop} {Q Q' : α → S → Prop} {program : Prog C R ε E A α} {state : S}
    (hprogram : program.Meets rely answers guar Q state) (hguar : ∀ a b, guar a b → guar' a b)
    (hpost : ∀ value after, Q value after → Q' value after) : program.Meets rely answers guar' Q' state := by
  induction program generalizing state with
  | ret value => exact hpost value state hprogram
  | fail error => trivial
  | panic => trivial
  | emit event next ih => exact ih hprogram
  | call query next ih =>
      intro moved hmoved answer after hanswer
      obtain ⟨hstep, hnext⟩ := hprogram moved hmoved answer after hanswer
      exact ⟨hguar _ _ hstep, ih answer hnext⟩

theorem Meets.attempt {query : C} {Q : Except ε (R query) → S → Prop} {state : S}
    (hquery : ∀ moved, rely state moved → ∀ answer after, answers query moved answer after →
      guar moved after ∧ Q answer after) :
    (Prog.attempt query : Prog C R ε E A (Except ε (R query))).Meets rely answers guar Q state :=
  fun moved hmoved answer after hanswer => hquery moved hmoved answer after hanswer

theorem Meets.perform {query : C} {wrap : ε → A} {Q : R query → S → Prop} {state : S}
    (hquery : ∀ moved, rely state moved → ∀ answer after, answers query moved answer after →
      guar moved after ∧ ∀ value, answer = .ok value → Q value after) :
    (Prog.perform wrap query : Prog C R ε E A (R query)).Meets rely answers guar Q state := by
  intro moved hmoved answer after hanswer
  obtain ⟨hguar, hpost⟩ := hquery moved hmoved answer after hanswer
  refine ⟨hguar, ?_⟩
  cases answer with
  | error error => trivial
  | ok value => exact hpost value rfl

/-- A program of calls each of which keeps an invariant. -/
theorem Only.meets {okCall : C → Prop} {okEvent : E → Prop} {program : Prog C R ε E A α} {I : S → Prop} {state : S}
    (honly : program.Only okCall okEvent)
    (hcall : ∀ query before moved answer after, okCall query → I before → rely before moved →
      answers query moved answer after → guar moved after ∧ I after) (hinv : I state) :
    program.Meets rely answers guar (fun _ after => I after) state := by
  induction program generalizing state with
  | ret value => exact hinv
  | fail error => trivial
  | panic => trivial
  | emit event next ih => exact ih honly.2 hinv
  | call query next ih =>
      intro moved hmoved answer after hanswer
      obtain ⟨hguar, hafter⟩ := hcall query state moved answer after honly.1 hinv hmoved hanswer
      exact ⟨hguar, ih answer (honly.2 answer) hafter⟩

/-- What every call of the program guarantees by itself is guaranteed too. -/
theorem Meets.and_only {okCall : C → Prop} {okEvent : E → Prop} {guar' : S → S → Prop} {Q : α → S → Prop}
    {program : Prog C R ε E A α} {state : S} (hmeets : program.Meets rely answers guar Q state)
    (honly : program.Only okCall okEvent)
    (hcall : ∀ query before answer after, okCall query → answers query before answer after → guar' before after) :
    program.Meets rely answers (fun before after => guar before after ∧ guar' before after) Q state := by
  induction program generalizing state with
  | ret value => exact hmeets
  | fail error => trivial
  | panic => trivial
  | emit event next ih => exact ih hmeets honly.2
  | call query next ih =>
      intro moved hmoved answer after hanswer
      obtain ⟨hguar, hnext⟩ := hmeets moved hmoved answer after hanswer
      exact ⟨⟨hguar, hcall query moved answer after honly.1 hanswer⟩, ih answer hnext (honly.2 answer)⟩

end Rules

/-! ### Among other programs -/

section Pool

variable {rely guar : S → S → Prop} {answers : (query : C) → S → Except ε (R query) → S → Prop}
  {program : Prog C R ε E A α} {state : S}

theorem Meets.erase {Q : α → S → Prop} (hmeets : program.Meets rely answers guar Q state) :
    program.erase.Meets rely answers guar (fun _ _ => True) state := by
  induction program generalizing state with
  | ret value => trivial
  | fail error => trivial
  | panic => trivial
  | emit event next ih => exact ih hmeets
  | call query next ih =>
      intro moved hmoved answer after hanswer
      obtain ⟨hguar, hnext⟩ := hmeets moved hmoved answer after hanswer
      exact ⟨hguar, ih answer hnext⟩

/-- The store may as well move before the program goes on. -/
theorem Meets.later (hmeets : program.Meets rely answers guar (fun _ _ => True) state)
    (htrans : ∀ a b c, rely a b → rely b c → rely a c) {moved : S} (hmoved : rely state moved) :
    program.Meets rely answers guar (fun _ _ => True) moved := by
  induction program with
  | ret value => trivial
  | fail error => trivial
  | panic => trivial
  | emit event next ih => exact ih hmeets
  | call query next ih =>
      intro again hagain answer after hanswer
      exact hmeets again (htrans _ _ _ hmoved hagain) answer after hanswer

/-- **Rely and guarantee.** Programs that each keep within a guarantee, relying on no more than the others
guarantee, keep every invariant of the guarantee in every interleaving. -/
theorem Meets.reach {ι : Type} [DecidableEq ι] {exec : (c : C) → S → Except ε (R c) × S}
    {allowed : Config ι C R ε E A α S → ι → Prop} {start cfg : Config ι C R ε E A α S}
    (hreach : Reach exec allowed start cfg) (htrans : ∀ a b c, rely a b → rely b c → rely a c)
    (hguar : ∀ a b, guar a b → rely a b)
    (hpool : ∀ i, (start.pool i).Meets rely (answered exec) guar (fun _ _ => True) start.state)
    (hrefl : ∀ s, rely s s) {I : S → Prop} (hkept : ∀ a b, guar a b → I a → I b) (hstart : I start.state) :
    (∀ i, (cfg.pool i).Meets rely (answered exec) guar (fun _ _ => True) cfg.state) ∧ I cfg.state := by
  induction hreach with
  | refl => exact ⟨hpool, hstart⟩
  | step i before _ hstep ih =>
      obtain ⟨hpools, hinv⟩ := ih
      have hi := hpools i
      rcases Config.advance_cases exec hstep with ⟨event, next, hprogram, rfl⟩ | ⟨query, next, hprogram, rfl⟩
      · rw [hprogram] at hi
        have hnext : next.Meets rely (answered exec) guar (fun _ _ => True) _ := hi
        refine ⟨fun j => ?_, hinv⟩
        by_cases hj : j = i
        · subst hj
          simpa using hnext
        · simpa [hj] using hpools j
      · rw [hprogram] at hi
        obtain ⟨hstepped, hnext⟩ := hi _ (hrefl _) _ _ rfl
        refine ⟨fun j => ?_, hkept _ _ hstepped hinv⟩
        by_cases hj : j = i
        · subst hj
          simpa using hnext
        · simpa [hj] using (hpools j).later htrans (hguar _ _ hstepped)

end Pool

/-! ### Alone on a working store -/

section Alone

variable {exec : (c : C) → S → Except ε (R c) × S} {guar : S → S → Prop} {Q : α → S → Prop}
  {program : Prog C R ε E A α} {state : S}

theorem Meets.run_state (hmeets : program.Meets Eq (answered exec) guar Q state) (hrefl : ∀ s, guar s s)
    (htrans : ∀ a b c, guar a b → guar b c → guar a c) : guar state (run exec program state).state := by
  induction program generalizing state with
  | ret value => exact hrefl state
  | fail error => exact hrefl state
  | panic => exact hrefl state
  | emit event next ih => exact ih hmeets
  | call query next ih =>
      obtain ⟨hguar, hnext⟩ := hmeets state rfl _ _ rfl
      exact htrans _ _ _ hguar (ih _ hnext)

theorem Meets.run_value (hmeets : program.Meets Eq (answered exec) guar Q state) {value : α}
    (hvalue : (run exec program state).outcome = .ok value) : Q value (run exec program state).state := by
  induction program generalizing state with
  | ret other =>
      cases hvalue
      exact hmeets
  | fail error => cases hvalue
  | panic => cases hvalue
  | emit event next ih => exact ih hmeets hvalue
  | call query next ih => exact ih _ (hmeets state rfl _ _ rfl).2 hvalue

/-- How a composition ends: its first part stops it within the guarantee, or the rest ends it. -/
theorem Meets.run_bind {P : Outcome A β → S → Prop} {rest : α → Prog C R ε E A β}
    (hmeets : program.Meets Eq (answered exec) guar Q state) (hrefl : ∀ s, guar s s)
    (htrans : ∀ a b c, guar a b → guar b c → guar a c)
    (hstop : ∀ after, guar state after → (∀ error, P (.fail error) after) ∧ P .panic after)
    (hrest : ∀ value after, guar state after → Q value after →
      P (run exec (rest value) after).outcome (run exec (rest value) after).state) :
    P (run exec (program.bind rest) state).outcome (run exec (program.bind rest) state).state := by
  have hstate := hmeets.run_state hrefl htrans
  rw [StoreProgram.run_bind, Ran.andThen]
  cases houtcome : (run exec program state).outcome with
  | ok value => exact hrest value _ hstate (hmeets.run_value houtcome)
  | fail error => exact (hstop _ hstate).1 error
  | panic => exact (hstop _ hstate).2

/-- Alone there is one value to end with, that of the run. -/
theorem Meets.exact (hmeets : program.Meets Eq (answered exec) guar Q state) :
    program.Meets Eq (answered exec) guar (fun value after => Q value after ∧
      (run exec program state).outcome = .ok value ∧ (run exec program state).state = after) state := by
  induction program generalizing state with
  | ret value => exact ⟨hmeets, rfl, rfl⟩
  | fail error => trivial
  | panic => trivial
  | emit event next ih => exact ih hmeets
  | call query next ih =>
      intro moved hmoved answer after hanswer
      obtain ⟨hguar, hnext⟩ := hmeets moved hmoved answer after hanswer
      refine ⟨hguar, ?_⟩
      subst hmoved
      have hrun : run exec (.call query next) state = run exec (next answer) after := by
        rw [run_call, (show exec query state = (answer, after) from hanswer)]
      rw [hrun]
      exact ih answer hnext

/-- The guarantee also holds from the start to the end. -/
theorem Meets.since_start (hmeets : program.Meets Eq (answered exec) guar Q state) (hrefl : ∀ s, guar s s)
    (htrans : ∀ a b c, guar a b → guar b c → guar a c) :
    program.Meets Eq (answered exec) guar (fun value after => Q value after ∧ guar state after) state := by
  induction program generalizing state with
  | ret value => exact ⟨hmeets, hrefl state⟩
  | fail error => trivial
  | panic => trivial
  | emit event next ih => exact ih hmeets
  | call query next ih =>
      intro moved hmoved answer after hanswer
      obtain ⟨hguar, hnext⟩ := hmeets moved hmoved answer after hanswer
      refine ⟨hguar, (ih answer hnext).mono (fun _ _ h => h) ?_⟩
      rintro value last ⟨hvalue, hlast⟩
      exact ⟨hvalue, hmoved ▸ htrans _ _ _ hguar hlast⟩

end Alone

/-! ### Alone on a store that stops answering -/

section Stopped

variable (exec : (c : C) → S → Except ε (R c) × S)

/-- Where the program leaves the store when every call from the `k`-th on is refused. -/
def stoppedAt (error : ε) (k : Nat) (program : Prog C R ε E A α) (state : S) : S :=
  (runFaulty exec error (fun n => decide (k ≤ n)) 0 program state).state

theorem runFaulty_from_state (error : ε) (k n : Nat) (program : Prog C R ε E A α) (state : S) :
    (runFaulty exec error (fun n => decide (k ≤ n)) n program state).state =
      ((calls exec program state).take (k - n)).foldl (fun state query => (exec query state).2) state := by
  induction program generalizing n state with
  | ret value => simp [runFaulty, calls]
  | fail failure => simp [runFaulty, calls]
  | panic => simp [runFaulty, calls]
  | emit event next ih => exact ih n state
  | call query next ih =>
      unfold runFaulty
      by_cases hk : k ≤ n
      · rw [if_pos (decide_eq_true hk), ih, Nat.sub_eq_zero_of_le hk, Nat.sub_eq_zero_of_le (Nat.le_succ_of_le hk)]
        rfl
      · rw [if_neg (by simpa using hk), ih]
        have hsucc : k - n = k - (n + 1) + 1 := by omega
        rw [hsucc, calls, List.take_succ_cons, List.foldl_cons]

/-- The store is left where the first `k` calls lead. -/
theorem stoppedAt_eq_foldl (error : ε) (k : Nat) (program : Prog C R ε E A α) (state : S) :
    stoppedAt exec error k program state =
      ((calls exec program state).take k).foldl (fun state query => (exec query state).2) state :=
  runFaulty_from_state exec error k 0 program state

/-- The call the store refuses first, made from where it is left. -/
theorem stoppedAt_succ {error : ε} {k : Nat} {program : Prog C R ε E A α} {state : S} {query : C}
    (hquery : (calls exec program state)[k]? = some query) :
    stoppedAt exec error (k + 1) program state = (exec query (stoppedAt exec error k program state)).2 := by
  rw [stoppedAt_eq_foldl, stoppedAt_eq_foldl, List.take_add_one, hquery, Option.toList_some, List.foldl_append]
  rfl

variable {exec} {guar : S → S → Prop} {Q : α → S → Prop} {program : Prog C R ε E A α} {state : S} {error : ε}

/-- Each step from one stop to the next is in the guarantee. -/
theorem Meets.stoppedAt_step (hmeets : program.Meets Eq (answered exec) guar Q state) (hrefl : ∀ s, guar s s) (k : Nat) :
    guar (stoppedAt exec error k program state) (stoppedAt exec error (k + 1) program state) := by
  simp only [stoppedAt_eq_foldl]
  induction program generalizing k state with
  | ret value => simpa [calls] using hrefl state
  | fail failure => simpa [calls] using hrefl state
  | panic => simpa [calls] using hrefl state
  | emit event next ih => exact ih hmeets k
  | call query next ih =>
      obtain ⟨hguar, hnext⟩ := hmeets state rfl _ _ rfl
      cases k with
      | zero => simpa [calls] using hguar
      | succ k => exact ih _ hnext k

end Stopped

end Prog

end StoreProgram
