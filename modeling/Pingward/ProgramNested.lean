import Pingward.ProgramPair

/-! Programs inside larger ones: a program run on a part of a larger state, and a program whose failure its caller looks
at. -/

namespace StoreProgram

variable {C : Type} {R : C → Type} {ε E A B α β S T : Type}

/-- A part of a state, with how it is read and put back. -/
structure Part (S T : Type) where
  get : S → T
  set : T → S → S
  get_set : ∀ part state, get (set part state) = part
  set_set : ∀ part part' state, set part' (set part state) = set part' state
  set_get : ∀ state, set (get state) state = state

/-- A store that is a part of the state. -/
def Part.exec (part : Part S T) (exec : (c : C) → T → Except ε (R c) × T) (query : C) (state : S) : Except ε (R query) × S :=
  ((exec query (part.get state)).1, part.set (exec query (part.get state)).2 state)

/-- What a program ran to on the part, in the whole state. -/
def Ran.inside (part : Part S T) (state : S) (ran : Ran T E A α) : Ran S E A α :=
  ⟨ran.outcome, part.set ran.state state, ran.events⟩

theorem run_part (part : Part S T) (exec : (c : C) → T → Except ε (R c) × T) (program : Prog C R ε E A α) (state : S) :
    run (part.exec exec) program state = (run exec program (part.get state)).inside part state := by
  induction program generalizing state with
  | ret value => exact Ran.ext rfl (part.set_get state).symm rfl
  | fail error => exact Ran.ext rfl (part.set_get state).symm rfl
  | panic => exact Ran.ext rfl (part.set_get state).symm rfl
  | emit event next ih =>
      rw [run_emit, ih, run_emit]
      rfl
  | call query next ih =>
      rw [run_call, run_call, ih]
      simp only [Part.exec, part.get_set, Ran.inside, part.set_set]

namespace Prog

/-- The program, with its failure for an answer. -/
def caught : Prog C R ε E A α → Prog C R ε E B (Except A α)
  | .ret value => .ret (.ok value)
  | .fail error => .ret (.error error)
  | .panic => .panic
  | .emit event next => .emit event next.caught
  | .call query next => .call query fun answer => (next answer).caught

end Prog

/-- The outcome with its failure for an answer. -/
def Outcome.caught : Outcome A α → Outcome B (Except A α)
  | .ok value => .ok (.ok value)
  | .fail error => .ok (.error error)
  | .panic => .panic

theorem run_caught (exec : (c : C) → S → Except ε (R c) × S) (program : Prog C R ε E A α) (state : S) :
    run exec (program.caught : Prog C R ε E B _) state =
      ⟨(run exec program state).outcome.caught, (run exec program state).state, (run exec program state).events⟩ := by
  induction program generalizing state with
  | ret value => rfl
  | fail error => rfl
  | panic => rfl
  | emit event next ih =>
      rw [Prog.caught, run_emit, ih]
      rfl
  | call query next ih =>
      rw [Prog.caught, run_call, ih]
      rfl

/-- What follows a program whose failure is caught follows it unless it panics. -/
theorem run_caught_bind {exec : (c : C) → S → Except ε (R c) × S} {program : Prog C R ε E A α} {rest : Prog C R ε E B β}
    {state : S} (hends : (run exec (program.caught.bind fun _ => rest) state).outcome ≠ .panic) :
    (run exec program state).outcome ≠ .panic ∧
      run exec (program.caught.bind fun _ => rest) state =
        ⟨(run exec rest (run exec program state).state).outcome, (run exec rest (run exec program state).state).state,
          (run exec program state).events ++ (run exec rest (run exec program state).state).events⟩ := by
  rw [run_bind, run_caught] at hends ⊢
  cases houtcome : (run exec program state).outcome with
  | ok value =>
      refine ⟨fun hpanic => (by cases hpanic), ?_⟩
      simp only [Ran.andThen, Outcome.caught]
  | fail error =>
      refine ⟨fun hpanic => (by cases hpanic), ?_⟩
      simp only [Ran.andThen, Outcome.caught]
  | panic =>
      rw [houtcome] at hends
      exact absurd rfl hends

end StoreProgram
