import Pingward.ProgramBasic

/-! Two programs side by side. They are in step when they make calls that are alike and go on in step whenever the answers
are alike; run over two stores that answer like calls alike, they end alike. -/

namespace StoreProgram

variable {C : Type} {R : C → Type} {ε E A α β α' β' S : Type}

/-- What the calls of two programs, and the answers to them, have in common. -/
structure Likeness (C : Type) (R : C → Type) (ε : Type) where
  calls : C → C → Prop
  answers : (c d : C) → Except ε (R c) → Except ε (R d) → Prop

namespace Prog

inductive InStep (like : Likeness C R ε) (values : α → β → Prop) : Prog C R ε E A α → Prog C R ε E A β → Prop where
  | ret {value : α} {other : β} (hvalues : values value other) : InStep like values (.ret value) (.ret other)
  | fail (error : A) : InStep like values (.fail error) (.fail error)
  | panic : InStep like values .panic .panic
  | emit (event : E) {next : Prog C R ε E A α} {next' : Prog C R ε E A β} (hnext : InStep like values next next') :
      InStep like values (.emit event next) (.emit event next')
  | call {c d : C} {next : Except ε (R c) → Prog C R ε E A α} {next' : Except ε (R d) → Prog C R ε E A β}
      (hcalls : like.calls c d)
      (hnext : ∀ answer answer', like.answers c d answer answer' → InStep like values (next answer) (next' answer')) :
      InStep like values (.call c next) (.call d next')

namespace InStep

variable {like : Likeness C R ε} {values : α → β → Prop} {values' : α' → β' → Prop}

theorem bind {program : Prog C R ε E A α} {other : Prog C R ε E A β} {rest : α → Prog C R ε E A α'}
    {rest' : β → Prog C R ε E A β'} (hprograms : InStep like values program other)
    (hrest : ∀ value value', values value value' → InStep like values' (rest value) (rest' value')) :
    InStep like values' (program.bind rest) (other.bind rest') := by
  induction hprograms with
  | ret hvalues => exact hrest _ _ hvalues
  | fail error => exact .fail error
  | panic => exact .panic
  | emit event _ ih => exact .emit event ih
  | call hcalls _ ih => exact .call hcalls ih

/-- Programs in step, over stores in `Same` that answer like calls alike and stay in `Same`. -/
theorem run_same {exec exec' : (c : C) → S → Except ε (R c) × S} {Same : S → S → Prop}
    (hexec : ∀ c d state state', like.calls c d → Same state state' →
      like.answers c d (exec c state).1 (exec' d state').1 ∧ Same (exec c state).2 (exec' d state').2)
    {program : Prog C R ε E A α} {other : Prog C R ε E A β} (hprograms : InStep like values program other)
    {state state' : S} (hsame : Same state state') :
    Same (run exec program state).state (run exec' other state').state := by
  induction hprograms generalizing state state' with
  | ret hvalues => exact hsame
  | fail error => exact hsame
  | panic => exact hsame
  | emit event _ ih => exact ih hsame
  | call hcalls _ ih =>
      obtain ⟨hanswers, hafter⟩ := hexec _ _ state state' hcalls hsame
      exact ih _ _ hanswers hafter

end InStep

end Prog

end StoreProgram
