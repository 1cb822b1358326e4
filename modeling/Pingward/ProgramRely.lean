import Pingward.ProgramInterleave

/-! Programs that rely on what they are answered. Each program of a pool promises to make only certain calls, provided the
answers it gets are of certain kinds; where those calls keep an invariant of the store and the invariant makes the answers
of those kinds, it holds in every interleaving. -/

namespace StoreProgram

variable {ι C : Type} {R : C → Type} {ε E A α β S : Type}

namespace Prog

/-- Answered as `may` says, the program makes only the calls of `okCall`, and `P` holds of the value it ends with. -/
def Relying (may : (query : C) → Except ε (R query) → Prop) (okCall : C → Prop) (P : α → Prop) : Prog C R ε E A α → Prop
  | .ret value => P value
  | .fail _ => True
  | .panic => True
  | .emit _ next => next.Relying may okCall P
  | .call query next => okCall query ∧ ∀ answer, may query answer → (next answer).Relying may okCall P

namespace Relying

variable {may : (query : C) → Except ε (R query) → Prop} {okCall : C → Prop} {P P' : α → Prop} {Q : β → Prop}

theorem bind {program : Prog C R ε E A α} {rest : α → Prog C R ε E A β} (hprogram : program.Relying may okCall P)
    (hrest : ∀ value, P value → (rest value).Relying may okCall Q) : (program.bind rest).Relying may okCall Q := by
  induction program with
  | ret value => exact hrest value hprogram
  | fail error => trivial
  | panic => trivial
  | emit event next ih => exact ih hprogram
  | call query next ih => exact ⟨hprogram.1, fun answer hanswer => ih answer (hprogram.2 answer hanswer)⟩

/-- A program that makes no other calls whatever it is answered. -/
theorem of_only {okEvent : E → Prop} {program : Prog C R ε E A α} (honly : program.Only okCall okEvent) :
    program.Relying may okCall fun _ => True := by
  induction program with
  | ret value => trivial
  | fail error => trivial
  | panic => trivial
  | emit event next ih => exact ih honly.2
  | call query next ih => exact ⟨honly.1, fun answer _ => ih answer (honly.2 answer)⟩

theorem perform {wrap : ε → A} {query : C} (hquery : okCall query) :
    (Prog.perform wrap query : Prog C R ε E A (R query)).Relying may okCall fun value => may query (.ok value) := by
  refine ⟨hquery, fun answer hanswer => ?_⟩
  cases answer with
  | ok value => exact hanswer
  | error error => trivial

theorem erase {program : Prog C R ε E A α} (hprogram : program.Relying may okCall P) :
    program.erase.Relying may okCall fun _ => True := by
  induction program with
  | ret value => trivial
  | fail error => trivial
  | panic => trivial
  | emit event next ih => exact ih hprogram
  | call query next ih => exact ⟨hprogram.1, fun answer hanswer => ih answer (hprogram.2 answer hanswer)⟩

end Relying

end Prog

/-- **Rely and guarantee.** An invariant of the store that makes its answers as the programs rely on, and that the calls
they then make keep, holds wherever an interleaving of them gets. -/
theorem Reach.relying [DecidableEq ι] {exec : (c : C) → S → Except ε (R c) × S}
    {may : (query : C) → Except ε (R query) → Prop} {okCall : C → Prop} {P : ι → α → Prop} {I : S → Prop}
    (hmay : ∀ query state, I state → may query (exec query state).1)
    (hkeep : ∀ query state, okCall query → I state → I (exec query state).2)
    {allowed : Config ι C R ε E A α S → ι → Prop} {start cfg : Config ι C R ε E A α S}
    (hpool : ∀ i, (start.pool i).Relying may okCall (P i)) (hstart : I start.state) (hreach : Reach exec allowed start cfg) :
    I cfg.state := by
  refine (hreach.invariant exec (fun cfg => (∀ i, (cfg.pool i).Relying may okCall (P i)) ∧ I cfg.state)
    ⟨hpool, hstart⟩ ?_).2
  intro cfg cfg' i hinv _ hstep
  obtain ⟨hprograms, hstate⟩ := hinv
  have hi := hprograms i
  rcases Config.advance_cases exec hstep with ⟨event, next, hprogram, rfl⟩ | ⟨query, next, hprogram, rfl⟩
  · rw [hprogram] at hi
    refine ⟨fun j => ?_, hstate⟩
    by_cases hj : j = i
    · subst hj
      exact (congrArg (Prog.Relying may okCall (P j)) (Function.update_self j next cfg.pool)).mpr hi
    · exact (congrArg (Prog.Relying may okCall (P j)) (Function.update_of_ne hj next cfg.pool)).mpr (hprograms j)
  · rw [hprogram] at hi
    refine ⟨fun j => ?_, hkeep query cfg.state hi.1 hstate⟩
    have hnext := hi.2 _ (hmay query cfg.state hstate)
    by_cases hj : j = i
    · subst hj
      exact (congrArg (Prog.Relying may okCall (P j)) (Function.update_self j _ cfg.pool)).mpr hnext
    · exact (congrArg (Prog.Relying may okCall (P j)) (Function.update_of_ne hj _ cfg.pool)).mpr (hprograms j)

end StoreProgram
