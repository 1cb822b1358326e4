import Pingward.ProgramInterleave

/-! What a program asks and what it is answered. A property of a program's value and of its exchanges is computed over the
program's tree, for every way its calls can be answered; it then holds of the program alone and of the program among
others, whatever they do to the store between its calls. -/

namespace StoreProgram

variable {ι C : Type} {R : C → Type} {ε E A α β S : Type}

/-- A call and its answer. -/
structure Exchange (C : Type) (R : C → Type) (ε : Type) where
  query : C
  answer : Except ε (R query)

namespace Prog

/-- Whenever its calls are answered as `may` says, the program ends with a value, hands out nothing, and `P` holds of the
value and the exchanges. -/
def Ends (may : (query : C) → Except ε (R query) → Prop) : Prog C R ε E A α → (α → List (Exchange C R ε) → Prop) → Prop
  | .ret value, P => P value []
  | .fail _, _ => False
  | .panic, _ => False
  | .emit _ _, _ => False
  | .call query next, P =>
      ∀ answer, may query answer → (next answer).Ends may fun value log => P value (⟨query, answer⟩ :: log)

namespace Ends

variable {may : (query : C) → Except ε (R query) → Prop} {P P' : α → List (Exchange C R ε) → Prop}
  {Q : β → List (Exchange C R ε) → Prop}

theorem mono {program : Prog C R ε E A α} (hprogram : program.Ends may P)
    (hP : ∀ value log, P value log → P' value log) : program.Ends may P' := by
  induction program generalizing P P' with
  | ret value => exact hP value [] hprogram
  | fail error => exact hprogram
  | panic => exact hprogram
  | emit event next ih => exact hprogram
  | call query next ih =>
      intro answer hanswer
      exact ih answer (hprogram answer hanswer) fun value log => hP value _

/-- The exchanges of a composition are those of its parts, one after the other. -/
theorem bind {program : Prog C R ε E A α} {rest : α → Prog C R ε E A β}
    (hprogram : program.Ends may fun value log => (rest value).Ends may fun last after => Q last (log ++ after)) :
    (program.bind rest).Ends may Q := by
  induction program generalizing Q with
  | ret value => exact hprogram
  | fail error => exact hprogram
  | panic => exact hprogram
  | emit event next ih => exact hprogram
  | call query next ih =>
      intro answer hanswer
      exact ih answer (hprogram answer hanswer)

/-- A call that is never refused. -/
theorem perform_bind {wrap : ε → A} {query : C} {rest : R query → Prog C R ε E A β}
    (hmay : ∀ answer, may query answer → ∃ value, answer = .ok value)
    (hrest : ∀ value, may query (.ok value) → (rest value).Ends may fun last after => Q last (⟨query, .ok value⟩ :: after)) :
    ((Prog.perform wrap query).bind rest).Ends may Q := by
  intro answer hanswer
  obtain ⟨value, rfl⟩ := hmay answer hanswer
  exact hrest value hanswer

/-- Some run of the program ends as `P` says, if every call has an answer. -/
theorem exists_log (hmay : ∀ query, ∃ answer, may query answer) {program : Prog C R ε E A α}
    (hprogram : program.Ends may P) : ∃ value log, P value log := by
  induction program generalizing P with
  | ret value => exact ⟨value, [], hprogram⟩
  | fail error => exact hprogram.elim
  | panic => exact hprogram.elim
  | emit event next ih => exact hprogram.elim
  | call query next ih =>
      obtain ⟨answer, hanswer⟩ := hmay query
      obtain ⟨value, log, hlog⟩ := ih answer (hprogram answer hanswer)
      exact ⟨value, ⟨query, answer⟩ :: log, hlog⟩

end Ends

end Prog

/-! ### Among other programs -/

/-- The store, with what it was asked and answered, newest first. -/
def recording (exec : (c : C) → S → Except ε (R c) × S) (query : C) (state : S × List (Exchange C R ε)) :
    Except ε (R query) × (S × List (Exchange C R ε)) :=
  ((exec query state.1).1, ((exec query state.1).2, ⟨query, (exec query state.1).1⟩ :: state.2))

section Interleaved

variable [DecidableEq ι] (exec : (c : C) → S → Except ε (R c) × S)

/-- The exchanges of one program so far. -/
def Config.exchanges (cfg : Config ι C R ε E A α (S × List (Exchange C R ε))) (i : ι) : List (Exchange C R ε) :=
  (((cfg.trace.zip cfg.state.2).filter fun entry => entry.1.1 = i).map Prod.snd).reverse

variable {exec} {cfg cfg' : Config ι C R ε E A α (S × List (Exchange C R ε))} {i j : ι}

theorem Config.exchanges_call {query : C} {next : Except ε (R query) → Prog C R ε E A α}
    (hpool : cfg.pool i = .call query next) (hstep : cfg.advance (recording exec) i = some cfg') :
    cfg'.exchanges i = cfg.exchanges i ++ [⟨query, (exec query cfg.state.1).1⟩] := by
  rw [advance_call _ hpool, Option.some.injEq] at hstep
  subst hstep
  simp [exchanges, recording]

theorem Config.exchanges_emit {event : E} {next : Prog C R ε E A α} (hpool : cfg.pool i = .emit event next)
    (hstep : cfg.advance (recording exec) i = some cfg') : cfg'.exchanges j = cfg.exchanges j := by
  rw [advance_emit _ hpool, Option.some.injEq] at hstep
  subst hstep
  rfl

theorem Config.exchanges_of_ne (hne : j ≠ i) (hstep : cfg.advance (recording exec) i = some cfg') :
    cfg'.exchanges j = cfg.exchanges j := by
  rcases advance_cases _ hstep with ⟨event, next, hpool, -⟩ | ⟨query, next, -, rfl⟩
  · exact exchanges_emit hpool hstep
  · simp [exchanges, recording, hne.symm]

variable {may : (query : C) → Except ε (R query) → Prop}

/-- What a program still does completes, with what it has exchanged, what it was to do. -/
theorem Prog.Ends.reach {allowed : Config ι C R ε E A α (S × List (Exchange C R ε)) → ι → Prop}
    {pool : ι → Prog C R ε E A α} {state : S} (hmay : ∀ query state, may query (exec query state).1)
    (hreach : Reach (recording exec) allowed (Config.init pool (state, [])) cfg) {P : α → List (Exchange C R ε) → Prop}
    (hprogram : (pool i).Ends may P) :
    (cfg.pool i).Ends may fun value log => P value (cfg.exchanges i ++ log) := by
  refine hreach.invariant _ (fun cfg => (cfg.pool i).Ends may fun value log => P value (cfg.exchanges i ++ log)) hprogram ?_
  intro cfg cfg' j hends _ hstep
  by_cases hij : i = j
  · subst hij
    rcases Config.advance_cases _ hstep with ⟨event, next, hpool, -⟩ | ⟨query, next, hpool, hcfg⟩
    · rw [hpool] at hends
      exact hends.elim
    · have hnext : cfg'.pool i = next (exec query cfg.state.1).1 := by
        rw [hcfg]
        exact Function.update_self ..
      rw [hpool] at hends
      rw [hnext, Config.exchanges_call hpool hstep]
      simp only [List.append_assoc, List.singleton_append]
      exact hends _ (hmay query cfg.state.1)
  · rw [Config.advance_pool_of_ne _ hij hstep, Config.exchanges_of_ne hij hstep]
    exact hends

end Interleaved

end StoreProgram
