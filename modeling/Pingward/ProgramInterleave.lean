import Pingward.ProgramBasic

/-! Programs interleaved call by call over one store. A configuration holds what every program has
still to do, the store, the events handed out and the calls answered so far; a step lets one program
make its next call or hand out its next event. `Reach` collects the configurations of the runs whose
steps all satisfy a condition, so that a property of restricted interleavings is an invariant of it. -/

namespace StoreProgram

variable {ι C : Type} {R : C → Type} {ε E A α S : Type}

/-- Programs in flight. The events and the answered calls are kept newest first. -/
structure Config (ι C : Type) (R : C → Type) (ε E A α S : Type) where
  pool : ι → Prog C R ε E A α
  state : S
  events : List E
  trace : List (ι × C)

namespace Config

/-- Nothing has happened yet. -/
def init (pool : ι → Prog C R ε E A α) (state : S) : Config ι C R ε E A α S := ⟨pool, state, [], []⟩

/-- Program `i` has ended with a value or an error of its own. -/
def Finished (cfg : Config ι C R ε E A α S) (i : ι) : Prop :=
  (∃ value, cfg.pool i = .ret value) ∨ ∃ error, cfg.pool i = .fail error

/-- `Finished` as a test. -/
def isFinished (cfg : Config ι C R ε E A α S) (i : ι) : Bool :=
  match cfg.pool i with
  | .ret _ => true
  | .fail _ => true
  | _ => false

theorem finished_of_isFinished {cfg : Config ι C R ε E A α S} {i : ι} (hfinished : cfg.isFinished i = true) :
    cfg.Finished i := by
  unfold isFinished at hfinished
  split at hfinished
  · rename_i value hpool
    exact Or.inl ⟨value, hpool⟩
  · rename_i error hpool
    exact Or.inr ⟨error, hpool⟩
  · cases hfinished

variable [DecidableEq ι] (exec : (c : C) → S → Except ε (R c) × S)

/-- One step of program `i`, if it has one. -/
def advance (cfg : Config ι C R ε E A α S) (i : ι) : Option (Config ι C R ε E A α S) :=
  match cfg.pool i with
  | .emit event next =>
      some { cfg with pool := Function.update cfg.pool i next, events := event :: cfg.events }
  | .call query next =>
      some { cfg with
        pool := Function.update cfg.pool i (next (exec query cfg.state).1)
        state := (exec query cfg.state).2
        trace := (i, query) :: cfg.trace }
  | _ => none

/-- A whole schedule of steps, each of which has to pass a test. -/
def advanceWhen (test : Config ι C R ε E A α S → ι → Bool) :
    List ι → Config ι C R ε E A α S → Option (Config ι C R ε E A α S)
  | [], cfg => some cfg
  | i :: schedule, cfg => if test cfg i then (cfg.advance exec i).bind (advanceWhen test schedule) else none

theorem advance_emit {cfg : Config ι C R ε E A α S} {i : ι} {event : E}
    {next : Prog C R ε E A α} (hpool : cfg.pool i = .emit event next) :
    cfg.advance exec i =
      some { cfg with pool := Function.update cfg.pool i next, events := event :: cfg.events } := by
  simp only [advance, hpool]

theorem advance_call {cfg : Config ι C R ε E A α S} {i : ι} {query : C}
    {next : Except ε (R query) → Prog C R ε E A α} (hpool : cfg.pool i = .call query next) :
    cfg.advance exec i = some { cfg with
      pool := Function.update cfg.pool i (next (exec query cfg.state).1)
      state := (exec query cfg.state).2
      trace := (i, query) :: cfg.trace } := by
  simp only [advance, hpool]

/-- The two ways a step can be made. -/
theorem advance_cases {cfg cfg' : Config ι C R ε E A α S} {i : ι}
    (hstep : cfg.advance exec i = some cfg') :
    (∃ event next, cfg.pool i = .emit event next ∧
      cfg' = { cfg with pool := Function.update cfg.pool i next, events := event :: cfg.events }) ∨
    (∃ query next, cfg.pool i = .call query next ∧
      cfg' = { cfg with
        pool := Function.update cfg.pool i (next (exec query cfg.state).1)
        state := (exec query cfg.state).2
        trace := (i, query) :: cfg.trace }) := by
  cases hpool : cfg.pool i with
  | emit event next =>
      rw [advance_emit exec hpool, Option.some.injEq] at hstep
      exact Or.inl ⟨event, next, rfl, hstep.symm⟩
  | call query next =>
      rw [advance_call exec hpool, Option.some.injEq] at hstep
      exact Or.inr ⟨query, next, rfl, hstep.symm⟩
  | ret value => simp [advance, hpool] at hstep
  | fail error => simp [advance, hpool] at hstep
  | panic => simp [advance, hpool] at hstep

/-- A step of one program leaves the others where they are. -/
theorem advance_pool_of_ne {cfg cfg' : Config ι C R ε E A α S} {i j : ι} (hne : j ≠ i)
    (hstep : cfg.advance exec i = some cfg') : cfg'.pool j = cfg.pool j := by
  rcases advance_cases exec hstep with ⟨event, next, _, rfl⟩ | ⟨query, next, _, rfl⟩
  · exact Function.update_of_ne hne _ _
  · exact Function.update_of_ne hne _ _

/-- What a program passes on to its rest holds of every program after a step. -/
theorem advance_inherit {P : ι → Prog C R ε E A α → Prop}
    (hemit : ∀ i event next, P i (.emit event next) → P i next)
    (hcall : ∀ i query next, P i (.call query next) → ∀ answer, P i (next answer))
    {cfg cfg' : Config ι C R ε E A α S} {i : ι} (hpool : ∀ j, P j (cfg.pool j))
    (hstep : cfg.advance exec i = some cfg') (j : ι) : P j (cfg'.pool j) := by
  by_cases heq : j = i
  · subst heq
    have hj := hpool j
    rcases advance_cases exec hstep with ⟨event, next, hprogram, rfl⟩ | ⟨query, next, hprogram, rfl⟩
    · rw [hprogram] at hj
      exact (congrArg (P j) (Function.update_self j next cfg.pool)).mpr (hemit j event next hj)
    · rw [hprogram] at hj
      exact (congrArg (P j) (Function.update_self j (next (exec query cfg.state).1) cfg.pool)).mpr
        (hcall j query next hj _)
  · rw [advance_pool_of_ne exec heq hstep]
    exact hpool j

end Config

section Reach

variable [DecidableEq ι] (exec : (c : C) → S → Except ε (R c) × S)

/-- The configurations reached from `start` by steps that all satisfy `allowed`. -/
inductive Reach (allowed : Config ι C R ε E A α S → ι → Prop) (start : Config ι C R ε E A α S) :
    Config ι C R ε E A α S → Prop where
  | refl : Reach allowed start start
  | step {cfg cfg' : Config ι C R ε E A α S} (i : ι) (before : Reach allowed start cfg)
      (hallowed : allowed cfg i) (hstep : cfg.advance exec i = some cfg') : Reach allowed start cfg'

/-- What holds at the start and is kept by every allowed step holds wherever the run gets. -/
theorem Reach.invariant {allowed : Config ι C R ε E A α S → ι → Prop}
    {start cfg : Config ι C R ε E A α S} (hreach : Reach exec allowed start cfg)
    (Inv : Config ι C R ε E A α S → Prop) (hstart : Inv start)
    (hkeep : ∀ cfg cfg' i, Inv cfg → allowed cfg i → cfg.advance exec i = some cfg' → Inv cfg') :
    Inv cfg := by
  induction hreach with
  | refl => exact hstart
  | step i _ hallowed hstep ih => exact hkeep _ _ i ih hallowed hstep

theorem Reach.trans {allowed : Config ι C R ε E A α S → ι → Prop}
    {start middle cfg : Config ι C R ε E A α S} (hfirst : Reach exec allowed start middle)
    (hsecond : Reach exec allowed middle cfg) : Reach exec allowed start cfg := by
  induction hsecond with
  | refl => exact hfirst
  | step i _ hallowed hstep ih => exact .step i ih hallowed hstep

/-- A schedule all of whose steps pass the test is such a run. -/
theorem reach_of_advanceWhen {allowed : Config ι C R ε E A α S → ι → Prop} {test : Config ι C R ε E A α S → ι → Bool}
    (htest : ∀ cfg i, test cfg i = true → allowed cfg i) (schedule : List ι) {start cfg : Config ι C R ε E A α S}
    (hrun : Config.advanceWhen exec test schedule start = some cfg) : Reach exec allowed start cfg := by
  induction schedule generalizing start with
  | nil =>
      rw [Config.advanceWhen, Option.some.injEq] at hrun
      rw [hrun]
      exact .refl
  | cons i schedule ih =>
      rw [Config.advanceWhen] at hrun
      split at hrun
      · rename_i hok
        rw [Option.bind_eq_some_iff] at hrun
        obtain ⟨middle, hstep, hrest⟩ := hrun
        exact (Reach.step i .refl (htest start i hok) hstep).trans exec (ih hrest)
      · cases hrun

/-- What holds at the end of a schedule that was carried out holds of a configuration reached. -/
theorem exists_reach {allowed : Config ι C R ε E A α S → ι → Prop} {test : Config ι C R ε E A α S → ι → Bool}
    (htest : ∀ cfg i, test cfg i = true → allowed cfg i) (schedule : List ι) {start : Config ι C R ε E A α S}
    {final : Config ι C R ε E A α S → Bool}
    (hrun : (Config.advanceWhen exec test schedule start).any final = true) :
    ∃ cfg, Reach exec allowed start cfg ∧ final cfg = true := by
  rw [Option.any_eq_true] at hrun
  obtain ⟨cfg, hcfg, hfinal⟩ := hrun
  exact ⟨cfg, reach_of_advanceWhen exec htest schedule hcfg, hfinal⟩

end Reach

end StoreProgram
