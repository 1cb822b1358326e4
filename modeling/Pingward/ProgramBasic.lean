import Mathlib.Logic.Function.Basic
import Mathlib.Data.List.Basic

/-! Programs that talk to a shared store one call at a time. A program is the tree of the calls it
can make: every call hands its answer, or the store's error, to the rest of the program. The tree is
run in three ways below and in `ProgramInterleave`: alone with a working store, alone with a store
that refuses some of the calls, and interleaved call by call with other programs. Nothing here
depends on what the calls are. -/

namespace StoreProgram

/-- A program over the calls `C`, whose call `c` is answered in `R c` or refused with an `ε`. It may
hand out events (`emit`), end with a value, end with an error of its own, or panic. -/
inductive Prog (C : Type) (R : C → Type) (ε E A α : Type) where
  | ret (value : α)
  | fail (error : A)
  | panic
  | emit (event : E) (next : Prog C R ε E A α)
  | call (query : C) (next : Except ε (R query) → Prog C R ε E A α)

variable {C : Type} {R : C → Type} {ε E A α β S : Type}

namespace Prog

def bind (program : Prog C R ε E A α) (rest : α → Prog C R ε E A β) : Prog C R ε E A β :=
  match program with
  | .ret value => rest value
  | .fail error => .fail error
  | .panic => .panic
  | .emit event next => .emit event (bind next rest)
  | .call query next => .call query fun answer => bind (next answer) rest

instance : Monad (Prog C R ε E A) where
  pure := .ret
  bind := bind

@[simp] theorem pure_eq (value : α) : (pure value : Prog C R ε E A α) = .ret value := rfl

@[simp] theorem bind_eq (program : Prog C R ε E A α) (rest : α → Prog C R ε E A β) :
    program >>= rest = program.bind rest := rfl

@[simp] theorem ret_bind (value : α) (rest : α → Prog C R ε E A β) :
    (Prog.ret value : Prog C R ε E A α).bind rest = rest value := rfl

@[simp] theorem fail_bind (error : A) (rest : α → Prog C R ε E A β) :
    (Prog.fail error : Prog C R ε E A α).bind rest = .fail error := rfl

@[simp] theorem panic_bind (rest : α → Prog C R ε E A β) :
    (Prog.panic : Prog C R ε E A α).bind rest = .panic := rfl

@[simp] theorem emit_bind (event : E) (next : Prog C R ε E A α) (rest : α → Prog C R ε E A β) :
    (Prog.emit event next).bind rest = .emit event (next.bind rest) := rfl

@[simp] theorem call_bind (query : C) (next : Except ε (R query) → Prog C R ε E A α)
    (rest : α → Prog C R ε E A β) :
    (Prog.call query next).bind rest = .call query fun answer => (next answer).bind rest := rfl

@[simp] theorem bind_assoc {γ : Type} (program : Prog C R ε E A α) (rest : α → Prog C R ε E A β)
    (last : β → Prog C R ε E A γ) :
    (program.bind rest).bind last = program.bind fun value => (rest value).bind last := by
  induction program with
  | ret value => rfl
  | fail error => rfl
  | panic => rfl
  | emit event next ih => exact congrArg (Prog.emit event) ih
  | call query next ih => exact congrArg (Prog.call query) (funext ih)

@[simp] theorem bind_ret (program : Prog C R ε E A α) : program.bind .ret = program := by
  induction program with
  | ret value => rfl
  | fail error => rfl
  | panic => rfl
  | emit event next ih => exact congrArg (Prog.emit event) ih
  | call query next ih => exact congrArg (Prog.call query) (funext ih)

/-- Make a call and look at the store's answer, error or not. -/
def attempt (query : C) : Prog C R ε E A (Except ε (R query)) := .call query .ret

/-- Make a call and give up with the store's error when it is refused. -/
def perform (wrap : ε → A) (query : C) : Prog C R ε E A (R query) :=
  .call query fun
    | .ok answer => .ret answer
    | .error error => .fail (wrap error)

def tell (event : E) : Prog C R ε E A Unit := .emit event (.ret ())

/-- Hand out the events in order. -/
def tellAll : List E → Prog C R ε E A Unit
  | [] => .ret ()
  | event :: events => .emit event (tellAll events)

/-- A computation that panics on an error. -/
def orPanic {P : Type} : Except P α → Prog C R ε E A α
  | .ok value => .ret value
  | .error _ => .panic

@[simp] theorem orPanic_ok {P : Type} (value : α) :
    (orPanic (.ok value : Except P α) : Prog C R ε E A α) = .ret value := rfl

@[simp] theorem orPanic_error {P : Type} (error : P) :
    (orPanic (.error error : Except P α) : Prog C R ε E A α) = .panic := rfl

/-- The program with its value and its error forgotten. -/
def erase : Prog C R ε E A α → Prog C R ε E Unit Unit
  | .ret _ => .ret ()
  | .fail _ => .fail ()
  | .panic => .panic
  | .emit event next => .emit event (erase next)
  | .call query next => .call query fun answer => erase (next answer)

/-- Every call the program can make satisfies `okCall`, and every event it can hand out `okEvent`. -/
def Only (okCall : C → Prop) (okEvent : E → Prop) : Prog C R ε E A α → Prop
  | .ret _ => True
  | .fail _ => True
  | .panic => True
  | .emit event next => okEvent event ∧ next.Only okCall okEvent
  | .call query next => okCall query ∧ ∀ answer, (next answer).Only okCall okEvent

section Only

variable {okCall : C → Prop} {okEvent : E → Prop}

@[simp] theorem only_ret (value : α) :
    (Prog.ret value : Prog C R ε E A α).Only okCall okEvent := trivial

@[simp] theorem only_fail (error : A) :
    (Prog.fail error : Prog C R ε E A α).Only okCall okEvent := trivial

@[simp] theorem only_panic : (Prog.panic : Prog C R ε E A α).Only okCall okEvent := trivial

@[simp] theorem only_call (query : C) (next : Except ε (R query) → Prog C R ε E A α) :
    (Prog.call query next).Only okCall okEvent ↔
      okCall query ∧ ∀ answer, (next answer).Only okCall okEvent := Iff.rfl

@[simp] theorem only_emit (event : E) (next : Prog C R ε E A α) :
    (Prog.emit event next).Only okCall okEvent ↔ okEvent event ∧ next.Only okCall okEvent := Iff.rfl

/-- A composition makes the calls of its parts. -/
theorem Only.bind {program : Prog C R ε E A α} {rest : α → Prog C R ε E A β}
    (hprogram : program.Only okCall okEvent) (hrest : ∀ value, (rest value).Only okCall okEvent) :
    (program.bind rest).Only okCall okEvent := by
  induction program with
  | ret value => exact hrest value
  | fail error => trivial
  | panic => trivial
  | emit event next ih => exact ⟨hprogram.1, ih hprogram.2⟩
  | call query next ih => exact ⟨hprogram.1, fun answer => ih answer (hprogram.2 answer)⟩

theorem Only.mono {okCall' : C → Prop} {okEvent' : E → Prop} {program : Prog C R ε E A α}
    (hprogram : program.Only okCall okEvent) (hcall : ∀ query, okCall query → okCall' query)
    (hevent : ∀ event, okEvent event → okEvent' event) : program.Only okCall' okEvent' := by
  induction program with
  | ret value => trivial
  | fail error => trivial
  | panic => trivial
  | emit event next ih => exact ⟨hevent event hprogram.1, ih hprogram.2⟩
  | call query next ih => exact ⟨hcall query hprogram.1, fun answer => ih answer (hprogram.2 answer)⟩

theorem Only.perform {wrap : ε → A} {query : C} (hquery : okCall query) :
    (Prog.perform wrap query : Prog C R ε E A (R query)).Only okCall okEvent := by
  refine ⟨hquery, ?_⟩
  intro answer
  cases answer <;> trivial

theorem Only.attempt {query : C} (hquery : okCall query) :
    (Prog.attempt query : Prog C R ε E A (Except ε (R query))).Only okCall okEvent :=
  ⟨hquery, fun _ => trivial⟩

theorem Only.orPanic {P : Type} (result : Except P α) :
    (Prog.orPanic result : Prog C R ε E A α).Only okCall okEvent := by
  cases result <;> trivial

theorem Only.tellAll {events : List E} (hevents : ∀ event ∈ events, okEvent event) :
    (Prog.tellAll events : Prog C R ε E A Unit).Only okCall okEvent := by
  induction events with
  | nil => trivial
  | cons event events ih =>
      exact ⟨hevents event (List.mem_cons_self ..),
        ih fun other hother => hevents other (List.mem_cons_of_mem _ hother)⟩

theorem Only.erase {program : Prog C R ε E A α} (hprogram : program.Only okCall okEvent) :
    program.erase.Only okCall okEvent := by
  induction program with
  | ret value => trivial
  | fail error => trivial
  | panic => trivial
  | emit event next ih => exact ⟨hprogram.1, ih hprogram.2⟩
  | call query next ih => exact ⟨hprogram.1, fun answer => ih answer (hprogram.2 answer)⟩

theorem Only.of_erase {program : Prog C R ε E A α} (herase : program.erase.Only okCall okEvent) :
    program.Only okCall okEvent := by
  induction program with
  | ret value => trivial
  | fail error => trivial
  | panic => trivial
  | emit event next ih => exact ⟨herase.1, ih herase.2⟩
  | call query next ih => exact ⟨herase.1, fun answer => ih answer (herase.2 answer)⟩

end Only

/-- Wherever the program makes a call, `Q` holds of the call and what follows it. -/
def AtCalls (Q : (query : C) → (Except ε (R query) → Prog C R ε E A α) → Prop) : Prog C R ε E A α → Prop
  | .emit _ next => AtCalls Q next
  | .call query next => Q query next ∧ ∀ answer, AtCalls Q (next answer)
  | _ => True

section AtCalls

variable {Q : (query : C) → (Except ε (R query) → Prog C R ε E A β) → Prop}

/-- In front stands a program whose calls are all right whatever follows them. -/
theorem AtCalls.bind {okCall : C → Prop} {program : Prog C R ε E A α} {rest : α → Prog C R ε E A β}
    (honly : program.Only okCall fun _ => True) (hok : ∀ query next, okCall query → Q query next)
    (hrest : ∀ value, (rest value).AtCalls Q) : (program.bind rest).AtCalls Q := by
  induction program with
  | ret value => exact hrest value
  | fail error => trivial
  | panic => trivial
  | emit event next ih => exact ih honly.2
  | call query next ih => exact ⟨hok query _ honly.1, fun answer => ih answer (honly.2 answer)⟩

theorem AtCalls.perform {query : C} {wrap : ε → A} {rest : R query → Prog C R ε E A β}
    (hquery : ∀ next, (∀ answer, next (.ok answer) = rest answer) → Q query next)
    (hrest : ∀ answer, (rest answer).AtCalls Q) : ((Prog.perform wrap query).bind rest).AtCalls Q := by
  refine ⟨hquery _ fun answer => rfl, fun answer => ?_⟩
  cases answer with
  | error error => trivial
  | ok answer => exact hrest answer

theorem AtCalls.erase {Q' : (query : C) → (Except ε (R query) → Prog C R ε E Unit Unit) → Prop}
    {program : Prog C R ε E A β} (hprogram : program.AtCalls Q)
    (hQ : ∀ query next, Q query next → Q' query fun answer => (next answer).erase) : program.erase.AtCalls Q' := by
  induction program with
  | ret value => trivial
  | fail error => trivial
  | panic => trivial
  | emit event next ih => exact ih hprogram
  | call query next ih => exact ⟨hQ query next hprogram.1, fun answer => ih answer (hprogram.2 answer)⟩

end AtCalls

/-- Along every path the program makes at most one call outside `okCall`, namely `special`, and it
hands out no event. -/
def Once (okCall : C → Prop) (special : C) : Prog C R ε E A α → Prop
  | .ret _ => True
  | .fail _ => True
  | .panic => True
  | .emit _ _ => False
  | .call query next =>
      okCall query ∧ (∀ answer, (next answer).Once okCall special) ∨
        query = special ∧ ∀ answer, (next answer).Only okCall fun _ => False

section Once

variable {okCall : C → Prop} {special : C}

theorem Only.once {program : Prog C R ε E A α} (honly : program.Only okCall fun _ => False) :
    program.Once okCall special := by
  induction program with
  | ret value => trivial
  | fail error => trivial
  | panic => trivial
  | emit event next ih => exact honly.1
  | call query next ih => exact Or.inl ⟨honly.1, fun answer => ih answer (honly.2 answer)⟩

/-- The special call stands in the second part. -/
theorem Only.bind_once {program : Prog C R ε E A α} {rest : α → Prog C R ε E A β}
    (hprogram : program.Only okCall fun _ => False) (hrest : ∀ value, (rest value).Once okCall special) :
    (program.bind rest).Once okCall special := by
  induction program with
  | ret value => exact hrest value
  | fail error => trivial
  | panic => trivial
  | emit event next ih => exact hprogram.1
  | call query next ih => exact Or.inl ⟨hprogram.1, fun answer => ih answer (hprogram.2 answer)⟩

/-- The special call stands in the first part. -/
theorem Once.bind_only {program : Prog C R ε E A α} {rest : α → Prog C R ε E A β}
    (hprogram : program.Once okCall special)
    (hrest : ∀ value, (rest value).Only okCall fun _ => False) :
    (program.bind rest).Once okCall special := by
  induction program with
  | ret value => exact (hrest value).once
  | fail error => trivial
  | panic => trivial
  | emit event next ih => exact hprogram
  | call query next ih =>
      rcases hprogram with ⟨hquery, hnext⟩ | ⟨hquery, hnext⟩
      · exact Or.inl ⟨hquery, fun answer => ih answer (hnext answer)⟩
      · exact Or.inr ⟨hquery, fun answer => (hnext answer).bind hrest⟩

theorem Once.perform {wrap : ε → A} : (Prog.perform wrap special : Prog C R ε E A (R special)).Once okCall special := by
  refine Or.inr ⟨rfl, ?_⟩
  intro answer
  cases answer <;> trivial

theorem Once.erase {program : Prog C R ε E A α} (hprogram : program.Once okCall special) :
    program.erase.Once okCall special := by
  induction program with
  | ret value => trivial
  | fail error => trivial
  | panic => trivial
  | emit event next ih => exact hprogram
  | call query next ih =>
      rcases hprogram with ⟨hquery, hnext⟩ | ⟨hquery, hnext⟩
      · exact Or.inl ⟨hquery, fun answer => ih answer (hnext answer)⟩
      · exact Or.inr ⟨hquery, fun answer => (hnext answer).erase⟩

end Once

/-- Along every path the program ends with a value in `P`, whatever its calls are answered, and hands out no event. -/
def Returns (P : α → Prop) : Prog C R ε E A α → Prop
  | .ret value => P value
  | .fail _ => False
  | .panic => False
  | .emit _ _ => False
  | .call _ next => ∀ answer, (next answer).Returns P

section Returns

variable {P : α → Prop} {Q : β → Prop}

theorem Returns.bind {program : Prog C R ε E A α} {rest : α → Prog C R ε E A β} (hprogram : program.Returns P)
    (hrest : ∀ value, P value → (rest value).Returns Q) : (program.bind rest).Returns Q := by
  induction program with
  | ret value => exact hrest value hprogram
  | fail error => exact hprogram.elim
  | panic => exact hprogram.elim
  | emit event next ih => exact hprogram.elim
  | call query next ih => exact fun answer => ih answer (hprogram answer)

theorem Returns.attempt {query : C} :
    (Prog.attempt query : Prog C R ε E A (Except ε (R query))).Returns fun _ => True :=
  fun _ => trivial

end Returns

end Prog

/-- How a program ends. -/
inductive Outcome (A α : Type) where
  | ok (value : α)
  | fail (error : A)
  | panic
  deriving DecidableEq, Repr

/-- What a run leaves behind: how it ended, the store, and the events handed out. -/
@[ext]
structure Ran (S E A α : Type) where
  outcome : Outcome A α
  state : S
  events : List E

section Run

variable (exec : (c : C) → S → Except ε (R c) × S)

/-- The program alone, every call answered by the store. -/
def run : Prog C R ε E A α → S → Ran S E A α
  | .ret value, state => ⟨.ok value, state, []⟩
  | .fail error, state => ⟨.fail error, state, []⟩
  | .panic, state => ⟨.panic, state, []⟩
  | .emit event next, state =>
      let rest := run next state
      ⟨rest.outcome, rest.state, event :: rest.events⟩
  | .call query next, state => run (next (exec query state).1) (exec query state).2

/-- The program alone, the `n`-th call from here refused with `error` whenever `refused` says so. A
refused call leaves the store as it is. -/
def runFaulty (error : ε) (refused : Nat → Bool) : Nat → Prog C R ε E A α → S → Ran S E A α
  | _, .ret value, state => ⟨.ok value, state, []⟩
  | _, .fail failure, state => ⟨.fail failure, state, []⟩
  | _, .panic, state => ⟨.panic, state, []⟩
  | n, .emit event next, state =>
      let rest := runFaulty error refused n next state
      ⟨rest.outcome, rest.state, event :: rest.events⟩
  | n, .call query next, state =>
      if refused n then runFaulty error refused (n + 1) (next (.error error)) state
      else runFaulty error refused (n + 1) (next (exec query state).1) (exec query state).2

@[simp] theorem run_ret (value : α) (state : S) :
    run exec (.ret value : Prog C R ε E A α) state = ⟨.ok value, state, []⟩ := rfl

@[simp] theorem run_fail (error : A) (state : S) :
    run exec (.fail error : Prog C R ε E A α) state = ⟨.fail error, state, []⟩ := rfl

@[simp] theorem run_panic (state : S) :
    run exec (.panic : Prog C R ε E A α) state = ⟨.panic, state, []⟩ := rfl

@[simp] theorem run_emit (event : E) (next : Prog C R ε E A α) (state : S) :
    run exec (.emit event next) state =
      ⟨(run exec next state).outcome, (run exec next state).state,
        event :: (run exec next state).events⟩ := rfl

@[simp] theorem run_call (query : C) (next : Except ε (R query) → Prog C R ε E A α) (state : S) :
    run exec (.call query next) state =
      run exec (next (exec query state).1) (exec query state).2 := rfl

/-- The calls the program makes from a state, in order. -/
def calls : Prog C R ε E A α → S → List C
  | .ret _, _ => []
  | .fail _, _ => []
  | .panic, _ => []
  | .emit _ next, state => calls next state
  | .call query next, state => query :: calls (next (exec query state).1) (exec query state).2

/-- A call that is answered hands its answer to the rest. -/
theorem run_perform_bind {wrap : ε → A} {query : C} {rest : R query → Prog C R ε E A β} {state : S}
    {answer : R query} (hok : (exec query state).1 = .ok answer) :
    run exec ((Prog.perform wrap query).bind rest) state =
      run exec (rest answer) (exec query state).2 := by
  simp only [Prog.perform, Prog.call_bind, run_call, hok, Prog.ret_bind]

theorem calls_perform_bind {wrap : ε → A} {query : C} {rest : R query → Prog C R ε E A β} {state : S}
    {answer : R query} (hok : (exec query state).1 = .ok answer) :
    calls exec ((Prog.perform wrap query).bind rest) state =
      query :: calls exec (rest answer) (exec query state).2 := by
  simp only [Prog.perform, Prog.call_bind, calls, hok, Prog.ret_bind]

/-- The state after a run is what its calls make of it, one after another. -/
theorem run_state_eq_foldl (program : Prog C R ε E A α) (state : S) :
    (run exec program state).state =
      (calls exec program state).foldl (fun state query => (exec query state).2) state := by
  induction program generalizing state with
  | ret value => rfl
  | fail error => rfl
  | panic => rfl
  | emit event next ih => exact ih state
  | call query next ih => exact ih _ _

theorem Prog.Only.calls {okCall : C → Prop} {okEvent : E → Prop} {program : Prog C R ε E A α}
    (honly : program.Only okCall okEvent) (state : S) : ∀ query ∈ calls exec program state, okCall query := by
  induction program generalizing state with
  | ret value => intro query hquery; cases hquery
  | fail error => intro query hquery; cases hquery
  | panic => intro query hquery; cases hquery
  | emit event next ih => exact ih honly.2 state
  | call query next ih =>
      intro other hother
      rcases List.mem_cons.mp hother with rfl | hrest
      · exact honly.1
      · exact ih _ (honly.2 _) _ other hrest

theorem Prog.Only.events {okCall : C → Prop} {okEvent : E → Prop} {program : Prog C R ε E A α}
    (honly : program.Only okCall okEvent) (state : S) :
    ∀ event ∈ (run exec program state).events, okEvent event := by
  induction program generalizing state with
  | ret value => intro event hevent; cases hevent
  | fail error => intro event hevent; cases hevent
  | panic => intro event hevent; cases hevent
  | emit event next ih =>
      intro other hother
      rcases List.mem_cons.mp hother with rfl | hrest
      · exact honly.1
      · exact ih honly.2 state other hrest
  | call query next ih => exact ih _ (honly.2 _) _

/-- A relation every call respects holds between the ends of a run. -/
theorem Prog.Only.run_rel {okCall : C → Prop} {okEvent : E → Prop} {program : Prog C R ε E A α}
    (honly : program.Only okCall okEvent) (Rel : S → S → Prop) (hrefl : ∀ state, Rel state state)
    (htrans : ∀ a b c, Rel a b → Rel b c → Rel a c)
    (hcall : ∀ query, okCall query → ∀ state, Rel state (exec query state).2) (state : S) :
    Rel state (run exec program state).state := by
  induction program generalizing state with
  | ret value => exact hrefl state
  | fail error => exact hrefl state
  | panic => exact hrefl state
  | emit event next ih => exact ih honly.2 state
  | call query next ih => exact htrans _ _ _ (hcall query honly.1 state) (ih _ (honly.2 _) _)

/-- The calls of such a program: all of them `okCall`, or `special` once among such. -/
theorem Prog.Once.calls {okCall : C → Prop} {special : C} {program : Prog C R ε E A α}
    (honce : program.Once okCall special) (state : S) :
    (∀ query ∈ calls exec program state, okCall query) ∨
      ∃ before after, calls exec program state = before ++ special :: after ∧
        (∀ query ∈ before, okCall query) ∧ ∀ query ∈ after, okCall query := by
  induction program generalizing state with
  | ret value => exact Or.inl (by intro query hquery; cases hquery)
  | fail error => exact Or.inl (by intro query hquery; cases hquery)
  | panic => exact Or.inl (by intro query hquery; cases hquery)
  | emit event next ih => exact honce.elim
  | call query next ih =>
      rcases honce with ⟨hquery, hnext⟩ | ⟨rfl, hnext⟩
      · rcases ih _ (hnext _) (exec query state).2 with hall | ⟨before, after, heq, hbefore, hafter⟩
        · refine Or.inl ?_
          intro other hother
          rcases List.mem_cons.mp hother with rfl | hrest
          · exact hquery
          · exact hall other hrest
        · refine Or.inr ⟨query :: before, after, congrArg (query :: ·) heq, ?_, hafter⟩
          intro other hother
          rcases List.mem_cons.mp hother with rfl | hrest
          · exact hquery
          · exact hbefore other hrest
      · exact Or.inr ⟨[], _, rfl, (by intro other hother; cases hother), (hnext _).calls exec _⟩

theorem Prog.Once.events {okCall : C → Prop} {special : C} {program : Prog C R ε E A α}
    (honce : program.Once okCall special) (state : S) : (run exec program state).events = [] := by
  induction program generalizing state with
  | ret value => rfl
  | fail error => rfl
  | panic => rfl
  | emit event next ih => exact honce.elim
  | call query next ih =>
      rcases honce with ⟨_, hnext⟩ | ⟨_, hnext⟩
      · exact ih _ (hnext _) _
      · rw [List.eq_nil_iff_forall_not_mem]
        intro event hevent
        exact (hnext _).events exec _ event hevent

theorem run_erase_state (program : Prog C R ε E A α) (state : S) :
    (run exec program.erase state).state = (run exec program state).state := by
  induction program generalizing state with
  | ret value => rfl
  | fail error => rfl
  | panic => rfl
  | emit event next ih => exact ih state
  | call query next ih => exact ih _ _

theorem run_erase_events (program : Prog C R ε E A α) (state : S) :
    (run exec program.erase state).events = (run exec program state).events := by
  induction program generalizing state with
  | ret value => rfl
  | fail error => rfl
  | panic => rfl
  | emit event next ih => exact congrArg (event :: ·) (ih state)
  | call query next ih => exact ih _ _

theorem calls_erase (program : Prog C R ε E A α) (state : S) :
    calls exec program.erase state = calls exec program state := by
  induction program generalizing state with
  | ret value => rfl
  | fail error => rfl
  | panic => rfl
  | emit event next ih => exact ih state
  | call query next ih => exact congrArg (query :: ·) (ih _ _)

theorem run_erase_panic (program : Prog C R ε E A α) (state : S) :
    (run exec program.erase state).outcome = .panic ↔ (run exec program state).outcome = .panic := by
  induction program generalizing state with
  | ret value => simp [Prog.erase]
  | fail error => simp [Prog.erase]
  | panic => simp [Prog.erase]
  | emit event next ih => exact ih state
  | call query next ih => exact ih _ _

/-- The rest of a program after a first part that has run. -/
def Ran.andThen (first : Ran S E A α) (rest : α → S → Ran S E A β) : Ran S E A β :=
  match first.outcome with
  | .ok value =>
      let second := rest value first.state
      ⟨second.outcome, second.state, first.events ++ second.events⟩
  | .fail error => ⟨.fail error, first.state, first.events⟩
  | .panic => ⟨.panic, first.state, first.events⟩

theorem run_bind (program : Prog C R ε E A α) (rest : α → Prog C R ε E A β) (state : S) :
    run exec (program.bind rest) state =
      (run exec program state).andThen fun value => run exec (rest value) := by
  induction program generalizing state with
  | ret value => simp [Ran.andThen]
  | fail error => simp [Ran.andThen]
  | panic => simp [Ran.andThen]
  | emit event next ih =>
      rw [Prog.emit_bind, run_emit, ih, run_emit]
      simp only [Ran.andThen]
      cases (run exec next state).outcome <;> simp
  | call query next ih =>
      rw [Prog.call_bind, run_call, run_call]
      exact ih _ _

/-- A first part that ends with a value is followed by the rest from where it left the store. -/
theorem run_bind_of_ok {program : Prog C R ε E A α} {rest : α → Prog C R ε E A β} {state : S}
    {value : α} (hok : (run exec program state).outcome = .ok value) :
    run exec (program.bind rest) state =
      ⟨(run exec (rest value) (run exec program state).state).outcome,
        (run exec (rest value) (run exec program state).state).state,
        (run exec program state).events ++
          (run exec (rest value) (run exec program state).state).events⟩ := by
  rw [run_bind, Ran.andThen, hok]

/-- A composition that ends with a value: so did its first part, and the rest from there. -/
theorem run_bind_eq_ok {program : Prog C R ε E A α} {rest : α → Prog C R ε E A β} {state : S} {value : β}
    (hok : (run exec (program.bind rest) state).outcome = .ok value) :
    ∃ first, (run exec program state).outcome = .ok first ∧
      (run exec (rest first) (run exec program state).state).outcome = .ok value := by
  rw [run_bind, Ran.andThen] at hok
  cases hfirst : (run exec program state).outcome with
  | ok first =>
      rw [hfirst] at hok
      exact ⟨first, rfl, hok⟩
  | fail error =>
      rw [hfirst] at hok
      cases hok
  | panic =>
      rw [hfirst] at hok
      cases hok

/-- A first part that ends with an error ends the whole. -/
theorem run_bind_of_fail {program : Prog C R ε E A α} {rest : α → Prog C R ε E A β} {state : S} {error : A}
    (hfail : run exec program state = ⟨.fail error, state, []⟩) :
    run exec (program.bind rest) state = ⟨.fail error, state, []⟩ := by
  rw [run_bind, hfail]
  rfl

/-- A panic of the first part is a panic of the whole. -/
theorem run_bind_of_panic {program : Prog C R ε E A α} {rest : α → Prog C R ε E A β} {state : S}
    (hpanic : (run exec program state).outcome = .panic) :
    (run exec (program.bind rest) state).outcome = .panic := by
  rw [run_bind, Ran.andThen, hpanic]

/-- The calls of a composition whose first part ends with a value: those of the rest follow. -/
theorem calls_bind_of_ok {program : Prog C R ε E A α} {rest : α → Prog C R ε E A β} {state : S} {value : α}
    (hok : (run exec program state).outcome = .ok value) :
    calls exec (program.bind rest) state =
      calls exec program state ++ calls exec (rest value) (run exec program state).state := by
  induction program generalizing state with
  | ret other =>
      cases hok
      rfl
  | fail error => cases hok
  | panic => cases hok
  | emit event next ih => exact ih hok
  | call query next ih => exact congrArg (query :: ·) (ih _ hok)

/-- A first part that panics makes the last calls. -/
theorem calls_bind_of_panic {program : Prog C R ε E A α} {rest : α → Prog C R ε E A β} {state : S}
    (hpanic : (run exec program state).outcome = .panic) :
    calls exec (program.bind rest) state = calls exec program state := by
  induction program generalizing state with
  | ret other => cases hpanic
  | fail error => cases hpanic
  | panic => rfl
  | emit event next ih => exact ih hpanic
  | call query next ih => exact congrArg (query :: ·) (ih _ hpanic)

theorem Prog.Returns.run {P : α → Prop} {program : Prog C R ε E A α} (hreturns : program.Returns P) (state : S) :
    ∃ value after, StoreProgram.run exec program state = ⟨.ok value, after, []⟩ ∧ P value := by
  induction program generalizing state with
  | ret value => exact ⟨value, state, rfl, hreturns⟩
  | fail error => exact hreturns.elim
  | panic => exact hreturns.elim
  | emit event next ih => exact hreturns.elim
  | call query next ih => exact ih _ (hreturns _) _

theorem run_tellAll (events : List E) (state : S) :
    run exec (Prog.tellAll events : Prog C R ε E A Unit) state = ⟨.ok (), state, events⟩ := by
  induction events with
  | nil => rfl
  | cons event events ih =>
      rw [Prog.tellAll, run_emit, ih]

section Faulty

variable {error : ε} {refused : Nat → Bool} {n : Nat} {wrap : ε → A} {query : C} {rest : R query → Prog C R ε E A β}
  {state : S}

/-- A refused call ends the program with the store's error. -/
theorem runFaulty_perform_refused (hrefused : refused n = true) :
    runFaulty exec error refused n ((Prog.perform wrap query).bind rest) state = ⟨.fail (wrap error), state, []⟩ := by
  simp only [Prog.perform, Prog.call_bind, runFaulty, hrefused, if_true, Prog.fail_bind]

theorem runFaulty_perform_ok {answer : R query} (hrefused : refused n = false)
    (hok : (exec query state).1 = .ok answer) :
    runFaulty exec error refused n ((Prog.perform wrap query).bind rest) state =
      runFaulty exec error refused (n + 1) (rest answer) (exec query state).2 := by
  simp only [Prog.perform, Prog.call_bind, runFaulty, hrefused, Bool.false_eq_true, if_false, hok, Prog.ret_bind]

end Faulty

end Run

end StoreProgram
