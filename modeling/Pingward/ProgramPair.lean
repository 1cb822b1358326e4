import Pingward.ProgramBasic

/-! Programs that talk to two stores. A call is to the first store or to the second; a program over the first store
alone is carried over as it is, and forgetting the calls to the second store leads back to a program over the first.
The rules at the end follow a program alone, part by part, to where it leaves its stores. -/

namespace StoreProgram

variable {C D : Type} {R : C → Type} {Q : D → Type} {ε E A α β S T : Type}

/-- What a call to either store is answered in. -/
@[reducible] def PairRes (R : C → Type) (Q : D → Type) : C ⊕ D → Type
  | .inl query => R query
  | .inr query => Q query

namespace Prog

/-- The same program, its calls to the first of two stores. -/
def lift : Prog C R ε E A α → Prog (C ⊕ D) (PairRes R Q) ε E A α
  | .ret value => .ret value
  | .fail error => .fail error
  | .panic => .panic
  | .emit event next => .emit event next.lift
  | .call query next => .call (.inl query) fun answer => (next answer).lift

/-- The program without its calls to the second store, which are taken to be answered by `answer`. -/
def forget (answer : (query : D) → Q query) : Prog (C ⊕ D) (PairRes R Q) ε E A α → Prog C R ε E A α
  | .ret value => .ret value
  | .fail error => .fail error
  | .panic => .panic
  | .emit event next => .emit event (next.forget answer)
  | .call (.inl query) next => .call query fun result => (next result).forget answer
  | .call (.inr query) next => (next (.ok (answer query))).forget answer

theorem only_any (program : Prog C R ε E A α) : program.Only (fun _ => True) fun _ => True := by
  induction program with
  | ret value => trivial
  | fail error => trivial
  | panic => trivial
  | emit event next ih => exact ⟨trivial, ih⟩
  | call query next ih => exact ⟨trivial, ih⟩

theorem lift_perform (wrap : ε → A) (query : C) :
    (Prog.perform wrap query : Prog C R ε E A (R query)).lift =
      (Prog.perform wrap (.inl query) : Prog (C ⊕ D) (PairRes R Q) ε E A _) := by
  refine congrArg (Prog.call _) (funext fun answer => ?_)
  cases answer <;> rfl

section Forget

variable (answer : (query : D) → Q query)

@[simp] theorem forget_ret (value : α) :
    (Prog.ret value : Prog (C ⊕ D) (PairRes R Q) ε E A α).forget answer = .ret value := rfl

@[simp] theorem forget_fail (error : A) :
    (Prog.fail error : Prog (C ⊕ D) (PairRes R Q) ε E A α).forget answer = .fail error := rfl

@[simp] theorem forget_panic : (Prog.panic : Prog (C ⊕ D) (PairRes R Q) ε E A α).forget answer = .panic := rfl

@[simp] theorem forget_lift (program : Prog C R ε E A α) :
    (program.lift : Prog (C ⊕ D) (PairRes R Q) ε E A α).forget answer = program := by
  induction program with
  | ret value => rfl
  | fail error => rfl
  | panic => rfl
  | emit event next ih => exact congrArg (Prog.emit event) ih
  | call query next ih => exact congrArg (Prog.call query) (funext ih)

@[simp] theorem forget_bind (program : Prog (C ⊕ D) (PairRes R Q) ε E A α)
    (rest : α → Prog (C ⊕ D) (PairRes R Q) ε E A β) :
    (program.bind rest).forget answer = (program.forget answer).bind fun value => (rest value).forget answer := by
  induction program with
  | ret value => rfl
  | fail error => rfl
  | panic => rfl
  | emit event next ih => exact congrArg (Prog.emit event) ih
  | call query next ih =>
      cases query with
      | inl query => exact congrArg (Prog.call query) (funext ih)
      | inr query => exact ih _

@[simp] theorem forget_ite {p : Prop} [Decidable p] (one other : Prog (C ⊕ D) (PairRes R Q) ε E A α) :
    (if p then one else other).forget answer = if p then one.forget answer else other.forget answer := by
  split <;> rfl

@[simp] theorem forget_perform (wrap : ε → A) (query : D) :
    (Prog.perform wrap (.inr query) : Prog (C ⊕ D) (PairRes R Q) ε E A _).forget answer = .ret (answer query) := rfl

end Forget

section Asks

variable (tells : D → Prop)

/-- What is asked of the second store is asked before it is told anything. -/
def AsksFirst : Prog (C ⊕ D) (PairRes R Q) ε E A α → (D → Prop) → Prop
  | .ret _, _ => True
  | .fail _, _ => True
  | .panic, _ => True
  | .emit _ next, asks => next.AsksFirst asks
  | .call (.inl _) next, asks => ∀ answer, (next answer).AsksFirst asks
  | .call (.inr query) next, asks =>
      (asks query ∧ ∀ answer, (next answer).AsksFirst asks) ∨
        (tells query ∧ ∀ answer, (next answer).AsksFirst fun _ => False)

/-- The program beside the second store, against a program that is given its answers. -/
structure Mirrors (answer : (query : D) → Q query) (asks : D → Prop) (program : Prog (C ⊕ D) (PairRes R Q) ε E A α)
    (alone : Prog C R ε E A α) : Prop where
  asksFirst : program.AsksFirst tells asks
  same : program.forget answer = alone

namespace Mirrors

variable {tells} {answer : (query : D) → Q query} {asks : D → Prop}

theorem ret (value : α) : Mirrors tells answer asks (.ret value) (.ret value : Prog C R ε E A α) := ⟨trivial, rfl⟩

theorem fail (error : A) : Mirrors tells answer asks (.fail error) (.fail error : Prog C R ε E A α) := ⟨trivial, rfl⟩

theorem lift_bind (program : Prog C R ε E A α) {rest : α → Prog (C ⊕ D) (PairRes R Q) ε E A β}
    {alone : α → Prog C R ε E A β} (hrest : ∀ value, Mirrors tells answer asks (rest value) (alone value)) :
    Mirrors tells answer asks (program.lift.bind rest) (program.bind alone) := by
  induction program with
  | ret value => exact hrest value
  | fail error => exact fail error
  | panic => exact ⟨trivial, rfl⟩
  | emit event next ih => exact ⟨ih.asksFirst, congrArg (Prog.emit event) ih.same⟩
  | call query next ih =>
      have hsame := funext fun result => (ih result).same
      exact ⟨fun result => (ih result).asksFirst, congrArg (Prog.call query) hsame⟩

theorem lift (program : Prog C R ε E A α) : Mirrors tells answer asks program.lift program := by
  have hbound : Mirrors tells answer asks (program.lift.bind .ret) (program.bind .ret) := lift_bind program ret
  rwa [bind_ret, bind_ret] at hbound

/-- A question, answered as assumed. -/
theorem asked_bind {wrap : ε → A} {query : D} {rest : Q query → Prog (C ⊕ D) (PairRes R Q) ε E A β}
    (alone : Q query → Prog C R ε E A β) (hquery : asks query)
    (hrest : ∀ value, Mirrors tells answer asks (rest value) (alone value)) :
    Mirrors tells answer asks ((Prog.perform wrap (.inr query)).bind rest) (alone (answer query)) := by
  refine ⟨Or.inl ⟨hquery, fun result => ?_⟩, (hrest _).same⟩
  cases result with
  | ok value => exact (hrest value).asksFirst
  | error error => trivial

/-- The second store is told something, and asked nothing from there on. -/
theorem told_bind {wrap : ε → A} {query : D} {rest : Q query → Prog (C ⊕ D) (PairRes R Q) ε E A β}
    {alone : Prog C R ε E A β} (hquery : tells query)
    (hrest : ∀ value, Mirrors tells answer (fun _ => False) (rest value) alone) :
    Mirrors tells answer asks ((Prog.perform wrap (.inr query)).bind rest) alone := by
  refine ⟨Or.inr ⟨hquery, fun result => ?_⟩, (hrest _).same⟩
  cases result with
  | ok value => exact (hrest value).asksFirst
  | error error => trivial

theorem asksFirst_map {program : Prog (C ⊕ D) (PairRes R Q) ε E A α} (f : α → β) (hasks : program.AsksFirst tells asks) :
    (program.bind fun value => .ret (f value)).AsksFirst tells asks := by
  induction program generalizing asks with
  | ret value => trivial
  | fail error => trivial
  | panic => trivial
  | emit event next ih => exact ih hasks
  | call query next ih =>
      cases query with
      | inl query => exact fun result => ih result (hasks result)
      | inr query =>
          rcases hasks with ⟨hquery, hrest⟩ | ⟨hquery, hrest⟩
          · exact Or.inl ⟨hquery, fun result => ih result (hrest result)⟩
          · exact Or.inr ⟨hquery, fun result => ih result (hrest result)⟩

theorem map {program : Prog (C ⊕ D) (PairRes R Q) ε E A α} {alone : Prog C R ε E A α} (f : α → β)
    (hmirrors : Mirrors tells answer asks program alone) :
    Mirrors tells answer asks (program.bind fun value => .ret (f value)) (alone.bind fun value => .ret (f value)) :=
  ⟨asksFirst_map f hmirrors.asksFirst, by rw [forget_bind, hmirrors.same]; rfl⟩

end Mirrors

end Asks

end Prog

/-! ### Runs -/

section Run

/-- Both stores together. -/
def execBoth (first : (c : C) → S → Except ε (R c) × S) (second : (d : D) → S → Except ε (Q d) × S) :
    (c : C ⊕ D) → S → Except ε (PairRes R Q c) × S
  | .inl query => first query
  | .inr query => second query

variable {first : (c : C) → S → Except ε (R c) × S} {second : (d : D) → S → Except ε (Q d) × S}

@[simp] theorem run_lift (program : Prog C R ε E A α) (state : S) :
    run (execBoth first second) program.lift state = run first program state := by
  induction program generalizing state with
  | ret value => rfl
  | fail error => rfl
  | panic => rfl
  | emit event next ih =>
      rw [Prog.lift, run_emit, ih]
      rfl
  | call query next ih => exact ih _ _

/-- A store seen through `view` answers as the store that is seen. -/
theorem run_view {exec : (c : C) → T → Except ε (R c) × T} (view : S → T)
    (hview : ∀ query state, (first query state).1 = (exec query (view state)).1 ∧
      view (first query state).2 = (exec query (view state)).2) (program : Prog C R ε E A α) (state : S) :
    (run first program state).outcome = (run exec program (view state)).outcome ∧
      view (run first program state).state = (run exec program (view state)).state := by
  induction program generalizing state with
  | ret value => exact ⟨rfl, rfl⟩
  | fail error => exact ⟨rfl, rfl⟩
  | panic => exact ⟨rfl, rfl⟩
  | emit event next ih => exact ih state
  | call query next ih =>
      obtain ⟨hanswer, hstate⟩ := hview query state
      rw [run_call, run_call, ← hanswer, ← hstate]
      exact ih _ _

/-- The second store beside the first, which is seen through `view`: as long as `I` holds it answers what it is asked as
`answer` does, and what it is told always. -/
structure Beside (first : (c : C) → S → Except ε (R c) × S) (second : (d : D) → S → Except ε (Q d) × S)
    (exec : (c : C) → T → Except ε (R c) × T) (view : S → T) (tells : D → Prop) (answer : (d : D) → Q d) (asks : D → Prop)
    (I : S → Prop) : Prop where
  seen : ∀ query state, (first query state).1 = (exec query (view state)).1 ∧
    view (first query state).2 = (exec query (view state)).2
  kept : ∀ query state, I state → I (first query state).2
  unseen : ∀ query state, view (second query state).2 = view state
  asked : ∀ query state, asks query → I state → (second query state).1 = .ok (answer query) ∧ I (second query state).2
  told : ∀ query state, tells query → (second query state).1 = .ok (answer query)

/-- The same outcome, the same first store, the same events. -/
structure Alike (view : S → T) (ran : Ran S E A α) (seen : Ran T E A α) : Prop where
  outcome : ran.outcome = seen.outcome
  state : view ran.state = seen.state
  events : ran.events = seen.events

section Beside

variable {exec : (c : C) → T → Except ε (R c) × T} {view : S → T} {tells asks : D → Prop} {answer : (d : D) → Q d}
  {I : S → Prop}

theorem Beside.unasked (hbeside : Beside first second exec view tells answer asks I) :
    Beside first second exec view tells answer (fun _ => False) fun _ => True where
  seen := hbeside.seen
  kept _ _ h := h
  unseen := hbeside.unseen
  asked _ _ h := h.elim
  told := hbeside.told

theorem Beside.run_asksFirst (hbeside : Beside first second exec view tells answer asks I)
    {program : Prog (C ⊕ D) (PairRes R Q) ε E A α} (hasks : program.AsksFirst tells asks) {state : S} (hstate : I state) :
    Alike view (run (execBoth first second) program state) (run exec (program.forget answer) (view state)) := by
  induction program generalizing state asks I with
  | ret value => exact ⟨rfl, rfl, rfl⟩
  | fail error => exact ⟨rfl, rfl, rfl⟩
  | panic => exact ⟨rfl, rfl, rfl⟩
  | emit event next ih =>
      have hnext := ih hbeside hasks hstate
      exact ⟨hnext.outcome, hnext.state, congrArg (event :: ·) hnext.events⟩
  | call query next ih =>
      cases query with
      | inl query =>
          obtain ⟨hanswer, hview⟩ := hbeside.seen query state
          have hnext := ih (first query state).1 hbeside (hasks _) (hbeside.kept query state hstate)
          rw [run_call, Prog.forget, run_call, ← hanswer, ← hview]
          exact hnext
      | inr query =>
          have hnext : (second query state).1 = .ok (answer query) ∧
              Alike view (run (execBoth first second) (next (.ok (answer query))) (second query state).2)
                (run exec ((next (.ok (answer query))).forget answer) (view (second query state).2)) := by
            rcases hasks with ⟨hquery, hrest⟩ | ⟨hquery, hrest⟩
            · obtain ⟨hanswer, hkept⟩ := hbeside.asked query state hquery hstate
              exact ⟨hanswer, ih _ hbeside (hrest _) hkept⟩
            · exact ⟨hbeside.told query state hquery, ih _ hbeside.unasked (hrest _) trivial⟩
          obtain ⟨hanswer, halike⟩ := hnext
          have hboth : (execBoth first second (.inr query) state).1 = .ok (answer query) := hanswer
          rw [hbeside.unseen] at halike
          rw [run_call, Prog.forget, hboth]
          exact halike

/-- A program beside the second store runs as the program that is given its answers. -/
theorem Beside.run_mirrors (hbeside : Beside first second exec view tells answer asks I)
    {program : Prog (C ⊕ D) (PairRes R Q) ε E A α} {alone : Prog C R ε E A α}
    (hmirrors : Prog.Mirrors tells answer asks program alone) {state : S} (hstate : I state) :
    Alike view (run (execBoth first second) program state) (run exec alone (view state)) :=
  hmirrors.same ▸ hbeside.run_asksFirst hmirrors.asksFirst hstate

end Beside

end Run

/-! ### Where a program leaves its stores -/

/-- Alone, the program leaves its stores in `I` however it ends, and in `Q` with the value it ends with. -/
structure Settles (exec : (c : C) → S → Except ε (R c) × S) (I : S → Prop) (Q : α → S → Prop) (program : Prog C R ε E A α)
    (state : S) : Prop where
  left : I (run exec program state).state
  value : ∀ value, (run exec program state).outcome = .ok value → Q value (run exec program state).state

namespace Settles

variable {exec : (c : C) → S → Except ε (R c) × S} {I : S → Prop} {P : α → S → Prop} {P' : β → S → Prop} {state : S}

theorem ret {value : α} (hleft : I state) (hvalue : P value state) :
    Settles exec I P (.ret value : Prog C R ε E A α) state := by
  refine ⟨hleft, fun other hother => ?_⟩
  cases hother
  exact hvalue

theorem fail {error : A} (hleft : I state) : Settles exec I P (.fail error : Prog C R ε E A α) state :=
  ⟨hleft, fun _ hvalue => nomatch hvalue⟩

theorem panic (hleft : I state) : Settles exec I P (.panic : Prog C R ε E A α) state :=
  ⟨hleft, fun _ hvalue => nomatch hvalue⟩

theorem bind {program : Prog C R ε E A α} {rest : α → Prog C R ε E A β} (hprogram : Settles exec I P program state)
    (hrest : ∀ value after, I after → P value after → Settles exec I P' (rest value) after) :
    Settles exec I P' (program.bind rest) state := by
  cases houtcome : (run exec program state).outcome with
  | ok value =>
      have hnext := hrest value _ hprogram.left (hprogram.value value houtcome)
      have hrun : run exec (program.bind rest) state = _ := run_bind_of_ok exec houtcome
      exact ⟨by rw [hrun]; exact hnext.left, by rw [hrun]; exact hnext.value⟩
  | fail error =>
      have hrun : run exec (program.bind rest) state = ⟨.fail error, (run exec program state).state,
          (run exec program state).events⟩ := by rw [run_bind, Ran.andThen, houtcome]
      exact ⟨by rw [hrun]; exact hprogram.left, by rw [hrun]; rintro _ ⟨⟩⟩
  | panic =>
      have hrun : run exec (program.bind rest) state = ⟨.panic, (run exec program state).state,
          (run exec program state).events⟩ := by rw [run_bind, Ran.andThen, houtcome]
      exact ⟨by rw [hrun]; exact hprogram.left, by rw [hrun]; rintro _ ⟨⟩⟩

/-- A call that is answered, its effect in between of no concern. -/
theorem perform {wrap : ε → A} {query : C} {rest : R query → Prog C R ε E A β} {answer : R query}
    (hok : (exec query state).1 = .ok answer) (hrest : Settles exec I P' (rest answer) (exec query state).2) :
    Settles exec I P' ((Prog.perform wrap query).bind rest) state := by
  have hrun : run exec ((Prog.perform wrap query).bind rest) state = _ := run_perform_bind exec hok
  exact ⟨by rw [hrun]; exact hrest.left, by rw [hrun]; exact hrest.value⟩

/-- A call that may be refused. -/
theorem performed {wrap : ε → A} {query : C} {P : R query → S → Prop} (hleft : I (exec query state).2)
    (hvalue : ∀ answer, (exec query state).1 = .ok answer → P answer (exec query state).2) :
    Settles exec I P (Prog.perform wrap query : Prog C R ε E A (R query)) state := by
  cases hanswer : (exec query state).1 with
  | ok answer =>
      have hrun : run exec (Prog.perform wrap query : Prog C R ε E A (R query)) state =
          ⟨.ok answer, (exec query state).2, []⟩ := by
        simp only [Prog.perform, run_call, hanswer, run_ret]
      refine ⟨by rw [hrun]; exact hleft, fun value hok => ?_⟩
      rw [hrun] at hok ⊢
      cases hok
      exact hvalue answer hanswer
  | error error =>
      have hrun : run exec (Prog.perform wrap query : Prog C R ε E A (R query)) state =
          ⟨.fail (wrap error), (exec query state).2, []⟩ := by
        simp only [Prog.perform, run_call, hanswer, run_fail]
      refine ⟨by rw [hrun]; exact hleft, fun value hok => ?_⟩
      rw [hrun] at hok
      cases hok

/-- Calls each of which keeps an invariant. -/
theorem of_only {okCall : C → Prop} {okEvent : E → Prop} {program : Prog C R ε E A α} (honly : program.Only okCall okEvent)
    (hcall : ∀ query, okCall query → ∀ before, I before → I (exec query before).2) (hstate : I state) :
    Settles exec I (fun _ _ => True) program state :=
  ⟨honly.run_rel exec (fun before after => I before → I after) (fun _ h => h) (fun _ _ _ hab hbc h => hbc (hab h)) hcall
    state hstate, fun _ _ => trivial⟩

theorem attempt {query : C} {P : Except ε (R query) → S → Prop} (hleft : I (exec query state).2)
    (hvalue : P (exec query state).1 (exec query state).2) :
    Settles exec I P (Prog.attempt query : Prog C R ε E A (Except ε (R query))) state := by
  refine ⟨hleft, fun value hok => ?_⟩
  cases hok
  exact hvalue

/-- The value is that of the run. -/
theorem exact {program : Prog C R ε E A α} (hprogram : Settles exec I P program state) :
    Settles exec I (fun value after => P value after ∧ (run exec program state).outcome = .ok value) program state :=
  ⟨hprogram.left, fun value hok => ⟨hprogram.value value hok, hok⟩⟩

theorem mono {I' : S → Prop} {P'' : α → S → Prop} {program : Prog C R ε E A α} (hprogram : Settles exec I P program state)
    (hleft : ∀ after, I after → I' after) (hvalue : ∀ value after, I after → P value after → P'' value after) :
    Settles exec I' P'' program state :=
  ⟨hleft _ hprogram.left, fun value hok => hvalue value _ hprogram.left (hprogram.value value hok)⟩

/-- A program over the first of two stores. -/
theorem lift {second : (d : D) → S → Except ε (Q d) × S} {program : Prog C R ε E A α}
    (hprogram : Settles exec I P program state) :
    Settles (execBoth exec second) I P (program.lift : Prog (C ⊕ D) (PairRes R Q) ε E A α) state :=
  ⟨by rw [run_lift]; exact hprogram.left, by rw [run_lift]; exact hprogram.value⟩

end Settles

end StoreProgram
