import Pingward.ProgramInterleave

/-! Programs that share one cell of the store. Each program looks at the cell once, plans its writes and
its events from what it saw, and then carries the plan out. A write is undisturbed when no other program
has written the cell since the writer looked at it. The last theorem says that a complete run of
undisturbed writes leaves the cell, and hands out the events, as some serial order of the programs
does. -/

namespace StoreProgram

variable {ι C : Type} {R : C → Type} {ε E A α S V F : Type} {exec : (c : C) → S → Except ε (R c) × S}

/-- How a call meets the cell. -/
inductive Role where
  | quiet
  | reads
  | writes
  deriving DecidableEq, Repr

/-- A cell of the store, with the states it is looked at in. A call without a role is one that none of
the programs makes; an event that is not shown is about something else. -/
structure Cell (exec : (c : C) → S → Except ε (R c) × S) (V E F : Type) where
  view : S → V
  Fits : S → Prop
  role : C → Option Role
  effect : C → V → V
  shown : E → Option F
  fits : ∀ {c s r}, role c = some r → Fits s → Fits (exec c s).2
  view_write : ∀ {c s}, role c = some .writes → Fits s → view (exec c s).2 = effect c (view s)
  view_same : ∀ {c s}, role c = some .quiet ∨ role c = some .reads → Fits s → view (exec c s).2 = view s

/-- The writes and the events a program plans. -/
abbrev Plan (C F : Type) := List C × List F

namespace Cell

variable (cell : Cell exec V E F)

/-- The program makes calls and never ends. -/
def Hangs : Prog C R ε E A α → Prop
  | .ret _ => False
  | .fail _ => False
  | .panic => True
  | .emit _ next => Hangs next
  | .call c next => (cell.role c).isSome = true ∧ ∀ s, cell.Fits s → Hangs (next (exec c s).1)

/-- The program makes these writes, among quiet calls, hands out these events after them, and ends. -/
def Does : Prog C R ε E A α → List C → List F → Prop
  | .ret _, ws, es => ws = [] ∧ es = []
  | .fail _, ws, es => ws = [] ∧ es = []
  | .panic, _, _ => False
  | .emit event next, ws, es =>
      ws = [] ∧ ∃ es', es = (cell.shown event).toList ++ es' ∧ Does next [] es'
  | .call c next, ws, es =>
      cell.role c = some .writes ∧ (∃ ws', ws = c :: ws' ∧ ∀ s, cell.Fits s → Does (next (exec c s).1) ws' es) ∨
        cell.role c = some .quiet ∧ ∀ s, cell.Fits s → Does (next (exec c s).1) ws es

/-- What is left of a program that has looked at the cell and planned this. -/
def Follows (program : Prog C R ε E A α) : Option (Plan C F) → Prop
  | none => cell.Hangs program
  | some p => cell.Does program p.1 p.2

/-- The program makes quiet calls, looks at the cell, and follows its plan for what it saw. -/
def Begins (plan : V → Option (Plan C F)) : Prog C R ε E A α → Prop
  | .call c next =>
      cell.role c = some .quiet ∧ (∀ s, cell.Fits s → Begins plan (next (exec c s).1)) ∨
        (cell.role c = some .quiet ∨ cell.role c = some .reads) ∧
          ∀ s, cell.Fits s → cell.Follows (next (exec c s).1) (plan (cell.view s))
  | _ => False

/-- Every call of the program has a role. -/
def Known : Prog C R ε E A α → Prop
  | .emit _ next => Known next
  | .call c next => (cell.role c).isSome = true ∧ ∀ s, cell.Fits s → Known (next (exec c s).1)
  | _ => True

/-- The writes in order. -/
def applyAll (ws : List C) (v : V) : V := ws.foldl (fun v c => cell.effect c v) v

@[simp] theorem applyAll_nil (v : V) : cell.applyAll [] v = v := rfl

@[simp] theorem applyAll_cons (c : C) (ws : List C) (v : V) :
    cell.applyAll (c :: ws) v = cell.applyAll ws (cell.effect c v) := rfl

@[simp] theorem applyAll_append (ws₁ ws₂ : List C) (v : V) :
    cell.applyAll (ws₁ ++ ws₂) v = cell.applyAll ws₂ (cell.applyAll ws₁ v) := List.foldl_append ..

/-! ### A program alone -/

theorem Hangs.known {cell : Cell exec V E F} {program : Prog C R ε E A α} (hhangs : cell.Hangs program) :
    cell.Known program := by
  induction program with
  | ret value => trivial
  | fail error => trivial
  | panic => trivial
  | emit event next ih => exact ih hhangs
  | call c next ih => exact ⟨hhangs.1, fun s hfits => ih _ (hhangs.2 s hfits)⟩

theorem Does.known {cell : Cell exec V E F} {program : Prog C R ε E A α} {ws : List C} {es : List F}
    (hdoes : cell.Does program ws es) : cell.Known program := by
  induction program generalizing ws es with
  | ret value => trivial
  | fail error => trivial
  | panic => trivial
  | emit event next ih =>
      obtain ⟨_, es', _, hnext⟩ := hdoes
      exact ih hnext
  | call c next ih =>
      rcases hdoes with ⟨hrole, ws', _, hnext⟩ | ⟨hrole, hnext⟩
      · exact ⟨by rw [hrole]; rfl, fun s hfits => ih _ (hnext s hfits)⟩
      · exact ⟨by rw [hrole]; rfl, fun s hfits => ih _ (hnext s hfits)⟩

theorem Begins.known {cell : Cell exec V E F} {plan : V → Option (Plan C F)} {program : Prog C R ε E A α}
    (hbegins : cell.Begins plan program) : cell.Known program := by
  induction program with
  | ret value => trivial
  | fail error => trivial
  | panic => trivial
  | emit event next ih => exact hbegins.elim
  | call c next ih =>
      rcases hbegins with ⟨hrole, hnext⟩ | ⟨hrole, hnext⟩
      · exact ⟨by rw [hrole]; rfl, fun s hfits => ih _ (hnext s hfits)⟩
      · refine ⟨by rcases hrole with hrole | hrole <;> rw [hrole] <;> rfl, fun s hfits => ?_⟩
        have hfollows := hnext s hfits
        cases hplan : plan (cell.view s) with
        | none =>
            rw [hplan] at hfollows
            exact Hangs.known hfollows
        | some p =>
            rw [hplan] at hfollows
            exact Does.known hfollows

theorem Does.run {cell : Cell exec V E F} {program : Prog C R ε E A α} {ws : List C} {es : List F}
    (hdoes : cell.Does program ws es) {s : S} (hfits : cell.Fits s) :
    cell.Fits (run exec program s).state ∧ cell.view (run exec program s).state = cell.applyAll ws (cell.view s) ∧
      (run exec program s).events.filterMap cell.shown = es := by
  induction program generalizing ws es s with
  | ret value =>
      obtain ⟨rfl, rfl⟩ := hdoes
      exact ⟨hfits, rfl, rfl⟩
  | fail error =>
      obtain ⟨rfl, rfl⟩ := hdoes
      exact ⟨hfits, rfl, rfl⟩
  | panic => exact hdoes.elim
  | emit event next ih =>
      obtain ⟨rfl, es', rfl, hnext⟩ := hdoes
      obtain ⟨hfits', hview, hevents⟩ := ih hnext hfits
      refine ⟨hfits', hview, ?_⟩
      rw [run_emit, List.filterMap_cons, hevents]
      cases cell.shown event <;> rfl
  | call c next ih =>
      rcases hdoes with ⟨hrole, ws', rfl, hnext⟩ | ⟨hrole, hnext⟩
      · obtain ⟨hfits', hview, hevents⟩ := ih _ (hnext s hfits) (cell.fits hrole hfits)
        exact ⟨hfits', hview.trans (congrArg _ (cell.view_write hrole hfits)), hevents⟩
      · obtain ⟨hfits', hview, hevents⟩ := ih _ (hnext s hfits) (cell.fits hrole hfits)
        exact ⟨hfits', hview.trans (congrArg _ (cell.view_same (.inl hrole) hfits)), hevents⟩

theorem Begins.run {cell : Cell exec V E F} {plan : V → Option (Plan C F)} {program : Prog C R ε E A α}
    (hbegins : cell.Begins plan program) {s : S} (hfits : cell.Fits s) {ws : List C} {es : List F}
    (hplan : plan (cell.view s) = some (ws, es)) :
    cell.Fits (run exec program s).state ∧ cell.view (run exec program s).state = cell.applyAll ws (cell.view s) ∧
      (run exec program s).events.filterMap cell.shown = es := by
  induction program generalizing s with
  | ret value => exact hbegins.elim
  | fail error => exact hbegins.elim
  | panic => exact hbegins.elim
  | emit event next ih => exact hbegins.elim
  | call c next ih =>
      rcases hbegins with ⟨hrole, hnext⟩ | ⟨hrole, hnext⟩
      · have hview := cell.view_same (.inl hrole) hfits
        have hrest := ih _ (hnext s hfits) (cell.fits hrole hfits) (by rw [hview]; exact hplan)
        rw [hview] at hrest
        exact hrest
      · have hview := cell.view_same hrole hfits
        have hdoes := hnext s hfits
        rw [hplan] at hdoes
        have hrest := Does.run hdoes (hrole.elim (cell.fits · hfits) (cell.fits · hfits))
        rw [hview] at hrest
        exact hrest

/-! ### Programs that look, write and end -/

section Rules

variable {cell : Cell exec V E F} {β : Type} {c : C} {wrap : ε → A} {ws : List C} {es : List F}
  {plan : V → Option (Plan C F)}

theorem Does.quiet {next : R c → Prog C R ε E A β} (hrole : cell.role c = some .quiet)
    (hnext : ∀ s, cell.Fits s → ∃ answer, (exec c s).1 = .ok answer ∧ cell.Does (next answer) ws es) :
    cell.Does ((Prog.perform wrap c).bind next) ws es := by
  refine Or.inr ⟨hrole, fun s hfits => ?_⟩
  obtain ⟨answer, hok, hdoes⟩ := hnext s hfits
  rw [hok]
  exact hdoes

theorem Does.write {next : R c → Prog C R ε E A β} (hrole : cell.role c = some .writes)
    (hnext : ∀ s, cell.Fits s → ∃ answer, (exec c s).1 = .ok answer ∧ cell.Does (next answer) ws es) :
    cell.Does ((Prog.perform wrap c).bind next) (c :: ws) es := by
  refine Or.inl ⟨hrole, ws, rfl, fun s hfits => ?_⟩
  obtain ⟨answer, hok, hdoes⟩ := hnext s hfits
  rw [hok]
  exact hdoes

theorem Begins.quiet {next : R c → Prog C R ε E A β} (hrole : cell.role c = some .quiet)
    (hnext : ∀ s, cell.Fits s → ∃ answer, (exec c s).1 = .ok answer ∧ cell.Begins plan (next answer)) :
    cell.Begins plan ((Prog.perform wrap c).bind next) := by
  refine Or.inl ⟨hrole, fun s hfits => ?_⟩
  obtain ⟨answer, hok, hbegins⟩ := hnext s hfits
  rw [hok]
  exact hbegins

theorem Begins.look {next : R c → Prog C R ε E A β} (hrole : cell.role c = some .quiet ∨ cell.role c = some .reads)
    (hnext : ∀ s, cell.Fits s → ∃ answer, (exec c s).1 = .ok answer ∧
      cell.Follows (next answer) (plan (cell.view s))) :
    cell.Begins plan ((Prog.perform wrap c).bind next) := by
  refine Or.inr ⟨hrole, fun s hfits => ?_⟩
  obtain ⟨answer, hok, hfollows⟩ := hnext s hfits
  rw [hok]
  exact hfollows

theorem Hangs.quiet {next : R c → Prog C R ε E A β} (hrole : cell.role c = some .quiet)
    (hnext : ∀ s, cell.Fits s → ∃ answer, (exec c s).1 = .ok answer ∧ cell.Hangs (next answer)) :
    cell.Hangs ((Prog.perform wrap c).bind next) := by
  refine ⟨by rw [hrole]; rfl, fun s hfits => ?_⟩
  obtain ⟨answer, hok, hhangs⟩ := hnext s hfits
  rw [hok]
  exact hhangs

theorem Follows.quiet {next : R c → Prog C R ε E A β} {planned : Option (Plan C F)}
    (hrole : cell.role c = some .quiet)
    (hnext : ∀ s, cell.Fits s → ∃ answer, (exec c s).1 = .ok answer ∧ cell.Follows (next answer) planned) :
    cell.Follows ((Prog.perform wrap c).bind next) planned := by
  cases planned with
  | none => exact Hangs.quiet hrole hnext
  | some p => exact Does.quiet hrole hnext

theorem Hangs.erase {program : Prog C R ε E A α} (hhangs : cell.Hangs program) : cell.Hangs program.erase := by
  induction program with
  | ret value => exact hhangs
  | fail error => exact hhangs
  | panic => trivial
  | emit event next ih => exact ih hhangs
  | call c next ih => exact ⟨hhangs.1, fun s hfits => ih _ (hhangs.2 s hfits)⟩

theorem Does.erase {program : Prog C R ε E A α} {ws : List C} {es : List F} (hdoes : cell.Does program ws es) :
    cell.Does program.erase ws es := by
  induction program generalizing ws es with
  | ret value => exact hdoes
  | fail error => exact hdoes
  | panic => exact hdoes
  | emit event next ih =>
      obtain ⟨rfl, es', rfl, hnext⟩ := hdoes
      exact ⟨rfl, es', rfl, ih hnext⟩
  | call c next ih =>
      rcases hdoes with ⟨hrole, ws', rfl, hnext⟩ | ⟨hrole, hnext⟩
      · exact Or.inl ⟨hrole, ws', rfl, fun s hfits => ih _ (hnext s hfits)⟩
      · exact Or.inr ⟨hrole, fun s hfits => ih _ (hnext s hfits)⟩

theorem Follows.erase {program : Prog C R ε E A α} {planned : Option (Plan C F)}
    (hfollows : cell.Follows program planned) : cell.Follows program.erase planned := by
  cases planned with
  | none => exact Hangs.erase hfollows
  | some p => exact Does.erase hfollows

theorem Begins.erase {program : Prog C R ε E A α} (hbegins : cell.Begins plan program) :
    cell.Begins plan program.erase := by
  induction program with
  | ret value => exact hbegins
  | fail error => exact hbegins
  | panic => exact hbegins
  | emit event next ih => exact hbegins
  | call c next ih =>
      rcases hbegins with ⟨hrole, hnext⟩ | ⟨hrole, hnext⟩
      · exact Or.inl ⟨hrole, fun s hfits => ih _ (hnext s hfits)⟩
      · exact Or.inr ⟨hrole, fun s hfits => (hnext s hfits).erase⟩

theorem does_tellAll (events : List E) :
    cell.Does (Prog.tellAll events : Prog C R ε E A Unit) [] (events.filterMap cell.shown) := by
  induction events with
  | nil => exact ⟨rfl, rfl⟩
  | cons event events ih =>
      refine ⟨rfl, _, ?_, ih⟩
      rw [List.filterMap_cons]
      cases cell.shown event <;> rfl

end Rules

end Cell

/-! ### Serial orders -/

/-- The order carries the cell from `start` to `v` and hands out these events. -/
inductive Serial (cell : Cell exec V E F) (plan : ι → V → Option (Plan C F)) (start : V) :
    List ι → V → List F → Prop where
  | nil : Serial cell plan start [] start []
  | snoc {order : List ι} {v : V} {es : List F} (i : ι) {ws : List C} {es' : List F}
      (before : Serial cell plan start order v es) (hplan : plan i v = some (ws, es')) :
      Serial cell plan start (order ++ [i]) (cell.applyAll ws v) (es ++ es')

/-- The programs one after another, each to its end. -/
def serial (exec : (c : C) → S → Except ε (R c) × S) (pool : ι → Prog C R ε E A α) (order : List ι) (s : S) :
    S × List E :=
  order.foldl (fun acc i => ((run exec (pool i) acc.1).state, acc.2 ++ (run exec (pool i) acc.1).events)) (s, [])

/-- A serial order of plans is one of the programs. -/
theorem Serial.programs {cell : Cell exec V E F} {plan : ι → V → Option (Plan C F)} {pool : ι → Prog C R ε E A α}
    (hpool : ∀ i, cell.Begins (plan i) (pool i)) {s : S} (hfits : cell.Fits s) {order : List ι} {v : V} {es : List F}
    (hserial : Serial cell plan (cell.view s) order v es) :
    cell.Fits (serial exec pool order s).1 ∧ cell.view (serial exec pool order s).1 = v ∧
      (serial exec pool order s).2.filterMap cell.shown = es := by
  induction hserial with
  | nil => exact ⟨hfits, rfl, rfl⟩
  | snoc i before hplan ih =>
      obtain ⟨hfits', hview, hevents⟩ := ih
      rw [← hview] at hplan
      obtain ⟨hfits'', hview', hevents'⟩ := (hpool i).run hfits' hplan
      simp only [serial, List.foldl_append, List.foldl_cons, List.foldl_nil, List.filterMap_append] at *
      exact ⟨hfits'', hview'.trans (by rw [hview]), by rw [hevents, hevents']⟩

/-! ### Interleaved programs -/

namespace Cell

variable (cell : Cell exec V E F) [DecidableEq ι]

/-- Another program has written the cell since `i` looked at it last. -/
def Disturbed (cfg : Config ι C R ε E A α S) (i : ι) : Prop :=
  ∃ entry ∈ cfg.trace.takeWhile fun entry => !(entry.1 = i ∧ cell.role entry.2 = some .reads),
    entry.1 ≠ i ∧ cell.role entry.2 = some .writes

/-- A guarded program writes only when it is not disturbed. -/
def Undisturbed (guarded : ι → Prop) (cfg : Config ι C R ε E A α S) (i : ι) : Prop :=
  ∀ c next, cfg.pool i = .call c next → cell.role c = some .writes → guarded i → ¬cell.Disturbed cfg i

/-- `Undisturbed` as a test. -/
def undisturbed (guarded : ι → Bool) (cfg : Config ι C R ε E A α S) (i : ι) : Bool :=
  match cfg.pool i with
  | .call c _ => !(cell.role c = some .writes ∧ guarded i = true ∧
      (cfg.trace.takeWhile fun entry => !(entry.1 = i ∧ cell.role entry.2 = some .reads)).any fun entry =>
        entry.1 ≠ i ∧ cell.role entry.2 = some .writes)
  | _ => true

theorem undisturbed_of_test {guarded : ι → Bool} {cfg : Config ι C R ε E A α S} {i : ι}
    (htest : cell.undisturbed guarded cfg i = true) : cell.Undisturbed (fun i => guarded i = true) cfg i := by
  rintro c next hpool hrole hguarded ⟨entry, hmem, hentry⟩
  simp only [undisturbed, hpool, hrole, hguarded, Bool.not_eq_true', decide_eq_false_iff_not, true_and,
    List.any_eq_true, decide_eq_true_eq, not_exists, not_and] at htest
  exact htest entry hmem hentry.1 hentry.2

theorem Disturbed.cons {cell : Cell exec V E F} {cfg cfg' : Config ι C R ε E A α S} {i j : ι} {c : C}
    (htrace : cfg'.trace = (j, c) :: cfg.trace) (hread : j = i → cell.role c ≠ some .reads)
    (hdisturbed : cell.Disturbed cfg i) : cell.Disturbed cfg' i := by
  obtain ⟨entry, hmem, hentry⟩ := hdisturbed
  refine ⟨entry, ?_, hentry⟩
  rw [htrace, List.takeWhile_cons_of_pos (by simpa [Decidable.imp_iff_not_or] using hread)]
  exact List.mem_cons_of_mem _ hmem

theorem disturbed_of_write {cfg cfg' : Config ι C R ε E A α S} {i j : ι} {c : C} (hne : j ≠ i)
    (htrace : cfg'.trace = (j, c) :: cfg.trace) (hrole : cell.role c = some .writes) : cell.Disturbed cfg' i := by
  refine ⟨(j, c), ?_, hne, hrole⟩
  rw [htrace, List.takeWhile_cons_of_pos (by simp [hne])]
  exact List.mem_cons_self ..

end Cell

/-- Where a program stands: it has not looked at the cell, or it has these writes and events to go. -/
inductive Stage (C F : Type) where
  | unread
  | held (ws : List C) (es : List F) (started : Bool)

namespace Stage

/-- The program has taken its place in the serial order. -/
def Placed : Stage C F → Prop
  | .unread => False
  | .held ws _ started => started = true ∨ ws = []

/-- The program is in the middle of its writes. -/
def Busy : Stage C F → Prop
  | .held ws _ true => ws ≠ []
  | _ => False

def outstanding : Stage C F → List F
  | .unread => []
  | .held _ es _ => es

/-- The stage the program's rest is at. -/
def Tracks (cell : Cell exec V E F) (plan : V → Option (Plan C F)) (program : Prog C R ε E A α) : Stage C F → Prop
  | .unread => cell.Begins plan program
  | .held ws es _ => cell.Does program ws es

end Stage

section Serialisable

variable (cell : Cell exec V E F) (plan : ι → V → Option (Plan C F)) (guarded : ι → Prop) (start : V)

/-- The started programs have written all they plan, but for one that has `left` to write. -/
def Writing (v : V) (stage : ι → Stage C F) (left : List C) : Prop :=
  (left = [] ∧ ∀ i, ¬(stage i).Busy) ∨
    ∃ i es, stage i = .held left es true ∧ left ≠ [] ∧ guarded i ∧ (∀ j, (stage j).Busy → j = i) ∧
      ∃ u ws es, ws ≠ [] ∧ plan i u = some (ws ++ left, es) ∧ v = cell.applyAll ws u

/-- The programs that have taken their place, in order: the cell is where the order leaves it, but for
the writes that one of them has left. -/
structure Ordered (cfg : Config ι C R ε E A α S) (stage : ι → Stage C F) (order : List ι) (v : V) (es : List F)
    (left : List C) : Prop where
  serial : Serial cell plan start order v es
  nodup : order.Nodup
  mem : ∀ i, i ∈ order ↔ (stage i).Placed
  tracks : ∀ i, (stage i).Tracks cell (plan i) (cfg.pool i)
  pending : ∀ i ws es, stage i = .held ws es false → ws ≠ [] → plan i (cell.view cfg.state) = some (ws, es)
  value : v = cell.applyAll left (cell.view cfg.state)
  writing : Writing cell plan guarded (cell.view cfg.state) stage left
  events : (cfg.events.filterMap cell.shown ++ order.flatMap fun i => (stage i).outstanding).Perm es

/-- The plans of the programs that are not guarded do not depend on the cell and make one write at
most; and a program that plans no write on a cell half written plans none on the cell written. -/
structure Compatible : Prop where
  blind : ∀ i, ¬guarded i → ∃ p : Plan C F, p.1.length ≤ 1 ∧ ∀ v, plan i v = some p
  idle : ∀ i j u ws₁ ws₂ es es', plan i u = some (ws₁ ++ ws₂, es) → ws₁ ≠ [] →
    plan j (cell.applyAll ws₁ u) = some ([], es') → plan j (cell.applyAll (ws₁ ++ ws₂) u) = some ([], es')

/-- Some program can no longer reach its end. -/
def Dead [DecidableEq ι] (cfg : Config ι C R ε E A α S) : Prop :=
  ∃ i, cell.Hangs (cfg.pool i) ∨
    guarded i ∧ cell.Disturbed cfg i ∧ ∃ ws es, ws ≠ [] ∧ cell.Does (cfg.pool i) ws es

section Step

variable {cell plan guarded start} {cfg cfg' : Config ι C R ε E A α S} {stage : ι → Stage C F} {order : List ι} {v : V}
  {es : List F} {left : List C} {i : ι}

/-- What a program with no write to go sees in the cell is what it sees where the order leaves it. -/
theorem Ordered.idle (hcompatible : Compatible cell plan guarded)
    (hordered : Ordered cell plan guarded start cfg stage order v es left) {es' : List F}
    (hplan : plan i (cell.view cfg.state) = some ([], es')) : plan i v = some ([], es') := by
  rw [hordered.value]
  rcases hordered.writing with ⟨hleft, _⟩ | ⟨w, _, _, _, _, _, u, ws, es'', hne, hwriter, hview⟩
  · rw [hleft]
    exact hplan
  · rw [hview] at hplan ⊢
    rw [← Cell.applyAll_append]
    exact hcompatible.idle w i u ws left es'' es' hwriter hne hplan

theorem nodup_snoc (hnodup : order.Nodup) (hmem : i ∉ order) : (order ++ [i]).Nodup := by
  rw [List.nodup_append]
  refine ⟨hnodup, by simp, ?_⟩
  rintro a ha b hb rfl
  exact hmem (List.mem_singleton.mp hb ▸ ha)

variable [DecidableEq ι]

theorem flatMap_update_of_not_mem {g : Stage C F → List F} {new : Stage C F} (hmem : i ∉ order) :
    (order.flatMap fun j => g (Function.update stage i new j)) = order.flatMap fun j => g (stage j) := by
  induction order with
  | nil => rfl
  | cons j order ih =>
      have hne : j ≠ i := fun heq => hmem (heq ▸ List.mem_cons_self ..)
      rw [List.flatMap_cons, List.flatMap_cons, Function.update_of_ne hne,
        ih fun hrest => hmem (List.mem_cons_of_mem _ hrest)]

/-- A program takes its place at the end. -/
theorem mem_snoc (hmem : ∀ j, j ∈ order ↔ (stage j).Placed) {new : Stage C F} (hnew : new.Placed) (j : ι) :
    j ∈ order ++ [i] ↔ (Function.update stage i new j).Placed := by
  rw [List.mem_append, List.mem_singleton]
  by_cases heq : j = i
  · subst heq
    rw [Function.update_self]
    exact ⟨fun _ => hnew, fun _ => Or.inr rfl⟩
  · rw [Function.update_of_ne heq, ← hmem j]
    simp [heq]

theorem mem_update (hmem : ∀ j, j ∈ order ↔ (stage j).Placed) {new : Stage C F}
    (hnew : i ∈ order ↔ new.Placed) (j : ι) : j ∈ order ↔ (Function.update stage i new j).Placed := by
  by_cases heq : j = i
  · subst heq
    rwa [Function.update_self]
  · rw [Function.update_of_ne heq]
    exact hmem j

/-- The programs other than the one that steps are at their stages. -/
theorem tracks_update (htracks : ∀ j, (stage j).Tracks cell (plan j) (cfg.pool j))
    (hothers : ∀ j, j ≠ i → cfg'.pool j = cfg.pool j) {new : Stage C F}
    (hnew : new.Tracks cell (plan i) (cfg'.pool i)) (j : ι) :
    (Function.update stage i new j).Tracks cell (plan j) (cfg'.pool j) := by
  by_cases heq : j = i
  · subst heq
    rwa [Function.update_self]
  · rw [Function.update_of_ne heq, hothers j heq]
    exact htracks j

theorem flatMap_update_of_mem {new : Stage C F} {out : List F} (hnodup : order.Nodup) (hmem : i ∈ order)
    (hout : (stage i).outstanding = out ++ new.outstanding) :
    (out ++ order.flatMap fun j => (Function.update stage i new j).outstanding).Perm
      (order.flatMap fun j => (stage j).outstanding) := by
  obtain ⟨front, back, rfl⟩ := List.append_of_mem hmem
  obtain ⟨hfront, hback⟩ : i ∉ front ∧ i ∉ back := by
    rw [List.nodup_append, List.nodup_cons] at hnodup
    exact ⟨fun hfront => hnodup.2.2 i hfront i (List.mem_cons_self ..) rfl, hnodup.2.1.1⟩
  simp only [List.flatMap_append, List.flatMap_cons, flatMap_update_of_not_mem hfront, flatMap_update_of_not_mem hback,
    Function.update_self, hout]
  rw [List.append_assoc out new.outstanding]
  exact List.perm_append_comm_assoc ..

/-- A step of a program that is in the middle of nothing, before and after. -/
theorem Writing.update {new : Stage C F} (hwriting : Writing cell plan guarded v stage left) (hold : ¬(stage i).Busy)
    (hnew : ¬new.Busy) : Writing cell plan guarded v (Function.update stage i new) left := by
  have hbusy : ∀ j, (Function.update stage i new j).Busy → j ≠ i ∧ (stage j).Busy := by
    intro j hj
    by_cases heq : j = i
    · subst heq
      rw [Function.update_self] at hj
      exact absurd hj hnew
    · rw [Function.update_of_ne heq] at hj
      exact ⟨heq, hj⟩
  rcases hwriting with ⟨hleft, hall⟩ | ⟨w, es, hstage, hleft, hguarded, hone, horigin⟩
  · exact Or.inl ⟨hleft, fun j hj => hall j (hbusy j hj).2⟩
  · have hne : w ≠ i := by
      rintro rfl
      exact hold (by rw [hstage]; exact hleft)
    exact Or.inr ⟨w, es, by rw [Function.update_of_ne hne, hstage], hleft, hguarded,
      fun j hj => hone j (hbusy j hj).2, horigin⟩

/-- A step that changes no stage. -/
theorem Ordered.stay (hordered : Ordered cell plan guarded start cfg stage order v es left)
    (hothers : ∀ j, j ≠ i → cfg'.pool j = cfg.pool j) (htracks : (stage i).Tracks cell (plan i) (cfg'.pool i))
    (hview : cell.view cfg'.state = cell.view cfg.state) (hevents : cfg'.events = cfg.events) :
    Ordered cell plan guarded start cfg' stage order v es left where
  serial := hordered.serial
  nodup := hordered.nodup
  mem := hordered.mem
  tracks j := by
    have hall := tracks_update hordered.tracks hothers htracks j
    rwa [Function.update_eq_self] at hall
  pending := by
    rw [hview]
    exact hordered.pending
  value := by
    rw [hview]
    exact hordered.value
  writing := by
    rw [hview]
    exact hordered.writing
  events := by
    rw [hevents]
    exact hordered.events

/-- A step that hands out an event. -/
theorem Ordered.emit (hordered : Ordered cell plan guarded start cfg stage order v es left) {event : E}
    {next : Prog C R ε E A α} (hpool : cfg.pool i = .emit event next) :
    ∃ stage', Ordered cell plan guarded start
      { cfg with pool := Function.update cfg.pool i next, events := event :: cfg.events } stage' order v es left := by
  have htracks := hordered.tracks i
  rw [hpool] at htracks
  cases hstage : stage i with
  | unread =>
      rw [hstage] at htracks
      exact htracks.elim
  | held ws out started =>
      rw [hstage] at htracks
      obtain ⟨rfl, out', rfl, hnext⟩ := htracks
      have hbusy : ¬(stage i).Busy := by
        rw [hstage]
        cases started <;> simp [Stage.Busy]
      have hbusy' : ¬(Stage.held [] out' started : Stage C F).Busy := by cases started <;> simp [Stage.Busy]
      have hplaced : i ∈ order := (hordered.mem i).mpr (by rw [hstage]; exact Or.inr rfl)
      refine ⟨Function.update stage i (.held [] out' started), hordered.serial, hordered.nodup, ?_, ?_, ?_,
        hordered.value, hordered.writing.update hbusy hbusy', ?_⟩
      · exact mem_update hordered.mem ⟨fun _ => Or.inr rfl, fun _ => hplaced⟩
      · refine tracks_update hordered.tracks (fun j hne => Function.update_of_ne hne _ _) ?_
        exact (congrArg (cell.Does · [] out') (Function.update_self i next cfg.pool)).mpr hnext
      · intro j ws' es' hj hne
        by_cases heq : j = i
        · subst heq
          rw [Function.update_self] at hj
          cases hj
          exact absurd rfl hne
        · rw [Function.update_of_ne heq] at hj
          exact hordered.pending j ws' es' hj hne
      · have hout : (stage i).outstanding =
            (cell.shown event).toList ++ (Stage.held [] out' started : Stage C F).outstanding := by rw [hstage]; rfl
        refine List.Perm.trans ?_ hordered.events
        refine List.Perm.trans ?_ ((flatMap_update_of_mem hordered.nodup hplaced hout).append_left _)
        have hcons : (event :: cfg.events).filterMap cell.shown =
            (cell.shown event).toList ++ cfg.events.filterMap cell.shown := by
          rw [List.filterMap_cons]
          cases cell.shown event <;> rfl
        rw [hcons, List.append_assoc]
        exact List.perm_append_comm_assoc ..

/-- A program that looks at the cell and has a plan. -/
theorem Ordered.read (hcompatible : Compatible cell plan guarded)
    (hordered : Ordered cell plan guarded start cfg stage order v es left) (hstage : stage i = .unread)
    (hothers : ∀ j, j ≠ i → cfg'.pool j = cfg.pool j) (hview : cell.view cfg'.state = cell.view cfg.state)
    (hevents : cfg'.events = cfg.events) {ws : List C} {out : List F}
    (hplan : plan i (cell.view cfg.state) = some (ws, out)) (hdoes : cell.Does (cfg'.pool i) ws out) :
    ∃ stage' order' v' es', Ordered cell plan guarded start cfg' stage' order' v' es' left := by
  have hmem : i ∉ order := fun hmem => by
    have hplaced := (hordered.mem i).mp hmem
    rw [hstage] at hplaced
    exact hplaced
  have hwriting : Writing cell plan guarded (cell.view cfg'.state) (Function.update stage i (.held ws out false))
      left := by
    rw [hview]
    exact hordered.writing.update (by rw [hstage]; exact id) id
  have htracks : ∀ j, (Function.update stage i (.held ws out false) j).Tracks cell (plan j) (cfg'.pool j) :=
    tracks_update hordered.tracks hothers hdoes
  have hvalue : v = cell.applyAll left (cell.view cfg'.state) := by
    rw [hview]
    exact hordered.value
  have hpending : ∀ j ws' es', Function.update stage i (.held ws out false) j = .held ws' es' false → ws' ≠ [] →
      plan j (cell.view cfg'.state) = some (ws', es') := by
    intro j ws' es' hj hne
    rw [hview]
    by_cases heq : j = i
    · subst heq
      rw [Function.update_self] at hj
      cases hj
      exact hplan
    · rw [Function.update_of_ne heq] at hj
      exact hordered.pending j ws' es' hj hne
  by_cases hnil : ws = []
  · subst hnil
    have hplaced : (Stage.held [] out false : Stage C F).Placed := Or.inr rfl
    refine ⟨_, order ++ [i], v, es ++ out, hordered.serial.snoc i (hordered.idle hcompatible hplan),
      nodup_snoc hordered.nodup hmem, mem_snoc hordered.mem hplaced, htracks, hpending, hvalue, hwriting, ?_⟩
    rw [hevents, List.flatMap_append, flatMap_update_of_not_mem hmem, List.flatMap_singleton, Function.update_self,
      ← List.append_assoc]
    exact hordered.events.append_right out
  · refine ⟨_, order, v, es, hordered.serial, hordered.nodup, mem_update hordered.mem ?_, htracks, hpending, hvalue,
      hwriting, ?_⟩
    · simp [hmem, Stage.Placed, hnil]
    · rw [hevents, flatMap_update_of_not_mem hmem]
      exact hordered.events

/-- Nobody else has a write of its own to go that depends on the cell. -/
def Alone (guarded : ι → Prop) (stage : ι → Stage C F) (i : ι) : Prop :=
  ∀ j, j ≠ i → guarded j → ∀ ws es started, stage j = .held ws es started → ws = []

/-- A write disturbs the others that have one to go. -/
theorem dead_or_alone (htracks : ∀ j, (stage j).Tracks cell (plan j) (cfg.pool j)) {c : C}
    (hrole : cell.role c = some .writes) (hothers : ∀ j, j ≠ i → cfg'.pool j = cfg.pool j)
    (htrace : cfg'.trace = (i, c) :: cfg.trace) : Dead cell guarded cfg' ∨ Alone guarded stage i := by
  by_cases halone : Alone guarded stage i
  · exact Or.inr halone
  · simp only [Alone] at halone
    push Not at halone
    obtain ⟨j, hne, hguarded, ws, es, started, hstage, hws⟩ := halone
    have hdoes := htracks j
    rw [hstage] at hdoes
    refine Or.inl ⟨j, Or.inr ⟨hguarded, cell.disturbed_of_write hne.symm htrace hrole, ws, es, hws, ?_⟩⟩
    rw [hothers j hne]
    exact hdoes

/-- The plans of the others survive a write of a program that is alone. -/
theorem Ordered.pending_write (hcompatible : Compatible cell plan guarded)
    (hordered : Ordered cell plan guarded start cfg stage order v es left) (halone : Alone guarded stage i)
    {ws : List C} {out : List F} {v' : V} (j : ι) (ws' : List C) (es' : List F)
    (hj : Function.update stage i (.held ws out true) j = .held ws' es' false) (hne : ws' ≠ []) :
    plan j v' = some (ws', es') := by
  have heq : j ≠ i := by
    rintro rfl
    rw [Function.update_self] at hj
    cases hj
  rw [Function.update_of_ne heq] at hj
  by_cases hguarded : guarded j
  · exact absurd (halone j heq hguarded _ _ _ hj) hne
  · obtain ⟨p, _, hconst⟩ := hcompatible.blind j hguarded
    have hplan := hordered.pending j ws' es' hj hne
    rw [hconst] at hplan ⊢
    exact hplan

/-- The writer's own place in `Writing`, when it is alone. -/
theorem writing_alone {ws : List C} {out : List F} {u : V} {ws₁ : List C} {es' : List F}
    (hbusy : ∀ j, j ≠ i → ¬(stage j).Busy) (hguarded : ws ≠ [] → guarded i) (hne : ws₁ ≠ [])
    (hplan : plan i u = some (ws₁ ++ ws, es')) (hv : v = cell.applyAll ws₁ u) :
    Writing cell plan guarded v (Function.update stage i (.held ws out true)) ws := by
  by_cases hnil : ws = []
  · refine Or.inl ⟨hnil, fun j => ?_⟩
    by_cases heq : j = i
    · subst heq
      rw [Function.update_self]
      exact fun hws => hws hnil
    · rw [Function.update_of_ne heq]
      exact hbusy j heq
  · refine Or.inr ⟨i, out, Function.update_self .., hnil, hguarded hnil, ?_, u, ws₁, es', hne, hplan, hv⟩
    intro j hj
    by_contra heq
    rw [Function.update_of_ne heq] at hj
    exact hbusy j heq hj

/-- The first write of a program. -/
theorem Ordered.first (hcompatible : Compatible cell plan guarded)
    (hordered : Ordered cell plan guarded start cfg stage order v es left) (halone : Alone guarded stage i) {c : C}
    {ws : List C} {out : List F} (hstage : stage i = .held (c :: ws) out false)
    (hothers : ∀ j, j ≠ i → cfg'.pool j = cfg.pool j)
    (hview : cell.view cfg'.state = cell.effect c (cell.view cfg.state)) (hevents : cfg'.events = cfg.events)
    (hdoes : cell.Does (cfg'.pool i) ws out) :
    ∃ stage' order' v' es', Ordered cell plan guarded start cfg' stage' order' v' es' ws := by
  have hmem : i ∉ order := fun hmem => by
    have hplaced := (hordered.mem i).mp hmem
    rw [hstage] at hplaced
    simp [Stage.Placed] at hplaced
  have hfree : left = [] ∧ ∀ j, ¬(stage j).Busy := by
    rcases hordered.writing with hfree | ⟨w, es', hw, hleft, hguarded, _⟩
    · exact hfree
    · have hne : w ≠ i := by
        rintro rfl
        rw [hstage] at hw
        cases hw
      exact absurd (halone w hne hguarded _ _ _ hw) hleft
  have hv : v = cell.view cfg.state := by rw [hordered.value, hfree.1, Cell.applyAll_nil]
  have hplan := hordered.pending i _ _ hstage (List.cons_ne_nil c ws)
  have hguarded : ws ≠ [] → guarded i := by
    intro hws
    by_contra hblind
    obtain ⟨p, hlength, hconst⟩ := hcompatible.blind i hblind
    rw [hconst] at hplan
    cases hplan
    simp at hlength
    exact hws hlength
  have hplaced : (Stage.held ws out true : Stage C F).Placed := Or.inl rfl
  refine ⟨Function.update stage i (.held ws out true), order ++ [i], cell.applyAll (c :: ws) v, es ++ out,
    hordered.serial.snoc i (hv ▸ hplan), nodup_snoc hordered.nodup hmem, mem_snoc hordered.mem hplaced,
    tracks_update hordered.tracks hothers hdoes, hordered.pending_write hcompatible halone, ?_,
    writing_alone (fun j _ => hfree.2 j) hguarded (List.cons_ne_nil c []) hplan hview, ?_⟩
  · rw [hview, hv]
    rfl
  · rw [hevents, List.flatMap_append, flatMap_update_of_not_mem hmem, List.flatMap_singleton, Function.update_self,
      ← List.append_assoc]
    exact hordered.events.append_right out

/-- A later write of a program. -/
theorem Ordered.next (hcompatible : Compatible cell plan guarded)
    (hordered : Ordered cell plan guarded start cfg stage order v es left) (halone : Alone guarded stage i) {c : C}
    {ws : List C} {out : List F} (hstage : stage i = .held (c :: ws) out true)
    (hothers : ∀ j, j ≠ i → cfg'.pool j = cfg.pool j)
    (hview : cell.view cfg'.state = cell.effect c (cell.view cfg.state)) (hevents : cfg'.events = cfg.events)
    (hdoes : cell.Does (cfg'.pool i) ws out) :
    ∃ stage', Ordered cell plan guarded start cfg' stage' order v es ws := by
  have hbusy : (stage i).Busy := by
    rw [hstage]
    exact List.cons_ne_nil c ws
  rcases hordered.writing with ⟨_, hall⟩ | ⟨w, es', hw, hleft, hguarded, hone, u, ws₁, es'', hne, hplan, hu⟩
  · exact absurd hbusy (hall i)
  obtain rfl := hone i hbusy
  rw [hstage] at hw
  cases hw
  refine ⟨Function.update stage i (.held ws out true), hordered.serial, hordered.nodup,
    mem_update hordered.mem ?_, tracks_update hordered.tracks hothers hdoes,
    hordered.pending_write hcompatible halone, ?_, ?_, ?_⟩
  · rw [hordered.mem i, hstage]
    exact ⟨fun _ => Or.inl rfl, fun _ => Or.inl rfl⟩
  · rw [hview, hordered.value]
    rfl
  · have hplan' : plan i u = some ((ws₁ ++ [c]) ++ ws, es'') := by
      rw [List.append_assoc]
      exact hplan
    refine writing_alone (fun j hj hbusy => hj (hone j hbusy)) (fun _ => hguarded) (by simp) hplan' ?_
    rw [hview, hu, Cell.applyAll_append]
    rfl
  · rw [hevents]
    refine List.Perm.trans (List.Perm.append_left _ ?_) hordered.events
    have hplaced : i ∈ order := (hordered.mem i).mpr (by rw [hstage]; exact Or.inl rfl)
    have hout : (stage i).outstanding = [] ++ (Stage.held ws out true : Stage C F).outstanding := by rw [hstage]; rfl
    exact flatMap_update_of_mem hordered.nodup hplaced hout

/-- A call of a program that is not blocked. -/
theorem Ordered.call (hcompatible : Compatible cell plan guarded)
    (hordered : Ordered cell plan guarded start cfg stage order v es left) (hfits : cell.Fits cfg.state) {c : C}
    {next : Except ε (R c) → Prog C R ε E A α} (hpool : cfg.pool i = .call c next)
    (hnext : cfg'.pool i = next (exec c cfg.state).1) (hothers : ∀ j, j ≠ i → cfg'.pool j = cfg.pool j)
    (hstate : cfg'.state = (exec c cfg.state).2) (hevents : cfg'.events = cfg.events)
    (htrace : cfg'.trace = (i, c) :: cfg.trace) :
    Dead cell guarded cfg' ∨ ∃ stage' order' v' es' left', Ordered cell plan guarded start cfg' stage' order' v' es' left' := by
  have htracks := hordered.tracks i
  rw [hpool] at htracks
  cases hstage : stage i with
  | unread =>
      rw [hstage] at htracks
      rcases htracks with ⟨hrole, hbegins⟩ | ⟨hrole, hfollows⟩
      · have hview : cell.view cfg'.state = cell.view cfg.state := hstate ▸ cell.view_same (.inl hrole) hfits
        refine Or.inr ⟨_, _, _, _, _, hordered.stay hothers ?_ hview hevents⟩
        rw [hstage, hnext]
        exact hbegins _ hfits
      · have hview : cell.view cfg'.state = cell.view cfg.state := hstate ▸ cell.view_same hrole hfits
        have hrest := hfollows _ hfits
        rw [← hnext] at hrest
        cases hplan : plan i (cell.view cfg.state) with
        | none =>
            rw [hplan] at hrest
            exact Or.inl ⟨i, Or.inl hrest⟩
        | some p =>
            rw [hplan] at hrest
            obtain ⟨stage', order', v', es', hordered'⟩ :=
              hordered.read hcompatible hstage hothers hview hevents hplan hrest
            exact Or.inr ⟨_, _, _, _, _, hordered'⟩
  | held ws out started =>
      rw [hstage] at htracks
      rcases htracks with ⟨hrole, ws', rfl, hdoes⟩ | ⟨hrole, hdoes⟩
      · have hview : cell.view cfg'.state = cell.effect c (cell.view cfg.state) :=
          hstate ▸ cell.view_write hrole hfits
        have hrest := hdoes _ hfits
        rw [← hnext] at hrest
        rcases dead_or_alone hordered.tracks hrole hothers htrace with hdead | halone
        · exact Or.inl hdead
        · cases started with
          | false =>
              obtain ⟨stage', order', v', es', hordered'⟩ :=
                hordered.first hcompatible halone hstage hothers hview hevents hrest
              exact Or.inr ⟨_, _, _, _, _, hordered'⟩
          | true =>
              obtain ⟨stage', hordered'⟩ := hordered.next hcompatible halone hstage hothers hview hevents hrest
              exact Or.inr ⟨_, _, _, _, _, hordered'⟩
      · have hview : cell.view cfg'.state = cell.view cfg.state := hstate ▸ cell.view_same (.inl hrole) hfits
        refine Or.inr ⟨_, _, _, _, _, hordered.stay hothers ?_ hview hevents⟩
        rw [hstage, hnext]
        exact hdoes _ hfits

/-- Once some program cannot reach its end, it never will. -/
theorem Dead.step (hdead : Dead cell guarded cfg) (hfits : cell.Fits cfg.state)
    (hallowed : cell.Undisturbed guarded cfg i) (hstep : cfg.advance exec i = some cfg') : Dead cell guarded cfg' := by
  obtain ⟨k, hdead⟩ := hdead
  refine ⟨k, ?_⟩
  by_cases heq : k = i
  · subst heq
    rcases Config.advance_cases exec hstep with ⟨event, next, hpool, rfl⟩ | ⟨c, next, hpool, rfl⟩
    · rw [hpool] at hdead
      rcases hdead with hhangs | ⟨_, _, ws, es, hws, hdoes⟩
      · exact Or.inl ((congrArg cell.Hangs (Function.update_self k next cfg.pool)).mpr hhangs)
      · exact absurd hdoes.1 hws
    · have hself := Function.update_self k (next (exec c cfg.state).1) cfg.pool
      rw [hpool] at hdead
      rcases hdead with hhangs | ⟨hguarded, hdisturbed, ws, es, hws, hdoes⟩
      · exact Or.inl ((congrArg cell.Hangs hself).mpr (hhangs.2 _ hfits))
      · rcases hdoes with ⟨hrole, _⟩ | ⟨hrole, hdoes⟩
        · exact absurd hdisturbed (hallowed c next hpool hrole hguarded)
        · refine Or.inr ⟨hguarded, hdisturbed.cons rfl fun _ => by simp [hrole], ws, es, hws, ?_⟩
          exact (congrArg (cell.Does · ws es) hself).mpr (hdoes _ hfits)
  · rw [Config.advance_pool_of_ne exec heq hstep]
    refine hdead.imp_right fun ⟨hguarded, hdisturbed, hrest⟩ => ⟨hguarded, ?_, hrest⟩
    rcases Config.advance_cases exec hstep with ⟨event, next, _, rfl⟩ | ⟨c, next, _, rfl⟩
    · exact hdisturbed
    · exact hdisturbed.cons rfl fun hik => absurd hik.symm heq

theorem fits_step (hfits : cell.Fits cfg.state) (hknown : ∀ j, cell.Known (cfg.pool j))
    (hstep : cfg.advance exec i = some cfg') : cell.Fits cfg'.state ∧ ∀ j, cell.Known (cfg'.pool j) := by
  have hothers : ∀ j, j ≠ i → cell.Known (cfg'.pool j) := by
    intro j hne
    rw [Config.advance_pool_of_ne exec hne hstep]
    exact hknown j
  have hi := hknown i
  rcases Config.advance_cases exec hstep with ⟨event, next, hpool, rfl⟩ | ⟨c, next, hpool, rfl⟩
  · rw [hpool] at hi
    refine ⟨hfits, fun j => ?_⟩
    by_cases heq : j = i
    · subst heq
      exact (congrArg cell.Known (Function.update_self j next cfg.pool)).mpr hi
    · exact hothers j heq
  · rw [hpool] at hi
    obtain ⟨r, hrole⟩ := Option.isSome_iff_exists.mp hi.1
    refine ⟨cell.fits hrole hfits, fun j => ?_⟩
    by_cases heq : j = i
    · subst heq
      exact (congrArg cell.Known (Function.update_self j (next (exec c cfg.state).1) cfg.pool)).mpr (hi.2 _ hfits)
    · exact hothers j heq

/-- Along a run of undisturbed writes the programs are in some order, or one of them cannot end. -/
theorem ordered_or_dead (hcompatible : Compatible cell plan guarded) {pool : ι → Prog C R ε E A α} {s : S}
    (hfits : cell.Fits s) (hpool : ∀ i, cell.Begins (plan i) (pool i))
    (hreach : Reach exec (cell.Undisturbed guarded) (.init pool s) cfg) :
    Dead cell guarded cfg ∨ ∃ stage order v es left, Ordered cell plan guarded (cell.view s) cfg stage order v es left := by
  have hinv := hreach.invariant exec
    (fun cfg => (cell.Fits cfg.state ∧ ∀ j, cell.Known (cfg.pool j)) ∧
      (Dead cell guarded cfg ∨
        ∃ stage order v es left, Ordered cell plan guarded (cell.view s) cfg stage order v es left)) ?_ ?_
  · exact hinv.2
  · refine ⟨⟨hfits, fun j => (hpool j).known⟩, Or.inr ⟨fun _ => .unread, [], cell.view s, [], [], ?_⟩⟩
    refine ⟨.nil, List.nodup_nil, fun j => ⟨fun hj => absurd hj List.not_mem_nil, False.elim⟩, hpool, ?_, rfl,
      Or.inl ⟨rfl, fun _ hbusy => hbusy⟩, .refl _⟩
    rintro _ _ _ ⟨⟩
  · rintro cfg cfg' i ⟨⟨hfits, hknown⟩, hcases⟩ hallowed hstep
    refine ⟨fits_step hfits hknown hstep, ?_⟩
    rcases hcases with hdead | ⟨stage, order, v, es, left, hordered⟩
    · exact Or.inl (hdead.step hfits hallowed hstep)
    · have hothers : ∀ j, j ≠ i → cfg'.pool j = cfg.pool j := fun j hne => Config.advance_pool_of_ne exec hne hstep
      rcases Config.advance_cases exec hstep with ⟨event, next, hcall, rfl⟩ | ⟨c, next, hcall, rfl⟩
      · obtain ⟨stage', hordered'⟩ := hordered.emit hcall
        exact Or.inr ⟨_, _, _, _, _, hordered'⟩
      · exact hordered.call hcompatible hfits hcall (Function.update_self ..) hothers rfl rfl rfl

/-- **Undisturbed writes are serialisable.** -/
theorem serial_of_undisturbed (hcompatible : Compatible cell plan guarded) {pool : ι → Prog C R ε E A α} {s : S}
    (hfits : cell.Fits s) (hpool : ∀ i, cell.Begins (plan i) (pool i))
    (hreach : Reach exec (cell.Undisturbed guarded) (.init pool s) cfg) (hfinished : ∀ i, cfg.Finished i) :
    ∃ order : List ι, order.Nodup ∧ (∀ i, i ∈ order) ∧
      cell.view cfg.state = cell.view (serial exec pool order s).1 ∧
      (cfg.events.filterMap cell.shown).Perm ((serial exec pool order s).2.filterMap cell.shown) := by
  have hend : ∀ i ws es, cell.Does (cfg.pool i) ws es → ws = [] ∧ es = [] := by
    intro i ws es hdoes
    rcases hfinished i with ⟨value, hret⟩ | ⟨error, hfail⟩
    · rwa [hret] at hdoes
    · rwa [hfail] at hdoes
  rcases ordered_or_dead hcompatible hfits hpool hreach with ⟨i, hdead⟩ | ⟨stage, order, v, es, left, hordered⟩
  · rcases hdead with hhangs | ⟨_, _, ws, es, hws, hdoes⟩
    · rcases hfinished i with ⟨value, hret⟩ | ⟨error, hfail⟩
      · rw [hret] at hhangs
        exact hhangs.elim
      · rw [hfail] at hhangs
        exact hhangs.elim
    · exact absurd (hend i ws es hdoes).1 hws
  · have hstage : ∀ i, ∃ started, stage i = .held [] [] started := by
      intro i
      have htracks := hordered.tracks i
      cases hi : stage i with
      | unread =>
          rw [hi] at htracks
          rcases hfinished i with ⟨value, hret⟩ | ⟨error, hfail⟩
          · rw [hret] at htracks
            exact htracks.elim
          · rw [hfail] at htracks
            exact htracks.elim
      | held ws es started =>
          rw [hi] at htracks
          obtain ⟨rfl, rfl⟩ := hend i ws es htracks
          exact ⟨started, rfl⟩
    have hleft : left = [] := by
      rcases hordered.writing with ⟨hleft, _⟩ | ⟨w, es', hw, _⟩
      · exact hleft
      · obtain ⟨started, hw'⟩ := hstage w
        rw [hw] at hw'
        cases hw'
        rfl
    obtain ⟨_, hview, hevents⟩ := hordered.serial.programs hpool hfits
    refine ⟨order, hordered.nodup, fun i => ?_, ?_, ?_⟩
    · obtain ⟨started, hi⟩ := hstage i
      rw [hordered.mem i, hi]
      exact Or.inr rfl
    · rw [hview, hordered.value, hleft, Cell.applyAll_nil]
    · have houtstanding : (order.flatMap fun i => (stage i).outstanding) = [] := by
        rw [List.flatMap_eq_nil_iff]
        intro i _
        obtain ⟨started, hi⟩ := hstage i
        rw [hi]
        rfl
      have hperm := hordered.events
      rw [houtstanding, List.append_nil] at hperm
      rw [hevents]
      exact hperm

end Step

end Serialisable

end StoreProgram
