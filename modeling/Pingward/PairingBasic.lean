import Mathlib.Data.List.Induction
import Mathlib.Order.Basic

/-! Openers and closers in one sequence. An opener waits in place of the one that waited before it, a closer takes the
opener that waits, and everything else is passed over. The pairs a scan finds are described by their place in the
sequence, and by the order alone when the sequence is sorted; a scan that starts late misses at most one pair. -/

namespace Pairing

variable {α : Type} (opens closes : α → Bool)

/-- The opener that waits, and the pairs so far, the latest first. -/
abbrev State (α : Type) := Option α × List (α × α)

def step (state : State α) (a : α) : State α :=
  if opens a then (some a, state.2)
  else if closes a then (none, (state.1.map (·, a)).toList ++ state.2)
  else state

def scan (state : State α) (items : List α) : State α := items.foldl (step opens closes) state

def pairs (items : List α) : List (α × α) := (scan opens closes (none, []) items).2

/-- Neither an opener nor a closer. -/
def Neutral (a : α) : Prop := opens a = false ∧ closes a = false

/-- The opener that waits at the end. -/
def Waits (items : List α) (a : α) : Prop :=
  ∃ before between, items = before ++ a :: between ∧ opens a = true ∧ ∀ m ∈ between, Neutral opens closes m

/-- The closer stands behind the opener with nothing but neutral elements between them. -/
def Paired (items : List α) (a b : α) : Prop :=
  ∃ before after, items = before ++ b :: after ∧ opens b = false ∧ closes b = true ∧ Waits opens closes before a

variable {opens closes}

theorem step_cases (opens closes : α → Bool) (state : State α) (a : α) :
    opens a = true ∧ step opens closes state a = (some a, state.2) ∨
      opens a = false ∧ closes a = true ∧
        step opens closes state a = (none, (state.1.map (·, a)).toList ++ state.2) ∨
      Neutral opens closes a ∧ step opens closes state a = state := by
  unfold step Neutral
  cases opens a <;> cases closes a <;> simp

/-! ### What waits and what is paired -/

theorem waits_append_singleton (items : List α) (a b : α) :
    Waits opens closes (items ++ [b]) a ↔
      opens b = true ∧ a = b ∨ Neutral opens closes b ∧ Waits opens closes items a := by
  constructor
  · rintro ⟨before, between, heq, hopens, hbetween⟩
    rcases List.eq_nil_or_concat between with rfl | ⟨front, last, rfl⟩
    · obtain ⟨-, hlast⟩ := List.append_inj' heq rfl
      rw [List.cons.injEq] at hlast
      exact Or.inl ⟨hlast.1 ▸ hopens, hlast.1.symm⟩
    · rw [List.concat_eq_append, ← List.cons_append, ← List.append_assoc] at heq
      obtain ⟨hitems, hlast⟩ := List.append_inj' heq rfl
      rw [List.cons.injEq] at hlast
      rw [List.concat_eq_append] at hbetween
      refine Or.inr ⟨hlast.1 ▸ hbetween last (by simp), before, front, hitems, hopens, fun m hm => ?_⟩
      exact hbetween m (List.mem_append_left _ hm)
  · rintro (⟨hopens, rfl⟩ | ⟨hneutral, before, between, rfl, hopens, hbetween⟩)
    · exact ⟨items, [], rfl, hopens, fun m hm => absurd hm List.not_mem_nil⟩
    · refine ⟨before, between ++ [b], by simp, hopens, fun m hm => ?_⟩
      rcases List.mem_append.mp hm with hold | hnew
      · exact hbetween m hold
      · rw [List.mem_singleton.mp hnew]
        exact hneutral

theorem paired_append_singleton (items : List α) (a b last : α) :
    Paired opens closes (items ++ [last]) a b ↔
      Paired opens closes items a b ∨
        last = b ∧ opens b = false ∧ closes b = true ∧ Waits opens closes items a := by
  constructor
  · rintro ⟨before, after, heq, hopens, hcloses, hwaits⟩
    rcases List.eq_nil_or_concat after with rfl | ⟨front, c, rfl⟩
    · obtain ⟨rfl, hlast⟩ := List.append_inj' heq rfl
      rw [List.cons.injEq] at hlast
      exact Or.inr ⟨hlast.1, hopens, hcloses, hwaits⟩
    · rw [List.concat_eq_append, ← List.cons_append, ← List.append_assoc] at heq
      obtain ⟨hitems, -⟩ := List.append_inj' heq rfl
      exact Or.inl ⟨before, front, hitems, hopens, hcloses, hwaits⟩
  · rintro (⟨before, after, rfl, hopens, hcloses, hwaits⟩ | ⟨rfl, hopens, hcloses, hwaits⟩)
    · exact ⟨before, after ++ [last], by simp, hopens, hcloses, hwaits⟩
    · exact ⟨items, [], rfl, hopens, hcloses, hwaits⟩

/-- **The scan.** It keeps the opener that waits, and it finds the pairs. -/
theorem scan_spec (items : List α) :
    (∀ a, (scan opens closes (none, []) items).1 = some a ↔ Waits opens closes items a) ∧
      ∀ a b, (a, b) ∈ pairs opens closes items ↔ Paired opens closes items a b := by
  induction items using List.reverseRecOn with
  | nil =>
      constructor
      · intro a
        simp [scan, Waits]
      · intro a b
        simp [pairs, scan, Paired]
  | append_singleton items last ih =>
      obtain ⟨hwaits, hpairs⟩ := ih
      have hscan : scan opens closes (none, []) (items ++ [last]) =
          step opens closes (scan opens closes (none, []) items) last := List.foldl_append ..
      have hfound : pairs opens closes (items ++ [last]) =
          (step opens closes (scan opens closes (none, []) items) last).2 := congrArg Prod.snd hscan
      have hold : (scan opens closes (none, []) items).2 = pairs opens closes items := rfl
      simp only [waits_append_singleton, paired_append_singleton, hscan, hfound, ← hwaits, ← hpairs]
      rcases step_cases opens closes (scan opens closes (none, []) items) last with
        ⟨hopens, hstep⟩ | ⟨hopens, hcloses, hstep⟩ | ⟨⟨hopens, hcloses⟩, hstep⟩
      · constructor
        · intro a
          rw [hstep, Option.some.injEq]
          have hneutral : ¬Neutral opens closes last := fun hneutral => Bool.false_ne_true (hneutral.1.symm.trans hopens)
          simp only [hopens, hneutral, true_and, false_and, or_false]
          exact eq_comm
        · intro a b
          rw [hstep]
          refine (or_iff_left ?_).symm
          rintro ⟨rfl, hclosed, -⟩
          rw [hopens] at hclosed
          cases hclosed
      · constructor
        · intro a
          rw [hstep]
          simp [hopens, hcloses, Neutral]
        · intro a b
          rw [hstep, hold, List.mem_append, Option.mem_toList, Option.map_eq_some_iff]
          constructor
          · rintro (⟨c, hc, heq⟩ | hmem)
            · cases heq
              exact Or.inr ⟨rfl, hopens, hcloses, hc⟩
            · exact Or.inl hmem
          · rintro (hmem | ⟨rfl, -, -, ha⟩)
            · exact Or.inr hmem
            · exact Or.inl ⟨a, ha, rfl⟩
      · constructor
        · intro a
          rw [hstep]
          simp [hopens, hcloses, Neutral]
        · intro a b
          rw [hstep]
          refine (or_iff_left ?_).symm
          rintro ⟨rfl, -, hclosed, -⟩
          rw [hcloses] at hclosed
          cases hclosed

theorem mem_pairs_iff {items : List α} {a b : α} :
    (a, b) ∈ pairs opens closes items ↔ Paired opens closes items a b := (scan_spec items).2 a b

theorem closer_mem {items : List α} {pair : α × α} (hpair : pair ∈ pairs opens closes items) : pair.2 ∈ items := by
  obtain ⟨before, after, rfl, -⟩ := mem_pairs_iff.mp hpair
  simp

/-- What is passed over may as well not be there. -/
theorem pairs_filter {keep : α → Bool} (hkeep : ∀ a, keep a = false → Neutral opens closes a) (items : List α) :
    pairs opens closes (items.filter keep) = pairs opens closes items := by
  have hscan (state : State α) : scan opens closes state (items.filter keep) = scan opens closes state items := by
    induction items generalizing state with
    | nil => rfl
    | cons a items ih =>
        cases hk : keep a with
        | true =>
            rw [List.filter_cons_of_pos hk]
            exact ih _
        | false =>
            rw [List.filter_cons_of_neg (by rw [hk]; exact Bool.false_ne_true), ih]
            have hneutral := hkeep a hk
            have hstep : step opens closes state a = state := by
              unfold step
              rw [hneutral.1, hneutral.2]
              rfl
            exact congrArg (fun state => scan opens closes state items) hstep.symm
  exact congrArg Prod.snd (hscan (none, []))

/-! ### Sorted sequences -/

/-- In a sorted sequence a pair is an opener and a closer behind it with nothing but neutral elements between. -/
theorem paired_iff_of_pairwise {before : α → α → Prop} (hirrefl : ∀ a, ¬before a a)
    (htrans : ∀ a b c, before a b → before b c → before a c) {items : List α} (hsorted : items.Pairwise before) {a b : α} :
    Paired opens closes items a b ↔ a ∈ items ∧ b ∈ items ∧ opens a = true ∧ opens b = false ∧ closes b = true ∧
      before a b ∧ ∀ m ∈ items, before a m → before m b → Neutral opens closes m := by
  constructor
  · rintro ⟨front, after, rfl, hopens, hcloses, first, between, rfl, ha, hbetween⟩
    rw [List.append_assoc, List.cons_append, List.pairwise_append, List.pairwise_cons, List.pairwise_append,
      List.pairwise_cons] at hsorted
    obtain ⟨-, ⟨hbehind, -, ⟨hafter, -⟩, hmiddle⟩, hfront⟩ := hsorted
    refine ⟨by simp, by simp, ha, hopens, hcloses, hbehind b (by simp), fun m hm ham hmb => ?_⟩
    simp only [List.append_assoc, List.cons_append, List.mem_append, List.mem_cons] at hm
    rcases hm with hm | rfl | hm | rfl | hm
    · exact absurd (htrans _ _ _ ham (hfront m hm a List.mem_cons_self)) (hirrefl a)
    · exact absurd ham (hirrefl _)
    · exact hbetween m hm
    · exact absurd hmb (hirrefl _)
    · exact absurd (htrans _ _ _ hmb (hafter m hm)) (hirrefl m)
  · rintro ⟨ha, hb, hopensa, hopensb, hclosesb, hab, hneutral⟩
    obtain ⟨front, after, rfl⟩ := List.append_of_mem hb
    rw [List.pairwise_append, List.pairwise_cons] at hsorted
    obtain ⟨hfront, ⟨hafter, -⟩, hacross⟩ := hsorted
    have hain : a ∈ front := by
      rw [List.mem_append, List.mem_cons] at ha
      rcases ha with ha | rfl | ha
      · exact ha
      · exact absurd hab (hirrefl _)
      · exact absurd (htrans _ _ _ hab (hafter a ha)) (hirrefl a)
    obtain ⟨first, between, rfl⟩ := List.append_of_mem hain
    rw [List.pairwise_append, List.pairwise_cons] at hfront
    refine ⟨_, after, rfl, hopensb, hclosesb, first, between, rfl, hopensa, fun m hm => ?_⟩
    exact hneutral m (by simp [hm]) (hfront.2.1.1 m hm) (hacross m (by simp [hm]) b List.mem_cons_self)

/-! ### A scan that starts late -/

theorem scan_found (waiting : Option α) (found : List (α × α)) (items : List α) :
    scan opens closes (waiting, found) items =
      ((scan opens closes (waiting, []) items).1, (scan opens closes (waiting, []) items).2 ++ found) := by
  induction items generalizing waiting found with
  | nil => rfl
  | cons a items ih =>
      have hscan (state : State α) :
          scan opens closes state (a :: items) = scan opens closes (step opens closes state a) items := rfl
      rw [hscan, hscan]
      rcases step_cases opens closes (waiting, found) a with
        ⟨hopens, hstep⟩ | ⟨hopens, hcloses, hstep⟩ | ⟨⟨hopens, hcloses⟩, hstep⟩
      · have hfresh : step opens closes (waiting, []) a = (some a, []) := by simp [step, hopens]
        rw [hstep, hfresh, ih]
      · have hfresh : step opens closes (waiting, []) a = (none, (waiting.map (·, a)).toList ++ []) := by
          simp [step, hopens, hcloses]
        rw [hstep, hfresh, ih, ih none (_ ++ [])]
        simp
      · have hfresh : step opens closes (waiting, []) a = (waiting, []) := by simp [step, hopens, hcloses]
        rw [hstep, hfresh, ih]

/-- The opener that waited when the scan began is paired with the first closer or not at all. -/
theorem scan_waiting (opens closes : α → Bool) (waiting : Option α) (items : List α) :
    (scan opens closes (waiting, []) items).2 = pairs opens closes items ∨
      ∃ a b, (scan opens closes (waiting, []) items).2 = pairs opens closes items ++ [(a, b)] := by
  induction items with
  | nil => exact Or.inl rfl
  | cons a items ih =>
      have hscan (state : State α) :
          scan opens closes state (a :: items) = scan opens closes (step opens closes state a) items := rfl
      rw [pairs, hscan, hscan]
      by_cases hopens : opens a = true
      · have hstep (state : State α) : step opens closes state a = (some a, state.2) := by simp [step, hopens]
        rw [hstep, hstep]
        exact Or.inl rfl
      · by_cases hcloses : closes a = true
        · have hstep (state : State α) :
              step opens closes state a = (none, (state.1.map (·, a)).toList ++ state.2) := by
            simp [step, hopens, hcloses]
          rw [hstep, hstep, scan_found]
          cases waiting with
          | none => exact Or.inl (List.append_nil _)
          | some o => exact Or.inr ⟨o, a, rfl⟩
        · have hstep (state : State α) : step opens closes state a = state := by simp [step, hopens, hcloses]
          rw [hstep, hstep]
          exact ih

/-- **A late start.** The pairs of a longer sequence are those of its front, those of its tail, and at most one
more. -/
theorem pairs_append (opens closes : α → Bool) (front tail : List α) : ∃ extra : Option (α × α),
    pairs opens closes (front ++ tail) = pairs opens closes tail ++ (extra.toList ++ pairs opens closes front) := by
  have hscan : pairs opens closes (front ++ tail) =
      (scan opens closes ((scan opens closes (none, []) front).1, []) tail).2 ++ pairs opens closes front := by
    rw [pairs, scan, List.foldl_append]
    exact congrArg Prod.snd (scan_found _ _ tail)
  rw [hscan]
  rcases scan_waiting opens closes (scan opens closes (none, []) front).1 tail with
    hsame | ⟨a, b, hmore⟩
  · exact ⟨none, by rw [hsame]; rfl⟩
  · exact ⟨some (a, b), by rw [hmore, List.append_assoc]; rfl⟩

end Pairing
