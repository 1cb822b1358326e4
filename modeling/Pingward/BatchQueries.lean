import Mathlib.Data.List.Dedup
import Pingward.KeysetStatement
import Pingward.ModelBatch
import Pingward.RunPairing

/-! The batched reads against the reads of one parent. The sorted rows of the batch, restricted to one parent, are that
parent's rows in their order; a row is among the first of its partition exactly when its number says so. -/

namespace Pingward

/-! ### Regrouping -/

section Regroup

variable {τ : Type}

theorem lookup_entry (k key : Int) (values : List τ) (rest : List (Int × List τ)) :
    List.lookup k ((key, values) :: rest) = if k = key then some values else rest.lookup k := by
  rw [List.lookup_cons]
  by_cases heq : k = key
  · rw [if_pos heq, heq, beq_self_eq_true]
  · rw [if_neg heq, beq_eq_false_iff_ne.mpr heq]

theorem lookup_pushEntry (key k : Int) (value : τ) (map : List (Int × List τ)) :
    (pushEntry key value map).lookup k =
      if k = key then some ((map.lookup k).getD [] ++ [value]) else map.lookup k := by
  induction map with
  | nil => exact lookup_entry k key [value] []
  | cons entry rest ih =>
      obtain ⟨other, values⟩ := entry
      rw [pushEntry]
      by_cases hother : other = key
      · rw [if_pos hother, lookup_entry, lookup_entry, hother]
        by_cases hk : k = key
        · rw [if_pos hk, if_pos hk, if_pos hk, Option.getD_some]
        · rw [if_neg hk, if_neg hk, if_neg hk]
      · rw [if_neg hother, lookup_entry, lookup_entry, ih]
        by_cases hk : k = key
        · have hne : k ≠ other := fun heq => hother (heq.symm.trans hk)
          rw [if_neg hne, if_pos hk, if_pos hk, if_neg hne]
        · rw [if_neg hk, if_neg hk]

/-- Under a key stand its rows, in their order; a key without rows is absent. -/
theorem lookup_regroup (key : τ → Int) (rows : List τ) (k : Int) :
    (regroup key rows).lookup k =
      if (rows.filter fun row => key row = k) = [] then none else some (rows.filter fun row => key row = k) := by
  induction rows using List.reverseRecOn with
  | nil => rfl
  | append_singleton rows row ih =>
      have hpush : regroup key (rows ++ [row]) = pushEntry (key row) row (regroup key rows) := by
        rw [regroup, List.foldl_append]
        rfl
      rw [hpush, lookup_pushEntry, ih, List.filter_append]
      by_cases hk : k = key row
      · have hrow : [row].filter (fun row => key row = k) = [row] := by
          rw [List.filter_singleton, decide_eq_true hk.symm, cond_true]
        rw [if_pos hk, hrow, if_neg (List.append_ne_nil_of_right_ne_nil _ (List.cons_ne_nil _ _))]
        split
        · rename_i hnil
          rw [hnil]
          rfl
        · rfl
      · have hrow : [row].filter (fun row => key row = k) = [] := by
          rw [List.filter_singleton, decide_eq_false (fun heq => hk heq.symm), cond_false]
        rw [if_neg hk, hrow, List.append_nil]

end Regroup

/-! ### Numbered rows -/

section Order

variable {ρ : Type} {id part : ρ → Int}

/-- Of rows in descending order, those with fewer than a count of rows above them are the first ones. -/
theorem filter_number_eq_take {rows : List ρ} (hsorted : Decreasing id rows) (n : Nat) :
    rows.filter (fun row => (rows.countP fun other => id row < id other) < n) = rows.take n := by
  induction rows generalizing n with
  | nil => rw [List.filter_nil, List.take_nil]
  | cons first rest ih =>
      obtain ⟨hfirst, hrest⟩ := List.pairwise_cons.mp hsorted
      have hzero : ((first :: rest).countP fun other => decide (id first < id other)) = 0 := by
        rw [List.countP_eq_zero]
        intro other hother
        rw [decide_eq_true_eq, not_lt]
        rcases List.mem_cons.mp hother with rfl | hmem
        · exact le_rfl
        · exact (hfirst other hmem).le
      have hsucc : ∀ row ∈ rest, ((first :: rest).countP fun other => decide (id row < id other)) =
          (rest.countP fun other => decide (id row < id other)) + 1 := by
        intro row hrow
        rw [List.countP_cons, if_pos (decide_eq_true (hfirst row hrow))]
      cases n with
      | zero =>
          rw [List.take_zero, List.filter_eq_nil_iff]
          intro row _
          rw [decide_eq_true_eq]
          exact Nat.not_lt_zero _
      | succ n =>
          rw [List.filter_cons, hzero, if_pos (decide_eq_true (Nat.succ_pos n)), List.take_succ_cons, ← ih hrest n]
          congr 1
          refine List.filter_congr fun row hrow => ?_
          rw [hsucc row hrow, decide_eq_decide]
          omega

/-- The first rows of a parent, by their number or by sorting and cutting. -/
theorem orderByDesc_filter_number {rows : List ρ} (hdistinct : (rows.map id).Nodup) (n : Nat) :
    orderByDesc id (rows.filter fun row => (rows.countP fun other => id row < id other) < n) =
      (orderByDesc id rows).take n := by
  have hperm : (orderByDesc id rows).Perm rows := List.mergeSort_perm rows _
  have hsorted := orderByDesc_decreasing hdistinct
  have htake := filter_number_eq_take hsorted n
  have hsame : (orderByDesc id rows).filter (fun row => (rows.countP fun other => id row < id other) < n) =
      (orderByDesc id rows).take n := by
    rw [← htake]
    refine List.filter_congr fun row _ => ?_
    rw [hperm.countP_eq]
  rw [← hsame]
  exact orderByDesc_eq (hsorted.sublist List.filter_sublist) (hperm.filter _)

variable {before : ρ → ρ → Bool}

/-- Sorting by parent first keeps each parent's rows sorted. -/
theorem filter_orderByPart (htrans : ∀ a b c, before a b = true → before b c = true → before a c = true)
    (htotal : ∀ a b, before a b = true ∨ before b a = true) (rows : List ρ) (k : Int) :
    ((orderByPart part before rows).filter fun row => part row = k).Pairwise fun a b => before a b = true := by
  have hmerged : (orderByPart part before rows).Pairwise fun a b =>
      decide (part a < part b ∨ part a = part b ∧ before a b = true) = true := by
    refine List.pairwise_mergeSort ?_ ?_ rows
    · intro a b c hab hbc
      rw [decide_eq_true_eq] at hab hbc ⊢
      rcases hab with hlt | ⟨heq, hab⟩
      · rcases hbc with hlt' | ⟨heq', -⟩
        · exact .inl (hlt.trans hlt')
        · exact .inl (heq' ▸ hlt)
      · rcases hbc with hlt' | ⟨heq', hbc⟩
        · exact .inl (heq ▸ hlt')
        · exact .inr ⟨heq.trans heq', htrans a b c hab hbc⟩
    · intro a b
      rw [Bool.or_eq_true, decide_eq_true_eq, decide_eq_true_eq]
      rcases lt_trichotomy (part a) (part b) with hlt | heq | hgt
      · exact .inl (.inl hlt)
      · rcases htotal a b with hab | hba
        · exact .inl (.inr ⟨heq, hab⟩)
        · exact .inr (.inr ⟨heq.symm, hba⟩)
      · exact .inr (.inl hgt)
  have hfiltered := hmerged.sublist (List.filter_sublist (p := fun row => decide (part row = k)))
  apply hfiltered.imp_of_mem
  intro a b ha hb hle
  have hpart : part a = part b :=
    (of_decide_eq_true (List.mem_filter.mp ha).2).trans (of_decide_eq_true (List.mem_filter.mp hb).2).symm
  rcases of_decide_eq_true hle with hlt | ⟨-, hbefore⟩
  · exact absurd (hpart ▸ hlt) (lt_irrefl _)
  · exact hbefore

theorem filter_orderByPart_perm (rows : List ρ) (k : Int) :
    ((orderByPart part before rows).filter fun row => part row = k).Perm (rows.filter fun row => part row = k) :=
  (List.mergeSort_perm rows _).filter _

/-- The rows of one parent among the first of their partitions are the first of that parent's rows. -/
theorem filter_rowNumber (rows : List ρ) (k : Int) (n : Nat) :
    (rows.filter fun row => (rows.countP fun other => part other = part row ∧ id row < id other) < n).filter
        (fun row => part row = k) =
      (rows.filter fun row => part row = k).filter fun row =>
        ((rows.filter fun row => part row = k).countP fun other => id row < id other) < n := by
  rw [List.filter_filter, List.filter_filter]
  refine List.filter_congr fun row _ => ?_
  by_cases hk : part row = k
  · have hcount : (rows.countP fun other => decide (part other = part row ∧ id row < id other)) =
        ((rows.filter fun row => part row = k).countP fun other => id row < id other) := by
      rw [List.countP_filter]
      refine List.countP_congr fun other _ => ?_
      rw [Bool.and_eq_true, decide_eq_true_eq, decide_eq_true_eq, decide_eq_true_eq, hk]
      exact and_comm
    rw [hcount, Bool.and_comm]
  · rw [decide_eq_false hk, Bool.false_and, Bool.and_false]

/-- An order that differs on different rows puts each parent's rows in it without ties. -/
theorem filter_orderByPart_strict {r : ρ → ρ → Prop}
    (htrans : ∀ a b c, before a b = true → before b c = true → before a c = true)
    (htotal : ∀ a b, before a b = true ∨ before b a = true)
    (hstrict : ∀ a b, before a b = true → id a ≠ id b → r a b) {rows : List ρ} (hdistinct : (rows.map id).Nodup) (k : Int) :
    ((orderByPart part before rows).filter fun row => part row = k).Pairwise r := by
  have hperm := (filter_orderByPart_perm rows k : ((orderByPart part before rows).filter _).Perm _)
  have hnodup := ((hperm.map id).nodup_iff).mpr (hdistinct.sublist (List.filter_sublist.map id))
  rw [List.Nodup, List.pairwise_map] at hnodup
  exact ((filter_orderByPart htrans htotal rows k).and hnodup).imp fun hboth => hstrict _ _ hboth.1 hboth.2

/-- Under `ORDER BY part, id` each parent's rows stand by ascending id. -/
theorem filter_orderByPart_asc {rows : List ρ} (hdistinct : (rows.map id).Nodup) (k : Int) :
    (orderByPart part (fun a b => id a ≤ id b) rows).filter (fun row => part row = k) =
      orderBy id (rows.filter fun row => part row = k) := by
  have hdecreasing : Decreasing id
      ((orderByPart part (fun a b => id a ≤ id b) rows).filter fun row => part row = k).reverse := by
    rw [Decreasing, List.pairwise_reverse]
    refine filter_orderByPart_strict ?_ ?_ ?_ hdistinct k
    · intro a b c hab hbc
      exact decide_eq_true ((of_decide_eq_true hab).trans (of_decide_eq_true hbc))
    · intro a b
      exact (le_total (id a) (id b)).imp decide_eq_true decide_eq_true
    · exact fun a b hle hne => lt_of_le_of_ne (of_decide_eq_true hle) hne
  rw [orderBy_eq hdecreasing ((List.reverse_perm _).trans (filter_orderByPart_perm rows k)), List.reverse_reverse]

/-- Under `ORDER BY part, id DESC` each parent's rows stand by descending id. -/
theorem filter_orderByPart_desc {rows : List ρ} (hdistinct : (rows.map id).Nodup) (k : Int) :
    (orderByPart part (fun a b => id b ≤ id a) rows).filter (fun row => part row = k) =
      orderByDesc id (rows.filter fun row => part row = k) := by
  have hdecreasing : Decreasing id
      ((orderByPart part (fun a b => id b ≤ id a) rows).filter fun row => part row = k) := by
    refine filter_orderByPart_strict ?_ ?_ ?_ hdistinct k
    · intro a b c hab hbc
      exact decide_eq_true ((of_decide_eq_true hbc).trans (of_decide_eq_true hab))
    · intro a b
      exact (le_total (id b) (id a)).imp decide_eq_true decide_eq_true
    · exact fun a b hle hne => lt_of_le_of_ne (of_decide_eq_true hle) (Ne.symm hne)
  rw [orderByDesc_eq hdecreasing (filter_orderByPart_perm rows k)]

end Order

/-! ### Placeholders -/

theorem inPlaceholders_eq (ids : List Int) (more : List Sql.Value) (value : Int) :
    inPlaceholders ids (ids.map .int ++ more) value = decide (value ∈ ids) := by
  have hbound := map_bound [] (ids.map Sql.Value.int) more
  rw [List.length_map, List.length_nil, List.nil_append] at hbound
  have hmap : inPlaceholders ids (ids.map .int ++ more) value =
      ((ids.map Sql.Value.int).map some).any (Sql.compares .eq (some (.int value))) := by
    rw [← hbound, List.any_map]
    rfl
  rw [hmap, List.map_map, List.any_map, Bool.eq_iff_iff, List.any_eq_true, decide_eq_true_eq]
  constructor
  · rintro ⟨id, hid, heq⟩
    have hsame : value = id := of_decide_eq_true heq
    rw [hsame]
    exact hid
  · intro hmem
    exact ⟨value, hmem, decide_eq_true rfl⟩

/-- The rows under the ids, restricted to one parent. -/
theorem filter_parents {ρ : Type} (part : ρ → Int) (rows : List ρ) (ids : List Int) (k : Int) :
    (rows.filter fun row => part row ∈ ids).filter (fun row => part row = k) =
      if k ∈ ids then rows.filter fun row => part row = k else [] := by
  rw [List.filter_filter]
  split
  · rename_i hk
    refine List.filter_congr fun row _ => ?_
    rw [Bool.and_eq_decide, decide_eq_decide]
    constructor
    · exact fun hboth => of_decide_eq_true hboth.1
    · intro heq
      exact ⟨decide_eq_true heq, decide_eq_true (heq ▸ hk)⟩
  · rename_i hk
    rw [List.filter_eq_nil_iff]
    intro row _
    rw [Bool.and_eq_true, decide_eq_true_eq, decide_eq_true_eq]
    rintro ⟨heq, hmem⟩
    exact hk (heq ▸ hmem)

/-! ### The batches -/

variable (db : Db) (ids : List Int)

/-- A map whose rows under each parent of the batch are that parent's. -/
theorem lookup_regroup_eq {τ : Type} {key : τ → Int} {rows expected : List τ} {k : Int}
    (hrows : (rows.filter fun row => key row = k) = if k ∈ ids then expected else []) :
    (regroup key rows).lookup k = if k ∈ ids ∧ expected ≠ [] then some expected else none := by
  rw [lookup_regroup, hrows]
  by_cases hk : k ∈ ids
  · rw [if_pos hk]
    by_cases hnil : expected = []
    · rw [if_pos hnil, if_neg fun hboth => hboth.2 hnil]
    · rw [if_neg hnil, if_pos ⟨hk, hnil⟩]
  · rw [if_neg hk, if_pos rfl, if_neg fun hboth => hk hboth.1]

/-- A statement answers as long as its values can be bound. -/
theorem bind_fetchAll {ρ τ : Type} {engine : Engine} (binds : List Sql.Value) (rows : List ρ) (answer : List ρ → τ) :
    (do let rows ← fetchAll engine binds rows; return answer rows) =
      if binds.length ≤ engine.maxBinds then .ok (answer rows) else .error .unavailable := by
  unfold fetchAll
  split <;> rfl

theorem inPlaceholders_ids (value : Int) : inPlaceholders ids (ids.map .int) value = decide (value ∈ ids) := by
  have heq := inPlaceholders_eq ids [] value
  rw [List.append_nil] at heq
  exact heq

/-- The read of many projects' checks: refused when the ids cannot be bound, else each listed project with a check. -/
theorem listChecksForProjects_spec (engine : Engine) :
    (engine.maxBinds < ids.length ∧ Batched.listChecksForProjects engine db ids = .error .unavailable) ∨
      ids.length ≤ engine.maxBinds ∧ ∃ batch, Batched.listChecksForProjects engine db ids = .ok batch ∧ ∀ k,
        batch.lookup k =
          if k ∈ ids ∧ db.listChecksForProject k ≠ [] then some (db.listChecksForProject k) else none := by
  unfold Batched.listChecksForProjects
  split
  · rename_i hempty
    rw [List.isEmpty_iff.mp hempty]
    exact .inr ⟨Nat.zero_le _, [], rfl, fun k => by rw [if_neg fun hboth => List.not_mem_nil hboth.1]; rfl⟩
  · dsimp only
    rw [bind_fetchAll, List.length_map]
    by_cases hfits : ids.length ≤ engine.maxBinds
    · rw [if_pos hfits]
      refine .inr ⟨hfits, _, rfl, fun k => ?_⟩
      simp only [inPlaceholders_ids]
      apply lookup_regroup_eq ids
      rw [filter_orderByPart_asc (db.checks.nodup.sublist (List.filter_sublist.map _)), filter_parents]
      split
      · rfl
      · exact List.mergeSort_nil
    · rw [if_neg hfits]
      exact .inl ⟨not_le.mp hfits, rfl⟩

/-- The read of many checks' pings: the limit is one more value to bind. -/
theorem listRecentPingSummariesForChecks_spec (engine : Engine) {limit : Int} (hlimit : 0 ≤ limit) :
    (engine.maxBinds ≤ ids.length ∧ Batched.listRecentPingSummariesForChecks engine db ids limit = .error .unavailable) ∨
      ids.length < engine.maxBinds ∧ ∃ batch, Batched.listRecentPingSummariesForChecks engine db ids limit = .ok batch ∧
        ∀ k, batch.lookup k =
          if k ∈ ids ∧ db.listRecentPingSummaries k limit.toNat ≠ [] then
            some (db.listRecentPingSummaries k limit.toNat)
          else none := by
  have hbinds : Sql.bound (ids.map Sql.Value.int ++ [.int limit]) (ids.length + 1) = some (.int limit) := by
    have hbound := bound_append (ids.map Sql.Value.int) (.int limit) []
    rw [List.length_map] at hbound
    exact hbound
  have hnumber (n : Nat) : Sql.compares .le (some (.int (n + 1 : Nat))) (some (.int limit)) = decide (n < limit.toNat) := by
    rw [Sql.compares, Option.any_some, Option.any_some, Sql.Op.holds, Sql.Op.compare, decide_eq_decide]
    omega
  unfold Batched.listRecentPingSummariesForChecks
  split
  · rename_i hempty
    rw [List.isEmpty_iff.mp hempty]
    exact .inr ⟨by cases engine <;> decide, [], rfl, fun k => by rw [if_neg fun hboth => List.not_mem_nil hboth.1]; rfl⟩
  · dsimp only
    rw [bind_fetchAll, List.length_append, List.length_map, List.length_singleton]
    by_cases hfits : ids.length + 1 ≤ engine.maxBinds
    · rw [if_pos hfits]
      refine .inr ⟨hfits, _, rfl, fun k => ?_⟩
      simp only [inPlaceholders_eq, hbinds, rowNumber, hnumber]
      apply lookup_regroup_eq ids
      rw [List.filter_map]
      have hsub := db.pings.nodup.sublist ((List.filter_sublist (p := fun row => decide (row.checkId ∈ ids))).map Ping.id)
      have hdistinct : ((db.pings.rows.filter fun row => row.checkId = k).map Ping.id).Nodup :=
        db.pings.nodup.sublist (List.filter_sublist.map _)
      have hpart : ((fun row : PingSummary => decide (row.checkId = k)) ∘ Ping.summary) =
          fun row => decide (row.checkId = k) := rfl
      rw [hpart, filter_orderByPart_desc (hsub.sublist (List.filter_sublist.map _)), filter_rowNumber, filter_parents]
      split
      · rw [orderByDesc_filter_number hdistinct]
        rfl
      · rw [List.filter_nil]
        exact congrArg (List.map Ping.summary) List.mergeSort_nil
    · rw [if_neg hfits]
      exact .inl ⟨Nat.lt_succ_iff.mp (not_le.mp hfits), rfl⟩

theorem boundChannelIds_ne_nil (k : Int) :
    db.boundChannelIds k ≠ [] ↔ ∃ row ∈ db.checkChannels.rows, row.checkId = k := by
  have hperm : (db.boundChannelIds k).Perm
      ((db.checkChannels.rows.filter fun row => row.checkId = k).map Binding.channelId) := List.mergeSort_perm _ _
  rw [ne_eq, ← List.length_eq_zero_iff, hperm.length_eq, List.length_map, List.length_eq_zero_iff,
    List.filter_eq_nil_iff]
  push Not
  simp only [decide_eq_true_eq]

/-- The checks with a channel: refused when the ids cannot be bound, else the listed ones with a binding. -/
theorem checksWithChannels_spec (engine : Engine) :
    (engine.maxBinds < ids.length ∧ Batched.checksWithChannels engine db ids = .error .unavailable) ∨
      ids.length ≤ engine.maxBinds ∧ ∃ bound, Batched.checksWithChannels engine db ids = .ok bound ∧ ∀ k,
        k ∈ bound ↔ k ∈ ids ∧ db.boundChannelIds k ≠ [] := by
  unfold Batched.checksWithChannels
  split
  · rename_i hempty
    rw [List.isEmpty_iff.mp hempty]
    exact .inr ⟨Nat.zero_le _, [], rfl, fun k => by simp only [List.not_mem_nil, false_and]⟩
  · dsimp only
    rw [fetchAll, List.length_map]
    by_cases hfits : ids.length ≤ engine.maxBinds
    · rw [if_pos hfits]
      refine .inr ⟨hfits, _, rfl, fun k => ?_⟩
      rw [boundChannelIds_ne_nil]
      simp only [inPlaceholders_ids, List.mem_dedup, List.mem_map, List.mem_filter, decide_eq_true_eq]
      constructor
      · rintro ⟨row, ⟨hrow, hk⟩, rfl⟩
        exact ⟨hk, row, hrow, rfl⟩
      · rintro ⟨hk, row, hrow, rfl⟩
        exact ⟨row, ⟨hrow, hk⟩, rfl⟩
    · rw [if_neg hfits]
      exact .inl ⟨not_le.mp hfits, rfl⟩

/-! ### Batches and single reads -/

section Agree

variable (engine : Engine) (limit : Int)

/-- The batch answers, with the newest pings of each listed check and nothing else. -/
def SummariesAgree : Prop :=
  ∃ batch, Batched.listRecentPingSummariesForChecks engine db ids limit = .ok batch ∧
    (∀ id ∈ ids, (batch.lookup id).getD [] = db.listRecentPingSummaries id limit.toNat) ∧
    ∀ id ∉ ids, batch.lookup id = none

/-- The batch answers, with the checks of each listed project and nothing else. -/
def ChecksAgree : Prop :=
  ∃ batch, Batched.listChecksForProjects engine db ids = .ok batch ∧
    (∀ id ∈ ids, (batch.lookup id).getD [] = db.listChecksForProject id) ∧ ∀ id ∉ ids, batch.lookup id = none

/-- The batch answers, with the listed checks that have a channel and nothing else. -/
def ChannelsAgree : Prop :=
  ∃ bound, Batched.checksWithChannels engine db ids = .ok bound ∧
    (∀ id ∈ ids, id ∈ bound ↔ db.boundChannelIds id ≠ []) ∧ ∀ id ∉ ids, id ∉ bound

end Agree

/-- A batch that lists the parents with rows gives each its rows. -/
theorem lookup_agrees {τ : Type} {batch : List (Int × List τ)} {rowsOf : Int → List τ}
    (hlookup : ∀ k, batch.lookup k = if k ∈ ids ∧ rowsOf k ≠ [] then some (rowsOf k) else none) :
    (∀ id ∈ ids, (batch.lookup id).getD [] = rowsOf id) ∧ ∀ id ∉ ids, batch.lookup id = none := by
  constructor
  · intro id hid
    rw [hlookup]
    by_cases hnil : rowsOf id = []
    · rw [if_neg fun hboth => hboth.2 hnil, hnil, Option.getD_none]
    · rw [if_pos ⟨hid, hnil⟩, Option.getD_some]
  · intro id hid
    rw [hlookup, if_neg fun hboth => hid hboth.1]

/-- **Batched reads are the reads of each parent.** A batch answers exactly when its values can be bound in one
statement, and then it holds for an id of the list what the read of that id returns, in its order, and no other id. -/
theorem batched_reads (engine : Engine) {limit : Int} (hlimit : 0 ≤ limit) :
    (SummariesAgree db ids engine limit ↔ ids.length < engine.maxBinds) ∧
      (ChecksAgree db ids engine ↔ ids.length ≤ engine.maxBinds) ∧
      (ChannelsAgree db ids engine ↔ ids.length ≤ engine.maxBinds) := by
  refine ⟨?_, ?_, ?_⟩
  · rcases listRecentPingSummariesForChecks_spec db ids engine hlimit with ⟨hlong, herror⟩ | ⟨hfits, batch, hok, hlookup⟩
    · refine iff_of_false ?_ (not_lt.mpr hlong)
      rintro ⟨batch, hbatch, -⟩
      rw [herror] at hbatch
      cases hbatch
    · exact iff_of_true ⟨batch, hok, lookup_agrees ids hlookup⟩ hfits
  · rcases listChecksForProjects_spec db ids engine with ⟨hlong, herror⟩ | ⟨hfits, batch, hok, hlookup⟩
    · refine iff_of_false ?_ (not_le.mpr hlong)
      rintro ⟨batch, hbatch, -⟩
      rw [herror] at hbatch
      cases hbatch
    · exact iff_of_true ⟨batch, hok, lookup_agrees ids hlookup⟩ hfits
  · rcases checksWithChannels_spec db ids engine with ⟨hlong, herror⟩ | ⟨hfits, bound, hok, hmem⟩
    · refine iff_of_false ?_ (not_le.mpr hlong)
      rintro ⟨bound, hbound, -⟩
      rw [herror] at hbound
      cases hbound
    · refine iff_of_true ⟨bound, hok, ?_, ?_⟩ hfits
      · intro id hid
        rw [hmem, and_iff_right hid]
      · intro id hid
        rw [hmem]
        exact fun hboth => hid hboth.1

theorem batched_reads_backup :
    (SummariesAgree Db.backup [1, 1, 9] .sqlite 1 ↔ 3 < 32766) ∧ (ChecksAgree Db.backup [1, 1, 9] .sqlite ↔ 3 ≤ 32766) ∧
      (ChannelsAgree Db.backup [1, 1, 9] .sqlite ↔ 3 ≤ 32766) :=
  batched_reads Db.backup [1, 1, 9] .sqlite (by decide)

/-- As many ids as SQLite binds values leave no place for the limit. -/
theorem batched_reads_refused :
    ¬∀ (db : Db) (ids : List Int) (engine : Engine) (limit : Int), 0 ≤ limit →
      SummariesAgree db ids engine limit ∧ ChecksAgree db ids engine ∧ ChannelsAgree db ids engine := by
  intro hall
  obtain ⟨⟨batch, hbatch, -⟩, -⟩ := hall Db.backup (List.replicate 32766 1) .sqlite 40 (by decide)
  rcases listRecentPingSummariesForChecks_spec Db.backup (List.replicate 32766 1) .sqlite
      (by decide : (0 : Int) ≤ 40) with ⟨-, herror⟩ | ⟨hfits, -⟩
  · rw [herror] at hbatch
    cases hbatch
  · rw [List.length_replicate] at hfits
    exact absurd hfits (by decide)

/-! ### The batches of the store calls -/

theorem lookup_groupRows {ρ : Type} (rowsOf : Int → List ρ) (k : Int) :
    (groupRows ids rowsOf).lookup k = if k ∈ ids ∧ rowsOf k ≠ [] then some (rowsOf k) else none := by
  have hlist (list : List Int) :
      (list.filterMap fun id => if (rowsOf id).isEmpty then none else some (id, rowsOf id)).lookup k =
        if k ∈ list ∧ rowsOf k ≠ [] then some (rowsOf k) else none := by
    induction list with
    | nil => rw [if_neg fun hboth => List.not_mem_nil hboth.1, List.filterMap_nil, List.lookup_nil]
    | cons id rest ih =>
        rw [List.filterMap_cons]
        by_cases hnil : rowsOf id = []
        · rw [if_pos (List.isEmpty_iff.mpr hnil)]
          have hsame : k ∈ id :: rest ∧ rowsOf k ≠ [] ↔ k ∈ rest ∧ rowsOf k ≠ [] := by
            rw [List.mem_cons]
            constructor
            · rintro ⟨rfl | hmem, hne⟩
              · exact absurd hnil hne
              · exact ⟨hmem, hne⟩
            · exact fun hboth => ⟨.inr hboth.1, hboth.2⟩
          simp only [hsame]
          exact ih
        · rw [if_neg fun hempty => hnil (List.isEmpty_iff.mp hempty)]
          dsimp only
          rw [lookup_entry]
          by_cases hk : k = id
          · rw [if_pos hk, if_pos ⟨hk ▸ List.mem_cons_self, hk ▸ hnil⟩, hk]
          · rw [if_neg hk, ih]
            simp only [List.mem_cons, hk, false_or]
  rw [groupRows, hlist]
  simp only [List.mem_dedup]

/-- The store calls of the handlers answer with these batches, when the engine takes them. -/
theorem batched_calls (engine : Engine) {limit : Int} (hlimit : 0 ≤ limit) :
    (∀ batch, Batched.listChecksForProjects engine db ids = .ok batch →
        ∀ k, (groupRows ids db.listChecksForProject).lookup k = batch.lookup k) ∧
      (∀ batch, Batched.listRecentPingSummariesForChecks engine db ids limit = .ok batch →
        ∀ k, (groupRows ids fun id => db.listRecentPingSummaries id limit.toNat).lookup k = batch.lookup k) ∧
      ∀ bound, Batched.checksWithChannels engine db ids = .ok bound → ∀ k, k ∈ db.checksWithChannels ids ↔ k ∈ bound := by
  refine ⟨?_, ?_, ?_⟩
  · intro batch hbatch k
    rcases listChecksForProjects_spec db ids engine with ⟨-, herror⟩ | ⟨-, answer, hok, hlookup⟩
    · rw [herror] at hbatch
      cases hbatch
    · rw [hok, Except.ok.injEq] at hbatch
      rw [lookup_groupRows, ← hbatch, hlookup]
  · intro batch hbatch k
    rcases listRecentPingSummariesForChecks_spec db ids engine hlimit with ⟨-, herror⟩ | ⟨-, answer, hok, hlookup⟩
    · rw [herror] at hbatch
      cases hbatch
    · rw [hok, Except.ok.injEq] at hbatch
      rw [lookup_groupRows, ← hbatch, hlookup]
  · intro bound hbound k
    rcases checksWithChannels_spec db ids engine with ⟨-, herror⟩ | ⟨-, answer, hok, hmem⟩
    · rw [herror] at hbound
      cases hbound
    · rw [hok, Except.ok.injEq] at hbound
      rw [← hbound, hmem, boundChannelIds_ne_nil, Db.checksWithChannels, List.mem_dedup, List.mem_filter,
        List.contains_iff_mem, List.mem_map, and_comm]

end Pingward
