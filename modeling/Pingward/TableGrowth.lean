import Pingward.TableBasic

/-! Tables that only grow: a state of a numbered table that came from another by inserting and deleting, never by changing
a row. The rows still there keep their order, and the new ones come behind them with keys that were not given out
before. -/

namespace KeyedTable

namespace AutoTable

variable {ρ : Type} {key : ρ → Int} {lost lost' : ρ → Prop} {before after last : AutoTable ρ key}

/-- The key was given out, and its row is gone. -/
structure Retired (table : AutoTable ρ key) (k : Int) : Prop where
  issued : k < table.next
  gone : table.find k = none

/-- A key that is gone does not come back. -/
theorem Retired.later {γ : Type} {col : ρ → γ} {k : Int} (hretired : before.Retired k) (hlater : Later col before after) :
    after.Retired k := by
  refine ⟨Int.lt_of_lt_of_le hretired.issued hlater.next, ?_⟩
  cases hfind : after.find k with
  | none => rfl
  | some row =>
      obtain ⟨old, hold, -⟩ := hlater.kept k row hretired.issued hfind
      rw [hretired.gone] at hold
      cases hold

theorem retired_deleteWhere (table : AutoTable ρ key) {p : ρ → Bool} {row : ρ} (hrow : row ∈ table.rows)
    (hp : p row = true) : (table.deleteWhere p).Retired (key row) := by
  refine ⟨table.below row hrow, ?_⟩
  have hfind : table.find (key row) = some row := table.find_eq_some_iff.mpr ⟨hrow, rfl⟩
  rw [deleteWhere_toTable, Table.find_deleteWhere, hfind]
  simp [hp]

/-- What came of a table by inserting and deleting: a row is gone only if it is `lost`. -/
structure Grown (lost : ρ → Prop) (before after : AutoTable ρ key) : Prop where
  next : before.next ≤ after.next
  rows : ∃ kept new, after.rows = kept ++ new ∧ kept.Sublist before.rows ∧
    (∀ row ∈ before.rows, ¬ lost row → row ∈ kept) ∧ ∀ row ∈ new, before.next ≤ key row

namespace Grown

theorem refl (lost : ρ → Prop) (table : AutoTable ρ key) : Grown lost table table :=
  ⟨Int.le_refl _, table.rows, [], (List.append_nil _).symm, .refl _, fun _ hrow _ => hrow, by simp⟩

theorem of_eq (lost : ρ → Prop) (hsame : after = before) : Grown lost before after := hsame ▸ refl lost before

theorem mono (hgrown : Grown lost before after) (hlost : ∀ row, lost row → lost' row) : Grown lost' before after := by
  obtain ⟨kept, new, hrows, hsub, hkept, hnew⟩ := hgrown.rows
  refine ⟨hgrown.next, kept, new, hrows, hsub, fun row hrow hnot => ?_, hnew⟩
  exact hkept row hrow fun hgone => hnot (hlost row hgone)

theorem trans (hfirst : Grown lost before after) (hsecond : Grown lost after last) : Grown lost before last := by
  obtain ⟨kept, new, hrows, hsub, hkept, hnew⟩ := hfirst.rows
  obtain ⟨kept', new', hrows', hsub', hkept', hnew'⟩ := hsecond.rows
  rw [hrows] at hsub'
  obtain ⟨old, fresh, rfl, hold, hfresh⟩ := List.sublist_append_iff.mp hsub'
  refine ⟨Int.le_trans hfirst.next hsecond.next, old, fresh ++ new', ?_, hold.trans hsub, ?_, ?_⟩
  · rw [hrows', List.append_assoc]
  · intro row hrow hnot
    have hafter : row ∈ after.rows := by
      rw [hrows]
      exact List.mem_append_left _ (hkept row hrow hnot)
    rcases List.mem_append.mp (hkept' row hafter hnot) with hin | hin
    · exact hin
    · -- a new row has a new key
      have hlow := hnew row (hfresh.subset hin)
      have hhigh := before.below row hrow
      omega
  · intro row hrow
    rcases List.mem_append.mp hrow with hin | hin
    · exact hnew row (hfresh.subset hin)
    · exact Int.le_trans hfirst.next (hnew' row hin)

theorem insert (lost : ρ → Prop) (table : AutoTable ρ key) (make : Int → ρ) (hkey : ∀ i, key (make i) = i) :
    Grown lost table (table.insert make hkey) := by
  refine ⟨Int.le_of_lt (Int.lt_succ _), table.rows, [make table.next], rfl, .refl _, fun _ hrow _ => hrow, ?_⟩
  intro row hrow
  exact Int.le_of_eq (by rw [List.mem_singleton.mp hrow, hkey])

theorem deleteWhere (table : AutoTable ρ key) {p : ρ → Bool} (hlost : ∀ row ∈ table.rows, p row = true → lost row) :
    Grown lost table (table.deleteWhere p) := by
  refine ⟨Int.le_refl _, (table.deleteWhere p).rows, [], (List.append_nil _).symm, List.filter_sublist, ?_, by simp⟩
  intro row hrow hnot
  have hkeep : p row = false := (Bool.not_eq_true _).mp fun hp => hnot (hlost row hrow hp)
  exact List.mem_filter.mpr ⟨hrow, by rw [hkeep]; rfl⟩

end Grown

end AutoTable

end KeyedTable
