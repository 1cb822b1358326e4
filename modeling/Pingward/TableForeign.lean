import Pingward.TableBasic

/-! Foreign keys and unique columns of tables. A column refers to a table when each of its values is a key there; a delete
in the table has to take the rows with it that refer to what is deleted. -/

namespace KeyedTable

variable {κ ρ σ γ : Type} {key : ρ → κ}

/-- The keys in use. -/
def Table.keys (table : Table κ ρ key) : List κ := table.rows.map key

/-- Each row's column is one of the keys. -/
def Refers (col : σ → κ) (rows : List σ) (keys : List κ) : Prop := ∀ row ∈ rows, col row ∈ keys

/-- No two rows have the same value in the column. -/
def Distinct (col : σ → γ) (rows : List σ) : Prop := (rows.map col).Nodup

namespace Table

/-- A key that is looked up and found. -/
theorem mem_keys [DecidableEq κ] {table : Table κ ρ key} {k : κ} (hfound : ¬ (table.find k).isNone = true) :
    k ∈ table.keys := by
  cases hfind : table.find k with
  | none =>
      rw [hfind] at hfound
      exact absurd rfl hfound
  | some row => exact List.mem_map.mpr ⟨row, find_mem table hfind, find_key table hfind⟩

/-- Whether a row of the key is selected. -/
theorem any_key [DecidableEq κ] (table : Table κ ρ key) (p : ρ → Bool) (k : κ) :
    (table.rows.any fun row => p row ∧ key row = k) = (table.find k).any p := by
  rw [Bool.eq_iff_iff, List.any_eq_true, Option.any_eq_true]
  constructor
  · rintro ⟨row, hrow, hboth⟩
    obtain ⟨hp, hkey⟩ := decide_eq_true_iff.mp hboth
    exact ⟨row, table.find_eq_some_iff.mpr ⟨hrow, hkey⟩, hp⟩
  · rintro ⟨row, hfind, hp⟩
    exact ⟨row, find_mem table hfind, decide_eq_true ⟨hp, find_key table hfind⟩⟩

section Update

variable (table : Table κ ρ key) (p : ρ → Bool) {f : ρ → ρ} (hkey : ∀ row, key (f row) = key row)

/-- A column that an update does not write. -/
theorem map_updateWhere {col : ρ → γ} (hcol : ∀ row, col (f row) = col row) :
    (table.updateWhere p f hkey).rows.map col = table.rows.map col := by
  rw [updateWhere_rows, List.map_map]
  apply List.map_congr_left
  intro row _
  simp only [Function.comp_apply]
  split
  · exact hcol row
  · rfl

theorem keys_updateWhere : table.keys ⊆ (table.updateWhere p f hkey).keys := by
  intro k hk
  rw [keys, map_updateWhere table p hkey hkey]
  exact hk

end Update

end Table

theorem AutoTable.keys_insert {key : ρ → Int} (table : AutoTable ρ key) (make : Int → ρ) (hkey : ∀ i, key (make i) = i) :
    table.keys ⊆ (table.insert make hkey).keys := by
  intro k hk
  rw [Table.keys, insert_rows, List.map_append]
  exact List.mem_append_left _ hk

namespace Refers

variable {col : σ → κ} {rows rows' : List σ} {keys keys' : List κ}

theorem nil (col : σ → κ) (keys : List κ) : Refers col [] keys := by
  intro row hrow
  cases hrow

theorem mono (hrefers : Refers col rows keys) (hkeys : keys ⊆ keys') : Refers col rows keys' :=
  fun row hrow => hkeys (hrefers row hrow)

theorem sublist (hrefers : Refers col rows keys) (hrows : rows'.Sublist rows) : Refers col rows' keys :=
  fun row hrow => hrefers row (hrows.subset hrow)

theorem concat (hrefers : Refers col rows keys) {row : σ} (hrow : col row ∈ keys) : Refers col (rows ++ [row]) keys := by
  intro other hother
  rcases List.mem_append.mp hother with hold | hnew
  · exact hrefers other hold
  · exact List.mem_singleton.mp hnew ▸ hrow

/-- Rows with the same column refer alike. -/
theorem congr (hrefers : Refers col rows keys) (hsame : rows'.map col = rows.map col) : Refers col rows' keys := by
  intro row hrow
  have hin : col row ∈ rows.map col := hsame ▸ List.mem_map_of_mem hrow
  obtain ⟨old, hold, heq⟩ := List.mem_map.mp hin
  exact heq ▸ hrefers old hold

/-- The cascade: what refers to a deleted row goes with it. -/
theorem cascade {table : Table κ ρ key} (hrefers : Refers col rows table.keys) {p : ρ → Bool} (gone : κ → Bool)
    (hgone : ∀ row ∈ table.rows, p row = true → gone (key row) = true) :
    Refers col (rows.filter fun row => !gone (col row)) (table.deleteWhere p).keys := by
  intro row hrow
  obtain ⟨hin, hleft⟩ := List.mem_filter.mp hrow
  obtain ⟨parent, hparent, heq⟩ := List.mem_map.mp (hrefers row hin)
  refine heq ▸ List.mem_map_of_mem (List.mem_filter.mpr ⟨hparent, ?_⟩)
  cases hp : p parent with
  | false => rfl
  | true =>
      rw [← heq, hgone parent hparent hp] at hleft
      cases hleft

end Refers

namespace Distinct

variable {col : σ → γ} {rows rows' : List σ}

theorem nil (col : σ → γ) : Distinct col [] := List.nodup_nil

theorem sublist (hdistinct : Distinct col rows) (hrows : rows'.Sublist rows) : Distinct col rows' :=
  List.Nodup.sublist (hrows.map col) hdistinct

theorem congr (hdistinct : Distinct col rows) (hsame : rows'.map col = rows.map col) : Distinct col rows' := by
  unfold Distinct
  rw [hsame]
  exact hdistinct

theorem concat (hdistinct : Distinct col rows) {row : σ} (hfresh : ∀ other ∈ rows, col other ≠ col row) :
    Distinct col (rows ++ [row]) := by
  unfold Distinct
  rw [List.map_append, List.nodup_append]
  refine ⟨hdistinct, List.nodup_singleton _, ?_⟩
  intro value hvalue other hother heq
  obtain ⟨old, hold, rfl⟩ := List.mem_map.mp hvalue
  exact hfresh old hold (heq.trans (List.mem_singleton.mp hother))

/-- One row is given a value that no other has. -/
theorem update [DecidableEq κ] {col : ρ → γ} {table : Table κ ρ key} (hdistinct : Distinct col table.rows) {k : κ} {f : ρ → ρ}
    (hkey : ∀ row, key (f row) = key row) (hfresh : ∀ row ∈ table.rows, ∀ other ∈ table.rows, key row = k → key other ≠ k →
      col other ≠ col (f row)) : Distinct col (table.update k f hkey).rows := by
  unfold Distinct at hdistinct ⊢
  rw [Table.update_rows, List.map_map, List.nodup_map_iff_inj_on (table.nodup.of_map key)]
  intro row hrow other hother heq
  simp only [Function.comp_apply] at heq
  have hinj : ∀ row ∈ table.rows, ∀ other ∈ table.rows, col row = col other → row = other :=
    fun row hrow other hother => (List.nodup_map_iff_inj_on (table.nodup.of_map key)).mp hdistinct row hrow other hother
  split at heq
  · rename_i hk
    split at heq
    · rename_i hk'
      exact table.key_inj hrow hother (hk.trans hk'.symm)
    · rename_i hk'
      exact absurd heq.symm (hfresh row hrow other hother hk hk')
  · rename_i hk
    split at heq
    · rename_i hk'
      exact absurd heq (hfresh other hother row hrow hk' hk)
    · exact hinj row hrow other hother heq

end Distinct

end KeyedTable
