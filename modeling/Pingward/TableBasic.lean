import Mathlib.Data.List.Basic
import Mathlib.Data.List.Nodup

/-! Tables of rows with a primary key, as a relational store keeps them: no two rows share a key. An
`AutoTable` hands out its own integer keys, each above every key it has ever held. The operations are
the shapes of a plain SQL statement, with the lemmas on what a lookup sees after each of them. -/

namespace KeyedTable

/-- Rows in insertion order, no two with the same key. -/
structure Table (κ ρ : Type) (key : ρ → κ) where
  rows : List ρ
  nodup : (rows.map key).Nodup

namespace Table

variable {κ ρ : Type} {key : ρ → κ}

def empty : Table κ ρ key := ⟨[], List.nodup_nil⟩

/-- `SELECT * FROM t WHERE key = k`. -/
def find [DecidableEq κ] (table : Table κ ρ key) (k : κ) : Option ρ :=
  table.rows.find? fun row => key row = k

/-- `UPDATE t SET .. WHERE p`, the key column left alone. -/
def updateWhere (table : Table κ ρ key) (p : ρ → Bool) (f : ρ → ρ)
    (hkey : ∀ row, key (f row) = key row) : Table κ ρ key where
  rows := table.rows.map fun row => if p row then f row else row
  nodup := by
    have hmap : (table.rows.map fun row => if p row then f row else row).map key =
        table.rows.map key := by
      rw [List.map_map]
      apply List.map_congr_left
      intro row _
      simp only [Function.comp_apply]
      split
      · exact hkey row
      · rfl
    rw [hmap]
    exact table.nodup

/-- `UPDATE t SET .. WHERE key = k`. -/
def update [DecidableEq κ] (table : Table κ ρ key) (k : κ) (f : ρ → ρ)
    (hkey : ∀ row, key (f row) = key row) : Table κ ρ key :=
  table.updateWhere (fun row => key row = k) f hkey

/-- `DELETE FROM t WHERE p`. -/
def deleteWhere (table : Table κ ρ key) (p : ρ → Bool) : Table κ ρ key where
  rows := table.rows.filter fun row => !p row
  nodup := table.nodup.sublist (List.filter_sublist.map key)

/-- `INSERT INTO t`, refused when the key is taken. -/
def insert [DecidableEq κ] (table : Table κ ρ key) (row : ρ) : Option (Table κ ρ key) :=
  if hfresh : key row ∈ table.rows.map key then none
  else some
    { rows := table.rows ++ [row]
      nodup := by
        rw [List.map_append, List.nodup_append]
        refine ⟨table.nodup, List.nodup_singleton _, ?_⟩
        intro a ha b hb heq
        rw [List.map_singleton, List.mem_singleton] at hb
        exact hfresh (hb ▸ heq ▸ ha) }

/-- A table is its rows. -/
theorem eq_of_rows {table table' : Table κ ρ key} (hrows : table.rows = table'.rows) : table = table' := by
  cases table
  cases table'
  cases hrows
  rfl

variable (table : Table κ ρ key)

theorem key_inj {row other : ρ} (hrow : row ∈ table.rows) (hother : other ∈ table.rows)
    (hkey : key row = key other) : row = other :=
  List.inj_on_of_nodup_map table.nodup hrow hother hkey

@[simp] theorem updateWhere_rows (p : ρ → Bool) (f : ρ → ρ) (hkey : ∀ row, key (f row) = key row) :
    (table.updateWhere p f hkey).rows = table.rows.map fun row => if p row then f row else row := rfl

@[simp] theorem deleteWhere_rows (p : ρ → Bool) :
    (table.deleteWhere p).rows = table.rows.filter fun row => !p row := rfl

section Find

variable [DecidableEq κ]

@[simp] theorem update_rows (k : κ) (f : ρ → ρ) (hkey : ∀ row, key (f row) = key row) :
    (table.update k f hkey).rows =
      table.rows.map fun row => if key row = k then f row else row := by
  simp only [update, updateWhere_rows, decide_eq_true_eq]

theorem find_eq_some_iff {k : κ} {row : ρ} :
    table.find k = some row ↔ row ∈ table.rows ∧ key row = k := by
  constructor
  · intro hfind
    exact ⟨List.mem_of_find?_eq_some hfind, by simpa using List.find?_some hfind⟩
  · rintro ⟨hmem, rfl⟩
    cases hfound : table.find (key row) with
    | none =>
        have hnone := List.find?_eq_none.mp hfound row hmem
        simp at hnone
    | some other =>
        have hother := List.mem_of_find?_eq_some hfound
        have hkey : key other = key row := by simpa using List.find?_some hfound
        rw [table.key_inj hother hmem hkey]

theorem find_eq_none_iff {k : κ} : table.find k = none ↔ ∀ row ∈ table.rows, key row ≠ k := by
  simp [find]

theorem find_mem {k : κ} {row : ρ} (hfind : table.find k = some row) : row ∈ table.rows :=
  (table.find_eq_some_iff.mp hfind).1

theorem find_key {k : κ} {row : ρ} (hfind : table.find k = some row) : key row = k :=
  (table.find_eq_some_iff.mp hfind).2

/-- The rows with a key are the row found under it. -/
theorem filter_key (k : κ) : table.rows.filter (fun row => key row = k) = (table.find k).toList := by
  have hnodup := table.nodup
  unfold find
  generalize table.rows = rows at hnodup
  induction rows with
  | nil => rfl
  | cons row rest ih =>
      rw [List.map_cons, List.nodup_cons] at hnodup
      by_cases hrow : key row = k
      · have hnone : rest.filter (fun other => key other = k) = [] := by
          rw [List.filter_eq_nil_iff]
          intro other hother hkey
          exact hnodup.1 (List.mem_map.mpr ⟨other, hother, by simpa [hrow] using hkey⟩)
        simp [hrow, hnone]
      · simpa [hrow] using ih hnodup.2

/-- An update is seen by the lookups of the rows it selects and by no other. -/
theorem find_updateWhere (p : ρ → Bool) (f : ρ → ρ) (hkey : ∀ row, key (f row) = key row) (k : κ) :
    (table.updateWhere p f hkey).find k =
      (table.find k).map fun row => if p row then f row else row := by
  have hpred : ((fun row => decide (key row = k)) ∘ fun row => if p row then f row else row) =
      fun row => decide (key row = k) := by
    funext row
    simp only [Function.comp_apply]
    split
    · rw [hkey]
    · rfl
  simp only [find, updateWhere_rows, List.find?_map, hpred]

theorem find_update_self (k : κ) (f : ρ → ρ) (hkey : ∀ row, key (f row) = key row) :
    (table.update k f hkey).find k = (table.find k).map f := by
  rw [update, find_updateWhere]
  cases hfind : table.find k with
  | none => rfl
  | some row => simp [table.find_key hfind]

theorem find_update_of_ne {k k' : κ} (hne : k' ≠ k) (f : ρ → ρ)
    (hkey : ∀ row, key (f row) = key row) : (table.update k f hkey).find k' = table.find k' := by
  rw [update, find_updateWhere]
  cases hfind : table.find k' with
  | none => rfl
  | some row => simp [table.find_key hfind, hne]

theorem find_deleteWhere (p : ρ → Bool) (k : κ) :
    (table.deleteWhere p).find k = (table.find k).filter fun row => !p row := by
  cases hfind : table.find k with
  | none =>
      rw [find_eq_none_iff] at hfind
      rw [Option.filter_none, find_eq_none_iff]
      intro row hrow
      exact hfind row (List.mem_of_mem_filter hrow)
  | some row =>
      obtain ⟨hmem, hrow⟩ := table.find_eq_some_iff.mp hfind
      cases hp : p row with
      | true =>
          simp only [Option.filter_some, hp, Bool.not_true, Bool.false_eq_true, if_false]
          rw [find_eq_none_iff]
          intro other hother hkey
          have hin := List.mem_filter.mp hother
          have heq := table.key_inj hin.1 hmem (hkey.trans hrow.symm)
          rw [heq, hp] at hin
          simp at hin
      | false =>
          simp only [Option.filter_some, hp, Bool.not_false, if_true]
          exact (find_eq_some_iff _).mpr ⟨List.mem_filter.mpr ⟨hmem, by simp [hp]⟩, hrow⟩

theorem find_congr {table table' : Table κ ρ key} (hrows : table.rows = table'.rows) (k : κ) :
    table.find k = table'.find k := by rw [eq_of_rows hrows]

/-- An update leaves the rows as they are when it writes back what it finds. -/
theorem update_rows_eq_iff (k : κ) (f : ρ → ρ) (hkey : ∀ row, key (f row) = key row) :
    (table.update k f hkey).rows = table.rows ↔ ∀ row, table.find k = some row → f row = row := by
  constructor
  · intro hrows row hfind
    have hself := table.find_update_self k f hkey
    rw [find_congr hrows, hfind, Option.map_some, Option.some.injEq] at hself
    exact hself.symm
  · intro hsame
    rw [update_rows]
    refine (List.map_congr_left fun row hrow => ?_).trans (List.map_id _)
    by_cases hk : key row = k
    · rw [if_pos hk, id, hsame row (table.find_eq_some_iff.mpr ⟨hrow, hk⟩)]
    · rw [if_neg hk, id]

/-- An accepted insert adds its row and nothing else. -/
theorem insert_rows {row : ρ} {table' : Table κ ρ key} (hinsert : table.insert row = some table') :
    table'.rows = table.rows ++ [row] := by
  unfold insert at hinsert
  split at hinsert
  · cases hinsert
  · rw [Option.some.injEq] at hinsert
    rw [← hinsert]

/-- An insert is refused exactly when its key is taken. -/
theorem insert_eq_none_iff {row : ρ} : table.insert row = none ↔ (table.find (key row)).isSome = true := by
  have hmem : key row ∈ table.rows.map key ↔ (table.find (key row)).isSome = true := by
    rw [List.mem_map, find, List.find?_isSome]
    simp only [decide_eq_true_eq]
  rw [← hmem]
  unfold insert
  split
  · rename_i htaken
    exact iff_of_true rfl htaken
  · rename_i hfree
    exact iff_of_false (by simp) hfree

/-- The key of an accepted insert was free. -/
theorem find_of_insert {row : ρ} {table' : Table κ ρ key} (hinsert : table.insert row = some table') :
    table.find (key row) = none := by
  rw [← Option.not_isSome_iff_eq_none, ← insert_eq_none_iff, hinsert]
  simp

/-- The new row is seen by the lookup of its key and by no other. -/
theorem find_insert {row : ρ} {table' : Table κ ρ key} (hinsert : table.insert row = some table') (k : κ) :
    table'.find k = if key row = k then some row else table.find k := by
  have hfresh := table.find_of_insert hinsert
  rw [find, table.insert_rows hinsert, List.find?_append]
  by_cases hk : key row = k
  · subst hk
    rw [show table.rows.find? (fun other => key other = key row) = none from hfresh]
    simp
  · rw [if_neg hk]
    simp [hk, find]

end Find

/-! ### Rows a predicate does not select

A statement that touches only rows outside `p` is seen neither by a scan for `p` nor by a lookup that
tests `p`. -/

section Unselected

variable {p : ρ → Bool}

theorem filter_deleteWhere {q : ρ → Bool} (hpq : ∀ row ∈ table.rows, q row = true → p row = false) :
    (table.deleteWhere q).rows.filter p = table.rows.filter p := by
  rw [deleteWhere_rows, List.filter_filter]
  apply List.filter_congr
  intro row hrow
  cases hq : q row with
  | false => simp
  | true => simp [hpq row hrow hq]

theorem filter_updateWhere {q : ρ → Bool} {f : ρ → ρ} (hkey : ∀ row, key (f row) = key row)
    (hrow : ∀ row ∈ table.rows, q row = true → p row = false ∧ p (f row) = false) :
    (table.updateWhere q f hkey).rows.filter p = table.rows.filter p := by
  rw [updateWhere_rows]
  generalize table.rows = rows at hrow
  induction rows with
  | nil => rfl
  | cons row rest ih =>
      have hrest := ih fun other hother => hrow other (List.mem_cons_of_mem _ hother)
      cases hq : q row with
      | false => simp only [List.map_cons, hq, Bool.false_eq_true, if_false, List.filter_cons, hrest]
      | true =>
          obtain ⟨hold, hnew⟩ := hrow row (List.mem_cons_self ..) hq
          simp only [List.map_cons, hq, if_true, List.filter_cons, hold, hnew, Bool.false_eq_true, if_false, hrest]

variable [DecidableEq κ]

theorem any_find_deleteWhere {q : ρ → Bool} (hpq : ∀ row ∈ table.rows, q row = true → p row = false) (k : κ) :
    ((table.deleteWhere q).find k).any p = (table.find k).any p := by
  rw [find_deleteWhere]
  cases hfind : table.find k with
  | none => rfl
  | some row =>
      cases hq : q row with
      | false => simp [Option.filter_some, hq]
      | true => simp [Option.filter_some, hq, hpq row (table.find_mem hfind) hq]

theorem any_find_updateWhere {q : ρ → Bool} {f : ρ → ρ} (hkey : ∀ row, key (f row) = key row)
    (hf : ∀ row, p (f row) = p row) (k : κ) : ((table.updateWhere q f hkey).find k).any p = (table.find k).any p := by
  have hp : (fun row => p (if q row then f row else row)) = p := by
    funext row
    split
    · exact hf row
    · rfl
  rw [find_updateWhere, Option.any_map]
  exact congrArg (fun test => Option.any test (table.find k)) hp

theorem filter_insert {row : ρ} {table' : Table κ ρ key} (hinsert : table.insert row = some table')
    (hnew : p row = false) : table'.rows.filter p = table.rows.filter p := by
  rw [table.insert_rows hinsert, List.filter_append, List.filter_cons, hnew]
  simp

end Unselected

end Table

/-- A table that numbers its rows: `next` is above every key. -/
structure AutoTable (ρ : Type) (key : ρ → Int) extends Table Int ρ key where
  next : Int
  below : ∀ row ∈ rows, key row < next

namespace AutoTable

variable {ρ : Type} {key : ρ → Int}

def empty : AutoTable ρ key := ⟨Table.empty, 1, by intro row hrow; cases hrow⟩

/-- `INSERT INTO t .. RETURNING id`: the row gets the next key. -/
def insert (table : AutoTable ρ key) (make : Int → ρ) (hkey : ∀ i, key (make i) = i) :
    AutoTable ρ key where
  rows := table.rows ++ [make table.next]
  nodup := by
    rw [List.map_append, List.nodup_append]
    refine ⟨table.nodup, List.nodup_singleton _, ?_⟩
    intro a ha b hb heq
    obtain ⟨row, hrow, rfl⟩ := List.mem_map.mp ha
    rw [List.map_singleton, List.mem_singleton, hkey] at hb
    have hlt := table.below row hrow
    omega
  next := table.next + 1
  below := by
    intro row hrow
    rcases List.mem_append.mp hrow with hold | hnew
    · have hlt := table.below row hold
      omega
    · rw [List.mem_singleton.mp hnew, hkey]
      omega

def updateWhere (table : AutoTable ρ key) (p : ρ → Bool) (f : ρ → ρ)
    (hkey : ∀ row, key (f row) = key row) : AutoTable ρ key where
  toTable := table.toTable.updateWhere p f hkey
  next := table.next
  below := by
    intro row hrow
    obtain ⟨old, hold, rfl⟩ := List.mem_map.mp hrow
    have hlt := table.below old hold
    split
    · rw [hkey]
      exact hlt
    · exact hlt

def update (table : AutoTable ρ key) (k : Int) (f : ρ → ρ) (hkey : ∀ row, key (f row) = key row) :
    AutoTable ρ key :=
  table.updateWhere (fun row => key row = k) f hkey

def deleteWhere (table : AutoTable ρ key) (p : ρ → Bool) : AutoTable ρ key where
  toTable := table.toTable.deleteWhere p
  next := table.next
  below := fun row hrow => table.below row (List.mem_of_mem_filter hrow)

variable (table : AutoTable ρ key)

@[simp] theorem updateWhere_toTable (p : ρ → Bool) (f : ρ → ρ)
    (hkey : ∀ row, key (f row) = key row) :
    (table.updateWhere p f hkey).toTable = table.toTable.updateWhere p f hkey := rfl

@[simp] theorem update_toTable (k : Int) (f : ρ → ρ) (hkey : ∀ row, key (f row) = key row) :
    (table.update k f hkey).toTable = table.toTable.update k f hkey := rfl

@[simp] theorem deleteWhere_toTable (p : ρ → Bool) :
    (table.deleteWhere p).toTable = table.toTable.deleteWhere p := rfl

/-- Two updates of one row are one. -/
theorem update_update (k : Int) (f g : ρ → ρ) (hf : ∀ row, key (f row) = key row)
    (hg : ∀ row, key (g row) = key row) :
    (table.update k f hf).update k g hg =
      table.update k (fun row => g (f row)) fun row => (hg (f row)).trans (hf row) := by
  have hrows : ((table.update k f hf).update k g hg).rows =
      (table.update k (fun row => g (f row)) fun row => (hg (f row)).trans (hf row)).rows := by
    simp only [update_toTable, Table.update_rows, List.map_map]
    apply List.map_congr_left
    intro row _
    simp only [Function.comp_apply]
    by_cases hrow : key row = k
    · rw [if_pos hrow, if_pos ((hf row).trans hrow), if_pos hrow]
    · rw [if_neg hrow, if_neg hrow, if_neg hrow]
  simp only [update, updateWhere, Table.updateWhere] at hrows ⊢
  congr 2

/-- An update that changes nothing. -/
theorem update_id (k : Int) (hkey : ∀ row, key row = key row) : table.update k (fun row => row) hkey = table := by
  unfold update updateWhere Table.updateWhere
  simp

@[simp] theorem insert_rows (make : Int → ρ) (hkey : ∀ i, key (make i) = i) :
    (table.insert make hkey).rows = table.rows ++ [make table.next] := rfl

/-- The key handed out is not in use. -/
theorem find_next : table.find table.next = none := by
  rw [Table.find_eq_none_iff]
  intro row hrow heq
  have hlt := table.below row hrow
  omega

theorem find_insert (make : Int → ρ) (hkey : ∀ i, key (make i) = i) (k : Int) :
    (table.insert make hkey).find k =
      if k = table.next then some (make table.next) else table.find k := by
  have happ : (table.insert make hkey).find k =
      (table.find k).or (if key (make table.next) = k then some (make table.next) else none) := by
    simp [Table.find, List.find?_append, List.find?_singleton]
  rw [happ, hkey]
  by_cases hk : k = table.next
  · rw [hk, if_pos rfl, if_pos rfl, table.find_next, Option.none_or]
  · rw [if_neg (Ne.symm hk), if_neg hk, Option.or_none]

theorem filter_insert {p : ρ → Bool} {make : Int → ρ} {hkey : ∀ i, key (make i) = i}
    (hnew : p (make table.next) = false) : (table.insert make hkey).rows.filter p = table.rows.filter p := by
  rw [insert_rows, List.filter_append, List.filter_cons, hnew]
  simp

theorem any_find_insert {p : ρ → Bool} {make : Int → ρ} (hkey : ∀ i, key (make i) = i)
    (hnew : p (make table.next) = false) (k : Int) :
    ((table.insert make hkey).find k).any p = (table.find k).any p := by
  rw [find_insert]
  split
  · rename_i heq
    rw [heq, table.find_next, Option.any_some, hnew]
    rfl
  · rfl

/-! ### Every row -/

theorem forall_insert {P : ρ → Prop} (hrows : ∀ row ∈ table.rows, P row) (make : Int → ρ) (hkey : ∀ i, key (make i) = i)
    (hmake : P (make table.next)) : ∀ row ∈ (table.insert make hkey).rows, P row := by
  rw [insert_rows, List.forall_mem_append]
  exact ⟨hrows, List.forall_mem_singleton.mpr hmake⟩

theorem forall_update {P : ρ → Prop} (hrows : ∀ row ∈ table.rows, P row) (k : Int) {f : ρ → ρ}
    (hkey : ∀ row, key (f row) = key row) (hf : ∀ row, P row → P (f row)) :
    ∀ row ∈ (table.update k f hkey).rows, P row := by
  rw [update_toTable, Table.update_rows, List.forall_mem_map]
  intro row hrow
  split
  · exact hf row (hrows row hrow)
  · exact hrows row hrow

theorem forall_deleteWhere {P : ρ → Prop} (hrows : ∀ row ∈ table.rows, P row) (p : ρ → Bool) :
    ∀ row ∈ (table.deleteWhere p).rows, P row := fun row hrow => hrows row (List.mem_of_mem_filter hrow)

/-! ### Over time

No key is handed out twice, so that a column no statement writes is known for good once it was read. -/

section History

variable {γ : Type} {col : ρ → γ} {before after last : AutoTable ρ key}

/-- A later state of the table: a row that is still there has the value it had in the column. -/
structure Later (col : ρ → γ) (before after : AutoTable ρ key) : Prop where
  next : before.next ≤ after.next
  kept : ∀ k row, k < before.next → after.find k = some row → ∃ old, before.find k = some old ∧ col old = col row

theorem Later.refl (table : AutoTable ρ key) : Later col table table :=
  ⟨Int.le_refl _, fun _ row _ hrow => ⟨row, hrow, rfl⟩⟩

theorem Later.trans (hfirst : Later col before after) (hsecond : Later col after last) : Later col before last := by
  refine ⟨Int.le_trans hfirst.next hsecond.next, ?_⟩
  intro k row hk hrow
  obtain ⟨middle, hmiddle, hcol⟩ := hsecond.kept k row (Int.lt_of_lt_of_le hk hfirst.next) hrow
  obtain ⟨old, hold, hcol'⟩ := hfirst.kept k middle hk hmiddle
  exact ⟨old, hold, hcol'.trans hcol⟩

theorem later_insert (make : Int → ρ) (hkey : ∀ i, key (make i) = i) : Later col table (table.insert make hkey) := by
  refine ⟨Int.le_of_lt (Int.lt_succ table.next), ?_⟩
  intro k row hk hrow
  rw [find_insert, if_neg (Int.ne_of_lt hk)] at hrow
  exact ⟨row, hrow, rfl⟩

theorem later_update {k : Int} {f : ρ → ρ} (hkey : ∀ row, key (f row) = key row) (hcol : ∀ row, col (f row) = col row) :
    Later col table (table.update k f hkey) := by
  refine ⟨Int.le_refl _, ?_⟩
  intro k' row _ hrow
  by_cases hk : k' = k
  · subst hk
    have hrow : (table.find k').map f = some row := (table.find_update_self k' f hkey).symm.trans hrow
    obtain ⟨old, hold, rfl⟩ := Option.map_eq_some_iff.mp hrow
    exact ⟨old, hold, (hcol old).symm⟩
  · exact ⟨row, (table.find_update_of_ne hk f hkey).symm.trans hrow, rfl⟩

theorem later_deleteWhere (p : ρ → Bool) : Later col table (table.deleteWhere p) := by
  refine ⟨Int.le_refl _, ?_⟩
  intro k row _ hrow
  have hrow : (table.find k).filter (fun row => !p row) = some row := (table.find_deleteWhere p k).symm.trans hrow
  exact ⟨row, (Option.filter_eq_some_iff.mp hrow).1, rfl⟩

/-- The key was handed out, and a row with this key has this value. -/
structure Known (col : ρ → γ) (table : AutoTable ρ key) (k : Int) (value : γ) : Prop where
  issued : k < table.next
  agrees : ∀ row, table.find k = some row → col row = value

theorem Known.later {k : Int} {value : γ} (hknown : Known col before k value) (hlater : Later col before after) :
    Known col after k value := by
  refine ⟨Int.lt_of_lt_of_le hknown.issued hlater.next, ?_⟩
  intro row hrow
  obtain ⟨old, hold, hcol⟩ := hlater.kept k row hknown.issued hrow
  exact hcol.symm.trans (hknown.agrees old hold)

theorem known_of_find {k : Int} {row : ρ} (hrow : table.find k = some row) : Known col table k (col row) := by
  refine ⟨?_, ?_⟩
  · rw [← table.find_key hrow]
    exact table.below row (table.find_mem hrow)
  · intro other hother
    rw [hrow, Option.some.injEq] at hother
    rw [hother]

theorem known_insert (make : Int → ρ) (hkey : ∀ i, key (make i) = i) :
    Known col (table.insert make hkey) table.next (col (make table.next)) :=
  known_of_find _ (by rw [find_insert, if_pos rfl])

end History

end AutoTable

end KeyedTable
