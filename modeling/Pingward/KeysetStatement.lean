import Pingward.KeysetWalk
import Pingward.ModelKeyset

/-! What the statement of a history page selects. While the conditions and the values are collected, the conditions
refer to the values in their order and hold of the rows the query asks for. -/

namespace Pingward

open Sql (Cond Value)

/-! ### What a query asks for -/

/-- A predicate of a row, by its cells. -/
def Predicate.holds (cell : String → Option Value) : Predicate → Bool
  | .textCmp col op value =>
      match cell col.text with
      | some (.text s) => op.compare s value
      | _ => false
  | .textIn col values _ =>
      match cell col.text with
      | some (.text s) => values.contains s
      | _ => false

def PageCursor.admits : PageCursor → Int → Bool
  | .latest, _ => true
  | .before cursor, id => id < cursor
  | .after cursor, id => cursor < id

/-- The order of the ids: descending, but ascending from a cursor upwards. -/
def PageCursor.Ordered : PageCursor → Int → Int → Prop
  | .after _, a, b => a ≤ b
  | _, a, b => b ≤ a

section Query

variable {ρ τ ε : Type}

/-- The rows of the scope that meet every predicate, on the cursor's side. -/
def KeysetQuery.selects (query : KeysetQuery ρ τ ε) (table : Sql.Relation ρ) (row : ρ) : Bool :=
  query.scope.all (fun scope => table.cell row scope.1.text = some (.int scope.2)) &&
    query.filters.all (Predicate.holds (table.cell row)) && query.cursor.admits (table.id row)

end Query

/-! ### The text of a condition -/

def condText : Cond → String
  | .cmp col op ref => s!"{col} {op.symbol} ${ref}"
  | .isIn col refs =>
      let list := ",".intercalate (refs.map fun ref => s!"${ref}")
      s!"{col} IN ({list})"

theorem toList_ref (n : Nat) : (s!"${n}").toList = Sql.refChars n := by
  simp only [toString, String.toList_append, Nat.repr, String.toList_ofList]
  rfl

theorem toList_condText (cond : Cond) : (condText cond).toList = [' '].intercalate (Sql.condWords cond) := by
  have hthree (a b c : List Char) : [' '].intercalate [a, b, c] = a ++ ' ' :: (b ++ ' ' :: c) := by
    simp only [List.intercalate_cons_cons, List.intercalate_singleton, List.append_assoc, List.cons_append,
      List.nil_append]
  cases cond with
  | cmp col op ref =>
      have href := toList_ref ref
      simp only [condText, Sql.condWords, hthree, String.toList_append, toString] at href ⊢
      rw [← href]
      simp only [String.reduceToList, List.append_assoc, List.cons_append, List.nil_append]
  | isIn col refs =>
      have hrefs : (refs.map fun ref => s!"${ref}").map String.toList = refs.map Sql.refChars := by
        rw [List.map_map]
        exact List.map_congr_left fun ref _ => toList_ref ref
      simp only [condText, Sql.condWords, hthree, String.toList_append, toString] at hrefs ⊢
      rw [String.toList_intercalate, hrefs]
      simp only [Sql.refsChars, String.reduceToList, List.append_assoc, List.cons_append, List.nil_append]

/-! ### Conditions and values side by side -/

/-- The value of a placeholder among values that are followed by others. -/
theorem bound_append (binds : List Value) (value : Value) (more : List Value) :
    Sql.bound (binds ++ value :: more) (binds.length + 1) = some value := by
  rw [Sql.bound, if_neg (Nat.succ_ne_zero _), Nat.add_sub_cancel, List.getElem?_append_right (Nat.le_refl _),
    Nat.sub_self, List.getElem?_cons_zero]

/-- Placeholders numbered from the values bound before stand for the values behind these. -/
theorem map_bound (binds values more : List Value) :
    (List.range' (binds.length + 1) values.length).map (Sql.bound (binds ++ (values ++ more))) = values.map some := by
  induction values generalizing binds with
  | nil => rfl
  | cons value values ih =>
      have hrest := ih (binds ++ [value])
      rw [List.append_assoc, List.length_append, List.length_singleton, List.singleton_append] at hrest
      rw [List.length_cons, List.range'_succ, List.map_cons, List.map_cons, List.cons_append, bound_append, hrest]

/-- The conditions of the clauses refer to the values in their order and hold where the test does, whatever values
come later. -/
structure Aligned (clauses : Clauses) (conds : List Cond) (test : (String → Option Value) → Bool) : Prop where
  text : clauses.conds = conds.map condText
  refs : conds.flatMap Cond.refs = List.range' 1 clauses.binds.length
  words : ∀ cond ∈ conds, cond.Written ∧ cond.OneWord
  holds : ∀ cell more, conds.all (Cond.holds cell (clauses.binds ++ more)) = test cell

/-- One more condition, on values bound with it. -/
theorem Aligned.push {clauses : Clauses} {conds : List Cond} {test : (String → Option Value) → Bool}
    (haligned : Aligned clauses conds test) (cond : Cond) (values : List Value) (holds : (String → Option Value) → Bool)
    (hrefs : cond.refs = List.range' (clauses.binds.length + 1) values.length)
    (hwords : cond.Written ∧ cond.OneWord)
    (hholds : ∀ cell more, cond.holds cell (clauses.binds ++ (values ++ more)) = holds cell) :
    Aligned ⟨clauses.conds ++ [condText cond], clauses.binds ++ values⟩ (conds ++ [cond])
      fun cell => test cell && holds cell where
  text := by
    dsimp only
    rw [haligned.text, List.map_append, List.map_singleton]
  refs := by
    dsimp only
    rw [List.flatMap_append, List.flatMap_singleton, haligned.refs, hrefs, List.length_append, Nat.add_comm _ 1,
      List.range'_append_1]
  words := by
    intro other hother
    rcases List.mem_append.mp hother with hmem | hmem
    · exact haligned.words other hmem
    · rw [List.mem_singleton.mp hmem]
      exact hwords
  holds := by
    intro cell more
    dsimp only
    rw [List.all_append, List.append_assoc, haligned.holds, List.all_cons, List.all_nil, Bool.and_true, hholds]

/-- A column compared with one value. -/
def valueHolds (col : String) (op : Sql.Op) (value : Value) (cell : String → Option Value) : Bool :=
  (cell col).any fun a => op.holds a value

theorem compare_holds (col : String) (op : Sql.Op) (value : Value) (binds more : List Value)
    (cell : String → Option Value) :
    (Cond.cmp col op (binds.length + 1)).holds cell (binds ++ value :: more) = valueHolds col op value cell := by
  rw [Cond.holds, bound_append, Sql.compares, valueHolds]
  cases cell col <;> rfl

theorem Aligned.compare {clauses : Clauses} {conds : List Cond} {test : (String → Option Value) → Bool}
    (haligned : Aligned clauses conds test) {col : String} (hcol : ' ' ∉ col.toList) (op : Sql.Op) (value : Value) :
    Aligned (clauses.compare col op.symbol value) (conds ++ [.cmp col op (clauses.binds.length + 1)])
      fun cell => test cell && valueHolds col op value cell := by
  have hpush := haligned.push (.cmp col op (clauses.binds.length + 1)) [value] (valueHolds col op value) rfl
    ⟨trivial, hcol⟩ fun cell more => compare_holds col op value _ more cell
  have hclauses : clauses.compare col op.symbol value =
      ⟨clauses.conds ++ [condText (.cmp col op (clauses.binds.length + 1))], clauses.binds ++ [value]⟩ := by
    simp only [Clauses.compare, condText, List.length_append, List.length_singleton]
  rw [hclauses]
  exact hpush

theorem placeholders_eq (binds : List Value) (values : List String) :
    placeholders binds values =
      ((List.range' (binds.length + 1) values.length).map (fun ref => s!"${ref}"), binds ++ values.map .text) := by
  induction values generalizing binds with
  | nil => rw [placeholders, List.map_nil, List.append_nil, List.length_nil, List.range'_zero, List.map_nil]
  | cons value values ih =>
      rw [placeholders, ih, List.length_append, List.length_singleton, List.append_assoc, List.length_cons,
        List.range'_succ, List.map_cons, List.map_cons, List.singleton_append]

/-- A column in a list of texts. -/
theorem isIn_holds (col : String) (values : List String) (binds more : List Value) (cell : String → Option Value) :
    (Cond.isIn col (List.range' (binds.length + 1) values.length)).holds cell (binds ++ (values.map .text ++ more)) =
      (match cell col with
        | some (.text s) => values.contains s
        | _ => false) := by
  have hbound := map_bound binds (values.map Value.text) more
  rw [List.length_map] at hbound
  have hmap : (List.range' (binds.length + 1) values.length).any (fun ref =>
      Sql.compares .eq (cell col) (Sql.bound (binds ++ (values.map .text ++ more)) ref)) =
        ((values.map Value.text).map some).any (Sql.compares .eq (cell col)) := by
    rw [← hbound, List.any_map]
    rfl
  rw [Cond.holds, hmap, List.map_map, List.any_map]
  cases hcell : cell col with
  | none =>
      rw [List.any_eq_false]
      intro value _
      exact Bool.false_ne_true
  | some found =>
      cases found with
      | int n =>
          rw [List.any_eq_false]
          intro value _
          exact Bool.false_ne_true
      | text found =>
          rw [Bool.eq_iff_iff, List.any_eq_true, List.contains_iff_mem]
          constructor
          · rintro ⟨value, hvalue, heq⟩
            have hsame : found = value := of_decide_eq_true heq
            rw [hsame]
            exact hvalue
          · intro hmem
            exact ⟨found, hmem, decide_eq_true rfl⟩

theorem space_notMem_name (name : Sql.Name) : ' ' ∉ name.text.toList := name.notMem (by decide) (by decide)

theorem Aligned.filter {clauses : Clauses} {conds : List Cond} {test : (String → Option Value) → Bool}
    (haligned : Aligned clauses conds test) (predicate : Predicate) :
    ∃ conds', Aligned (clauses.filter predicate) conds' fun cell => test cell && predicate.holds cell := by
  cases predicate with
  | textCmp col op value =>
      have hcompare := haligned.compare (space_notMem_name col) op (.text value)
      have hholds : valueHolds col.text op (.text value) = (Predicate.textCmp col op value).holds := by
        funext cell
        rw [valueHolds, Predicate.holds]
        cases cell col.text with
        | none => rfl
        | some found => cases found <;> rfl
      rw [hholds] at hcompare
      exact ⟨_, hcompare⟩
  | textIn col values hne =>
      have hrefs : List.range' (clauses.binds.length + 1) values.length ≠ [] := by
        rw [ne_eq, List.range'_eq_nil_iff, List.length_eq_zero_iff]
        exact hne
      have hpush := haligned.push (.isIn col.text (List.range' (clauses.binds.length + 1) values.length))
        (values.map .text) (Predicate.textIn col values hne).holds (by rw [Cond.refs, List.length_map])
        ⟨hrefs, space_notMem_name col⟩
        fun cell more => isIn_holds col.text values clauses.binds more cell
      rw [Clauses.filter, placeholders_eq]
      exact ⟨_, hpush⟩

theorem Aligned.filters {clauses : Clauses} {conds : List Cond} {test : (String → Option Value) → Bool}
    (haligned : Aligned clauses conds test) (filters : List Predicate) :
    ∃ conds', Aligned (filters.foldl Clauses.filter clauses) conds' fun cell =>
      test cell && filters.all (Predicate.holds cell) := by
  induction filters generalizing clauses conds test with
  | nil =>
      refine ⟨conds, ?_⟩
      simp only [List.foldl_nil, List.all_nil, Bool.and_true]
      exact haligned
  | cons predicate filters ih =>
      obtain ⟨conds', hfirst⟩ := haligned.filter predicate
      obtain ⟨conds'', hrest⟩ := ih hfirst
      refine ⟨conds'', ?_⟩
      simp only [List.foldl_cons, List.all_cons, ← Bool.and_assoc]
      exact hrest

theorem Aligned.scope {clauses : Clauses} {conds : List Cond} {test : (String → Option Value) → Bool}
    (haligned : Aligned clauses conds test) (scope : Option (Sql.Name × Int)) :
    ∃ conds', Aligned (clauses.scope scope) conds' fun cell =>
      test cell && scope.all fun scope => cell scope.1.text = some (.int scope.2) := by
  cases scope with
  | none =>
      refine ⟨conds, ?_⟩
      simp only [Clauses.scope, Option.all_none, Bool.and_true]
      exact haligned
  | some scope =>
      have hcompare := haligned.compare (space_notMem_name scope.1) .eq (.int scope.2)
      have hholds : valueHolds scope.1.text .eq (.int scope.2) =
          fun cell => decide (cell scope.1.text = some (.int scope.2)) := by
        funext cell
        rw [valueHolds]
        cases cell scope.1.text with
        | none => rfl
        | some found =>
            cases found with
            | int n => rw [Option.any_some, Sql.Op.holds, Sql.Op.compare, decide_eq_decide, Option.some_inj, Value.int.injEq]
            | text s => rfl
      rw [hholds] at hcompare
      exact ⟨_, hcompare⟩

/-- The cursor's condition, by the cells of a row. -/
def cursorHolds : PageCursor → (String → Option Value) → Bool
  | .latest, _ => true
  | .before id, cell => valueHolds "id" .lt (.int id) cell
  | .after id, cell => valueHolds "id" .gt (.int id) cell

def cursorDirection : PageCursor → Sql.Direction
  | .after _ => .asc
  | _ => .desc

theorem Aligned.cursor {clauses : Clauses} {conds : List Cond} {test : (String → Option Value) → Bool}
    (haligned : Aligned clauses conds test) (cursor : PageCursor) :
    ∃ conds', Aligned (clauses.cursor cursor).1 conds' fun cell => test cell && cursorHolds cursor cell := by
  cases cursor with
  | latest =>
      refine ⟨conds, ?_⟩
      simp only [Clauses.cursor, cursorHolds, Bool.and_true]
      exact haligned
  | before id => exact ⟨_, haligned.compare (by decide) .lt (.int id)⟩
  | after id => exact ⟨_, haligned.compare (by decide) .gt (.int id)⟩

theorem cursor_order (clauses : Clauses) (cursor : PageCursor) :
    (clauses.cursor cursor).2 = (cursorDirection cursor).symbol := by
  cases cursor <;> rfl

theorem cursorHolds_row {ρ : Type} (cursor : PageCursor) (table : Sql.Relation ρ) (row : ρ) :
    cursorHolds cursor (table.cell row) = cursor.admits (table.id row) := by
  cases cursor with
  | latest => rfl
  | before id =>
      rw [cursorHolds, valueHolds, table.cell_id]
      rfl
  | after id =>
      rw [cursorHolds, valueHolds, table.cell_id]
      rfl

theorem sort_perm {ρ : Type} (direction : Sql.Direction) (id : ρ → Int) (rows : List ρ) :
    (direction.sort id rows).Perm rows := by
  cases direction with
  | asc => exact List.mergeSort_perm _ _
  | desc => exact List.mergeSort_perm _ _

theorem sort_ordered {ρ : Type} (cursor : PageCursor) (id : ρ → Int) (rows : List ρ) :
    ((cursorDirection cursor).sort id rows).Pairwise fun a b => cursor.Ordered (id a) (id b) := by
  cases cursor with
  | latest => exact orderByDesc_pairwise rows
  | before cursor => exact orderByDesc_pairwise rows
  | after cursor => exact orderBy_pairwise rows

/-! ### The statement -/

/-- Conditions joined by `AND` are the words of the conjunction. -/
theorem toList_conjunction (conds : List Cond) :
    (" AND ".intercalate (conds.map condText)).toList = [' '].intercalate (Sql.condsWords conds) := by
  rw [String.toList_intercalate, List.map_map]
  induction conds with
  | nil => rfl
  | cons cond conds ih =>
      cases conds with
      | nil =>
          rw [List.map_singleton, List.intercalate_singleton, Sql.condsWords]
          exact toList_condText cond
      | cons next conds =>
          have hrest : Sql.condsWords (next :: conds) ≠ [] := Sql.condsWords_ne_nil (List.cons_ne_nil _ _)
          have hwords : Sql.condsWords (cond :: next :: conds) =
              Sql.condWords cond ++ "AND".toList :: Sql.condsWords (next :: conds) := rfl
          rw [List.map_cons, List.intercalate_cons_of_ne_nil (by exact List.cons_ne_nil _ _), ih, hwords,
            Sql.intercalate_append _ (Sql.condWords_ne_nil cond) (List.cons_ne_nil _ _),
            List.intercalate_cons_of_ne_nil hrest, Function.comp_apply, toList_condText]
          simp only [String.reduceToList, List.append_assoc, List.cons_append, List.nil_append]

section Query

variable {ρ τ ε : Type}

/-- The text around the conditions, its words one space apart. -/
theorem toList_select (table : Sql.Name) (conds : List Cond) (direction : Sql.Direction) (limit : Nat)
    {whereClause : String} (hwhere : whereClause =
      if conds = [] then "" else " WHERE " ++ " AND ".intercalate (conds.map condText)) :
    (selectText table.text whereClause direction.symbol limit).toList =
      [' '].intercalate (Sql.selectWords ⟨table.text, conds, direction, limit⟩) := by
  have hlimit := toList_ref limit
  have hsix : [' '].intercalate ["ORDER".toList, "BY".toList, "id".toList, direction.symbol.toList, "LIMIT".toList,
      Sql.refChars limit] = "ORDER BY id ".toList ++ (direction.symbol.toList ++ (" LIMIT ".toList ++ Sql.refChars limit)) := by
    simp only [List.intercalate_cons_cons, List.intercalate_singleton, String.reduceToList, List.append_assoc,
      List.cons_append, List.nil_append]
  have hfour : [' '].intercalate ["SELECT".toList, "*".toList, "FROM".toList, table.text.toList] =
      "SELECT * FROM ".toList ++ table.text.toList := by
    simp only [List.intercalate_cons_cons, List.intercalate_singleton, String.reduceToList, List.cons_append,
      List.nil_append]
  rw [Sql.selectWords, Sql.intercalate_append _ (List.cons_ne_nil _ _) (by simp), hfour]
  unfold selectText
  simp only [toString, String.toList_append] at hlimit ⊢
  by_cases hconds : conds = []
  · rw [if_pos hconds] at hwhere ⊢
    rw [List.nil_append, hsix, hwhere, ← hlimit]
    simp only [String.reduceToList, List.append_assoc, List.cons_append, List.nil_append]
  · rw [if_neg hconds] at hwhere ⊢
    rw [Sql.intercalate_append _ (List.cons_ne_nil _ _) (List.cons_ne_nil _ _),
      List.intercalate_cons_of_ne_nil (Sql.condsWords_ne_nil hconds), hsix, hwhere, String.toList_append,
      toList_conjunction, ← hlimit]
    simp only [String.reduceToList, List.append_assoc, List.cons_append, List.nil_append]

theorem addI64_one {n : Int} (hlow : 0 ≤ n) (hhigh : n < i64Max) : addI64 n 1 = n + 1 := by
  unfold i64Max at hhigh
  apply Int.bmod_eq_of_le
  · omega
  · omega

/-- The conditions and the order of a query, aligned with its values. -/
theorem collected_aligned (query : KeysetQuery ρ τ ε) :
    ∃ clauses conds, (query.filters.foldl Clauses.filter (Clauses.scope ⟨[], []⟩ query.scope)).cursor query.cursor =
        (clauses, (cursorDirection query.cursor).symbol) ∧
      Aligned clauses conds fun cell => (query.scope.all fun scope => cell scope.1.text = some (.int scope.2)) &&
        query.filters.all (Predicate.holds cell) && cursorHolds query.cursor cell := by
  have hstart : Aligned ⟨[], []⟩ [] fun _ => true := ⟨rfl, rfl, fun _ hmem => absurd hmem List.not_mem_nil, fun _ _ => rfl⟩
  obtain ⟨conds, hscope⟩ := hstart.scope query.scope
  obtain ⟨conds', hfilters⟩ := hscope.filters query.filters
  obtain ⟨conds'', hcursor⟩ := hfilters.cursor query.cursor
  simp only [Bool.true_and] at hcursor
  exact ⟨_, conds'', Prod.ext rfl (cursor_order _ _), hcursor⟩

theorem keysetSql_eq (query : KeysetQuery ρ τ ε) {clauses : Clauses} {conds : List Cond} {direction : Sql.Direction}
    (hcollected : (query.filters.foldl Clauses.filter (Clauses.scope ⟨[], []⟩ query.scope)).cursor query.cursor =
      (clauses, direction.symbol)) (hconds : clauses.conds = conds.map condText) :
    (keysetSql query).2 = clauses.binds ++ [.int (addI64 query.limit 1)] ∧
      (keysetSql query).1.toList =
        [' '].intercalate (Sql.selectWords ⟨query.table.text, conds, direction, clauses.binds.length + 1⟩) := by
  have hlength : (clauses.binds ++ [Value.int (addI64 query.limit 1)]).length = clauses.binds.length + 1 := by
    rw [List.length_append, List.length_singleton]
  have hwhere : (if clauses.conds.isEmpty then "" else " WHERE " ++ " AND ".intercalate clauses.conds) =
      if conds = [] then "" else " WHERE " ++ " AND ".intercalate (conds.map condText) := by
    rw [hconds, List.isEmpty_map]
    cases conds <;> rfl
  simp only [keysetSql, hcollected, hlength]
  exact ⟨trivial, toList_select query.table conds direction _ hwhere⟩

/-- What the statement of a query is and what it selects from a table. -/
theorem keysetSql_evaluates (query : KeysetQuery ρ τ ε) (hlimit : 0 ≤ query.limit ∧ query.limit < i64Max) :
    ∃ statement, Sql.read (keysetSql query).1 = some statement ∧ statement.table = query.table.text ∧
      statement.refs = List.range' 1 (keysetSql query).2.length ∧
      ∀ table : Sql.Relation ρ, statement.eval table (keysetSql query).2 =
        ((cursorDirection query.cursor).sort table.id (table.rows.filter (query.selects table))).take
          (query.limit.toNat + 1) := by
  obtain ⟨clauses, conds, hcollected, haligned⟩ := collected_aligned query
  obtain ⟨hbinds, htext⟩ := keysetSql_eq query hcollected haligned.text
  rw [hbinds]
  refine ⟨⟨query.table.text, conds, cursorDirection query.cursor, clauses.binds.length + 1⟩,
    Sql.read_words htext (space_notMem_name query.table) haligned.words, rfl, ?_, fun table => ?_⟩
  · rw [Sql.Select.refs, haligned.refs, List.length_append, List.length_singleton, ← List.range'_append_1,
      Nat.add_comm 1]
    rfl
  · have hselects : ∀ row, conds.all (Cond.holds (table.cell row) (clauses.binds ++ [.int (addI64 query.limit 1)])) =
        query.selects table row := by
      intro row
      rw [haligned.holds, cursorHolds_row]
      rfl
    have hcount : (query.limit + 1).toNat = query.limit.toNat + 1 := by omega
    have hnonneg : ¬ query.limit + 1 < 0 := by omega
    simp only [Sql.Select.eval, hselects]
    rw [bound_append, addI64_one hlimit.1 hlimit.2, Sql.cut, if_neg hnonneg, hcount]

/-- **The statement means the query.** Its text is a statement whose placeholders are the bound values, each once and in
order, and which selects, from any table, the first rows in the cursor's order of those the query asks for: one more
than the limit. -/
theorem keysetSql_selects (query : KeysetQuery ρ τ ε) (hlimit : 0 ≤ query.limit ∧ query.limit < i64Max) :
    ∃ statement, Sql.read (keysetSql query).1 = some statement ∧ statement.table = query.table.text ∧
      statement.refs = List.range' 1 (keysetSql query).2.length ∧
      ∀ table : Sql.Relation ρ, ∃ ordered : List ρ, ordered.Perm (table.rows.filter (query.selects table)) ∧
        (ordered.Pairwise fun a b => query.cursor.Ordered (table.id a) (table.id b)) ∧
        statement.eval table (keysetSql query).2 = ordered.take (query.limit.toNat + 1) := by
  obtain ⟨statement, hread, htable, hrefs, heval⟩ := keysetSql_evaluates query hlimit
  refine ⟨statement, hread, htable, hrefs, fun table => ?_⟩
  exact ⟨_, sort_perm _ _ _, sort_ordered _ _ _, heval table⟩

theorem keysetSql_selects_pings :
    keysetSql (pingsQuery 7 (.before 40) 20 (pingPredicates [.fail, .exitcode] (some "2026-01-01T00:00:00+00:00") none)) =
      ("SELECT * FROM pings WHERE check_id = $1 AND kind IN ($2,$3) AND created_at >= $4 AND id < $5 ORDER BY id DESC LIMIT $6",
        [.int 7, .text "fail", .text "exitcode", .text "2026-01-01T00:00:00+00:00", .int 40, .int 21]) ∧
    ∃ statement, Sql.read (keysetSql (pingsQuery 7 (.before 40) 20
        (pingPredicates [.fail, .exitcode] (some "2026-01-01T00:00:00+00:00") none))).1 = some statement ∧
      statement.table = "pings" ∧ statement.refs = List.range' 1 6 ∧
      ∀ table : Sql.Relation Ping, ∃ ordered : List Ping,
        ordered.Perm (table.rows.filter ((pingsQuery 7 (.before 40) 20
          (pingPredicates [.fail, .exitcode] (some "2026-01-01T00:00:00+00:00") none)).selects table)) ∧
        (ordered.Pairwise fun a b => (PageCursor.before 40).Ordered (table.id a) (table.id b)) ∧
        statement.eval table [.int 7, .text "fail", .text "exitcode", .text "2026-01-01T00:00:00+00:00", .int 40, .int 21] =
          ordered.take 21 :=
  ⟨by decide +kernel, keysetSql_selects (pingsQuery 7 (.before 40) 20
    (pingPredicates [.fail, .exitcode] (some "2026-01-01T00:00:00+00:00") none)) ⟨by decide, by decide⟩⟩

/-! ### The page -/

theorem mapM_ok {rowTo : ρ → Except ε ρ} (hrowTo : ∀ row, rowTo row = .ok row) (rows : List ρ) :
    rows.mapM rowTo = .ok rows := by
  induction rows with
  | nil => rfl
  | cons row rows ih =>
      rw [List.mapM_cons, hrowTo, ih]
      rfl

/-- The fetched rows without the one that shows there are more. -/
theorem fetched_shown (sorted : List ρ) (limit : Nat) :
    (if limit < (sorted.take (limit + 1)).length then (sorted.take (limit + 1)).dropLast else sorted.take (limit + 1)) =
      sorted.take limit := by
  split
  · rename_i hmore
    rw [List.length_take] at hmore
    have hlength : min (limit + 1) sorted.length - 1 = limit := by omega
    rw [List.dropLast_eq_take, List.length_take, hlength, fetched_items]
  · rename_i hall
    rw [List.length_take] at hall
    have hshort : sorted.length ≤ limit := by omega
    rw [List.take_of_length_le (Nat.le_succ_of_le hshort), List.take_of_length_le hshort]

/-- The page made of the selected rows is the page of the rows in the scope that meet the predicates. -/
theorem keysetRowsToPage_eq (query : KeysetQuery ρ ρ ε) (hrowTo : ∀ row, query.rowTo row = .ok row)
    (hlimit : 0 ≤ query.limit) (table : Sql.Relation ρ) :
    keysetRowsToPage (((cursorDirection query.cursor).sort table.id (table.rows.filter (query.selects table))).take
        (query.limit.toNat + 1)) query =
      .ok (keysetPage table.id (table.rows.filter fun row =>
        query.scope.all (fun scope => table.cell row scope.1.text = some (.int scope.2)) &&
          query.filters.all (Predicate.holds (table.cell row))) query.cursor query.limit.toNat) := by
  have hover (sorted : List ρ) : decide (query.limit < ((sorted.take (query.limit.toNat + 1)).length : Int)) =
      decide (query.limit.toNat < (sorted.take (query.limit.toNat + 1)).length) := by
    rw [decide_eq_decide]
    omega
  have hselects : table.rows.filter (query.selects table) = (table.rows.filter fun row =>
      query.scope.all (fun scope => table.cell row scope.1.text = some (.int scope.2)) &&
        query.filters.all (Predicate.holds (table.cell row))).filter fun row => query.cursor.admits (table.id row) := by
    rw [List.filter_filter]
    refine List.filter_congr fun row _ => ?_
    rw [KeysetQuery.selects, Bool.and_comm]
  rw [hselects]
  generalize (table.rows.filter fun row => query.scope.all (fun scope => table.cell row scope.1.text = some (.int scope.2)) &&
    query.filters.all (Predicate.holds (table.cell row))) = rows
  obtain ⟨name, scope, cursor, limit, filters, rowTo⟩ := query
  dsimp only at hrowTo hover ⊢
  cases cursor with
  | latest =>
      simp only [keysetRowsToPage, hover, mapM_ok hrowTo, PageCursor.admits, List.filter_true]
      rfl
  | before id =>
      simp only [keysetRowsToPage, hover, mapM_ok hrowTo]
      rfl
  | after id =>
      have hshown := fetched_shown (orderBy table.id (rows.filter fun row => id < table.id row)) limit.toNat
      simp only [keysetRowsToPage, hover, mapM_ok hrowTo, keysetPage, fetched_items, ← hshown, decide_eq_true_eq]
      rfl

end Query

end Pingward
