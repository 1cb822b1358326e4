import Mathlib.Data.Bool.AllAny
import Mathlib.Data.String.Basic

/-! Queries of one table with numbered placeholders: the values they are run with, what a condition says about a row,
and the reader of their text. A statement selects rows by a conjunction, sorts them by their id and cuts the result. -/

namespace Sql

/-! ### Values and conditions -/

inductive Value where
  | int (n : Int)
  | text (s : String)
  deriving DecidableEq, Repr

inductive Op where
  | eq
  | lt
  | gt
  | le
  | ge
  deriving DecidableEq, Repr

/-- How the operator is written. -/
def Op.symbol : Op → String
  | .eq => "="
  | .lt => "<"
  | .gt => ">"
  | .le => "<="
  | .ge => ">="

/-- The comparison of two values of an ordered type. -/
def Op.compare {α : Type} [LT α] [DecidableEq α] [DecidableLT α] (op : Op) (a b : α) : Bool :=
  match op with
  | .eq => a = b
  | .lt => a < b
  | .gt => b < a
  | .le => a < b ∨ a = b
  | .ge => b < a ∨ a = b

/-- Texts are compared byte by byte; values of different types are not compared. -/
def Op.holds (op : Op) : Value → Value → Bool
  | .int a, .int b => op.compare a b
  | .text a, .text b => op.compare a b
  | _, _ => false

/-- A condition, its values the placeholders of the given numbers. -/
inductive Cond where
  | cmp (col : String) (op : Op) (ref : Nat)
  | isIn (col : String) (refs : List Nat)
  deriving DecidableEq, Repr

/-- The placeholders of a condition, from left to right. -/
def Cond.refs : Cond → List Nat
  | .cmp _ _ ref => [ref]
  | .isIn _ refs => refs

inductive Direction where
  | asc
  | desc
  deriving DecidableEq, Repr

/-- How the direction is written. -/
def Direction.symbol : Direction → String
  | .asc => "ASC"
  | .desc => "DESC"

/-- `SELECT * FROM t WHERE .. ORDER BY id .. LIMIT $n`. -/
structure Select where
  table : String
  conds : List Cond
  order : Direction
  limit : Nat
  deriving DecidableEq, Repr

/-- The placeholders of a statement, from left to right. -/
def Select.refs (statement : Select) : List Nat := statement.conds.flatMap Cond.refs ++ [statement.limit]

/-! ### What a statement selects -/

/-- A table as a statement sees it: the value of each row in each column, none where it is `NULL`. -/
structure Relation (ρ : Type) where
  rows : List ρ
  cell : ρ → String → Option Value
  id : ρ → Int
  cell_id : ∀ row, cell row "id" = some (.int (id row))

/-- The value of the placeholder `$n`. -/
def bound (binds : List Value) (ref : Nat) : Option Value := if ref = 0 then none else binds[ref - 1]?

/-- A comparison with `NULL` does not hold. -/
def compares (op : Op) (left right : Option Value) : Bool := left.any fun a => right.any fun b => op.holds a b

def Cond.holds (cell : String → Option Value) (binds : List Value) : Cond → Bool
  | .cmp col op ref => compares op (cell col) (bound binds ref)
  | .isIn col refs => refs.any fun ref => compares .eq (cell col) (bound binds ref)

/-- The rows in the order of their ids. -/
def Direction.sort {ρ : Type} (id : ρ → Int) (rows : List ρ) : Direction → List ρ
  | .asc => rows.mergeSort fun a b => id a ≤ id b
  | .desc => rows.mergeSort fun a b => id b ≤ id a

/-- A negative limit is none. -/
def cut {ρ : Type} (limit : Option Value) (rows : List ρ) : List ρ :=
  match limit with
  | some (.int n) => if n < 0 then rows else rows.take n.toNat
  | _ => []

def Select.eval {ρ : Type} (statement : Select) (table : Relation ρ) (binds : List Value) : List ρ :=
  cut (bound binds statement.limit)
    (statement.order.sort table.id (table.rows.filter fun row => statement.conds.all (Cond.holds (table.cell row) binds)))

/-! ### The reader -/

/-- A name of a table or of a column. -/
structure Name where
  text : String
  plain : ∀ c ∈ text.toList, c.isAlphanum = true ∨ c = '_'

/-- A placeholder. -/
def readRef : List Char → Option Nat
  | '$' :: digits =>
      if digits ≠ [] ∧ digits.all Char.isDigit = true then some (Nat.ofDigitChars 10 digits 0) else none
  | _ => none

/-- The list behind `IN`. -/
def readRefs (word : List Char) : Option (List Nat) :=
  match word with
  | '(' :: rest =>
      match rest.reverse with
      | ')' :: inner => (inner.reverse.splitOn ',').mapM readRef
      | _ => none
  | _ => none

def readOp (word : List Char) : Option Op :=
  [Op.eq, .lt, .gt, .le, .ge].find? fun op => op.symbol.toList = word

def readCond (col op value : List Char) : Option Cond :=
  if op = "IN".toList then (readRefs value).map (.isIn (String.ofList col))
  else do
    let op ← readOp op
    let ref ← readRef value
    return .cmp (String.ofList col) op ref

/-- A conjunction, and the words behind it. -/
def readConds : List (List Char) → Option (List Cond × List (List Char))
  | col :: op :: value :: rest =>
      match rest with
      | word :: more =>
          if word = "AND".toList then do
            let cond ← readCond col op value
            let (conds, rest) ← readConds more
            return (cond :: conds, rest)
          else do
            let cond ← readCond col op value
            return ([cond], word :: more)
      | [] => none
  | _ => none

def readOrder (word : List Char) : Option Direction :=
  [Direction.asc, .desc].find? fun direction => direction.symbol.toList = word

/-- What stands behind the conditions. -/
def readTail (table : List Char) (conds : List Cond) : List (List Char) → Option Select
  | [order, by_, id, direction, limit, ref] =>
      if order = "ORDER".toList ∧ by_ = "BY".toList ∧ id = "id".toList ∧ limit = "LIMIT".toList then do
        let direction ← readOrder direction
        let ref ← readRef ref
        return ⟨String.ofList table, conds, direction, ref⟩
      else none
  | _ => none

def readWords : List (List Char) → Option Select
  | select :: star :: from_ :: table :: rest =>
      if select = "SELECT".toList ∧ star = "*".toList ∧ from_ = "FROM".toList then
        match rest with
        | word :: more =>
            if word = "WHERE".toList then do
              let (conds, rest) ← readConds more
              readTail table conds rest
            else readTail table [] rest
        | [] => none
      else none
  | _ => none

/-- The statement a text spells, its words one space apart. -/
def read (text : String) : Option Select := readWords (text.toList.splitOn ' ')

/-! ### What the reader makes of written words -/

/-- `$n`. -/
def refChars (n : Nat) : List Char := '$' :: Nat.toDigits 10 n

theorem readRef_refChars (n : Nat) : readRef (refChars n) = some n := by
  have hdigits : (Nat.toDigits 10 n).all Char.isDigit = true :=
    List.all_eq_true.mpr fun c hc => Nat.isDigit_of_mem_toDigits (by decide) (by decide) hc
  rw [refChars, readRef, if_pos ⟨Nat.toDigits_ne_nil, hdigits⟩, Nat.ofDigitChars_ten_toDigits]

theorem notMem_refChars {n : Nat} {c : Char} (hc : c ≠ '$') (hdigit : c.isDigit = false) : c ∉ refChars n := by
  rw [refChars, List.mem_cons, not_or]
  refine ⟨hc, fun hmem => ?_⟩
  rw [Nat.isDigit_of_mem_toDigits (by decide) (by decide) hmem] at hdigit
  cases hdigit

theorem mapM_readRef (refs : List Nat) : (refs.map refChars).mapM readRef = some refs := by
  induction refs with
  | nil => rfl
  | cons n refs ih =>
      rw [List.map_cons, List.mapM_cons, readRef_refChars, ih]
      rfl

/-- `($1,$2,..)`. -/
def refsChars (refs : List Nat) : List Char := '(' :: ([','].intercalate (refs.map refChars) ++ [')'])

theorem readRefs_refsChars {refs : List Nat} (hne : refs ≠ []) : readRefs (refsChars refs) = some refs := by
  have hplain : ∀ word ∈ refs.map refChars, ',' ∉ word := by
    intro word hword
    obtain ⟨n, -, rfl⟩ := List.mem_map.mp hword
    exact notMem_refChars (by decide) (by decide)
  unfold refsChars readRefs
  simp only [List.reverse_append, List.reverse_singleton, List.singleton_append, List.reverse_reverse]
  rw [List.splitOn_intercalate ',' hplain (by simpa using hne), mapM_readRef]

theorem readOp_symbol (op : Op) : readOp op.symbol.toList = some op := by
  cases op <;> decide

theorem readOrder_symbol (direction : Direction) : readOrder direction.symbol.toList = some direction := by
  cases direction <;> decide

/-- The words of a condition. -/
def condWords : Cond → List (List Char)
  | .cmp col op ref => [col.toList, op.symbol.toList, refChars ref]
  | .isIn col refs => [col.toList, "IN".toList, refsChars refs]

/-- A list behind `IN` is not empty. -/
def Cond.Written : Cond → Prop
  | .cmp _ _ _ => True
  | .isIn _ refs => refs ≠ []

theorem readCond_condWords {cond : Cond} (hcond : cond.Written) :
    ∃ col op value, condWords cond = [col, op, value] ∧ readCond col op value = some cond := by
  cases cond with
  | cmp col op ref =>
      refine ⟨_, _, _, rfl, ?_⟩
      have hop : op.symbol.toList ≠ "IN".toList := by cases op <;> decide
      rw [readCond, if_neg hop, readOp_symbol, readRef_refChars, String.ofList_toList]
      rfl
  | isIn col refs =>
      refine ⟨_, _, _, rfl, ?_⟩
      rw [readCond, if_pos rfl, readRefs_refsChars hcond, String.ofList_toList]
      rfl

/-- The words of a conjunction. -/
def condsWords : List Cond → List (List Char)
  | [] => []
  | [cond] => condWords cond
  | cond :: conds => condWords cond ++ "AND".toList :: condsWords conds

theorem readConds_condsWords {conds : List Cond} (hne : conds ≠ []) (hconds : ∀ cond ∈ conds, cond.Written)
    {word : List Char} (hword : word ≠ "AND".toList) (more : List (List Char)) :
    readConds (condsWords conds ++ word :: more) = some (conds, word :: more) := by
  induction conds with
  | nil => exact absurd rfl hne
  | cons cond conds ih =>
      obtain ⟨col, op, value, hwords, hread⟩ := readCond_condWords (hconds cond List.mem_cons_self)
      cases conds with
      | nil =>
          rw [condsWords, hwords, List.cons_append, List.cons_append, List.cons_append, List.nil_append, readConds,
            if_neg hword, hread]
          rfl
      | cons next conds =>
          have hrest := ih (List.cons_ne_nil _ _) fun cond hcond => hconds cond (List.mem_cons_of_mem _ hcond)
          rw [condsWords, hwords]
          · simp only [List.cons_append, List.nil_append]
            rw [readConds, if_pos rfl, hread, hrest]
            rfl
          · exact List.cons_ne_nil _ _

/-- The words of a statement. -/
def selectWords (statement : Select) : List (List Char) :=
  ["SELECT".toList, "*".toList, "FROM".toList, statement.table.toList] ++
    ((if statement.conds = [] then [] else "WHERE".toList :: condsWords statement.conds) ++
      ["ORDER".toList, "BY".toList, "id".toList, statement.order.symbol.toList, "LIMIT".toList,
        refChars statement.limit])

theorem readTail_words (statement : Select) :
    readTail statement.table.toList statement.conds ["ORDER".toList, "BY".toList, "id".toList,
      statement.order.symbol.toList, "LIMIT".toList, refChars statement.limit] = some statement := by
  rw [readTail, if_pos ⟨rfl, rfl, rfl, rfl⟩, readOrder_symbol, readRef_refChars, String.ofList_toList]
  rfl

theorem readWords_selectWords {statement : Select} (hconds : ∀ cond ∈ statement.conds, cond.Written) :
    readWords (selectWords statement) = some statement := by
  unfold selectWords
  split
  · rename_i hnil
    have htail := readTail_words statement
    rw [hnil] at htail
    rw [List.nil_append, List.cons_append, List.cons_append, List.cons_append, List.cons_append, List.nil_append,
      readWords, if_pos ⟨rfl, rfl, rfl⟩]
    exact htail
  · rename_i hne
    rw [List.cons_append, List.cons_append, List.cons_append, List.cons_append, List.cons_append, List.nil_append,
      readWords, if_pos ⟨rfl, rfl, rfl⟩]
    simp only [if_true]
    rw [readConds_condsWords hne hconds (by decide)]
    exact readTail_words statement

/-! ### Words and text -/

theorem Name.notMem (name : Name) {c : Char} (hplain : c.isAlphanum = false) (hc : c ≠ '_') : c ∉ name.text.toList := by
  intro hmem
  rcases name.plain c hmem with halnum | heq
  · rw [hplain] at halnum
    cases halnum
  · exact hc heq

theorem intercalate_append {α : Type} (separator : List α) {words words' : List (List α)} (hne : words ≠ [])
    (hne' : words' ≠ []) : separator.intercalate (words ++ words') =
      separator.intercalate words ++ (separator ++ separator.intercalate words') := by
  induction words with
  | nil => exact absurd rfl hne
  | cons word words ih =>
      cases words with
      | nil => rw [List.singleton_append, List.intercalate_cons_of_ne_nil hne', List.intercalate_singleton, List.append_assoc]
      | cons next words =>
          have hrest : next :: words ++ words' ≠ [] := List.cons_ne_nil _ _
          rw [List.cons_append, List.intercalate_cons_of_ne_nil hrest,
            List.intercalate_cons_of_ne_nil (List.cons_ne_nil _ _), ih (List.cons_ne_nil _ _)]
          simp only [List.append_assoc]

theorem condWords_ne_nil (cond : Cond) : condWords cond ≠ [] := by
  cases cond <;> exact List.cons_ne_nil _ _

theorem condsWords_ne_nil {conds : List Cond} (hne : conds ≠ []) : condsWords conds ≠ [] := by
  obtain ⟨cond, rest, rfl⟩ := List.exists_cons_of_ne_nil hne
  cases rest with
  | nil => exact condWords_ne_nil cond
  | cons next rest => exact List.append_ne_nil_of_left_ne_nil (condWords_ne_nil cond) _

theorem notMem_intercalate {c separator : Char} (hc : c ≠ separator) {words : List (List Char)}
    (hwords : ∀ word ∈ words, c ∉ word) : c ∉ [separator].intercalate words := by
  induction words with
  | nil => exact List.not_mem_nil
  | cons word words ih =>
      have hword := hwords word List.mem_cons_self
      cases words with
      | nil =>
          rw [List.intercalate_singleton]
          exact hword
      | cons next words =>
          rw [List.intercalate_cons_cons, List.mem_append, List.mem_append, List.mem_singleton]
          rintro ((hmem | heq) | hmem)
          · exact hword hmem
          · exact hc heq
          · exact ih (fun word hword => hwords word (List.mem_cons_of_mem _ hword)) hmem

/-- The names of a condition are words. -/
def Cond.OneWord : Cond → Prop
  | .cmp col _ _ => ' ' ∉ col.toList
  | .isIn col _ => ' ' ∉ col.toList

theorem space_notMem_condWords {cond : Cond} (hcond : cond.OneWord) : ∀ word ∈ condWords cond, ' ' ∉ word := by
  cases cond with
  | cmp col op ref =>
      intro word hword
      rcases List.mem_cons.mp hword with rfl | hword
      · exact hcond
      rcases List.mem_cons.mp hword with rfl | hword
      · cases op <;> decide
      · rw [List.mem_singleton.mp hword]
        exact notMem_refChars (by decide) (by decide)
  | isIn col refs =>
      intro word hword
      rcases List.mem_cons.mp hword with rfl | hword
      · exact hcond
      rcases List.mem_cons.mp hword with rfl | hword
      · decide
      · rw [List.mem_singleton.mp hword, refsChars, List.mem_cons, List.mem_append, List.mem_singleton]
        rintro (heq | hmem | heq)
        · cases heq
        · refine notMem_intercalate (by decide) (fun part hpart => ?_) hmem
          obtain ⟨n, -, rfl⟩ := List.mem_map.mp hpart
          exact notMem_refChars (by decide) (by decide)
        · cases heq

theorem space_notMem_condsWords {conds : List Cond} (hconds : ∀ cond ∈ conds, cond.OneWord) :
    ∀ word ∈ condsWords conds, ' ' ∉ word := by
  induction conds with
  | nil => exact fun word hword => absurd hword List.not_mem_nil
  | cons cond conds ih =>
      have hfirst := space_notMem_condWords (hconds cond List.mem_cons_self)
      cases conds with
      | nil => exact hfirst
      | cons next conds =>
          intro word hword
          rw [condsWords, List.mem_append, List.mem_cons] at hword
          · rcases hword with hword | rfl | hword
            · exact hfirst word hword
            · decide
            · exact ih (fun cond hcond => hconds cond (List.mem_cons_of_mem _ hcond)) word hword
          · exact List.cons_ne_nil _ _

theorem space_notMem_selectWords {statement : Select} (htable : ' ' ∉ statement.table.toList)
    (hconds : ∀ cond ∈ statement.conds, cond.OneWord) : ∀ word ∈ selectWords statement, ' ' ∉ word := by
  intro word hword
  rw [selectWords, List.mem_append, List.mem_append] at hword
  rcases hword with hword | hword | hword
  · simp only [List.mem_cons, List.not_mem_nil, or_false] at hword
    rcases hword with rfl | rfl | rfl | rfl
    · decide
    · decide
    · decide
    · exact htable
  · split at hword
    · exact absurd hword List.not_mem_nil
    · rcases List.mem_cons.mp hword with rfl | hword
      · decide
      · exact space_notMem_condsWords hconds word hword
  · simp only [List.mem_cons, List.not_mem_nil, or_false] at hword
    rcases hword with rfl | rfl | rfl | rfl | rfl | rfl
    · decide
    · decide
    · decide
    · cases statement.order <;> decide
    · decide
    · exact notMem_refChars (by decide) (by decide)

/-- **Reading.** A text that is the words of a statement, one space apart, spells that statement. -/
theorem read_words {statement : Select} {text : String} (htext : text.toList = [' '].intercalate (selectWords statement))
    (htable : ' ' ∉ statement.table.toList) (hconds : ∀ cond ∈ statement.conds, cond.Written ∧ cond.OneWord) :
    read text = some statement := by
  unfold read
  rw [htext, List.splitOn_intercalate ' ' (space_notMem_selectWords htable fun cond hcond => (hconds cond hcond).2)
    (by unfold selectWords; exact List.cons_ne_nil _ _)]
  exact readWords_selectWords fun cond hcond => (hconds cond hcond).1

end Sql
