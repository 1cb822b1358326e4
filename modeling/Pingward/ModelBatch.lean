import Pingward.ModelKeyset

/-! The batched reads of the store: one query for the rows of many parents, regrouped by parent
(`list_checks_for_projects`, `list_recent_ping_summaries_for_checks`, `checks_with_channels` in src/store.rs). -/

namespace Pingward

/-! ### Regrouping -/

/-- `map.entry(key).or_default().push(value)`. -/
def pushEntry {τ : Type} (key : Int) (value : τ) : List (Int × List τ) → List (Int × List τ)
  | [] => [(key, [value])]
  | (other, values) :: rest =>
      if other = key then (other, values ++ [value]) :: rest else (other, values) :: pushEntry key value rest

/-- The rows in the order they come, under their keys. -/
def regroup {τ : Type} (key : τ → Int) (rows : List τ) : List (Int × List τ) :=
  rows.foldl (fun map row => pushEntry (key row) row map) []

/-! ### The queries -/

/-- The engines the store runs on. -/
inductive Engine where
  | sqlite
  | postgres
  deriving DecidableEq, Repr

/-- How many values one statement can bind. -/
def Engine.maxBinds : Engine → Nat
  | .sqlite => 32766
  | .postgres => 65535

/-- `fetch_all`: the rows of a statement, unless it binds more values than the engine takes. -/
def fetchAll {ρ : Type} (engine : Engine) (binds : List Sql.Value) (rows : List ρ) : Except StoreError (List ρ) :=
  if binds.length ≤ engine.maxBinds then .ok rows else .error .unavailable

/-- `value IN ($1,..,$n)`, the placeholders numbered from one to the count of the ids. -/
def inPlaceholders (ids : List Int) (binds : List Sql.Value) (value : Int) : Bool :=
  (List.range' 1 ids.length).any fun ref => Sql.compares .eq (some (.int value)) (Sql.bound binds ref)

section Order

variable {ρ : Type}

/-- `ROW_NUMBER() OVER (PARTITION BY part ORDER BY id DESC)`. -/
def rowNumber (id part : ρ → Int) (rows : List ρ) (row : ρ) : Nat :=
  (rows.countP fun other => part other = part row ∧ id row < id other) + 1

/-- `ORDER BY part, ..`. -/
def orderByPart (part : ρ → Int) (before : ρ → ρ → Bool) (rows : List ρ) : List ρ :=
  rows.mergeSort fun a b => part a < part b ∨ part a = part b ∧ before a b

end Order

def Ping.summary (row : Ping) : PingSummary := ⟨row.id, row.checkId, row.kind, row.createdAt⟩

namespace Batched

def listChecksForProjects (engine : Engine) (db : Db) (projectIds : List Int) :
    Except StoreError (List (Int × List Check)) :=
  if projectIds.isEmpty then .ok []
  else do
    let binds := projectIds.map Sql.Value.int
    let matching := db.checks.rows.filter fun row => inPlaceholders projectIds binds row.projectId
    let rows ← fetchAll engine binds (orderByPart Check.projectId (fun a b => a.id ≤ b.id) matching)
    return regroup Check.projectId rows

/-- The limit is bound behind the ids. -/
def listRecentPingSummariesForChecks (engine : Engine) (db : Db) (checkIds : List Int) (perCheckLimit : Int) :
    Except StoreError (List (Int × List PingSummary)) :=
  if checkIds.isEmpty then .ok []
  else do
    let binds := checkIds.map Sql.Value.int ++ [.int perCheckLimit]
    let sub := db.pings.rows.filter fun row => inPlaceholders checkIds binds row.checkId
    let matching := sub.filter fun row =>
      Sql.compares .le (some (.int (rowNumber Ping.id Ping.checkId sub row))) (Sql.bound binds (checkIds.length + 1))
    let rows ← fetchAll engine binds (orderByPart Ping.checkId (fun a b => b.id ≤ a.id) matching)
    return regroup PingSummary.checkId (rows.map Ping.summary)

def checksWithChannels (engine : Engine) (db : Db) (checkIds : List Int) : Except StoreError (List Int) :=
  if checkIds.isEmpty then .ok []
  else
    let binds := checkIds.map Sql.Value.int
    let matching := db.checkChannels.rows.filter fun row => inPlaceholders checkIds binds row.checkId
    fetchAll engine binds (matching.map Binding.checkId).dedup

end Batched

end Pingward
