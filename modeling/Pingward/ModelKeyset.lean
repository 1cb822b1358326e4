import Pingward.ModelSession
import Pingward.SqlBasic

/-! The statement behind a history page (`keyset_sql`, `keyset_rows_to_page` in src/store.rs). Its text and its values
grow together: a placeholder is numbered by the count of the values bound so far. -/

namespace Pingward

/-- A sum of two `i64`, which wraps in a release build. -/
def addI64 (a b : Int) : Int := (a + b).bmod (2 ^ 64)

/-- Column and operator are literals of the program, the values are bound; the filters never build an empty list. -/
inductive Predicate where
  | textCmp (col : Sql.Name) (op : Sql.Op) (value : String)
  | textIn (col : Sql.Name) (values : List String) (hne : values ≠ [])

structure KeysetQuery (ρ τ ε : Type) where
  table : Sql.Name
  scope : Option (Sql.Name × Int)
  cursor : PageCursor
  limit : Int
  filters : List Predicate
  rowTo : ρ → Except ε τ

/-! ### The statement -/

/-- The conditions written and the values bound so far. -/
structure Clauses where
  conds : List String
  binds : List Sql.Value

/-- A value is bound and compared with a column. -/
def Clauses.compare (clauses : Clauses) (col op : String) (value : Sql.Value) : Clauses :=
  let binds := clauses.binds ++ [value]
  ⟨clauses.conds ++ [s!"{col} {op} ${binds.length}"], binds⟩

/-- Values bound one by one, and their placeholders. -/
def placeholders (binds : List Sql.Value) : List String → List String × List Sql.Value
  | [] => ([], binds)
  | value :: values =>
      let binds := binds ++ [.text value]
      let rest := placeholders binds values
      (s!"${binds.length}" :: rest.1, rest.2)

def Clauses.filter (clauses : Clauses) : Predicate → Clauses
  | .textCmp col op value => clauses.compare col.text op.symbol (.text value)
  | .textIn col values _ =>
      let bound := placeholders clauses.binds values
      let list := ",".intercalate bound.1
      ⟨clauses.conds ++ [s!"{col.text} IN ({list})"], bound.2⟩

def Clauses.scope (clauses : Clauses) : Option (Sql.Name × Int) → Clauses
  | some (col, id) => clauses.compare col.text "=" (.int id)
  | none => clauses

/-- The cursor's condition and the order it asks for. -/
def Clauses.cursor (clauses : Clauses) : PageCursor → Clauses × String
  | .latest => (clauses, "DESC")
  | .before id => (clauses.compare "id" "<" (.int id), "DESC")
  | .after id => (clauses.compare "id" ">" (.int id), "ASC")

/-- The statement around its conditions. -/
def selectText (table whereClause order : String) (limit : Nat) : String :=
  s!"SELECT * FROM {table}{whereClause} ORDER BY id {order} LIMIT ${limit}"

section Query

variable {ρ τ ε : Type}

def keysetSql (query : KeysetQuery ρ τ ε) : String × List Sql.Value :=
  let filtered := query.filters.foldl Clauses.filter (Clauses.scope ⟨[], []⟩ query.scope)
  let clauses := (filtered.cursor query.cursor).1
  let order := (filtered.cursor query.cursor).2
  let binds := clauses.binds ++ [.int (addI64 query.limit 1)]
  let conjunction := " AND ".intercalate clauses.conds
  let whereClause := if clauses.conds.isEmpty then "" else s!" WHERE {conjunction}"
  (selectText query.table.text whereClause order binds.length, binds)

/-- One row more than the limit was fetched, to see whether another page follows. -/
def keysetRowsToPage (rows : List ρ) (query : KeysetQuery ρ τ ε) : Except ε (Page τ) :=
  let overflowed : Bool := query.limit < rows.length
  match query.cursor with
  | .after _ => do
      let items ← (if overflowed then rows.dropLast else rows).mapM query.rowTo
      return ⟨items.reverse, overflowed, true⟩
  | .before _ => do
      let items ← (rows.take query.limit.toNat).mapM query.rowTo
      return ⟨items, true, overflowed⟩
  | .latest => do
      let items ← (rows.take query.limit.toNat).mapM query.rowTo
      return ⟨items, false, overflowed⟩

end Query

/-! ### The filters -/

def kindColumn : Sql.Name := ⟨"kind", List.all_iff_forall_prop.mp (by decide)⟩
def eventColumn : Sql.Name := ⟨"event", List.all_iff_forall_prop.mp (by decide)⟩
def statusColumn : Sql.Name := ⟨"status", List.all_iff_forall_prop.mp (by decide)⟩
def createdAtColumn : Sql.Name := ⟨"created_at", List.all_iff_forall_prop.mp (by decide)⟩
def actorColumn : Sql.Name := ⟨"actor_username", List.all_iff_forall_prop.mp (by decide)⟩
def actionColumn : Sql.Name := ⟨"action", List.all_iff_forall_prop.mp (by decide)⟩
def checkIdColumn : Sql.Name := ⟨"check_id", List.all_iff_forall_prop.mp (by decide)⟩

/-- A column in a list of texts, no condition where the list is empty. -/
def inPredicate (col : Sql.Name) (values : List String) : List Predicate :=
  if hne : values ≠ [] then [.textIn col values hne] else []

/-- A column compared with a text, no condition where there is none. -/
def cmpPredicate (col : Sql.Name) (op : Sql.Op) (value : Option String) : List Predicate :=
  (value.map (.textCmp col op)).toList

/-- The date bounds, as the texts they are bound as. -/
def datePredicates (since until_ : Option String) : List Predicate :=
  cmpPredicate createdAtColumn .ge since ++ cmpPredicate createdAtColumn .le until_

def PingKind.asStr : PingKind → String
  | .success => "success"
  | .fail => "fail"
  | .start => "start"
  | .log => "log"
  | .exitcode => "exitcode"

def EventKind.asStr : EventKind → String
  | .down => "down"
  | .up => "up"
  | .reminder => "reminder"
  | .test => "test"

def NotifyStatus.asStr : NotifyStatus → String
  | .ok => "ok"
  | .error => "error"

def pingPredicates (kinds : List PingKind) (since until_ : Option String) : List Predicate :=
  inPredicate kindColumn (kinds.map PingKind.asStr) ++ datePredicates since until_

def notifPredicates (events : List EventKind) (statuses : List NotifyStatus) (since until_ : Option String) :
    List Predicate :=
  inPredicate eventColumn (events.map EventKind.asStr) ++ inPredicate statusColumn (statuses.map NotifyStatus.asStr) ++
    datePredicates since until_

def auditPredicates (actor action since until_ : Option String) : List Predicate :=
  cmpPredicate actorColumn .eq actor ++ cmpPredicate actionColumn .eq action ++ datePredicates since until_

/-! ### The pages of the store -/

def optionText (text : Option String) : Option Sql.Value := text.map .text
def optionInt (n : Option Int) : Option Sql.Value := n.map .int

/-- The columns of `pings`. -/
def pingTable (rows : List Ping) : Sql.Relation Ping where
  rows := rows
  id := Ping.id
  cell row
    | "id" => some (.int row.id)
    | "check_id" => some (.int row.checkId)
    | "kind" => some (.text row.kind.asStr)
    | "exit_code" => optionInt row.exitCode
    | "body" => some (.text row.body)
    | "source_ip" => optionText row.sourceIp
    | "created_at" => some (.text (toRfc3339 row.createdAt))
    | _ => none
  cell_id _ := rfl

/-- The columns of `notifications`. -/
def notificationTable (rows : List Notification) : Sql.Relation Notification where
  rows := rows
  id := Notification.id
  cell row
    | "id" => some (.int row.id)
    | "check_id" => some (.int row.checkId)
    | "channel_id" => some (.int row.channelId)
    | "event" => some (.text row.event.asStr)
    | "status" => some (.text row.status.asStr)
    | "error" => optionText row.error
    | "created_at" => some (.text (toRfc3339 row.createdAt))
    | _ => none
  cell_id _ := rfl

/-- The columns of `audit_log`. -/
def auditTable (rows : List AuditLog) : Sql.Relation AuditLog where
  rows := rows
  id := AuditLog.id
  cell row
    | "id" => some (.int row.id)
    | "actor_user_id" => some (.int row.actorUserId)
    | "actor_username" => some (.text row.actorUsername)
    | "action" => some (.text row.action)
    | "target_type" => optionText row.targetType
    | "target_id" => optionInt row.targetId
    | "target_owner_id" => optionInt row.targetOwnerId
    | "method" => optionText row.method
    | "path" => optionText row.path
    | "detail" => optionText row.detail
    | "created_at" => some (.text (toRfc3339 row.createdAt))
    | _ => none
  cell_id _ := rfl

/-- `list_pings_page`, whose rows always decode. -/
def pingsQuery (checkId : Int) (cursor : PageCursor) (limit : Int) (filters : List Predicate) :
    KeysetQuery Ping Ping StoreError :=
  ⟨⟨"pings", List.all_iff_forall_prop.mp (by decide)⟩, some (checkIdColumn, checkId), cursor, limit, filters, .ok⟩

/-- `list_notifications_page`. -/
def notificationsQuery (checkId : Int) (cursor : PageCursor) (limit : Int) (filters : List Predicate) :
    KeysetQuery Notification Notification StoreError :=
  ⟨⟨"notifications", List.all_iff_forall_prop.mp (by decide)⟩, some (checkIdColumn, checkId), cursor, limit, filters, .ok⟩

/-- `list_audit_page`. -/
def auditQuery (cursor : PageCursor) (limit : Int) (filters : List Predicate) :
    KeysetQuery AuditLog AuditLog StoreError :=
  ⟨⟨"audit_log", List.all_iff_forall_prop.mp (by decide)⟩, none, cursor, limit, filters, .ok⟩

def PingFilter.predicates (filter : PingFilter) : List Predicate :=
  pingPredicates filter.kinds (filter.since.map toRfc3339) (filter.until_.map toRfc3339)

def NotifFilter.predicates (filter : NotifFilter) : List Predicate :=
  notifPredicates filter.events filter.statuses (filter.since.map toRfc3339) (filter.until_.map toRfc3339)

end Pingward
