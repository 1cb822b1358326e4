import Pingward.ModelChrono
import Pingward.ModelKeyset

/-! The history pages of src/web.rs from their query parameters to the statement: the filters as the parameters give
them, whose date bounds are what a date reader returns, and the page behind them. -/

namespace Pingward

open Calendar (Stamp)

def PingKind.fromStr : String → Except String PingKind :=
  strEnumFromStr "PingKind"
    [("success", .success), ("fail", .fail), ("start", .start), ("log", .log), ("exitcode", .exitcode)]

def EventKind.fromStr : String → Except String EventKind :=
  strEnumFromStr "EventKind" [("down", .down), ("up", .up), ("reminder", .reminder), ("test", .test)]

def NotifyStatus.fromStr : String → Except String NotifyStatus :=
  strEnumFromStr "NotifyStatus" [("ok", .ok), ("error", .error)]

/-! ### The parameters -/

/-- A parameter that is there and not blank, trimmed. -/
def presentText (v : Option String) : Option String := (v.map trim).filter (· ≠ "")

/-- An unknown text is no choice. -/
def parseFilterEnum {α : Type} (fromStr : String → Except String α) (v : Option String) : List α :=
  ((presentText v).bind fun s => (fromStr s).toOption).toList

def parseFilterText (v : Option String) : Option String := presentText v

/-- RFC 3339, or a date and a time read in UTC. -/
def parseDateBound (dates : Chrono) (v : Option String) : Option Stamp :=
  (presentText v).bind fun s =>
    (dates.parseRfc3339 s).or
      ((dates.parseNaive s "%Y-%m-%dT%H:%M:%S").or (dates.parseNaive s "%Y-%m-%dT%H:%M"))

namespace History

/-- The pings half has the parameters `p`, the notifications half the parameters `n`. -/
structure CheckPageQuery where
  pb : Option Int
  pa : Option Int
  nb : Option Int
  na : Option Int
  pk : Option String
  pfrom : Option String
  pto : Option String
  ne : Option String
  ns : Option String
  nfrom : Option String
  nto : Option String
  deriving DecidableEq, Repr

structure AdminAuditQuery where
  ab : Option Int
  aa : Option Int
  aactor : Option String
  aaction : Option String
  afrom : Option String
  ato : Option String
  deriving DecidableEq, Repr

end History

/-- `before` wins when both are set. -/
def pageCursor (before after : Option Int) : PageCursor :=
  match before, after with
  | some b, _ => .before b
  | none, some a => .after a
  | none, none => .latest

/-! ### The filters -/

/-- The page size of every history. -/
def historyLimit : Int := 20

namespace History

structure PingFilter where
  kinds : List PingKind
  since : Option Stamp
  until_ : Option Stamp
  deriving DecidableEq

structure NotifFilter where
  events : List EventKind
  statuses : List NotifyStatus
  since : Option Stamp
  until_ : Option Stamp
  deriving DecidableEq

structure AuditFilter where
  actor : Option String
  action : Option String
  since : Option Stamp
  until_ : Option Stamp
  deriving DecidableEq

def PingFilter.predicates (filter : PingFilter) : List Predicate :=
  pingPredicates filter.kinds (filter.since.map Stamp.text) (filter.until_.map Stamp.text)

def NotifFilter.predicates (filter : NotifFilter) : List Predicate :=
  notifPredicates filter.events filter.statuses (filter.since.map Stamp.text) (filter.until_.map Stamp.text)

def AuditFilter.predicates (filter : AuditFilter) : List Predicate :=
  auditPredicates filter.actor filter.action (filter.since.map Stamp.text) (filter.until_.map Stamp.text)

end History

section Chrono

variable (dates : Chrono)

def pingFilterFrom (page : History.CheckPageQuery) : History.PingFilter :=
  ⟨parseFilterEnum PingKind.fromStr page.pk, parseDateBound dates page.pfrom, parseDateBound dates page.pto⟩

def notifFilterFrom (page : History.CheckPageQuery) : History.NotifFilter :=
  ⟨parseFilterEnum EventKind.fromStr page.ne, parseFilterEnum NotifyStatus.fromStr page.ns,
    parseDateBound dates page.nfrom, parseDateBound dates page.nto⟩

/-- The filter at the start of `build_audit_partial`. -/
def auditFilterFrom (q : History.AdminAuditQuery) : History.AuditFilter :=
  ⟨parseFilterText q.aactor, parseFilterText q.aaction, parseDateBound dates q.afrom, parseDateBound dates q.ato⟩

end Chrono

/-! ### The pages -/

/-- `keyset_page`: the statement is run on its table, and the page is made of the rows it selects. -/
def runKeyset {ρ τ ε : Type} (query : KeysetQuery ρ τ ε) (table : Sql.Relation ρ) : Option (Except ε (Page τ)) :=
  (Sql.read (keysetSql query).1).map fun statement =>
    keysetRowsToPage (statement.eval table (keysetSql query).2) query

namespace History

def PingFilter.query (filter : PingFilter) (checkId : Int) (cursor : PageCursor) (limit : Int) :
    KeysetQuery Ping Ping StoreError := pingsQuery checkId cursor limit filter.predicates

def NotifFilter.query (filter : NotifFilter) (checkId : Int) (cursor : PageCursor) (limit : Int) :
    KeysetQuery Notification Notification StoreError := notificationsQuery checkId cursor limit filter.predicates

def AuditFilter.query (filter : AuditFilter) (cursor : PageCursor) (limit : Int) :
    KeysetQuery AuditLog AuditLog StoreError := auditQuery cursor limit filter.predicates

end History

end Pingward
