import Pingward.ModelQuery

/-! The links of the history pages in src/web.rs: the pagers, the hidden fields and the clear links, with the tokens a
filter is written as. -/

namespace Pingward

open Calendar (Stamp digits dateText dateOf)

/-! ### Tokens -/

/-- Whole seconds, with a `Z`. -/
def stampToken (stamp : Stamp) : String :=
  String.ofList (dateText (dateOf stamp.day) ++
    'T' :: (digits 2 (stamp.minute / 60) ++ ':' :: (digits 2 (stamp.minute % 60) ++
      ':' :: (digits 2 stamp.secondOfMinute ++ ['Z']))))

def dateBoundToken (bound : Option Stamp) : String := (bound.map stampToken).getD ""

/-- The forms offer one value, so only the first is echoed back. -/
def firstToken {α : Type} (asToken : α → String) (values : List α) : String := (values.head?.map asToken).getD ""

/-! ### Links -/

structure HiddenField where
  name : String
  value : String
  deriving DecidableEq, Repr

/-- Empty values and the keys the form's own controls send are left out. -/
def carryFields (all : List (String × String)) (mine : List String) : List HiddenField :=
  (all.filter fun field => field.2 ≠ "" ∧ field.1 ∉ mine).map fun field => ⟨field.1, field.2⟩

/-- Parameters as they stand, the first behind a separator of its own. -/
def hrefFields (sep : String) : List (String × String) → String
  | [] => ""
  | field :: fields => sep ++ field.1 ++ "=" ++ field.2 ++ hrefFields "&" fields

def clearHref (path : String) (carry : List HiddenField) : String :=
  path ++ hrefFields "?" (carry.map fun field => (field.name, field.value))

/-- Nothing is encoded. -/
def historyHref (path : String) (cursor : String × Int) (carry : List (String × String)) : String :=
  path ++ hrefFields "?" ((cursor.1, i64ToString cursor.2) :: carry.filter fun field => field.2 ≠ "")

/-- The ids of the last and the first row, where there are rows beyond them. -/
def neighbourIds {ρ : Type} (page : Page ρ) (idOf : ρ → Int) : Option Int × Option Int :=
  let older := if page.hasOlder then page.items.getLast? else none
  let newer := if page.hasNewer then page.items.head? else none
  (older.map idOf, newer.map idOf)

/-! ### The fragments of a check page -/

/-- The check of a fragment, and whether it is shown under `/admin`. -/
structure PartialScope where
  checkId : Int
  admin : Bool
  deriving DecidableEq, Repr

def PartialScope.base (scope : PartialScope) : String := if scope.admin then "/admin" else ""

def PartialScope.endpoint (scope : PartialScope) (part : String) : String :=
  scope.base ++ "/checks/" ++ i64ToString scope.checkId ++ part

structure FilterTokens where
  fKind : String
  pFrom : String
  pTo : String
  fEvent : String
  fStatus : String
  nFrom : String
  nTo : String
  deriving DecidableEq, Repr

def checkPageFilterTokens (tokens : FilterTokens) : List (String × String) :=
  [("pk", tokens.fKind), ("pfrom", tokens.pFrom), ("pto", tokens.pTo), ("ne", tokens.fEvent), ("ns", tokens.fStatus),
    ("nfrom", tokens.nFrom), ("nto", tokens.nTo)]

/-- The keys of each section's own controls. -/
def pingsFilterKeys : List String := ["pk", "pfrom", "pto"]
def notifsFilterKeys : List String := ["ne", "ns", "nfrom", "nto"]

def History.PingFilter.isEmpty (filter : History.PingFilter) : Bool :=
  filter.kinds.isEmpty && filter.since.isNone && filter.until_.isNone

def History.NotifFilter.isEmpty (filter : History.NotifFilter) : Bool :=
  filter.events.isEmpty && filter.statuses.isEmpty && filter.since.isNone && filter.until_.isNone

def History.AuditFilter.isEmpty (filter : History.AuditFilter) : Bool :=
  filter.actor.isNone && filter.action.isNone && filter.since.isNone && filter.until_.isNone

/-- What a fragment shows of its filter and its links. -/
structure CheckPingsTemplate where
  fKind : String
  fFrom : String
  fTo : String
  filtered : Bool
  carry : List HiddenField
  clear : String
  newer : Option String
  older : Option String
  deriving DecidableEq, Repr

structure CheckNotifsTemplate where
  fEvent : String
  fStatus : String
  fFrom : String
  fTo : String
  filtered : Bool
  carry : List HiddenField
  clear : String
  newer : Option String
  older : Option String
  deriving DecidableEq, Repr

structure AdminAuditTemplate where
  fActor : String
  fAction : String
  fFrom : String
  fTo : String
  filtered : Bool
  newer : Option String
  older : Option String
  deriving DecidableEq, Repr

section Chrono

variable (dates : Chrono)

/-- The tokens of both filters of a check page. -/
def filterTokens (page : History.CheckPageQuery) : FilterTokens :=
  let pings := pingFilterFrom dates page
  let notifs := notifFilterFrom dates page
  ⟨firstToken PingKind.asStr pings.kinds, dateBoundToken pings.since, dateBoundToken pings.until_,
    firstToken EventKind.asStr notifs.events, firstToken NotifyStatus.asStr notifs.statuses,
    dateBoundToken notifs.since, dateBoundToken notifs.until_⟩

/-- The links of a page of pings, which was read with the filter and the cursor of the query. -/
def History.buildPingsPartial (scope : PartialScope) (page : History.CheckPageQuery) (pingPage : Page Ping) :
    CheckPingsTemplate :=
  let filter := pingFilterFrom dates page
  let tokens := filterTokens dates page
  let carry := [("pk", tokens.fKind), ("pfrom", tokens.pFrom), ("pto", tokens.pTo)]
  let endpoint := scope.endpoint "/pings"
  let neighbours := neighbourIds pingPage Ping.id
  let hidden := carryFields (checkPageFilterTokens tokens) pingsFilterKeys
  ⟨tokens.fKind, tokens.pFrom, tokens.pTo, !filter.isEmpty, hidden, clearHref endpoint hidden,
    neighbours.2.map fun id => historyHref endpoint ("pa", id) carry,
    neighbours.1.map fun id => historyHref endpoint ("pb", id) carry⟩

def History.buildNotifsPartial (scope : PartialScope) (page : History.CheckPageQuery) (notifPage : Page Notification) :
    CheckNotifsTemplate :=
  let filter := notifFilterFrom dates page
  let tokens := filterTokens dates page
  let carry := [("ne", tokens.fEvent), ("ns", tokens.fStatus), ("nfrom", tokens.nFrom), ("nto", tokens.nTo)]
  let endpoint := scope.endpoint "/notifications"
  let neighbours := neighbourIds notifPage Notification.id
  let hidden := carryFields (checkPageFilterTokens tokens) notifsFilterKeys
  ⟨tokens.fEvent, tokens.fStatus, tokens.nFrom, tokens.nTo, !filter.isEmpty, hidden, clearHref endpoint hidden,
    neighbours.2.map fun id => historyHref endpoint ("na", id) carry,
    neighbours.1.map fun id => historyHref endpoint ("nb", id) carry⟩

/-! ### The audit trail -/

def History.buildAuditPartial (q : History.AdminAuditQuery) (page : Page AuditLog) : AdminAuditTemplate :=
  let filter := auditFilterFrom dates q
  let fActor := filter.actor.getD ""
  let fAction := filter.action.getD ""
  let fFrom := dateBoundToken filter.since
  let fTo := dateBoundToken filter.until_
  let carry := [("aactor", fActor), ("aaction", fAction), ("afrom", fFrom), ("ato", fTo)]
  let neighbours := neighbourIds page AuditLog.id
  ⟨fActor, fAction, fFrom, fTo, !filter.isEmpty,
    neighbours.2.map fun id => historyHref "/admin/audit" ("aa", id) carry,
    neighbours.1.map fun id => historyHref "/admin/audit" ("ab", id) carry⟩

end Chrono

end Pingward
