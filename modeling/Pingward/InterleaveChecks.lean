import Pingward.ProgramSerial
import Pingward.RowRequest

/-! Pings, scans, pauses and resumes of one check, interleaved call by call. A ping and a scan decide on
the row as they read it and write later without looking again, so an interleaving need not be a serial
order; it is one as long as nobody else writes the row in between. -/

open KeyedTable StoreProgram

namespace Pingward

/-! ### Requests -/

/-- Where a pause or a resume comes in, its user signed in already. -/
inductive Surface where
  | web
  | admin (ctx : WebContext)
  | api (ctx : ApiContext)

inductive CheckRequest where
  | ping (kind : PingKind) (exitCode : Option Int) (body : List UInt8) (clientIp : Option String) (now : Instant)
  | scan (now : Instant) (baseUrl : String)
  | pause (surface : Surface) (user : User)
  | resume (surface : Surface) (user : User)

def Surface.pause (user : User) (cid : Int) : Surface → StoreProg Unit Unit
  | .web => (checkPause user cid).erase
  | .admin ctx => (adminCheckPause ctx user cid).erase
  | .api ctx => (V1.pauseCheck ctx user cid).erase

def Surface.resume (user : User) (cid : Int) : Surface → StoreProg Unit Unit
  | .web => (checkResume user cid).erase
  | .admin ctx => (adminCheckResume ctx user cid).erase
  | .api ctx => (V1.resumeCheck ctx user cid).erase

/-- The program of a request on the check `cid`, whose pings come in under `uuid`. -/
def CheckRequest.program (X : Crates) (cid : Int) (uuid : String) : CheckRequest → StoreProg Unit Unit
  | .ping kind exitCode body clientIp now => (apply X ⟨uuid, kind, exitCode, body, clientIp⟩ now).erase
  | .scan now baseUrl => (scanPass X now baseUrl).erase
  | .pause surface user => surface.pause user cid
  | .resume surface user => surface.resume user cid

/-- What the request writes depends on the row it has read. -/
def CheckRequest.decides : CheckRequest → Bool
  | .ping .. => true
  | .scan .. => true
  | _ => false

/-! ### The row as a cell -/

/-- No deadline of the check leaves chrono's range. -/
def Check.computes (X : Crates) (check : Check) : Bool :=
  (dueTime X check).toOption.isSome && (overrunTime check).toOption.isSome

/-- How a call meets the row of `cid`. A scan writes the rows of other checks too, those whose deadlines
it could compute. -/
def rowRole (X : Crates) (start : Db) (cid : Int) : StoreCall → Option Role
  | .findCheckByUuid _ | .listActiveChecks => some .reads
  | .findCheck _ | .findProject _ | .getSetting _ | .allProjectNames | .insertPing _ _ | .recordAudit _ _ => some .quiet
  | .markPing id _ | .clearNag id => if id = cid then some .writes else none
  | .setStatus id status =>
      if id = cid then some .writes
      else if status = .down ∧ (start.findCheck id).all (·.computes X) then some .quiet else none
  | .beginDownAlert id _ =>
      if id = cid then some .writes else if (start.findCheck id).all (·.computes X) then some .quiet else none
  | _ => none

def rowEffect : StoreCall → Option Check → Option Check
  | .markPing _ mark, row => row.map mark.apply
  | .setStatus _ status, row => row.map fun check => { check with status := status }
  | .beginDownAlert _ at_, row => row.map fun check => check.alerted at_
  | .clearNag _, row => row.map Check.cleared
  | _, row => row

/-- The databases of a run: the check is there, and a check whose deadlines leave the range, which every
scan panics on, is as it was. -/
structure Steady (X : Crates) (start : Db) (cid : Int) (uuid : String) (db : Db) : Prop where
  row : ∃ check, db.findCheck cid = some check ∧ db.findCheckByUuid uuid = some check
  project : (db.findCheck cid).map Check.projectId = (start.findCheck cid).map Check.projectId
  projects : db.projects = start.projects
  others : ∀ id row, id ≠ cid → db.findCheck id = some row → ∃ first, start.findCheck id = some first ∧
    row.computes X = first.computes X ∧ (row.isActive = true → first.isActive = true)
  broken : ∀ id first, id ≠ cid → start.findCheck id = some first → first.isActive = true →
    first.computes X = false → db.findCheck id = some first

namespace Steady

variable {X : Crates} {start db db' : Db} {cid : Int} {uuid : String}

theorem congr (hsteady : Steady X start cid uuid db) (hchecks : db'.checks = db.checks)
    (hprojects : db'.projects = db.projects) : Steady X start cid uuid db' := by
  have hfind : ∀ id, db'.findCheck id = db.findCheck id := fun id => by rw [Db.findCheck, hchecks, Db.findCheck]
  have huuid : db'.findCheckByUuid uuid = db.findCheckByUuid uuid := by
    rw [Db.findCheckByUuid, hchecks, Db.findCheckByUuid]
  refine ⟨?_, ?_, hprojects.trans hsteady.projects, ?_, ?_⟩
  · rw [hfind, huuid]
    exact hsteady.row
  · rw [hfind]
    exact hsteady.project
  · intro id row
    rw [hfind]
    exact hsteady.others id row
  · intro id first
    rw [hfind]
    exact hsteady.broken id first

/-- A write of the check's own row. -/
theorem update_self (hsteady : Steady X start cid uuid db) {f : Check → Check} (hid : ∀ row, (f row).id = row.id)
    (huuid : ∀ row, (f row).pingUuid = row.pingUuid) (hproject : ∀ row, (f row).projectId = row.projectId) :
    Steady X start cid uuid (db.updateCheck cid f hid) := by
  obtain ⟨check, hrow, hfound⟩ := hsteady.row
  have hkey : check.id = cid := Table.find_key _ hrow
  refine ⟨⟨f check, ?_, ?_⟩, ?_, hsteady.projects, ?_, ?_⟩
  · rw [findCheck_updateCheck_self, hrow]
    rfl
  · rw [findCheckByUuid_updateCheck db cid uuid hid huuid, hfound, Option.map_some, if_pos hkey]
  · rw [findCheck_updateCheck_self, ← hsteady.project, Option.map_map]
    exact congrArg (Option.map · _) (funext hproject)
  · intro id row hne hrow
    rw [findCheck_updateCheck_of_ne db hne] at hrow
    exact hsteady.others id row hne hrow
  · intro id first hne hfirst hactive hbroken
    rw [findCheck_updateCheck_of_ne db hne]
    exact hsteady.broken id first hne hfirst hactive hbroken

/-- A write of another row whose deadlines are in range. -/
theorem update_other (hsteady : Steady X start cid uuid db) {id : Int} (hne : id ≠ cid)
    (hgood : (start.findCheck id).all (·.computes X) = true) {f : Check → Check} (hid : ∀ row, (f row).id = row.id)
    (huuid : ∀ row, (f row).pingUuid = row.pingUuid) (hcomputes : ∀ row, (f row).computes X = row.computes X)
    (hactive : ∀ row, (f row).isActive = true → row.isActive = true) :
    Steady X start cid uuid (db.updateCheck id f hid) := by
  obtain ⟨check, hrow, hfound⟩ := hsteady.row
  have hkey : check.id ≠ id := by
    rw [show check.id = cid from Table.find_key _ hrow]
    exact hne.symm
  have hself : (db.updateCheck id f hid).findCheck cid = db.findCheck cid :=
    findCheck_updateCheck_of_ne db hne.symm f hid
  refine ⟨⟨check, ?_, ?_⟩, ?_, hsteady.projects, ?_, ?_⟩
  · rw [hself, hrow]
  · rw [findCheckByUuid_updateCheck db id uuid hid huuid, hfound, Option.map_some, if_neg hkey]
  · rw [hself]
    exact hsteady.project
  · intro other row hother hrow
    by_cases heq : other = id
    · subst heq
      rw [findCheck_updateCheck_self, Option.map_eq_some_iff] at hrow
      obtain ⟨before, hbefore, rfl⟩ := hrow
      obtain ⟨first, hfirst, hsame, hactive'⟩ := hsteady.others other before hother hbefore
      exact ⟨first, hfirst, (hcomputes before).trans hsame, fun h => hactive' (hactive before h)⟩
    · rw [findCheck_updateCheck_of_ne db heq] at hrow
      exact hsteady.others other row hother hrow
  · intro other first hother hfirst hactive' hbroken
    have heq : other ≠ id := by
      rintro rfl
      rw [hfirst, Option.all_some, hbroken] at hgood
      cases hgood
    rw [findCheck_updateCheck_of_ne db heq]
    exact hsteady.broken other first hother hfirst hactive' hbroken

end Steady

theorem steady_start {X : Crates} {start : Db} {cid : Int} {uuid : String} {check : Check}
    (hrow : start.findCheck cid = some check) (hfound : start.findCheckByUuid uuid = some check) :
    Steady X start cid uuid start :=
  ⟨⟨check, hrow, hfound⟩, rfl, rfl, fun _ row _ hrow => ⟨row, hrow, rfl, id⟩, fun _ _ _ hfirst _ _ => hfirst⟩

/-- The calls with a role write the row of the check, or a good row of another, or no row. -/
theorem rowRole_cases {X : Crates} {start : Db} {cid : Int} {c : StoreCall} {r : Role}
    (hrole : rowRole X start cid c = some r) :
    (TableName.checks ∉ c.writes ∧ TableName.projects ∉ c.writes ∧ r ≠ .writes) ∨
      (r = .writes ∧ ((∃ mark, c = .markPing cid mark) ∨ c = .clearNag cid ∨ (∃ status, c = .setStatus cid status) ∨
        ∃ at_, c = .beginDownAlert cid at_)) ∨
      (r = .quiet ∧ ∃ id, id ≠ cid ∧ (start.findCheck id).all (·.computes X) = true ∧
        (c = .setStatus id .down ∨ ∃ at_, c = .beginDownAlert id at_)) := by
  cases c
  case markPing id mark =>
    simp only [rowRole, Option.ite_none_right_eq_some, Option.some.injEq] at hrole
    obtain ⟨rfl, rfl⟩ := hrole
    exact Or.inr (Or.inl ⟨rfl, Or.inl ⟨mark, rfl⟩⟩)
  case clearNag id =>
    simp only [rowRole, Option.ite_none_right_eq_some, Option.some.injEq] at hrole
    obtain ⟨rfl, rfl⟩ := hrole
    exact Or.inr (Or.inl ⟨rfl, Or.inr (Or.inl rfl)⟩)
  case setStatus id status =>
    simp only [rowRole] at hrole
    split at hrole
    · rename_i hid
      cases hrole
      exact Or.inr (Or.inl ⟨rfl, Or.inr (Or.inr (Or.inl ⟨status, by rw [hid]⟩))⟩)
    · rename_i hid
      simp only [Option.ite_none_right_eq_some, Option.some.injEq] at hrole
      obtain ⟨⟨rfl, hgood⟩, rfl⟩ := hrole
      exact Or.inr (Or.inr ⟨rfl, id, hid, hgood, Or.inl rfl⟩)
  case beginDownAlert id at_ =>
    simp only [rowRole] at hrole
    split at hrole
    · rename_i hid
      cases hrole
      exact Or.inr (Or.inl ⟨rfl, Or.inr (Or.inr (Or.inr ⟨at_, by rw [hid]⟩))⟩)
    · rename_i hid
      simp only [Option.ite_none_right_eq_some, Option.some.injEq] at hrole
      obtain ⟨hgood, rfl⟩ := hrole
      exact Or.inr (Or.inr ⟨rfl, id, hid, hgood, Or.inr ⟨at_, rfl⟩⟩)
  all_goals
    cases hrole <;> exact Or.inl ⟨by simp [StoreCall.writes], by simp [StoreCall.writes], by simp⟩

section Cell

variable {X : Crates} {start db : Db} {cid : Int} {uuid : String} {c : StoreCall}

theorem exec_steady {r : Role} (hrole : rowRole X start cid c = some r) (hsteady : Steady X start cid uuid db) :
    Steady X start cid uuid (exec c db).2 := by
  rcases rowRole_cases hrole with ⟨hchecks, hprojects, _⟩ | ⟨_, hwrite⟩ | ⟨_, id, hne, hgood, hwrite⟩
  · exact hsteady.congr (exec_checks hchecks db) (exec_frame hprojects db)
  · rcases hwrite with ⟨mark, rfl⟩ | rfl | ⟨status, rfl⟩ | ⟨at_, rfl⟩ <;>
      exact hsteady.update_self _ (fun _ => rfl) fun _ => rfl
  · rcases hwrite with rfl | ⟨at_, rfl⟩
    · refine hsteady.update_other hne hgood _ (fun _ => rfl) (fun _ => rfl) fun _ hactive => ?_
      cases hactive
    · exact hsteady.update_other hne hgood _ (fun _ => rfl) (fun _ => rfl) fun _ hactive => hactive

theorem findCheck_write (hrole : rowRole X start cid c = some .writes) :
    (exec c db).2.findCheck cid = rowEffect c (db.findCheck cid) := by
  rcases rowRole_cases hrole with ⟨_, _, hwrites⟩ | ⟨_, hwrite⟩ | ⟨hquiet, _⟩
  · exact absurd rfl hwrites
  · rcases hwrite with ⟨mark, rfl⟩ | rfl | ⟨status, rfl⟩ | ⟨at_, rfl⟩ <;>
      exact findCheck_updateCheck_self db cid _ _
  · cases hquiet

theorem findCheck_quiet (hrole : rowRole X start cid c = some .quiet ∨ rowRole X start cid c = some .reads) :
    (exec c db).2.findCheck cid = db.findCheck cid := by
  obtain ⟨r, hr, hrole⟩ : ∃ r, r ≠ Role.writes ∧ rowRole X start cid c = some r := by
    rcases hrole with hrole | hrole
    · exact ⟨_, by simp, hrole⟩
    · exact ⟨_, by simp, hrole⟩
  rcases rowRole_cases hrole with ⟨hchecks, _⟩ | ⟨hwrites, _⟩ | ⟨_, id, hne, _, hwrite⟩
  · rw [Db.findCheck, exec_checks hchecks db, Db.findCheck]
  · exact absurd hwrites hr
  · rcases hwrite with rfl | ⟨at_, rfl⟩ <;> exact findCheck_updateCheck_of_ne db hne.symm _ _

end Cell

/-- The row of `cid` as a cell of the store. What is shown of an event is what the log keeps of it. -/
def rowCell (X : Crates) (start : Db) (cid : Int) (uuid : String) : Cell exec (Option Check) Spawned Item where
  view db := db.findCheck cid
  Fits := Steady X start cid uuid
  role := rowRole X start cid
  effect := rowEffect
  shown event := if event.checkId = cid then some (eventEntry event).2 else none
  fits := exec_steady
  view_write hrole _ := findCheck_write hrole
  view_same hrole _ := findCheck_quiet hrole

/-! ### Plans -/

/-- What the requests make of the row they read; `none` is a panic. -/
abbrev RowPlan := Option Check → Option (Plan StoreCall Item)

/-- The ping panics on the row. -/
def pingPanics (X : Crates) (kind : PingKind) (now : Instant) (check : Check) : Bool :=
  match kind with
  | .success => (dueTime X { check with lastPingAt := some now }).toOption.isNone
  | .exitcode => true
  | _ => false

def pingPlan (X : Crates) (cid : Int) (kind : PingKind) (exitCode : Option Int) (now : Instant) : RowPlan := fun row =>
  row.bind fun check =>
    if check.status = .paused then some ([], [])
    else if pingPanics X kind now check then none
    else some (((PingMark.ofPing X check now kind).map (.markPing cid)).toList ++
        ((pingAlert kind check.status).map (alertCall cid now)).toList,
      ((pingAlert kind check.status).map fun event => Item.alert event now (RowInput.pingCause exitCode event)).toList)

/-- Another active check has a deadline out of range. -/
def Blocked (X : Crates) (start : Db) (cid : Int) : Prop :=
  ∃ id first, id ≠ cid ∧ start.findCheck id = some first ∧ first.isActive = true ∧ first.computes X = false

open Classical in
noncomputable def scanPlan (X : Crates) (start : Db) (cid : Int) (now : Instant) : RowPlan := fun row =>
  row.bind fun check =>
    if Blocked X start cid ∨ (check.isActive = true ∧ check.computes X = false) then none
    else some (if check.isDowned X now then ([.setStatus cid .down, .beginDownAlert cid now],
        [.alert .down now (some (downCause (check.isOverrun now) check))]) else ([], []))

/-- The owner of the check's project. -/
def Db.checkOwner (db : Db) (cid : Int) : Option Int :=
  ((db.findCheck cid).bind fun check => db.findProject check.projectId).map Project.userId

/-- The user may act on the check. -/
def Surface.permits (owner : Option Int) (user : User) : Surface → Bool
  | .web => owner = some user.id
  | .admin _ => true
  | .api _ => owner = some user.id || user.isAdmin

def statusPlan (cid : Int) (permitted : Bool) (status : CheckStatus) : RowPlan := fun _ =>
  some (if permitted then [.setStatus cid status] else [], [])

noncomputable def CheckRequest.plan (X : Crates) (start : Db) (cid : Int) : CheckRequest → RowPlan
  | .ping kind exitCode _ _ now => pingPlan X cid kind exitCode now
  | .scan now _ => scanPlan X start cid now
  | .pause surface user => statusPlan cid (surface.permits (start.checkOwner cid) user) .paused
  | .resume surface user => statusPlan cid (surface.permits (start.checkOwner cid) user) .new

/-! ### A ping -/

section Ping

variable {X : Crates} {start : Db} {cid : Int} {uuid : String} {kind : PingKind} {exitCode : Option Int} {now : Instant}

theorem applyKind_panics_iff {check : Check} :
    applyKind X check kind exitCode now = .panic ↔ pingPanics X kind now check = true := by
  cases kind with
  | success =>
      cases hdue : dueTime X { check with lastPingAt := some now } with
      | error panic => simp [applyKind, pingPanics, hdue, Except.toOption]
      | ok due => simp [applyKind, pingPanics, hdue, Except.toOption, store, Prog.perform]
  | fail => simp [applyKind, pingPanics, store, Prog.perform]
  | start => simp [applyKind, pingPanics, store, Prog.perform]
  | log => simp [applyKind, pingPanics]
  | exitcode => simp [applyKind, pingPanics]

theorem alertTail_does {check : Check} (hid : check.id = cid) :
    (rowCell X start cid uuid).Does (alertTail check kind exitCode now)
      ((pingAlert kind check.status).map (alertCall cid now)).toList
      ((pingAlert kind check.status).map fun event =>
        Item.alert event now (RowInput.pingCause exitCode event)).toList := by
  unfold alertTail
  cases halert : pingAlert kind check.status with
  | none => exact ⟨rfl, rfl⟩
  | some event =>
      subst hid
      have htell : (rowCell X start check.id uuid).Does
          (Prog.tell (.delivery ⟨check, event, now, RowInput.pingCause exitCode event⟩) : StoreProg AppError Unit) []
          [Item.alert event now (RowInput.pingCause exitCode event)] := by
        refine ⟨rfl, [], ?_, rfl, rfl⟩
        simp [rowCell, Spawned.checkId, eventEntry, Spawned.kind, Spawned.at_, Spawned.cause]
      rcases pingAlert_cases halert with rfl | rfl
      · exact Cell.Does.write (if_pos rfl) fun s _ => ⟨(), rfl, htell⟩
      · exact Cell.Does.write (if_pos rfl) fun s _ => ⟨(), rfl, htell⟩

theorem applyKind_follows {check : Check} (hid : check.id = cid) (hpaused : check.status ≠ .paused) :
    (rowCell X start cid uuid).Follows (applyKind X check kind exitCode now)
      (pingPlan X cid kind exitCode now (some check)) := by
  simp only [pingPlan, Option.bind_some, if_neg hpaused]
  rcases applyKind_shape X check kind exitCode now with hpanic | ⟨hmark, halert, hret⟩ | ⟨mark, hmark, hbody⟩
  · rw [if_pos (applyKind_panics_iff.mp hpanic), hpanic]
    trivial
  · have hpanics : ¬pingPanics X kind now check = true := by
      intro hpanics
      have hpanic : applyKind X check kind exitCode now = .panic := applyKind_panics_iff.mpr hpanics
      rw [hret] at hpanic
      cases hpanic
    rw [if_neg hpanics, hret, hmark, halert]
    exact ⟨rfl, rfl⟩
  · have hpanics : ¬pingPanics X kind now check = true := by
      intro hpanics
      have hpanic : applyKind X check kind exitCode now = .panic := applyKind_panics_iff.mpr hpanics
      rw [hbody] at hpanic
      cases hpanic
    rw [if_neg hpanics, hbody, hmark]
    subst hid
    change (rowCell X start check.id uuid).Does ((Prog.perform AppError.db (.markPing check.id mark)).bind _) (_ :: _) _
    exact Cell.Does.write (if_pos rfl) fun s _ => ⟨(), rfl, alertTail_does rfl⟩

theorem ping_begins {body : List UInt8} {clientIp : Option String} :
    (rowCell X start cid uuid).Begins (pingPlan X cid kind exitCode now)
      (apply X ⟨uuid, kind, exitCode, body, clientIp⟩ now) := by
  unfold apply resolve store
  simp only [Prog.bind_eq, Prog.bind_assoc]
  refine Cell.Begins.look (Or.inr rfl) fun s hsteady => ?_
  obtain ⟨check, hrow, hfound⟩ := hsteady.row
  obtain rfl : check.id = cid := Table.find_key _ hrow
  refine ⟨some check, congrArg Except.ok hfound, ?_⟩
  change (rowCell X start check.id uuid).Follows _ (pingPlan X check.id kind exitCode now (s.findCheck check.id))
  rw [hrow]
  refine Cell.Follows.quiet rfl fun s' hsteady' => ?_
  obtain ⟨check', hrow', _⟩ := hsteady'.row
  refine ⟨(), exec_insertPing_ok hrow' now, ?_⟩
  by_cases hpaused : check.status = .paused
  · simp only [hpaused, if_true, pingPlan, Option.bind_some]
    exact ⟨rfl, rfl⟩
  · simp only [hpaused, if_false]
    exact applyKind_follows rfl hpaused

end Ping

/-! ### A scan -/

section Scan

variable {X : Crates} {start : Db} {cid : Int} {uuid : String} {now : Instant} {baseUrl : String}
  {names : List (Int × String)} {tz : Option String}

/-- A round of the scan: a panic, nothing, or the two writes and the event. -/
theorem scanCheck_shape (X : Crates) (now : Instant) (baseUrl : String) (names : List (Int × String)) (tz : Option String)
    (check : Check) :
    (check.computes X = false ∧ scanCheck X now baseUrl names tz check = .panic) ∨
      (check.computes X = true ∧ (check.isOverdue X now || check.isOverrun now) = false ∧
        scanCheck X now baseUrl names tz check = .ret []) ∨
      (check.computes X = true ∧ (check.isOverdue X now || check.isOverrun now) = true ∧
        scanCheck X now baseUrl names tz check = .call (.setStatus check.id .down) fun
          | .error _ => .ret []
          | .ok _ => .call (.beginDownAlert check.id now) fun _ =>
              .ret [downEvent check now baseUrl names tz (check.isOverrun now)]) := by
  unfold Check.computes Check.isOverdue Check.isOverrun
  cases hdue : dueTime X check with
  | error panic => simp [scanCheck, hdue, Except.toOption]
  | ok due =>
      cases hdeadline : overrunTime check with
      | error panic => simp [scanCheck, hdue, hdeadline, Except.toOption]
      | ok deadline =>
          simp only [scanCheck, hdue, hdeadline, Except.toOption, Prog.bind_eq, Prog.orPanic_ok, Prog.ret_bind,
            Option.isSome_some, Bool.and_self, Option.join_some, Bool.or_eq_true, Bool.true_eq_false, false_and,
            true_and, false_or, Bool.or_eq_false_iff]
          by_cases hdown : hasPassed due now = true ∨ hasPassed deadline now = true
          · right
            refine ⟨hdown, ?_⟩
            rw [if_neg (not_not.mpr hdown)]
            rfl
          · left
            rw [if_pos hdown]
            simpa using hdown

/-- The rows a scan may write: those whose deadlines it can compute. -/
def Writable (X : Crates) (start : Db) (cid : Int) (checks : List Check) : Prop :=
  ∀ check ∈ checks, check.computes X = true → check.id ≠ cid → (start.findCheck check.id).all (·.computes X) = true

theorem scanRounds_hang {α : Type} {checks : List Check} (hwritable : Writable X start cid checks)
    (hbroken : ∃ check ∈ checks, check.computes X = false) {k : List NotificationEvent → StoreProg StoreError α} :
    (rowCell X start cid uuid).Hangs ((forChecks (scanCheck X now baseUrl names tz) checks).bind k) := by
  induction checks generalizing k with
  | nil =>
      obtain ⟨check, hmem, _⟩ := hbroken
      cases hmem
  | cons check rest ih =>
      have hrest : Writable X start cid rest := fun other hother => hwritable other (List.mem_cons_of_mem _ hother)
      have hround : ∀ k : List NotificationEvent → StoreProg StoreError α, check.computes X = true →
          (rowCell X start cid uuid).Hangs ((forChecks (scanCheck X now baseUrl names tz) rest).bind k) := by
        intro k hcomputes
        apply ih hrest
        obtain ⟨other, hmem, hother⟩ := hbroken
        rcases List.mem_cons.mp hmem with rfl | hmem
        · rw [hcomputes] at hother
          cases hother
        · exact ⟨other, hmem, hother⟩
      simp only [forChecks, Prog.bind_eq, Prog.bind_assoc]
      rcases scanCheck_shape X now baseUrl names tz check with
        ⟨_, hbody⟩ | ⟨hcomputes, _, hbody⟩ | ⟨hcomputes, _, hbody⟩
      · rw [hbody]
        trivial
      · rw [hbody]
        exact hround _ hcomputes
      · rw [hbody]
        have hrole : ∀ id : Int, id = check.id → (rowRole X start cid (.setStatus id .down)).isSome = true ∧
            (rowRole X start cid (.beginDownAlert id now)).isSome = true := by
          rintro id rfl
          by_cases hid : check.id = cid
          · simp [rowRole, hid]
          · simp [rowRole, hid, hwritable check (List.mem_cons_self ..) hcomputes hid]
        exact ⟨(hrole _ rfl).1, fun s _ => ⟨(hrole _ rfl).2, fun s' _ => hround _ hcomputes⟩⟩

/-- The writes of the scan on its own check. -/
def scanWrites (X : Crates) (cid : Int) (now : Instant) (check : Check) : List StoreCall :=
  if check.id = cid ∧ (check.isOverdue X now || check.isOverrun now) = true then
    [.setStatus cid .down, .beginDownAlert cid now] else []

variable (now baseUrl names tz) in
theorem scanRounds_does {α : Type} {checks : List Check} (hwritable : Writable X start cid checks)
    (hcomputes : ∀ check ∈ checks, check.computes X = true) {k : List NotificationEvent → StoreProg StoreError α}
    {shown : List NotificationEvent → List Item}
    (hk : ∀ events, (rowCell X start cid uuid).Does (k events) [] (shown events)) :
    (rowCell X start cid uuid).Does ((forChecks (scanCheck X now baseUrl names tz) checks).bind k)
      (checks.flatMap (scanWrites X cid now))
      (shown (checks.flatMap (scanRound X now baseUrl names tz).events)) := by
  induction checks generalizing k shown with
  | nil => exact hk []
  | cons check rest ih =>
      have hrest : Writable X start cid rest := fun other hother => hwritable other (List.mem_cons_of_mem _ hother)
      have hround : ∀ events, (rowCell X start cid uuid).Does
          ((forChecks (scanCheck X now baseUrl names tz) rest).bind fun others => k (events ++ others))
          (rest.flatMap (scanWrites X cid now))
          (shown (events ++ rest.flatMap (scanRound X now baseUrl names tz).events)) := fun events =>
        ih hrest (fun other hother => hcomputes other (List.mem_cons_of_mem _ hother)) fun others => hk (events ++ others)
      simp only [forChecks, Prog.bind_eq, Prog.bind_assoc, Prog.pure_eq, Prog.ret_bind, List.flatMap_cons]
      rcases scanCheck_shape X now baseUrl names tz check with
        ⟨hbroken, _⟩ | ⟨_, hdue, hbody⟩ | ⟨hok, hdue, hbody⟩
      · rw [hcomputes check (List.mem_cons_self ..)] at hbroken
        cases hbroken
      · rw [hbody]
        have hwrites : scanWrites X cid now check = [] := by simp [scanWrites, hdue]
        have hevents : (scanRound X now baseUrl names tz).events check = [] := if_neg (by simp [hdue])
        rw [hwrites, hevents]
        exact hround []
      · rw [hbody]
        have hevents : (scanRound X now baseUrl names tz).events check =
            [downEvent check now baseUrl names tz (check.isOverrun now)] := if_pos hdue
        rw [hevents]
        by_cases hid : check.id = cid
        · have hwrites : scanWrites X cid now check =
              [.setStatus check.id .down, .beginDownAlert check.id now] := by simp [scanWrites, hdue, hid]
          rw [hwrites]
          exact Or.inl ⟨by simp [rowCell, rowRole, hid], _, rfl, fun s _ =>
            Or.inl ⟨by simp [rowCell, rowRole, hid], _, rfl, fun s' _ => hround _⟩⟩
        · have hwrites : scanWrites X cid now check = [] := by simp [scanWrites, hid]
          have hgood := hwritable check (List.mem_cons_self ..) hok hid
          rw [hwrites]
          exact Or.inr ⟨by simp [rowCell, rowRole, hid, hgood], fun s _ =>
            Or.inr ⟨by simp [rowCell, rowRole, hid, hgood], fun s' _ => hround _⟩⟩

/-- What the rounds over a selection of the rows do to one check. -/
theorem flatMap_filter_id {β : Type} {db : Db} {check : Check} (hrow : db.findCheck cid = some check)
    (p : Check → Bool) {g : Check → List β} (hg : ∀ row, row.id ≠ cid → g row = []) :
    (db.selectChecks p).flatMap g = if p check then g check else [] := by
  have hsplit : ∀ rows : List Check, rows.flatMap g = (rows.filter fun row => row.id = cid).flatMap g := by
    intro rows
    induction rows with
    | nil => rfl
    | cons row rows ih =>
        by_cases hid : row.id = cid
        · simp [hid, ih]
        · simp [hid, ih, hg row hid]
  rw [hsplit, filter_id hrow p]
  split <;> simp

theorem scanWrites_flatMap {db : Db} {check : Check} (hrow : db.findCheck cid = some check) :
    db.listActiveChecks.flatMap (scanWrites X cid now) =
      if check.isDowned X now then [.setStatus cid .down, .beginDownAlert cid now] else [] := by
  have hid : check.id = cid := Table.find_key _ hrow
  apply (flatMap_filter_id hrow _ fun row hne => if_neg fun h => hne h.1).trans
  simp only [hid, true_and, Check.isDowned, Check.isActive, Bool.and_eq_true]
  split
  · rename_i hactive
    simp [hactive]
  · rename_i hactive
    simp [hactive]

theorem scanRound_shown {db : Db} {check : Check} (hrow : db.findCheck cid = some check) :
    ((db.listActiveChecks.flatMap (scanRound X now baseUrl names tz).events).map Spawned.event).filterMap
        (rowCell X start cid uuid).shown =
      if check.isDowned X now then [.alert .down now (some (downCause (check.isOverrun now) check))] else [] := by
  have hid : check.id = cid := Table.find_key _ hrow
  rw [List.map_flatMap, List.filterMap_flatMap]
  refine (flatMap_filter_id hrow _ fun row hne => ?_).trans ?_
  · simp only [scanRound]
    split
    · simp [rowCell, Spawned.checkId, downEvent, hne]
    · rfl
  · simp only [scanRound, Check.isDowned, Check.isActive, Bool.and_eq_true]
    split
    · rename_i hactive
      simp only [hactive, true_and]
      split
      · subst hid
        simp [rowCell, Spawned.checkId, downEvent, eventEntry, Spawned.kind, Spawned.at_, Spawned.cause,
          EventDetail.withCause]
      · rfl
    · rename_i hactive
      simp [hactive]

theorem scanRounds_follow {db : Db} (hsteady : Steady X start cid uuid db) :
    (rowCell X start cid uuid).Follows
      ((forChecks (scanCheck X now baseUrl names tz) db.listActiveChecks).bind fun events =>
        (Prog.tellAll (events.map Spawned.event) : StoreProg StoreError Unit))
      (scanPlan X start cid now (db.findCheck cid)) := by
  obtain ⟨check, hrow, _⟩ := hsteady.row
  have hactive : ∀ row ∈ db.listActiveChecks, row.isActive = true := fun row hmem => (Db.mem_selectChecks.mp hmem).2
  have hfind : ∀ row ∈ db.listActiveChecks, db.findCheck row.id = some row := fun row hmem =>
    (Table.find_eq_some_iff _).mpr ⟨(Db.mem_selectChecks.mp hmem).1, rfl⟩
  have hmem : ∀ id row, db.findCheck id = some row → row.isActive = true → row ∈ db.listActiveChecks :=
    fun id row hrow hactive => Db.mem_selectChecks.mpr ⟨Table.find_mem _ hrow, hactive⟩
  have hwritable : Writable X start cid db.listActiveChecks := by
    intro row hrow hcomputes hne
    obtain ⟨first, hfirst, hsame, _⟩ := hsteady.others row.id row hne (hfind row hrow)
    rw [hfirst, Option.all_some, ← hsame, hcomputes]
  rw [hrow]
  simp only [scanPlan, Option.bind_some]
  by_cases hpanic : Blocked X start cid ∨ (check.isActive = true ∧ check.computes X = false)
  · rw [if_pos hpanic]
    apply scanRounds_hang hwritable
    rcases hpanic with ⟨id, first, hne, hfirst, hfirstActive, hbroken⟩ | ⟨hcheck, hbroken⟩
    · exact ⟨first, hmem id first (hsteady.broken id first hne hfirst hfirstActive hbroken) hfirstActive, hbroken⟩
    · exact ⟨check, hmem cid check hrow hcheck, hbroken⟩
  · rw [if_neg hpanic]
    have hcomputes : ∀ row ∈ db.listActiveChecks, row.computes X = true := by
      intro row hmem
      by_contra hbroken
      rw [Bool.not_eq_true] at hbroken
      apply hpanic
      by_cases hid : row.id = cid
      · have hsame := hfind row hmem
        rw [hid, hrow, Option.some.injEq] at hsame
        exact Or.inr ⟨hsame ▸ hactive row hmem, hsame ▸ hbroken⟩
      · obtain ⟨first, hfirst, hsame, hfirstActive⟩ := hsteady.others row.id row hid (hfind row hmem)
        exact Or.inl ⟨row.id, first, hid, hfirst, hfirstActive (hactive row hmem), hsame ▸ hbroken⟩
    have hdoes := scanRounds_does now baseUrl names tz hwritable hcomputes fun events =>
      (Cell.does_tellAll (events.map Spawned.event) : (rowCell X start cid uuid).Does _ _ _)
    rw [scanWrites_flatMap hrow, scanRound_shown hrow] at hdoes
    split <;> simp_all only [if_true, if_false, Bool.false_eq_true] <;> exact hdoes

theorem scan_begins : (rowCell X start cid uuid).Begins (scanPlan X start cid now) (scanPass X now baseUrl) := by
  unfold scanPass scanOnce query
  simp only [Prog.bind_eq, Prog.bind_assoc]
  refine Cell.Begins.quiet rfl fun s _ => ⟨_, rfl, ?_⟩
  unfold displayTimezone attemptCall
  refine Or.inl ⟨rfl, fun s' _ => ?_⟩
  exact Cell.Begins.look (Or.inr rfl) fun db hsteady => ⟨_, rfl, scanRounds_follow hsteady⟩

end Scan

/-! ### A pause and a resume -/

section Status

variable {X : Crates} {start : Db} {cid : Int} {uuid : String} {user : User} {status : CheckStatus}

/-- The project of the check, as every database of the run has it. -/
theorem Steady.findProject {db db' : Db} {check : Check} (hsteady : Steady X start cid uuid db)
    (hrow : db.findCheck cid = some check) (hsteady' : Steady X start cid uuid db') :
    (db'.findProject check.projectId).map Project.userId = start.checkOwner cid := by
  have hproject := hsteady.project
  rw [hrow, Option.map_some, eq_comm, Option.map_eq_some_iff] at hproject
  obtain ⟨first, hfirst, hid⟩ := hproject
  rw [Db.checkOwner, hfirst, Option.bind_some, ← hid, Db.findProject, hsteady'.projects, Db.findProject]

theorem ownedCheck_begins {α : Type} {k : Check → StoreProg AppError α} {c : StoreCall}
    (hk : ∀ check, (rowCell X start cid uuid).Does (k check) [c] []) :
    (rowCell X start cid uuid).Begins
      (fun _ => some (if Surface.permits (start.checkOwner cid) user .web then [c] else [], []))
      ((ownedCheck cid user.id).bind k) := by
  unfold ownedCheck ownedProject store
  simp only [Prog.bind_eq, Prog.bind_assoc]
  refine Cell.Begins.look (Or.inl rfl) fun db hsteady => ?_
  obtain ⟨check, hrow, _⟩ := hsteady.row
  refine ⟨some check, congrArg Except.ok hrow, ?_⟩
  simp only [Prog.bind_assoc, Prog.pure_eq, Prog.ret_bind]
  refine Cell.Follows.quiet rfl fun db' hsteady' => ⟨_, rfl, ?_⟩
  have howner := hsteady.findProject hrow hsteady'
  cases hproject : db'.findProject check.projectId with
  | none =>
      rw [hproject] at howner
      simp only [← howner, Surface.permits, Option.map_none, reduceCtorEq, decide_false, Bool.false_eq_true, if_false]
      exact ⟨rfl, rfl⟩
  | some project =>
      rw [hproject] at howner
      simp only [← howner, Surface.permits, Option.map_some, Option.some.injEq, decide_eq_true_eq]
      by_cases hid : project.userId = user.id
      · simp only [hid, ne_eq, not_true_eq_false, if_false, if_true]
        exact hk check
      · simp only [hid, ne_eq, not_false_eq_true, if_true, if_false]
        exact ⟨rfl, rfl⟩

theorem adminCheck_begins {α : Type} {ctx : WebContext} {k : Check → StoreProg AppError α} {c : StoreCall}
    (hk : ∀ check, (rowCell X start cid uuid).Does (k check) [c] []) :
    (rowCell X start cid uuid).Begins (fun _ => some ([c], [])) ((adminCheck ctx user "POST" cid).bind k) := by
  unfold adminCheck store
  simp only [Prog.bind_eq, Prog.bind_assoc]
  refine Cell.Begins.look (Or.inl rfl) fun db hsteady => ?_
  obtain ⟨check, hrow, _⟩ := hsteady.row
  refine ⟨some check, congrArg Except.ok hrow, ?_⟩
  simp only [Prog.bind_assoc]
  refine Cell.Follows.quiet rfl fun db' _ => ⟨_, rfl, ?_⟩
  unfold auditAccess store
  rw [if_pos (by decide)]
  simp only [Prog.bind_eq, Prog.bind_assoc]
  exact Cell.Follows.quiet rfl fun db'' _ => ⟨_, rfl, hk check⟩

theorem resolveCheck_begins {α : Type} {ctx : ApiContext} {k : Check → StoreProg ApiError α} {c : StoreCall}
    (hk : ∀ check, (rowCell X start cid uuid).Does (k check) [c] []) :
    (rowCell X start cid uuid).Begins
      (fun _ => some (if Surface.permits (start.checkOwner cid) user (.api ctx) then [c] else [], []))
      ((resolveCheck ctx user "POST" cid).bind k) := by
  unfold resolveCheck apiStore
  simp only [Prog.bind_eq, Prog.bind_assoc]
  refine Cell.Begins.look (Or.inl rfl) fun db hsteady => ?_
  obtain ⟨check, hrow, _⟩ := hsteady.row
  refine ⟨some check, congrArg Except.ok hrow, ?_⟩
  simp only [okOr]
  refine Cell.Follows.quiet rfl fun db' hsteady' => ⟨_, rfl, ?_⟩
  rw [hsteady.findProject hrow hsteady']
  unfold resolveOwned auditCrossUser apiStore
  simp only [Surface.permits, Bool.or_eq_true, decide_eq_true_eq]
  by_cases howner : start.checkOwner cid = some user.id
  · simp only [howner, if_true, true_or, Prog.pure_eq, Prog.ret_bind]
    exact hk check
  · simp only [howner, if_false, false_or]
    by_cases hadmin : user.isAdmin = true
    · simp only [hadmin, if_true, Prog.bind_eq, Prog.bind_assoc]
      exact Cell.Follows.quiet rfl fun db'' _ => ⟨_, rfl, hk check⟩
    · simp only [hadmin]
      exact ⟨rfl, rfl⟩

theorem reloadCheck_does : (rowCell X start cid uuid).Does (V1.reloadCheck cid) [] [] := by
  unfold V1.reloadCheck apiStore
  refine Cell.Does.quiet rfl fun db hsteady => ?_
  obtain ⟨check, hrow, _⟩ := hsteady.row
  exact ⟨some check, congrArg Except.ok hrow, rfl, rfl⟩

theorem setStatus_does {α : Type} {value : α} :
    (rowCell X start cid uuid).Does ((store (.setStatus cid status)).bind fun _ => .ret value)
      [.setStatus cid status] [] :=
  Cell.Does.write (if_pos rfl) fun _ _ => ⟨(), rfl, rfl, rfl⟩

theorem apiSetStatus_does :
    (rowCell X start cid uuid).Does ((apiStore (.setStatus cid status)).bind fun _ => V1.reloadCheck cid)
      [.setStatus cid status] [] :=
  Cell.Does.write (if_pos rfl) fun _ _ => ⟨(), rfl, reloadCheck_does⟩

theorem pause_begins (surface : Surface) : (rowCell X start cid uuid).Begins
    (statusPlan cid (surface.permits (start.checkOwner cid) user) .paused) (surface.pause user cid) := by
  cases surface with
  | web => exact (ownedCheck_begins fun _ => setStatus_does).erase
  | admin ctx => exact (adminCheck_begins fun _ => setStatus_does).erase
  | api ctx => exact (resolveCheck_begins fun _ => apiSetStatus_does).erase

theorem resume_begins (surface : Surface) : (rowCell X start cid uuid).Begins
    (statusPlan cid (surface.permits (start.checkOwner cid) user) .new) (surface.resume user cid) := by
  cases surface with
  | web => exact (ownedCheck_begins fun _ => setStatus_does).erase
  | admin ctx => exact (adminCheck_begins fun _ => setStatus_does).erase
  | api ctx => exact (resolveCheck_begins fun _ => apiSetStatus_does).erase

end Status

theorem CheckRequest.begins (X : Crates) (start : Db) (cid : Int) (uuid : String) (request : CheckRequest) :
    (rowCell X start cid uuid).Begins (request.plan X start cid) (request.program X cid uuid) := by
  cases request with
  | ping kind exitCode body clientIp now => exact ping_begins.erase
  | scan now baseUrl => exact scan_begins.erase
  | pause surface user => exact pause_begins surface
  | resume surface user => exact resume_begins surface

/-! ### Any order of steps -/

/-- The two columns that follow a change of status play no part in a plan. -/
theorem plan_silent (X : Crates) (start : Db) (cid : Int) (request : CheckRequest) (row : Option Check)
    {f : Check → Check} (hf : ∀ check, ∃ alert ack, f check = { check with lastAlertAt := alert, acknowledged := ack }) :
    request.plan X start cid (row.map f) = request.plan X start cid row := by
  cases row with
  | none => rfl
  | some check =>
      obtain ⟨alert, ack, hcheck⟩ := hf check
      rw [Option.map_some, hcheck]
      cases request with
      | ping kind exitCode body clientIp now => cases kind <;> rfl
      | scan now baseUrl => rfl
      | pause surface user => rfl
      | resume surface user => rfl

/-- A plan has at most two writes, and a second one touches those two columns only. -/
theorem plan_second {X : Crates} {start : Db} {cid : Int} {request : CheckRequest} {row : Option Check}
    {ws₁ ws₂ : List StoreCall} {es : List Item} (hplan : request.plan X start cid row = some (ws₁ ++ ws₂, es))
    (hne : ws₁ ≠ []) :
    ws₂ = [] ∨ ∃ w, ws₂ = [w] ∧ (w = .clearNag cid ∨ ∃ at_, w = .beginDownAlert cid at_) := by
  have htail : ∀ first second : StoreCall, [first, second] = ws₁ ++ ws₂ → ws₂ = [] ∨ ws₂ = [second] := by
    intro first second hsplit
    obtain ⟨head, rest, rfl⟩ := List.exists_cons_of_ne_nil hne
    rw [List.cons_append, List.cons.injEq] at hsplit
    rcases List.append_eq_singleton_iff.mp hsplit.2.symm with ⟨_, h⟩ | ⟨_, h⟩
    · exact Or.inr h
    · exact Or.inl h
  have hshort : ∀ ws : List StoreCall, ws.length ≤ 1 → ws = ws₁ ++ ws₂ → ws₂ = [] := by
    rintro ws hlength rfl
    have hpos := List.length_pos_of_ne_nil hne
    rw [List.length_append] at hlength
    exact List.eq_nil_of_length_eq_zero (by omega)
  cases request with
  | ping kind exitCode body clientIp now =>
      simp only [CheckRequest.plan, pingPlan, Option.bind_eq_some_iff] at hplan
      obtain ⟨check, _, hplan⟩ := hplan
      split at hplan
      · simp only [Option.some.injEq, Prod.mk.injEq] at hplan
        exact Or.inl (hshort [] (by simp) hplan.1)
      · split at hplan
        · cases hplan
        · simp only [Option.some.injEq, Prod.mk.injEq] at hplan
          obtain ⟨hwrites, _⟩ := hplan
          cases halert : pingAlert kind check.status with
          | none =>
              rw [halert] at hwrites
              refine Or.inl (hshort _ ?_ hwrites)
              cases PingMark.ofPing X check now kind <;> simp
          | some event =>
              rw [halert] at hwrites
              cases hmark : PingMark.ofPing X check now kind with
              | none =>
                  rw [hmark] at hwrites
                  exact Or.inl (hshort _ (by simp) hwrites)
              | some mark =>
                  rw [hmark] at hwrites
                  rcases htail _ _ hwrites with h | h
                  · exact Or.inl h
                  · refine Or.inr ⟨_, h, ?_⟩
                    rcases pingAlert_cases halert with rfl | rfl
                    · exact Or.inl rfl
                    · exact Or.inr ⟨now, rfl⟩
  | scan now baseUrl =>
      simp only [CheckRequest.plan, scanPlan, Option.bind_eq_some_iff] at hplan
      obtain ⟨check, _, hplan⟩ := hplan
      split at hplan
      · cases hplan
      · simp only [Option.some.injEq] at hplan
        split at hplan
        · simp only [Prod.mk.injEq] at hplan
          rcases htail _ _ hplan.1 with h | h
          · exact Or.inl h
          · exact Or.inr ⟨_, h, Or.inr ⟨now, rfl⟩⟩
        · simp only [Prod.mk.injEq] at hplan
          exact Or.inl (hshort [] (by simp) hplan.1)
  | pause surface user =>
      simp only [CheckRequest.plan, statusPlan, Option.some.injEq, Prod.mk.injEq] at hplan
      exact Or.inl (hshort _ (by split <;> simp) hplan.1)
  | resume surface user =>
      simp only [CheckRequest.plan, statusPlan, Option.some.injEq, Prod.mk.injEq] at hplan
      exact Or.inl (hshort _ (by split <;> simp) hplan.1)

theorem requests_compatible {ι : Type} (X : Crates) (start : Db) (cid : Int) (uuid : String) (requests : ι → CheckRequest) :
    Compatible (rowCell X start cid uuid) (fun i => (requests i).plan X start cid) fun i => (requests i).decides = true where
  blind i hblind := by
    cases hrequest : requests i with
    | ping kind exitCode body clientIp now => exact absurd (by rw [hrequest]; rfl) hblind
    | scan now baseUrl => exact absurd (by rw [hrequest]; rfl) hblind
    | pause surface user =>
        refine ⟨_, ?_, fun v => rfl⟩
        dsimp only
        split <;> simp
    | resume surface user =>
        refine ⟨_, ?_, fun v => rfl⟩
        dsimp only
        split <;> simp
  idle i j u ws₁ ws₂ es es' hplan hne hidle := by
    rw [Cell.applyAll_append]
    rcases plan_second hplan hne with rfl | ⟨w, rfl, hw⟩
    · exact hidle
    · rw [← hidle]
      rcases hw with rfl | ⟨at_, rfl⟩
      · exact plan_silent X start cid (requests j) _ fun check => ⟨none, false, rfl⟩
      · exact plan_silent X start cid (requests j) _ fun check => ⟨some at_, false, rfl⟩

/-- The columns that tell where a check stands. -/
def Check.standing (check : Check) : CheckStatus × Option Instant × Option Instant × Option Instant × Bool :=
  (check.status, check.lastPingAt, check.lastStartAt, check.lastAlertAt, check.acknowledged)

/-- The alerts of one check. -/
def alertsOf (cid : Int) (events : List Spawned) : List Item :=
  (events.filter fun event => event.checkId = cid).map fun event => (eventEntry event).2

theorem filterMap_shown (X : Crates) (start : Db) (cid : Int) (uuid : String) (events : List Spawned) :
    events.filterMap (rowCell X start cid uuid).shown = alertsOf cid events := by
  induction events with
  | nil => rfl
  | cons event events ih =>
      by_cases hid : event.checkId = cid
      · simp [rowCell, alertsOf, hid] at ih ⊢
        exact ih
      · simp [rowCell, alertsOf, hid] at ih ⊢
        exact ih

/-- **Serialisability.** Take any requests on a check, interleaved call by call, such that whenever a ping
or a scan writes the row nobody else has written it since the ping or the scan read it. Once all requests
have ended, the check stands where some serial order of the same requests leaves it, and the alerts that
went out for it are those of that order. -/
theorem undisturbed_requests_serialise {ι : Type} [DecidableEq ι] (X : Crates) (start : Db) (cid : Int) (check : Check)
    (requests : ι → CheckRequest) (hrow : start.findCheck cid = some check)
    (huuid : start.findCheckByUuid check.pingUuid = some check)
    {cfg : Config ι StoreCall StoreCall.Res StoreError Spawned Unit Unit Db}
    (hreach : Reach exec ((rowCell X start cid check.pingUuid).Undisturbed fun i => (requests i).decides = true)
      (.init (fun i => (requests i).program X cid check.pingUuid) start) cfg)
    (hfinished : ∀ i, cfg.Finished i) :
    ∃ order : List ι, order.Nodup ∧ (∀ i, i ∈ order) ∧
      (cfg.state.findCheck cid).map Check.standing =
        ((serial exec (fun i => (requests i).program X cid check.pingUuid) order start).1.findCheck cid).map
          Check.standing ∧
      (alertsOf cid cfg.events).Perm
        (alertsOf cid (serial exec (fun i => (requests i).program X cid check.pingUuid) order start).2) := by
  obtain ⟨order, hnodup, hmem, hview, hevents⟩ := serial_of_undisturbed
    (requests_compatible X start cid check.pingUuid requests) (steady_start hrow huuid)
    (fun i => (requests i).begins X start cid check.pingUuid) hreach hfinished
  rw [filterMap_shown, filterMap_shown] at hevents
  exact ⟨order, hnodup, hmem, congrArg (Option.map Check.standing) hview, hevents⟩

/-- A scan and a success ping of the one check of `Db.sample`, at an instant when the check is overdue. -/
def scanAndPing : Bool → CheckRequest
  | false => .scan (100 * nanosPerSec) ""
  | true => .ping .success none [] none (100 * nanosPerSec)

def sampleCheck : Check := NewCheck.row ⟨1, "backup", "", "u1", .period, some 60, 0, none, "UTC", none, none, none⟩ 0 1

theorem undisturbed_requests_serialise_sample :
    ∃ cfg, Reach exec ((rowCell plainCrates .sample 1 "u1").Undisturbed fun i => (scanAndPing i).decides = true)
        (.init (fun i => (scanAndPing i).program plainCrates 1 "u1") Db.sample) cfg ∧ (∀ i, cfg.Finished i) ∧
      ∃ order : List Bool, order.Nodup ∧ (∀ i, i ∈ order) ∧
        (cfg.state.findCheck 1).map Check.standing =
          ((serial exec (fun i => (scanAndPing i).program plainCrates 1 "u1") order Db.sample).1.findCheck 1).map
            Check.standing ∧
        (alertsOf 1 cfg.events).Perm
          (alertsOf 1 (serial exec (fun i => (scanAndPing i).program plainCrates 1 "u1") order Db.sample).2) := by
  obtain ⟨cfg, hreach, hfinished⟩ := exists_reach exec
    (fun cfg i htest => (rowCell plainCrates .sample 1 "u1").undisturbed_of_test htest)
    [false, true, true, true, false, false]
    (show (Config.advanceWhen exec ((rowCell plainCrates .sample 1 "u1").undisturbed fun i => (scanAndPing i).decides)
      [false, true, true, true, false, false] (.init (fun i => (scanAndPing i).program plainCrates 1 "u1") Db.sample)).any
        (fun cfg => cfg.isFinished false && cfg.isFinished true) = true by decide +kernel)
  have hall : ∀ i, cfg.Finished i := by
    rw [Bool.and_eq_true] at hfinished
    rintro (_ | _)
    · exact Config.finished_of_isFinished hfinished.1
    · exact Config.finished_of_isFinished hfinished.2
  exact ⟨cfg, hreach, hall, undisturbed_requests_serialise plainCrates .sample 1 sampleCheck scanAndPing
    (by decide +kernel) (by decide +kernel) hreach hall⟩

/-- The scan lists the check, the ping marks it up, and then the scan downs it: in either serial order the
check ends up. -/
theorem scan_downs_pinged_check :
    ∃ cfg, Reach exec (fun _ _ => True) (.init (fun i => (scanAndPing i).program plainCrates 1 "u1") Db.sample) cfg ∧
      (∀ i, cfg.Finished i) ∧
      ∀ order : List Bool, order.Nodup → (∀ i, i ∈ order) →
        (cfg.state.findCheck 1).map Check.standing ≠
          ((serial exec (fun i => (scanAndPing i).program plainCrates 1 "u1") order Db.sample).1.findCheck 1).map
            Check.standing := by
  obtain ⟨cfg, hreach, hfinal⟩ := exists_reach exec (fun _ _ _ => trivial : ∀ _ _, true = true → True)
    [false, false, false, true, true, true, false, false, false]
    (show (Config.advanceWhen exec (fun _ _ => true) [false, false, false, true, true, true, false, false, false]
      (.init (fun i => (scanAndPing i).program plainCrates 1 "u1") Db.sample)).any
        (fun cfg => cfg.isFinished false && cfg.isFinished true &&
          decide ((cfg.state.findCheck 1).map Check.status = some .down)) = true by decide +kernel)
  simp only [Bool.and_eq_true, decide_eq_true_eq] at hfinal
  obtain ⟨⟨hscan, hping⟩, hdown⟩ := hfinal
  refine ⟨cfg, hreach, ?_, ?_⟩
  · rintro (_ | _)
    · exact Config.finished_of_isFinished hscan
    · exact Config.finished_of_isFinished hping
  · intro order hnodup hmem hsame
    have hup : ((serial exec (fun i => (scanAndPing i).program plainCrates 1 "u1") order Db.sample).1.findCheck 1).map
        Check.status = some .up := by
      have hperm : order.Perm [false, true] :=
        (List.perm_ext_iff_of_nodup hnodup (by decide)).mpr fun i => by simp [hmem i]
      obtain ⟨a, b, rfl⟩ := List.length_eq_two.mp hperm.length_eq
      clear hsame hmem hnodup
      revert a b
      decide +kernel
    have hstatus := congrArg (Option.map Prod.fst) hsame
    rw [Option.map_map, Option.map_map] at hstatus
    rw [show Prod.fst ∘ Check.standing = Check.status from rfl, hdown, hup] at hstatus
    cases hstatus

end Pingward
