import Pingward.RowOperation
import Pingward.FrameAuth

/-! A ping, for its own check and for the others. -/

open KeyedTable StoreProgram

namespace Pingward

theorem findCheck_of_uuid {db : Db} {uuid : String} {check : Check}
    (hfound : db.findCheckByUuid uuid = some check) : db.findCheck check.id = some check :=
  (Table.find_eq_some_iff _).mpr ⟨List.mem_of_find?_eq_some hfound, rfl⟩

theorem exec_insertPing_ok {db : Db} {ping : NewPing} {check : Check}
    (hcheck : db.findCheck ping.checkId = some check) (now : Instant) :
    (exec (.insertPing ping now) db).1 = .ok () := by
  have hsome : ¬(db.checks.find ping.checkId).isNone = true := by
    rw [show db.checks.find ping.checkId = some check from hcheck]
    simp
  simp only [exec, Db.insertPing, if_neg hsome, commit]

/-- A ping of a check runs its per-kind updates on the row it found, after the ping was recorded. -/
theorem apply_eq {X : Crates} {db : Db} {ping : PingRequest} {check : Check} (now : Instant)
    (hfound : db.findCheckByUuid ping.uuid = some check) :
    run exec (apply X ping now) db =
        (if check.status = .paused then ⟨.ok (), (exec (.insertPing (ping.newPing check) now) db).2, []⟩
        else run exec (applyKind X check ping.kind ping.exitCode now)
          (exec (.insertPing (ping.newPing check) now) db).2) ∧
      calls exec (apply X ping now) db =
        .findCheckByUuid ping.uuid :: .insertPing (ping.newPing check) now ::
          (if check.status = .paused then []
          else calls exec (applyKind X check ping.kind ping.exitCode now)
            (exec (.insertPing (ping.newPing check) now) db).2) := by
  have hfind : (exec (.findCheckByUuid ping.uuid) db).1 = .ok (some check) := congrArg Except.ok hfound
  have hinsert : (exec (.insertPing (ping.newPing check) now) (exec (.findCheckByUuid ping.uuid) db).2).1 =
      .ok () := exec_insertPing_ok (findCheck_of_uuid hfound) now
  unfold apply resolve store
  simp only [Prog.bind_eq, Prog.bind_assoc]
  rw [run_perform_bind exec hfind, calls_perform_bind exec hfind]
  simp only [Prog.pure_eq, Prog.ret_bind]
  rw [run_perform_bind exec hinsert, calls_perform_bind exec hinsert]
  refine ⟨?_, ?_⟩
  · split <;> rfl
  · split <;> rfl

/-- The alert of a ping, as it is spawned. -/
def pingEvents (check : Check) (kind : PingKind) (exitCode : Option Int) (now : Instant) : List Spawned :=
  ((pingAlert kind check.status).map fun event =>
    Spawned.delivery ⟨check, event, now, RowInput.pingCause exitCode event⟩).toList

/-- The write that goes with an alert. -/
def alertCall (id : Int) (now : Instant) : EventKind → StoreCall
  | .up => .clearNag id
  | _ => .beginDownAlert id now

/-- What follows the mark of a ping: the alert of a flip. -/
def alertTail (check : Check) (kind : PingKind) (exitCode : Option Int) (now : Instant) : StoreProg AppError Unit :=
  match pingAlert kind check.status with
  | none => .ret ()
  | some event =>
      (Prog.perform .db (alertCall check.id now event)).bind fun _ =>
        Prog.tell (.delivery ⟨check, event, now, RowInput.pingCause exitCode event⟩)

/-- **The shape of the per-kind updates**: a panic, nothing, or a mark and what follows it. -/
theorem applyKind_shape (X : Crates) (check : Check) (kind : PingKind) (exitCode : Option Int) (now : Instant) :
    applyKind X check kind exitCode now = .panic ∨
      (PingMark.ofPing X check now kind = none ∧ pingAlert kind check.status = none ∧
        applyKind X check kind exitCode now = .ret ()) ∨
      ∃ mark, PingMark.ofPing X check now kind = some mark ∧
        applyKind X check kind exitCode now =
          (Prog.perform .db (.markPing check.id mark)).bind fun _ => alertTail check kind exitCode now := by
  cases kind with
  | success =>
      cases hdue : dueTime X { check with lastPingAt := some now } with
      | error panic =>
          left
          simp [applyKind, hdue]
      | ok due =>
          refine Or.inr (Or.inr ⟨⟨.up, some now, none, due⟩, by simp [PingMark.ofPing, hdue, Except.toOption], ?_⟩)
          have hbody : applyKind X check .success exitCode now =
              (store (.markPing check.id ⟨.up, some now, none, due⟩)).bind fun _ =>
                if check.status = .down then
                  (store (.clearNag check.id)).bind fun _ => Prog.tell (.delivery ⟨check, .up, now, none⟩)
                else .ret () := by
            simp only [applyKind, hdue, Prog.bind_eq, Prog.orPanic_ok, Prog.ret_bind, Prog.pure_eq]
          rw [hbody]
          unfold alertTail
          cases check.status <;> rfl
  | fail =>
      refine Or.inr (Or.inr ⟨⟨.down, some now, none, none⟩, rfl, ?_⟩)
      unfold applyKind alertTail
      cases check.status <;> rfl
  | start =>
      exact Or.inr (Or.inr ⟨⟨check.status, none, some now, check.nextDueAt⟩, rfl, (Prog.bind_ret _).symm⟩)
  | log => exact Or.inr (Or.inl ⟨rfl, rfl, rfl⟩)
  | exitcode => exact Or.inl rfl

theorem findCheck_markPing (db : Db) (id : Int) (mark : PingMark) :
    (db.markPing id mark).findCheck id = (db.findCheck id).map mark.apply :=
  findCheck_updateCheck_self db id _ _

theorem findCheck_markPing_of_ne (db : Db) {id cid : Int} (hne : cid ≠ id) (mark : PingMark) :
    (db.markPing id mark).findCheck cid = db.findCheck cid :=
  findCheck_updateCheck_of_ne db hne _ _

theorem pingAlert_cases {kind : PingKind} {status : CheckStatus} {event : EventKind}
    (halert : pingAlert kind status = some event) : event = .up ∨ event = .down := by
  cases kind <;> cases status <;> simp_all [pingAlert]

/-- The tail of a ping, on a row that has been marked. -/
theorem run_alertTail {db : Db} {check marked : Check} (kind : PingKind) (exitCode : Option Int) (now : Instant)
    (hrow : db.findCheck check.id = some marked) :
    ∃ db', run exec (alertTail check kind exitCode now) db = ⟨.ok (), db', pingEvents check kind exitCode now⟩ ∧
      db'.findCheck check.id = some (match pingAlert kind check.status with
        | some .up => marked.cleared
        | some .down => marked.alerted now
        | _ => marked) ∧
      ∀ cid, cid ≠ check.id → db'.findCheck cid = db.findCheck cid := by
  unfold alertTail pingEvents
  cases halert : pingAlert kind check.status with
  | none => exact ⟨db, rfl, hrow, fun _ _ => rfl⟩
  | some event =>
      rcases pingAlert_cases halert with rfl | rfl
      · refine ⟨db.clearNag check.id, rfl, ?_, ?_⟩
        · rw [Db.clearNag, findCheck_updateCheck_self, hrow]
          rfl
        · exact fun cid hne => findCheck_updateCheck_of_ne db hne _ _
      · refine ⟨db.beginDownAlert check.id now, rfl, ?_, ?_⟩
        · rw [Db.beginDownAlert, findCheck_updateCheck_self, hrow]
          rfl
        · exact fun cid hne => findCheck_updateCheck_of_ne db hne _ _

/-- The per-kind updates either panic before they write, or move their own row as the machine does. -/
theorem applyKind_eq (X : Crates) {db : Db} {check : Check} (kind : PingKind) (exitCode : Option Int)
    (now : Instant) (hrow : db.findCheck check.id = some check) :
    run exec (applyKind X check kind exitCode now) db = ⟨.panic, db, []⟩ ∨
      ∃ db', run exec (applyKind X check kind exitCode now) db =
          ⟨.ok (), db', pingEvents check kind exitCode now⟩ ∧
        db'.findCheck check.id = some (RowInput.pinged X kind now check) ∧
        ∀ cid, cid ≠ check.id → db'.findCheck cid = db.findCheck cid := by
  rcases applyKind_shape X check kind exitCode now with hpanic | ⟨hmark, halert, hret⟩ | ⟨mark, hmark, hbody⟩
  · left
    rw [hpanic]
    rfl
  · right
    rw [hret]
    refine ⟨db, ?_, ?_, fun _ _ => rfl⟩
    · simp [pingEvents, halert]
    · simp [RowInput.pinged, hmark, halert, hrow]
  · right
    have hmarked : (db.markPing check.id mark).findCheck check.id = some (mark.apply check) := by
      rw [findCheck_markPing, hrow, Option.map_some]
    obtain ⟨db', htail, hself, hothers⟩ := run_alertTail kind exitCode now hmarked
    have hok : (exec (.markPing check.id mark) db).1 = .ok () := rfl
    rw [hbody, run_perform_bind exec hok]
    refine ⟨db', htail, ?_, ?_⟩
    · rw [hself]
      unfold RowInput.pinged
      rw [hmark]
      rfl
    · exact fun cid hne => (hothers cid hne).trans (findCheck_markPing_of_ne db hne mark)

/-- The mark of a finish or of a start at a time. -/
def PingMark.At (mark : PingMark) (now : Instant) : Prop :=
  mark.lastPingAt = some now ∧ mark.lastStartAt = none ∨ mark.lastPingAt = none ∧ mark.lastStartAt = some now

theorem applyKind_only {okCall : StoreCall → Prop} (X : Crates) (check : Check) (kind : PingKind) (exitCode : Option Int)
    (now : Instant) (hmark : ∀ mark : PingMark, mark.At now → okCall (.markPing check.id mark))
    (hclear : okCall (.clearNag check.id))
    (hbegin : okCall (.beginDownAlert check.id now)) :
    (applyKind X check kind exitCode now).Only okCall fun _ => True := by
  cases kind with
  | success =>
      refine (Prog.Only.orPanic _).bind fun next => (store_only (hmark _ (.inl ⟨rfl, rfl⟩))).bind fun _ => ?_
      split
      · exact (store_only hclear).bind fun _ => ⟨trivial, trivial⟩
      · trivial
  | fail =>
      refine (store_only (hmark _ (.inl ⟨rfl, rfl⟩))).bind fun _ => ?_
      split
      · exact (store_only hbegin).bind fun _ => ⟨trivial, trivial⟩
      · trivial
  | start => exact store_only (hmark _ (.inr ⟨rfl, rfl⟩))
  | log => trivial
  | exitcode => trivial

theorem applyKind_unlogged (X : Crates) (check : Check) (kind : PingKind) (exitCode : Option Int) (now : Instant) :
    (applyKind X check kind exitCode now).Only (fun c => callEntry c = none) fun _ => True :=
  applyKind_only X check kind exitCode now (fun _ _ => rfl) rfl rfl

theorem apply_only {okCall : StoreCall → Prop} (X : Crates) (ping : PingRequest) (now : Instant)
    (hfind : okCall (.findCheckByUuid ping.uuid)) (hinsert : ∀ row, okCall (.insertPing row now))
    (hmark : ∀ id (mark : PingMark), mark.At now → okCall (.markPing id mark)) (hclear : ∀ id, okCall (.clearNag id))
    (hbegin : ∀ id, okCall (.beginDownAlert id now)) : (apply X ping now).Only okCall fun _ => True := by
  refine Prog.Only.bind ?_ fun check => (store_only (hinsert _)).bind fun _ => ?_
  · refine (store_only hfind).bind fun found => ?_
    split <;> trivial
  · split
    · trivial
    · exact applyKind_only X check _ _ now (hmark _) (hclear _) (hbegin _)

theorem ping_log (X : Crates) (route : PingRoute) (uuid : String) (body : List UInt8) (clientIp : Option String)
    (now : Instant) (db : Db) (cid : Int) :
    (Operation.log X (.ping route uuid body clientIp now) db).of cid =
      (Log.of ((run exec (apply X (route.request uuid body clientIp) now) db).events.map eventEntry) cid).reverse ++
      (Log.of ((calls exec (apply X (route.request uuid body clientIp) now) db).filterMap callEntry) cid).reverse := by
  rw [Operation.log, Log.of_reverse, Log.of_append, List.reverse_append, Operation.ran, Operation.program,
    run_erase_events, calls_erase]

theorem request_uuid (route : PingRoute) (uuid : String) (body : List UInt8) (clientIp : Option String) :
    (route.request uuid body clientIp).uuid = uuid := by
  cases route <;> rfl

theorem apply_notFound {X : Crates} {db : Db} {ping : PingRequest} (now : Instant)
    (hnone : db.findCheckByUuid ping.uuid = none) :
    run exec (apply X ping now) db = ⟨.fail .notFound, db, []⟩ ∧
      calls exec (apply X ping now) db = [.findCheckByUuid ping.uuid] := by
  have hfind : (exec (.findCheckByUuid ping.uuid) db).1 = .ok none := congrArg Except.ok hnone
  unfold apply resolve store
  simp only [Prog.bind_eq, Prog.bind_assoc]
  rw [run_perform_bind exec hfind, calls_perform_bind exec hfind]
  exact ⟨rfl, rfl⟩

theorem eventEntry_pingEvents_self (check : Check) (kind : PingKind) (exitCode : Option Int) (now : Instant) :
    Log.of ((pingEvents check kind exitCode now).map eventEntry) check.id =
      ((pingAlert kind check.status).map fun event => Item.alert event now (RowInput.pingCause exitCode event)).toList := by
  unfold pingEvents
  cases pingAlert kind check.status with
  | none => rfl
  | some event => simp [Log.of, eventEntry, Spawned.checkId, Spawned.kind, Spawned.at_, Spawned.cause]

theorem eventEntry_pingEvents_of_ne {check : Check} {cid : Int} (hne : cid ≠ check.id) (kind : PingKind)
    (exitCode : Option Int) (now : Instant) :
    Log.of ((pingEvents check kind exitCode now).map eventEntry) cid = [] := by
  unfold pingEvents
  cases pingAlert kind check.status with
  | none => rfl
  | some event => simp [Log.of, eventEntry, Spawned.checkId, Ne.symm hne]

/-- A ping of a check, for that check and for the others. -/
theorem apply_cases (X : Crates) {db : Db} {ping : PingRequest} {check : Check} (now : Instant)
    (hfound : db.findCheckByUuid ping.uuid = some check) :
    ∃ input : RowInput,
      (if check.status = .paused ∨ (run exec (apply X ping now) db).outcome = .panic then
        input = .record ping.kind now else input = .ping ping.kind ping.exitCode now) ∧
      (run exec (apply X ping now) db).state.findCheck check.id = some (input.row X check) ∧
      (∀ cid, cid ≠ check.id → (run exec (apply X ping now) db).state.findCheck cid = db.findCheck cid) ∧
      input.items X check = (Log.of ((run exec (apply X ping now) db).events.map eventEntry) check.id).reverse ++
        [.ping ping.kind now] ∧
      ∀ cid, cid ≠ check.id → Log.of ((run exec (apply X ping now) db).events.map eventEntry) cid = [] := by
  obtain ⟨hrun, _⟩ := apply_eq (X := X) now hfound
  have hfind (cid : Int) : (exec (.insertPing (ping.newPing check) now) db).2.findCheck cid = db.findCheck cid :=
    congrArg (fun table : AutoTable Check Check.id => table.find cid)
      (exec_checks (c := .insertPing (ping.newPing check) now) (by simp [StoreCall.writes]) db)
  have hself := findCheck_of_uuid hfound
  by_cases hpaused : check.status = .paused
  · rw [if_pos hpaused] at hrun
    rw [hrun]
    exact ⟨.record ping.kind now, by rw [if_pos (Or.inl hpaused)], (hfind _).trans hself,
      fun cid _ => hfind cid, rfl, fun _ _ => rfl⟩
  · rw [if_neg hpaused] at hrun
    rcases applyKind_eq X ping.kind ping.exitCode now ((hfind _).trans hself) with hpanic | ⟨db', hok, hmoved, hothers⟩
    · rw [hrun, hpanic]
      exact ⟨.record ping.kind now, by rw [if_pos (Or.inr rfl)], (hfind _).trans hself,
        fun cid _ => hfind cid, rfl, fun _ _ => rfl⟩
    · rw [hrun, hok]
      refine ⟨.ping ping.kind ping.exitCode now, ?_, hmoved, ?_, ?_, ?_⟩
      · rw [if_neg]
        simp [hpaused]
      · intro cid hne
        rw [hothers cid hne, hfind]
      · rw [eventEntry_pingEvents_self, RowInput.items]
        cases pingAlert ping.kind check.status <;> rfl
      · exact fun cid hne => eventEntry_pingEvents_of_ne hne _ _ _

/-- The calls of a ping leave its record in the log and nothing else. -/
theorem apply_entries (X : Crates) {db : Db} {ping : PingRequest} {check : Check} (now : Instant)
    (hfound : db.findCheckByUuid ping.uuid = some check) :
    (calls exec (apply X ping now) db).filterMap callEntry = [(check.id, .ping ping.kind now)] := by
  obtain ⟨_, hcalls⟩ := apply_eq (X := X) now hfound
  rw [hcalls]
  split
  · rfl
  · exact congrArg ((check.id, Item.ping ping.kind now) :: ·) (filterMap_callEntry (applyKind_unlogged X _ _ _ _) _)

theorem ping_refines (X : Crates) (route : PingRoute) (uuid : String) (body : List UInt8)
    (clientIp : Option String) (now : Instant) {db : Db} {cid : Int} {check : Check}
    (hrow : db.findCheck cid = some check) :
    Operation.Refines X (.ping route uuid body clientIp now) db cid check := by
  have hcid : check.id = cid := Table.find_key _ hrow
  have huuid : (route.request uuid body clientIp).uuid = uuid := request_uuid route uuid body clientIp
  have hafter : Operation.after X (.ping route uuid body clientIp now) db =
      (run exec (apply X (route.request uuid body clientIp) now) db).state := run_erase_state exec _ _
  cases hfound : db.findCheckByUuid uuid with
  | none =>
      have hfound' : db.findCheckByUuid (route.request uuid body clientIp).uuid = none := by rw [huuid, hfound]
      obtain ⟨hrun, hcalls⟩ := apply_notFound (X := X) now hfound'
      refine ⟨.idle, ?_, ?_, ?_⟩
      · simp [Operation.Gives, hfound]
      · rw [hafter, hrun]
        exact hrow
      · rw [ping_log, hrun, hcalls]
        rfl
  | some found =>
      have hfound' : db.findCheckByUuid (route.request uuid body clientIp).uuid = some found := by rw [huuid, hfound]
      obtain ⟨input, hinput, hself, hothers, hitems, hnone⟩ := apply_cases X now hfound'
      have hentries := apply_entries X now hfound'
      by_cases hid : found.id = cid
      · have heq : found = check := by
          have hfind := findCheck_of_uuid hfound
          rw [hid, hrow, Option.some.injEq] at hfind
          exact hfind.symm
        subst heq
        refine ⟨input, ?_, ?_, ?_⟩
        · simpa [Operation.Gives, hfound] using hinput
        · rw [hafter, ← hid]
          exact hself
        · rw [ping_log, hentries, ← hid, hitems]
          simp [Log.of]
      · refine ⟨.idle, ?_, ?_, ?_⟩
        · simp [Operation.Gives, hfound, hcid, hid]
        · rw [hafter, hothers cid (Ne.symm hid)]
          exact hrow
        · rw [ping_log, hentries, hnone cid (Ne.symm hid)]
          simp [Log.of, hid, RowInput.items]

end Pingward
