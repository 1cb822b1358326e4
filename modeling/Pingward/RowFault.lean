import Pingward.RowPass

/-! The passes against a store that refuses some of their writes. Each check has its own writes, so what is
refused for one check is felt by no other: a round with faults is again described by what it makes of its
own row. A check with a refused write is left as it was, except when the second of the scan's two writes is
refused; then the check is down and alerted, without the baseline that its reminders are counted from. -/

open KeyedTable StoreProgram

namespace Pingward

/-! ### Faults -/

/-- Which of the writes of a pass are refused, by the check they are for. -/
structure Faults where
  status : Int → Bool
  baseline : Int → Bool
  reminder : Int → Bool

def Faults.none : Faults := ⟨fun _ => false, fun _ => false, fun _ => false⟩

def Faults.refuses (f : Faults) : StoreCall → Bool
  | .setStatus id _ => f.status id
  | .beginDownAlert id _ => f.baseline id
  | .recordReminder id _ => f.reminder id
  | _ => false

/-- The store with these faults: a refused write changes nothing. -/
def faultyExec (f : Faults) (error : StoreError) (c : StoreCall) (db : Db) : Except StoreError c.Res × Db :=
  if f.refuses c then (.error error, db) else exec c db

theorem faultyExec_none (error : StoreError) : faultyExec .none error = exec := by
  funext c db
  cases c <;> rfl

/-- The check a write of a pass is for. -/
def StoreCall.writtenCheck : StoreCall → Option Int
  | .setStatus id _ | .beginDownAlert id _ | .recordReminder id _ => some id
  | _ => Option.none

/-- The events of a pass for a check; a pass that panics collects none. -/
def eventsOf (ran : Ran Db Spawned StoreError (List NotificationEvent)) (cid : Int) : List NotificationEvent :=
  match ran.outcome with
  | .ok events => events.filter fun event => event.checkId = cid
  | _ => []

/-- A pass with faults, and the same pass without. -/
def faultyRun (f : Faults) (error : StoreError) (pass : StoreProg StoreError (List NotificationEvent)) (db : Db) :
    Ran Db Spawned StoreError (List NotificationEvent) := run (faultyExec f error) pass db

/-- The pass makes a write for the check that is refused. -/
def FailedFor (f : Faults) (error : StoreError) (pass : StoreProg StoreError (List NotificationEvent)) (db : Db)
    (cid : Int) : Prop :=
  ∃ c ∈ calls (faultyExec f error) pass db, c.writtenCheck = some cid ∧ f.refuses c = true

/-! ### Rounds that may fail -/

/-- A round with the checks it can be computed for and the calls it makes. -/
structure FaultyRound extends Round where
  computes : Check → Bool
  calls : Check → List StoreCall

namespace FaultyRound

/-- The round, on a store. -/
structure Describes (r : FaultyRound) (store : (c : StoreCall) → Db → Except StoreError c.Res × Db)
    (round : Check → StoreProg StoreError (List NotificationEvent)) : Prop where
  computed : ∀ check db, r.computes check = true →
    run store (round check) db =
        ⟨.ok (r.events check), db.updateCheck check.id (r.change check) (r.change_id check), []⟩ ∧
      StoreProgram.calls store (round check) db = r.calls check
  panics : ∀ check db, r.computes check = false →
    run store (round check) db = ⟨.panic, db, []⟩ ∧ StoreProgram.calls store (round check) db = []

/-- The checks whose rounds are run. -/
def reached (r : FaultyRound) (checks : List Check) : List Check := checks.takeWhile r.computes

variable {r : FaultyRound} {store : (c : StoreCall) → Db → Except StoreError c.Res × Db}
  {round : Check → StoreProg StoreError (List NotificationEvent)}

theorem forChecks_run (hdescribes : r.Describes store round) (checks : List Check) (db : Db) :
    run store (forChecks round checks) db =
      ⟨if checks.all r.computes then .ok (checks.flatMap r.events) else .panic, r.after (r.reached checks) db, []⟩ := by
  induction checks generalizing db with
  | nil => rfl
  | cons check rest ih =>
      unfold forChecks
      rw [Prog.bind_eq, run_bind]
      cases hcomputes : r.computes check with
      | false =>
          rw [(hdescribes.panics check db hcomputes).1]
          simp [Ran.andThen, reached, hcomputes, Round.after]
      | true =>
          rw [(hdescribes.computed check db hcomputes).1]
          dsimp only [Ran.andThen]
          rw [Prog.bind_eq, run_bind, ih]
          by_cases hall : rest.all r.computes = true
          · simp [Ran.andThen, reached, hcomputes, hall, Round.after]
          · simp [Ran.andThen, reached, hcomputes, hall, Round.after]

theorem forChecks_calls (hdescribes : r.Describes store round) (checks : List Check) (db : Db) :
    StoreProgram.calls store (forChecks round checks) db = (r.reached checks).flatMap r.calls := by
  induction checks generalizing db with
  | nil => rfl
  | cons check rest ih =>
      unfold forChecks
      rw [Prog.bind_eq]
      cases hcomputes : r.computes check with
      | false =>
          obtain ⟨hrun, hcalls⟩ := hdescribes.panics check db hcomputes
          rw [calls_bind_of_panic store (congrArg Ran.outcome hrun), hcalls]
          simp [reached, hcomputes]
      | true =>
          obtain ⟨hrun, hcalls⟩ := hdescribes.computed check db hcomputes
          rw [calls_bind_of_ok store (congrArg Ran.outcome hrun), hcalls, hrun, Prog.bind_eq]
          have hlast : StoreProgram.calls store ((forChecks round rest).bind fun others => pure (r.events check ++ others))
              (db.updateCheck check.id (r.change check) (r.change_id check)) =
                StoreProgram.calls store (forChecks round rest)
                  (db.updateCheck check.id (r.change check) (r.change_id check)) := by
            have hrest := forChecks_run hdescribes rest (db.updateCheck check.id (r.change check) (r.change_id check))
            by_cases hall : rest.all r.computes = true
            · rw [if_pos hall] at hrest
              rw [calls_bind_of_ok store (congrArg Ran.outcome hrest)]
              exact List.append_nil _
            · rw [if_neg hall] at hrest
              exact calls_bind_of_panic store (congrArg Ran.outcome hrest)
          rw [hlast, ih]
          simp [reached, hcomputes]

/-! ### One check -/

section OneCheck

variable {db : Db} {p : Check → Bool} {cid : Int} {check : Check}

/-- The checks reached with the id of a check: that check, if it is reached. -/
theorem filter_reached (hrow : db.findCheck cid = some check) :
    (r.reached (db.selectChecks p)).filter (fun row => row.id = cid) =
      if check ∈ r.reached (db.selectChecks p) then [check] else [] := by
  have hsub : ((r.reached (db.selectChecks p)).filter fun row => row.id = cid).Sublist
      (if p check then [check] else []) := by
    rw [← filter_id hrow p]
    exact (List.takeWhile_sublist _).filter _
  have hid : check.id = cid := Table.find_key _ hrow
  split
  · rename_i hmem
    have hin : check ∈ (r.reached (db.selectChecks p)).filter fun row => row.id = cid :=
      List.mem_filter.mpr ⟨hmem, decide_eq_true hid⟩
    have hone : ((r.reached (db.selectChecks p)).filter fun row => row.id = cid).Sublist [check] := by
      split at hsub
      · exact hsub
      · exact hsub.trans (List.nil_sublist _)
    rcases List.sublist_singleton.mp hone with hnil | hsame
    · rw [hnil] at hin
      cases hin
    · exact hsame
  · rename_i hnot
    rw [List.filter_eq_nil_iff]
    intro row hmem hrowid
    have hlisted : row ∈ db.checks.rows := (Db.mem_selectChecks.mp ((List.takeWhile_sublist _).subset hmem)).1
    have hsame : row = check := db.checks.key_inj hlisted (Table.find_mem _ hrow) ((of_decide_eq_true hrowid).trans hid.symm)
    exact hnot (hsame ▸ hmem)

/-- With no such check nothing is reached for the id. -/
theorem filter_reached_none (hnone : db.findCheck cid = none) :
    (r.reached (db.selectChecks p)).filter (fun row => row.id = cid) = [] := by
  rw [List.filter_eq_nil_iff]
  intro row hmem hrowid
  have hlisted : row ∈ db.checks.rows := (Db.mem_selectChecks.mp ((List.takeWhile_sublist _).subset hmem)).1
  exact Table.find_eq_none_iff _ |>.mp hnone row hlisted (of_decide_eq_true hrowid)

/-- A pass that comes to the rounds of the selected checks, after some reads. -/
structure Covers (r : FaultyRound) (store : (c : StoreCall) → Db → Except StoreError c.Res × Db)
    (pass : StoreProg StoreError (List NotificationEvent)) (db : Db) (p : Check → Bool) : Prop where
  run_eq : run store pass db =
    ⟨if (db.selectChecks p).all r.computes then .ok ((db.selectChecks p).flatMap r.events) else .panic,
      r.after (r.reached (db.selectChecks p)) db, []⟩
  calls_eq : ∃ reads, StoreProgram.calls store pass db = reads ++ (r.reached (db.selectChecks p)).flatMap r.calls ∧
    ∀ c ∈ reads, c.writtenCheck = none
  event_id : ∀ check, ∀ event ∈ r.events check, event.checkId = check.id
  call_id : ∀ check, ∀ c ∈ r.calls check, c.writtenCheck = some check.id

variable {pass : StoreProg StoreError (List NotificationEvent)}

theorem Covers.row (hcovers : r.Covers store pass db p) (hrow : db.findCheck cid = some check) :
    (run store pass db).state.findCheck cid =
      some (if check ∈ r.reached (db.selectChecks p) then r.change check check else check) := by
  rw [hcovers.run_eq, Round.findCheck_after, filter_reached hrow, hrow, Option.map_some]
  split <;> rfl

theorem Covers.row_none (hcovers : r.Covers store pass db p) (hnone : db.findCheck cid = none) :
    (run store pass db).state.findCheck cid = none := by
  rw [hcovers.run_eq, Round.findCheck_after, hnone]
  rfl

theorem filter_flatMap_events (hid : ∀ check, ∀ event ∈ r.events check, event.checkId = check.id) (checks : List Check) :
    (checks.flatMap r.events).filter (fun event => event.checkId = cid) =
      (checks.filter fun row => row.id = cid).flatMap r.events := by
  rw [List.filter_flatMap]
  induction checks with
  | nil => rfl
  | cons row rest ih =>
      rw [List.flatMap_cons, ih]
      by_cases hrow : row.id = cid
      · have hall : (r.events row).filter (fun event => event.checkId = cid) = r.events row :=
          List.filter_eq_self.mpr fun event hevent => decide_eq_true ((hid row event hevent).trans hrow)
        rw [hall, List.filter_cons, if_pos (decide_eq_true hrow), List.flatMap_cons]
      · have hnone : (r.events row).filter (fun event => event.checkId = cid) = [] :=
          List.filter_eq_nil_iff.mpr fun event hevent heq => hrow ((hid row event hevent).symm.trans (of_decide_eq_true heq))
        rw [hnone, List.nil_append, List.filter_cons, if_neg (by simpa using hrow)]

/-- All selected checks are reached when every round can be computed. -/
theorem reached_of_all {checks : List Check} (hall : checks.all r.computes = true) : r.reached checks = checks :=
  List.takeWhile_eq_self_iff.mpr fun check hmem => List.all_eq_true.mp hall check hmem

theorem Covers.events (hcovers : r.Covers store pass db p) (hrow : db.findCheck cid = some check) :
    eventsOf (run store pass db) cid =
      if (db.selectChecks p).all r.computes ∧ check ∈ r.reached (db.selectChecks p) then r.events check
      else [] := by
  rw [hcovers.run_eq, eventsOf]
  by_cases hall : (db.selectChecks p).all r.computes = true
  · have hfilter := filter_reached (r := r) (p := p) hrow
    rw [reached_of_all hall] at hfilter ⊢
    simp only [hall, if_true, true_and, filter_flatMap_events hcovers.event_id, hfilter]
    split <;> simp
  · simp only [hall, Bool.false_eq_true, if_false, false_and]

theorem Covers.events_none (hcovers : r.Covers store pass db p) (hnone : db.findCheck cid = none) :
    eventsOf (run store pass db) cid = [] := by
  rw [hcovers.run_eq, eventsOf]
  by_cases hall : (db.selectChecks p).all r.computes = true
  · have hfilter := filter_reached_none (r := r) (p := p) hnone
    rw [reached_of_all hall] at hfilter
    simp only [hall, if_true, filter_flatMap_events hcovers.event_id, hfilter, List.flatMap_nil]
  · simp only [hall, Bool.false_eq_true, if_false]

variable {f : Faults} {error : StoreError}

theorem Covers.failed_iff (hcovers : r.Covers (faultyExec f error) pass db p) (hrow : db.findCheck cid = some check) :
    FailedFor f error pass db cid ↔
      check ∈ r.reached (db.selectChecks p) ∧ ∃ c ∈ r.calls check, f.refuses c = true := by
  obtain ⟨reads, hcalls, hreads⟩ := hcovers.calls_eq
  have hid : check.id = cid := Table.find_key _ hrow
  unfold FailedFor
  rw [hcalls]
  constructor
  · rintro ⟨c, hmem, hwritten, hrefused⟩
    rcases List.mem_append.mp hmem with hread | hround
    · rw [hreads c hread] at hwritten
      cases hwritten
    · obtain ⟨row, hreached, hc⟩ := List.mem_flatMap.mp hround
      have hrowid : row.id = cid := Option.some.inj ((hcovers.call_id row c hc).symm.trans hwritten)
      have hfilter : row ∈ (r.reached (db.selectChecks p)).filter fun row => row.id = cid :=
        List.mem_filter.mpr ⟨hreached, decide_eq_true hrowid⟩
      rw [filter_reached hrow] at hfilter
      split at hfilter
      · rename_i hin
        rw [List.mem_singleton] at hfilter
        exact ⟨hin, c, hfilter ▸ hc, hrefused⟩
      · cases hfilter
  · rintro ⟨hreached, c, hc, hrefused⟩
    exact ⟨c, List.mem_append_right _ (List.mem_flatMap.mpr ⟨check, hreached, hc⟩),
      (hcovers.call_id check c hc).trans (congrArg some hid), hrefused⟩

theorem Covers.not_failed_none (hcovers : r.Covers (faultyExec f error) pass db p) (hnone : db.findCheck cid = none) :
    ¬ FailedFor f error pass db cid := by
  obtain ⟨reads, hcalls, hreads⟩ := hcovers.calls_eq
  rintro ⟨c, hmem, hwritten, _⟩
  rw [hcalls] at hmem
  rcases List.mem_append.mp hmem with hread | hround
  · rw [hreads c hread] at hwritten
    cases hwritten
  · obtain ⟨row, hreached, hc⟩ := List.mem_flatMap.mp hround
    have hrowid : row.id = cid := Option.some.inj ((hcovers.call_id row c hc).symm.trans hwritten)
    have hfilter : row ∈ (r.reached (db.selectChecks p)).filter fun row => row.id = cid :=
      List.mem_filter.mpr ⟨hreached, decide_eq_true hrowid⟩
    rw [filter_reached_none hnone] at hfilter
    cases hfilter

end OneCheck

end FaultyRound

end Pingward
