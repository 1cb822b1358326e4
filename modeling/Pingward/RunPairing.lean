import Pingward.KeysetWalk
import Pingward.ModelRuns
import Pingward.PairingBasic
import Pingward.RowOperation

/-! What the durations of runs mean. In the order of time and id a finish is paired with the latest start since the
finish before it. A window of the newest pings is the tail of that order, so that its durations are those of the whole
history, but for one finish whose start is too old. -/

open StoreProgram

namespace Pingward

/-- In the order of time and id. -/
def PingSummary.Before (a b : PingSummary) : Prop := a.createdAt < b.createdAt ∨ a.createdAt = b.createdAt ∧ a.id < b.id

instance (a b : PingSummary) : Decidable (a.Before b) := inferInstanceAs (Decidable (_ ∨ _))

/-- The run of a finish: the latest start before it, which no earlier finish can have taken. -/
structure RunOf (pings : List PingSummary) (start finish : PingSummary) : Prop where
  start_mem : start ∈ pings
  start_kind : start.kind = .start
  finish_mem : finish ∈ pings
  finish_kind : finish.kind = .success ∨ finish.kind = .fail
  before : start.Before finish
  since_finish : ∀ earlier ∈ pings, earlier.kind = .success ∨ earlier.kind = .fail → earlier.Before finish →
    earlier.Before start
  latest : ∀ other ∈ pings, other.kind = .start → other.Before finish → other = start ∨ other.Before start

/-! ### The order -/

section Order

variable {pings pings' : List PingSummary} {a b c : PingSummary}

theorem PingSummary.Before.irrefl (a : PingSummary) : ¬a.Before a := by
  rintro (hlt | ⟨-, hlt⟩) <;> exact lt_irrefl _ hlt

theorem PingSummary.Before.trans (hab : a.Before b) (hbc : b.Before c) : a.Before c := by
  rcases hab with hab | ⟨hab, hid⟩
  · rcases hbc with hbc | ⟨hbc, -⟩
    · exact Or.inl (hab.trans hbc)
    · exact Or.inl (hab.trans_eq hbc)
  · rcases hbc with hbc | ⟨hbc, hid'⟩
    · exact Or.inl (hab.trans_lt hbc)
    · exact Or.inr ⟨hab.trans hbc, hid.trans hid'⟩

theorem PingSummary.Before.asymm (hab : a.Before b) : ¬b.Before a := by
  intro hba
  exact PingSummary.Before.irrefl a (hab.trans hba)

/-- Two pings of different ids are in one order or the other. -/
theorem PingSummary.before_or_before (hid : a.id ≠ b.id) : a.Before b ∨ b.Before a := by
  rcases lt_trichotomy a.createdAt b.createdAt with hlt | heq | hgt
  · exact Or.inl (Or.inl hlt)
  · rcases hid.lt_or_gt with hlt | hgt
    · exact Or.inl (Or.inr ⟨heq, hlt⟩)
    · exact Or.inr (Or.inr ⟨heq.symm, hgt⟩)
  · exact Or.inr (Or.inl hgt)

/-- `runOrder` is this order with the ping itself. -/
theorem runOrder_iff : runOrder a b = true ↔ a.Before b ∨ a.createdAt = b.createdAt ∧ a.id = b.id := by
  unfold runOrder PingSummary.Before
  rw [decide_eq_true_eq, Int.le_iff_lt_or_eq]
  tauto

/-- The pings of a history are told apart by their ids. -/
theorem eq_of_id (hids : (pings.map PingSummary.id).Nodup) (ha : a ∈ pings) (hb : b ∈ pings) (hid : a.id = b.id) :
    a = b := List.inj_on_of_nodup_map hids ha hb hid

theorem runOrder_trans (a b c : PingSummary) (hab : runOrder a b = true) (hbc : runOrder b c = true) :
    runOrder a c = true := by
  rw [runOrder_iff] at *
  rcases hab with hab | ⟨hab, hid⟩
  · rcases hbc with hbc | ⟨hbc, hid'⟩
    · exact Or.inl (hab.trans hbc)
    · refine Or.inl ?_
      unfold PingSummary.Before at hab ⊢
      rwa [← hbc, ← hid']
  · unfold PingSummary.Before at hbc ⊢
    rwa [hab, hid]

theorem runOrder_total (a b : PingSummary) : (runOrder a b || runOrder b a) = true := by
  rw [Bool.or_eq_true, runOrder_iff, runOrder_iff]
  by_cases hid : a.id = b.id
  · rcases lt_trichotomy a.createdAt b.createdAt with hlt | heq | hgt
    · exact Or.inl (Or.inl (Or.inl hlt))
    · exact Or.inl (Or.inr ⟨heq, hid⟩)
    · exact Or.inr (Or.inl (Or.inl hgt))
  · rcases PingSummary.before_or_before hid with hlt | hgt
    · exact Or.inl (Or.inl hlt)
    · exact Or.inr (Or.inl hgt)

theorem sorted_runOrder (hids : (pings.map PingSummary.id).Nodup) :
    (pings.mergeSort runOrder).Pairwise PingSummary.Before := by
  have hmerged : (pings.mergeSort runOrder).Pairwise fun a b => runOrder a b = true :=
    List.pairwise_mergeSort runOrder_trans runOrder_total pings
  have hnodup : ((pings.mergeSort runOrder).map PingSummary.id).Nodup :=
    (((List.mergeSort_perm pings _).map PingSummary.id).nodup_iff).mpr hids
  rw [List.Nodup, List.pairwise_map] at hnodup
  apply (hmerged.and hnodup).imp
  rintro a b ⟨hle, hne⟩
  exact (runOrder_iff.mp hle).resolve_right fun heq => hne heq.2

/-- There is one way to put pings in this order. -/
theorem eq_of_sorted (hsorted : pings.Pairwise PingSummary.Before) (hsorted' : pings'.Pairwise PingSummary.Before)
    (hperm : pings.Perm pings') : pings = pings' := by
  refine hperm.eq_of_pairwise ?_ hsorted hsorted'
  intro a b _ _ hab hba
  exact absurd hba hab.asymm

end Order

/-! ### The scan -/

def isStart (p : PingSummary) : Bool := p.kind = .start

def isEnd (p : PingSummary) : Bool := isFinish p.kind

/-- The entry of a run. -/
def runEntry (run : PingSummary × PingSummary) : Int × Int :=
  (run.2.id, numSeconds (run.2.createdAt - run.1.createdAt))

theorem numSeconds_nonneg {d : Int} (hd : 0 ≤ d) : 0 ≤ numSeconds d := Int.tdiv_nonneg hd (by decide)

theorem numSeconds_eq {d : Int} (hd : 0 ≤ d) : numSeconds d = d / nanosPerSec := Int.tdiv_eq_ediv_of_nonneg hd

/-- The loop over pings in order is the scan for pairs. -/
theorem foldl_runStep {ordered : List PingSummary} (hsorted : ordered.Pairwise PingSummary.Before)
    (waiting : Option PingSummary) (found : List (PingSummary × PingSummary))
    (hwaiting : ∀ start, waiting = some start → ∀ p ∈ ordered, start.createdAt ≤ p.createdAt) :
    ordered.foldl runStep (waiting.map PingSummary.createdAt, found.map runEntry) =
      let scanned := Pairing.scan isStart isEnd (waiting, found) ordered
      (scanned.1.map PingSummary.createdAt, scanned.2.map runEntry) := by
  induction ordered generalizing waiting found with
  | nil => rfl
  | cons p rest ih =>
      rw [List.pairwise_cons] at hsorted
      have hlater : ∀ q ∈ rest, p.createdAt ≤ q.createdAt := by
        intro q hq
        rcases hsorted.1 q hq with hlt | ⟨heq, -⟩
        · exact hlt.le
        · exact heq.le
      have hrest : ∀ start, waiting = some start → ∀ q ∈ rest, start.createdAt ≤ q.createdAt := by
        intro start hstart q hq
        exact hwaiting start hstart q (List.mem_cons_of_mem _ hq)
      have hscan (state : Pairing.State PingSummary) : Pairing.scan isStart isEnd state (p :: rest) =
          Pairing.scan isStart isEnd (Pairing.step isStart isEnd state p) rest := rfl
      rw [List.foldl_cons, hscan]
      rcases Pairing.step_cases isStart isEnd (waiting, found) p with
        ⟨hstart, hstep⟩ | ⟨hstart, hend, hstep⟩ | ⟨⟨hstart, hend⟩, hstep⟩
      · have hrun : runStep (waiting.map PingSummary.createdAt, found.map runEntry) p =
            ((some p).map PingSummary.createdAt, found.map runEntry) := if_pos (of_decide_eq_true hstart)
        rw [hstep, hrun]
        apply ih hsorted.2 (some p) found
        rintro start ⟨rfl⟩
        exact hlater
      · have hkind : ¬p.kind = .start := of_decide_eq_false hstart
        have hnone : ∀ start, (none : Option PingSummary) = some start → ∀ q ∈ rest, start.createdAt ≤ q.createdAt := by
          intro start hstart
          cases hstart
        have hrun : runStep (waiting.map PingSummary.createdAt, found.map runEntry) p =
            ((none : Option PingSummary).map PingSummary.createdAt,
              ((waiting.map (·, p)).toList ++ found).map runEntry) := by
          unfold runStep
          rw [if_neg hkind, if_neg (by rw [show isFinish p.kind = true from hend]; decide)]
          cases hpending : waiting with
          | none => rfl
          | some start =>
              have hnonneg : 0 ≤ numSeconds (p.createdAt - start.createdAt) :=
                numSeconds_nonneg (Int.sub_nonneg.mpr (hwaiting start hpending p List.mem_cons_self))
              exact congrArg (Prod.mk none) (if_pos hnonneg)
        rw [hstep, hrun]
        exact ih hsorted.2 none _ hnone
      · have hkind : ¬p.kind = .start := of_decide_eq_false hstart
        have hrun : runStep (waiting.map PingSummary.createdAt, found.map runEntry) p =
            (waiting.map PingSummary.createdAt, found.map runEntry) := by
          unfold runStep
          rw [if_neg hkind, if_pos (by rw [show isFinish p.kind = false from hend]; rfl)]
        rw [hstep, hrun]
        exact ih hsorted.2 waiting found hrest

section Runs

variable {pings pings' : List PingSummary}

/-- The pairs among the pings in order. -/
def runs (pings : List PingSummary) : List (PingSummary × PingSummary) :=
  Pairing.pairs isStart isEnd (pings.mergeSort runOrder)

theorem runDurations_eq (hids : (pings.map PingSummary.id).Nodup) : runDurations pings = (runs pings).map runEntry :=
  congrArg Prod.snd (foldl_runStep (sorted_runOrder hids) none [] fun start hstart => by cases hstart)

/-- A pair of the scan is a run. -/
theorem mem_runs_iff (hids : (pings.map PingSummary.id).Nodup) {start finish : PingSummary} :
    (start, finish) ∈ runs pings ↔ RunOf pings start finish := by
  have hfinish (p : PingSummary) : isEnd p = true ↔ p.kind = .success ∨ p.kind = .fail := decide_eq_true_iff
  have hstart (p : PingSummary) : isStart p = true ↔ p.kind = .start := decide_eq_true_iff
  unfold runs
  rw [Pairing.mem_pairs_iff, Pairing.paired_iff_of_pairwise PingSummary.Before.irrefl
    (fun _ _ _ => PingSummary.Before.trans) (sorted_runOrder hids)]
  simp only [List.mem_mergeSort]
  constructor
  · rintro ⟨hs, hf, hopens, -, hcloses, hbefore, hneutral⟩
    refine ⟨hs, (hstart start).mp hopens, hf, (hfinish finish).mp hcloses, hbefore, ?_, ?_⟩
    · intro earlier hearlier hkind hlt
      by_contra hlate
      have hne : earlier.id ≠ start.id := by
        intro hid
        rw [eq_of_id hids hearlier hs hid, (hstart start).mp hopens] at hkind
        rcases hkind with hkind | hkind <;> cases hkind
      have hbetween := (PingSummary.before_or_before hne).resolve_left hlate
      have hclosed := (hneutral earlier hearlier hbetween hlt).2
      rw [(hfinish earlier).mpr hkind] at hclosed
      cases hclosed
    · intro other hother hkind hlt
      by_cases hid : other.id = start.id
      · exact Or.inl (eq_of_id hids hother hs hid)
      · refine Or.inr ((PingSummary.before_or_before hid).resolve_right fun hbetween => ?_)
        have hopened := (hneutral other hother hbetween hlt).1
        rw [(hstart other).mpr hkind] at hopened
        cases hopened
  · intro hrun
    refine ⟨hrun.start_mem, hrun.finish_mem, (hstart start).mpr hrun.start_kind, ?_, (hfinish finish).mpr hrun.finish_kind,
      hrun.before, ?_⟩
    · refine decide_eq_false fun hkind => ?_
      rcases hrun.finish_kind with hfail | hfail <;> rw [hkind] at hfail <;> cases hfail
    · intro m hm hafter hbefore
      constructor
      · refine decide_eq_false fun hkind => ?_
        rcases hrun.latest m hm hkind hbefore with rfl | hlt
        · exact PingSummary.Before.irrefl _ hafter
        · exact hafter.asymm hlt
      · exact decide_eq_false fun hkind => hafter.asymm (hrun.since_finish m hm hkind hbefore)

/-- A finish has one run. -/
theorem RunOf.start_unique {start start' finish : PingSummary}
    (hrun : RunOf pings start finish) (hrun' : RunOf pings start' finish) : start = start' := by
  rcases hrun'.latest start hrun.start_mem hrun.start_kind hrun.before with heq | hlt
  · exact heq
  · rcases hrun.latest start' hrun'.start_mem hrun'.start_kind hrun'.before with heq | hgt
    · exact heq.symm
    · exact absurd hgt hlt.asymm

/-- A start is used by one finish. -/
theorem RunOf.finish_unique (hids : (pings.map PingSummary.id).Nodup) {start finish finish' : PingSummary}
    (hrun : RunOf pings start finish) (hrun' : RunOf pings start finish') : finish = finish' := by
  by_cases hid : finish.id = finish'.id
  · exact eq_of_id hids hrun.finish_mem hrun'.finish_mem hid
  · rcases PingSummary.before_or_before hid with hlt | hlt
    · exact absurd (hrun'.since_finish finish hrun.finish_mem hrun.finish_kind hlt) hrun.before.asymm
    · exact absurd (hrun.since_finish finish' hrun'.finish_mem hrun'.finish_kind hlt) hrun'.before.asymm

/-- The whole seconds from the start to the finish. -/
theorem RunOf.entry {start finish : PingSummary} (hrun : RunOf pings start finish) :
    runEntry (start, finish) = (finish.id, (finish.createdAt - start.createdAt) / nanosPerSec) ∧
      0 ≤ (finish.createdAt - start.createdAt) / nanosPerSec := by
  have hnonneg : 0 ≤ finish.createdAt - start.createdAt := by
    rcases hrun.before with hlt | ⟨heq, -⟩
    · exact Int.sub_nonneg.mpr hlt.le
    · exact Int.sub_nonneg.mpr heq.le
  exact ⟨congrArg (Prod.mk finish.id) (numSeconds_eq hnonneg), Int.ediv_nonneg hnonneg (by decide)⟩

/-! ### The map -/

/-- A lookup in a map whose keys are determined. -/
theorem lookup_eq_some_iff {α : Type} {map : List (Int × α)}
    (hkeys : ∀ entry ∈ map, ∀ other ∈ map, entry.1 = other.1 → entry = other) {key : Int} {value : α} :
    lookup map key = some value ↔ (key, value) ∈ map := by
  unfold lookup
  rw [Option.map_eq_some_iff]
  constructor
  · rintro ⟨entry, hfind, rfl⟩
    have hkey : entry.1 = key := by simpa using List.find?_some hfind
    rw [← hkey]
    exact List.mem_of_find?_eq_some hfind
  · intro hmem
    cases hfind : map.find? fun entry => entry.1 = key with
    | none => exact absurd (List.find?_eq_none.mp hfind _ hmem) (by simp)
    | some entry =>
        have hkey : entry.1 = key := by simpa using List.find?_some hfind
        have heq := hkeys entry (List.mem_of_find?_eq_some hfind) _ hmem hkey
        exact ⟨entry, rfl, by rw [heq]⟩

theorem runs_keys (hids : (pings.map PingSummary.id).Nodup) :
    ∀ entry ∈ (runs pings).map runEntry, ∀ other ∈ (runs pings).map runEntry, entry.1 = other.1 → entry = other := by
  intro entry hentry other hother hkey
  obtain ⟨⟨start, finish⟩, hrun, rfl⟩ := List.mem_map.mp hentry
  obtain ⟨⟨start', finish'⟩, hrun', rfl⟩ := List.mem_map.mp hother
  have hrun := (mem_runs_iff hids).mp hrun
  have hrun' := (mem_runs_iff hids).mp hrun'
  have hfinish : finish = finish' := eq_of_id hids hrun.finish_mem hrun'.finish_mem hkey
  subst hfinish
  rw [hrun.start_unique hrun']

theorem lookup_runDurations (hids : (pings.map PingSummary.id).Nodup) {id n : Int} :
    lookup (runDurations pings) id = some n ↔ ∃ start finish, RunOf pings start finish ∧ finish.id = id ∧
      n = (finish.createdAt - start.createdAt) / nanosPerSec := by
  rw [runDurations_eq hids, lookup_eq_some_iff (runs_keys hids), List.mem_map]
  constructor
  · rintro ⟨⟨start, finish⟩, hmem, hentry⟩
    have hrun := (mem_runs_iff hids).mp hmem
    rw [hrun.entry.1, Prod.mk.injEq] at hentry
    exact ⟨start, finish, hrun, hentry.1, hentry.2.symm⟩
  · rintro ⟨start, finish, hrun, rfl, rfl⟩
    exact ⟨(start, finish), (mem_runs_iff hids).mpr hrun, hrun.entry.1⟩

theorem runDurations_perm (hids : (pings.map PingSummary.id).Nodup) (hperm : pings.Perm pings') :
    runDurations pings = runDurations pings' := by
  have hids' : (pings'.map PingSummary.id).Nodup := ((hperm.map PingSummary.id).nodup_iff).mp hids
  have hsorted : pings.mergeSort runOrder = pings'.mergeSort runOrder :=
    eq_of_sorted (sorted_runOrder hids) (sorted_runOrder hids')
      ((List.mergeSort_perm pings _).trans (hperm.trans (List.mergeSort_perm pings' _).symm))
  unfold runDurations
  rw [hsorted]

/-- Only starts and finishes count. -/
theorem runDurations_filter (hids : (pings.map PingSummary.id).Nodup) {keep : PingSummary → Bool}
    (hkeep : ∀ p, p.kind = .start ∨ p.kind = .success ∨ p.kind = .fail → keep p = true) :
    runDurations (pings.filter keep) = runDurations pings := by
  have hids' : ((pings.filter keep).map PingSummary.id).Nodup := hids.sublist (List.filter_sublist.map _)
  have hsorted : (pings.filter keep).mergeSort runOrder = (pings.mergeSort runOrder).filter keep :=
    eq_of_sorted (sorted_runOrder hids') ((sorted_runOrder hids).filter _)
      ((List.mergeSort_perm _ _).trans ((List.mergeSort_perm pings _).filter keep).symm)
  have hneutral : ∀ p, keep p = false → Pairing.Neutral isStart isEnd p := by
    intro p hp
    have hother : ¬(p.kind = .start ∨ p.kind = .success ∨ p.kind = .fail) := by
      intro hkind
      rw [hkeep p hkind] at hp
      cases hp
    rw [not_or] at hother
    exact ⟨decide_eq_false hother.1, decide_eq_false hother.2⟩
  rw [runDurations_eq hids', runDurations_eq hids, runs, hsorted, Pairing.pairs_filter hneutral]
  rfl

/-- **Run pairing.** Whatever the order of the input, a finish is mapped to the whole seconds from its start; a start
serves one finish, other pings change nothing and no value is negative. -/
theorem run_pairing (hids : (pings.map PingSummary.id).Nodup) :
    (∀ pings', pings.Perm pings' → runDurations pings' = runDurations pings) ∧
      (∀ id n, lookup (runDurations pings) id = some n ↔ ∃ start finish, RunOf pings start finish ∧ finish.id = id ∧
        n = (finish.createdAt - start.createdAt) / nanosPerSec) ∧
      (∀ start finish finish', RunOf pings start finish → RunOf pings start finish' → finish = finish') ∧
      runDurations (pings.filter fun p => p.kind ≠ .log) = runDurations pings ∧
      ∀ id n, lookup (runDurations pings) id = some n → 0 ≤ n := by
  refine ⟨fun pings' hperm => (runDurations_perm hids hperm).symm, fun id n => lookup_runDurations hids,
    fun start finish finish' hrun hrun' => hrun.finish_unique hids hrun', runDurations_filter hids ?_, ?_⟩
  · intro p hkind
    refine decide_eq_true fun hlog => ?_
    rw [hlog] at hkind
    rcases hkind with hkind | hkind | hkind <;> cases hkind
  · intro id n hn
    obtain ⟨start, finish, hrun, -, rfl⟩ := (lookup_runDurations hids).mp hn
    exact hrun.entry.2

/-- A run of four minutes, the pings in the order the store lists them. -/
def backupHistory : List PingSummary :=
  [⟨3, 1, .success, 242 * nanosPerSec⟩, ⟨2, 1, .log, 100 * nanosPerSec⟩, ⟨1, 1, .start, 0⟩]

theorem run_pairing_backup : lookup (runDurations backupHistory) 3 = some 242 :=
  ((run_pairing (show (backupHistory.map PingSummary.id).Nodup by decide)).2.1 3 242).mpr
    ⟨⟨1, 1, .start, 0⟩, ⟨3, 1, .success, 242 * nanosPerSec⟩,
      ⟨by decide, rfl, by decide, Or.inl rfl, by decide, by decide, by decide⟩, rfl, by decide⟩

end Runs

/-! ### A window of the newest pings -/

section Window

/-- The summaries of all pings of a check. -/
def Db.pingHistory (db : Db) (checkId : Int) : List PingSummary :=
  (db.pings.rows.filter fun row => row.checkId = checkId).map fun row => ⟨row.id, row.checkId, row.kind, row.createdAt⟩

variable {db : Db} {checkId : Int}

theorem pingHistory_nodup (db : Db) (checkId : Int) : ((db.pingHistory checkId).map PingSummary.id).Nodup := by
  have hids : ((db.pings.rows.filter fun row => row.checkId = checkId).map Ping.id).Nodup :=
    db.pings.nodup.sublist (List.filter_sublist.map _)
  rw [Db.pingHistory, List.map_map]
  exact hids

/-- The pings with decreasing ids are in the reverse of the order of time and id, when no id goes back in time. -/
theorem sorted_of_decreasing {pings : List PingSummary} (hsorted : Decreasing PingSummary.id pings)
    (htime : ∀ p ∈ pings, ∀ q ∈ pings, p.id ≤ q.id → p.createdAt ≤ q.createdAt) :
    pings.reverse.Pairwise PingSummary.Before := by
  rw [List.pairwise_reverse]
  apply hsorted.imp_of_mem
  intro p q hp hq hlt
  rcases (htime q hq p hp hlt.le).lt_or_eq with hbefore | heq
  · exact Or.inl hbefore
  · exact Or.inr ⟨heq, hlt⟩

/-- The history in order is an older part and the window in order. -/
theorem history_sorted (k : Nat)
    (htime : ∀ p ∈ db.pingHistory checkId, ∀ q ∈ db.pingHistory checkId, p.id ≤ q.id → p.createdAt ≤ q.createdAt) :
    ∃ older, (db.pingHistory checkId).mergeSort runOrder =
      older ++ (db.listRecentPingSummaries checkId k).mergeSort runOrder := by
  let summary : Ping → PingSummary := fun row => ⟨row.id, row.checkId, row.kind, row.createdAt⟩
  let newest := orderByDesc Ping.id (db.pings.rows.filter fun row => row.checkId = checkId)
  have hnewest : Decreasing PingSummary.id (newest.map summary) := by
    have hrows : Decreasing Ping.id newest :=
      orderByDesc_decreasing (db.pings.nodup.sublist (List.filter_sublist.map _))
    exact List.pairwise_map.mpr hrows
  have hperm : (newest.map summary).Perm (db.pingHistory checkId) := (List.mergeSort_perm _ _).map summary
  have htime' : ∀ p ∈ newest.map summary, ∀ q ∈ newest.map summary, p.id ≤ q.id → p.createdAt ≤ q.createdAt := by
    intro p hp q hq
    exact htime p (hperm.mem_iff.mp hp) q (hperm.mem_iff.mp hq)
  have hwindow : db.listRecentPingSummaries checkId k = (newest.map summary).take k := by
    rw [← List.map_take]
    rfl
  have hsplit : (newest.map summary).reverse =
      ((newest.map summary).drop k).reverse ++ ((newest.map summary).take k).reverse := by
    rw [← List.reverse_append, List.take_append_drop]
  have hall := sorted_of_decreasing hnewest htime'
  have htail : ((newest.map summary).take k).reverse.Pairwise PingSummary.Before := by
    rw [hsplit] at hall
    exact (List.pairwise_append.mp hall).2.1
  have hids : ((db.listRecentPingSummaries checkId k).map PingSummary.id).Nodup := by
    rw [hwindow]
    exact hnewest.nodup.sublist ((List.take_sublist k _).map _)
  refine ⟨((newest.map summary).drop k).reverse, ?_⟩
  have hhistory : (db.pingHistory checkId).mergeSort runOrder = (newest.map summary).reverse :=
    eq_of_sorted (sorted_runOrder (pingHistory_nodup db checkId)) hall
      ((List.mergeSort_perm _ _).trans (hperm.symm.trans (List.reverse_perm _).symm))
  have hshown : (db.listRecentPingSummaries checkId k).mergeSort runOrder = ((newest.map summary).take k).reverse :=
    eq_of_sorted (sorted_runOrder hids) htail
      ((List.mergeSort_perm _ _).trans (by rw [hwindow]; exact (List.reverse_perm _).symm))
  rw [hhistory, hshown, hsplit]

theorem recent_mem_history {k : Nat} {p : PingSummary} (hp : p ∈ db.listRecentPingSummaries checkId k) :
    p ∈ db.pingHistory checkId := by
  obtain ⟨row, hrow, rfl⟩ := List.mem_map.mp hp
  exact List.mem_map_of_mem (List.mem_mergeSort.mp (List.mem_of_mem_take hrow))

/-- The page computes the durations of the newest pings. -/
theorem run_windowDurations (db : Db) (checkId : Int) : (run exec (windowDurations checkId none) db).outcome =
    .ok (runDurations (db.listRecentPingSummaries checkId heartbeatWindow)) := rfl

/-- **Windowed durations.** When no ping is older than one of a smaller id, the durations of the newest pings are those
of the whole history, and the history has a duration for at most one finish of the window that the window has not. -/
theorem window_durations (db : Db) (checkId : Int) (k : Nat)
    (htime : ∀ p ∈ db.pingHistory checkId, ∀ q ∈ db.pingHistory checkId, p.id ≤ q.id → p.createdAt ≤ q.createdAt) :
    let whole := runDurations (db.pingHistory checkId)
    let window := runDurations (db.listRecentPingSummaries checkId k)
    (∀ id n, lookup window id = some n → lookup whole id = some n) ∧
      ∀ f ∈ db.listRecentPingSummaries checkId k, ∀ g ∈ db.listRecentPingSummaries checkId k,
        (lookup whole f.id).isSome → lookup window f.id = none → (lookup whole g.id).isSome → lookup window g.id = none →
          f = g := by
  intro whole window
  have hids := pingHistory_nodup db checkId
  have hids' : ((db.listRecentPingSummaries checkId k).map PingSummary.id).Nodup := by
    have hrows : Decreasing Ping.id (orderByDesc Ping.id (db.pings.rows.filter fun row => row.checkId = checkId)) :=
      orderByDesc_decreasing (db.pings.nodup.sublist (List.filter_sublist.map _))
    have hnodup := hrows.nodup.sublist ((List.take_sublist k _).map _)
    rw [Db.listRecentPingSummaries, List.map_map]
    exact hnodup
  obtain ⟨older, hsorted⟩ := history_sorted k htime
  have hwhole {id n : Int} : lookup whole id = some n ↔ (id, n) ∈ (runs (db.pingHistory checkId)).map runEntry := by
    rw [← lookup_eq_some_iff (runs_keys hids), ← runDurations_eq hids]
  have hwindow {id n : Int} :
      lookup window id = some n ↔ (id, n) ∈ (runs (db.listRecentPingSummaries checkId k)).map runEntry := by
    rw [← lookup_eq_some_iff (runs_keys hids'), ← runDurations_eq hids']
  obtain ⟨extra, hpairs⟩ := Pairing.pairs_append isStart isEnd older
    ((db.listRecentPingSummaries checkId k).mergeSort runOrder)
  rw [← hsorted] at hpairs
  have hruns : runs (db.pingHistory checkId) = runs (db.listRecentPingSummaries checkId k) ++
      (extra.toList ++ Pairing.pairs isStart isEnd older) := hpairs
  constructor
  · intro id n hn
    obtain ⟨run, hrun, hentry⟩ := List.mem_map.mp (hwindow.mp hn)
    refine hwhole.mpr (List.mem_map.mpr ⟨run, ?_, hentry⟩)
    rw [hruns]
    exact List.mem_append_left _ hrun
  · -- a finish of the window with a duration of the history only is the closer of the extra pair
    have hclosed : ∀ f ∈ db.listRecentPingSummaries checkId k, (lookup whole f.id).isSome → lookup window f.id = none →
        ∃ run, extra = some run ∧ run.2 = f := by
      intro f hf hfound hlost
      obtain ⟨n, hn⟩ := Option.isSome_iff_exists.mp hfound
      obtain ⟨⟨start, finish⟩, hrun, hentry⟩ := List.mem_map.mp (hwhole.mp hn)
      have hfinish : finish ∈ db.pingHistory checkId := ((mem_runs_iff hids).mp hrun).finish_mem
      have heq : finish = f := eq_of_id hids hfinish (recent_mem_history hf) (congrArg Prod.fst hentry)
      subst heq
      rw [hruns, List.mem_append, List.mem_append, Option.mem_toList] at hrun
      rcases hrun with hrun | hrun | hrun
      · have hsome := hwindow.mpr (List.mem_map.mpr ⟨_, hrun, hentry⟩)
        rw [hlost] at hsome
        cases hsome
      · exact ⟨_, hrun, rfl⟩
      · have hbefore := sorted_runOrder hids
        rw [hsorted, List.pairwise_append] at hbefore
        exact absurd (hbefore.2.2 _ (Pairing.closer_mem hrun) _ (List.mem_mergeSort.mpr hf))
          (PingSummary.Before.irrefl finish)
    intro f hf g hg hfound hlost hfound' hlost'
    obtain ⟨run, hextra, rfl⟩ := hclosed f hf hfound hlost
    obtain ⟨run', hextra', rfl⟩ := hclosed g hg hfound' hlost'
    rw [hextra, Option.some.injEq] at hextra'
    rw [hextra']

/-- The check after two runs. -/
def Db.backup : Db :=
  [StoreCall.insertPing ⟨1, .start, none, "", none⟩ (200 * nanosPerSec),
    .insertPing ⟨1, .success, none, "", none⟩ (442 * nanosPerSec),
    .insertPing ⟨1, .start, none, "", none⟩ (500 * nanosPerSec),
    .insertPing ⟨1, .success, none, "", none⟩ (560 * nanosPerSec)].foldl (fun db c => (exec c db).2) .sample

theorem backup_window : Db.backup.listRecentPingSummaries 1 3 =
    [⟨4, 1, .success, 560 * nanosPerSec⟩, ⟨3, 1, .start, 500 * nanosPerSec⟩, ⟨2, 1, .success, 442 * nanosPerSec⟩] := by
  have hsorted : orderByDesc Ping.id (Db.backup.pings.rows.filter fun row => row.checkId = 1) =
      (Db.backup.pings.rows.filter fun row => row.checkId = 1).reverse := by
    apply orderByDesc_eq _ (List.reverse_perm _)
    unfold Decreasing
    decide +kernel
  rw [Db.listRecentPingSummaries, Db.listRecentPings, hsorted]
  decide +kernel

/-- The window has the second run and not the start of the first. -/
theorem window_durations_backup :
    lookup (runDurations (Db.backup.listRecentPingSummaries 1 3)) 2 = none ∧
      lookup (runDurations (Db.backup.listRecentPingSummaries 1 3)) 4 = some 60 ∧
      lookup (runDurations (Db.backup.pingHistory 1)) 4 = some 60 := by
  have hcut : lookup (runDurations (Db.backup.listRecentPingSummaries 1 3)) 2 = none := by
    rw [backup_window, runDurations_eq (by decide), Option.eq_none_iff_forall_ne_some]
    intro n hn
    rw [lookup_eq_some_iff (runs_keys (by decide))] at hn
    obtain ⟨⟨start, finish⟩, hrun, hentry⟩ := List.mem_map.mp hn
    have hrun := (mem_runs_iff (by decide)).mp hrun
    have hlone : ∀ p ∈ [(⟨4, 1, .success, 560 * nanosPerSec⟩ : PingSummary), ⟨3, 1, .start, 500 * nanosPerSec⟩,
        ⟨2, 1, .success, 442 * nanosPerSec⟩], ∀ q ∈ [(⟨4, 1, .success, 560 * nanosPerSec⟩ : PingSummary),
        ⟨3, 1, .start, 500 * nanosPerSec⟩, ⟨2, 1, .success, 442 * nanosPerSec⟩],
        p.kind = .start → q.id = 2 → ¬p.Before q := by
      decide
    exact hlone start hrun.start_mem finish hrun.finish_mem hrun.start_kind (congrArg Prod.fst hentry) hrun.before
  have hwindow : lookup (runDurations (Db.backup.listRecentPingSummaries 1 3)) 4 = some 60 := by
    rw [backup_window, runDurations_eq (by decide), lookup_eq_some_iff (runs_keys (by decide))]
    refine List.mem_map.mpr ⟨(⟨3, 1, .start, 500 * nanosPerSec⟩, ⟨4, 1, .success, 560 * nanosPerSec⟩), ?_, by decide⟩
    rw [mem_runs_iff (by decide)]
    exact ⟨by decide, rfl, by decide, Or.inl rfl, by decide, by decide, by decide⟩
  exact ⟨hcut, hwindow, (window_durations Db.backup 1 3 (by decide +kernel)).1 4 60 hwindow⟩

end Window

end Pingward
