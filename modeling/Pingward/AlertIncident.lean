import Pingward.AlertLaw

/-! How a down incident ends. A success ping ends it with an Up, a pause ends it openly, and a resume,
which writes its status whatever it finds, ends it without a trace. -/

open KeyedTable StoreProgram

namespace Pingward

/-- Two Downs have an Up or a pause between them. -/
def NoSilentEnd (history : List Item) : Prop :=
  ∀ newer t cause middle t' cause' older,
    history = newer ++ .alert .down t cause :: (middle ++ .alert .down t' cause' :: older) →
      ∃ item ∈ middle, item = .paused ∨ ∃ at_ why, item = .alert .up at_ why

/-- The operation pings the check with a success. -/
def Operation.IsSuccessPing (cid : Int) (db : Db) : Operation → Prop
  | .ping route uuid body clientIp _ =>
      (route.request uuid body clientIp).kind = .success ∧ (db.findCheckByUuid uuid).map Check.id = some cid
  | _ => False

/-- How an operation may end a down incident: by a success ping, with one Up, or by a pause. -/
def EndsOpenly (X : Crates) (cid : Int) (db : Db) (op : Operation) : Prop :=
  (op.IsSuccessPing cid db ∧ ∃ now, (op.log X db).of cid = [.alert .up now none, .ping .success now]) ∨
    (op.SetsStatus X .paused cid db ∧ (op.log X db).of cid = [.paused])

/-- A Down that stands on an open incident is not allowed. -/
def DownOnClosed (older : List Item) (kind : EventKind) (_ : Instant) : Prop :=
  kind = .down → lastSwitch older ≠ some .down

theorem lastSwitch_append_down {middle older : List Item} {t : Instant} {cause : Option DownCause}
    (hmiddle : ∀ item ∈ middle, item ≠ .paused ∧ ∀ at_ why, item ≠ .alert .up at_ why) :
    lastSwitch (middle ++ .alert .down t cause :: older) = some .down := by
  induction middle with
  | nil => rfl
  | cons item middle ih =>
      have hrest := ih fun other hother => hmiddle other (List.mem_cons_of_mem _ hother)
      obtain ⟨hpaused, hup⟩ := hmiddle item (List.mem_cons_self ..)
      cases item with
      | ping kind now => exact hrest
      | acknowledged => exact hrest
      | paused => exact absurd rfl hpaused
      | alert kind at_ why =>
          cases kind with
          | down => rfl
          | up => exact absurd rfl (hup at_ why)
          | reminder => exact hrest
          | test => exact hrest

theorem noSilentEnd_of_every {history : List Item} (hevery : EveryAlert DownOnClosed history) : NoSilentEnd history := by
  intro newer t cause middle t' cause' older heq
  by_contra hnone
  push Not at hnone
  exact hevery newer .down t cause _ heq rfl
    (lastSwitch_append_down fun item hitem => ⟨(hnone item hitem).1, (hnone item hitem).2⟩)

/-- An open incident is a stored Down. -/
structure IncidentInv (check : Check) (history : List Item) : Prop where
  every : EveryAlert DownOnClosed history
  opened : lastSwitch history = some .down → check.status = .down

namespace IncidentInv

variable {check : Check} {history : List Item}

theorem record (hinv : IncidentInv check history) (kind : PingKind) (now : Instant) :
    IncidentInv check (.ping kind now :: history) :=
  ⟨hinv.every.cons (by intro kind at_ cause heq; cases heq), hinv.opened⟩

theorem congr {check' : Check} (hinv : IncidentInv check history)
    (hstatus : check.status = .down → check'.status = .down) : IncidentInv check' history :=
  ⟨hinv.every, fun hlast => hstatus (hinv.opened hlast)⟩

theorem goDown {check' : Check} (hinv : IncidentInv check history) (hactive : check.status ≠ .down) (now : Instant)
    (cause : Option DownCause) (hstatus : check'.status = .down) :
    IncidentInv check' (.alert .down now cause :: history) :=
  ⟨hinv.every.cons_alert (fun _ hlast => hactive (hinv.opened hlast)) cause, fun _ => hstatus⟩

theorem ping (X : Crates) (hinv : IncidentInv check history) (kind : PingKind) (exitCode : Option Int) (now : Instant) :
    IncidentInv (RowInput.row X (.ping kind exitCode now) check)
      (RowInput.items X (.ping kind exitCode now) check ++ history) := by
  have hrecord := hinv.record kind now
  cases kind with
  | success =>
      by_cases hdown : check.status = .down
      · simp only [RowInput.row, RowInput.items, RowInput.pinged, hdown, pingAlert]
        exact ⟨hrecord.every.cons_alert (by intro hkind; cases hkind) _, by intro hlast; cases hlast⟩
      · have halert : pingAlert .success check.status = none := by
          cases hstatus : check.status <;> simp_all [pingAlert]
        simp only [RowInput.row, RowInput.items, RowInput.pinged, halert]
        exact hrecord.congr fun h => absurd h hdown
  | fail =>
      cases hstatus : check.status with
      | new =>
          simp only [RowInput.row, RowInput.items, RowInput.pinged, hstatus, pingAlert]
          exact hrecord.goDown (by simp [hstatus]) now _ rfl
      | up =>
          simp only [RowInput.row, RowInput.items, RowInput.pinged, hstatus, pingAlert]
          exact hrecord.goDown (by simp [hstatus]) now _ rfl
      | down =>
          simp only [RowInput.row, RowInput.items, RowInput.pinged, hstatus, pingAlert]
          exact hrecord.congr fun _ => rfl
      | paused =>
          simp only [RowInput.row, RowInput.items, RowInput.pinged, hstatus, pingAlert]
          exact hrecord.congr fun _ => rfl
  | start => exact hrecord.congr id
  | log => exact hrecord
  | exitcode => exact hrecord

/-- **Step.** An input keeps the invariant, when a resume does not find the check down. -/
theorem step (X : Crates) (hinv : IncidentInv check history) {input : RowInput}
    (hresume : input = .resume → check.status ≠ .down) :
    IncidentInv (input.row X check) (input.items X check ++ history) := by
  cases input with
  | idle => exact hinv
  | record kind now => exact hinv.record kind now
  | ping kind exitCode now => exact hinv.ping X kind exitCode now
  | scan now =>
      simp only [RowInput.row, RowInput.items]
      by_cases hdowned : check.isDowned X now = true
      · rw [if_pos hdowned, if_pos hdowned]
        simp only [Check.isDowned, Bool.and_eq_true] at hdowned
        refine hinv.goDown ?_ now _ rfl
        rcases Check.isActive_iff.mp hdowned.1 with h | h <;> simp [h]
      · rw [if_neg hdowned, if_neg hdowned]
        exact hinv
  | nag interval now =>
      simp only [RowInput.row, RowInput.items]
      split
      · exact ⟨hinv.every.cons_alert (by intro hkind; cases hkind) _, hinv.opened⟩
      · exact hinv
  | acknowledge => exact ⟨hinv.every.cons (by intro kind at_ cause heq; cases heq), hinv.opened⟩
  | edit fields => exact hinv.congr id
  | pause => exact ⟨hinv.every.cons (by intro kind at_ cause heq; cases heq), by intro hlast; cases hlast⟩
  | resume => exact hinv.congr fun hdown => absurd hdown (hresume rfl)

end IncidentInv

/-- The inputs that take a check out of Down. -/
theorem RowInput.leaves_down {X : Crates} {input : RowInput} {check : Check} (hdown : check.status = .down)
    (hleaves : (input.row X check).status ≠ .down) :
    (∃ exitCode now, input = .ping .success exitCode now) ∨ input = .pause ∨ input = .resume := by
  cases input with
  | idle => exact absurd hdown hleaves
  | record kind now => exact absurd hdown hleaves
  | ping kind exitCode now =>
      cases kind with
      | success => exact Or.inl ⟨exitCode, now, rfl⟩
      | fail => simp [RowInput.row, RowInput.pinged, hdown, pingAlert, PingMark.ofPing, PingMark.apply] at hleaves
      | start => simp [RowInput.row, RowInput.pinged, hdown, pingAlert, PingMark.ofPing, PingMark.apply] at hleaves
      | log => exact absurd hdown hleaves
      | exitcode => exact absurd hdown hleaves
  | scan now =>
      simp only [RowInput.row] at hleaves
      split at hleaves
      · exact absurd rfl hleaves
      · exact absurd hdown hleaves
  | nag interval now =>
      simp only [RowInput.row] at hleaves
      split at hleaves
      · exact absurd hdown hleaves
      · exact absurd hdown hleaves
  | acknowledge => exact absurd hdown hleaves
  | edit fields => exact absurd hdown hleaves
  | pause => exact Or.inr (Or.inl rfl)
  | resume => exact Or.inr (Or.inr rfl)

theorem Operation.Gives.isSuccessPing {X : Crates} {db : Db} {check : Check} {op : Operation} {exitCode : Option Int}
    {now : Instant} (hgives : op.Gives X db check (.ping .success exitCode now)) : op.IsSuccessPing check.id db := by
  cases op with
  | ping route uuid body clientIp now' =>
      simp only [Operation.Gives] at hgives
      split at hgives
      · rename_i hfound
        split at hgives
        · cases hgives
        · simp only [RowInput.ping.injEq] at hgives
          exact ⟨hgives.1.symm, hfound⟩
      · cases hgives
  | scan now' baseUrl => cases hgives
  | nag now' baseUrl => cases hgives
  | web ctx id action => rcases hgives with h | ⟨_, h⟩ <;> cases action <;> simp [CheckAction.input] at h
  | admin ctx id action => rcases hgives with h | ⟨_, h⟩ <;> cases action <;> simp [CheckAction.input] at h
  | api ctx id action => rcases hgives with h | ⟨_, h⟩ <;> cases action <;> simp [CheckAction.input] at h

/-- No resume of the check that is carried out finds it down. -/
def ResumesNotDown (X : Crates) (cid : Int) (db : Db) (op : Operation) : Prop :=
  op.SetsStatus X .new cid db → ∀ check, db.findCheck cid = some check → check.status ≠ .down

/-- A step that finds the check down and leaves it otherwise ends the incident openly. -/
theorem leaves_down_openly {X : Crates} {cid : Int} {db : Db} {op : Operation} {check check' : Check}
    (hallowed : ResumesNotDown X cid db op) (hrow : db.findCheck cid = some check) (hdown : check.status = .down)
    (hrow' : (op.after X db).findCheck cid = some check') (hleaves : check'.status ≠ .down) : EndsOpenly X cid db op := by
  obtain rfl : check.id = cid := Table.find_key _ hrow
  by_cases hcompletes : op.Completes X db
  · obtain ⟨input, hgives, hafter, hlog⟩ := operation_refines X op hcompletes hrow
    rw [hrow', Option.some.injEq] at hafter
    subst hafter
    rcases RowInput.leaves_down hdown hleaves with ⟨exitCode, now, rfl⟩ | rfl | rfl
    · refine Or.inl ⟨hgives.isSuccessPing, now, ?_⟩
      rw [hlog]
      simp [RowInput.items, hdown, pingAlert, RowInput.pingCause]
    · exact Or.inr ⟨hgives.setsStatus rfl, hlog⟩
    · exact absurd hdown (hallowed (hgives.setsStatus rfl) check hrow)
  · -- a pass that panics has taken no check out of Down
    obtain ⟨row, hrow'', hkeeps⟩ := (aborted_pass hcompletes check.id).2 check hrow
    rw [hrow', Option.some.injEq] at hrow''
    exact absurd (hrow'' ▸ hkeeps hdown) hleaves

/-- **A down incident does not end silently** along a run in which no resume finds the check down: two
Downs have an Up or a pause between them, and whatever takes the check out of Down is a success ping
with one Up, or a pause. -/
theorem down_incident_ends_openly (X : Crates) (cid : Int) {start db : Db} {log : Log} {first : Check}
    (hfirst : start.findCheck cid = some first) (hreach : Reached X (ResumesNotDown X cid) start db log) :
    NoSilentEnd (log.of cid) ∧
      ∀ op check check', ResumesNotDown X cid db op → db.findCheck cid = some check → check.status = .down →
        (op.after X db).findCheck cid = some check' → check'.status ≠ .down → EndsOpenly X cid db op := by
  obtain ⟨_, _, hinv⟩ := hreach.row_invariant_aborting IncidentInv
    ⟨first, hfirst, everyAlert_nil, by intro hlast; cases hlast⟩
    (by
      intro db log op check input _ hallowed hrow hgives hinv
      have hcid : check.id = cid := Table.find_key _ hrow
      apply hinv.step X
      rintro rfl
      exact hallowed (hcid ▸ hgives.setsStatus rfl) check hrow)
    fun _ _ _ _ _ _ _ hdown hinv => hinv.congr hdown
  exact ⟨noSilentEnd_of_every hinv.every, fun op check check' hallowed hrow hdown hrow' hleaves =>
    leaves_down_openly hallowed hrow hdown hrow' hleaves⟩

/-- A fail ping that takes a check down, followed by the success ping that ends the incident. -/
theorem down_incident_ends_openly_sample :
    NoSilentEnd (((failPing 5).log plainCrates .sample ++ []).of 1) ∧
      EndsOpenly plainCrates 1 ((failPing 5).after plainCrates .sample) (.ping .success "u1" [] none 6) := by
  obtain ⟨hsilent, hleaves⟩ := down_incident_ends_openly plainCrates 1 (rfl : Db.sample.findCheck 1 = some _)
    (.step (failPing 5) .start fun hsets => absurd hsets (Operation.not_resumes rfl 1 .sample))
  exact ⟨hsilent, hleaves (.ping .success "u1" [] none 6) _ _
    (fun hsets => absurd hsets (Operation.not_resumes rfl 1 _)) rfl rfl rfl (by decide)⟩

/-- The check fails, its owner resumes it while it is down, and it fails again. -/
theorem resume_ends_down_silently :
    ¬∀ (X : Crates) (cid : Int) (start db : Db) (log : Log) (first : Check), start.findCheck cid = some first →
      first.Fresh → Reached X (fun _ _ => True) start db log → NoSilentEnd (log.of cid) := by
  intro hclaim
  have hsilent := hclaim plainCrates 1 .sample _ _ _ rfl ⟨rfl, rfl, rfl, rfl, rfl⟩
    (.step (failPing 6) (.step (.web .sample 1 .resume) (.step (failPing 5) .start trivial) trivial) trivial)
  obtain ⟨item, hitem, hpause⟩ := hsilent [] 6 (some (.failed none)) [.ping .fail 6] 5 (some (.failed none))
    [.ping .fail 5] (by decide +kernel)
  rw [List.mem_singleton.mp hitem] at hpause
  rcases hpause with hpause | ⟨at_, why, hpause⟩ <;> cases hpause

end Pingward
