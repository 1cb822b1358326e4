import Pingward.KeysetStatement
import Pingward.ModelHistory

/-! Date bounds on the history pages. The statement compares the texts of a row's time and of a bound. A year after
9999 is written with a sign, below all digits, so that such a bound is taken for one before every row. -/

namespace Pingward

open Calendar (Stamp FourDigits)

/-! ### A bound and a row, as instants and as texts -/

/-- Not before the lower bound and not after the upper one. -/
def within (since until_ : Option Stamp) (t : Instant) : Bool :=
  since.all (fun s => ¬ (Stamp.ofInstant t).Before s) && until_.all (fun s => ¬ s.Before (Stamp.ofInstant t))

/-- The comparisons of the statement. -/
def withinTexts (since until_ : Option Stamp) (t : Instant) : Bool :=
  since.all (fun s => Sql.Op.ge.compare (toRfc3339 t) s.text) &&
    until_.all (fun s => Sql.Op.le.compare (toRfc3339 t) s.text)

section Bound

variable {a b : Stamp} {t : Instant}

theorem before_of_year (hlt : a.year < b.year) : a.Before b := by
  have hday : a.day < b.day := by
    by_contra hle
    have hmono := Calendar.yearOf_mono (Int.not_lt.mp hle)
    exact absurd hlt (Int.not_lt.mpr hmono)
  unfold Stamp.day at hday
  unfold Stamp.Before
  omega

theorem year_ofInstant (ht : FourDigits t) : 0 ≤ (Stamp.ofInstant t).year ∧ (Stamp.ofInstant t).year ≤ 9999 :=
  Calendar.year_of_fourDigits ht

/-- A bound before the year 0 or after the year 9999 is below every row. -/
theorem text_lt_row (ht : FourDigits t) (hsign : a.year < 0 ∨ 9999 < a.year) : a.text < toRfc3339 t := by
  rw [toRfc3339, ← Stamp.text_ofInstant]
  exact Stamp.text_lt_of_sign (by omega) (year_ofInstant ht)

/-- The lower bound admits the rows not before it, and all rows where its year has too many digits. -/
theorem since_compare (ht : FourDigits t) : Sql.Op.ge.compare (toRfc3339 t) a.text =
    (decide (9999 < a.year) || !decide ((Stamp.ofInstant t).Before a)) := by
  have hyear := year_ofInstant ht
  by_cases hsign : a.year < 0 ∨ 9999 < a.year
  · have hlt := text_lt_row ht hsign
    have hnot : 9999 < a.year ∨ ¬ (Stamp.ofInstant t).Before a := by
      rcases hsign with hneg | hlate
      · exact .inr (before_of_year (by omega)).asymm
      · exact .inl hlate
    rw [Sql.Op.compare, decide_eq_true (.inl hlt)]
    simpa using hnot
  · have hrange : 0 ≤ a.year ∧ a.year ≤ 9999 := by omega
    rw [decide_eq_false (by omega), Bool.false_or, Sql.Op.compare, toRfc3339, ← Stamp.text_ofInstant,
      ← decide_not, decide_eq_decide]
    rcases Stamp.Before.trichotomy (Stamp.ofInstant t) a with hbefore | ⟨hsecond, hnano⟩ | hafter
    · have hlt := Stamp.text_lt hyear.1 hrange.2 hbefore
      exact iff_of_false (fun hge => hge.elim (lt_asymm hlt) hlt.ne) (not_not_intro hbefore)
    · have hnot : ¬ (Stamp.ofInstant t).Before a := by
        unfold Stamp.Before
        omega
      exact iff_of_true (.inr (Stamp.text_congr hsecond hnano)) hnot
    · exact iff_of_true (.inl (Stamp.text_lt hrange.1 hyear.2 hafter)) hafter.asymm

/-- The upper bound admits the rows not after it, and no row where its year has too many digits. -/
theorem until_compare (ht : FourDigits t) : Sql.Op.le.compare (toRfc3339 t) a.text =
    (!decide (9999 < a.year) && !decide (a.Before (Stamp.ofInstant t))) := by
  have hyear := year_ofInstant ht
  by_cases hsign : a.year < 0 ∨ 9999 < a.year
  · have hlt := text_lt_row ht hsign
    have hnot : 9999 < a.year ∨ a.Before (Stamp.ofInstant t) := by
      rcases hsign with hneg | hlate
      · exact .inr (before_of_year (by omega))
      · exact .inl hlate
    rw [Sql.Op.compare, decide_eq_false (fun hle => hle.elim (lt_asymm hlt) hlt.ne')]
    simpa [imp_iff_not_or, Decidable.not_not] using hnot
  · have hrange : 0 ≤ a.year ∧ a.year ≤ 9999 := by omega
    rw [decide_eq_false (by omega : ¬ 9999 < a.year), Bool.not_false, Bool.true_and, Sql.Op.compare, toRfc3339,
      ← Stamp.text_ofInstant, ← decide_not, decide_eq_decide]
    rcases Stamp.Before.trichotomy (Stamp.ofInstant t) a with hbefore | ⟨hsecond, hnano⟩ | hafter
    · exact iff_of_true (.inl (Stamp.text_lt hyear.1 hrange.2 hbefore)) hbefore.asymm
    · have hnot : ¬ a.Before (Stamp.ofInstant t) := by
        unfold Stamp.Before
        omega
      exact iff_of_true (.inr (Stamp.text_congr hsecond hnano)) hnot
    · have hlt := Stamp.text_lt hrange.1 hyear.2 hafter
      exact iff_of_false (fun hle => hle.elim (lt_asymm hlt) hlt.ne') (not_not_intro hafter)

end Bound

/-! ### The pairs of bounds that compare as instants -/

/-- The first and the last instant whose year has four digits. -/
def firstRow : Instant := Calendar.yearInstant 0

def lastRow : Instant := Calendar.yearInstant 10000 - 1

/-- A bound after the year 9999 does no harm where the other one admits no row anyway: beside a lower bound an upper one
that is not in the years of four digits, beside an upper bound a lower one behind every row. -/
structure Sortable (since until_ : Option Stamp) : Prop where
  lower : ∀ s, since = some s → 9999 < s.year → ∃ u, until_ = some u ∧ (u.year < 0 ∨ 9999 < u.year)
  upper : ∀ u, until_ = some u → 9999 < u.year → ∃ s, since = some s ∧ (Stamp.ofInstant lastRow).Before s

section Pair

variable {since until_ : Option Stamp} {t : Instant}

theorem fourDigits_firstRow : FourDigits firstRow := by
  unfold FourDigits firstRow
  exact ⟨le_refl _, by decide⟩

theorem fourDigits_lastRow : FourDigits lastRow := by
  unfold FourDigits lastRow
  exact ⟨by decide, by decide⟩

theorem ofInstant_mono {t t' : Int} (hle : t ≤ t') :
    (Stamp.ofInstant t).second < (Stamp.ofInstant t').second ∨
      (Stamp.ofInstant t).second = (Stamp.ofInstant t').second ∧ (Stamp.ofInstant t).nano ≤ (Stamp.ofInstant t').nano := by
  unfold Stamp.ofInstant
  dsimp only
  omega

/-- What is after the last row is after every row. -/
theorem before_of_lastRow {s : Stamp} (ht : FourDigits t) (hafter : (Stamp.ofInstant lastRow).Before s) :
    (Stamp.ofInstant t).Before s := by
  have hlast := ofInstant_mono (show t ≤ lastRow from Int.le_sub_one_of_lt ht.2)
  unfold Stamp.Before at *
  omega

/-- Before the first row there are only the years before 0. -/
theorem not_before_firstRow {u : Stamp} (hyear : 0 ≤ u.year) : ¬ u.Before (Stamp.ofInstant firstRow) := by
  have hstart := (Calendar.yearOf_bounds u.day).1
  have hmono := Calendar.yearStart_mono (show 0 ≤ Calendar.yearOf u.day from hyear)
  have hzero : Calendar.yearStart 0 = 0 := by decide
  have hsecond : (Stamp.ofInstant firstRow).second = -62167219200 := by decide
  have hnano : (Stamp.ofInstant firstRow).nano = 0 := by decide
  unfold Stamp.day Calendar.epochDay at hstart hmono
  unfold Stamp.Before
  rw [hsecond, hnano]
  omega

theorem withinTexts_eq (ht : FourDigits t) : withinTexts since until_ t =
    (since.all (fun s => decide (9999 < s.year) || !decide ((Stamp.ofInstant t).Before s)) &&
      until_.all (fun u => !decide (9999 < u.year) && !decide (u.Before (Stamp.ofInstant t)))) := by
  simp only [withinTexts, since_compare ht, until_compare ht]

theorem Sortable.agree (hsortable : Sortable since until_) (ht : FourDigits t) :
    withinTexts since until_ t = within since until_ t := by
  have hyear := year_ofInstant ht
  rw [withinTexts_eq ht, within]
  cases since with
  | none =>
      cases until_ with
      | none => rfl
      | some u =>
          have hearly : ¬ 9999 < u.year := by
            intro hlate
            obtain ⟨s, hs, -⟩ := hsortable.upper u rfl hlate
            cases hs
          simp [hearly]
  | some s =>
      cases until_ with
      | none =>
          have hearly : ¬ 9999 < s.year := by
            intro hlate
            obtain ⟨u, hu, -⟩ := hsortable.lower s rfl hlate
            cases hu
          simp [hearly]
      | some u =>
          by_cases hsince : 9999 < s.year
          · have hbefore : (Stamp.ofInstant t).Before s := before_of_year (by omega)
            obtain ⟨u', hu, hout⟩ := hsortable.lower s rfl hsince
            cases hu
            rcases hout with hneg | hlate
            · have hafter : u.Before (Stamp.ofInstant t) := before_of_year (by omega)
              simp [hbefore, hafter]
            · simp [hbefore, hlate]
          · by_cases huntil : 9999 < u.year
            · obtain ⟨s', hs, hafter⟩ := hsortable.upper u rfl huntil
              cases hs
              simp [huntil, before_of_lastRow ht hafter]
            · simp [hsince, huntil]

/-- Where the comparisons of the first and the last row agree with the order of the instants, all do. -/
theorem sortable_of_agree (hfirst : withinTexts since until_ firstRow = within since until_ firstRow)
    (hlast : withinTexts since until_ lastRow = within since until_ lastRow) : Sortable since until_ := by
  rw [withinTexts_eq fourDigits_firstRow, within] at hfirst
  rw [withinTexts_eq fourDigits_lastRow, within] at hlast
  refine ⟨?_, ?_⟩
  · rintro s rfl hlate
    have hyear := (year_ofInstant fourDigits_firstRow).2
    have hbefore : (Stamp.ofInstant firstRow).Before s := before_of_year (by omega)
    cases until_ with
    | none => simp [hlate, hbefore] at hfirst
    | some u =>
        refine ⟨u, rfl, ?_⟩
        by_contra hrange
        have hnot : ¬ 9999 < u.year := by omega
        simp [hlate, hbefore, hnot, not_before_firstRow (show 0 ≤ u.year by omega)] at hfirst
  · rintro u rfl hlate
    have hyear := (year_ofInstant fourDigits_lastRow).2
    have hbefore : (Stamp.ofInstant lastRow).Before u := before_of_year (by omega)
    cases since with
    | none => simp [hlate, hbefore.asymm] at hlast
    | some s =>
        refine ⟨s, rfl, ?_⟩
        simpa [hlate, hbefore.asymm] using hlast

end Pair

/-! ### The predicates of a filter, on the cells of a row -/

section Cells

variable {cell : String → Option Sql.Value}

theorem all_inPredicate {col : Sql.Name} {text : String} (hcell : cell col.text = some (.text text))
    (values : List String) :
    (inPredicate col values).all (Predicate.holds cell) = (values.isEmpty || values.contains text) := by
  unfold inPredicate
  cases values with
  | nil => rfl
  | cons value values =>
      rw [dif_pos (List.cons_ne_nil value values), List.all_cons, List.all_nil, Bool.and_true, Predicate.holds, hcell]
      rfl

theorem all_cmpPredicate {col : Sql.Name} {text : String} (hcell : cell col.text = some (.text text)) (op : Sql.Op)
    (value : Option String) :
    (cmpPredicate col op value).all (Predicate.holds cell) = value.all fun value => op.compare text value := by
  cases value with
  | none => rfl
  | some value =>
      simp only [cmpPredicate, Option.map_some, Option.toList_some, List.all_cons, List.all_nil, Bool.and_true,
        Predicate.holds, hcell, Option.all_some]

theorem all_datePredicates {t : Instant} (hcell : cell createdAtColumn.text = some (.text (toRfc3339 t)))
    (since until_ : Option Stamp) :
    (datePredicates (since.map Stamp.text) (until_.map Stamp.text)).all (Predicate.holds cell) =
      withinTexts since until_ t := by
  rw [datePredicates, List.all_append, all_cmpPredicate hcell, all_cmpPredicate hcell, withinTexts]
  cases since <;> cases until_ <;> rfl

theorem contains_asStr {α : Type} [DecidableEq α] {asStr : α → String} (hinj : Function.Injective asStr) (values : List α)
    (value : α) : ((values.map asStr).isEmpty || (values.map asStr).contains (asStr value)) =
      (values.isEmpty || values.contains value) := by
  have hcontains : (values.map asStr).contains (asStr value) = values.contains value := by
    rw [Bool.eq_iff_iff, List.contains_iff_mem, List.contains_iff_mem, List.mem_map_of_injective hinj]
  rw [hcontains, List.isEmpty_map]

end Cells

theorem pingKind_asStr_injective : Function.Injective PingKind.asStr := by
  intro a b hasStr
  cases a <;> cases b <;> first | rfl | exact absurd hasStr (by decide)

theorem eventKind_asStr_injective : Function.Injective EventKind.asStr := by
  intro a b hasStr
  cases a <;> cases b <;> first | rfl | exact absurd hasStr (by decide)

theorem notifyStatus_asStr_injective : Function.Injective NotifyStatus.asStr := by
  intro a b hasStr
  cases a <;> cases b <;> first | rfl | exact absurd hasStr (by decide)

/-! ### The pages -/

/-- The page of a query is the page of the rows that pass its scope and its predicates. -/
theorem runKeyset_eq {ρ ε : Type} (query : KeysetQuery ρ ρ ε) (hrowTo : ∀ row, query.rowTo row = .ok row)
    (hlimit : 0 ≤ query.limit ∧ query.limit < i64Max) (table : Sql.Relation ρ) {test : ρ → Bool}
    (htest : ∀ row, (query.scope.all (fun scope => table.cell row scope.1.text = some (.int scope.2)) &&
      query.filters.all (Predicate.holds (table.cell row))) = test row) :
    runKeyset query table =
      some (.ok (keysetPage table.id (table.rows.filter test) query.cursor query.limit.toNat)) := by
  obtain ⟨statement, hread, -, -, heval⟩ := keysetSql_evaluates query hlimit
  rw [runKeyset, hread, Option.map_some, heval, keysetRowsToPage_eq query hrowTo hlimit.1]
  simp only [htest]

/-- The pings page shows, with the other parts of the filter, the rows within the bounds. -/
def PingsChronological (since until_ : Option Stamp) : Prop :=
  ∀ (rows : List Ping) (checkId : Int) (kinds : List PingKind) (cursor : PageCursor) (limit : Int),
    (∀ row ∈ rows, FourDigits row.createdAt) → 0 ≤ limit → limit < i64Max →
    runKeyset ((History.PingFilter.mk kinds since until_).query checkId cursor limit) (pingTable rows) =
      some (.ok (keysetPage Ping.id (rows.filter fun row => row.checkId = checkId &&
        ((kinds.isEmpty || kinds.contains row.kind) && within since until_ row.createdAt)) cursor limit.toNat))

def NotifsChronological (since until_ : Option Stamp) : Prop :=
  ∀ (rows : List Notification) (checkId : Int) (events : List EventKind) (statuses : List NotifyStatus)
    (cursor : PageCursor) (limit : Int),
    (∀ row ∈ rows, FourDigits row.createdAt) → 0 ≤ limit → limit < i64Max →
    runKeyset ((History.NotifFilter.mk events statuses since until_).query checkId cursor limit) (notificationTable rows) =
      some (.ok (keysetPage Notification.id (rows.filter fun row => row.checkId = checkId &&
        ((events.isEmpty || events.contains row.event) && (statuses.isEmpty || statuses.contains row.status) &&
          within since until_ row.createdAt)) cursor limit.toNat))

def AuditChronological (since until_ : Option Stamp) : Prop :=
  ∀ (rows : List AuditLog) (actor action : Option String) (cursor : PageCursor) (limit : Int),
    (∀ row ∈ rows, FourDigits row.createdAt) → 0 ≤ limit → limit < i64Max →
    runKeyset ((History.AuditFilter.mk actor action since until_).query cursor limit) (auditTable rows) =
      some (.ok (keysetPage AuditLog.id (rows.filter fun row =>
        actor.all (row.actorUsername = ·) && action.all (row.action = ·) && within since until_ row.createdAt)
        cursor limit.toNat))

section Pages

variable (since until_ : Option Stamp) {cursor : PageCursor} {limit : Int}

theorem runKeyset_pings (rows : List Ping) (checkId : Int) (kinds : List PingKind) (hlow : 0 ≤ limit) (hhigh : limit < i64Max) :
    runKeyset ((History.PingFilter.mk kinds since until_).query checkId cursor limit) (pingTable rows) =
      some (.ok (keysetPage Ping.id (rows.filter fun row => row.checkId = checkId &&
        ((kinds.isEmpty || kinds.contains row.kind) && withinTexts since until_ row.createdAt)) cursor limit.toNat)) := by
  refine runKeyset_eq ((History.PingFilter.mk kinds since until_).query checkId cursor limit) (fun _ => rfl) ⟨hlow, hhigh⟩
    (pingTable rows) fun row => ?_
  have hkind : (pingTable rows).cell row kindColumn.text = some (.text row.kind.asStr) := rfl
  have hcreated : (pingTable rows).cell row createdAtColumn.text = some (.text (toRfc3339 row.createdAt)) := rfl
  have hscope : (pingTable rows).cell row checkIdColumn.text = some (.int row.checkId) := rfl
  simp only [History.PingFilter.query, pingsQuery, History.PingFilter.predicates, pingPredicates, List.all_append,
    all_inPredicate hkind, all_datePredicates hcreated, contains_asStr pingKind_asStr_injective, Option.all_some, hscope,
    Option.some_inj, Sql.Value.int.injEq]

theorem runKeyset_notifications (rows : List Notification) (checkId : Int) (events : List EventKind)
    (statuses : List NotifyStatus) (hlow : 0 ≤ limit) (hhigh : limit < i64Max) :
    runKeyset ((History.NotifFilter.mk events statuses since until_).query checkId cursor limit) (notificationTable rows) =
      some (.ok (keysetPage Notification.id (rows.filter fun row => row.checkId = checkId &&
        ((events.isEmpty || events.contains row.event) && (statuses.isEmpty || statuses.contains row.status) &&
          withinTexts since until_ row.createdAt)) cursor limit.toNat)) := by
  refine runKeyset_eq ((History.NotifFilter.mk events statuses since until_).query checkId cursor limit) (fun _ => rfl)
    ⟨hlow, hhigh⟩ (notificationTable rows) fun row => ?_
  have hevent : (notificationTable rows).cell row eventColumn.text = some (.text row.event.asStr) := rfl
  have hstatus : (notificationTable rows).cell row statusColumn.text = some (.text row.status.asStr) := rfl
  have hcreated : (notificationTable rows).cell row createdAtColumn.text = some (.text (toRfc3339 row.createdAt)) := rfl
  have hscope : (notificationTable rows).cell row checkIdColumn.text = some (.int row.checkId) := rfl
  simp only [History.NotifFilter.query, notificationsQuery, History.NotifFilter.predicates, notifPredicates,
    List.all_append, all_inPredicate hevent, all_inPredicate hstatus, all_datePredicates hcreated,
    contains_asStr eventKind_asStr_injective, contains_asStr notifyStatus_asStr_injective, Option.all_some, hscope,
    Option.some_inj, Sql.Value.int.injEq]

theorem runKeyset_audit (rows : List AuditLog) (actor action : Option String) (hlow : 0 ≤ limit) (hhigh : limit < i64Max) :
    runKeyset ((History.AuditFilter.mk actor action since until_).query cursor limit) (auditTable rows) =
      some (.ok (keysetPage AuditLog.id (rows.filter fun row =>
        actor.all (row.actorUsername = ·) && action.all (row.action = ·) && withinTexts since until_ row.createdAt)
        cursor limit.toNat)) := by
  refine runKeyset_eq ((History.AuditFilter.mk actor action since until_).query cursor limit) (fun _ => rfl)
    ⟨hlow, hhigh⟩ (auditTable rows) fun row => ?_
  have hactor : (auditTable rows).cell row actorColumn.text = some (.text row.actorUsername) := rfl
  have haction : (auditTable rows).cell row actionColumn.text = some (.text row.action) := rfl
  have hcreated : (auditTable rows).cell row createdAtColumn.text = some (.text (toRfc3339 row.createdAt)) := rfl
  simp only [History.AuditFilter.query, auditQuery, History.AuditFilter.predicates, auditPredicates, List.all_append,
    all_cmpPredicate hactor, all_cmpPredicate haction, all_datePredicates hcreated, Option.all_none, Bool.true_and,
    Sql.Op.compare]

end Pages

/-- Where the bounds are compared as instants, so are the rows they select. -/
theorem Sortable.filter {ρ : Type} {since until_ : Option Stamp} (hsortable : Sortable since until_) {rows : List ρ}
    {createdAt : ρ → Instant} (hrows : ∀ row ∈ rows, FourDigits (createdAt row)) (test : ρ → Bool → Bool) :
    rows.filter (fun row => test row (withinTexts since until_ (createdAt row))) =
      rows.filter fun row => test row (within since until_ (createdAt row)) :=
  List.filter_congr fun row hrow => by rw [hsortable.agree (hrows row hrow)]

/-! ### Bounds that are instants -/

theorem text_ofInstants (bound : Option Instant) : (bound.map Stamp.ofInstant).map Stamp.text = bound.map toRfc3339 := by
  cases bound with
  | none => rfl
  | some t => exact congrArg some (Stamp.text_ofInstant t)

theorem within_ofInstant (since until_ : Option Instant) (t : Instant) :
    within (since.map Stamp.ofInstant) (until_.map Stamp.ofInstant) t = inDates since until_ t := by
  simp only [within, inDates, Option.all_map, Stamp.ofInstant_before_iff, Int.not_lt]

theorem sortable_ofInstant {since until_ : Option Instant} (hsince : ∀ t ∈ since, FourDigits t)
    (huntil : ∀ t ∈ until_, FourDigits t) : Sortable (since.map Stamp.ofInstant) (until_.map Stamp.ofInstant) := by
  refine ⟨?_, ?_⟩
  · intro s hs hlate
    obtain ⟨t, ht, rfl⟩ := Option.map_eq_some_iff.mp hs
    exact absurd (year_ofInstant (hsince t ht)).2 (Int.not_le.mpr hlate)
  · intro u hu hlate
    obtain ⟨t, ht, rfl⟩ := Option.map_eq_some_iff.mp hu
    exact absurd (year_ofInstant (huntil t ht)).2 (Int.not_le.mpr hlate)

/-- The pings page of the store is what its statement selects. -/
theorem listPingsPage_eq (db : Db) (checkId : Int) (cursor : PageCursor) {limit : Nat} (hlimit : limit < i64Max)
    (filter : PingFilter) (hsince : ∀ t ∈ filter.since, FourDigits t) (huntil : ∀ t ∈ filter.until_, FourDigits t)
    (hrows : ∀ row ∈ db.pings.rows, FourDigits row.createdAt) :
    runKeyset (pingsQuery checkId cursor limit filter.predicates) (pingTable db.pings.rows) =
      some (.ok (db.listPingsPage checkId cursor limit filter)) := by
  have hquery : pingsQuery checkId cursor limit filter.predicates = (History.PingFilter.mk filter.kinds
      (filter.since.map Stamp.ofInstant) (filter.until_.map Stamp.ofInstant)).query checkId cursor limit := by
    simp only [History.PingFilter.query, History.PingFilter.predicates, PingFilter.predicates, text_ofInstants]
  rw [hquery, runKeyset_pings _ _ _ _ _ (Int.natCast_nonneg limit) hlimit,
    (sortable_ofInstant hsince huntil).filter hrows fun row holds =>
      row.checkId = checkId && ((filter.kinds.isEmpty || filter.kinds.contains row.kind) && holds)]
  simp only [within_ofInstant, Db.listPingsPage, Bool.decide_and, Bool.decide_eq_true, Int.toNat_natCast]
  rfl

/-- The same of the notifications page. -/
theorem listNotificationsPage_eq (db : Db) (checkId : Int) (cursor : PageCursor) {limit : Nat} (hlimit : limit < i64Max)
    (filter : NotifFilter) (hsince : ∀ t ∈ filter.since, FourDigits t) (huntil : ∀ t ∈ filter.until_, FourDigits t)
    (hrows : ∀ row ∈ db.notifications.rows, FourDigits row.createdAt) :
    runKeyset (notificationsQuery checkId cursor limit filter.predicates) (notificationTable db.notifications.rows) =
      some (.ok (db.listNotificationsPage checkId cursor limit filter)) := by
  have hquery : notificationsQuery checkId cursor limit filter.predicates = (History.NotifFilter.mk filter.events
      filter.statuses (filter.since.map Stamp.ofInstant) (filter.until_.map Stamp.ofInstant)).query checkId cursor limit := by
    simp only [History.NotifFilter.query, History.NotifFilter.predicates, NotifFilter.predicates, text_ofInstants]
  rw [hquery, runKeyset_notifications _ _ _ _ _ _ (Int.natCast_nonneg limit) hlimit,
    (sortable_ofInstant hsince huntil).filter hrows fun row holds =>
      row.checkId = checkId && ((filter.events.isEmpty || filter.events.contains row.event) &&
        (filter.statuses.isEmpty || filter.statuses.contains row.status) && holds)]
  simp only [within_ofInstant, Db.listNotificationsPage, Bool.decide_and, Bool.decide_eq_true, Int.toNat_natCast]
  rfl

/-! ### All pages -/

/-- A table of one row shows whether the row passes. -/
theorem test_of_page {ρ : Type} {id : ρ → Int} {row : ρ} {test test' : ρ → Bool}
    (hpage : some (Except.ok (ε := StoreError) (keysetPage id ([row].filter test) .latest 1)) =
      some (.ok (keysetPage id ([row].filter test') .latest 1))) : test row = test' row := by
  have hitems (p : ρ → Bool) : (keysetPage id ([row].filter p) .latest 1).items = [row].filter p := by
    cases hp : p row with
    | true => simp [keysetPage, orderByDesc, hp]
    | false => simp [keysetPage, orderByDesc, hp]
  have hsame := congrArg Page.items (Except.ok.inj (Option.some.inj hpage))
  rw [hitems, hitems] at hsame
  cases htest : test row <;> cases htest' : test' row <;> simp [htest, htest'] at hsame ⊢

section Chronological

variable {since until_ : Option Stamp} {t : Instant}

theorem PingsChronological.agree (hpings : PingsChronological since until_) (ht : FourDigits t) :
    withinTexts since until_ t = within since until_ t := by
  have hpage := hpings [⟨1, 1, .success, none, "", none, t⟩] 1 [] .latest 1
    (List.forall_mem_singleton.mpr ht) (by decide) (by decide)
  rw [runKeyset_pings since until_ _ 1 [] (by decide) (by decide)] at hpage
  simpa using test_of_page hpage

theorem NotifsChronological.agree (hnotifs : NotifsChronological since until_) (ht : FourDigits t) :
    withinTexts since until_ t = within since until_ t := by
  have hpage := hnotifs [⟨1, 1, 1, .down, .ok, none, t⟩] 1 [] [] .latest 1
    (List.forall_mem_singleton.mpr ht) (by decide) (by decide)
  rw [runKeyset_notifications since until_ _ 1 [] [] (by decide) (by decide)] at hpage
  simpa using test_of_page hpage

theorem AuditChronological.agree (haudit : AuditChronological since until_) (ht : FourDigits t) :
    withinTexts since until_ t = within since until_ t := by
  have hpage := haudit [⟨1, 1, "", "", none, none, none, none, none, none, t⟩] none none .latest 1
    (List.forall_mem_singleton.mpr ht) (by decide) (by decide)
  rw [runKeyset_audit since until_ _ none none (by decide) (by decide)] at hpage
  simpa using test_of_page hpage

end Chronological

/-- **Date bounds on the history pages.** A page shows, of every table and with every other part of the filter, the rows
within the bounds of the two parameters, exactly when the bounds compare as instants. -/
theorem dateFilter_chronological_iff (dates : Chrono) (from_ to_ : Option String) :
    (PingsChronological (parseDateBound dates from_) (parseDateBound dates to_) ↔
      Sortable (parseDateBound dates from_) (parseDateBound dates to_)) ∧
    (NotifsChronological (parseDateBound dates from_) (parseDateBound dates to_) ↔
      Sortable (parseDateBound dates from_) (parseDateBound dates to_)) ∧
    (AuditChronological (parseDateBound dates from_) (parseDateBound dates to_) ↔
      Sortable (parseDateBound dates from_) (parseDateBound dates to_)) := by
  generalize parseDateBound dates from_ = since
  generalize parseDateBound dates to_ = until_
  refine ⟨⟨fun hpings => ?_, ?_⟩, ⟨fun hnotifs => ?_, ?_⟩, ⟨fun haudit => ?_, ?_⟩⟩
  · exact sortable_of_agree (hpings.agree fourDigits_firstRow) (hpings.agree fourDigits_lastRow)
  · intro hsortable rows checkId kinds cursor limit hrows hlow hhigh
    rw [runKeyset_pings since until_ rows checkId kinds hlow hhigh,
      hsortable.filter hrows fun row holds => row.checkId = checkId && ((kinds.isEmpty || kinds.contains row.kind) && holds)]
  · exact sortable_of_agree (hnotifs.agree fourDigits_firstRow) (hnotifs.agree fourDigits_lastRow)
  · intro hsortable rows checkId events statuses cursor limit hrows hlow hhigh
    rw [runKeyset_notifications since until_ rows checkId events statuses hlow hhigh,
      hsortable.filter hrows fun row holds => row.checkId = checkId && ((events.isEmpty || events.contains row.event) &&
        (statuses.isEmpty || statuses.contains row.status) && holds)]
  · exact sortable_of_agree (haudit.agree fourDigits_firstRow) (haudit.agree fourDigits_lastRow)
  · intro hsortable rows actor action cursor limit hrows hlow hhigh
    rw [runKeyset_audit since until_ rows actor action hlow hhigh,
      hsortable.filter hrows fun row holds => actor.all (row.actorUsername = ·) && action.all (row.action = ·) && holds]

/-- A ping in the middle of 2026, an upper bound in the year 10000, and an empty page. -/
theorem upperBound_hides_earlier : ∃ since until_ : Stamp,
    parseDateBound chrono (some "2026-01-01T00:00") = some since ∧
    parseDateBound chrono (some "+10000-01-01T00:00") = some until_ ∧
    since.Before (Stamp.ofInstant (1780000000 * nanosPerSec)) ∧
    (Stamp.ofInstant (1780000000 * nanosPerSec)).Before until_ ∧
    runKeyset ((History.PingFilter.mk [] (some since) (some until_)).query 1 .latest historyLimit)
      (pingTable [⟨1, 1, .success, none, "", none, 1780000000 * nanosPerSec⟩]) = some (.ok ⟨[], false, false⟩) ∧
    ¬ PingsChronological (some since) (some until_) := by
  have hsince : parseDateBound chrono (some "2026-01-01T00:00") = some ⟨1767225600, 0, .inl (by decide)⟩ := by decide +kernel
  have huntil : parseDateBound chrono (some "+10000-01-01T00:00") = some ⟨253402300800, 0, .inl (by decide)⟩ := by
    decide +kernel
  have hrow : withinTexts (some ⟨1767225600, 0, .inl (by decide)⟩) (some ⟨253402300800, 0, .inl (by decide)⟩)
      (1780000000 * nanosPerSec) = false := by decide +kernel
  have hinside : within (some ⟨1767225600, 0, .inl (by decide)⟩) (some ⟨253402300800, 0, .inl (by decide)⟩)
      (1780000000 * nanosPerSec) = true := by decide
  refine ⟨_, _, hsince, huntil, by decide, by decide, ?_, fun hpings => ?_⟩
  · rw [runKeyset_pings _ _ _ 1 [] (by decide) (by decide), List.filter_cons_of_neg (by rw [hrow]; decide), List.filter_nil]
    simp [keysetPage, orderByDesc]
  · have hagree := hpings.agree (t := 1780000000 * nanosPerSec) ⟨by decide, by decide⟩
    rw [hrow, hinside] at hagree
    cases hagree

end Pingward
