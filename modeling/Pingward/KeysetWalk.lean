import Pingward.ModelStore

/-! Walking a history page by page. The rows a cursor leaves are a tail of the rows sorted by descending id, so that
each page is the next piece of that tail; the page after a page's first row is the piece before it. -/

namespace Pingward

section Keyset

variable {ρ : Type} {id : ρ → Int} {limit : Nat} {rows shown rest : List ρ}

/-! ### Rows in descending order -/

/-- Newest first. -/
def Decreasing (id : ρ → Int) (rows : List ρ) : Prop := rows.Pairwise fun a b => id b < id a

theorem Decreasing.nodup (hsorted : Decreasing id rows) : (rows.map id).Nodup := by
  rw [List.Nodup, List.pairwise_map]
  exact hsorted.imp fun hlt => hlt.ne'

theorem orderByDesc_pairwise (rows : List ρ) : (orderByDesc id rows).Pairwise fun a b => id b ≤ id a := by
  have hmerged : (orderByDesc id rows).Pairwise fun a b => decide (id b ≤ id a) = true :=
    List.pairwise_mergeSort
      (by simp only [decide_eq_true_eq]; intro a b c hab hbc; exact hbc.trans hab)
      (by simp only [Bool.or_eq_true, decide_eq_true_eq]; intro a b; exact le_total _ _) rows
  exact hmerged.imp fun hle => of_decide_eq_true hle

theorem orderBy_pairwise (rows : List ρ) : (orderBy id rows).Pairwise fun a b => id a ≤ id b := by
  have hmerged : (orderBy id rows).Pairwise fun a b => decide (id a ≤ id b) = true :=
    List.pairwise_mergeSort
      (by simp only [decide_eq_true_eq]; intro a b c hab hbc; exact hab.trans hbc)
      (by simp only [Bool.or_eq_true, decide_eq_true_eq]; intro a b; exact le_total _ _) rows
  exact hmerged.imp fun hle => of_decide_eq_true hle

/-- Sorting rows with distinct ids. -/
theorem orderByDesc_decreasing (hdistinct : (rows.map id).Nodup) : Decreasing id (orderByDesc id rows) := by
  have hnodup : ((orderByDesc id rows).map id).Nodup :=
    (((List.mergeSort_perm rows _).map id).nodup_iff).mpr hdistinct
  rw [List.Nodup, List.pairwise_map] at hnodup
  apply ((orderByDesc_pairwise rows).and hnodup).imp
  intro a b hboth
  exact lt_of_le_of_ne hboth.1 (Ne.symm hboth.2)

theorem orderBy_increasing (hdistinct : (rows.map id).Nodup) : Decreasing id (orderBy id rows).reverse := by
  have hnodup : ((orderBy id rows).map id).Nodup :=
    (((List.mergeSort_perm rows _).map id).nodup_iff).mpr hdistinct
  rw [List.Nodup, List.pairwise_map] at hnodup
  rw [Decreasing, List.pairwise_reverse]
  apply ((orderBy_pairwise rows).and hnodup).imp
  intro a b hboth
  exact lt_of_le_of_ne hboth.1 hboth.2

/-- There is one way to sort rows by descending id. -/
theorem Decreasing.eq {sorted sorted' : List ρ} (hsorted : Decreasing id sorted) (hsorted' : Decreasing id sorted')
    (hperm : sorted.Perm sorted') : sorted = sorted' := by
  refine hperm.eq_of_pairwise ?_ hsorted hsorted'
  intro a b _ _ hlt hgt
  exact absurd hlt (lt_asymm hgt)

theorem orderByDesc_eq (hsorted : Decreasing id shown) (hperm : shown.Perm rows) : orderByDesc id rows = shown :=
  (orderByDesc_decreasing ((hperm.map id).nodup_iff.mp hsorted.nodup)).eq hsorted
    ((List.mergeSort_perm rows _).trans hperm.symm)

theorem orderBy_eq (hsorted : Decreasing id shown) (hperm : shown.Perm rows) : orderBy id rows = shown.reverse := by
  have hreverse := (orderBy_increasing ((hperm.map id).nodup_iff.mp hsorted.nodup)).eq hsorted
    ((List.reverse_perm _).trans ((List.mergeSort_perm rows _).trans hperm.symm))
  rw [← hreverse, List.reverse_reverse]

/-- The rows older than the last one shown. -/
theorem filter_older (hsorted : Decreasing id (shown ++ rest)) {last : ρ} (hlast : shown.getLast? = some last) :
    (shown ++ rest).filter (fun row => id row < id last) = rest := by
  obtain ⟨front, rfl⟩ := List.getLast?_eq_some_iff.mp hlast
  obtain ⟨hshown, hrest, hbetween⟩ := List.pairwise_append.mp hsorted
  obtain ⟨-, -, hfront⟩ := List.pairwise_append.mp hshown
  have hnone : (front ++ [last]).filter (fun row => id row < id last) = [] := by
    rw [List.filter_eq_nil_iff]
    intro row hrow
    rw [decide_eq_true_eq, not_lt]
    rcases List.mem_append.mp hrow with hmem | hmem
    · exact (hfront row hmem last List.mem_cons_self).le
    · rw [List.mem_singleton.mp hmem]
  have hall : rest.filter (fun row => id row < id last) = rest := by
    rw [List.filter_eq_self]
    intro row hrow
    exact decide_eq_true (hbetween last (List.mem_append_right _ List.mem_cons_self) row hrow)
  rw [List.filter_append, hnone, hall, List.nil_append]

/-- The rows newer than the first one left. -/
theorem filter_newer (hsorted : Decreasing id (shown ++ rest)) {first : ρ} (hfirst : rest.head? = some first) :
    (shown ++ rest).filter (fun row => id first < id row) = shown := by
  obtain ⟨tail, rfl⟩ := List.head?_eq_some_iff.mp hfirst
  obtain ⟨-, hrest, hbetween⟩ := List.pairwise_append.mp hsorted
  have hnone : (first :: tail).filter (fun row => id first < id row) = [] := by
    rw [List.filter_eq_nil_iff]
    intro row hrow
    rw [decide_eq_true_eq, not_lt]
    rcases List.mem_cons.mp hrow with rfl | hmem
    · exact le_rfl
    · exact ((List.pairwise_cons.mp hrest).1 row hmem).le
  have hall : shown.filter (fun row => id first < id row) = shown := by
    rw [List.filter_eq_self]
    intro row hrow
    exact decide_eq_true (hbetween row hrow first List.mem_cons_self)
  rw [List.filter_append, hnone, hall, List.append_nil]

/-! ### One page -/

/-- The rows shown before a cursor and the rows it leaves. -/
structure Leaves (id : ρ → Int) (rows : List ρ) (cursor : PageCursor) (shown rest : List ρ) : Prop where
  perm : (shown ++ rest).Perm rows
  sorted : Decreasing id (shown ++ rest)
  cursor : cursor = .latest ∧ shown = [] ∨ ∃ last, shown.getLast? = some last ∧ cursor = .before (id last)

theorem fetched_items (fetched : List ρ) (limit : Nat) : (fetched.take (limit + 1)).take limit = fetched.take limit := by
  rw [List.take_take, Nat.min_eq_left (Nat.le_succ limit)]

theorem fetched_overflows (fetched : List ρ) (limit : Nat) :
    decide (limit < (fetched.take (limit + 1)).length) = decide (limit < fetched.length) := by
  rw [decide_eq_decide, List.length_take]
  omega

theorem keysetPage_leaves (limit : Nat) {cursor : PageCursor} (hleaves : Leaves id rows cursor shown rest) :
    (keysetPage id rows cursor limit).items = rest.take limit ∧
      (keysetPage id rows cursor limit).hasOlder = decide (limit < rest.length) := by
  obtain ⟨hperm, hsorted, hcursor⟩ := hleaves
  rcases hcursor with ⟨rfl, rfl⟩ | ⟨last, hlast, rfl⟩
  · simp only [keysetPage, orderByDesc_eq hsorted hperm, fetched_items, fetched_overflows, List.nil_append, and_self]
  · have hrest : Decreasing id rest := (List.pairwise_append.mp hsorted).2.1
    have holder : rest.Perm (rows.filter fun row => id row < id last) := by
      rw [← filter_older hsorted hlast]
      exact hperm.filter _
    simp only [keysetPage, orderByDesc_eq hrest holder, fetched_items, fetched_overflows, and_self]

/-- The page after a row is the piece before it. -/
theorem keysetPage_after (limit : Nat) (hperm : (shown ++ rest).Perm rows) (hsorted : Decreasing id (shown ++ rest)) {first : ρ}
    (hfirst : rest.head? = some first) : keysetPage id rows (.after (id first)) limit =
      ⟨(shown.reverse.take limit).reverse, decide (limit < shown.length), true⟩ := by
  have hshown : Decreasing id shown := (List.pairwise_append.mp hsorted).1
  have hnewer : shown.Perm (rows.filter fun row => id first < id row) := by
    rw [← filter_newer hsorted hfirst]
    exact hperm.filter _
  simp only [keysetPage, orderBy_eq hshown hnewer, fetched_items, fetched_overflows, List.length_reverse]

/-! ### The walk -/

/-- A walk to older rows: a page, and while it has older rows the page before its last one. The rows to choose from
may be others at each fetch, of which `k` were made before. -/
inductive Walk (id : ρ → Int) (limit : Nat) (tables : Nat → List ρ) : Nat → PageCursor → List (Page ρ) → Prop
  | last {k : Nat} {cursor : PageCursor} (hend : (keysetPage id (tables k) cursor limit).hasOlder = false) :
      Walk id limit tables k cursor [keysetPage id (tables k) cursor limit]
  | next {k : Nat} {cursor : PageCursor} {last : ρ} {pages : List (Page ρ)}
      (holder : (keysetPage id (tables k) cursor limit).hasOlder = true)
      (hlast : (keysetPage id (tables k) cursor limit).items.getLast? = some last)
      (hrest : Walk id limit tables (k + 1) (.before (id last)) pages) :
      Walk id limit tables k cursor (keysetPage id (tables k) cursor limit :: pages)

/-- What one page shows is left out by the cursor behind it. -/
theorem Leaves.next {cursor : PageCursor} {last : ρ} (hleaves : Leaves id rows cursor shown rest)
    (hlast : (rest.take limit).getLast? = some last) :
    Leaves id rows (.before (id last)) (shown ++ rest.take limit) (rest.drop limit) := by
  have hsame : shown ++ rest.take limit ++ rest.drop limit = shown ++ rest := by
    rw [List.append_assoc, List.take_append_drop]
  refine ⟨hsame ▸ hleaves.perm, hsame ▸ hleaves.sorted, .inr ⟨last, ?_, rfl⟩⟩
  rw [List.getLast?_append, hlast]
  rfl

theorem Leaves.start (hdistinct : (rows.map id).Nodup) : Leaves id rows .latest [] (orderByDesc id rows) :=
  ⟨List.mergeSort_perm rows _, orderByDesc_decreasing hdistinct, .inl ⟨rfl, rfl⟩⟩

/-- A walk comes to an end. -/
theorem Leaves.walk (hlimit : 1 ≤ limit) {k : Nat} {cursor : PageCursor} (hleaves : Leaves id rows cursor shown rest) :
    ∃ pages, Walk id limit (fun _ => rows) k cursor pages := by
  induction hlength : rest.length using Nat.strong_induction_on generalizing k cursor shown rest with
  | _ n ih =>
      obtain ⟨hitems, holder⟩ := keysetPage_leaves limit hleaves
      by_cases hmore : limit < rest.length
      · cases hlast : (rest.take limit).getLast? with
        | none =>
            have hlengths := congrArg List.length (List.getLast?_eq_none_iff.mp hlast)
            rw [List.length_take, List.length_nil] at hlengths
            omega
        | some last =>
            obtain ⟨pages, hpages⟩ := ih (rest.drop limit).length (by rw [List.length_drop]; omega) (k := k + 1)
              (hleaves.next hlast) rfl
            exact ⟨_, .next (by rw [holder, decide_eq_true hmore]) (by rw [hitems, hlast]) hpages⟩
      · exact ⟨_, .last (by rw [holder, decide_eq_false hmore])⟩

/-- What a walk shows: the pages in their order, and each page again from the one behind it. -/
structure Shows (id : ρ → Int) (limit : Nat) (rows shown rest : List ρ) (pages : List (Page ρ)) : Prop where
  items : pages.flatMap Page.items = rest
  older : ∀ k page, pages[k]? = some page → (page.hasOlder = true ↔ k + 1 < pages.length)
  full : ∀ k page, pages[k]? = some page → page.items.length ≤ limit ∧ (k + 1 < pages.length → page.items.length = limit)
  back : ∀ k page older, pages[k]? = some page → pages[k + 1]? = some older → ∃ first, older.items.head? = some first ∧
    keysetPage id rows (.after (id first)) limit = ⟨page.items, decide (0 < shown.length + k), true⟩

/-- A walk begins with the page of its cursor. -/
theorem Walk.head {tables : Nat → List ρ} {k : Nat} {cursor : PageCursor} {pages : List (Page ρ)}
    (hwalk : Walk id limit tables k cursor pages) : pages.head? = some (keysetPage id (tables k) cursor limit) := by
  cases hwalk <;> rfl

/-- The page in front of what is left, again. -/
theorem Leaves.back {cursor : PageCursor} (hleaves : Leaves id rows cursor shown rest) (hlimit : 1 ≤ limit)
    (hmore : limit < rest.length) : ∃ first, ((rest.drop limit).take limit).head? = some first ∧
      keysetPage id rows (.after (id first)) limit = ⟨rest.take limit, decide (0 < shown.length), true⟩ := by
  have htake : (rest.take limit).length = limit := List.length_take_of_le hmore.le
  have hsame : shown ++ rest.take limit ++ rest.drop limit = shown ++ rest := by
    rw [List.append_assoc, List.take_append_drop]
  cases hrest : rest.drop limit with
  | nil =>
      rw [List.drop_eq_nil_iff] at hrest
      exact absurd hmore (Nat.not_lt.mpr hrest)
  | cons first tail =>
      refine ⟨first, by rw [List.head?_take, if_neg (Nat.pos_iff_ne_zero.mp hlimit)]; rfl, ?_⟩
      have hpage := keysetPage_after limit (hsame ▸ hleaves.perm) (hsame ▸ hleaves.sorted)
        (show (rest.drop limit).head? = some first by rw [hrest]; rfl)
      rw [hpage, List.reverse_append, List.take_left' (by rw [List.length_reverse, htake]), List.reverse_reverse]
      have hnewer : decide (limit < (shown ++ rest.take limit).length) = decide (0 < shown.length) := by
        rw [List.length_append, htake, decide_eq_decide]
        omega
      rw [hnewer]

theorem Walk.shows (hlimit : 1 ≤ limit) {k : Nat} {cursor : PageCursor} {pages : List (Page ρ)}
    (hwalk : Walk id limit (fun _ => rows) k cursor pages) (hleaves : Leaves id rows cursor shown rest) :
    Shows id limit rows shown rest pages := by
  induction hwalk generalizing shown rest with
  | last hend =>
      rename_i k cursor
      obtain ⟨hitems, holder⟩ := keysetPage_leaves limit hleaves
      have hshort : rest.length ≤ limit := by
        rw [hend] at holder
        exact Nat.not_lt.mp (of_decide_eq_false holder.symm)
      have hall : (keysetPage id rows cursor limit).items = rest := by rw [hitems, List.take_of_length_le hshort]
      have honly {j : Nat} {page : Page ρ} (hpage : [keysetPage id rows cursor limit][j]? = some page) :
          j = 0 ∧ page = keysetPage id rows cursor limit := by
        rw [List.getElem?_singleton] at hpage
        split at hpage
        · exact ⟨‹_›, (Option.some.inj hpage).symm⟩
        · cases hpage
      refine ⟨by rw [List.flatMap_singleton, hall], ?_, ?_, ?_⟩
      · intro j page hpage
        obtain ⟨rfl, rfl⟩ := honly hpage
        simp [hend]
      · intro j page hpage
        obtain ⟨rfl, rfl⟩ := honly hpage
        exact ⟨hall ▸ hshort, fun hmore => absurd hmore (by simp)⟩
      · intro j page older hpage holder
        exact absurd (honly holder).1 (Nat.succ_ne_zero j)
  | next hmore hlast hrest ih =>
      rename_i k cursor last pages
      obtain ⟨hitems, holder⟩ := keysetPage_leaves limit hleaves
      have hlong : limit < rest.length := of_decide_eq_true (holder.symm.trans hmore)
      have htake : (rest.take limit).length = limit := List.length_take_of_le hlong.le
      have hleaves' := hleaves.next (hitems ▸ hlast)
      have hshows := ih hleaves'
      have hhead := hrest.head
      have hpos : 0 < pages.length := by
        cases pages with
        | nil => cases hhead
        | cons _ _ => exact Nat.succ_pos _
      refine ⟨?_, ?_, ?_, ?_⟩
      · rw [List.flatMap_cons, hshows.items, hitems, List.take_append_drop]
      · intro j page hpage
        rw [List.length_cons, Nat.add_lt_add_iff_right]
        cases j with
        | zero =>
            cases hpage
            exact iff_of_true hmore hpos
        | succ j => exact hshows.older j page hpage
      · intro j page hpage
        rw [List.length_cons, Nat.add_lt_add_iff_right]
        cases j with
        | zero =>
            cases hpage
            rw [hitems, htake]
            exact ⟨le_rfl, fun _ => rfl⟩
        | succ j => exact hshows.full j page hpage
      · intro j page older hpage holder
        cases j with
        | zero =>
            cases hpage
            rw [List.getElem?_cons_succ, ← List.head?_eq_getElem?, hhead] at holder
            cases holder
            obtain ⟨first, hfirst, hback⟩ := hleaves.back hlimit hlong
            refine ⟨first, ?_, ?_⟩
            · rw [(keysetPage_leaves limit hleaves').1, hfirst]
            · rw [hback, hitems, Nat.add_zero]
        | succ j =>
            obtain ⟨first, hfirst, hback⟩ := hshows.back j page older hpage holder
            refine ⟨first, hfirst, hback.trans ?_⟩
            have hnewer : decide (0 < (shown ++ rest.take limit).length + j) = decide (0 < shown.length + (j + 1)) := by
              rw [List.length_append, htake, decide_eq_decide]
              omega
            rw [hnewer]

/-! ### Rows that arrive during a walk -/

/-- Between the fetches rows with larger ids are inserted, and nothing else happens. -/
def Growing (id : ρ → Int) (tables : Nat → List ρ) : Prop :=
  ∀ k, ∃ added, (tables (k + 1)).Perm (tables k ++ added) ∧ ∀ row ∈ added, ∀ old ∈ tables k, id old < id row

theorem Growing.since_start {tables : Nat → List ρ} (hgrowing : Growing id tables) (k : Nat) :
    ∃ added, (tables k).Perm (tables 0 ++ added) ∧ ∀ row ∈ added, ∀ old ∈ tables 0, id old < id row := by
  induction k with
  | zero => exact ⟨[], by rw [List.append_nil], fun row hrow => absurd hrow List.not_mem_nil⟩
  | succ k ih =>
      obtain ⟨added, hperm, hlarger⟩ := ih
      obtain ⟨more, hmore, hlargerMore⟩ := hgrowing k
      refine ⟨added ++ more, ?_, ?_⟩
      · rw [← List.append_assoc]
        exact hmore.trans (hperm.append_right more)
      · intro row hrow old hold
        rcases List.mem_append.mp hrow with hadded | hnew
        · exact hlarger row hadded old hold
        · exact hlargerMore row hnew old (hperm.mem_iff.mpr (List.mem_append_left _ hold))

theorem Growing.filter {tables : Nat → List ρ} (hgrowing : Growing id tables) (p : ρ → Bool) :
    Growing id fun k => (tables k).filter p := by
  intro k
  obtain ⟨added, hperm, hlarger⟩ := hgrowing k
  refine ⟨added.filter p, ?_, ?_⟩
  · rw [← List.filter_append]
    exact hperm.filter p
  · intro row hrow old hold
    exact hlarger row (List.mem_filter.mp hrow).1 old (List.mem_filter.mp hold).1

/-- A page of older rows is not changed by what was inserted. -/
theorem keysetPage_grown {tables : Nat → List ρ} (hgrowing : Growing id tables) (hdistinct : ((tables 0).map id).Nodup)
    (k : Nat) {last : ρ} (hlast : last ∈ tables 0) :
    keysetPage id (tables k) (.before (id last)) limit = keysetPage id (tables 0) (.before (id last)) limit := by
  obtain ⟨added, hperm, hlarger⟩ := hgrowing.since_start k
  have hnone : added.filter (fun row => id row < id last) = [] := by
    rw [List.filter_eq_nil_iff]
    intro row hrow
    rw [decide_eq_true_eq, not_lt]
    exact (hlarger row hrow last hlast).le
  have hsame : ((tables k).filter fun row => id row < id last).Perm ((tables 0).filter fun row => id row < id last) := by
    have hfiltered := hperm.filter fun row => id row < id last
    rwa [List.filter_append, hnone, List.append_nil] at hfiltered
  have hnodup : (((tables 0).filter fun row => id row < id last).map id).Nodup :=
    hdistinct.sublist (List.filter_sublist.map id)
  have hsorted : orderByDesc id ((tables k).filter fun row => id row < id last) =
      orderByDesc id ((tables 0).filter fun row => id row < id last) :=
    orderByDesc_eq (orderByDesc_decreasing hnodup) ((List.mergeSort_perm _ _).trans hsame.symm)
  simp only [keysetPage, hsorted]

theorem mem_of_getLast {cursor : PageCursor} {last : ρ}
    (hlast : (keysetPage id rows cursor limit).items.getLast? = some last) : last ∈ rows := by
  have hmem := List.mem_of_getLast? hlast
  unfold keysetPage at hmem
  cases cursor with
  | latest => exact (List.mem_mergeSort.mp (List.mem_of_mem_take (List.mem_of_mem_take hmem)))
  | before cursor =>
      exact (List.mem_filter.mp (List.mem_mergeSort.mp (List.mem_of_mem_take (List.mem_of_mem_take hmem)))).1
  | after cursor =>
      have hmem := List.mem_reverse.mp hmem
      exact (List.mem_filter.mp (List.mem_mergeSort.mp (List.mem_of_mem_take (List.mem_of_mem_take hmem)))).1

/-- The cursors of a walk. -/
def Older (id : ρ → Int) (rows : List ρ) (k : Nat) (cursor : PageCursor) : Prop :=
  k = 0 ∨ ∃ last ∈ rows, cursor = .before (id last)

theorem Walk.of_grown {tables : Nat → List ρ} (hgrowing : Growing id tables) (hdistinct : ((tables 0).map id).Nodup)
    {k : Nat} {cursor : PageCursor} (hcursor : Older id (tables 0) k cursor) {pages : List (Page ρ)} :
    Walk id limit tables k cursor pages ↔ Walk id limit (fun _ => tables 0) k cursor pages := by
  have hpage {k : Nat} {cursor : PageCursor} (hcursor : Older id (tables 0) k cursor) :
      keysetPage id (tables k) cursor limit = keysetPage id (tables 0) cursor limit := by
    rcases hcursor with rfl | ⟨last, hlast, rfl⟩
    · rfl
    · exact keysetPage_grown hgrowing hdistinct k hlast
  constructor
  · intro hwalk
    induction hwalk with
    | last hend =>
        rw [hpage hcursor] at hend ⊢
        exact .last hend
    | next hmore hlast hrest ih =>
        rw [hpage hcursor] at hmore hlast ⊢
        exact .next hmore hlast (ih (.inr ⟨_, mem_of_getLast hlast, rfl⟩))
  · intro hwalk
    induction hwalk with
    | last hend =>
        rw [← hpage hcursor] at hend ⊢
        exact .last hend
    | next hmore hlast hrest ih =>
        have hmem := mem_of_getLast hlast
        rw [← hpage hcursor] at hmore hlast ⊢
        exact .next hmore hlast (ih (.inr ⟨_, hmem, rfl⟩))

end Keyset

/-! ### The history of a table -/

section History

variable {ρ : Type} (id : ρ → Int) (limit : Nat)

/-- **The keyset walk.** Over the rows of a table that are in scope and match the filter, a walk ends; its pages show
each of these rows once, newest first, all but the last page full and all but the last with older rows; the page
after a page's first row is the one in front of it; and rows inserted between the fetches change nothing. -/
theorem keyset_walk (table : List ρ) (p : ρ → Bool) (hdistinct : (table.map id).Nodup) (hlimit : 1 ≤ limit) :
    (∃ pages, Walk id limit (fun _ => table.filter p) 0 .latest pages) ∧
    (∀ pages, Walk id limit (fun _ => table.filter p) 0 .latest pages →
      (pages.flatMap Page.items).Perm (table.filter p) ∧ Decreasing id (pages.flatMap Page.items) ∧
      (∀ k page, pages[k]? = some page →
        (page.hasOlder = true ↔ k + 1 < pages.length) ∧ page.items.length ≤ limit ∧
        (k + 1 < pages.length → page.items.length = limit)) ∧
      ∀ k page older, pages[k]? = some page → pages[k + 1]? = some older → ∃ first, older.items.head? = some first ∧
        keysetPage id (table.filter p) (.after (id first)) limit = ⟨page.items, decide (0 < k), true⟩) ∧
    ∀ tables : Nat → List ρ, tables 0 = table → Growing id tables → ∀ pages,
      Walk id limit (fun k => (tables k).filter p) 0 .latest pages ↔
        Walk id limit (fun _ => table.filter p) 0 .latest pages := by
  have hnodup : ((table.filter p).map id).Nodup := hdistinct.sublist (List.filter_sublist.map id)
  have hstart : Leaves id (table.filter p) .latest [] (orderByDesc id (table.filter p)) := .start hnodup
  refine ⟨hstart.walk hlimit, ?_, ?_⟩
  · intro pages hwalk
    have hshows := hwalk.shows hlimit hstart
    refine ⟨?_, ?_, ?_, ?_⟩
    · rw [hshows.items]
      exact List.mergeSort_perm _ _
    · rw [hshows.items]
      exact orderByDesc_decreasing hnodup
    · intro k page hpage
      exact ⟨hshows.older k page hpage, hshows.full k page hpage⟩
    · intro k page older hpage holder
      have hback := hshows.back k page older hpage holder
      rwa [List.length_nil, Nat.zero_add] at hback
  · rintro tables rfl hgrowing pages
    exact Walk.of_grown (hgrowing.filter p) hnodup (.inl rfl)

/-- Five rows, one of which the filter leaves out, in pages of two. -/
theorem keyset_walk_sample :
    ∃ pages, Walk (fun n : Int => n) 2 (fun _ => [3, 1, 4, 5, 2].filter fun n => n ≠ 4) 0 .latest pages :=
  (keyset_walk (fun n : Int => n) 2 [3, 1, 4, 5, 2] (fun n => n ≠ 4) (by decide) (by decide)).1

end History

end Pingward
