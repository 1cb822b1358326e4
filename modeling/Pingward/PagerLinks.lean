import Pingward.LinkToken

/-! The links of the history pages, read again. Ids and choices come back from any link; a date bound comes back where
its token says all of it, and the free texts of the audit trail where form decoding leaves them alone. -/

namespace Pingward

open Calendar (Stamp)

/-! ### Ids -/

/-- The ids of the database. -/
def IsI64 (n : Int) : Prop := i64Min ≤ n ∧ n ≤ i64Max

theorem toList_i64ToString_neg (n : Nat) : (i64ToString (Int.negSucc n)).toList = '-' :: Nat.toDigits 10 (n + 1) := by
  change ("-" ++ Nat.repr (n + 1)).toList = _
  simp only [String.toList_append, Nat.repr_eq_ofList_toDigits, String.toList_ofList]
  rfl

/-- What is printed is read back, with its sign. -/
theorem parseI64_i64ToString_int {n : Int} (hn : IsI64 n) : parseI64 (i64ToString n) = some n := by
  cases n with
  | ofNat n => exact parseI64_i64ToString hn.2
  | negSucc n =>
      have hdigits : Nat.toDigits 10 (n + 1) ≠ [] ∧ (Nat.toDigits 10 (n + 1)).all Char.isDigit = true :=
        ⟨Nat.toDigits_ne_nil, all_isDigit_toDigits (n + 1)⟩
      unfold parseI64
      rw [toList_i64ToString_neg]
      apply (if_pos hdigits).trans
      rw [Nat.ofDigitChars_ten_toDigits, checkedI64_eq_some]
      exact ⟨rfl, hn⟩

theorem isTokenChar_i64ToString (n : Int) : ∀ c ∈ (i64ToString n).toList, isTokenChar c = true := by
  have hdigit (m : Nat) : ∀ c ∈ Nat.toDigits 10 m, isTokenChar c = true := by
    intro c hc
    rw [isTokenChar, Nat.isDigit_of_mem_toDigits (by decide) (by decide) hc, Bool.true_or]
  cases n with
  | ofNat n =>
      intro c hc
      exact hdigit n c (toList_i64ToString n ▸ hc)
  | negSucc n =>
      intro c hc
      rw [toList_i64ToString_neg, List.mem_cons] at hc
      rcases hc with rfl | hc
      · decide
      · exact hdigit _ c hc

/-- A text of digits and the characters between them is decoded to itself. -/
theorem plain_of_tokenChars {text : String} (hchars : ∀ c ∈ text.toList, isTokenChar c = true) : Plain text where
  ampersand hmem := (tokenChar_plain (hchars _ hmem)).2.1 rfl
  plus hmem := (tokenChar_plain (hchars _ hmem)).2.2.1 rfl
  escape := hasEscape_of_percent_notMem fun hmem => (tokenChar_plain (hchars _ hmem)).2.2.2 rfl

theorem i64ToString_ne_empty (n : Int) : i64ToString n ≠ "" := by
  intro hempty
  have hlist := congrArg String.toList hempty
  cases n with
  | ofNat n => exact Nat.toDigits_ne_nil ((toList_i64ToString n).symm.trans hlist)
  | negSucc n => exact List.cons_ne_nil _ _ ((toList_i64ToString_neg n).symm.trans hlist)

/-! ### Choices -/

/-- The texts of an enumeration: each is read back, and neither trimming nor decoding changes it. -/
structure Choices {α : Type} (fromStr : String → Except String α) (asStr : α → String) : Prop where
  read : ∀ a, (fromStr (asStr a)).toOption = some a
  trimmed : ∀ a, trim (asStr a) = asStr a
  filled : ∀ a, asStr a ≠ ""
  plain : ∀ a, Plain (asStr a)

theorem pingKind_choices : Choices PingKind.fromStr PingKind.asStr where
  read kind := by cases kind <;> decide
  trimmed kind := by cases kind <;> decide
  filled kind := by cases kind <;> decide
  plain kind := by cases kind <;> decide

theorem eventKind_choices : Choices EventKind.fromStr EventKind.asStr where
  read event := by cases event <;> decide
  trimmed event := by cases event <;> decide
  filled event := by cases event <;> decide
  plain event := by cases event <;> decide

theorem notifyStatus_choices : Choices NotifyStatus.fromStr NotifyStatus.asStr where
  read status := by cases status <;> decide
  trimmed status := by cases status <;> decide
  filled status := by cases status <;> decide
  plain status := by cases status <;> decide

section Choice

variable {α : Type} {fromStr : String → Except String α} {asStr : α → String}

/-- The one choice of a filter comes back from its token. -/
theorem Choices.parse_sent (hchoices : Choices fromStr asStr) {decode : String → String}
    (hdecode : decode = id ∨ decode = fromLink) (v : Option String) :
    parseFilterEnum fromStr (sent decode (firstToken asStr (parseFilterEnum fromStr v))) = parseFilterEnum fromStr v := by
  unfold parseFilterEnum
  generalize ((presentText v).bind fun s => (fromStr s).toOption) = choice
  cases choice with
  | none => rfl
  | some a =>
      have hsent : sent decode (firstToken asStr (some a).toList) = some (asStr a) := by
        have hsame : decode (asStr a) = asStr a := by
          rcases hdecode with rfl | rfl
          · rfl
          · exact fromLink_plain (hchoices.plain a).plus (hchoices.plain a).escape
        exact (if_neg (hchoices.filled a)).trans (congrArg some hsame)
      rw [hsent, presentText_of_trimmed (hchoices.trimmed a) (hchoices.filled a), Option.bind_some, hchoices.read]

theorem Choices.token_separable (hchoices : Choices fromStr asStr) (values : List α) :
    '&' ∉ (firstToken asStr values).toList := by
  cases values with
  | nil => exact List.not_mem_nil
  | cons a rest => exact (hchoices.plain a).ampersand

end Choice

theorem dateBoundToken_separable (bound : Option Stamp) : '&' ∉ (dateBoundToken bound).toList := by
  cases bound with
  | none => exact List.not_mem_nil
  | some stamp => exact token_separable stamp

/-! ### The parameters of a link -/

/-- A parameter with a name of the program and a value without a separator. -/
structure Sendable (field : String × String) : Prop where
  name : PlainName field.1
  ampersand : '&' ∉ field.2.toList

theorem Sendable.separable {field : String × String} (hfield : Sendable field) : Separable field := by
  rw [Separable, fieldText, List.mem_append, List.mem_cons]
  exact fun hmem => hmem.elim hfield.name.plain.ampersand fun hmem => hmem.elim (by decide) hfield.ampersand

section Href

variable {path name : String} {carry : List (String × String)}

theorem formPairs_hrefFields (hpath : '?' ∉ path.toList) (fields : List (String × String))
    (hfields : ∀ field ∈ fields, Sendable field) :
    formPairs (hrefQuery (path ++ hrefFields "?" (fields.filter fun field => field.2 ≠ ""))) = sentPairs fromLink fields := by
  have hsent : ∀ field ∈ fields.filter fun field => field.2 ≠ "", Sendable field := fun field hmem =>
    hfields field (List.mem_filter.mp hmem).1
  unfold sentPairs
  cases hfilter : fields.filter fun field => field.2 ≠ "" with
  | nil =>
      have hdrop : path.toList.dropWhile (· ≠ '?') = [] := by
        rw [List.dropWhile_eq_nil_iff]
        intro c hc
        apply decide_eq_true
        rintro rfl
        exact hpath hc
      have hquery : hrefQuery (path ++ hrefFields "?" []) = [] := by
        rw [hrefQuery, String.toList_append, hrefFields, String.toList_empty, List.append_nil, hdrop]
        rfl
      rw [hquery]
      rfl
  | cons field rest =>
      rw [hfilter] at hsent
      rw [hrefQuery_fields hpath, formPairs_fields field rest fun other hother => (hsent other hother).separable]
      exact List.map_congr_left fun other hother => formPair_named (hsent other hother).name _

theorem sendable_id (hname : PlainName name) (n : Int) : Sendable (name, i64ToString n) :=
  ⟨hname, (plain_of_tokenChars (isTokenChar_i64ToString n)).ampersand⟩

theorem historyHref_eq (path name : String) (n : Int) (carry : List (String × String)) :
    historyHref path (name, n) carry =
      path ++ hrefFields "?" (((name, i64ToString n) :: carry).filter fun field => field.2 ≠ "") := by
  rw [historyHref, List.filter_cons_of_pos (by simpa using i64ToString_ne_empty n)]

theorem formPairs_historyHref (hpath : '?' ∉ path.toList) (hname : PlainName name) (n : Int)
    (hcarry : ∀ field ∈ carry, Sendable field) :
    formPairs (hrefQuery (historyHref path (name, n) carry)) = sentPairs fromLink ((name, i64ToString n) :: carry) := by
  rw [historyHref_eq]
  refine formPairs_hrefFields hpath _ fun field hmem => ?_
  rcases List.mem_cons.mp hmem with rfl | hmem
  · exact sendable_id hname n
  · exact hcarry field hmem

theorem sent_id (n : Int) : sent fromLink (i64ToString n) = some (i64ToString n) := by
  have hplain := plain_of_tokenChars (isTokenChar_i64ToString n)
  rw [sent, if_neg (i64ToString_ne_empty n), fromLink_plain hplain.plus hplain.escape]

theorem endpoint_plain (scope : PartialScope) (part : String) (hpart : '?' ∉ part.toList) :
    '?' ∉ (scope.endpoint part).toList := by
  have hbase : '?' ∉ scope.base.toList := by
    unfold PartialScope.base
    split <;> decide
  have hid : '?' ∉ (i64ToString scope.checkId).toList := by
    intro hmem
    exact absurd (isTokenChar_i64ToString _ _ hmem) (by decide)
  have hchecks : '?' ∉ "/checks/".toList := by decide
  simp only [PartialScope.endpoint, String.toList_append, List.mem_append, hbase, hid, hchecks, hpart, or_self,
    not_false_eq_true]

end Href

/-! ### Pagers -/

section Pager

variable {κ φ ρ : Type} (read : List (String × String) → Option κ) (filterOf : κ → φ) (cursorOf : κ → PageCursor)

/-- A link is read back as a filter and a cursor. -/
def LeadsTo (href : String) (filter : φ) (cursor : PageCursor) : Prop :=
  ∃ query, read (formPairs (hrefQuery href)) = some query ∧ filterOf query = filter ∧ cursorOf query = cursor

/-- The older link leads to the page before the last row and the newer one to the page after the first, each with the
filter of the page. -/
structure PagerKeeps (filter : φ) (page : Page ρ) (id : ρ → Int) (older newer : Option String) : Prop where
  older : ∀ href, older = some href → ∃ row, page.items.getLast? = some row ∧
    LeadsTo read filterOf cursorOf href filter (.before (id row))
  newer : ∀ href, newer = some href → ∃ row, page.items.head? = some row ∧
    LeadsTo read filterOf cursorOf href filter (.after (id row))

/-- Whether a page has a link. -/
def HasNeighbour (page : Page ρ) : Prop := page.items ≠ [] ∧ (page.hasOlder = true ∨ page.hasNewer = true)

variable {read filterOf cursorOf}

/-- Links that all lead to their pages under one condition. -/
theorem pagerKeeps_iff {filter : φ} {page : Page ρ} {id : ρ → Int} {olderLink newerLink : Int → String} {C : Prop}
    (hids : ∀ row ∈ page.items, IsI64 (id row))
    (holder : ∀ n, IsI64 n → (LeadsTo read filterOf cursorOf (olderLink n) filter (.before n) ↔ C))
    (hnewer : ∀ n, IsI64 n → (LeadsTo read filterOf cursorOf (newerLink n) filter (.after n) ↔ C)) :
    PagerKeeps read filterOf cursorOf filter page id ((neighbourIds page id).1.map olderLink)
        ((neighbourIds page id).2.map newerLink) ↔ (HasNeighbour page → C) := by
  constructor
  · rintro ⟨holders, hnewers⟩ ⟨hitems, hmore⟩
    rcases hmore with hmore | hmore
    · have hlast : page.items.getLast? = some (page.items.getLast hitems) := List.getLast?_eq_some_getLast hitems
      obtain ⟨row, hrow, hleads⟩ := holders (olderLink (id (page.items.getLast hitems))) (by
        rw [neighbourIds]
        simp only [hmore, if_true, hlast, Option.map_some])
      rw [hlast, Option.some_inj] at hrow
      rw [← hrow] at hleads
      exact (holder _ (hids _ (List.getLast_mem hitems))).mp hleads
    · have hfirst : page.items.head? = some (page.items.head hitems) := List.head?_eq_some_head hitems
      obtain ⟨row, hrow, hleads⟩ := hnewers (newerLink (id (page.items.head hitems))) (by
        rw [neighbourIds]
        simp only [hmore, if_true, hfirst, Option.map_some])
      rw [hfirst, Option.some_inj] at hrow
      rw [← hrow] at hleads
      exact (hnewer _ (hids _ (List.head_mem hitems))).mp hleads
  · intro hC
    refine ⟨?_, ?_⟩
    · intro href hhref
      obtain ⟨n, hn, rfl⟩ := Option.map_eq_some_iff.mp hhref
      obtain ⟨row, hrow, rfl⟩ := Option.map_eq_some_iff.mp hn
      split at hrow
      · rename_i hmore
        have hmem := List.mem_of_getLast? hrow
        exact ⟨row, hrow, (holder _ (hids row hmem)).mpr (hC ⟨List.ne_nil_of_mem hmem, .inl hmore⟩)⟩
      · cases hrow
    · intro href hhref
      obtain ⟨n, hn, rfl⟩ := Option.map_eq_some_iff.mp hhref
      obtain ⟨row, hrow, rfl⟩ := Option.map_eq_some_iff.mp hn
      split at hrow
      · rename_i hmore
        have hmem := List.mem_of_head? hrow
        exact ⟨row, hrow, (hnewer _ (hids row hmem)).mpr (hC ⟨List.ne_nil_of_mem hmem, .inr hmore⟩)⟩
      · cases hrow

end Pager

/-! ### The histories of a check -/

/-- The names of the parameters. -/
theorem plainName_of_mem {name : String} (hmem : name ∈ ["pb", "pa", "nb", "na", "pk", "pfrom", "pto", "ne", "ns", "nfrom",
    "nto", "ab", "aa", "aactor", "aaction", "afrom", "ato"]) : PlainName name := by
  have hall : ∀ name ∈ ["pb", "pa", "nb", "na", "pk", "pfrom", "pto", "ne", "ns", "nfrom", "nto", "ab", "aa", "aactor",
      "aaction", "afrom", "ato"], PlainName name := by decide +kernel
  exact hall name hmem

/-- Both bounds come back. -/
def BoundsReturn (since until_ : Option Stamp) : Prop := Returns since ∧ Returns until_

theorem sent_empty (decode : String → String) : sent decode "" = none := if_pos rfl

theorem leadsTo_iff {κ φ : Type} {read : List (String × String) → Option κ} {filterOf : κ → φ} {cursorOf : κ → PageCursor}
    {href : String} {filter : φ} {cursor : PageCursor} {query : κ} (hread : read (formPairs (hrefQuery href)) = some query) :
    LeadsTo read filterOf cursorOf href filter cursor ↔ filterOf query = filter ∧ cursorOf query = cursor := by
  unfold LeadsTo
  rw [hread]
  constructor
  · rintro ⟨query', hquery, hleads⟩
    cases hquery
    exact hleads
  · exact fun hleads => ⟨query, rfl, hleads⟩

section Check

variable {dates : Chrono} (page : History.CheckPageQuery)

/-- The pings half of a query comes back where its bounds do. -/
theorem pingFilter_again {decode : String → String} (hdecode : decode = id ∨ decode = fromLink)
    (hlawful : dates.Lawful) {query : History.CheckPageQuery} (hpk : query.pk = sent decode (filterTokens dates page).fKind)
    (hpfrom : query.pfrom = sent decode (filterTokens dates page).pFrom)
    (hpto : query.pto = sent decode (filterTokens dates page).pTo) :
    pingFilterFrom dates query = pingFilterFrom dates page ↔
      BoundsReturn (pingFilterFrom dates page).since (pingFilterFrom dates page).until_ := by
  unfold BoundsReturn
  rw [← parseDateBound_sent_iff hlawful hdecode, ← parseDateBound_sent_iff hlawful hdecode, pingFilterFrom, hpk, hpfrom,
    hpto, filterTokens, pingFilterFrom, pingKind_choices.parse_sent hdecode, History.PingFilter.mk.injEq]
  exact and_iff_right rfl

/-- The notifications half comes back where its bounds do. -/
theorem notifFilter_again {decode : String → String} (hdecode : decode = id ∨ decode = fromLink)
    (hlawful : dates.Lawful) {query : History.CheckPageQuery} (hne : query.ne = sent decode (filterTokens dates page).fEvent)
    (hns : query.ns = sent decode (filterTokens dates page).fStatus)
    (hnfrom : query.nfrom = sent decode (filterTokens dates page).nFrom)
    (hnto : query.nto = sent decode (filterTokens dates page).nTo) :
    notifFilterFrom dates query = notifFilterFrom dates page ↔
      BoundsReturn (notifFilterFrom dates page).since (notifFilterFrom dates page).until_ := by
  unfold BoundsReturn
  rw [← parseDateBound_sent_iff hlawful hdecode, ← parseDateBound_sent_iff hlawful hdecode, notifFilterFrom, hne, hns,
    hnfrom, hnto, filterTokens, notifFilterFrom, eventKind_choices.parse_sent hdecode,
    notifyStatus_choices.parse_sent hdecode, History.NotifFilter.mk.injEq]
  exact (and_iff_right rfl).trans (and_iff_right rfl)

/-- The tokens of both halves, each with its name. -/
theorem sendable_tokens : ∀ field ∈ checkPageFilterTokens (filterTokens dates page), Sendable field := by
  intro field hfield
  simp only [checkPageFilterTokens, filterTokens, List.mem_cons, List.not_mem_nil, or_false] at hfield
  rcases hfield with rfl | rfl | rfl | rfl | rfl | rfl | rfl
  · exact ⟨plainName_of_mem (by simp), pingKind_choices.token_separable _⟩
  · exact ⟨plainName_of_mem (by simp), dateBoundToken_separable _⟩
  · exact ⟨plainName_of_mem (by simp), dateBoundToken_separable _⟩
  · exact ⟨plainName_of_mem (by simp), eventKind_choices.token_separable _⟩
  · exact ⟨plainName_of_mem (by simp), notifyStatus_choices.token_separable _⟩
  · exact ⟨plainName_of_mem (by simp), dateBoundToken_separable _⟩
  · exact ⟨plainName_of_mem (by simp), dateBoundToken_separable _⟩

/-- The parameters that the links of either section carry. -/
def pingsCarry (tokens : FilterTokens) : List (String × String) :=
  [("pk", tokens.fKind), ("pfrom", tokens.pFrom), ("pto", tokens.pTo)]

def notifsCarry (tokens : FilterTokens) : List (String × String) :=
  [("ne", tokens.fEvent), ("ns", tokens.fStatus), ("nfrom", tokens.nFrom), ("nto", tokens.nTo)]

variable (dates) in
theorem sendable_pingsCarry : ∀ field ∈ pingsCarry (filterTokens dates page), Sendable field := fun field hfield =>
  sendable_tokens page field (List.mem_of_mem_take (i := 3) hfield)

variable (dates) in
theorem sendable_notifsCarry : ∀ field ∈ notifsCarry (filterTokens dates page), Sendable field := fun field hfield =>
  sendable_tokens page field (List.mem_of_mem_drop (i := 3) hfield)

theorem pings_leadsTo_iff (hlawful : dates.Lawful) (scope : PartialScope) {n : Int} (hn : IsI64 n) {name : String}
    {cursor : PageCursor}
    (hcursor : name = "pb" ∧ cursor = .before n ∨ name = "pa" ∧ cursor = .after n) :
    LeadsTo History.CheckPageQuery.read (pingFilterFrom dates) (fun query => pageCursor query.pb query.pa)
      (historyHref (scope.endpoint "/pings") (name, n) (pingsCarry (filterTokens dates page)))
      (pingFilterFrom dates page) cursor ↔
      BoundsReturn (pingFilterFrom dates page).since (pingFilterFrom dates page).until_ := by
  have hname : PlainName name := plainName_of_mem (by rcases hcursor with ⟨rfl, -⟩ | ⟨rfl, -⟩ <;> decide)
  have hpairs := formPairs_historyHref (endpoint_plain scope "/pings" (by decide)) hname n
    (sendable_pingsCarry dates page)
  have hread : ∃ query : History.CheckPageQuery, History.CheckPageQuery.read (sentPairs fromLink
      ((name, i64ToString n) :: pingsCarry (filterTokens dates page))) = some query ∧
      query.pk = sent fromLink (filterTokens dates page).fKind ∧ query.pfrom = sent fromLink (filterTokens dates page).pFrom ∧
      query.pto = sent fromLink (filterTokens dates page).pTo ∧ pageCursor query.pb query.pa = cursor := by
    have hid := parseI64_i64ToString_int hn
    rcases hcursor with ⟨rfl, rfl⟩ | ⟨rfl, rfl⟩
    · refine ⟨_, by
        simp [History.CheckPageQuery.read, queryId, queryText_sentPairs, pingsCarry, List.lookup_cons, sent_id, hid,
          sent_empty]
        rfl, rfl, rfl, rfl, rfl⟩
    · refine ⟨_, by
        simp [History.CheckPageQuery.read, queryId, queryText_sentPairs, pingsCarry, List.lookup_cons, sent_id, hid,
          sent_empty]
        rfl, rfl, rfl, rfl, rfl⟩
  obtain ⟨query, hread, hpk, hpfrom, hpto, hpage⟩ := hread
  rw [leadsTo_iff (by rw [hpairs]; exact hread), pingFilter_again page (.inr rfl) hlawful hpk hpfrom hpto]
  exact and_iff_left hpage

theorem notifs_leadsTo_iff (hlawful : dates.Lawful) (scope : PartialScope) {n : Int} (hn : IsI64 n) {name : String}
    {cursor : PageCursor} (hcursor : name = "nb" ∧ cursor = .before n ∨ name = "na" ∧ cursor = .after n) :
    LeadsTo History.CheckPageQuery.read (notifFilterFrom dates) (fun query => pageCursor query.nb query.na)
      (historyHref (scope.endpoint "/notifications") (name, n) (notifsCarry (filterTokens dates page)))
      (notifFilterFrom dates page) cursor ↔
      BoundsReturn (notifFilterFrom dates page).since (notifFilterFrom dates page).until_ := by
  have hname : PlainName name := plainName_of_mem (by rcases hcursor with ⟨rfl, -⟩ | ⟨rfl, -⟩ <;> decide)
  have hpairs := formPairs_historyHref (endpoint_plain scope "/notifications" (by decide)) hname n
    (sendable_notifsCarry dates page)
  have hread : ∃ query : History.CheckPageQuery, History.CheckPageQuery.read (sentPairs fromLink
      ((name, i64ToString n) :: notifsCarry (filterTokens dates page))) = some query ∧
      query.ne = sent fromLink (filterTokens dates page).fEvent ∧ query.ns = sent fromLink (filterTokens dates page).fStatus ∧
      query.nfrom = sent fromLink (filterTokens dates page).nFrom ∧
      query.nto = sent fromLink (filterTokens dates page).nTo ∧ pageCursor query.nb query.na = cursor := by
    have hid := parseI64_i64ToString_int hn
    rcases hcursor with ⟨rfl, rfl⟩ | ⟨rfl, rfl⟩
    · refine ⟨_, by
        simp [History.CheckPageQuery.read, queryId, queryText_sentPairs, notifsCarry, List.lookup_cons, sent_id, hid,
          sent_empty]
        rfl, rfl, rfl, rfl, rfl, rfl⟩
    · refine ⟨_, by
        simp [History.CheckPageQuery.read, queryId, queryText_sentPairs, notifsCarry, List.lookup_cons, sent_id, hid,
          sent_empty]
        rfl, rfl, rfl, rfl, rfl, rfl⟩
  obtain ⟨query, hread, hne, hns, hnfrom, hnto, hpage⟩ := hread
  rw [leadsTo_iff (by rw [hpairs]; exact hread), notifFilter_again page (.inr rfl) hlawful hne hns hnfrom hnto]
  exact and_iff_left hpage

/-! ### The other half -/

/-- The pairs that hidden fields are submitted as. -/
def submitted (carry : List HiddenField) : List (String × String) := carry.map fun field => (field.name, field.value)

/-- The form of the pings is submitted with the notifications filter, whatever its own controls hold, and its clear link
keeps that filter and no other. -/
structure PingsCarryKeeps (dates : Chrono) (page : History.CheckPageQuery) (form : CheckPingsTemplate) : Prop where
  hidden : ∀ since until_ kind : String, ∃ query, History.CheckPageQuery.read
      (submitted form.carry ++ [("pfrom", since), ("pto", until_), ("pk", kind)]) = some query ∧
    notifFilterFrom dates query = notifFilterFrom dates page
  clear : ∃ query, History.CheckPageQuery.read (formPairs (hrefQuery form.clear)) = some query ∧
    notifFilterFrom dates query = notifFilterFrom dates page ∧ (pingFilterFrom dates query).isEmpty = true

structure NotifsCarryKeeps (dates : Chrono) (page : History.CheckPageQuery) (form : CheckNotifsTemplate) : Prop where
  hidden : ∀ since until_ event status : String, ∃ query, History.CheckPageQuery.read
      (submitted form.carry ++ [("nfrom", since), ("nto", until_), ("ne", event), ("ns", status)]) = some query ∧
    pingFilterFrom dates query = pingFilterFrom dates page
  clear : ∃ query, History.CheckPageQuery.read (formPairs (hrefQuery form.clear)) = some query ∧
    pingFilterFrom dates query = pingFilterFrom dates page ∧ (notifFilterFrom dates query).isEmpty = true

/-- The tokens that are not the form's own. -/
def otherTokens (all : List (String × String)) (mine : List String) : List (String × String) :=
  all.filter fun field => field.1 ∉ mine

theorem submitted_carryFields (all : List (String × String)) (mine : List String) :
    submitted (carryFields all mine) = sentPairs id (otherTokens all mine) := by
  rw [submitted, carryFields, sentPairs, otherTokens, List.filter_filter, List.map_map]
  simp only [Bool.decide_and, Function.comp_def, id]

theorem clearHref_carryFields (path : String) (all : List (String × String)) (mine : List String) :
    clearHref path (carryFields all mine) =
      path ++ hrefFields "?" ((otherTokens all mine).filter fun field => field.2 ≠ "") := by
  have hsubmitted := submitted_carryFields all mine
  unfold submitted sentPairs at hsubmitted
  rw [clearHref, hsubmitted]
  simp only [id, Prod.mk.eta, List.map_id']

theorem otherTokens_pings (tokens : FilterTokens) : otherTokens (checkPageFilterTokens tokens) pingsFilterKeys =
    notifsCarry tokens := by
  simp [otherTokens, checkPageFilterTokens, pingsFilterKeys, notifsCarry]

theorem otherTokens_notifs (tokens : FilterTokens) : otherTokens (checkPageFilterTokens tokens) notifsFilterKeys =
    pingsCarry tokens := by
  simp [otherTokens, checkPageFilterTokens, notifsFilterKeys, pingsCarry]

section Submitted

variable {fields others : List (String × String)} {name : String}

theorem queryText_hidden (hnodup : (fields.map Prod.fst).Nodup) (habsent : name ∉ others.map Prod.fst) :
    queryText (sentPairs id fields ++ others) name = some (sent id ((fields.lookup name).getD "")) := by
  rw [queryText_append_left habsent, queryText_sentPairs hnodup]

theorem queryText_visible (habsent : name ∉ fields.map Prod.fst) :
    queryText (sentPairs id fields ++ others) name = queryText others name := by
  refine queryText_append_right fun hmem => habsent ?_
  obtain ⟨pair, hpair, hname⟩ := List.mem_map.mp hmem
  exact hname ▸ name_of_mem_sentPairs hpair

end Submitted

theorem pingsCarry_iff (hlawful : dates.Lawful) (scope : PartialScope) (pingPage : Page Ping) :
    PingsCarryKeeps dates page (History.buildPingsPartial dates scope page pingPage) ↔
      BoundsReturn (notifFilterFrom dates page).since (notifFilterFrom dates page).until_ := by
  have hother := otherTokens_pings (filterTokens dates page)
  have hsendable : ∀ field ∈ otherTokens (checkPageFilterTokens (filterTokens dates page)) pingsFilterKeys, Sendable field :=
    fun field hfield => sendable_tokens page field (List.mem_filter.mp hfield).1
  have hclear : formPairs (hrefQuery (History.buildPingsPartial dates scope page pingPage).clear) =
      sentPairs fromLink (notifsCarry (filterTokens dates page)) := by
    rw [← hother, ← formPairs_hrefFields (endpoint_plain scope "/pings" (by decide)) _ hsendable,
      ← clearHref_carryFields]
    rfl
  have hhidden : submitted (History.buildPingsPartial dates scope page pingPage).carry =
      sentPairs id (notifsCarry (filterTokens dates page)) := by
    rw [← hother, ← submitted_carryFields]
    rfl
  have hread (since until_ kind : String) : ∃ query, History.CheckPageQuery.read
      (submitted (History.buildPingsPartial dates scope page pingPage).carry ++
        [("pfrom", since), ("pto", until_), ("pk", kind)]) = some query ∧
      (notifFilterFrom dates query = notifFilterFrom dates page ↔
        BoundsReturn (notifFilterFrom dates page).since (notifFilterFrom dates page).until_) := by
    rw [hhidden]
    refine ⟨_, by
      simp [History.CheckPageQuery.read, queryId, queryText_hidden, queryText_visible, notifsCarry,
        List.lookup_cons, sent_empty]
      rfl, notifFilter_again page (.inl rfl) hlawful rfl rfl rfl rfl⟩
  constructor
  · intro hkeeps
    obtain ⟨query, hquery, hiff⟩ := hread "" "" ""
    obtain ⟨query', hquery', hsame⟩ := hkeeps.hidden "" "" ""
    rw [hquery] at hquery'
    cases hquery'
    exact hiff.mp hsame
  · intro hbounds
    refine ⟨fun since until_ kind => ?_, ?_⟩
    · obtain ⟨query, hquery, hiff⟩ := hread since until_ kind
      exact ⟨query, hquery, hiff.mpr hbounds⟩
    · rw [hclear]
      refine ⟨_, by
        simp [History.CheckPageQuery.read, queryId, queryText_sentPairs, notifsCarry, List.lookup_cons, sent_empty]
        rfl, (notifFilter_again page (.inr rfl) hlawful rfl rfl rfl rfl).mpr hbounds, rfl⟩

theorem notifsCarry_iff (hlawful : dates.Lawful) (scope : PartialScope) (notifPage : Page Notification) :
    NotifsCarryKeeps dates page (History.buildNotifsPartial dates scope page notifPage) ↔
      BoundsReturn (pingFilterFrom dates page).since (pingFilterFrom dates page).until_ := by
  have hother := otherTokens_notifs (filterTokens dates page)
  have hsendable : ∀ field ∈ otherTokens (checkPageFilterTokens (filterTokens dates page)) notifsFilterKeys, Sendable field :=
    fun field hfield => sendable_tokens page field (List.mem_filter.mp hfield).1
  have hclear : formPairs (hrefQuery (History.buildNotifsPartial dates scope page notifPage).clear) =
      sentPairs fromLink (pingsCarry (filterTokens dates page)) := by
    rw [← hother, ← formPairs_hrefFields (endpoint_plain scope "/notifications" (by decide)) _ hsendable,
      ← clearHref_carryFields]
    rfl
  have hhidden : submitted (History.buildNotifsPartial dates scope page notifPage).carry =
      sentPairs id (pingsCarry (filterTokens dates page)) := by
    rw [← hother, ← submitted_carryFields]
    rfl
  have hread (since until_ event status : String) : ∃ query, History.CheckPageQuery.read
      (submitted (History.buildNotifsPartial dates scope page notifPage).carry ++
        [("nfrom", since), ("nto", until_), ("ne", event), ("ns", status)]) = some query ∧
      (pingFilterFrom dates query = pingFilterFrom dates page ↔
        BoundsReturn (pingFilterFrom dates page).since (pingFilterFrom dates page).until_) := by
    rw [hhidden]
    refine ⟨_, by
      simp [History.CheckPageQuery.read, queryId, queryText_hidden, queryText_visible, pingsCarry, List.lookup_cons, sent_empty]
      rfl, pingFilter_again page (.inl rfl) hlawful rfl rfl rfl⟩
  constructor
  · intro hkeeps
    obtain ⟨query, hquery, hiff⟩ := hread "" "" "" ""
    obtain ⟨query', hquery', hsame⟩ := hkeeps.hidden "" "" "" ""
    rw [hquery] at hquery'
    cases hquery'
    exact hiff.mp hsame
  · intro hbounds
    refine ⟨fun since until_ event status => ?_, ?_⟩
    · obtain ⟨query, hquery, hiff⟩ := hread since until_ event status
      exact ⟨query, hquery, hiff.mpr hbounds⟩
    · rw [hclear]
      refine ⟨_, by
        simp [History.CheckPageQuery.read, queryId, queryText_sentPairs, pingsCarry, List.lookup_cons, sent_empty]
        rfl, (pingFilter_again page (.inr rfl) hlawful rfl rfl rfl).mpr hbounds, rfl⟩

end Check

/-! ### The audit trail -/

/-- The texts of the filter come back, and its bounds. -/
structure AuditReturns (filter : History.AuditFilter) : Prop where
  actor : ∀ a, filter.actor = some a → Plain a
  action : ∀ a, filter.action = some a → Plain a
  bounds : BoundsReturn filter.since filter.until_

theorem presentText_trimmed {v : Option String} {a : String} (hpresent : presentText v = some a) : trim a = a ∧ a ≠ "" := by
  obtain ⟨text, -, htrim, hne⟩ := presentText_eq_some hpresent
  rw [← htrim, trim_trim, htrim]
  exact ⟨rfl, hne⟩

theorem presentText_sent_iff (v : Option String) :
    presentText (sent fromLink ((presentText v).getD "")) = presentText v ↔
      ∀ a, presentText v = some a → '+' ∉ a.toList ∧ hasEscape a.toList = false := by
  cases hpresent : presentText v with
  | none => exact iff_of_true rfl fun a ha => nomatch ha
  | some a =>
      obtain ⟨htrim, hne⟩ := presentText_trimmed hpresent
      rw [Option.getD_some, sent, if_neg hne]
      constructor
      · rintro hagain other hother
        cases hother
        exact plain_of_presentText hagain
      · intro hplain
        obtain ⟨hplus, hescape⟩ := hplain a rfl
        rw [fromLink_plain hplus hescape, presentText_of_trimmed htrim hne]

/-- A parameter that is read is the first of its name. -/
theorem queryText_first {value : String} {pairs : List (String × String)} {name : String} {found : Option String}
    (hfound : queryText ((name, value) :: pairs) name = some found) : found = some value := by
  rw [queryText, List.filter_cons_of_pos (by simp)] at hfound
  cases hrest : pairs.filter fun pair => pair.1 = name with
  | nil =>
      rw [hrest] at hfound
      exact (Option.some.inj hfound).symm
  | cons other rest =>
      rw [hrest] at hfound
      cases hfound

theorem audit_read {pairs : List (String × String)} {query : History.AdminAuditQuery}
    (hread : History.AdminAuditQuery.read pairs = some query) :
    queryText pairs "aactor" = some query.aactor ∧ queryText pairs "aaction" = some query.aaction := by
  simp only [History.AdminAuditQuery.read, Option.bind_eq_bind, Option.bind_eq_some_iff, Option.some.injEq] at hread
  obtain ⟨ab, -, aa, -, actor, hactor, action, haction, since, -, until_, -, rfl⟩ := hread
  exact ⟨hactor, haction⟩

section Audit

variable {dates : Chrono} (q : History.AdminAuditQuery) {n : Int} {name : String} {cursor : PageCursor}

/-- The parameters that a link of the audit trail carries. -/
def auditCarry (dates : Chrono) (q : History.AdminAuditQuery) : List (String × String) :=
  [("aactor", (auditFilterFrom dates q).actor.getD ""), ("aaction", (auditFilterFrom dates q).action.getD ""),
    ("afrom", dateBoundToken (auditFilterFrom dates q).since), ("ato", dateBoundToken (auditFilterFrom dates q).until_)]

/-- The form of the trail's links, and the cursor each stands for. -/
def IsAuditCursor (name : String) (n : Int) (cursor : PageCursor) : Prop :=
  name = "ab" ∧ cursor = .before n ∨ name = "aa" ∧ cursor = .after n

theorem IsAuditCursor.plainName (hcursor : IsAuditCursor name n cursor) : PlainName name :=
  plainName_of_mem (by rcases hcursor with ⟨rfl, -⟩ | ⟨rfl, -⟩ <;> decide)

theorem IsAuditCursor.ne (hcursor : IsAuditCursor name n cursor) : name ≠ "aactor" ∧ name ≠ "aaction" := by
  rcases hcursor with ⟨rfl, -⟩ | ⟨rfl, -⟩ <;> decide

theorem auditHref_fields (name : String) (n : Int) (fields : List (String × String)) :
    hrefQuery (historyHref "/admin/audit" (name, n) fields) = fieldText (name, i64ToString n) ++
      (hrefFields "&" (fields.filter fun field => field.2 ≠ "")).toList := by
  rw [historyHref, hrefQuery_fields (by decide)]

/-- A text of the filter that comes back holds no separator, if none before it does. -/
theorem auditText_separable (hcursor : IsAuditCursor name n cursor) {key a : String} {before after : List (String × String)}
    (hkey : PlainName key) (hne : name ≠ key)
    (hcarry : (auditCarry dates q).filter (fun field => field.2 ≠ "") = before ++ (key, a) :: after)
    (hbefore : ∀ field ∈ before, Sendable field ∧ field.1 ≠ key) {found : Option String}
    (hfound : queryText (formPairs (hrefQuery (historyHref "/admin/audit" (name, n) (auditCarry dates q)))) key = some found)
    (hagain : presentText found = some a) : '&' ∉ a.toList := by
  intro hseparator
  obtain ⟨front, rest, hsplit, hfront⟩ := List.eq_append_cons_of_mem hseparator
  have hseparable : ∀ other ∈ (name, i64ToString n) :: before, Separable other := by
    intro other hother
    rcases List.mem_cons.mp hother with rfl | hmem
    · exact (sendable_id hcursor.plainName n).separable
    · exact (hbefore other hmem).1.separable
  obtain ⟨others, hpairs⟩ := formPairs_separator_after hseparable (key, a) hkey.plain.ampersand hfront
    hsplit after
  have habsent : key ∉ (((name, i64ToString n) :: before).map fun other => formPair (fieldText other)).map Prod.fst := by
    rw [List.map_map, List.mem_map]
    rintro ⟨other, hother, hsame⟩
    rcases List.mem_cons.mp hother with rfl | hmem
    · rw [Function.comp_apply, fieldText, formPair_named hcursor.plainName] at hsame
      exact hne hsame
    · rw [Function.comp_apply, fieldText, formPair_named (hbefore other hmem).1.name] at hsame
      exact (hbefore other hmem).2 hsame
  rw [auditHref_fields, hcarry, hpairs, queryText_append_right habsent, formPair_named hkey] at hfound
  rw [queryText_first hfound] at hagain
  exact presentText_of_prefix (by decide) hsplit hagain

theorem auditHref_read (hn : IsI64 n) (hcursor : IsAuditCursor name n cursor)
    (hsendable : ∀ field ∈ auditCarry dates q, Sendable field) : ∃ query,
      History.AdminAuditQuery.read (formPairs (hrefQuery (historyHref "/admin/audit" (name, n) (auditCarry dates q)))) =
        some query ∧
      query.aactor = sent fromLink ((auditFilterFrom dates q).actor.getD "") ∧
      query.aaction = sent fromLink ((auditFilterFrom dates q).action.getD "") ∧
      query.afrom = sent fromLink (dateBoundToken (auditFilterFrom dates q).since) ∧
      query.ato = sent fromLink (dateBoundToken (auditFilterFrom dates q).until_) ∧
      pageCursor query.ab query.aa = cursor := by
  have hid := parseI64_i64ToString_int hn
  rw [formPairs_historyHref (by decide) hcursor.plainName n hsendable]
  rcases hcursor with ⟨rfl, rfl⟩ | ⟨rfl, rfl⟩
  · refine ⟨_, by
      simp [History.AdminAuditQuery.read, queryId, queryText_sentPairs, auditCarry, List.lookup_cons, sent_id, hid, sent_empty]
      rfl, rfl, rfl, rfl, rfl, rfl⟩
  · refine ⟨_, by
      simp [History.AdminAuditQuery.read, queryId, queryText_sentPairs, auditCarry, List.lookup_cons, sent_id, hid, sent_empty]
      rfl, rfl, rfl, rfl, rfl, rfl⟩

theorem sendable_auditCarry
    (hactor : '&' ∉ ((auditFilterFrom dates q).actor.getD "").toList)
    (haction : '&' ∉ ((auditFilterFrom dates q).action.getD "").toList) :
    ∀ field ∈ auditCarry dates q, Sendable field := by
  intro field hfield
  simp only [auditCarry, List.mem_cons, List.not_mem_nil, or_false] at hfield
  rcases hfield with rfl | rfl | rfl | rfl
  · exact ⟨plainName_of_mem (by simp), hactor⟩
  · exact ⟨plainName_of_mem (by simp), haction⟩
  · exact ⟨plainName_of_mem (by simp), dateBoundToken_separable _⟩
  · exact ⟨plainName_of_mem (by simp), dateBoundToken_separable _⟩

/-- The filter of a link without separators in its texts. -/
theorem auditFilter_again (hlawful : dates.Lawful) {query : History.AdminAuditQuery}
    (hactor : query.aactor = sent fromLink ((auditFilterFrom dates q).actor.getD ""))
    (haction : query.aaction = sent fromLink ((auditFilterFrom dates q).action.getD ""))
    (hsince : query.afrom = sent fromLink (dateBoundToken (auditFilterFrom dates q).since))
    (huntil : query.ato = sent fromLink (dateBoundToken (auditFilterFrom dates q).until_)) :
    auditFilterFrom dates query = auditFilterFrom dates q ↔
      (∀ a, (auditFilterFrom dates q).actor = some a → '+' ∉ a.toList ∧ hasEscape a.toList = false) ∧
      (∀ a, (auditFilterFrom dates q).action = some a → '+' ∉ a.toList ∧ hasEscape a.toList = false) ∧
      BoundsReturn (auditFilterFrom dates q).since (auditFilterFrom dates q).until_ := by
  have hactors := presentText_sent_iff q.aactor
  have hactions := presentText_sent_iff q.aaction
  have hsinces := parseDateBound_sent_iff hlawful (.inr rfl) (auditFilterFrom dates q).since
  have huntils := parseDateBound_sent_iff hlawful (.inr rfl) (auditFilterFrom dates q).until_
  unfold BoundsReturn
  rw [← hsinces, ← huntils, auditFilterFrom, hactor, haction, hsince, huntil, auditFilterFrom,
    History.AuditFilter.mk.injEq]
  unfold parseFilterText
  rw [← hactors, ← hactions]

theorem audit_leadsTo_iff (hlawful : dates.Lawful) (hn : IsI64 n) (hcursor : IsAuditCursor name n cursor) :
    LeadsTo History.AdminAuditQuery.read (auditFilterFrom dates) (fun query => pageCursor query.ab query.aa)
      (historyHref "/admin/audit" (name, n) (auditCarry dates q)) (auditFilterFrom dates q) cursor ↔
      AuditReturns (auditFilterFrom dates q) := by
  constructor
  · rintro ⟨query, hread, hfilter, -⟩
    obtain ⟨hfoundActor, hfoundAction⟩ := audit_read hread
    have hagainActor : presentText query.aactor = (auditFilterFrom dates q).actor := congrArg History.AuditFilter.actor hfilter
    have hagainAction : presentText query.aaction = (auditFilterFrom dates q).action :=
      congrArg History.AuditFilter.action hfilter
    have hactorName : PlainName "aactor" := plainName_of_mem (by decide)
    have hactionName : PlainName "aaction" := plainName_of_mem (by decide)
    have hactor : '&' ∉ ((auditFilterFrom dates q).actor.getD "").toList := by
      cases hsome : (auditFilterFrom dates q).actor with
      | none => exact List.not_mem_nil
      | some a =>
          have hne : a ≠ "" := (presentText_trimmed hsome).2
          have hcarry : (auditCarry dates q).filter (fun field => field.2 ≠ "") = [] ++ ("aactor", a) ::
              [("aaction", (auditFilterFrom dates q).action.getD ""),
                ("afrom", dateBoundToken (auditFilterFrom dates q).since),
                ("ato", dateBoundToken (auditFilterFrom dates q).until_)].filter fun field => field.2 ≠ "" := by
            rw [auditCarry, hsome, Option.getD_some, List.filter_cons_of_pos (by simpa using hne), List.nil_append]
          exact auditText_separable q hcursor hactorName hcursor.ne.1 hcarry (fun _ hmem => nomatch hmem) hfoundActor
            (hagainActor.trans hsome)
    have haction : '&' ∉ ((auditFilterFrom dates q).action.getD "").toList := by
      cases hsome : (auditFilterFrom dates q).action with
      | none => exact List.not_mem_nil
      | some a =>
          have hne : a ≠ "" := (presentText_trimmed hsome).2
          have hcarry : (auditCarry dates q).filter (fun field => field.2 ≠ "") =
              [("aactor", (auditFilterFrom dates q).actor.getD "")].filter (fun field => field.2 ≠ "") ++ ("aaction", a) ::
              [("afrom", dateBoundToken (auditFilterFrom dates q).since),
                ("ato", dateBoundToken (auditFilterFrom dates q).until_)].filter fun field => field.2 ≠ "" := by
            have hsplit : auditCarry dates q = [("aactor", (auditFilterFrom dates q).actor.getD "")] ++ ("aaction", a) ::
                [("afrom", dateBoundToken (auditFilterFrom dates q).since),
                  ("ato", dateBoundToken (auditFilterFrom dates q).until_)] := by
              rw [auditCarry, hsome]
              rfl
            have hkept : [("aaction", a), ("afrom", dateBoundToken (auditFilterFrom dates q).since),
                ("ato", dateBoundToken (auditFilterFrom dates q).until_)].filter (fun field => field.2 ≠ "") = ("aaction", a) ::
                [("afrom", dateBoundToken (auditFilterFrom dates q).since),
                  ("ato", dateBoundToken (auditFilterFrom dates q).until_)].filter fun field => field.2 ≠ "" :=
              List.filter_cons_of_pos (by simpa using hne)
            rw [hsplit, List.filter_append, hkept]
          have hbefore : ∀ field ∈ [("aactor", (auditFilterFrom dates q).actor.getD "")].filter fun field => field.2 ≠ "",
              Sendable field ∧ field.1 ≠ "aaction" := by
            intro field hfield
            rw [List.mem_singleton.mp (List.mem_filter.mp hfield).1]
            exact ⟨⟨hactorName, hactor⟩, by simp⟩
          exact auditText_separable q hcursor hactionName hcursor.ne.2 hcarry hbefore hfoundAction (hagainAction.trans hsome)
    obtain ⟨query', hread', hqactor, hqaction, hqsince, hquntil, -⟩ :=
      auditHref_read q hn hcursor (sendable_auditCarry q hactor haction)
    rw [hread] at hread'
    cases hread'
    obtain ⟨hactors, hactions, hbounds⟩ := (auditFilter_again q hlawful hqactor hqaction hqsince hquntil).mp hfilter
    refine ⟨fun a ha => ?_, fun a ha => ?_, hbounds⟩
    · rw [ha, Option.getD_some] at hactor
      exact ⟨hactor, (hactors a ha).1, (hactors a ha).2⟩
    · rw [ha, Option.getD_some] at haction
      exact ⟨haction, (hactions a ha).1, (hactions a ha).2⟩
  · intro hreturns
    have hplain {v : Option String} (hv : ∀ a, v = some a → Plain a) : '&' ∉ (v.getD "").toList := by
      cases v with
      | none => exact List.not_mem_nil
      | some a => exact (hv a rfl).ampersand
    obtain ⟨query, hread, hqactor, hqaction, hqsince, hquntil, hpage⟩ :=
      auditHref_read q hn hcursor (sendable_auditCarry q (hplain hreturns.actor) (hplain hreturns.action))
    refine (leadsTo_iff hread).mpr ⟨(auditFilter_again q hlawful hqactor hqaction hqsince hquntil).mpr ?_, hpage⟩
    exact ⟨fun a ha => ⟨(hreturns.actor a ha).plus, (hreturns.actor a ha).escape⟩,
      fun a ha => ⟨(hreturns.action a ha).plus, (hreturns.action a ha).escape⟩, hreturns.bounds⟩

end Audit

/-! ### The pages -/

/-- A pager of the pings, of the notifications and of the trail, each against what its filter asks of the links. -/
theorem pingsPager_iff {dates : Chrono} (hlawful : dates.Lawful) (scope : PartialScope) (page : History.CheckPageQuery)
    {pingPage : Page Ping} (hids : ∀ row ∈ pingPage.items, IsI64 row.id) :
    PagerKeeps History.CheckPageQuery.read (pingFilterFrom dates) (fun query => pageCursor query.pb query.pa)
        (pingFilterFrom dates page) pingPage Ping.id (History.buildPingsPartial dates scope page pingPage).older
        (History.buildPingsPartial dates scope page pingPage).newer ↔
      (HasNeighbour pingPage → BoundsReturn (pingFilterFrom dates page).since (pingFilterFrom dates page).until_) :=
  pagerKeeps_iff hids (fun _ hn => pings_leadsTo_iff page hlawful scope hn (.inl ⟨rfl, rfl⟩))
    fun _ hn => pings_leadsTo_iff page hlawful scope hn (.inr ⟨rfl, rfl⟩)

theorem notifsPager_iff {dates : Chrono} (hlawful : dates.Lawful) (scope : PartialScope) (page : History.CheckPageQuery)
    {notifPage : Page Notification} (hids : ∀ row ∈ notifPage.items, IsI64 row.id) :
    PagerKeeps History.CheckPageQuery.read (notifFilterFrom dates) (fun query => pageCursor query.nb query.na)
        (notifFilterFrom dates page) notifPage Notification.id (History.buildNotifsPartial dates scope page notifPage).older
        (History.buildNotifsPartial dates scope page notifPage).newer ↔
      (HasNeighbour notifPage → BoundsReturn (notifFilterFrom dates page).since (notifFilterFrom dates page).until_) :=
  pagerKeeps_iff hids (fun _ hn => notifs_leadsTo_iff page hlawful scope hn (.inl ⟨rfl, rfl⟩))
    fun _ hn => notifs_leadsTo_iff page hlawful scope hn (.inr ⟨rfl, rfl⟩)

theorem auditPager_iff {dates : Chrono} (hlawful : dates.Lawful) (q : History.AdminAuditQuery) {auditPage : Page AuditLog}
    (hids : ∀ row ∈ auditPage.items, IsI64 row.id) :
    PagerKeeps History.AdminAuditQuery.read (auditFilterFrom dates) (fun query => pageCursor query.ab query.aa)
        (auditFilterFrom dates q) auditPage AuditLog.id (History.buildAuditPartial dates q auditPage).older
        (History.buildAuditPartial dates q auditPage).newer ↔
      (HasNeighbour auditPage → AuditReturns (auditFilterFrom dates q)) :=
  pagerKeeps_iff hids (fun _ hn => audit_leadsTo_iff q hlawful hn (.inl ⟨rfl, rfl⟩))
    fun _ hn => audit_leadsTo_iff q hlawful hn (.inr ⟨rfl, rfl⟩)

/-- **The links of the history pages.** A pager leads to its neighbours under its own filter exactly when it has none to
lead to or the filter survives being written and read: its bounds are whole seconds of a year of four digits and, on the
audit trail, its texts hold no separator, no plus sign and no escape. The hidden fields and the clear link of a section
keep the other filter exactly when the bounds of that one are so. -/
theorem historyLinks_keep_iff {dates : Chrono} (hlawful : dates.Lawful) (scope : PartialScope)
    (page : History.CheckPageQuery) (q : History.AdminAuditQuery) (pingPage : Page Ping) (notifPage : Page Notification)
    (auditPage : Page AuditLog) (hpings : ∀ row ∈ pingPage.items, IsI64 row.id)
    (hnotifs : ∀ row ∈ notifPage.items, IsI64 row.id) (haudit : ∀ row ∈ auditPage.items, IsI64 row.id) :
    (PagerKeeps History.CheckPageQuery.read (pingFilterFrom dates) (fun query => pageCursor query.pb query.pa)
        (pingFilterFrom dates page) pingPage Ping.id (History.buildPingsPartial dates scope page pingPage).older
        (History.buildPingsPartial dates scope page pingPage).newer ↔
      (HasNeighbour pingPage → BoundsReturn (pingFilterFrom dates page).since (pingFilterFrom dates page).until_)) ∧
    (PagerKeeps History.CheckPageQuery.read (notifFilterFrom dates) (fun query => pageCursor query.nb query.na)
        (notifFilterFrom dates page) notifPage Notification.id (History.buildNotifsPartial dates scope page notifPage).older
        (History.buildNotifsPartial dates scope page notifPage).newer ↔
      (HasNeighbour notifPage → BoundsReturn (notifFilterFrom dates page).since (notifFilterFrom dates page).until_)) ∧
    (PagerKeeps History.AdminAuditQuery.read (auditFilterFrom dates) (fun query => pageCursor query.ab query.aa)
        (auditFilterFrom dates q) auditPage AuditLog.id (History.buildAuditPartial dates q auditPage).older
        (History.buildAuditPartial dates q auditPage).newer ↔
      (HasNeighbour auditPage → AuditReturns (auditFilterFrom dates q))) ∧
    (PingsCarryKeeps dates page (History.buildPingsPartial dates scope page pingPage) ↔
      BoundsReturn (notifFilterFrom dates page).since (notifFilterFrom dates page).until_) ∧
    (NotifsCarryKeeps dates page (History.buildNotifsPartial dates scope page notifPage) ↔
      BoundsReturn (pingFilterFrom dates page).since (pingFilterFrom dates page).until_) :=
  ⟨pingsPager_iff hlawful scope page hpings, notifsPager_iff hlawful scope page hnotifs, auditPager_iff hlawful q haudit,
    pingsCarry_iff page hlawful scope pingPage, notifsCarry_iff page hlawful scope notifPage⟩

/-- The trail of the actor `a&b`, with a page behind row 7. -/
def ampersandQuery : History.AdminAuditQuery := ⟨none, none, some "a&b", none, none, none⟩

def ampersandPage : Page AuditLog := ⟨[⟨7, 1, "a&b", "login", none, none, none, none, none, none, 0⟩], false, true⟩

/-- The trail of one actor from a minute on, with rows on both sides of row 7. -/
def rootQuery : History.AdminAuditQuery := ⟨none, none, some "root", none, some "2026-05-01T10:00", none⟩

def rootPage : Page AuditLog := ⟨[⟨7, 1, "root", "login", none, none, none, none, none, none, 0⟩], true, true⟩

theorem historyLinks_keep_root :
    (∀ row ∈ rootPage.items, IsI64 row.id) ∧
    (History.buildAuditPartial chrono rootQuery rootPage).older =
      some "/admin/audit?ab=7&aactor=root&afrom=2026-05-01T10:00:00Z" ∧
    PagerKeeps History.AdminAuditQuery.read (auditFilterFrom chrono) (fun query => pageCursor query.ab query.aa)
      (auditFilterFrom chrono rootQuery) rootPage AuditLog.id (History.buildAuditPartial chrono rootQuery rootPage).older
      (History.buildAuditPartial chrono rootQuery rootPage).newer := by
  have hids : ∀ row ∈ rootPage.items, IsI64 row.id := by
    intro row hmem
    rw [List.mem_singleton.mp hmem]
    exact ⟨by decide, by decide⟩
  have hfilter : auditFilterFrom chrono rootQuery =
      ⟨some "root", none, some ⟨1777629600, 0, .inl (by decide)⟩, none⟩ := by decide +kernel
  have hlinks := historyLinks_keep_iff chrono_lawful ⟨1, false⟩
    ⟨none, none, none, none, none, none, none, none, none, none, none⟩
    rootQuery ⟨[], false, false⟩ ⟨[], false, false⟩ rootPage (fun _ hmem => nomatch hmem) (fun _ hmem => nomatch hmem) hids
  refine ⟨hids, by decide +kernel, hlinks.2.2.1.mpr fun _ => ?_⟩
  rw [hfilter]
  have hactor : ∀ a, some "root" = some a → Plain a := by
    rintro a hactor
    cases hactor
    decide +kernel
  have hsince : Returns (some ⟨1777629600, 0, .inl (by decide)⟩) := by
    rintro stamp hstamp
    cases hstamp
    exact ⟨by decide, by decide⟩
  exact ⟨hactor, (fun _ hnone => nomatch hnone), hsince, fun _ hnone => nomatch hnone⟩

/-- The link to the rows before row 7 asks for the actor `a`. -/
theorem historyHref_cuts_actor :
    History.AdminAuditQuery.read (formPairs (hrefQuery "/admin/audit?aactor=a%26b")) = some ampersandQuery ∧
    (History.buildAuditPartial chrono ampersandQuery ampersandPage).older = some "/admin/audit?ab=7&aactor=a&b" ∧
    History.AdminAuditQuery.read (formPairs (hrefQuery "/admin/audit?ab=7&aactor=a&b")) =
      some ⟨some 7, none, some "a", none, none, none⟩ ∧
    ¬ PagerKeeps History.AdminAuditQuery.read (auditFilterFrom chrono) (fun query => pageCursor query.ab query.aa)
      (auditFilterFrom chrono ampersandQuery) ampersandPage AuditLog.id
      (History.buildAuditPartial chrono ampersandQuery ampersandPage).older
      (History.buildAuditPartial chrono ampersandQuery ampersandPage).newer := by
  have holder : (History.buildAuditPartial chrono ampersandQuery ampersandPage).older =
      some "/admin/audit?ab=7&aactor=a&b" := by decide +kernel
  have hread : History.AdminAuditQuery.read (formPairs (hrefQuery "/admin/audit?ab=7&aactor=a&b")) =
      some ⟨some 7, none, some "a", none, none, none⟩ := by decide +kernel
  refine ⟨by decide +kernel, holder, hread, fun hkeeps => ?_⟩
  obtain ⟨row, -, hleads⟩ := hkeeps.older _ holder
  have hfilter : auditFilterFrom chrono ⟨some 7, none, some "a", none, none, none⟩ = auditFilterFrom chrono ampersandQuery :=
    ((leadsTo_iff hread).mp hleads).1
  exact absurd hfilter (by decide +kernel)

end Pingward
