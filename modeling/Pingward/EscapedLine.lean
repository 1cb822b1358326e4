import Pingward.EscapedScan

/-! The lines of a page. The scanner renders the escaped text of a line construct by construct, as it reads the line, unless
it comes to a bare URL that ends in an escaped character before its trailing punctuation: there it cuts the reference. -/

open MarkupText

namespace Pingward

/-! ### Bare URLs -/

def bareRun (rest : List Char) : List Char := rest.takeWhile fun c => !isWhiteSpace c

/-- The run up to its trailing punctuation. -/
def bareUrl (rest : List Char) : List Char := (bareRun rest).rdropWhile fun c => trimChars.contains c

def trailing (rest : List Char) : List Char := (bareRun rest).rtakeWhile fun c => trimChars.contains c

/-- The scanner takes this for a bare URL. -/
def isBare (rest : List Char) : Bool := startsWith "http://" rest || startsWith "https://" rest

/-- The URL does not end in an escaped character. -/
def KeepsUrl (rest : List Char) : Prop := ∀ c, (bareUrl rest).getLast? = some c → isSpecial c = false

instance (rest : List Char) : Decidable (KeepsUrl rest) :=
  decidable_of_iff (((bareUrl rest).getLast?.all fun c => !isSpecial c) = true) (by
    unfold KeepsUrl
    cases (bareUrl rest).getLast? <;> simp)

theorem bareRun_eq (rest : List Char) : bareRun rest = bareUrl rest ++ trailing rest :=
  List.rdropWhile_append_rtakeWhile.symm

theorem mem_trailing {rest : List Char} {c : Char} (hc : c ∈ trailing rest) : trimChars.contains c = true :=
  List.mem_rtakeWhile_imp hc

theorem isSpecial_of_trimChars {c : Char} (hc : trimChars.contains c = true) : isSpecial c = false := by
  have hall : ∀ c ∈ trimChars, isSpecial c = false := List.all_iff_forall_prop.mp (by decide)
  exact hall c (List.contains_iff_mem.mp hc)

theorem isWhiteSpace_inner {c : Char} (hc : isInner c = true) : isWhiteSpace c = false := by
  have hall : ∀ c ∈ "&amp;ltgquo#39".toList, isWhiteSpace c = false := List.all_iff_forall_prop.mp (by decide)
  exact hall c (List.contains_iff_mem.mp hc)

theorem isWhiteSpace_special {c : Char} (hc : isSpecial c = true) : isWhiteSpace c = false := by
  rcases special_cases hc with rfl | rfl | rfl | rfl | rfl <;> decide

theorem bareRun_escapeHtml (rest : List Char) : bareRun (escapeHtml rest) = escapeHtml (bareRun rest) := by
  induction rest with
  | nil => rfl
  | cons c rest ih =>
      have hrest : ((escapeHtml rest).takeWhile fun c => !isWhiteSpace c) =
          escapeHtml (rest.takeWhile fun c => !isWhiteSpace c) := ih
      rw [bareRun, bareRun, escapeHtml_cons]
      cases hc : isSpecial c with
      | true =>
          have hall : ∀ d ∈ escapeChar c, (!isWhiteSpace d) = true := fun d hd => by
            rw [isWhiteSpace_inner (isInner_escapeChar hc d hd)]
            rfl
          rw [List.takeWhile_append_of_pos hall, hrest, List.takeWhile_cons_of_pos (by rw [isWhiteSpace_special hc]; rfl),
            escapeHtml_cons]
      | false =>
          rw [escapeChar_ordinary hc, List.singleton_append]
          cases hspace : isWhiteSpace c with
          | true => rw [List.takeWhile_cons_of_neg (by simp [hspace]), List.takeWhile_cons_of_neg (by simp [hspace])]; rfl
          | false =>
              rw [List.takeWhile_cons_of_pos (by simp [hspace]), List.takeWhile_cons_of_pos (by simp [hspace]), hrest,
                escapeHtml_cons, escapeChar_ordinary hc, List.singleton_append]

theorem rdropWhile_append_all {p : Char → Bool} (front : List Char) {back : List Char} (hback : ∀ c ∈ back, p c = true) :
    (front ++ back).rdropWhile p = front.rdropWhile p := by
  induction back using List.reverseRecOn with
  | nil => rw [List.append_nil]
  | append_singleton back c ih =>
      rw [← List.append_assoc, List.rdropWhile_concat_pos _ _ _ (hback c (by simp)),
        ih fun d hd => hback d (List.mem_append_left [c] hd)]

/-- What trimming leaves of an escaped run. -/
theorem bareUrl_escapeHtml (rest : List Char) :
    bareUrl (escapeHtml rest) = (escapeHtml (bareUrl rest)).rdropWhile fun c => trimChars.contains c := by
  have hordinary : ∀ c ∈ trailing rest, isSpecial c = false := fun c hc => isSpecial_of_trimChars (mem_trailing hc)
  rw [bareUrl, bareRun_escapeHtml, bareRun_eq, escapeHtml_append, escapeHtml_ordinary hordinary,
    rdropWhile_append_all _ fun c hc => mem_trailing hc]

theorem bareUrl_last {rest front : List Char} {c : Char} (hurl : bareUrl rest = front ++ [c]) :
    trimChars.contains c = false := by
  have hne : (bareRun rest).rdropWhile (fun c => trimChars.contains c) ≠ [] := by
    rw [show (bareRun rest).rdropWhile (fun c => trimChars.contains c) = front ++ [c] from hurl]
    exact List.append_ne_nil_of_right_ne_nil front (List.cons_ne_nil c [])
  have hlast := List.rdropWhile_last_not _ _ hne
  simp only [show (bareRun rest).rdropWhile (fun c => trimChars.contains c) = front ++ [c] from hurl,
    List.getLast_append_singleton] at hlast
  exact Bool.eq_false_iff.mpr hlast

/-- The reference without its semicolon, which is not punctuation further. -/
theorem escapeChar_cut {c : Char} (hc : isSpecial c = true) :
    escapeChar c = (escapeChar c).dropLast ++ [';'] ∧
      ∃ front d, (escapeChar c).dropLast = front ++ [d] ∧ trimChars.contains d = false := by
  rcases special_cases hc with rfl | rfl | rfl | rfl | rfl
  · exact ⟨rfl, "&am".toList, 'p', rfl, by decide⟩
  · exact ⟨rfl, "&l".toList, 't', rfl, by decide⟩
  · exact ⟨rfl, "&g".toList, 't', rfl, by decide⟩
  · exact ⟨rfl, "&quo".toList, 't', rfl, by decide⟩
  · exact ⟨rfl, "&#3".toList, '9', rfl, by decide⟩

theorem bareUrl_kept {rest : List Char} (hkeeps : KeepsUrl rest) : bareUrl (escapeHtml rest) = escapeHtml (bareUrl rest) := by
  rw [bareUrl_escapeHtml]
  rcases List.eq_nil_or_concat' (bareUrl rest) with hnil | ⟨front, c, hurl⟩
  · rw [hnil]
    rfl
  · have hc : isSpecial c = false := hkeeps c (by rw [hurl, List.getLast?_append_cons]; rfl)
    rw [hurl, escapeHtml_append, escapeHtml_cons, escapeChar_ordinary hc]
    apply List.rdropWhile_concat_neg _ _ _
    rw [bareUrl_last hurl]
    decide

theorem bareUrl_cut {rest front : List Char} {c : Char} (hurl : bareUrl rest = front ++ [c]) (hc : isSpecial c = true) :
    bareUrl (escapeHtml rest) = escapeHtml front ++ (escapeChar c).dropLast := by
  obtain ⟨hsplit, name, d, hname, hd⟩ := escapeChar_cut hc
  have hescaped : escapeHtml (front ++ [c]) = (escapeHtml front ++ (escapeChar c).dropLast) ++ [';'] := by
    rw [escapeHtml_append, escapeHtml_cons, List.append_assoc, ← hsplit]
    exact congrArg (escapeHtml front ++ ·) (List.append_nil _)
  rw [bareUrl_escapeHtml, hurl, hescaped, List.rdropWhile_concat_pos _ _ _ (by decide), hname, ← List.append_assoc]
  apply List.rdropWhile_concat_neg _ _ _
  rw [hd]
  decide

/-! ### Autolinks -/

theorem isBare_escapeHtml (rest : List Char) : isBare (escapeHtml rest) = isBare rest := by
  unfold isBare
  rw [startsWith_escapeHtml (by decide), startsWith_escapeHtml (by decide)]

/-- A scheme is not trimmed. -/
theorem startsWith_bareUrl {pattern : String} (hchars : ∀ c ∈ pattern.toList, isWhiteSpace c = false)
    (hlast : ∃ front d, pattern.toList = front ++ [d] ∧ trimChars.contains d = false) {rest : List Char}
    (hstarts : startsWith pattern rest = true) : startsWith pattern (bareUrl rest) = true := by
  obtain ⟨tail, rfl⟩ := startsWith_iff.mp hstarts
  have hall : ∀ c ∈ pattern.toList, (!isWhiteSpace c) = true := fun c hc => by rw [hchars c hc]; rfl
  have hrun : bareRun (pattern.toList ++ tail) = pattern.toList ++ bareRun tail := List.takeWhile_append_of_pos hall
  have hsplit := bareRun_eq (pattern.toList ++ tail)
  rw [hrun] at hsplit
  rw [startsWith_iff]
  rcases List.append_eq_append_iff.mp hsplit with ⟨middle, hurl, -⟩ | ⟨middle, hpattern, hbehind⟩
  · exact ⟨middle, hurl⟩
  · rcases List.eq_nil_or_concat' middle with rfl | ⟨middle, d, rfl⟩
    · exact ⟨[], (List.append_nil _).symm.trans (hpattern.symm.trans (List.append_nil _).symm)⟩
    · obtain ⟨front, e, hfront, he⟩ := hlast
      rw [hpattern, ← List.append_assoc] at hfront
      obtain ⟨-, hlast⟩ := List.append_inj' hfront rfl
      cases hlast
      have hd : d ∈ trailing (pattern.toList ++ tail) := by
        rw [hbehind]
        exact List.mem_append_left _ (List.mem_append_right _ List.mem_cons_self)
      rw [mem_trailing hd] at he
      cases he

theorem isBare_bareUrl {rest : List Char} (hbare : isBare rest = true) : isBare (bareUrl rest) = true := by
  rw [isBare, Bool.or_eq_true] at hbare ⊢
  exact hbare.imp (startsWith_bareUrl (List.all_iff_forall_prop.mp (by decide)) ⟨"http:/".toList, '/', rfl, by decide⟩)
    (startsWith_bareUrl (List.all_iff_forall_prop.mp (by decide)) ⟨"https:/".toList, '/', rfl, by decide⟩)

theorem matchAutolink_eq {rest : List Char} (hbare : isBare (bareUrl rest) = true) :
    matchAutolink rest = ((bareRun rest).length, anchorTag (bareUrl rest) (bareUrl rest) ++ trailing rest) := by
  have hdrop : (bareRun rest).drop (bareUrl rest).length = trailing rest := by
    rw [bareRun_eq, List.drop_left]
  rw [← hdrop]
  exact if_pos hbare

/-- A bare URL that is kept. -/
theorem mirrors_autolink {rest : List Char} (hbare : isBare rest = true) (hkeeps : KeepsUrl rest) :
    Mirrors rest (matchAutolink rest).1 (matchAutolink (escapeHtml rest))
      [.autolink (bareUrl rest), .text (trailing rest)] := by
  have hurl := isBare_bareUrl hbare
  have hkept := bareUrl_kept hkeeps
  have hordinary : ∀ c ∈ trailing rest, isSpecial c = false := fun c hc => isSpecial_of_trimChars (mem_trailing hc)
  have htrailing : trailing (escapeHtml rest) = escapeHtml (trailing rest) := by
    have hrun := bareRun_eq (escapeHtml rest)
    rw [bareRun_escapeHtml, hkept, bareRun_eq, escapeHtml_append] at hrun
    exact (List.append_cancel_left hrun).symm
  have hprefix : bareRun rest <+: rest := List.takeWhile_prefix _
  have htake : rest.take (bareRun rest).length = bareRun rest := (List.prefix_iff_eq_take.mp hprefix).symm
  have hsplit : bareRun rest ++ rest.drop (bareRun rest).length = rest := List.prefix_iff_eq_append.mp hprefix
  rw [matchAutolink_eq hurl, matchAutolink_eq (by rw [hkept, isBare_escapeHtml, hurl]), hkept, htrailing]
  refine ⟨?_, ?_, ?_⟩
  · rw [List.flatMap_cons, List.flatMap_singleton, Inline.source, Inline.source, ← bareRun_eq, hsplit]
  · rw [bareRun_escapeHtml, htake]
  · rw [List.map_cons, List.map_singleton, List.flatMap_cons, List.flatMap_singleton]
    rfl

theorem startsWith_cut {pattern : String} (hpattern : IsMark pattern) {front back : List Char} {c : Char}
    (hc : isSpecial c = true) (hstarts : startsWith pattern (front ++ [c]) = true) :
    startsWith pattern (escapeHtml front ++ back) = true := by
  have hfront : startsWith pattern front = true := by
    rw [startsWith, List.isPrefixOf_iff_prefix] at hstarts ⊢
    rcases List.prefix_concat_iff.mp hstarts with hall | hprefix
    · have hordinary := hpattern c (by rw [hall]; simp)
      rw [hc] at hordinary
      cases hordinary
    · exact hprefix
  rw [← startsWith_escapeHtml hpattern] at hfront
  rw [startsWith, List.isPrefixOf_iff_prefix] at hfront ⊢
  exact hfront.trans (List.prefix_append _ _)

/-- A bare URL that is cut: its reference loses the semicolon to the text behind the link. -/
theorem autolink_cut {rest : List Char} (hbare : isBare rest = true) (hcut : ¬ KeepsUrl rest) :
    (matchAutolink (escapeHtml rest)).1 = (escapeHtml (rest.take (matchAutolink rest).1)).length ∧
      Broken (matchAutolink (escapeHtml rest)).2 := by
  have hurl := isBare_bareUrl hbare
  have hprefix : bareRun rest <+: rest := List.takeWhile_prefix _
  have htake : rest.take (bareRun rest).length = bareRun rest := (List.prefix_iff_eq_take.mp hprefix).symm
  have hlast : ∃ front c, bareUrl rest = front ++ [c] ∧ isSpecial c = true := by
    unfold KeepsUrl at hcut
    push Not at hcut
    obtain ⟨c, hc, hspecial⟩ := hcut
    obtain ⟨front, hfront⟩ := List.getLast?_eq_some_iff.mp hc
    exact ⟨front, c, hfront, Bool.not_eq_false _ ▸ hspecial⟩
  obtain ⟨front, c, hfront, hc⟩ := hlast
  have hescaped := bareUrl_cut hfront hc
  have hscheme : isBare (bareUrl (escapeHtml rest)) = true := by
    rw [hescaped]
    rw [isBare, Bool.or_eq_true, hfront] at hurl
    rw [isBare, Bool.or_eq_true]
    exact hurl.imp (startsWith_cut (by decide) hc) (startsWith_cut (by decide) hc)
  rw [matchAutolink_eq hurl, matchAutolink_eq hscheme]
  refine ⟨by rw [bareRun_escapeHtml, htake], escapeChar c, escapeChar_mem hc, "<a href=\"".toList ++ escapeHtml front,
    " rel=\"noopener noreferrer\">".toList ++ bareUrl (escapeHtml rest) ++ "</a>".toList ++ trailing (escapeHtml rest), ?_⟩
  rw [hescaped]
  simp only [anchorTag, tagged, List.append_assoc]
  rfl

/-! ### One turn -/

/-- The characters that begin a construct. -/
def opensConstruct (c : Char) : Bool := ['`', '*', '[', 'h'].contains c

theorem startsWith_ne (pattern : String) {p c : Char} {tail rest : List Char} (hpattern : pattern.toList = p :: tail)
    (hne : p ≠ c) : startsWith pattern (c :: rest) = false := by
  rw [startsWith, hpattern, List.isPrefixOf_cons_cons, beq_false_of_ne hne]
  rfl

theorem inlineStep_literal {c : Char} (hc : opensConstruct c = false) (rest : List Char) :
    inlineStep (c :: rest) = (1, [c]) := by
  simp only [opensConstruct, List.contains_cons, List.contains_nil, Bool.or_eq_false_iff, beq_eq_false_iff_ne] at hc
  obtain ⟨htick, hstar, hbracket, hscheme, -⟩ := hc
  unfold inlineStep
  rw [startsWith_ne "`" rfl (Ne.symm htick), startsWith_ne "**" rfl (Ne.symm hstar),
    startsWith_ne "*" rfl (Ne.symm hstar), startsWith_ne "[" rfl (Ne.symm hbracket),
    startsWith_ne "http://" rfl (Ne.symm hscheme), startsWith_ne "https://" rfl (Ne.symm hscheme)]
  rfl

theorem inlineStep_bare {rest : List Char} (hbare : isBare rest = true) : inlineStep rest = matchAutolink rest := by
  have hfirst : ∃ tail, rest = 'h' :: tail := by
    rw [isBare, Bool.or_eq_true] at hbare
    rcases hbare with hhttp | hhttps
    · obtain ⟨tail, rfl⟩ := startsWith_iff.mp hhttp
      exact ⟨_, rfl⟩
    · obtain ⟨tail, rfl⟩ := startsWith_iff.mp hhttps
      exact ⟨_, rfl⟩
  obtain ⟨tail, rfl⟩ := hfirst
  unfold inlineStep
  rw [startsWith_ne "`" rfl (by decide), startsWith_ne "**" rfl (by decide),
    startsWith_ne "*" rfl (by decide), startsWith_ne "[" rfl (by decide)]
  exact if_pos hbare

/-- The scanner turns to a character that is not escaped. -/
theorem mirrors_inlineStep {c : Char} (hc : isSpecial c = false) (rest : List Char)
    (hkeeps : isBare (c :: rest) = true → KeepsUrl (c :: rest)) :
    ∃ inlines, Mirrors (c :: rest) (inlineStep (c :: rest)).1 (inlineStep (escapeHtml (c :: rest))) inlines := by
  have hcons : escapeHtml (c :: rest) = c :: escapeHtml rest := by
    rw [escapeHtml_cons, escapeChar_ordinary hc, List.singleton_append]
  have hliteral : ∃ inlines, Mirrors (c :: rest) (literalChar (c :: rest)).1 (literalChar (escapeHtml (c :: rest)))
      inlines := by
    refine ⟨_, Mirrors.single (.text [c]) (List.singleton_append).symm rfl ?_⟩
    rw [hcons]
    exact Prod.ext (congrArg List.length (escapeHtml_ordinary fun d hd => List.mem_singleton.mp hd ▸ hc)).symm
      (escapeHtml_ordinary fun d hd => List.mem_singleton.mp hd ▸ hc).symm
  cases hbare : isBare (c :: rest) with
  | true =>
      rw [inlineStep_bare hbare, inlineStep_bare ((isBare_escapeHtml _).trans hbare)]
      exact ⟨_, mirrors_autolink hbare (hkeeps hbare)⟩
  | false =>
      have hbare' := (isBare_escapeHtml (c :: rest)).trans hbare
      unfold inlineStep
      rw [startsWith_escapeHtml (show IsMark "`" by decide), startsWith_escapeHtml (show IsMark "**" by decide),
        startsWith_escapeHtml (show IsMark "*" by decide), startsWith_escapeHtml (show IsMark "[" by decide)]
      rw [isBare] at hbare hbare'
      rw [hbare, hbare']
      cases htick : startsWith "`" (c :: rest) with
      | true =>
          rw [matchCode_eq, matchCode_eq]
          exact mirrors_marked ⟨by decide, _, _, rfl, by decide⟩ (fun _ => rfl) (fun _ => rfl) htick hliteral
      | false =>
      cases hstars : startsWith "**" (c :: rest) with
      | true =>
          rw [matchBold_eq, matchBold_eq]
          refine mirrors_marked ⟨by decide, _, _, rfl, by decide⟩ (fun _ => rfl) (fun _ => rfl) hstars ?_
          obtain ⟨tail, htail⟩ := startsWith_iff.mp hstars
          exact ⟨_, Mirrors.single (.text "**".toList) htail rfl rfl⟩
      | false =>
      cases hstar : startsWith "*" (c :: rest) with
      | true =>
          rw [matchItalic_eq, matchItalic_eq]
          exact mirrors_marked ⟨by decide, _, _, rfl, by decide⟩ (fun _ => rfl) (fun _ => rfl) hstar hliteral
      | false =>
      cases hbracket : startsWith "[" (c :: rest) with
      | true => exact mirrors_link hbracket hliteral
      | false => exact hliteral

/-! ### Lines -/

theorem renderInline_turn {text : List Char} (hne : text ≠ []) :
    renderInline text = (inlineStep text).2 ++ renderInline (text.drop (inlineStep text).1) := by
  cases text with
  | nil => exact absurd rfl hne
  | cons c tail => rw [renderInline]

theorem Mirrors.renderInline {rest : List Char} {consumed : Nat} {inlines : List Inline}
    (hmirrors : Mirrors rest consumed (inlineStep (escapeHtml rest)) inlines) (hne : escapeHtml rest ≠ []) :
    Pingward.renderInline (escapeHtml rest) =
      (inlines.map Inline.escaped).flatMap Inline.html ++ Pingward.renderInline (escapeHtml (rest.drop consumed)) := by
  rw [renderInline_turn hne, hmirrors.html, hmirrors.consumed, drop_escapeHtml]

theorem opensConstruct_special {c : Char} (hc : isSpecial c = true) : opensConstruct c = false := by
  rcases special_cases hc with rfl | rfl | rfl | rfl | rfl <;> decide

/-- References are literal text. -/
theorem renderInline_escapeChar {c : Char} (hc : isSpecial c = true) (rest : List Char) :
    renderInline (escapeChar c ++ rest) = escapeChar c ++ renderInline rest := by
  have hall : ∀ d, isInner d = true → opensConstruct d = false := by
    intro d hd
    have hmembers : ∀ d ∈ "&amp;ltgquo#39".toList, opensConstruct d = false :=
      List.all_iff_forall_prop.mp (by decide)
    exact hmembers d (List.contains_iff_mem.mp hd)
  have hinner := isInner_escapeChar hc
  generalize escapeChar c = inner at hinner
  induction inner with
  | nil => rfl
  | cons d inner ih =>
      rw [List.forall_mem_cons] at hinner
      have hstep := inlineStep_literal (hall d hinner.1) (inner ++ rest)
      rw [List.cons_append, renderInline_turn (List.cons_ne_nil d _), hstep, List.drop_succ_cons, List.drop_zero,
        ih hinner.2]
      rfl

/-- The scanner of a line stands at a bare URL. -/
inductive Reaches : List Char → List Char → Prop
  | here {rest : List Char} : isBare rest = true → Reaches rest rest
  | later {rest url : List Char} : rest ≠ [] → Reaches (rest.drop (inlineStep rest).1) url → Reaches rest url

theorem escapeHtml_ne_nil {text : List Char} (hne : text ≠ []) : escapeHtml text ≠ [] := by
  cases text with
  | nil => exact absurd rfl hne
  | cons c tail =>
      rw [escapeHtml_cons]
      cases hc : isSpecial c with
      | true =>
          obtain ⟨name, hname⟩ := escapeChar_head hc
          rw [hname]
          exact List.cons_ne_nil _ _
      | false =>
          rw [escapeChar_ordinary hc]
          exact List.cons_ne_nil _ _

/-- A line whose bare URLs are all kept is rendered as it is read. -/
theorem renderInline_kept (line : List Char) (hkeeps : ∀ rest, Reaches line rest → KeepsUrl rest) :
    ∃ inlines : List Inline, line = inlines.flatMap Inline.source ∧
      renderInline (escapeHtml line) = (inlines.map Inline.escaped).flatMap Inline.html := by
  induction line using renderInline.induct with
  | case1 =>
      refine ⟨[], rfl, ?_⟩
      rw [show escapeHtml [] = [] from rfl, renderInline]
      rfl
  | case2 c tail ih =>
      obtain ⟨others, hsource, hhtml⟩ := ih fun rest hrest => hkeeps rest (.later (List.cons_ne_nil c tail) hrest)
      cases hc : isSpecial c with
      | true =>
          rw [inlineStep_literal (opensConstruct_special hc)] at hsource hhtml
          refine ⟨.text [c] :: others, ?_, ?_⟩
          · rw [List.flatMap_cons, ← hsource]
            rfl
          · have htext : escapeHtml [c] = escapeChar c := List.append_nil _
            rw [escapeHtml_cons, renderInline_escapeChar hc, List.map_cons, List.flatMap_cons, ← hhtml]
            exact congrArg (· ++ _) htext.symm
      | false =>
          obtain ⟨first, hfirst⟩ := mirrors_inlineStep hc tail fun hbare => hkeeps _ (.here hbare)
          refine ⟨first ++ others, ?_, ?_⟩
          · rw [List.flatMap_append, ← hsource]
            exact hfirst.source
          · rw [hfirst.renderInline (escapeHtml_ne_nil (List.cons_ne_nil c tail)), hhtml, List.map_append,
              List.flatMap_append]

/-- What the scanner leaves behind a turn is rendered behind what the turn renders. -/
theorem renderInline_rest {rest : List Char} (hne : rest ≠ []) : ∃ pushed,
    renderInline (escapeHtml rest) = pushed ++ renderInline (escapeHtml (rest.drop (inlineStep rest).1)) := by
  cases rest with
  | nil => exact absurd rfl hne
  | cons c tail =>
      cases hc : isSpecial c with
      | true =>
          refine ⟨escapeChar c, ?_⟩
          rw [inlineStep_literal (opensConstruct_special hc), escapeHtml_cons, renderInline_escapeChar hc]
          rfl
      | false =>
          by_cases hcut : isBare (c :: tail) = true ∧ ¬ KeepsUrl (c :: tail)
          · have hconsumed := (autolink_cut hcut.1 hcut.2).1
            refine ⟨(inlineStep (escapeHtml (c :: tail))).2, ?_⟩
            rw [renderInline_turn (escapeHtml_ne_nil (List.cons_ne_nil c tail)),
              inlineStep_bare ((isBare_escapeHtml _).trans hcut.1), inlineStep_bare hcut.1, hconsumed, drop_escapeHtml]
          · obtain ⟨inlines, hmirrors⟩ := mirrors_inlineStep hc tail fun hbare =>
              by_contra fun hkeeps => hcut ⟨hbare, hkeeps⟩
            exact ⟨_, hmirrors.renderInline (escapeHtml_ne_nil (List.cons_ne_nil c tail))⟩

/-- A line with a bare URL that is cut holds a broken reference. -/
theorem renderInline_cut {line rest : List Char} (hreaches : Reaches line rest) (hcut : ¬ KeepsUrl rest) :
    Broken (renderInline (escapeHtml line)) := by
  induction hreaches with
  | here hbare =>
      rename_i rest
      have hne : rest ≠ [] := by
        rintro rfl
        cases hbare
      rw [renderInline_turn (escapeHtml_ne_nil hne), inlineStep_bare ((isBare_escapeHtml rest).trans hbare)]
      exact (autolink_cut hbare hcut).2.mono (List.prefix_append _ _).isInfix
  | later hne _ ih =>
      obtain ⟨pushed, hpushed⟩ := renderInline_rest hne
      rw [hpushed]
      exact (ih hcut).mono (List.suffix_append pushed _).isInfix

end Pingward
