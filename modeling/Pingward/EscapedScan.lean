import Pingward.MarkdownSafety
import Pingward.MarkupEntities

/-! The scanner on escaped text. It reads the escaped text of a line as it reads the line: where a construct begins and
ends no reference is cut, except by the trimming of a bare URL, which takes the semicolon of a reference for punctuation. -/

open MarkupText

namespace Pingward

/-! ### Escaping -/

/-- The characters that are escaped. -/
def isSpecial (c : Char) : Bool := ['&', '<', '>', '"', '\''].contains c

/-- The characters of the references. -/
def isInner (c : Char) : Bool := "&amp;ltgquo#39".toList.contains c

theorem escapeChar_ordinary {c : Char} (hc : isSpecial c = false) : escapeChar c = [c] := by
  simp only [isSpecial, List.contains_cons, Bool.or_eq_false_iff, beq_eq_false_iff_ne] at hc
  obtain ⟨hamp, hlt, hgt, hquot, hapos, -⟩ := hc
  rw [escapeChar, if_neg hamp, if_neg hlt, if_neg hgt, if_neg hquot, if_neg hapos]

theorem special_cases {c : Char} (hc : isSpecial c = true) : c = '&' ∨ c = '<' ∨ c = '>' ∨ c = '"' ∨ c = '\'' := by
  simpa [isSpecial] using hc

theorem escapeChar_mem {c : Char} (hc : isSpecial c = true) : escapeChar c ∈ entities := by
  rcases special_cases hc with rfl | rfl | rfl | rfl | rfl <;> decide

theorem isInner_escapeChar {c : Char} (hc : isSpecial c = true) : ∀ d ∈ escapeChar c, isInner d = true := by
  rcases special_cases hc with rfl | rfl | rfl | rfl | rfl <;> exact List.all_eq_true.mp (by decide)

theorem escapeChar_head {c : Char} (hc : isSpecial c = true) : ∃ name, escapeChar c = '&' :: name := by
  rcases special_cases hc with rfl | rfl | rfl | rfl | rfl <;> exact ⟨_, rfl⟩

theorem escapeHtml_cons (c : Char) (s : List Char) : escapeHtml (c :: s) = escapeChar c ++ escapeHtml s := rfl

theorem escapeHtml_append (s t : List Char) : escapeHtml (s ++ t) = escapeHtml s ++ escapeHtml t := List.flatMap_append

theorem escapeHtml_ordinary {s : List Char} (hs : ∀ c ∈ s, isSpecial c = false) : escapeHtml s = s := by
  induction s with
  | nil => rfl
  | cons c s ih =>
      rw [List.forall_mem_cons] at hs
      rw [escapeHtml_cons, escapeChar_ordinary hs.1, ih hs.2]
      rfl

theorem escapeHtml_isWhole (s : List Char) : IsWhole (escapeHtml s) := by
  induction s with
  | nil => exact isWhole_of_notMem List.not_mem_nil
  | cons c s ih =>
      refine IsWhole.append ?_ ih
      cases hc : isSpecial c with
      | true => exact isWhole_entity (escapeChar_mem hc)
      | false =>
          rw [escapeChar_ordinary hc]
          apply isWhole_of_notMem
          rw [List.mem_singleton]
          rintro rfl
          cases hc

/-- Putting the references back undoes the escaping. -/
theorem decodeEntities_escapeHtml (s : List Char) : decodeEntities (escapeHtml s) = s := by
  induction s with
  | nil => rfl
  | cons c s ih =>
      rw [escapeHtml_cons]
      cases hc : isSpecial c with
      | true =>
          rcases special_cases hc with rfl | rfl | rfl | rfl | rfl
          all_goals exact congrArg (_ :: ·) ih
      | false =>
          rw [escapeChar_ordinary hc, List.singleton_append, decodeEntities_cons, ih]
          rintro rfl
          cases hc

theorem drop_escapeHtml (s : List Char) (n : Nat) :
    (escapeHtml s).drop (escapeHtml (s.take n)).length = escapeHtml (s.drop n) := by
  conv_lhs => rw [← List.take_append_drop n s, escapeHtml_append]
  rw [List.take_append_drop, List.drop_left]

/-! ### Searching escaped text -/

/-- A pattern of the scanner: nothing of it is escaped. -/
def IsMark (pattern : String) : Prop := ∀ c ∈ pattern.toList, isSpecial c = false

instance (pattern : String) : Decidable (IsMark pattern) := List.decidableBAll _ pattern.toList

theorem isPrefixOf_escapeHtml {pattern : List Char} (hpattern : ∀ c ∈ pattern, isSpecial c = false) (s : List Char) :
    pattern.isPrefixOf (escapeHtml s) = pattern.isPrefixOf s := by
  induction pattern generalizing s with
  | nil => rfl
  | cons c pattern ih =>
      rw [List.forall_mem_cons] at hpattern
      cases s with
      | nil => rfl
      | cons d s =>
          rw [escapeHtml_cons]
          cases hd : isSpecial d with
          | false =>
              rw [escapeChar_ordinary hd, List.singleton_append, List.isPrefixOf_cons_cons, List.isPrefixOf_cons_cons,
                ih hpattern.2]
          | true =>
              obtain ⟨name, hname⟩ := escapeChar_head hd
              have hamp : (c == '&') = false := by
                rw [beq_eq_false_iff_ne]
                rintro rfl
                cases hpattern.1
              have hsame : (c == d) = false := by
                rw [beq_eq_false_iff_ne]
                rintro rfl
                rw [hd] at hpattern
                cases hpattern.1
              rw [hname, List.cons_append, List.isPrefixOf_cons_cons, List.isPrefixOf_cons_cons, hamp, hsame]
              rfl

theorem startsWith_escapeHtml {pattern : String} (hpattern : IsMark pattern) (s : List Char) :
    startsWith pattern (escapeHtml s) = startsWith pattern s :=
  isPrefixOf_escapeHtml hpattern s

/-- No pattern of the scanner begins within a reference. -/
theorem findText_inner {pattern : String} {c : Char} {tail : List Char} (hpattern : pattern.toList = c :: tail)
    (hc : isInner c = false) {inner : List Char} (hinner : ∀ d ∈ inner, isInner d = true) (s : List Char) :
    findText pattern (inner ++ s) = (findText pattern s).map (inner.length + ·) := by
  induction inner with
  | nil =>
      rw [List.nil_append, List.length_nil]
      simp only [Nat.zero_add, Option.map_id']
  | cons d inner ih =>
      rw [List.forall_mem_cons] at hinner
      have hstarts : startsWith pattern (d :: inner ++ s) = false := by
        have hne : (c == d) = false := by
          rw [beq_eq_false_iff_ne]
          rintro rfl
          rw [hinner.1] at hc
          cases hc
        rw [startsWith, hpattern, List.cons_append, List.isPrefixOf_cons_cons, hne]
        rfl
      have hstep : findText pattern (d :: inner ++ s) = (findText pattern (inner ++ s)).map (· + 1) :=
        if_neg (Bool.eq_false_iff.mp hstarts)
      rw [hstep, ih hinner.2, Option.map_map, List.length_cons]
      congr 1
      funext n
      rw [Function.comp_apply]
      omega

theorem findText_escapeHtml {pattern : String} {c : Char} {tail : List Char} (hpattern : pattern.toList = c :: tail)
    (hmark : IsMark pattern) (hc : isInner c = false) (s : List Char) :
    findText pattern (escapeHtml s) = (findText pattern s).map fun n => (escapeHtml (s.take n)).length := by
  induction s with
  | nil =>
      have hstarts : startsWith pattern [] = false := by
        rw [startsWith, hpattern]
        rfl
      have hnone : findText pattern [] = none := if_neg (Bool.eq_false_iff.mp hstarts)
      calc findText pattern (escapeHtml []) = findText pattern [] := rfl
        _ = _ := by rw [hnone]; rfl
  | cons d s ih =>
      have hunfold (rest : List Char) (hrest : startsWith pattern (d :: rest) = false) :
          findText pattern (d :: rest) = (findText pattern rest).map (· + 1) := if_neg (Bool.eq_false_iff.mp hrest)
      have hsame := startsWith_escapeHtml hmark (d :: s)
      rw [escapeHtml_cons] at hsame ⊢
      cases hd : isSpecial d with
      | false =>
          rw [escapeChar_ordinary hd, List.singleton_append] at hsame ⊢
          cases hstarts : startsWith pattern (d :: s) with
          | true =>
              have hfound (rest : List Char) (hrest : startsWith pattern (d :: rest) = true) :
                  findText pattern (d :: rest) = some 0 := if_pos hrest
              rw [hfound _ hstarts, hfound _ (hsame.trans hstarts)]
              rfl
          | false =>
              rw [hunfold _ hstarts, hunfold _ (hsame.trans hstarts), ih, Option.map_map, Option.map_map]
              congr 1
              funext n
              rw [Function.comp_apply, Function.comp_apply, List.take_succ_cons, escapeHtml_cons, escapeChar_ordinary hd,
                List.singleton_append, List.length_cons]
      | true =>
          have hstarts : startsWith pattern (d :: s) = false := by
            have hne : (c == d) = false := by
              rw [beq_eq_false_iff_ne]
              rintro rfl
              have hordinary := hmark c (by rw [hpattern]; exact List.mem_cons_self)
              rw [hd] at hordinary
              cases hordinary
            rw [startsWith, hpattern, List.isPrefixOf_cons_cons, hne]
            rfl
          rw [findText_inner hpattern hc (isInner_escapeChar hd), ih, hunfold _ hstarts, Option.map_map, Option.map_map]
          congr 1
          funext n
          rw [Function.comp_apply, Function.comp_apply, List.take_succ_cons, escapeHtml_cons, List.length_append]

/-! ### Cutting at a mark -/

/-- The content before a closing mark, and the text behind it. -/
def cutAt (closing : String) (text : List Char) : Option (List Char × List Char) :=
  (findText closing text).map fun p => (text.take p, text.drop (p + closing.toList.length))

theorem cutAt_eq_some {closing : String} {text content after : List Char}
    (hcut : cutAt closing text = some (content, after)) :
    text = content ++ closing.toList ++ after ∧ findText closing text = some content.length := by
  obtain ⟨p, hfind, hcut⟩ := Option.map_eq_some_iff.mp hcut
  cases hcut
  obtain ⟨tail, htext, hlength⟩ := findText_eq_some hfind
  have hafter : text.drop (p + closing.toList.length) = tail := by
    conv_lhs => rw [htext]
    apply List.drop_left'
    rw [List.length_append, hlength]
  rw [hafter, hlength]
  exact ⟨htext, hfind⟩

/-- A mark that is not part of a reference. -/
structure Delimits (mark : String) : Prop where
  ordinary : IsMark mark
  first : ∃ c tail, mark.toList = c :: tail ∧ isInner c = false

theorem drop_mark (mark : String) (hmark : IsMark mark) {text : List Char} (hstarts : startsWith mark text = true) :
    (escapeHtml text).drop mark.toList.length = escapeHtml (text.drop mark.toList.length) := by
  obtain ⟨tail, rfl⟩ := startsWith_iff.mp hstarts
  rw [escapeHtml_append, escapeHtml_ordinary hmark, List.drop_left, List.drop_left]

/-- The cut of the escaped text is the escaped cut. -/
theorem cutAt_escapeHtml {closing : String} (hclosing : Delimits closing) (text : List Char) :
    cutAt closing (escapeHtml text) = (cutAt closing text).map fun cut => (escapeHtml cut.1, escapeHtml cut.2) := by
  obtain ⟨c, tail, hlist, hc⟩ := hclosing.first
  have hfind := findText_escapeHtml hlist hclosing.ordinary hc text
  cases hcut : cutAt closing text with
  | none =>
      rw [cutAt, hfind, Option.map_eq_none_iff.mp hcut]
      rfl
  | some cut =>
      obtain ⟨content, after⟩ := cut
      obtain ⟨htext, hfound⟩ := cutAt_eq_some hcut
      have htake : text.take content.length = content := by
        rw [htext, List.append_assoc, List.take_left]
      have hescaped : escapeHtml text = escapeHtml content ++ closing.toList ++ escapeHtml after := by
        rw [htext, escapeHtml_append, escapeHtml_append, escapeHtml_ordinary hclosing.ordinary]
      rw [cutAt, hfind, hfound, Option.map_some, Option.map_some, htake, Option.map_some, hescaped]
      congr 2
      · rw [List.append_assoc, List.take_left]
      · rw [← List.length_append, List.drop_left]

/-! ### The constructs -/

namespace Inline

/-- The construct over the escaped text. -/
def escaped : Inline → Inline
  | .text content => .text (escapeHtml content)
  | .code content => .code (escapeHtml content)
  | .strong content => .strong (escapeHtml content)
  | .em content => .em (escapeHtml content)
  | .link label url => .link (escapeHtml label) (escapeHtml url)
  | .autolink url => .autolink (escapeHtml url)

theorem escapeHtml_source (inline : Inline) : escapeHtml inline.source = inline.escaped.source := by
  have htagged (opening closing : String) (hopening : IsMark opening) (hclosing : IsMark closing) (content : List Char) :
      escapeHtml (tagged opening.toList content closing.toList) =
        tagged opening.toList (escapeHtml content) closing.toList := by
    rw [tagged, tagged, escapeHtml_append, escapeHtml_append, escapeHtml_ordinary hopening, escapeHtml_ordinary hclosing]
  cases inline with
  | text content => rfl
  | autolink url => rfl
  | code content => exact htagged "`" "`" (by decide) (by decide) content
  | strong content => exact htagged "**" "**" (by decide) (by decide) content
  | em content => exact htagged "*" "*" (by decide) (by decide) content
  | link label url =>
      rw [source, escapeHtml_append, escapeHtml_append, htagged "[" "](" (by decide) (by decide)]
      rfl

end Inline

/-- A turn on the escaped text renders what the text begins with, escaped, and leaves the rest of it. -/
structure Mirrors (rest : List Char) (consumed : Nat) (turn : Nat × List Char) (inlines : List Inline) : Prop where
  source : rest = inlines.flatMap Inline.source ++ rest.drop consumed
  consumed : turn.1 = (escapeHtml (rest.take consumed)).length
  html : turn.2 = (inlines.map Inline.escaped).flatMap Inline.html

theorem Mirrors.single {rest tail : List Char} {consumed : Nat} {turn : Nat × List Char} (inline : Inline)
    (hrest : rest = inline.source ++ tail) (hconsumed : consumed = inline.source.length)
    (hturn : turn = (inline.escaped.source.length, inline.escaped.html)) : Mirrors rest consumed turn [inline] where
  source := by rw [List.flatMap_singleton, hconsumed, hrest, List.drop_left]
  consumed := by rw [hturn, hconsumed, hrest, List.take_left, Inline.escapeHtml_source]
  html := by rw [hturn, List.map_singleton, List.flatMap_singleton]

/-- The constructs between two equal marks. -/
def matchMarked (mark : String) (inline : List Char → Inline) (rest : List Char) : Option (Nat × List Char) :=
  (cutAt mark (rest.drop mark.toList.length)).map fun cut =>
    (mark.toList.length + cut.1.length + mark.toList.length, (inline cut.1).html)

theorem matchMarked_eq (mark : String) (inline : List Char → Inline) (rest : List Char) :
    (findText mark (rest.drop mark.toList.length)).map (fun p =>
      (mark.toList.length + p + mark.toList.length, (inline ((rest.drop mark.toList.length).take p)).html)) =
      matchMarked mark inline rest := by
  rw [matchMarked, cutAt, Option.map_map]
  cases hfind : findText mark (rest.drop mark.toList.length) with
  | none => rfl
  | some p =>
      obtain ⟨-, -, hlength⟩ := findText_eq_some hfind
      rw [Option.map_some, Option.map_some, Function.comp_apply, hlength]

theorem matchCode_eq (rest : List Char) : matchCode rest = matchMarked "`" .code rest := matchMarked_eq "`" .code rest

theorem matchBold_eq (rest : List Char) : matchBold rest = matchMarked "**" .strong rest := matchMarked_eq "**" .strong rest

theorem matchItalic_eq (rest : List Char) : matchItalic rest = matchMarked "*" .em rest := matchMarked_eq "*" .em rest

section Marked

variable {mark : String} {inline : List Char → Inline} {rest : List Char}

theorem matchMarked_escapeHtml (hmark : Delimits mark) (hstarts : startsWith mark rest = true) :
    matchMarked mark inline (escapeHtml rest) = (cutAt mark (rest.drop mark.toList.length)).map fun cut =>
      (mark.toList.length + (escapeHtml cut.1).length + mark.toList.length, (inline (escapeHtml cut.1)).html) := by
  rw [matchMarked, drop_mark mark hmark.ordinary hstarts, cutAt_escapeHtml hmark, Option.map_map]
  rfl

/-- A marked construct or, where it is not closed, what the scanner takes instead. -/
theorem mirrors_marked (hmark : Delimits mark)
    (hsource : ∀ content, (inline content).source = tagged mark.toList content mark.toList)
    (hescaped : ∀ content, (inline content).escaped = inline (escapeHtml content)) (hstarts : startsWith mark rest = true)
    {fallback fallback' : Nat × List Char} (hfallback : ∃ inlines, Mirrors rest fallback.1 fallback' inlines) :
    ∃ inlines, Mirrors rest ((matchMarked mark inline rest).getD fallback).1
      ((matchMarked mark inline (escapeHtml rest)).getD fallback') inlines := by
  rw [matchMarked_escapeHtml hmark hstarts, matchMarked]
  cases hcut : cutAt mark (rest.drop mark.toList.length) with
  | none => exact hfallback
  | some cut =>
      obtain ⟨content, after⟩ := cut
      obtain ⟨hdrop, -⟩ := cutAt_eq_some hcut
      obtain ⟨tail, rfl⟩ := startsWith_iff.mp hstarts
      rw [List.drop_left] at hdrop
      subst hdrop
      have hrest : mark.toList ++ (content ++ mark.toList ++ after) = (inline content).source ++ after := by
        rw [hsource, tagged]
        simp only [List.append_assoc]
      refine ⟨_, Mirrors.single (inline content) hrest ?_ ?_⟩
      · rw [hsource, length_tagged]
        rfl
      · rw [hescaped, hsource, length_tagged]
        rfl

end Marked

/-- The label and the target between the brackets. -/
def linkParts (rest : List Char) : Option (List Char × List Char) :=
  (cutAt "]" (rest.drop 1)).bind fun cut =>
    if startsWith "(" cut.2 then (cutAt ")" (cut.2.drop 1)).map fun target => (cut.1, target.1) else none

/-- The construct a label and a target make, with the length of its text. -/
def linkTurn (parts : List Char × List Char) : Nat × List Char :=
  (1 + parts.1.length + 1 + 1 + parts.2.length + 1,
    if isAllowedScheme parts.2 then anchorTag parts.2 parts.1
    else tagged "[".toList parts.1 "](".toList ++ parts.2 ++ ")".toList)

theorem matchLink_eq (rest : List Char) : matchLink rest = (linkParts rest).map linkTurn := by
  unfold matchLink linkParts cutAt
  dsimp only
  rw [Option.bind_eq_bind]
  cases hclose : findText "]" (rest.drop 1) with
  | none => rfl
  | some closeIdx =>
      obtain ⟨-, -, hlabel⟩ := findText_eq_some hclose
      rw [Option.map_some, Option.bind_some, Option.bind_some]
      dsimp only
      have hbehind : (rest.drop 1).drop (closeIdx + "]".toList.length) = (rest.drop 1).drop (closeIdx + 1) := rfl
      rw [hbehind]
      cases hparen : startsWith "(" ((rest.drop 1).drop (closeIdx + 1)) with
      | false => rfl
      | true =>
          rw [if_pos rfl, if_pos rfl]
          cases hfound : findText ")" (((rest.drop 1).drop (closeIdx + 1)).drop 1) with
          | none => rfl
          | some parenClose =>
              obtain ⟨-, -, hurl⟩ := findText_eq_some hfound
              rw [Option.map_some, Option.map_some, Option.map_some, Option.bind_some, linkTurn, hlabel, hurl]
              split <;> rfl

theorem linkParts_escapeHtml {rest : List Char} (hstarts : startsWith "[" rest = true) :
    linkParts (escapeHtml rest) = (linkParts rest).map fun parts => (escapeHtml parts.1, escapeHtml parts.2) := by
  have hclose : Delimits "]" := ⟨by decide, _, _, rfl, by decide⟩
  have hparen : Delimits ")" := ⟨by decide, _, _, rfl, by decide⟩
  have hdrop : (escapeHtml rest).drop 1 = escapeHtml (rest.drop 1) := drop_mark "[" (by decide) hstarts
  unfold linkParts
  rw [hdrop, cutAt_escapeHtml hclose]
  cases cutAt "]" (rest.drop 1) with
  | none => rfl
  | some cut =>
      rw [Option.map_some, Option.bind_some, Option.bind_some, startsWith_escapeHtml (by decide)]
      cases hopen : startsWith "(" cut.2 with
      | false => rfl
      | true =>
          have hafter : (escapeHtml cut.2).drop 1 = escapeHtml (cut.2.drop 1) := drop_mark "(" (by decide) hopen
          rw [if_pos rfl, if_pos rfl, hafter, cutAt_escapeHtml hparen, Option.map_map, Option.map_map]
          rfl

theorem isAllowedScheme_escapeHtml (url : List Char) : isAllowedScheme (escapeHtml url) = isAllowedScheme url := by
  unfold isAllowedScheme
  rw [startsWith_escapeHtml (by decide), startsWith_escapeHtml (by decide), startsWith_escapeHtml (by decide)]

theorem linkParts_source {rest label url : List Char} (hstarts : startsWith "[" rest = true)
    (hparts : linkParts rest = some (label, url)) :
    ∃ tail, rest = tagged "[".toList label "](".toList ++ url ++ ")".toList ++ tail := by
  obtain ⟨⟨content, after⟩, hcut, hparts⟩ := Option.bind_eq_some_iff.mp hparts
  dsimp only at hparts
  split at hparts
  · rename_i hopen
    obtain ⟨⟨target, tail⟩, htarget, hparts⟩ := Option.map_eq_some_iff.mp hparts
    cases hparts
    obtain ⟨inner, rfl⟩ := startsWith_iff.mp hstarts
    obtain ⟨behind, rfl⟩ := startsWith_iff.mp hopen
    have hinner : inner = label ++ "]".toList ++ ("(".toList ++ behind) := (cutAt_eq_some hcut).1
    have hbehind : behind = target ++ ")".toList ++ tail := (cutAt_eq_some htarget).1
    refine ⟨tail, ?_⟩
    rw [hinner, hbehind]
    simp only [tagged, List.append_assoc]
    rfl
  · cases hparts

/-- `[text](url)` or, where a mark is missing, what the scanner takes instead. -/
theorem mirrors_link {rest : List Char} (hstarts : startsWith "[" rest = true) {fallback fallback' : Nat × List Char}
    (hfallback : ∃ inlines, Mirrors rest fallback.1 fallback' inlines) :
    ∃ inlines, Mirrors rest ((matchLink rest).getD fallback).1 ((matchLink (escapeHtml rest)).getD fallback') inlines := by
  rw [matchLink_eq, matchLink_eq, linkParts_escapeHtml hstarts]
  cases hparts : linkParts rest with
  | none => exact hfallback
  | some parts =>
      obtain ⟨label, url⟩ := parts
      obtain ⟨tail, hrest⟩ := linkParts_source hstarts hparts
      have hlength (l u : List Char) : (tagged "[".toList l "](".toList ++ u ++ ")".toList).length =
          1 + l.length + 1 + 1 + u.length + 1 := by
        rw [List.length_append, List.length_append, length_tagged]
        rfl
      rw [Option.map_some, Option.map_some, Option.map_some, Option.getD_some, Option.getD_some]
      cases hallowed : isAllowedScheme url with
      | true =>
          refine ⟨_, Mirrors.single (.link label url) hrest (hlength label url).symm ?_⟩
          rw [linkTurn, isAllowedScheme_escapeHtml, hallowed]
          exact congrArg (·, _) (hlength _ _).symm
      | false =>
          refine ⟨_, Mirrors.single (.text _) hrest (hlength label url).symm ?_⟩
          rw [linkTurn, isAllowedScheme_escapeHtml, hallowed, Inline.escaped,
            show escapeHtml (tagged "[".toList label "](".toList ++ url ++ ")".toList) =
              tagged "[".toList (escapeHtml label) "](".toList ++ escapeHtml url ++ ")".toList from
              (Inline.link label url).escapeHtml_source]
          exact congrArg (·, _) (hlength _ _).symm

end Pingward
