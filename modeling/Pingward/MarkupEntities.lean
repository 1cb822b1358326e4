import Mathlib.Data.List.Infix
import Pingward.MarkupText

/-! Character references and links of a page. A page is read from the left: a text, a tag, or a quoted value of a tag. A
reference is intact if it stands whole in a text or in the target of a link, and a page put together from parts that end
outside tags has only intact references, and only the links of its parts. -/

namespace MarkupText

/-- The references that stand for the markup characters. -/
def entities : List (List Char) :=
  ["&amp;".toList, "&lt;".toList, "&gt;".toList, "&quot;".toList, "&#39;".toList]

/-- The references put back. -/
def decodeEntities : List Char → List Char
  | '&' :: 'a' :: 'm' :: 'p' :: ';' :: rest => '&' :: decodeEntities rest
  | '&' :: 'l' :: 't' :: ';' :: rest => '<' :: decodeEntities rest
  | '&' :: 'g' :: 't' :: ';' :: rest => '>' :: decodeEntities rest
  | '&' :: 'q' :: 'u' :: 'o' :: 't' :: ';' :: rest => '"' :: decodeEntities rest
  | '&' :: '#' :: '3' :: '9' :: ';' :: rest => '\'' :: decodeEntities rest
  | c :: rest => c :: decodeEntities rest
  | [] => []

theorem decodeEntities_cons {c : Char} (hc : c ≠ '&') (rest : List Char) :
    decodeEntities (c :: rest) = c :: decodeEntities rest := by
  rw [decodeEntities]
  all_goals
    intros
    contradiction

/-! ### Regions -/

inductive Region where
  | text
  | tag
  | value
  deriving DecidableEq, Repr

def Region.step (region : Region) (c : Char) : Region :=
  match region with
  | .text => if c = '<' then .tag else .text
  | .tag => if c = '"' then .value else if c = '>' then .text else .tag
  | .value => if c = '"' then .tag else .value

/-- The region behind a part of a page. -/
def regionFrom (region : Region) (html : List Char) : Region := html.foldl Region.step region

theorem regionFrom_append (region : Region) (left right : List Char) :
    regionFrom region (left ++ right) = regionFrom (regionFrom region left) right :=
  List.foldl_append

theorem Region.step_plain {region : Region} (hregion : region ≠ .tag) {c : Char} (hc : isMarkup c = false) :
    region.step c = region := by
  simp only [isMarkup, Bool.or_eq_false_iff, decide_eq_false_iff_not] at hc
  cases region with
  | text => exact if_neg hc.1.1.1
  | tag => exact absurd rfl hregion
  | value => exact if_neg hc.1.2

/-- A plain text ends neither a text nor a value. -/
theorem regionFrom_plain {region : Region} (hregion : region ≠ .tag) {text : List Char} (hplain : IsPlain text) :
    regionFrom region text = region := by
  induction text with
  | nil => rfl
  | cons c text ih =>
      have hrest := ih (hplain.mono (List.subset_cons_self c text))
      calc regionFrom region (c :: text) = regionFrom (region.step c) text := rfl
        _ = regionFrom region text := by rw [Region.step_plain hregion (hplain c List.mem_cons_self)]
        _ = region := hrest

theorem entities_plain {entity : List Char} (hentity : entity ∈ entities) : IsPlain entity := by
  have hall : ∀ entity ∈ entities, IsPlain entity := by decide
  exact hall entity hentity

/-! ### Intact references -/

/-- Behind the opening quote of the target of a link. -/
def InHref (before : List Char) : Prop := ∃ front url, before = front ++ "<a href=\"".toList ++ url ∧ '"' ∉ url

/-- The ampersand between two parts of a page starts a reference, which lies in one text or in one target as a whole. -/
structure StartsEntity (before after : List Char) : Prop where
  entity : ∃ entity ∈ entities, entity <+: '&' :: after ∧
    ∀ part, part <+: entity → regionFrom .text (before ++ part) = regionFrom .text before
  inside : regionFrom .text before = .text ∨ regionFrom .text before = .value ∧ InHref before

/-- Every ampersand of a page starts a reference. -/
def EntitiesIntact (html : List Char) : Prop :=
  ∀ before after, html = before ++ '&' :: after → StartsEntity before after

/-- The same of a part that stands behind another. -/
def IntactBehind (start html : List Char) : Prop :=
  ∀ before after, html = before ++ '&' :: after → StartsEntity (start ++ before) after

/-- A text in which every ampersand starts a reference. -/
def IsWhole (text : List Char) : Prop :=
  ∀ before after, text = before ++ '&' :: after → ∃ entity ∈ entities, entity <+: '&' :: after

theorem isWhole_of_notMem {text : List Char} (hnone : '&' ∉ text) : IsWhole text := by
  rintro before after rfl
  exact absurd (List.mem_append_right before List.mem_cons_self) hnone

theorem IsWhole.append {left right : List Char} (hleft : IsWhole left) (hright : IsWhole right) :
    IsWhole (left ++ right) := by
  intro before after hsplit
  rcases List.append_eq_append_iff.mp hsplit with ⟨middle, -, hafter⟩ | ⟨middle, hbefore, hafter⟩
  · exact hright middle after hafter
  · cases middle with
    | nil => exact hright [] after hafter.symm
    | cons c middle =>
        rw [List.cons_append, List.cons.injEq] at hafter
        obtain ⟨rfl, rfl⟩ := hafter
        obtain ⟨entity, hentity, hprefix⟩ := hleft before middle hbefore
        exact ⟨entity, hentity, hprefix.trans (List.prefix_append ('&' :: middle) right)⟩

theorem isWhole_entity {entity : List Char} (hentity : entity ∈ entities) : IsWhole entity := by
  have hall : ∀ entity ∈ entities, entity.head? = some '&' ∧ '&' ∉ entity.tail := by decide
  intro before after hsplit
  cases before with
  | nil => exact ⟨entity, hentity, hsplit ▸ List.prefix_rfl⟩
  | cons c before =>
      have htail := (hall entity hentity).2
      rw [hsplit] at htail
      exact absurd (List.mem_append_right before List.mem_cons_self) htail

theorem InHref.append {before text : List Char} (hhref : InHref before) (htext : IsPlain text) : InHref (before ++ text) := by
  obtain ⟨front, url, rfl, hurl⟩ := hhref
  refine ⟨front, url ++ text, List.append_assoc _ _ _, ?_⟩
  rw [List.mem_append, not_or]
  exact ⟨hurl, fun hmem => absurd (htext '"' hmem) (by decide)⟩

theorem InHref.prepend {before : List Char} (hhref : InHref before) (start : List Char) : InHref (start ++ before) := by
  obtain ⟨front, url, rfl, hurl⟩ := hhref
  exact ⟨start ++ front, url, by simp only [List.append_assoc], hurl⟩

theorem StartsEntity.extend {before after : List Char} (hstarts : StartsEntity before after) (more : List Char) :
    StartsEntity before (after ++ more) := by
  obtain ⟨entity, hentity, hprefix, hregion⟩ := hstarts.entity
  exact ⟨⟨entity, hentity, hprefix.trans (List.prefix_append ('&' :: after) more), hregion⟩, hstarts.inside⟩

/-- Behind a part that ends in a text. -/
theorem StartsEntity.prepend {start before after : List Char} (hstart : regionFrom .text start = .text)
    (hstarts : StartsEntity before after) : StartsEntity (start ++ before) after := by
  obtain ⟨entity, hentity, hprefix, hregion⟩ := hstarts.entity
  refine ⟨⟨entity, hentity, hprefix, fun part hpart => ?_⟩, ?_⟩
  · rw [List.append_assoc, regionFrom_append, hstart, hregion part hpart, regionFrom_append, hstart]
  · rw [regionFrom_append, hstart]
    exact hstarts.inside.imp_right (And.imp_right fun hhref => hhref.prepend start)

theorem intactBehind_append (start : List Char) {left right : List Char} (hleft : IntactBehind start left)
    (hright : IntactBehind (start ++ left) right) : IntactBehind start (left ++ right) := by
  intro before after hsplit
  rcases List.append_eq_append_iff.mp hsplit with ⟨middle, rfl, hafter⟩ | ⟨middle, hbefore, hafter⟩
  · rw [← List.append_assoc]
    exact hright middle after hafter
  · cases middle with
    | nil =>
        rw [List.append_nil] at hbefore
        subst hbefore
        have hfirst := hright [] after hafter.symm
        rwa [List.append_nil] at hfirst
    | cons c middle =>
        rw [List.cons_append, List.cons.injEq] at hafter
        obtain ⟨rfl, rfl⟩ := hafter
        exact (hleft before middle hbefore).extend right

theorem intactBehind_of_notMem (start : List Char) {html : List Char} (hnone : '&' ∉ html) : IntactBehind start html := by
  rintro before after rfl
  exact absurd (List.mem_append_right before List.mem_cons_self) hnone

/-- A text in a place where references may stand. -/
theorem intactBehind_text (start : List Char) {text : List Char} (hplain : IsPlain text) (hwhole : IsWhole text)
    (hstart : regionFrom .text start = .text ∨ regionFrom .text start = .value ∧ InHref start) :
    IntactBehind start text := by
  intro before after hsplit
  have hbefore : IsPlain before := hplain.mono (hsplit ▸ List.subset_append_left before _)
  have htag : regionFrom .text start ≠ .tag := by
    rcases hstart with htext | ⟨hvalue, -⟩
    · rw [htext]
      decide
    · rw [hvalue]
      decide
  have hregion : regionFrom .text (start ++ before) = regionFrom .text start := by
    rw [regionFrom_append, regionFrom_plain htag hbefore]
  obtain ⟨entity, hentity, hprefix⟩ := hwhole before after hsplit
  refine ⟨⟨entity, hentity, hprefix, fun part hpart => ?_⟩, ?_⟩
  · rw [regionFrom_append, hregion, regionFrom_plain htag ((entities_plain hentity).mono hpart.subset)]
  · rw [hregion]
    exact hstart.imp_right (And.imp_right fun hhref => hhref.append hbefore)

/-- A reference stands without its last character before a quote. -/
def Broken (html : List Char) : Prop :=
  ∃ entity ∈ entities, ∃ front back, html = front ++ (entity.dropLast ++ '"' :: back)

theorem Broken.mono {part html : List Char} (hbroken : Broken part) (hpart : part <:+: html) : Broken html := by
  obtain ⟨entity, hentity, front, back, rfl⟩ := hbroken
  obtain ⟨before, after, rfl⟩ := hpart
  refine ⟨entity, hentity, before ++ front, back ++ after, ?_⟩
  simp only [List.append_assoc, List.cons_append]

theorem Broken.not_intact {html : List Char} (hbroken : Broken html) : ¬ EntitiesIntact html := by
  obtain ⟨entity, hentity, front, rest, rfl⟩ := hbroken
  intro hintact
  simp only [entities, List.mem_cons, List.not_mem_nil, or_false] at hentity
  have hname : ∃ name, entity.dropLast = '&' :: name ∧ ∀ other ∈ entities, ¬ other <+: '&' :: (name ++ '"' :: rest) := by
    rcases hentity with rfl | rfl | rfl | rfl | rfl
    · exact ⟨"amp".toList, rfl, by simp [entities]⟩
    · exact ⟨"lt".toList, rfl, by simp [entities]⟩
    · exact ⟨"gt".toList, rfl, by simp [entities]⟩
    · exact ⟨"quot".toList, rfl, by simp [entities]⟩
    · exact ⟨"#39".toList, rfl, by simp [entities]⟩
  obtain ⟨name, hname, hnone⟩ := hname
  obtain ⟨other, hother, hprefix, -⟩ := (hintact front (name ++ '"' :: rest) (by rw [hname]; rfl)).entity
  exact hnone other hother hprefix

/-! ### Links -/

/-- The target and the text of a link that opens a page. -/
def linkAt (html : List Char) : Option (List Char × List Char) :=
  if "<a href=\"".toList <+: html then
    let value := html.drop "<a href=\"".toList.length
    let behind := (value.dropWhile (· ≠ '"')).drop 1
    some (value.takeWhile (· ≠ '"'), ((behind.dropWhile (· ≠ '>')).drop 1).takeWhile (· ≠ '<'))
  else none

/-- The links of a page. -/
def links (html : List Char) : List (List Char × List Char) := html.tails.filterMap linkAt

/-- Whatever follows, the links that begin in this part are as required. -/
def LinksHold (P : List Char × List Char → Prop) (html : List Char) : Prop :=
  ∀ part, part <:+ html → part ≠ [] → ∀ after link, linkAt (part ++ after) = some link → P link

section Links

variable {P : List Char × List Char → Prop}

theorem LinksHold.mem {html : List Char} (hlinks : LinksHold P html) : ∀ link ∈ links html, P link := by
  intro link hlink
  obtain ⟨part, hpart, hlink⟩ := List.mem_filterMap.mp hlink
  have hne : part ≠ [] := by
    rintro rfl
    cases hlink
  exact hlinks part ((List.mem_tails part html).mp hpart) hne [] link (by rwa [List.append_nil])

theorem LinksHold.append {left right : List Char} (hleft : LinksHold P left) (hright : LinksHold P right) :
    LinksHold P (left ++ right) := by
  intro part hpart hne after link hlink
  obtain ⟨front, hsplit⟩ := hpart
  rcases List.append_eq_append_iff.mp hsplit with ⟨middle, hmiddle, hpart⟩ | ⟨middle, -, hpart⟩
  · cases middle with
    | nil =>
        exact hright part (hpart ▸ List.suffix_rfl) hne after link hlink
    | cons c middle =>
        refine hleft (c :: middle) ⟨front, hmiddle.symm⟩ (List.cons_ne_nil c middle) (right ++ after) link ?_
        rwa [hpart, List.append_assoc] at hlink
  · exact hright part ⟨middle, hpart.symm⟩ hne after link hlink

theorem linkAt_eq_none {c : Char} (hc : c ≠ '<') (rest : List Char) : linkAt (c :: rest) = none := by
  refine if_neg fun hprefix => hc ?_
  obtain ⟨tail, htail⟩ := hprefix
  exact (List.cons.inj htail).1.symm

theorem takeWhile_ne {c : Char} {front : List Char} (hfront : c ∉ front) (rest : List Char) :
    (front ++ c :: rest).takeWhile (· ≠ c) = front := by
  have hall : ∀ other ∈ front, decide (other ≠ c) = true := fun other hother =>
    decide_eq_true fun hsame => hfront (hsame ▸ hother)
  rw [List.takeWhile_append_of_pos hall, List.takeWhile_cons_of_neg (by simp), List.append_nil]

theorem dropWhile_ne {c : Char} {front : List Char} (hfront : c ∉ front) (rest : List Char) :
    (front ++ c :: rest).dropWhile (· ≠ c) = c :: rest := by
  have hall : ∀ other ∈ front, decide (other ≠ c) = true := fun other hother =>
    decide_eq_true fun hsame => hfront (hsame ▸ hother)
  rw [List.dropWhile_append_of_pos hall, List.dropWhile_cons_of_neg (by simp)]

theorem linkAt_link (url label attributes rest : List Char) (hurl : '"' ∉ url) (hattributes : '>' ∉ attributes)
    (hlabel : '<' ∉ label) :
    linkAt ("<a href=\"".toList ++ (url ++ '"' :: (attributes ++ '>' :: (label ++ '<' :: rest)))) = some (url, label) := by
  apply (if_pos (List.prefix_append _ _)).trans
  dsimp only
  rw [List.drop_left, takeWhile_ne hurl, dropWhile_ne hurl, List.drop_succ_cons, List.drop_zero, dropWhile_ne hattributes,
    List.drop_succ_cons, List.drop_zero, takeWhile_ne hlabel]

/-- No link begins where no tag does. -/
theorem linksHold_of_notMem {html : List Char} (hnone : '<' ∉ html) : LinksHold P html := by
  intro part hpart hne after link hlink
  cases part with
  | nil => exact absurd rfl hne
  | cons c part =>
      have hc : c ≠ '<' := by
        rintro rfl
        exact hnone (hpart.subset List.mem_cons_self)
      rw [List.cons_append, linkAt_eq_none hc] at hlink
      cases hlink

theorem LinksHold.cons {c : Char} {rest : List Char} (hfirst : ∀ after link, linkAt (c :: rest ++ after) = some link → P link)
    (hrest : LinksHold P rest) : LinksHold P (c :: rest) := by
  intro part hpart hne after link hlink
  rcases List.suffix_cons_iff.mp hpart with rfl | hpart
  · exact hfirst after link hlink
  · exact hrest part hpart hne after link hlink

end Links

/-! ### Parts of a page -/

/-- A part that begins and ends in a text, with intact references and links as required. -/
structure Piece (P : List Char × List Char → Prop) (html : List Char) : Prop where
  region : regionFrom .text html = .text
  intact : EntitiesIntact html
  links : LinksHold P html

namespace Piece

variable {P : List Char × List Char → Prop}

theorem nil : Piece P [] where
  region := rfl
  intact := intactBehind_of_notMem [] List.not_mem_nil
  links := linksHold_of_notMem List.not_mem_nil

theorem append {left right : List Char} (hleft : Piece P left) (hright : Piece P right) : Piece P (left ++ right) where
  region := by rw [regionFrom_append, hleft.region, hright.region]
  intact := intactBehind_append [] hleft.intact fun before after hsplit =>
    (hright.intact before after hsplit).prepend hleft.region
  links := hleft.links.append hright.links

theorem text {text : List Char} (hplain : IsPlain text) (hwhole : IsWhole text) : Piece P text where
  region := regionFrom_plain (by decide) hplain
  intact := intactBehind_text [] hplain hwhole (.inl rfl)
  links := linksHold_of_notMem fun hmem => absurd (hplain '<' hmem) (by decide)

/-- A tag without attributes. -/
theorem tag (name : List Char) (hname : ∀ c ∈ name, c ∉ ['<', '>', '"', '&', ' ']) : Piece P ('<' :: (name ++ ['>'])) where
  region := by
    have hopen : regionFrom .tag name = .tag := by
      induction name with
      | nil => rfl
      | cons c name ih =>
          have hc := hname c List.mem_cons_self
          simp only [List.mem_cons, List.not_mem_nil, or_false, not_or] at hc
          have hstep : Region.step .tag c = .tag := (if_neg hc.2.2.1).trans (if_neg hc.2.1)
          calc regionFrom .tag (c :: name) = regionFrom (Region.step .tag c) name := rfl
            _ = regionFrom .tag name := by rw [hstep]
            _ = .tag := ih fun other hother => hname other (List.mem_cons_of_mem c hother)
    calc regionFrom .text ('<' :: (name ++ ['>'])) = regionFrom .tag (name ++ ['>']) := rfl
      _ = regionFrom .tag ['>'] := by rw [regionFrom_append, hopen]
      _ = .text := rfl
  intact := by
    apply intactBehind_of_notMem []
    rw [List.mem_cons, List.mem_append, not_or, not_or]
    exact ⟨by decide, fun hmem => hname '&' hmem (by decide), by decide⟩
  links := by
    refine LinksHold.cons (fun after link hlink => ?_) (linksHold_of_notMem ?_)
    · have hnone : linkAt ('<' :: (name ++ ['>']) ++ after) = none := by
        refine if_neg ?_
        rintro ⟨tail, htail⟩
        cases name with
        | nil => cases htail
        | cons c name =>
            cases name with
            | nil => cases htail
            | cons d name =>
                have hd : d = ' ' := by
                  have hcons := (List.cons.inj (List.cons.inj (List.cons.inj htail).2).2).1
                  exact hcons.symm
                exact hname d (by simp) (by rw [hd]; decide)
      rw [hnone] at hlink
      cases hlink
    · rw [List.mem_append, not_or]
      exact ⟨fun hmem => hname '<' hmem (by decide), by decide⟩

/-- A link, with attributes behind its target. -/
theorem link {url label : List Char} (attributes : List Char) (hurl : IsPlain url ∧ IsWhole url)
    (hlabel : IsPlain label ∧ IsWhole label)
    (hattributes : regionFrom .tag attributes = .tag ∧ '>' ∉ attributes ∧ '<' ∉ attributes ∧ '&' ∉ attributes)
    (hlink : P (url, label)) :
    Piece P ("<a href=\"".toList ++ url ++ ('"' :: (attributes ++ ['>'])) ++ label ++ "</a>".toList) := by
  obtain ⟨hregion, hclose, hopen, hamp⟩ := hattributes
  have hstart : regionFrom .text "<a href=\"".toList = .value := by decide
  have htarget : regionFrom .text ("<a href=\"".toList ++ url) = .value := by
    rw [regionFrom_append, hstart, regionFrom_plain (by decide) hurl.1]
  have hbehind : regionFrom .text ("<a href=\"".toList ++ url ++ ('"' :: (attributes ++ ['>']))) = .text := by
    calc regionFrom .text ("<a href=\"".toList ++ url ++ ('"' :: (attributes ++ ['>'])))
        = regionFrom .tag (attributes ++ ['>']) := by
          rw [regionFrom_append, htarget]
          rfl
      _ = regionFrom .tag ['>'] := by rw [regionFrom_append, hregion]
      _ = .text := rfl
  have hlabelled : regionFrom .text ("<a href=\"".toList ++ url ++ ('"' :: (attributes ++ ['>'])) ++ label) = .text := by
    rw [regionFrom_append, hbehind, regionFrom_plain (by decide) hlabel.1]
  have hcloser : Piece P ('<' :: ("/a".toList ++ ['>'])) := tag "/a".toList (List.all_iff_forall_prop.mp (by decide))
  refine ⟨?_, ?_, ?_⟩
  · rw [regionFrom_append, hlabelled]
    exact hcloser.region
  · refine intactBehind_append [] (intactBehind_append [] (intactBehind_append [] (intactBehind_append []
      (intactBehind_of_notMem [] (by decide)) ?_) (intactBehind_of_notMem _ ?_)) ?_) (intactBehind_of_notMem _ (by decide))
    · exact intactBehind_text _ hurl.1 hurl.2 (.inr ⟨hstart, [], [], rfl, List.not_mem_nil⟩)
    · rw [List.mem_cons, List.mem_append, not_or, not_or]
      exact ⟨by decide, hamp, by decide⟩
    · exact intactBehind_text _ hlabel.1 hlabel.2 (.inl hbehind)
  · have hbody : '<' ∉ "a href=\"".toList ++ url ++ ('"' :: (attributes ++ ['>'])) ++ label := by
      simp only [List.mem_append, List.mem_cons, List.not_mem_nil, or_false, not_or]
      refine ⟨⟨⟨by decide, ?_⟩, by decide, hopen, by decide⟩, ?_⟩
      · exact fun hmem => absurd (hurl.1 '<' hmem) (by decide)
      · exact fun hmem => absurd (hlabel.1 '<' hmem) (by decide)
    have hfirst : ∀ after found,
        linkAt ('<' :: ("a href=\"".toList ++ url ++ ('"' :: (attributes ++ ['>'])) ++ label ++ "</a>".toList) ++ after) =
          some found → P found := by
      intro after found hfound
      have hhere := linkAt_link url label attributes ("/a>".toList ++ after)
        (fun hmem => absurd (hurl.1 '"' hmem) (by decide)) hclose fun hmem => absurd (hlabel.1 '<' hmem) (by decide)
      have hsame : '<' :: ("a href=\"".toList ++ url ++ ('"' :: (attributes ++ ['>'])) ++ label ++ "</a>".toList) ++ after =
          "<a href=\"".toList ++ (url ++ '"' :: (attributes ++ '>' :: (label ++ '<' :: ("/a>".toList ++ after)))) := by
        simp only [List.append_assoc, List.cons_append, List.nil_append]
        rfl
      rw [hsame, hhere] at hfound
      exact Option.some.inj hfound ▸ hlink
    exact LinksHold.cons hfirst ((linksHold_of_notMem hbody).append hcloser.links)

/-- An element without attributes. -/
theorem element (name : List Char) (hname : ∀ c ∈ name, c ∉ ['<', '>', '"', '&', ' ']) {html : List Char}
    (hhtml : Piece P html) : Piece P ('<' :: (name ++ ['>']) ++ html ++ '<' :: ('/' :: name ++ ['>'])) := by
  refine ((tag name hname).append hhtml).append (tag ('/' :: name) ?_)
  rw [List.forall_mem_cons]
  exact ⟨by decide, hname⟩

theorem flatMap {α : Type} {items : List α} {f : α → List Char} (hpiece : ∀ item ∈ items, Piece P (f item)) :
    Piece P (items.flatMap f) := by
  induction items with
  | nil => exact nil
  | cons item items ih =>
      rw [List.forall_mem_cons] at hpiece
      rw [List.flatMap_cons]
      exact hpiece.1.append (ih hpiece.2)

/-- Tags between the items. -/
theorem intercalate {separator : List Char} {items : List (List Char)} (hseparator : Piece P separator)
    (hpiece : ∀ item ∈ items, Piece P item) : Piece P (separator.intercalate items) := by
  induction items with
  | nil => exact nil
  | cons item items ih =>
      rw [List.forall_mem_cons] at hpiece
      have hrest := ih hpiece.2
      cases items with
      | nil =>
          rw [List.intercalate_singleton]
          exact hpiece.1
      | cons next items =>
          rw [List.intercalate_cons_cons]
          exact (hpiece.1.append hseparator).append hrest

end Piece

end MarkupText
