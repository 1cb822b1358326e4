import Pingward.EscapedLine

/-! The references of a page. Escaping commutes with cutting the text into blocks and lines, so that a page is the rendering
of the escaped lines of its source; its references are whole, and its links are parts of the source, exactly where no bare
URL ends in an escaped character before its trailing punctuation. -/

open MarkupText

namespace Pingward

/-! ### Lines -/

theorem newline_notMem_escapeChar {c : Char} (hc : c ≠ '\n') : '\n' ∉ escapeChar c := by
  cases hspecial : isSpecial c with
  | true => exact fun hmem => absurd (isInner_escapeChar hspecial _ hmem) (by decide)
  | false =>
      rw [escapeChar_ordinary hspecial, List.mem_singleton]
      exact Ne.symm hc

theorem splitOn_escapeHtml (s : List Char) : (escapeHtml s).splitOn '\n' = (s.splitOn '\n').map escapeHtml := by
  induction s with
  | nil => rfl
  | cons c s ih =>
      rw [escapeHtml_cons, List.splitOn_cons_eq_if_modifyHead]
      by_cases hc : c = '\n'
      · subst hc
        rw [show escapeChar '\n' = ['\n'] from rfl, List.singleton_append, List.splitOn_cons_eq_if_modifyHead, ih,
          if_pos (by decide), if_pos (by decide)]
        rfl
      · obtain ⟨line, lines, hlines⟩ := List.exists_cons_of_ne_nil (List.splitOn_ne_nil '\n' s)
        rw [TextLines.splitOn_append_head (newline_notMem_escapeChar hc), ih, hlines, if_neg (by simpa using hc)]
        rfl

theorem isWhiteSpace_head {c : Char} (hc : isSpecial c = true) (rest : List Char) :
    ∃ name, escapeChar c ++ rest = '&' :: name := by
  obtain ⟨name, hname⟩ := escapeChar_head hc
  exact ⟨name ++ rest, by rw [hname]; rfl⟩

theorem isBlank_escapeHtml (line : List Char) : isBlank (escapeHtml line) = isBlank line := by
  induction line with
  | nil => rfl
  | cons c line ih =>
      rw [escapeHtml_cons]
      cases hc : isSpecial c with
      | true =>
          obtain ⟨name, hname⟩ := isWhiteSpace_head hc (escapeHtml line)
          rw [hname, isBlank, isBlank, List.all_cons, List.all_cons, isWhiteSpace_special hc]
          rfl
      | false =>
          rw [escapeChar_ordinary hc, List.singleton_append]
          exact congrArg (isWhiteSpace c && ·) ih

theorem trimStart_escapeHtml (line : List Char) : trimStart (escapeHtml line) = escapeHtml (trimStart line) := by
  induction line with
  | nil => rfl
  | cons c line ih =>
      rw [escapeHtml_cons]
      cases hc : isSpecial c with
      | true =>
          obtain ⟨name, hname⟩ := isWhiteSpace_head hc (escapeHtml line)
          have hkept : trimStart (c :: line) = c :: line :=
            List.dropWhile_cons_of_neg (by rw [isWhiteSpace_special hc]; decide)
          rw [hkept, escapeHtml_cons, hname]
          exact List.dropWhile_cons_of_neg (by decide)
      | false =>
          rw [escapeChar_ordinary hc, List.singleton_append]
          cases hspace : isWhiteSpace c with
          | true =>
              rw [trimStart, trimStart, List.dropWhile_cons_of_pos hspace, List.dropWhile_cons_of_pos hspace]
              exact ih
          | false =>
              rw [trimStart, trimStart, List.dropWhile_cons_of_neg (by rw [hspace]; decide),
                List.dropWhile_cons_of_neg (by rw [hspace]; decide), escapeHtml_cons, escapeChar_ordinary hc,
                List.singleton_append]

theorem listContent_escapeHtml (line : List Char) : listContent (escapeHtml line) = escapeHtml (listContent line) := by
  unfold listContent
  dsimp only
  rw [trimStart_escapeHtml, startsWith_escapeHtml (by decide)]
  split
  · rename_i hmark
    exact drop_mark "- " (by decide) hmark
  · rfl

/-! ### Blocks -/

theorem splitBlocksLine_escapeHtml (blocks : List (List (List Char))) (current : List (List Char)) (line : List Char) :
    splitBlocksLine (blocks.map (List.map escapeHtml), current.map escapeHtml) (escapeHtml line) =
      ((splitBlocksLine (blocks, current) line).1.map (List.map escapeHtml),
        (splitBlocksLine (blocks, current) line).2.map escapeHtml) := by
  unfold splitBlocksLine
  rw [isBlank_escapeHtml]
  split
  · dsimp only
    rw [List.isEmpty_map]
    split
    · rfl
    · rw [List.map_append]
      rfl
  · rw [List.map_append]
    rfl

theorem foldl_splitBlocksLine_escapeHtml (lines : List (List Char)) (blocks : List (List (List Char)))
    (current : List (List Char)) :
    (lines.map escapeHtml).foldl splitBlocksLine (blocks.map (List.map escapeHtml), current.map escapeHtml) =
      ((lines.foldl splitBlocksLine (blocks, current)).1.map (List.map escapeHtml),
        (lines.foldl splitBlocksLine (blocks, current)).2.map escapeHtml) := by
  induction lines generalizing blocks current with
  | nil => rfl
  | cons line lines ih =>
      rw [List.map_cons, List.foldl_cons, List.foldl_cons, splitBlocksLine_escapeHtml]
      exact ih _ _

theorem splitBlocks_escapeHtml (s : List Char) : splitBlocks (escapeHtml s) = (splitBlocks s).map (List.map escapeHtml) := by
  have hstate := foldl_splitBlocksLine_escapeHtml (s.splitOn '\n') [] []
  unfold splitBlocks
  rw [splitOn_escapeHtml]
  rw [List.map_nil, List.map_nil] at hstate
  rw [hstate]
  dsimp only
  rw [List.isEmpty_map]
  split
  · rfl
  · rw [List.map_append, List.map_singleton]

theorem foldl_splitBlocksLine_flatten (lines : List (List Char)) (state : List (List (List Char)) × List (List Char)) :
    (lines.foldl splitBlocksLine state).1.flatten ++ (lines.foldl splitBlocksLine state).2 =
      state.1.flatten ++ state.2 ++ lines.filter fun line => !isBlank line := by
  induction lines generalizing state with
  | nil => rw [List.foldl_nil, List.filter_nil, List.append_nil]
  | cons line lines ih =>
      rw [List.foldl_cons, ih]
      unfold splitBlocksLine
      cases hblank : isBlank line with
      | true =>
          rw [if_pos rfl, List.filter_cons_of_neg (by rw [hblank]; decide)]
          split
          · rfl
          · simp only [List.flatten_append, List.flatten_cons, List.flatten_nil, List.append_nil]
      | false =>
          rw [if_neg (by decide), List.filter_cons_of_pos (by rw [hblank]; rfl)]
          simp only [List.append_assoc, List.singleton_append]

/-- The blocks hold the lines that are not blank. -/
theorem flatten_splitBlocks (s : List Char) :
    (splitBlocks s).flatten = (s.splitOn '\n').filter fun line => !isBlank line := by
  have hall := foldl_splitBlocksLine_flatten (s.splitOn '\n') ([], [])
  rw [List.flatten_nil, List.nil_append, List.nil_append] at hall
  rw [← hall]
  unfold splitBlocks
  dsimp only
  split
  · rename_i hempty
    rw [List.isEmpty_iff.mp hempty, List.append_nil]
  · rw [List.flatten_append, List.flatten_singleton]

/-! ### What the scanner reaches -/

theorem inlineStep_not_bare {c : Char} (hc : opensConstruct c = false) (rest : List Char) : isBare (c :: rest) = false := by
  simp only [opensConstruct, List.contains_cons, List.contains_nil, Bool.or_eq_false_iff, beq_eq_false_iff_ne] at hc
  rw [isBare, startsWith_ne "http://" rfl (Ne.symm hc.2.2.2.1), startsWith_ne "https://" rfl (Ne.symm hc.2.2.2.1)]
  rfl

/-- Literal text in front changes nothing. -/
theorem reaches_literals {front rest url : List Char} (hfront : ∀ c ∈ front, opensConstruct c = false) :
    Reaches (front ++ rest) url ↔ Reaches rest url := by
  induction front with
  | nil => rfl
  | cons c front ih =>
      rw [List.forall_mem_cons] at hfront
      rw [← ih hfront.2]
      have hdrop : (c :: (front ++ rest)).drop (inlineStep (c :: (front ++ rest))).1 = front ++ rest := by
        rw [inlineStep_literal hfront.1]
        rfl
      constructor
      · intro hreaches
        cases hreaches with
        | here hbare =>
            rw [List.cons_append, inlineStep_not_bare hfront.1] at hbare
            cases hbare
        | later _ hrest =>
            rw [List.cons_append, hdrop] at hrest
            exact hrest
      · intro hrest
        refine .later (List.cons_ne_nil c _) ?_
        rw [List.cons_append, hdrop]
        exact hrest

theorem opensConstruct_whiteSpace {c : Char} (hc : isWhiteSpace c = true) : opensConstruct c = false := by
  have hall : ∀ c ∈ ['`', '*', '[', 'h'], isWhiteSpace c = false :=
    List.all_iff_forall_prop.mp (by decide)
  refine Bool.eq_false_iff.mpr fun hopens => ?_
  rw [hall c (List.contains_iff_mem.mp hopens)] at hc
  cases hc

/-- The marks of a list item are literal text. -/
theorem reaches_listContent {line url : List Char} : Reaches (listContent line) url ↔ Reaches line url := by
  have hspace : ∀ c ∈ line.takeWhile isWhiteSpace, opensConstruct c = false := fun c hc =>
    opensConstruct_whiteSpace (List.all_eq_true.mp List.all_takeWhile c hc)
  have htrim : Reaches line url ↔ Reaches (trimStart line) url := by
    conv_lhs => rw [← List.takeWhile_append_dropWhile (p := isWhiteSpace) (l := line)]
    exact reaches_literals hspace
  rw [htrim]
  unfold listContent
  dsimp only
  split
  · rename_i hmark
    obtain ⟨tail, htail⟩ := startsWith_iff.mp hmark
    rw [htail]
    exact (reaches_literals (List.all_iff_forall_prop.mp (by decide))).symm
  · rfl

/-! ### Parts of the source -/

theorem Inline.label_infix {inline : Inline} : inline.label <:+: inline.source := by
  cases inline with
  | text content => exact List.infix_rfl
  | autolink url => exact List.infix_rfl
  | code content => exact List.infix_append _ _ _
  | strong content => exact List.infix_append _ _ _
  | em content => exact List.infix_append _ _ _
  | link label url =>
      have hlabel : label <:+: tagged "[".toList label "](".toList := List.infix_append _ _ _
      exact (hlabel.trans (List.prefix_append _ _).isInfix).trans (List.prefix_append _ _).isInfix

theorem Inline.url_infix {inline : Inline} {url : List Char} (hurl : inline.url? = some url) : url <:+: inline.source := by
  cases inline with
  | text content => cases hurl
  | code content => cases hurl
  | strong content => cases hurl
  | em content => cases hurl
  | autolink url =>
      cases hurl
      exact List.infix_rfl
  | link label url =>
      cases hurl
      exact List.infix_append _ _ _

theorem infix_flatMap {α : Type} {f : α → List Char} {items : List α} {item : α} (hitem : item ∈ items) :
    f item <:+: items.flatMap f := by
  obtain ⟨front, back, rfl⟩ := List.append_of_mem hitem
  rw [List.flatMap_append, List.flatMap_cons, ← List.append_assoc]
  exact List.infix_append _ _ _

theorem normalizeNewlines_cons {c : Char} {s : List Char} (hcrlf : ∀ rest, ¬ (c = '\r' ∧ s = '\n' :: rest)) :
    normalizeNewlines (c :: s) = (if c = '\r' then '\n' else c) :: normalizeNewlines s := by
  unfold normalizeNewlines
  rw [replaceCrlf]
  · rfl
  · intro rest hc hs
    exact hcrlf rest ⟨hc, hs⟩

theorem prefix_of_normalized {s part : List Char} (hpart : part <+: normalizeNewlines s) (hline : '\n' ∉ part) :
    part <+: s := by
  induction s using replaceCrlf.induct generalizing part with
  | case1 rest ih =>
      cases part with
      | nil => exact List.nil_prefix
      | cons d part =>
          have hd : d = '\n' := (List.cons_prefix_cons.mp hpart).1
          exact absurd (hd ▸ List.mem_cons_self) hline
  | case2 c rest hcrlf ih =>
      cases part with
      | nil => exact List.nil_prefix
      | cons d part =>
          rw [normalizeNewlines_cons fun tail hsame => hcrlf tail hsame.1 hsame.2, List.cons_prefix_cons] at hpart
          rw [List.mem_cons, not_or] at hline
          obtain ⟨hd, hpart⟩ := hpart
          split at hd
          · exact absurd hd.symm hline.1
          · rw [hd, List.cons_prefix_cons]
            exact ⟨rfl, ih hpart hline.2⟩
  | case3 => exact hpart

/-- A part of the normalised text within a line is a part of the text. -/
theorem infix_of_normalized {s part : List Char} (hpart : part <:+: normalizeNewlines s) (hline : '\n' ∉ part) :
    part <:+: s := by
  induction s using replaceCrlf.induct with
  | case1 rest ih =>
      rcases List.infix_cons_iff.mp (show part <:+: '\n' :: normalizeNewlines rest from hpart) with hprefix | hinfix
      · exact (prefix_of_normalized hprefix hline).isInfix
      · exact (ih hinfix).trans (List.suffix_append ['\r', '\n'] rest).isInfix
  | case2 c rest hcrlf ih =>
      have hcons := normalizeNewlines_cons fun tail hsame => hcrlf tail hsame.1 hsame.2
      rw [hcons] at hpart
      rcases List.infix_cons_iff.mp hpart with hprefix | hinfix
      · rw [← hcons] at hprefix
        exact (prefix_of_normalized hprefix hline).isInfix
      · exact (ih hinfix).trans (List.suffix_cons c rest).isInfix
  | case3 => exact hpart

/-- The lines of the source, which its blocks are made of. -/
def sourceLines (src : List Char) : List (List Char) := (normalizeNewlines src).splitOn '\n'

theorem infix_of_mem_sourceLines {src line : List Char} (hline : line ∈ sourceLines src) : line <:+: src :=
  infix_of_normalized (TextLines.infix_of_mem_splitOn hline) (TextLines.notMem_of_mem_splitOn hline)

/-! ### The page -/

/-- No bare URL of the source ends in an escaped character. -/
def KeepsUrls (src : List Char) : Prop := ∀ line ∈ sourceLines src, ∀ rest, Reaches line rest → KeepsUrl rest

/-- Target and text of a link are parts of the source. -/
def FromSource (src : List Char) (link : List Char × List Char) : Prop :=
  decodeEntities link.1 <:+: src ∧ decodeEntities link.2 <:+: src

instance (src : List Char) (link : List Char × List Char) : Decidable (FromSource src link) :=
  inferInstanceAs (Decidable (_ ∧ _))

section Page

variable {src : List Char}

theorem Inline.piece {inline : Inline} (hsource : inline.source <:+: src) :
    Piece (FromSource src) inline.escaped.html := by
  have htext (content : List Char) : Piece (FromSource src) (escapeHtml content) :=
    .text (escapeHtml_plain content) (escapeHtml_isWhole content)
  have hlink (url label : List Char) (hurl : url <:+: src) (hlabel : label <:+: src) :
      Piece (FromSource src) (anchorTag (escapeHtml url) (escapeHtml label)) := by
    refine Piece.link " rel=\"noopener noreferrer\"".toList ⟨escapeHtml_plain url, escapeHtml_isWhole url⟩
      ⟨escapeHtml_plain label, escapeHtml_isWhole label⟩ (by decide) ⟨?_, ?_⟩
    · rw [decodeEntities_escapeHtml]
      exact hurl
    · rw [decodeEntities_escapeHtml]
      exact hlabel
  cases inline with
  | text content => exact htext content
  | code content => exact Piece.element "code".toList (List.all_iff_forall_prop.mp (by decide)) (htext content)
  | strong content => exact Piece.element "strong".toList (List.all_iff_forall_prop.mp (by decide)) (htext content)
  | em content => exact Piece.element "em".toList (List.all_iff_forall_prop.mp (by decide)) (htext content)
  | link label url => exact hlink url label ((Inline.url_infix rfl).trans hsource) (Inline.label_infix.trans hsource)
  | autolink url => exact hlink url url ((Inline.url_infix rfl).trans hsource) (Inline.label_infix.trans hsource)

theorem renderInline_piece {line : List Char} (hline : line <:+: src) (hkeeps : ∀ rest, Reaches line rest → KeepsUrl rest) :
    Piece (FromSource src) (renderInline (escapeHtml line)) := by
  obtain ⟨inlines, hsource, hhtml⟩ := renderInline_kept line hkeeps
  rw [hhtml, List.flatMap_map]
  refine Piece.flatMap fun inline hinline => Inline.piece ?_
  have hinfix : inline.source <:+: line := by
    rw [hsource]
    exact infix_flatMap hinline
  exact hinfix.trans hline

theorem renderBlock_piece {block : List (List Char)}
    (hblock : ∀ line ∈ block, line <:+: src ∧ ∀ rest, Reaches line rest → KeepsUrl rest) :
    Piece (FromSource src) (renderBlock (block.map escapeHtml)) := by
  unfold renderBlock
  split
  · rw [List.flatMap_map]
    refine Piece.element "ul".toList (List.all_iff_forall_prop.mp (by decide)) (Piece.flatMap fun line hline => ?_)
    rw [listContent_escapeHtml]
    refine Piece.element "li".toList (List.all_iff_forall_prop.mp (by decide)) (renderInline_piece ?_ fun rest hrest => ?_)
    · exact (listContent_suffix line).isInfix.trans (hblock line hline).1
    · exact (hblock line hline).2 rest (reaches_listContent.mp hrest)
  · refine Piece.element "p".toList (List.all_iff_forall_prop.mp (by decide))
      (Piece.intercalate (Piece.tag "br".toList (List.all_iff_forall_prop.mp (by decide))) ?_)
    rw [List.map_map]
    intro html hhtml
    obtain ⟨line, hline, rfl⟩ := List.mem_map.mp hhtml
    exact renderInline_piece (hblock line hline).1 (hblock line hline).2

theorem renderBlock_broken {block : List (List Char)} {line rest : List Char} (hline : line ∈ block)
    (hreaches : Reaches line rest) (hcut : ¬ KeepsUrl rest) : Broken (renderBlock (block.map escapeHtml)) := by
  unfold renderBlock
  split
  · have hitem := renderInline_cut (reaches_listContent.mpr hreaches) hcut
    rw [← listContent_escapeHtml] at hitem
    apply (hitem.mono (List.infix_append "<li>".toList _ "</li>".toList)).mono
    refine List.IsInfix.trans ?_ (List.infix_append "<ul>".toList _ "</ul>".toList)
    exact infix_flatMap (f := fun line => tagged "<li>".toList (renderInline (listContent line)) "</li>".toList)
      (List.mem_map_of_mem hline)
  · apply (renderInline_cut hreaches hcut).mono
    refine List.IsInfix.trans ?_ (List.infix_append "<p>".toList _ "</p>".toList)
    exact TextLines.infix_intercalate (List.mem_map_of_mem (List.mem_map_of_mem hline))

end Page

theorem toList_render (src : String) : (render src).toList =
    (splitBlocks (normalizeNewlines src.toList)).flatMap fun block => renderBlock (block.map escapeHtml) := by
  rw [render, String.toList_ofList, splitBlocks_escapeHtml, List.flatMap_map]

theorem Reaches.suffix {line rest : List Char} (hreaches : Reaches line rest) : isBare rest = true ∧ rest <:+ line := by
  induction hreaches with
  | here hbare => exact ⟨hbare, List.suffix_rfl⟩
  | later _ _ ih => exact ⟨ih.1, ih.2.trans (List.drop_suffix _ _)⟩

/-- A line with a bare URL is not blank. -/
theorem Reaches.not_blank {line rest : List Char} (hreaches : Reaches line rest) : isBlank line = false := by
  obtain ⟨hbare, hsuffix⟩ := hreaches.suffix
  have hfirst : 'h' ∈ rest := by
    rw [isBare, Bool.or_eq_true] at hbare
    rcases hbare with hhttp | hhttps
    · obtain ⟨tail, rfl⟩ := startsWith_iff.mp hhttp
      exact List.mem_cons_self
    · obtain ⟨tail, rfl⟩ := startsWith_iff.mp hhttps
      exact List.mem_cons_self
  refine Bool.eq_false_iff.mpr fun hblank => ?_
  exact absurd (List.all_eq_true.mp hblank 'h' (hsuffix.subset hfirst)) (by decide)

theorem render_piece {src : String} (hkeeps : KeepsUrls src.toList) : Piece (FromSource src.toList) (render src).toList := by
  rw [toList_render]
  refine Piece.flatMap fun block hblock => renderBlock_piece fun line hline => ?_
  have hmem : line ∈ sourceLines src.toList := by
    have hflat : line ∈ (splitBlocks (normalizeNewlines src.toList)).flatten := List.mem_flatten.mpr ⟨block, hblock, hline⟩
    rw [flatten_splitBlocks] at hflat
    exact (List.mem_filter.mp hflat).1
  exact ⟨infix_of_mem_sourceLines hmem, hkeeps line hmem⟩

theorem render_broken {src : String} (hcut : ¬ KeepsUrls src.toList) : Broken (render src).toList := by
  unfold KeepsUrls at hcut
  push Not at hcut
  obtain ⟨line, hline, rest, hreaches, hcut⟩ := hcut
  have hflat : line ∈ (splitBlocks (normalizeNewlines src.toList)).flatten := by
    rw [flatten_splitBlocks, List.mem_filter, hreaches.not_blank]
    exact ⟨hline, rfl⟩
  obtain ⟨block, hblock, hmem⟩ := List.mem_flatten.mp hflat
  rw [toList_render]
  exact (renderBlock_broken hmem hreaches hcut).mono
    (infix_flatMap (f := fun block => renderBlock (block.map escapeHtml)) hblock)

/-- **Whole references.** Every ampersand of a page starts a reference that lies in one text or in one target, and the
target and the text of every link are parts of the source, exactly when no bare URL of the source ends in an escaped
character before its trailing punctuation. -/
theorem render_entities_iff (src : String) :
    EntitiesIntact (render src).toList ∧ (∀ link ∈ links (render src).toList, FromSource src.toList link) ↔
      KeepsUrls src.toList := by
  constructor
  · rintro ⟨hintact, -⟩
    by_contra hcut
    exact (render_broken hcut).not_intact hintact
  · intro hkeeps
    exact ⟨(render_piece hkeeps).intact, (render_piece hkeeps).links.mem⟩

/-- A bare URL with an ampersand at its end: the semicolon of the reference is taken for punctuation. -/
theorem render_cuts_reference :
    render "https://a.b/?x&" =
      "<p><a href=\"https://a.b/?x&amp\" rel=\"noopener noreferrer\">https://a.b/?x&amp</a>;</p>" ∧
    ¬ EntitiesIntact (render "https://a.b/?x&").toList ∧
    links (render "https://a.b/?x&").toList = [("https://a.b/?x&amp".toList, "https://a.b/?x&amp".toList)] ∧
    ¬ FromSource "https://a.b/?x&".toList ("https://a.b/?x&amp".toList, "https://a.b/?x&amp".toList) := by
  have hline : renderInline "https://a.b/?x&amp;".toList =
      "<a href=\"https://a.b/?x&amp\" rel=\"noopener noreferrer\">https://a.b/?x&amp</a>;".toList := by
    have hstep : inlineStep "https://a.b/?x&amp;".toList =
        (19, "<a href=\"https://a.b/?x&amp\" rel=\"noopener noreferrer\">https://a.b/?x&amp</a>;".toList) := by decide
    have hrest : "https://a.b/?x&amp;".toList.drop 19 = [] := by decide
    rw [renderInline_turn (by decide), hstep, hrest, renderInline, List.append_nil]
  have hblocks : splitBlocks (escapeHtml (normalizeNewlines "https://a.b/?x&".toList)) =
      [["https://a.b/?x&amp;".toList]] := by decide
  have hrender : render "https://a.b/?x&" =
      "<p><a href=\"https://a.b/?x&amp\" rel=\"noopener noreferrer\">https://a.b/?x&amp</a>;</p>" := by
    rw [render, hblocks, List.flatMap_singleton, renderBlock, if_neg (by decide), List.map_singleton,
      List.intercalate_singleton, hline]
    decide
  have hbroken : Broken (render "https://a.b/?x&").toList := by
    rw [hrender]
    exact ⟨"&amp;".toList, by decide, "<p><a href=\"https://a.b/?x".toList,
      " rel=\"noopener noreferrer\">https://a.b/?x&amp</a>;</p>".toList, by decide⟩
  refine ⟨hrender, hbroken.not_intact, ?_, ?_⟩
  · rw [hrender]
    decide
  · decide

end Pingward
