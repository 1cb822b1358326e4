import Pingward.MarkupText
import Pingward.ModelMarkdown
import Pingward.TextLines

/-! What the markdown renderer may emit. Every line is read as a sequence of inline constructs that do not nest,
and rendered construct by construct; the page is paragraphs and lists of such lines. As the source is escaped
first, the constructs are put together from plain texts, and deleting the tags leaves a plain text. -/

open MarkupText

namespace Pingward

/-! ### The constructs -/

/-- An inline construct over the escaped text. -/
inductive Inline where
  | text (content : List Char)
  | code (content : List Char)
  | strong (content : List Char)
  | em (content : List Char)
  | link (label url : List Char)
  | autolink (url : List Char)

namespace Inline

/-- What the construct is written as. -/
def source : Inline → List Char
  | .text content => content
  | .code content => tagged "`".toList content "`".toList
  | .strong content => tagged "**".toList content "**".toList
  | .em content => tagged "*".toList content "*".toList
  | .link label url => tagged "[".toList label "](".toList ++ url ++ ")".toList
  | .autolink url => url

def html : Inline → List Char
  | .text content => content
  | .code content => tagged "<code>".toList content "</code>".toList
  | .strong content => tagged "<strong>".toList content "</strong>".toList
  | .em content => tagged "<em>".toList content "</em>".toList
  | .link label url => anchorTag url label
  | .autolink url => anchorTag url url

/-- What is left of it without its tags. -/
def label : Inline → List Char
  | .text content => content
  | .code content => content
  | .strong content => content
  | .em content => content
  | .link label _ => label
  | .autolink url => url

/-- The target of a link. -/
def url? : Inline → Option (List Char)
  | .link _ url => some url
  | .autolink url => some url
  | _ => none

/-- The texts between the tags are plain, and a link goes to an allowed scheme and stays in its quotes. -/
structure Safe (inline : Inline) : Prop where
  label : IsPlain inline.label
  url : ∀ url, inline.url? = some url → isAllowedScheme url = true ∧ IsPlain url

end Inline

inductive Block where
  | paragraph (lines : List (List Inline))
  | list (items : List (List Inline))

namespace Block

def lines : Block → List (List Inline)
  | .paragraph lines => lines
  | .list items => items

def html : Block → List Char
  | .paragraph lines =>
      tagged "<p>".toList ("<br>".toList.intercalate (lines.map fun line => line.flatMap Inline.html)) "</p>".toList
  | .list items =>
      tagged "<ul>".toList (items.flatMap fun item => tagged "<li>".toList (item.flatMap Inline.html) "</li>".toList)
        "</ul>".toList

/-- What is left of it without its tags. -/
def label (block : Block) : List Char := block.lines.flatMap fun line => line.flatMap Inline.label

structure Safe (block : Block) : Prop where
  nonempty : block.lines ≠ []
  inlines : ∀ line ∈ block.lines, ∀ inline ∈ line, inline.Safe

end Block

/-! ### Deleting the tags -/

theorem strips_tagged {opening closing html text : List Char} (hopening : Strips opening [])
    (hcontent : Strips html text) (hclosing : Strips closing []) : Strips (tagged opening html closing) text := by
  have htagged := (hopening.append hcontent).append hclosing
  rwa [List.nil_append, List.append_nil] at htagged

theorem strips_anchorTag {url text : List Char} (hurl : IsPlain url) (htext : IsPlain text) :
    Strips (anchorTag url text) text := by
  have hopening : Strips (tagged "<a href=\"".toList url "\" rel=\"noopener noreferrer\">".toList) [] := by
    have hbody : '>' ∉ "a href=\"".toList ++ url ++ "\" rel=\"noopener noreferrer\"".toList := by
      rw [List.mem_append, List.mem_append, not_or, not_or]
      refine ⟨⟨by decide, fun hmem => ?_⟩, by decide⟩
      exact absurd (hurl '>' hmem) (by decide)
    have htag := Strips.tag _ hbody
    simp only [List.append_assoc] at htag
    exact htag
  exact strips_tagged hopening (Strips.plain htext) (Strips.tag "/a".toList (by decide))

/-- A tag without attributes. -/
theorem strips_pair (name : List Char) {html text : List Char} (hname : '>' ∉ name) (hcontent : Strips html text) :
    Strips (tagged ('<' :: (name ++ ['>'])) html ('<' :: ('/' :: name ++ ['>']))) text := by
  refine strips_tagged (Strips.tag name hname) hcontent (Strips.tag _ ?_)
  rw [List.mem_cons, not_or]
  exact ⟨by decide, hname⟩

theorem Inline.Safe.strips {inline : Inline} (hsafe : inline.Safe) : Strips inline.html inline.label := by
  have hlabel := Strips.plain hsafe.label
  cases inline with
  | text content => exact hlabel
  | code content => exact strips_pair "code".toList (by decide) hlabel
  | strong content => exact strips_pair "strong".toList (by decide) hlabel
  | em content => exact strips_pair "em".toList (by decide) hlabel
  | link label url => exact strips_anchorTag (hsafe.url url rfl).2 hsafe.label
  | autolink url => exact strips_anchorTag hsafe.label hsafe.label

theorem Block.Safe.strips {block : Block} (hsafe : block.Safe) : Strips block.html block.label := by
  have hline : ∀ line ∈ block.lines, Strips (line.flatMap Inline.html) (line.flatMap Inline.label) :=
    fun line hline => Strips.flatMap fun inline hinline => (hsafe.inlines line hline inline hinline).strips
  cases block with
  | paragraph lines =>
      refine strips_pair "p".toList (by decide) (Strips.intercalate ?_ hline)
      exact Strips.tag "br".toList (by decide)
  | list items =>
      refine strips_pair "ul".toList (by decide) (Strips.flatMap fun item hitem => ?_)
      exact strips_pair "li".toList (by decide) (hline item hitem)

theorem Block.Safe.label {block : Block} (hsafe : block.Safe) : IsPlain block.label :=
  IsPlain.flatMap fun line hline => IsPlain.flatMap fun inline hinline => (hsafe.inlines line hline inline hinline).label

/-! ### The scanner -/

theorem startsWith_iff {pattern : String} {text : List Char} :
    startsWith pattern text = true ↔ ∃ tail, text = pattern.toList ++ tail := by
  rw [startsWith, List.isPrefixOf_iff_prefix]
  exact exists_congr fun _ => eq_comm

theorem findText_eq_some {pattern : String} {text : List Char} {p : Nat} (hfind : findText pattern text = some p) :
    ∃ tail, text = text.take p ++ pattern.toList ++ tail ∧ (text.take p).length = p := by
  induction text generalizing p with
  | nil =>
      unfold findText at hfind
      split at hfind
      · rename_i hstarts
        cases hfind
        exact (startsWith_iff.mp hstarts).imp fun tail htail => ⟨htail, rfl⟩
      · cases hfind
  | cons c rest ih =>
      unfold findText at hfind
      split at hfind
      · rename_i hstarts
        cases hfind
        exact (startsWith_iff.mp hstarts).imp fun tail htail => ⟨htail, rfl⟩
      · obtain ⟨q, hq, rfl⟩ := Option.map_eq_some_iff.mp hfind
        obtain ⟨tail, htail, hlength⟩ := ih hq
        refine ⟨tail, ?_, by rw [List.take_succ_cons, List.length_cons, hlength]⟩
        rw [List.take_succ_cons, List.cons_append, List.cons_append, ← htail]

/-- A turn of the scanner reads constructs off the text that is left and renders them. -/
structure Scans (rest : List Char) (turn : Nat × List Char) (inlines : List Inline) : Prop where
  source : rest = inlines.flatMap Inline.source ++ rest.drop turn.1
  html : turn.2 = inlines.flatMap Inline.html
  allowed : ∀ inline ∈ inlines, ∀ url, inline.url? = some url → isAllowedScheme url = true

/-- One construct. -/
theorem Scans.single {rest pushed tail : List Char} {consumed : Nat} (inline : Inline)
    (hrest : rest = inline.source ++ tail) (hconsumed : consumed = inline.source.length) (hpushed : pushed = inline.html)
    (hallowed : ∀ url, inline.url? = some url → isAllowedScheme url = true) :
    Scans rest (consumed, pushed) [inline] where
  source := by
    rw [List.flatMap_singleton, hconsumed, hrest, List.drop_left]
  html := by rw [List.flatMap_singleton, hpushed]
  allowed := by
    intro other hother
    rw [List.mem_singleton.mp hother]
    exact hallowed

/-- A content between two marks. -/
theorem between_marks (closing : String) {opening : String} {rest : List Char} {p : Nat}
    (hopening : startsWith opening rest = true)
    (hfind : findText closing (rest.drop opening.toList.length) = some p) :
    ∃ tail, rest = tagged opening.toList ((rest.drop opening.toList.length).take p) closing.toList ++ tail ∧
      ((rest.drop opening.toList.length).take p).length = p := by
  obtain ⟨after, rfl⟩ := startsWith_iff.mp hopening
  rw [List.drop_left] at hfind ⊢
  obtain ⟨tail, htail, hlength⟩ := findText_eq_some hfind
  refine ⟨tail, ?_, hlength⟩
  calc opening.toList ++ after = opening.toList ++ (after.take p ++ closing.toList ++ tail) := by rw [← htail]
    _ = _ := by simp only [tagged, List.append_assoc]

theorem length_tagged (opening content closing : List Char) :
    (tagged opening content closing).length = opening.length + content.length + closing.length := by
  rw [tagged, List.length_append, List.length_append]

/-- The content between two equal marks, which becomes one construct. -/
theorem scans_marked (mark : String) (inline : List Char → Inline) {rest : List Char} {turn : Nat × List Char}
    (hsource : ∀ content, (inline content).source = tagged mark.toList content mark.toList)
    (hplain : ∀ content, (inline content).url? = none) (hopening : startsWith mark rest = true)
    (hturn : (findText mark (rest.drop mark.toList.length)).map (fun p =>
      (mark.toList.length + p + mark.toList.length, (inline ((rest.drop mark.toList.length).take p)).html)) = some turn) :
    ∃ inlines, Scans rest turn inlines := by
  obtain ⟨p, hfind, rfl⟩ := Option.map_eq_some_iff.mp hturn
  obtain ⟨tail, hrest, hlength⟩ := between_marks mark hopening hfind
  rw [← hsource] at hrest
  refine ⟨_, Scans.single _ hrest ?_ rfl fun url hurl => ?_⟩
  · rw [hsource, length_tagged, hlength]
  · rw [hplain] at hurl
    cases hurl

/-- `[text](url)` becomes a link or, if its scheme is not allowed, the text that it is. -/
theorem scans_link {rest : List Char} {turn : Nat × List Char} (hopening : startsWith "[" rest = true)
    (hlink : matchLink rest = some turn) : ∃ inlines, Scans rest turn inlines := by
  obtain ⟨closeIdx, parenClose, hclose, hparen, hfound, hconsumed, hpushed⟩ := matchLink_eq_some hlink
  obtain ⟨after, hrest, hlabel⟩ := between_marks "]" hopening hclose
  have hrest : rest = tagged "[".toList ((rest.drop 1).take closeIdx) "]".toList ++ after := hrest
  have hlabel : ((rest.drop 1).take closeIdx).length = closeIdx := hlabel
  have hafter : (rest.drop 1).drop (closeIdx + 1) = after := by
    rw [List.drop_drop]
    conv_lhs => rw [hrest]
    apply List.drop_left'
    rw [length_tagged]
    exact (congrArg (1 + · + 1) hlabel).trans (Nat.add_assoc 1 closeIdx 1)
  rw [hafter] at hparen hfound hpushed
  obtain ⟨tail, htail, hurl⟩ := between_marks ")" hparen hfound
  have htail : after = tagged "(".toList ((after.drop 1).take parenClose) ")".toList ++ tail := htail
  have hurl : ((after.drop 1).take parenClose).length = parenClose := hurl
  dsimp only at hpushed
  generalize (rest.drop 1).take closeIdx = label at hpushed hlabel hrest
  generalize (after.drop 1).take parenClose = url at hpushed hurl htail
  have hsource : rest = tagged "[".toList label "](".toList ++ url ++ ")".toList ++ tail := by
    rw [hrest, htail]
    simp only [tagged, List.append_assoc]
    rfl
  have hlength : turn.1 = (tagged "[".toList label "](".toList ++ url ++ ")".toList).length := by
    rw [hconsumed, List.length_append, List.length_append, length_tagged, hlabel, hurl]
    rfl
  split at hpushed
  · rename_i hallowed
    refine ⟨_, Scans.single (.link label url) hsource hlength hpushed fun other hother => ?_⟩
    cases hother
    exact hallowed
  · exact ⟨_, Scans.single (.text _) hsource hlength hpushed fun _ hother => nomatch hother⟩

/-- A bare URL, with what follows it up to the next white space. -/
theorem scans_autolink (rest : List Char) : ∃ inlines, Scans rest (matchAutolink rest) inlines := by
  obtain ⟨tail, htail⟩ := List.takeWhile_prefix (fun c => !isWhiteSpace c) (l := rest)
  unfold matchAutolink
  generalize rest.takeWhile (fun c => !isWhiteSpace c) = run at htail
  subst htail
  dsimp only
  split
  · rename_i hscheme
    obtain ⟨trailing, htrailing⟩ := List.rdropWhile_prefix (fun c => trimChars.contains c) (l := run)
    generalize run.rdropWhile (fun c => trimChars.contains c) = url at hscheme htrailing
    subst htrailing
    rw [List.drop_left]
    refine ⟨[.autolink url, .text trailing], ?_, ?_, ?_⟩
    · simp [Inline.source]
    · simp [Inline.html]
    · intro inline hinline other hother
      rcases List.mem_cons.mp hinline with rfl | hinline
      · cases hother
        exact Bool.or_eq_true_iff.mpr (Or.inl hscheme)
      · rw [List.mem_singleton.mp hinline] at hother
        cases hother
  · exact ⟨_, Scans.single (.text run) rfl rfl rfl fun _ hurl => nomatch hurl⟩

theorem scans_literalChar (c : Char) (rest : List Char) :
    ∃ inlines, Scans (c :: rest) (literalChar (c :: rest)) inlines :=
  ⟨_, Scans.single (.text [c]) rfl rfl rfl fun _ hurl => nomatch hurl⟩

/-- **One turn.** -/
theorem scans_inlineStep (c : Char) (rest : List Char) :
    ∃ inlines, Scans (c :: rest) (inlineStep (c :: rest)) inlines := by
  unfold inlineStep
  split
  · rename_i hopening
    cases hcode : matchCode (c :: rest) with
    | none => exact scans_literalChar c rest
    | some turn => exact scans_marked "`" .code (fun _ => rfl) (fun _ => rfl) hopening hcode
  split
  · rename_i hopening
    cases hbold : matchBold (c :: rest) with
    | none =>
        obtain ⟨tail, htail⟩ := startsWith_iff.mp hopening
        exact ⟨_, Scans.single (.text "**".toList) htail rfl rfl fun _ hurl => nomatch hurl⟩
    | some turn => exact scans_marked "**" .strong (fun _ => rfl) (fun _ => rfl) hopening hbold
  split
  · rename_i hopening
    cases hitalic : matchItalic (c :: rest) with
    | none => exact scans_literalChar c rest
    | some turn => exact scans_marked "*" .em (fun _ => rfl) (fun _ => rfl) hopening hitalic
  split
  · rename_i hopening
    cases hlink : matchLink (c :: rest) with
    | none => exact scans_literalChar c rest
    | some turn => exact scans_link hopening hlink
  split
  · exact scans_autolink (c :: rest)
  · exact scans_literalChar c rest

/-- A line is read as inline constructs, nothing of it is lost, and it is rendered construct by construct. -/
theorem renderInline_scans (line : List Char) :
    ∃ inlines : List Inline, line = inlines.flatMap Inline.source ∧ renderInline line = inlines.flatMap Inline.html ∧
      ∀ inline ∈ inlines, ∀ url, inline.url? = some url → isAllowedScheme url = true := by
  induction line using renderInline.induct with
  | case1 => exact ⟨[], rfl, by rw [renderInline]; rfl, fun _ hinline => absurd hinline List.not_mem_nil⟩
  | case2 c tail ih =>
      obtain ⟨first, hfirst⟩ := scans_inlineStep c tail
      obtain ⟨others, hsource, hhtml, hallowed⟩ := ih
      refine ⟨first ++ others, ?_, ?_, ?_⟩
      · rw [List.flatMap_append, ← hsource]
        exact hfirst.source
      · rw [renderInline, List.flatMap_append, ← hhtml, hfirst.html]
      · exact List.forall_mem_append.mpr ⟨hfirst.allowed, hallowed⟩

theorem Inline.label_subset (inline : Inline) : inline.label ⊆ inline.source := by
  intro c hc
  cases inline with
  | text content => exact hc
  | autolink url => exact hc
  | code content => exact List.mem_append_left _ (List.mem_append_right _ hc)
  | strong content => exact List.mem_append_left _ (List.mem_append_right _ hc)
  | em content => exact List.mem_append_left _ (List.mem_append_right _ hc)
  | link label url =>
      have hlabel : c ∈ tagged "[".toList label "](".toList := List.mem_append_left _ (List.mem_append_right _ hc)
      exact List.mem_append_left _ (List.mem_append_left _ hlabel)

theorem Inline.url_subset {inline : Inline} {url : List Char} (hurl : inline.url? = some url) : url ⊆ inline.source := by
  intro c hc
  cases inline with
  | text content => cases hurl
  | code content => cases hurl
  | strong content => cases hurl
  | em content => cases hurl
  | autolink url =>
      cases hurl
      exact hc
  | link label url =>
      cases hurl
      exact List.mem_append_left _ (List.mem_append_right _ hc)

/-- The constructs of a plain line are safe. -/
theorem safe_of_plain {line : List Char} {inlines : List Inline} (hplain : IsPlain line)
    (hsource : line = inlines.flatMap Inline.source)
    (hallowed : ∀ inline ∈ inlines, ∀ url, inline.url? = some url → isAllowedScheme url = true) :
    ∀ inline ∈ inlines, inline.Safe := by
  intro inline hinline
  have hinlinePlain : IsPlain inline.source := by
    refine hplain.mono fun c hc => ?_
    rw [hsource]
    exact List.mem_flatMap.mpr ⟨inline, hinline, hc⟩
  refine ⟨hinlinePlain.mono inline.label_subset, fun url hurl => ⟨hallowed inline hinline url hurl, ?_⟩⟩
  exact hinlinePlain.mono (Inline.url_subset hurl)

/-! ### The page -/

theorem escapeChar_plain (c : Char) : IsPlain (escapeChar c) := by
  unfold escapeChar
  split_ifs with hamp hlt hgt hquot hapos
  · decide
  · decide
  · decide
  · decide
  · decide
  · intro other hother
    rw [List.mem_singleton.mp hother]
    simp [isMarkup, hlt, hgt, hquot, hapos]

theorem escapeHtml_plain (s : List Char) : IsPlain (escapeHtml s) := IsPlain.flatMap fun c _ => escapeChar_plain c

theorem foldl_splitBlocksLine {P : List Char → Prop} {lines : List (List Char)} (hlines : ∀ line ∈ lines, P line)
    (state : List (List (List Char)) × List (List Char))
    (hblocks : ∀ block ∈ state.1, block ≠ [] ∧ ∀ line ∈ block, P line) (hcurrent : ∀ line ∈ state.2, P line) :
    (∀ block ∈ (lines.foldl splitBlocksLine state).1, block ≠ [] ∧ ∀ line ∈ block, P line) ∧
      ∀ line ∈ (lines.foldl splitBlocksLine state).2, P line := by
  induction lines generalizing state with
  | nil => exact ⟨hblocks, hcurrent⟩
  | cons line lines ih =>
      rw [List.forall_mem_cons] at hlines
      rw [List.foldl_cons]
      unfold splitBlocksLine
      split
      · split
        · exact ih hlines.2 _ hblocks hcurrent
        · rename_i hnonempty
          refine ih hlines.2 _ ?_ fun _ hnil => absurd hnil List.not_mem_nil
          rw [List.forall_mem_append, List.forall_mem_singleton]
          exact ⟨hblocks, fun hnil => hnonempty (List.isEmpty_iff.mpr hnil), hcurrent⟩
      · refine ih hlines.2 _ hblocks ?_
        rw [List.forall_mem_append, List.forall_mem_singleton]
        exact ⟨hcurrent, hlines.1⟩

/-- The lines of the blocks are slices of the text, and no block is without lines. -/
theorem mem_splitBlocks {s : List Char} {block : List (List Char)} (hblock : block ∈ splitBlocks s) :
    block ≠ [] ∧ ∀ line ∈ block, line <:+: s := by
  have hlines : ∀ line ∈ s.splitOn '\n', line <:+: s := fun _ => TextLines.infix_of_mem_splitOn
  have hstate := foldl_splitBlocksLine (P := (· <:+: s)) hlines ([], [])
    (fun _ hnil => absurd hnil List.not_mem_nil) fun _ hnil => absurd hnil List.not_mem_nil
  unfold splitBlocks at hblock
  dsimp only at hblock
  split at hblock
  · exact hstate.1 block hblock
  · rename_i hnonempty
    rcases List.mem_append.mp hblock with hblock | hblock
    · exact hstate.1 block hblock
    · rw [List.mem_singleton.mp hblock]
      exact ⟨fun hnil => hnonempty (List.isEmpty_iff.mpr hnil), hstate.2⟩

theorem listContent_suffix (line : List Char) : listContent line <:+ line := by
  unfold listContent
  dsimp only
  split
  · exact (List.drop_suffix 2 _).trans (List.dropWhile_suffix _)
  · exact List.dropWhile_suffix _

theorem renderBlock_safe {block : List (List Char)} (hblock : block ≠ []) (hplain : ∀ line ∈ block, IsPlain line) :
    ∃ page : Block, page.Safe ∧ renderBlock block = page.html := by
  choose inlines hsource hhtml hallowed using renderInline_scans
  unfold renderBlock
  split
  · refine ⟨.list (block.map fun line => inlines (listContent line)), ⟨?_, ?_⟩, ?_⟩
    · exact fun hnil => hblock (List.map_eq_nil_iff.mp hnil)
    · intro item hitem
      obtain ⟨line, hline, rfl⟩ := List.mem_map.mp hitem
      have hcontent : IsPlain (listContent line) := (hplain line hline).mono (listContent_suffix line).subset
      exact safe_of_plain hcontent (hsource _) (hallowed _)
    · simp only [Block.html, hhtml, List.flatMap_map]
  · refine ⟨.paragraph (block.map inlines), ⟨?_, ?_⟩, ?_⟩
    · exact fun hnil => hblock (List.map_eq_nil_iff.mp hnil)
    · intro item hitem
      obtain ⟨line, hline, rfl⟩ := List.mem_map.mp hitem
      exact safe_of_plain (hplain line hline) (hsource _) (hallowed _)
    · rw [Block.html, List.map_map]
      congr 2
      exact List.map_congr_left fun line _ => hhtml line

theorem flatMap_renderBlock_safe {blocks : List (List (List Char))}
    (hblocks : ∀ block ∈ blocks, block ≠ [] ∧ ∀ line ∈ block, IsPlain line) :
    ∃ page : List Block, (∀ block ∈ page, block.Safe) ∧ blocks.flatMap renderBlock = page.flatMap Block.html := by
  induction blocks with
  | nil => exact ⟨[], fun _ hnil => absurd hnil List.not_mem_nil, rfl⟩
  | cons block blocks ih =>
      rw [List.forall_mem_cons] at hblocks
      obtain ⟨first, hfirst, hhtml⟩ := renderBlock_safe hblocks.1.1 hblocks.1.2
      obtain ⟨others, hothers, hrest⟩ := ih hblocks.2
      refine ⟨first :: others, List.forall_mem_cons.mpr ⟨hfirst, hothers⟩, ?_⟩
      rw [List.flatMap_cons, List.flatMap_cons, hhtml, hrest]

/-- **What a page is made of.** For every source the output is paragraphs and lists of lines of inline constructs
that do not nest, every link goes to an allowed scheme and stays in its quotes, and deleting the tags leaves a text
in which nothing can open or close a tag or an attribute value. -/
theorem render_safe (src : String) :
    ∃ page : List Block, (∀ block ∈ page, block.Safe) ∧ (render src).toList = page.flatMap Block.html ∧
      stripTags (render src).toList = page.flatMap Block.label ∧ IsPlain (stripTags (render src).toList) := by
  have hplain := escapeHtml_plain (normalizeNewlines src.toList)
  have hblocks : ∀ block ∈ splitBlocks (escapeHtml (normalizeNewlines src.toList)),
      block ≠ [] ∧ ∀ line ∈ block, IsPlain line := fun block hblock =>
    ⟨(mem_splitBlocks hblock).1, fun line hline => hplain.mono ((mem_splitBlocks hblock).2 line hline).subset⟩
  obtain ⟨page, hsafe, hhtml⟩ := flatMap_renderBlock_safe hblocks
  have hrender : (render src).toList = page.flatMap Block.html := by
    rw [render, String.toList_ofList, hhtml]
  have hstrip : stripTags (render src).toList = page.flatMap Block.label := by
    rw [hrender]
    exact (Strips.flatMap fun block hblock => (hsafe block hblock).strips).stripTags_eq
  refine ⟨page, hsafe, hrender, hstrip, ?_⟩
  rw [hstrip]
  exact IsPlain.flatMap fun block hblock => (hsafe block hblock).label

end Pingward
