import Mathlib.Data.List.DropRight
import Pingward.ModelText

/-! `src/markdown.rs`: the markdown subset of the descriptions. A slice is a list of characters, and an index
counts characters where the source counts bytes; every index of the source is at a character boundary. -/

namespace Pingward

/-- `str::starts_with`. -/
def startsWith (pattern : String) (text : List Char) : Bool := pattern.toList.isPrefixOf text

/-- `str::find`: where the pattern first occurs. -/
def findText (pattern : String) : List Char → Option Nat
  | [] => if startsWith pattern [] then some 0 else none
  | c :: rest => if startsWith pattern (c :: rest) then some 0 else (findText pattern rest).map (· + 1)

/-- `replace("\r\n", "\n")`. -/
def replaceCrlf : List Char → List Char
  | '\r' :: '\n' :: rest => '\n' :: replaceCrlf rest
  | c :: rest => c :: replaceCrlf rest
  | [] => []

def normalizeNewlines (s : List Char) : List Char := (replaceCrlf s).map fun c => if c = '\r' then '\n' else c

def escapeChar (c : Char) : List Char :=
  if c = '&' then "&amp;".toList
  else if c = '<' then "&lt;".toList
  else if c = '>' then "&gt;".toList
  else if c = '"' then "&quot;".toList
  else if c = '\'' then "&#39;".toList
  else [c]

def escapeHtml (s : List Char) : List Char := s.flatMap escapeChar

/-- `line.trim().is_empty()`. -/
def isBlank (line : List Char) : Bool := line.all isWhiteSpace

/-- One line of `split_blocks`: a blank one ends the current block, if there is one. -/
def splitBlocksLine (state : List (List (List Char)) × List (List Char)) (line : List Char) :
    List (List (List Char)) × List (List Char) :=
  if isBlank line then
    if state.2.isEmpty then state else (state.1 ++ [state.2], [])
  else (state.1, state.2 ++ [line])

/-- Split on blank lines. -/
def splitBlocks (s : List Char) : List (List (List Char)) :=
  let state := (s.splitOn '\n').foldl splitBlocksLine ([], [])
  if state.2.isEmpty then state.1 else state.1 ++ [state.2]

def trimStart (line : List Char) : List Char := line.dropWhile isWhiteSpace

def isListBlock (block : List (List Char)) : Bool := block.all fun line => startsWith "- " (trimStart line)

/-- The only schemes that become a live `<a href>`. -/
def isAllowedScheme (url : List Char) : Bool :=
  startsWith "http://" url || startsWith "https://" url || startsWith "mailto:" url

/-! ### Inline constructs

A matcher gives what it consumed and what it rendered. -/

/-- The formats of the tags around a content. -/
def tagged (opening content closing : List Char) : List Char := opening ++ content ++ closing

def matchCode (rest : List Char) : Option (Nat × List Char) :=
  let after := rest.drop 1
  (findText "`" after).map fun p => (1 + p + 1, tagged "<code>".toList (after.take p) "</code>".toList)

def matchBold (rest : List Char) : Option (Nat × List Char) :=
  let after := rest.drop 2
  (findText "**" after).map fun p => (2 + p + 2, tagged "<strong>".toList (after.take p) "</strong>".toList)

def matchItalic (rest : List Char) : Option (Nat × List Char) :=
  let after := rest.drop 1
  (findText "*" after).map fun p => (1 + p + 1, tagged "<em>".toList (after.take p) "</em>".toList)

/-- `<a href="{url}" rel="noopener noreferrer">{text}</a>`. -/
def anchorTag (url text : List Char) : List Char :=
  tagged (tagged "<a href=\"".toList url "\" rel=\"noopener noreferrer\">".toList) text "</a>".toList

/-- `[text](url)`, or literal text for a scheme that is not allowed. -/
def matchLink (rest : List Char) : Option (Nat × List Char) := do
  let afterBracket := rest.drop 1
  let closeIdx ← findText "]" afterBracket
  let linkText := afterBracket.take closeIdx
  let afterCloseBracket := afterBracket.drop (closeIdx + 1)
  if startsWith "(" afterCloseBracket then
    let afterParen := afterCloseBracket.drop 1
    let parenClose ← findText ")" afterParen
    let url := afterParen.take parenClose
    let consumed := 1 + closeIdx + 1 + 1 + parenClose + 1
    if isAllowedScheme url then some (consumed, anchorTag url linkText)
    else some (consumed, tagged "[".toList linkText "](".toList ++ url ++ ")".toList)
  else none

def trimChars : List Char := ['.', ',', ';', ':', '!', '?', ')']

/-- A bare URL runs to the next white space, less its trailing punctuation. -/
def matchAutolink (rest : List Char) : Nat × List Char :=
  let run := rest.takeWhile fun c => !isWhiteSpace c
  let url := run.rdropWhile fun c => trimChars.contains c
  let trailing := run.drop url.length
  if startsWith "http://" url || startsWith "https://" url then (run.length, anchorTag url url ++ trailing)
  else (run.length, run)

/-- A literal character. -/
def literalChar (rest : List Char) : Nat × List Char := (1, rest.take 1)

/-- One turn of the loop of `render_inline`: what is consumed of the text that is left, and what is pushed. An
unclosed `**` is literal. -/
def inlineStep (rest : List Char) : Nat × List Char :=
  if startsWith "`" rest then (matchCode rest).getD (literalChar rest)
  else if startsWith "**" rest then (matchBold rest).getD (2, "**".toList)
  else if startsWith "*" rest then (matchItalic rest).getD (literalChar rest)
  else if startsWith "[" rest then (matchLink rest).getD (literalChar rest)
  else if startsWith "http://" rest || startsWith "https://" rest then matchAutolink rest
  else literalChar rest

theorem matchLink_eq_some {rest : List Char} {matched : Nat × List Char} (hlink : matchLink rest = some matched) :
    ∃ closeIdx parenClose, findText "]" (rest.drop 1) = some closeIdx ∧
      startsWith "(" ((rest.drop 1).drop (closeIdx + 1)) = true ∧
      findText ")" (((rest.drop 1).drop (closeIdx + 1)).drop 1) = some parenClose ∧
      matched.1 = 1 + closeIdx + 1 + 1 + parenClose + 1 ∧
      matched.2 =
        let linkText := (rest.drop 1).take closeIdx
        let url := (((rest.drop 1).drop (closeIdx + 1)).drop 1).take parenClose
        if isAllowedScheme url then anchorTag url linkText
        else tagged "[".toList linkText "](".toList ++ url ++ ")".toList := by
  unfold matchLink at hlink
  obtain ⟨closeIdx, hclose, hlink⟩ := Option.bind_eq_some_iff.mp hlink
  refine ⟨closeIdx, ?_⟩
  dsimp only at hlink ⊢
  split at hlink
  · rename_i hparen
    obtain ⟨parenClose, hfound, hlink⟩ := Option.bind_eq_some_iff.mp hlink
    refine ⟨parenClose, hclose, hparen, hfound, ?_⟩
    split at hlink
    · rename_i hallowed
      rw [if_pos hallowed]
      cases hlink
      exact ⟨rfl, rfl⟩
    · rename_i hallowed
      rw [if_neg hallowed]
      cases hlink
      exact ⟨rfl, rfl⟩
  · cases hlink

theorem startsWith_cons {pattern : Char} (text : List Char) {c : Char} {rest : List Char}
    (hstarts : startsWith (String.ofList (pattern :: text)) (c :: rest) = true) : pattern = c := by
  rw [startsWith, String.toList_ofList, List.isPrefixOf_cons_cons, Bool.and_eq_true, beq_iff_eq] at hstarts
  exact hstarts.1

theorem matchAutolink_pos {c : Char} {rest : List Char} (hc : isWhiteSpace c = false) :
    1 ≤ (matchAutolink (c :: rest)).1 := by
  unfold matchAutolink
  rw [List.takeWhile_cons_of_pos (by rw [hc]; rfl)]
  dsimp only
  split
  · exact Nat.le_add_left 1 _
  · exact Nat.le_add_left 1 _

/-- Every turn consumes something. -/
theorem inlineStep_pos (c : Char) (rest : List Char) : 1 ≤ (inlineStep (c :: rest)).1 := by
  have hmatched (found : Option (Nat × List Char)) (fallback : Nat × List Char) (hfallback : 1 ≤ fallback.1)
      (hfound : ∀ matched, found = some matched → 1 ≤ matched.1) : 1 ≤ (found.getD fallback).1 := by
    cases found with
    | none => exact hfallback
    | some matched => exact hfound matched rfl
  unfold inlineStep
  split
  · refine hmatched _ _ le_rfl fun matched hcode => ?_
    obtain ⟨p, _, rfl⟩ := Option.map_eq_some_iff.mp hcode
    exact Nat.le_add_left 1 _
  split
  · refine hmatched _ _ (by decide) fun matched hbold => ?_
    obtain ⟨p, _, rfl⟩ := Option.map_eq_some_iff.mp hbold
    exact (by decide : 1 ≤ 2).trans (Nat.le_add_left 2 _)
  split
  · refine hmatched _ _ le_rfl fun matched hitalic => ?_
    obtain ⟨p, _, rfl⟩ := Option.map_eq_some_iff.mp hitalic
    exact Nat.le_add_left 1 _
  split
  · refine hmatched _ _ le_rfl fun matched hlink => ?_
    obtain ⟨_, _, _, _, _, hconsumed, _⟩ := matchLink_eq_some hlink
    rw [hconsumed]
    exact Nat.le_add_left 1 _
  split
  · rename_i hscheme
    apply matchAutolink_pos
    have hc : 'h' = c := by
      rcases Bool.or_eq_true_iff.mp hscheme with hhttp | hhttps
      · exact startsWith_cons "ttp://".toList hhttp
      · exact startsWith_cons "ttps://".toList hhttps
    rw [← hc]
    decide
  · exact le_rfl

/-- The loop of `render_inline`: one left-to-right pass, whose output is never scanned again. -/
def renderInline (rest : List Char) : List Char :=
  match rest with
  | [] => []
  | c :: tail =>
      (inlineStep (c :: tail)).2 ++ renderInline ((c :: tail).drop (inlineStep (c :: tail)).1)
termination_by rest.length
decreasing_by
  have hpos := inlineStep_pos c tail
  rw [List.length_drop, List.length_cons]
  omega

/-! ### Blocks -/

/-- `strip_prefix("- ").unwrap_or(trimmed)`. -/
def listContent (line : List Char) : List Char :=
  let trimmed := trimStart line
  if startsWith "- " trimmed then trimmed.drop 2 else trimmed

def renderBlock (block : List (List Char)) : List Char :=
  if isListBlock block then
    tagged "<ul>".toList
      (block.flatMap fun line => tagged "<li>".toList (renderInline (listContent line)) "</li>".toList) "</ul>".toList
  else tagged "<p>".toList ("<br>".toList.intercalate (block.map renderInline)) "</p>".toList

/-- Render user markdown to the whitelisted subset of HTML. -/
def render (src : String) : String :=
  String.ofList ((splitBlocks (escapeHtml (normalizeNewlines src.toList))).flatMap renderBlock)

end Pingward
