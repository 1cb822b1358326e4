import Pingward.ModelRedact

/-! What the redacted database URL still tells of the userinfo. The scanner stops at the first at sign, a URL parser at
the last of the authority, so that all of a userinfo behind its first at sign is shown. -/

namespace Url

/-- What ends the authority: a path, a query or a fragment. -/
def endsAuthority (c : Char) : Bool := c = '/' || c = '?' || c = '#'

/-- The authority at the start of what stands behind the two slashes. -/
def authority (text : List Char) : List Char := text.takeWhile (!endsAuthority ·)

structure Scheme where
  chars : List Char
  plain : ':' ∉ chars

structure Userinfo where
  chars : List Char
  plain : ∀ c ∈ chars, endsAuthority c = false

/-- The host and all that follows it. -/
structure Remainder where
  chars : List Char
  plain : '@' ∉ authority chars

def text (scheme : Scheme) (userinfo : Userinfo) (rest : Remainder) : List Char :=
  scheme.chars ++ ':' :: '/' :: '/' :: (userinfo.chars ++ '@' :: rest.chars)

theorem plain_of_all {userinfo : List Char} (hall : userinfo.all (!endsAuthority ·) = true) :
    ∀ c ∈ userinfo, endsAuthority c = false :=
  fun c hc => (Bool.not_eq_true' _).mp (List.all_eq_true.mp hall c hc)

end Url

open Url

namespace Pingward

/-- `scheme://userinfo@rest`. -/
def urlText (scheme : Scheme) (userinfo : Userinfo) (rest : Remainder) : String :=
  String.ofList (Url.text scheme userinfo rest)

/-- What follows the first at sign. -/
def behindAt : List Char → Option (List Char)
  | [] => none
  | c :: rest => if c = '@' then some rest else behindAt rest

/-- What the scanner leaves of a userinfo and the at sign at its end. -/
def shownTail (userinfo : List Char) : List Char := ((behindAt userinfo).map (· ++ ['@'])).getD []

theorem shownTail_eq_iff {u₁ u₂ : List Char} : shownTail u₁ = shownTail u₂ ↔ behindAt u₁ = behindAt u₂ := by
  refine ⟨fun htail => ?_, fun hbehind => by rw [shownTail, shownTail, hbehind]⟩
  unfold shownTail at htail
  cases h₁ : behindAt u₁ with
  | none =>
      cases h₂ : behindAt u₂ with
      | none => rfl
      | some tail₂ =>
          rw [h₁, h₂] at htail
          exact absurd htail.symm (List.concat_ne_nil '@' tail₂)
  | some tail₁ =>
      cases h₂ : behindAt u₂ with
      | none =>
          rw [h₁, h₂] at htail
          exact absurd htail (List.concat_ne_nil '@' tail₁)
      | some tail₂ =>
          rw [h₁, h₂] at htail
          exact congrArg some (List.append_cancel_right htail)

/-! ### The two scans -/

theorem findPattern_scheme {scheme : List Char} (hplain : ':' ∉ scheme) (rest : List Char) :
    findPattern "://".toList (scheme ++ ':' :: '/' :: '/' :: rest) = some scheme.length := by
  induction scheme with
  | nil => rfl
  | cons c scheme ih =>
      obtain ⟨hc, hscheme⟩ := not_or.mp (mt List.mem_cons.mpr hplain)
      have hnot : "://".toList.isPrefixOf (c :: (scheme ++ ':' :: '/' :: '/' :: rest)) = false := by
        change (':' == c && _) = false
        rw [beq_false_of_ne hc, Bool.false_and]
      rw [List.cons_append, findPattern, hnot, ih hscheme]
      rfl

/-- The scan ends at the first at sign, and leaves the rest of the userinfo. -/
theorem atPos_userinfo {userinfo : List Char} (hplain : ∀ c ∈ userinfo, endsAuthority c = false) (rest : List Char) :
    ∃ i, atPos (userinfo ++ '@' :: rest) = some i ∧
      (userinfo ++ '@' :: rest).drop (i + 1) = shownTail userinfo ++ rest := by
  induction userinfo with
  | nil => exact ⟨0, rfl, rfl⟩
  | cons c userinfo ih =>
      obtain ⟨hc, htail⟩ := List.forall_mem_cons.mp hplain
      obtain ⟨i, hpos, hdrop⟩ := ih htail
      by_cases hat : c = '@'
      · subst hat
        refine ⟨0, rfl, ?_⟩
        simp [shownTail, behindAt]
      · have hplace : ¬ (c = '/' ∨ c = '?' ∨ c = '#') := by simpa [endsAuthority, not_or, and_assoc] using hc
        refine ⟨i + 1, ?_, ?_⟩
        · rw [List.cons_append, atPos, if_neg hat, if_neg hplace, hpos, Option.map_some]
        · rw [List.cons_append, List.drop_succ_cons, hdrop, shownTail, shownTail, behindAt, if_neg hat]

/-- **The redacted URL**: the scheme, the stars, and what the userinfo holds behind its first at sign. -/
theorem redactDbUrl_urlText (scheme : Scheme) (userinfo : Userinfo) (rest : Remainder) :
    redactDbUrl (urlText scheme userinfo rest) =
      String.ofList (scheme.chars ++ "://***@".toList ++ (shownTail userinfo.chars ++ rest.chars)) := by
  obtain ⟨i, hpos, hdrop⟩ := atPos_userinfo userinfo.plain rest.chars
  have hsplit : Url.text scheme userinfo rest =
      (scheme.chars ++ "://".toList) ++ (userinfo.chars ++ '@' :: rest.chars) := by
    rw [List.append_assoc]
    rfl
  have hlength : scheme.chars.length + 3 = (scheme.chars ++ "://".toList).length := by
    rw [List.length_append]
    rfl
  have hfront : (Url.text scheme userinfo rest).take (scheme.chars.length + 3) = scheme.chars ++ "://".toList := by
    rw [hsplit, hlength, List.take_left]
  have hbehind : (Url.text scheme userinfo rest).drop (scheme.chars.length + 3) = userinfo.chars ++ '@' :: rest.chars := by
    rw [hsplit, hlength, List.drop_left]
  have hscheme : findPattern "://".toList (Url.text scheme userinfo rest) = some scheme.chars.length :=
    findPattern_scheme scheme.plain _
  have hstars : "://".toList ++ "***@".toList = "://***@".toList := by decide
  unfold redactDbUrl urlText
  simp only [String.toList_ofList, hscheme, hbehind, hpos, hfront, hdrop]
  rw [List.append_assoc scheme.chars, hstars]

/-! ### What is told -/

/-- **Two credentials are shown alike** when the same text follows their first at signs, or neither holds one. -/
theorem redactDbUrl_alike_iff (scheme : Scheme) (rest : Remainder) (u₁ u₂ : Userinfo) :
    redactDbUrl (urlText scheme u₁ rest) = redactDbUrl (urlText scheme u₂ rest) ↔
      behindAt u₁.chars = behindAt u₂.chars := by
  rw [redactDbUrl_urlText, redactDbUrl_urlText, String.ofList_inj, List.append_cancel_left_eq,
    List.append_cancel_right_eq, shownTail_eq_iff]

/-- The end of a password with an at sign is shown. -/
theorem redactDbUrl_shows_password :
    redactDbUrl "postgres://app:p@ss@db/x" = "postgres://***@ss@db/x" ∧
      ¬ ∀ (scheme : Scheme) (rest : Remainder) (u₁ u₂ : Userinfo),
        redactDbUrl (urlText scheme u₁ rest) = redactDbUrl (urlText scheme u₂ rest) := by
  refine ⟨by decide, fun halike => ?_⟩
  have hsame := halike ⟨"postgres".toList, by decide⟩ ⟨"db/x".toList, by decide⟩
    ⟨"app:p@ss".toList, plain_of_all (by decide)⟩ ⟨"app:word".toList, plain_of_all (by decide)⟩
  exact absurd hsame (by decide)

end Pingward
