import Pingward.ModelCookies
import Pingward.SecretCodec
import Pingward.TextLines

/-! What a jar reads after the session cookie of a request was replaced: the new value, whatever pairs the request came
with, as long as a pair is read as it is written. -/

namespace Pingward

/-! ### Visible ASCII -/

/-- The characters of a header line that can be read as text. -/
def Visible (s : String) : Prop := ∀ c ∈ s.toList, (32 ≤ c.toNat ∧ c.toNat < 127) ∨ c.toNat = 9

theorem Visible.append {s t : String} (hs : Visible s) (ht : Visible t) : Visible (s ++ t) := by
  intro c hc
  rw [String.toList_append] at hc
  exact (List.mem_append.mp hc).elim (hs c) (ht c)

theorem Visible.intercalate {sep : String} {parts : List String} (hsep : Visible sep)
    (hparts : ∀ part ∈ parts, Visible part) : Visible (sep.intercalate parts) := by
  induction parts with
  | nil =>
      rw [String.intercalate_nil]
      intro c hc
      cases hc
  | cons part rest ih =>
      have hpart := hparts part List.mem_cons_self
      have hrest := ih fun other hother => hparts other (List.mem_cons_of_mem _ hother)
      cases rest with
      | nil => rwa [String.intercalate_singleton]
      | cons second rest =>
          rw [String.intercalate_cons_cons]
          exact (hpart.append hsep).append hrest

theorem visible_of_toStr {value : HeaderValue} {text : String} (htext : value.toStr = some text) : Visible text := by
  unfold HeaderValue.toStr at htext
  split at htext
  · rename_i hall
    cases htext
    intro c hc
    rw [String.toList_ofList] at hc
    obtain ⟨byte, hbyte, rfl⟩ := List.mem_map.mp hc
    have hbyte := List.all_eq_true.mp hall byte hbyte
    simp only [Bool.or_eq_true, Bool.and_eq_true, decide_eq_true_eq, UInt8.le_iff_toNat_le, UInt8.lt_iff_toNat_lt,
      ← UInt8.toNat_inj] at hbyte
    rw [HexText.toNat_octetChar byte.toNat byte.toNat_lt]
    exact hbyte
  · cases htext

/-- A visible text is a header line that reads as the text. -/
theorem parse_of_visible {text : String} (hvisible : Visible text) :
    ∃ value, HeaderValue.parse text = some value ∧ value.toStr = some text := by
  have hascii : ∀ c ∈ text.toList, c.toNat < 128 := fun c hc => by
    have := hvisible c hc
    omega
  have hoctets : ∀ byte ∈ HexText.utf8 text, (32 ≤ byte.toNat ∧ byte.toNat < 127) ∨ byte.toNat = 9 := by
    intro byte hbyte
    obtain ⟨c, hc, hbyte⟩ := List.mem_flatMap.mp hbyte
    rw [HexText.utf8EncodeChar_of_ascii (hascii c hc), List.mem_singleton] at hbyte
    have hlt := hascii c hc
    rw [hbyte, UInt8.toNat_ofNat', Nat.mod_eq_of_lt (by omega)]
    exact hvisible c hc
  have hvalid : (HexText.utf8 text).all (fun byte => (32 ≤ byte && byte != 127) || byte == 9) = true := by
    rw [List.all_eq_true]
    intro byte hbyte
    have hoctet := hoctets byte hbyte
    simp only [Bool.or_eq_true, Bool.and_eq_true, decide_eq_true_eq, bne_iff_ne, ne_eq, beq_iff_eq,
      UInt8.le_iff_toNat_le, ← UInt8.toNat_inj, UInt8.reduceToNat]
    omega
  have hread : (HexText.utf8 text).all (fun byte => (32 ≤ byte && byte < 127) || byte = 9) = true := by
    rw [List.all_eq_true]
    intro byte hbyte
    have hoctet := hoctets byte hbyte
    simp only [Bool.or_eq_true, Bool.and_eq_true, decide_eq_true_eq, UInt8.le_iff_toNat_le, UInt8.lt_iff_toNat_lt,
      ← UInt8.toNat_inj, UInt8.reduceToNat]
    omega
  refine ⟨_, by rw [HeaderValue.parse, dif_pos hvalid], ?_⟩
  rw [HeaderValue.toStr, if_pos hread]
  have hchars := HexText.octetChars_of_ascii hascii
  rw [HexText.octetChars] at hchars
  rw [hchars, String.ofList_toList]

/-! ### Pieces and pairs -/

theorem mem_of_mem_trim {s : String} {c : Char} (hc : c ∈ (trim s).toList) : c ∈ s.toList := by
  rw [trim, String.toList_ofList, List.mem_reverse] at hc
  have hc := (List.dropWhile_suffix _).mem hc
  rw [List.mem_reverse] at hc
  exact (List.dropWhile_suffix _).mem hc

theorem trim_padded (s : String) : trim (" " ++ s) = trim s := by
  have hspace : isWhiteSpace ' ' = true := by decide
  have htext : (" " ++ s).toList = ' ' :: s.toList := by simp
  rw [trim, htext, List.dropWhile_cons_of_pos hspace]
  rfl

/-- A piece of a header line: visible, and without a semicolon. -/
def PlainPiece (piece : String) : Prop := Visible piece ∧ ';' ∉ piece.toList

theorem PlainPiece.trim {piece : String} (hplain : PlainPiece piece) : PlainPiece (trim piece) :=
  ⟨fun c hc => hplain.1 c (mem_of_mem_trim hc), fun hc => hplain.2 (mem_of_mem_trim hc)⟩

theorem plainPiece_of_mem {lines : List HeaderValue} {piece : String} (hpiece : piece ∈ cookiePieces lines) :
    PlainPiece piece := by
  obtain ⟨line, hline, hpiece⟩ := List.mem_flatMap.mp hpiece
  obtain ⟨value, -, hline⟩ := List.mem_filterMap.mp hline
  obtain ⟨part, hpart, rfl⟩ := List.mem_map.mp hpiece
  constructor
  · intro c hc
    rw [String.toList_ofList] at hc
    exact visible_of_toStr hline c ((TextLines.infix_of_mem_splitOn hpart).mem hc)
  · rw [String.toList_ofList]
    exact TextLines.notMem_of_mem_splitOn hpart

/-- The pieces of a line that was put together from pairs: the pairs, all but the first behind a space. -/
theorem cookiePieces_intercalate {value : HeaderValue} {first : String} {pairs : List String}
    (htext : value.toStr = some ("; ".intercalate (first :: pairs))) (hplain : ∀ pair ∈ first :: pairs, PlainPiece pair) :
    cookiePieces [value] = first :: pairs.map (" " ++ ·) := by
  have hsplit : (("; ".intercalate (first :: pairs)).toList.splitOn ';') =
      first.toList :: (pairs.map String.toList).map ([' '] ++ ·) := by
    rw [String.toList_intercalate, List.map_cons]
    apply TextLines.splitOn_intercalate_padded (by decide)
    intro part hpart
    rw [← List.map_cons] at hpart
    obtain ⟨pair, hpair, rfl⟩ := List.mem_map.mp hpart
    exact (hplain pair hpair).2
  rw [cookiePieces, List.filterMap_cons_some htext, List.filterMap_nil, List.flatMap_singleton, hsplit, List.map_cons,
    String.ofList_toList, List.map_map, List.map_map]
  refine congrArg (first :: ·) (List.map_congr_left fun pair _ => ?_)
  apply String.toList_inj.mp
  simp

/-! ### The session cookie -/

/-- The characters of a hyphenated UUID. -/
def uuidChars : List Char := "0123456789abcdef-".toList

def UuidText (id : String) : Prop := ∀ c ∈ id.toList, c ∈ uuidChars

/-- An ASCII letter or digit, a hyphen, a dot or an underscore: no part of a `Cookie` line gives a meaning to it. -/
def cookieChar (c : Char) : Bool :=
  let n := c.toNat
  (48 ≤ n && n ≤ 57) || (65 ≤ n && n ≤ 90) || (97 ≤ n && n ≤ 122) || n == 45 || n == 46 || n == 95

theorem cookieChar_plain {c : Char} (hc : cookieChar c = true) : (32 < c.toNat ∧ c.toNat < 127) ∧ c ≠ ';' ∧ c ≠ '=' := by
  refine ⟨?_, ?_, ?_⟩
  · simp only [cookieChar, Bool.or_eq_true, Bool.and_eq_true, decide_eq_true_eq, beq_iff_eq] at hc
    omega
  · rintro rfl
    exact absurd hc (by decide)
  · rintro rfl
    exact absurd hc (by decide)

theorem cookieChar_space {c : Char} (hc : cookieChar c = true) : isWhiteSpace c = false := by
  have hall : ∀ n < 127, 32 < n → isWhiteSpace (Char.ofNat n) = false := by decide
  have hcode := (cookieChar_plain hc).1
  rw [← Char.ofNat_toNat c]
  exact hall c.toNat hcode.2 hcode.1

/-- What the cookie crate documents: white space around a pair does not count, a pair of plain characters is read as it
is written, and a jar keeps the one value that came under a name. -/
structure CookieCrates.Documented (C : CookieCrates) : Prop where
  trimmed : ∀ piece, C.parseEncoded piece = C.parseEncoded (trim piece)
  plain : ∀ name value, name ≠ "" → (∀ c ∈ name.toList ++ value.toList, cookieChar c = true) →
    C.parseEncoded (name ++ "=" ++ value) = some (name, value)
  single : ∀ value, C.keep value [] = value

/-- Every pair of the lines is canonical: the jar reads it as the name and the value that stand in it. -/
def CanonicalCookies (C : CookieCrates) (lines : List HeaderValue) : Prop :=
  ∀ piece ∈ cookiePieces lines, trim piece = "" ∨
    ∃ name value, C.parseEncoded piece = some (name, value) ∧ trim piece = name ++ "=" ++ value

section Replaced

variable {C : CookieCrates} {config : CookieConfig}

theorem cookieChar_sessionName (config : CookieConfig) : ∀ c ∈ config.sessionName.toList, cookieChar c = true := by
  unfold CookieConfig.sessionName sessionCookieName
  cases config.cookieSecure
  · exact List.all_eq_true.mp (by decide)
  · exact List.all_eq_true.mp (by decide)

theorem sessionName_ne (config : CookieConfig) : config.sessionName ≠ "" := by
  unfold CookieConfig.sessionName sessionCookieName
  cases config.cookieSecure <;> decide

theorem cookieChar_signSession {hmac : List UInt8 → List UInt8 → List UInt8} {secret : List UInt8} {id : String}
    (hid : UuidText id) : ∀ c ∈ (signSession hmac secret id).toList, cookieChar c = true := by
  intro c hc
  simp only [signSession, sign, String.toList_append, String.toList_ofList, List.mem_append, List.mem_singleton] at hc
  have hhex : ∀ digit < 16, cookieChar digit.digitChar = true := by decide
  have huuid : ∀ c ∈ uuidChars, cookieChar c = true := List.all_eq_true.mp (by decide)
  rcases hc with (hc | rfl) | hc
  · exact huuid c (hid c hc)
  · decide
  · rw [hexEncode, String.toList_ofList] at hc
    obtain ⟨digit, hdigit, rfl⟩ := HexText.encode_ascii hc
    exact hhex digit hdigit

/-- A cookie of plain characters. -/
structure PlainCookie (cookie : Cookie) : Prop where
  named : cookie.name ≠ ""
  chars : ∀ c ∈ cookie.name.toList ++ cookie.value.toList, cookieChar c = true

theorem plainCookie_session {hmac : List UInt8 → List UInt8 → List UInt8} {secret : List UInt8} {id : String}
    (hid : UuidText id) : PlainCookie (sessionCookie config (signSession hmac secret id)) where
  named := sessionName_ne config
  chars := by
    intro c hc
    exact (List.mem_append.mp hc).elim (cookieChar_sessionName config c) (cookieChar_signSession hid c)

theorem PlainCookie.piece {cookie : Cookie} (hplain : PlainCookie cookie) : PlainPiece cookie.pair := by
  have hchar : ∀ c ∈ cookie.pair.toList, c = '=' ∨ cookieChar c = true := by
    intro c hc
    simp only [Cookie.pair, String.toList_append, List.mem_append] at hc
    rcases hc with (hc | hc) | hc
    · exact Or.inr (hplain.chars c (List.mem_append_left _ hc))
    · exact Or.inl (by simpa using hc)
    · exact Or.inr (hplain.chars c (List.mem_append_right _ hc))
  constructor
  · intro c hc
    rcases hchar c hc with rfl | hc
    · exact Or.inl (by decide)
    · have hcode := (cookieChar_plain hc).1
      exact Or.inl (by omega)
  · intro hc
    rcases hchar _ hc with heq | hc
    · exact absurd heq (by decide)
    · exact (cookieChar_plain hc).2.1 rfl

theorem PlainCookie.trim {cookie : Cookie} (hplain : PlainCookie cookie) : Pingward.trim cookie.pair = cookie.pair := by
  apply trim_eq_self
  intro c hc
  simp only [Cookie.pair, String.toList_append, List.mem_append] at hc
  rcases hc with (hc | hc) | hc
  · exact cookieChar_space (hplain.chars c (List.mem_append_left _ hc))
  · rw [show c = '=' by simpa using hc]
    decide
  · exact cookieChar_space (hplain.chars c (List.mem_append_right _ hc))

/-- The kept pairs and the new one, in one line. -/
theorem replaceRequestCookie_pieces (req : HttpRequest) {cookie : Cookie} (hplain : PlainCookie cookie) :
    ∃ value, replaceRequestCookie req cookie = { req with cookies := [value] } ∧
      ∃ first pairs, keptPairs req.cookies cookie.name ++ [cookie.pair] = first :: pairs ∧
        cookiePieces [value] = first :: pairs.map (" " ++ ·) := by
  have hpieces : ∀ pair ∈ keptPairs req.cookies cookie.name ++ [cookie.pair], PlainPiece pair := by
    intro pair hpair
    rcases List.mem_append.mp hpair with hkept | hnew
    · obtain ⟨piece, hpiece, rfl⟩ := List.mem_map.mp (List.mem_filter.mp hkept).1
      exact (plainPiece_of_mem hpiece).trim
    · rw [List.mem_singleton.mp hnew]
      exact hplain.piece
  have hsep : Visible "; " := by
    unfold Visible
    exact List.forall_iff_forall_mem.mp ⟨by decide, by decide⟩
  obtain ⟨value, hparse, htext⟩ := parse_of_visible (hsep.intercalate fun pair hpair => (hpieces pair hpair).1)
  obtain ⟨first, pairs, hlist⟩ := List.exists_cons_of_ne_nil
    (show keptPairs req.cookies cookie.name ++ [cookie.pair] ≠ [] by simp)
  refine ⟨value, by rw [replaceRequestCookie, hparse], first, pairs, hlist, ?_⟩
  rw [hlist] at htext hpieces
  exact cookiePieces_intercalate htext hpieces

/-- No pair that stays has the name, as a canonical pair of the name begins with it and an equals sign. -/
theorem keptPairs_other (hC : C.Documented) {lines : List HeaderValue} (hcanonical : CanonicalCookies C lines)
    {name pair read value : String} (hpair : pair ∈ keptPairs lines name)
    (hread : C.parseEncoded pair = some (read, value)) : read ≠ name := by
  obtain ⟨hmem, hkeep⟩ := List.mem_filter.mp hpair
  obtain ⟨piece, hpiece, rfl⟩ := List.mem_map.mp hmem
  simp only [ne_eq, decide_eq_true_eq] at hkeep
  rcases hcanonical piece hpiece with hempty | ⟨name', value', hparse, htext⟩
  · exact absurd hempty hkeep.1
  · rw [← hC.trimmed, hparse] at hread
    cases hread
    rintro rfl
    apply hkeep.2
    simp only [htext, String.toList_append]
    exact List.prefix_append _ _

theorem canonicalCookies_replace (hC : C.Documented) {req : HttpRequest} (hcanonical : CanonicalCookies C req.cookies)
    {cookie : Cookie} (hplain : PlainCookie cookie) : CanonicalCookies C (replaceRequestCookie req cookie).cookies := by
  obtain ⟨line, hreplace, first, pairs, hlist, hpieces⟩ := replaceRequestCookie_pieces req hplain
  have hpair : ∀ pair ∈ first :: pairs, trim pair = pair ∧
      ∃ name value, C.parseEncoded pair = some (name, value) ∧ pair = name ++ "=" ++ value := by
    intro pair hpair
    rw [← hlist] at hpair
    rcases List.mem_append.mp hpair with hkept | hnew
    · obtain ⟨hmem, hkeep⟩ := List.mem_filter.mp hkept
      obtain ⟨piece, hpiece, rfl⟩ := List.mem_map.mp hmem
      simp only [ne_eq, decide_eq_true_eq] at hkeep
      rcases hcanonical piece hpiece with hempty | ⟨name, value, hparse, htext⟩
      · exact absurd hempty hkeep.1
      · exact ⟨trim_trim piece, name, value, by rw [← hC.trimmed, hparse], htext⟩
    · rw [List.mem_singleton.mp hnew]
      exact ⟨hplain.trim, _, _, hC.plain _ _ hplain.named hplain.chars, rfl⟩
  rw [hreplace]
  intro piece hpiece
  rw [hpieces] at hpiece
  have hread : ∃ pair ∈ first :: pairs, trim piece = trim pair := by
    rcases List.mem_cons.mp hpiece with rfl | hpiece
    · exact ⟨piece, List.mem_cons_self, rfl⟩
    · obtain ⟨pair, hmem, rfl⟩ := List.mem_map.mp hpiece
      exact ⟨pair, List.mem_cons_of_mem _ hmem, trim_padded pair⟩
  obtain ⟨pair, hmem, htrim⟩ := hread
  obtain ⟨hself, name, value, hparse, htext⟩ := hpair pair hmem
  refine Or.inr ⟨name, value, ?_, by rw [htrim, hself, htext]⟩
  rw [hC.trimmed, htrim, hself, hparse]

/-- **The jar reads the new value** after the cookie of a name was replaced. -/
theorem cookieJar_replace (hC : C.Documented) {req : HttpRequest} (hcanonical : CanonicalCookies C req.cookies)
    {cookie : Cookie} (hplain : PlainCookie cookie) :
    cookieJar C (replaceRequestCookie req cookie).cookies cookie.name = some cookie.value := by
  obtain ⟨value, hreplace, first, pairs, hlist, hpieces⟩ := replaceRequestCookie_pieces req hplain
  -- the space in front of a pair is not read
  have hread : (cookiePieces [value]).filterMap C.parseEncoded =
      (keptPairs req.cookies cookie.name ++ [cookie.pair]).filterMap C.parseEncoded := by
    rw [hpieces, hlist, List.filterMap_cons, List.filterMap_cons, List.filterMap_map]
    have hpad : ∀ pair ∈ pairs, (C.parseEncoded ∘ (" " ++ ·)) pair = C.parseEncoded pair := by
      intro pair _
      rw [Function.comp_apply, hC.trimmed, trim_padded, ← hC.trimmed]
    rw [List.filterMap_congr hpad]
  have hkept : ((keptPairs req.cookies cookie.name).filterMap C.parseEncoded).filter (·.1 = cookie.name) = [] := by
    rw [List.filter_eq_nil_iff]
    rintro ⟨read, other⟩ hmem
    obtain ⟨pair, hpair, hparse⟩ := List.mem_filterMap.mp hmem
    simpa using keptPairs_other hC hcanonical hpair hparse
  have hnew : C.parseEncoded cookie.pair = some (cookie.name, cookie.value) :=
    hC.plain _ _ hplain.named hplain.chars
  rw [hreplace, cookieJar, hread, List.filterMap_append, List.filter_append, hkept, List.filterMap_cons_some hnew]
  simp [hC.single]

/-- A session cookie put into a request is the session of the request. -/
theorem requestSessionId_replace (hC : C.Documented) {req : HttpRequest} (hcanonical : CanonicalCookies C req.cookies)
    {id : String} (hid : UuidText id) :
    requestSessionId C config
      (replaceRequestCookie req (sessionCookie config (signSession C.hmac config.secret id))) = some id := by
  have hplain : PlainCookie (sessionCookie config (signSession C.hmac config.secret id)) := plainCookie_session hid
  have hjar := cookieJar_replace hC hcanonical hplain
  rw [requestSessionId, sessionIdFromJar, show config.sessionName =
    (sessionCookie config (signSession C.hmac config.secret id)).name from rfl, hjar]
  exact verify_sign sessionDomain id

theorem replaceRequestCookie_method (req : HttpRequest) (cookie : Cookie) :
    (replaceRequestCookie req cookie).method = req.method := by
  unfold replaceRequestCookie
  split <;> rfl

theorem submittedToken_replace (req : HttpRequest) (cookie : Cookie) :
    submittedToken (replaceRequestCookie req cookie) = submittedToken req := by
  unfold replaceRequestCookie
  split <;> rfl

/-- The `Set-Cookie` line of a session cookie can be sent. -/
theorem sessionCookie_sent {hmac : List UInt8 → List UInt8 → List UInt8} {secret : List UInt8} {id : String}
    (hid : UuidText id) :
    (sessionCookie config (signSession hmac secret id)).isSendable = true := by
  have hplain : PlainCookie (sessionCookie config (signSession hmac secret id)) := plainCookie_session hid
  have hpair := hplain.piece.1
  have hattributes : Visible "; HttpOnly; SameSite=Lax; Path=/" ∧ Visible "; HttpOnly; SameSite=Lax; Secure; Path=/" :=
    ⟨List.forall_iff_forall_mem.mp (by decide), List.forall_iff_forall_mem.mp (by decide)⟩
  have hvisible : Visible (sessionCookie config (signSession hmac secret id)).toText := by
    cases hsecure : config.cookieSecure with
    | false =>
        have htext := hpair.append hattributes.1
        simpa [Cookie.toText, sessionCookie, SameSite.asStr, String.append_assoc, hsecure] using htext
    | true =>
        have htext := hpair.append hattributes.2
        simpa [Cookie.toText, sessionCookie, SameSite.asStr, String.append_assoc, hsecure] using htext
  obtain ⟨value, hparse, -⟩ := parse_of_visible hvisible
  rw [Cookie.isSendable, hparse]
  rfl

end Replaced

end Pingward
