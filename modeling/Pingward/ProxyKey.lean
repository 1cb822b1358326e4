import Pingward.ProxyTrust

/-! The key of a login attempt behind a proxy. The proxy writes the hop last, so that nothing a client writes in
front of it is read; but a line is read only when all of it is visible ASCII, the client's part included. -/

open Address

namespace Pingward

/-! ### What a proxy forwards -/

theorem HeaderValue.ext {value other : HeaderValue} (hbytes : value.bytes = other.bytes) : value = other := by
  cases value
  cases other
  cases hbytes
  rfl

/-- A client's line with the hop appended by the proxy. -/
def HeaderValue.appendHop (client hop : HeaderValue) : HeaderValue where
  bytes := client.bytes ++ [44, 32] ++ hop.bytes
  valid := by
    intro byte hbyte
    simp only [List.mem_append, List.mem_cons, List.not_mem_nil, or_false] at hbyte
    rcases hbyte with (hclient | rfl | rfl) | hhop
    · exact client.valid byte hclient
    · decide
    · decide
    · exact hop.valid byte hhop

/-- The lines the proxy sends on: it appends the hop to the client's last line, or adds a line of its own. -/
def proxied (before : List HeaderValue) (client : Option HeaderValue) (hop : HeaderValue) : List HeaderValue :=
  match client with
  | some client => before ++ [client.appendHop hop]
  | none => before ++ [hop]

/-- The text of a hop. -/
def HeaderValue.Names (hop : HeaderValue) (address : IpAddr) : Prop :=
  ∃ text, hop.toStr = some text ∧ parseIpAddr text = some address

/-! ### The last hop -/

theorem HeaderValue.toStr_eq_some {value : HeaderValue} {text : String} (htext : value.toStr = some text) :
    text = String.ofList (value.bytes.map fun byte => Char.ofNat byte.toNat) := by
  unfold HeaderValue.toStr at htext
  split at htext
  · exact (Option.some.inj htext).symm
  · cases htext

theorem HeaderValue.appendHop_toStr {client hop : HeaderValue} {text : String} (htext : hop.toStr = some text) :
    (client.appendHop hop).toStr = client.toStr.map fun raw => raw ++ ", " ++ text := by
  have hhop : hop.bytes.all (fun byte => (32 ≤ byte && byte < 127) || byte = 9) = true := by
    unfold HeaderValue.toStr at htext
    split at htext
    · assumption
    · cases htext
  have hnames := HeaderValue.toStr_eq_some htext
  unfold HeaderValue.toStr HeaderValue.appendHop
  dsimp only
  rw [List.all_append, List.all_append, hhop]
  split
  · rename_i hall
    simp only [Bool.and_true, Bool.and_eq_true] at hall
    rw [if_pos hall.1, Option.map_some, hnames, Option.some.injEq]
    apply String.toList_inj.mp
    simp
  · rename_i hall
    rw [if_neg, Option.map_none]
    intro hclient
    apply hall
    rw [hclient]
    decide

theorem isAddressChar_ascii {c : Char} (hc : isAddressChar c = true) : c.toNat < 128 := by
  unfold isAddressChar at hc
  simp only [Bool.or_eq_true, decide_eq_true_eq] at hc
  rcases hc with (hdigit | rfl) | rfl
  · exact HexText.digitOf_ascii hdigit
  · decide
  · decide

theorem isAddressChar_plain_ascii : ∀ n < 128, isAddressChar (Char.ofNat n) = true →
    isWhiteSpace (Char.ofNat n) = false ∧ Char.ofNat n ≠ ',' := by
  decide

/-- No character of an address is white space or a comma. -/
theorem isAddressChar_plain {c : Char} (hc : isAddressChar c = true) : isWhiteSpace c = false ∧ c ≠ ',' := by
  have hascii := isAddressChar_plain_ascii c.toNat (isAddressChar_ascii hc)
  rw [Char.ofNat_toNat] at hascii
  exact hascii hc

/-- A text without white space, behind one blank, is what trimming leaves. -/
theorem trim_of_plain {text : String} (hplain : ∀ c ∈ text.toList, isWhiteSpace c = false) (blanks : List Char)
    (hblanks : ∀ c ∈ blanks, isWhiteSpace c = true) : trim (String.ofList (blanks ++ text.toList)) = text := by
  have hdrop {chars : List Char} (hchars : ∀ c ∈ chars, isWhiteSpace c = false) : chars.dropWhile isWhiteSpace = chars := by
    cases chars with
    | nil => rfl
    | cons c rest => exact List.dropWhile_cons_of_neg (by rw [hchars c List.mem_cons_self]; exact Bool.false_ne_true)
  rw [trim, String.toList_ofList, List.dropWhile_append_of_pos hblanks, hdrop hplain, hdrop, List.reverse_reverse,
    String.ofList_toList]
  exact fun c hc => hplain c (List.mem_reverse.mp hc)

theorem lastItem_append {text : String} (hplain : ∀ c ∈ text.toList, c ≠ ',') (raw : String) :
    lastItem (raw ++ ", " ++ text) = String.ofList ([' '] ++ text.toList) := by
  have htext : (raw ++ ", " ++ text).toList.reverse = (text.toList.reverse ++ [' ']) ++ ',' :: raw.toList.reverse := by
    simp
  have hne : ∀ c ∈ text.toList.reverse ++ [' '], decide (c ≠ ',') = true := by
    intro c hc
    rw [List.mem_append, List.mem_reverse, List.mem_singleton] at hc
    rcases hc with hc | rfl
    · exact decide_eq_true (hplain c hc)
    · decide
  rw [lastItem, htext, List.takeWhile_append_of_pos hne, List.takeWhile_cons_of_neg (by decide), List.append_nil,
    List.reverse_append, List.reverse_reverse]
  rfl

theorem lastItem_of_plain {text : String} (hplain : ∀ c ∈ text.toList, c ≠ ',') : lastItem text = text := by
  have hne : ∀ c ∈ text.toList.reverse, decide (c ≠ ',') = true := by
    intro c hc
    exact decide_eq_true (hplain c (List.mem_reverse.mp hc))
  rw [lastItem, List.takeWhile_eq_self_iff.mpr hne, List.reverse_reverse, String.ofList_toList]

section Key

variable {before : List HeaderValue} {client : Option HeaderValue} {hop : HeaderValue} {address peer : IpAddr}
  {trusted : List String}

/-- The hop that is read: the proxy's, unless a client wrote something else than visible ASCII in front of it. -/
theorem forwardedHop_proxied (hnames : hop.Names address) :
    forwardedHop (proxied before client hop) =
      if ∀ line ∈ client, line.toStr.isSome = true then some address.toCanonical else none := by
  obtain ⟨text, htext, hparse⟩ := hnames
  have hchars := List.all_eq_true.mp (parseIpAddr_chars hparse)
  have hspace : ∀ c ∈ text.toList, isWhiteSpace c = false := fun c hc => (isAddressChar_plain (hchars c hc)).1
  have hcomma : ∀ c ∈ text.toList, c ≠ ',' := fun c hc => (isAddressChar_plain (hchars c hc)).2
  cases client with
  | none =>
      have htrim : trim text = text := by
        have hself := trim_of_plain hspace [] (by simp)
        rwa [List.nil_append, String.ofList_toList] at hself
      unfold forwardedHop proxied
      rw [if_pos (by simp), List.getLast?_concat]
      simp only [Option.bind_eq_bind, Option.bind_some, htext, lastItem_of_plain hcomma, htrim, hparse]
  | some client =>
      have htrim (raw : String) : trim (lastItem (raw ++ ", " ++ text)) = text := by
        rw [lastItem_append hcomma]
        exact trim_of_plain hspace _ (by simp; decide)
      unfold forwardedHop proxied
      rw [List.getLast?_concat]
      simp only [Option.bind_eq_bind, Option.bind_some, HeaderValue.appendHop_toStr htext]
      cases hclient : client.toStr with
      | none => simp [hclient]
      | some raw =>
          simp only [Option.map_some, Option.bind_some, htrim, hparse]
          simp [hclient]

/-- **Exactly when the key is the hop.** Behind a trusted proxy the key is the hop just when the client's part of the
last line is visible ASCII, or the hop is the proxy itself; a peer that is not trusted is its own key. -/
theorem rate_limit_key_iff (before : List HeaderValue) (client : Option HeaderValue) (peer : IpAddr)
    (trusted : List String) (hnames : hop.Names address) :
    (isTrustedProxy trusted peer = some true →
      (rateLimitKey (some peer) (proxied before client hop) trusted = some address.toCanonical ↔
        (∀ line ∈ client, line.toStr.isSome = true) ∨ address.toCanonical = peer.toCanonical)) ∧
    (isTrustedProxy trusted peer = some false →
      ∀ forwarded, rateLimitKey (some peer) forwarded trusted = some peer.toCanonical) := by
  have hcanonical : isTrustedProxy trusted peer.toCanonical = isTrustedProxy trusted peer := by
    unfold isTrustedProxy
    rw [IpAddr.toCanonical_toCanonical]
  constructor
  · intro htrusted
    simp only [rateLimitKey, hcanonical, htrusted, forwardedHop_proxied hnames, Option.some.injEq]
    split
    · rename_i hvisible
      exact iff_of_true rfl (.inl hvisible)
    · rename_i hvisible
      rw [Option.getD_none, or_iff_right hvisible]
      exact eq_comm
  · intro huntrusted forwarded
    simp only [rateLimitKey, hcanonical, huntrusted]

end Key

/-! ### A client that hides its hop -/

/-- The proxy's own address, trusted, and the text of a hop. -/
def proxyAddress : IpAddr := .v4 ⟨[10, 0, 0, 1], rfl⟩

def hopAddress : IpAddr := .v4 ⟨[9, 9, 9, 9], rfl⟩

/-- The text of `hopAddress`. -/
def hopValue : HeaderValue := ⟨[57, 46, 57, 46, 57, 46, 57], by decide +kernel⟩

/-- A client's line of one octet beyond ASCII. -/
def hiddenLine : HeaderValue := ⟨[255], by decide +kernel⟩

/-- A client's line of text. -/
def plainLine : HeaderValue := ⟨[49, 46, 50], by decide +kernel⟩

theorem rate_limit_key_plain :
    rateLimitKey (some proxyAddress) (proxied [hiddenLine] (some plainLine) hopValue) ["10.0.0.0/8"] =
      some hopAddress.toCanonical := by
  have hnames : hopValue.Names hopAddress := ⟨"9.9.9.9", by decide +kernel, by decide +kernel⟩
  exact ((rate_limit_key_iff [hiddenLine] (some plainLine) proxyAddress ["10.0.0.0/8"] hnames).1
    (by decide +kernel)).mpr (.inl (by intro line hline; cases hline; decide +kernel))

/-- One octet beyond ASCII, and the attempt is counted under the proxy's address. -/
theorem rate_limit_key_hidden :
    isTrustedProxy ["10.0.0.0/8"] proxyAddress = some true ∧ hopValue.toStr = some "9.9.9.9" ∧
      parseIpAddr "9.9.9.9" = some hopAddress ∧
      rateLimitKey (some proxyAddress) (proxied [] (some hiddenLine) hopValue) ["10.0.0.0/8"] = some proxyAddress ∧
      rateLimitKey (some proxyAddress) (proxied [] (some plainLine) hopValue) ["10.0.0.0/8"] = some hopAddress := by
  decide +kernel

end Pingward
