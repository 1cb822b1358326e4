import Pingward.ModelProxy

/-! Trusted proxies, against blocks of addresses as numbers. A pattern is an address or a block; the comparison octet
by octet finds the same addresses as the comparison of the leading bits, and no index leaves the octets. -/

open Address

namespace Pingward

/-! ### Texts with a separator -/

theorem mem_trim {c : Char} (hc : isWhiteSpace c = false) (s : String) : c ∈ (trim s).toList ↔ c ∈ s.toList := by
  have hdrop (chars : List Char) : c ∈ chars.dropWhile isWhiteSpace ↔ c ∈ chars := by
    constructor
    · exact fun hmem => (List.dropWhile_sublist _).mem hmem
    · intro hmem
      rw [← List.takeWhile_append_dropWhile (p := isWhiteSpace) (l := chars), List.mem_append] at hmem
      rcases hmem with hspace | hrest
      · rw [List.all_eq_true.mp List.all_takeWhile c hspace] at hc
        cases hc
      · exact hrest
  rw [trim, String.toList_ofList, List.mem_reverse, hdrop, List.mem_reverse, hdrop]

theorem splitOnce_eq_none {separator : Char} {s : String} : splitOnce separator s = none ↔ separator ∉ s.toList := by
  unfold splitOnce
  split
  · rename_i hmem
    exact iff_of_false (Option.some_ne_none _) (not_not.mpr hmem)
  · rename_i hmem
    exact iff_of_true rfl hmem

/-- The first separator is where a text splits. -/
theorem splitOnce_append (separator : Char) {before : String} (after : String) (hbefore : separator ∉ before.toList) :
    splitOnce separator (before ++ String.ofList [separator] ++ after) = some (before, after) := by
  have htext : (before ++ String.ofList [separator] ++ after).toList = before.toList ++ separator :: after.toList := by
    simp
  have hne : ∀ c ∈ before.toList, decide (c ≠ separator) = true := by
    intro c hc
    exact decide_eq_true fun heq => hbefore (heq ▸ hc)
  unfold splitOnce
  rw [htext, if_pos (by simp), List.takeWhile_append_of_pos hne, List.dropWhile_append_of_pos hne]
  simp

theorem splitOnce_eq_some {separator : Char} {s before after : String} (hsplit : splitOnce separator s = some (before, after)) :
    s = before ++ String.ofList [separator] ++ after := by
  unfold splitOnce at hsplit
  split at hsplit
  · rename_i hmem
    cases hsplit
    have hdrop : s.toList.dropWhile (· ≠ separator) = separator :: (s.toList.dropWhile (· ≠ separator)).drop 1 := by
      cases hrest : s.toList.dropWhile (· ≠ separator) with
      | nil =>
          rw [List.dropWhile_eq_nil_iff] at hrest
          simpa using hrest separator hmem
      | cons c rest =>
          have hhead := List.head?_dropWhile_not (fun c => decide (c ≠ separator)) s.toList
          simp only [hrest, List.head?_cons, decide_eq_false_iff_not, ne_eq, not_not] at hhead
          rw [hhead]
          rfl
    apply String.toList_inj.mp
    simp only [String.toList_append, String.toList_ofList, List.append_assoc, List.singleton_append]
    rw [← hdrop, List.takeWhile_append_dropWhile]
  · cases hsplit

/-- No text with a slash is an address. -/
theorem slash_notMem_of_parse {s : String} {address : IpAddr} (hparse : parseIpAddr (trim s) = some address) :
    '/' ∉ s.toList := by
  intro hslash
  rw [← mem_trim (by decide)] at hslash
  have hchar := List.all_eq_true.mp (parseIpAddr_chars hparse) '/' hslash
  exact absurd hchar (by decide)

/-! ### Prefixes -/

/-- The comparison octet by octet, on addresses of one family. -/
theorem prefixEq_eq {a b : List UInt8} {pfx max : UInt8} (ha : 8 * a.length = max.toNat) (hb : 8 * b.length = max.toNat) :
    prefixEq a b pfx max = some (decide (pfx ≤ max ∧ SamePrefix pfx.toNat a b)) := by
  have hlength : a.length = b.length := by omega
  have hquotient : (pfx / 8).toNat = pfx.toNat / 8 := UInt8.toNat_div _ _
  have hrest : (pfx % 8).toNat = pfx.toNat % 8 := UInt8.toNat_mod _ _
  unfold prefixEq
  dsimp only
  split
  · rename_i hmax
    rw [decide_eq_false]
    exact fun hboth => absurd hboth.1 (UInt8.not_le.mpr hmax)
  · rename_i hmax
    have hle : pfx ≤ max := UInt8.not_lt.mp hmax
    have hbits : pfx.toNat ≤ 8 * a.length := ha ▸ hle
    rw [hquotient, if_neg (by omega)]
    have hiff : pfx ≤ max ∧ SamePrefix pfx.toNat a b ↔ _ :=
      (and_iff_right hle).trans (samePrefix_iff hlength hbits)
    by_cases hwhole : a.take (pfx.toNat / 8) = b.take (pfx.toNat / 8)
    · rw [if_neg (not_not.mpr hwhole)]
      by_cases hzero : pfx % 8 = 0
      · have hmod : pfx.toNat % 8 = 0 := by rw [← hrest, hzero]; rfl
        rw [if_pos hzero, decide_eq_true (hiff.mpr ⟨hwhole, .inl hmod⟩)]
      · have hmod : pfx.toNat % 8 ≠ 0 := fun heq => hzero (UInt8.toNat_inj.mp (hrest.trans heq))
        have hindex : pfx.toNat / 8 < a.length := by omega
        rw [if_neg hzero, List.getElem?_eq_getElem hindex, List.getElem?_eq_getElem (hlength ▸ hindex)]
        dsimp only
        rw [Option.some.injEq, decide_eq_decide, hiff, and_mask_eq_iff hzero (UInt8.mod_lt _ (by decide)), hrest]
        simp [hwhole, hmod, hindex, hlength ▸ hindex]
    · rw [if_pos hwhole, decide_eq_false]
      exact fun hboth => hwhole (hiff.mp hboth).1

/-! ### Blocks of addresses -/

/-- The address is of the family of `net` and shares its first bits, the addresses read as numbers. -/
def InBlock (net : IpAddr) (bits : Nat) (ip : IpAddr) : Prop :=
  match net, ip with
  | .v4 net, .v4 ip => bits ≤ 32 ∧ bigEndian net.bytes >>> (32 - bits) = bigEndian ip.bytes >>> (32 - bits)
  | .v6 net, .v6 ip => bits ≤ 128 ∧ bigEndian net.bytes >>> (128 - bits) = bigEndian ip.bytes >>> (128 - bits)
  | _, _ => False

/-- What a pattern says of an address in canonical form: it is the address, or a block with the address in it. -/
def PatternNames (pattern : String) (ip : IpAddr) : Prop :=
  (∃ address, parseIpAddr (trim pattern) = some address ∧ address.toCanonical = ip) ∨
    ∃ net len block bits, trim pattern = net ++ "/" ++ len ∧ parseIpAddr (trim net) = some block ∧
      parseU8 (trim len) = some bits ∧ InBlock block bits.toNat ip

theorem prefixEq_octets {count : Nat} (net ip : Octets count) {pfx max : UInt8} (hmax : 8 * count = max.toNat) :
    prefixEq net.bytes ip.bytes pfx max = some (decide (pfx.toNat ≤ max.toNat ∧
      bigEndian net.bytes >>> (max.toNat - pfx.toNat) = bigEndian ip.bytes >>> (max.toNat - pfx.toNat))) := by
  have hnet : 8 * net.bytes.length = max.toNat := by rw [net.length, hmax]
  have hip : 8 * ip.bytes.length = max.toNat := by rw [ip.length, hmax]
  rw [prefixEq_eq hnet hip, Option.some.injEq, decide_eq_decide, SamePrefix, hnet, hip]
  exact Iff.rfl

/-- One pattern. -/
theorem proxyPatternMatches_iff (pattern : String) (ip : IpAddr) :
    ∃ answer, proxyPatternMatches pattern ip = some answer ∧ (answer = true ↔ PatternNames pattern ip) := by
  unfold proxyPatternMatches
  cases hsplit : splitOnce '/' (trim pattern) with
  | none =>
      have hslash := splitOnce_eq_none.mp hsplit
      have hblock : ¬ ∃ net len block bits, trim pattern = net ++ "/" ++ len ∧ parseIpAddr (trim net) = some block ∧
          parseU8 (trim len) = some bits ∧ InBlock block bits.toNat ip := by
        rintro ⟨net, len, -, -, htext, -⟩
        apply hslash
        rw [htext]
        simp
      unfold PatternNames
      rw [or_iff_left hblock]
      cases hparse : parseIpAddr (trim pattern) with
      | none => exact ⟨false, rfl, by simp⟩
      | some address => exact ⟨_, rfl, by simp⟩
  | some parts =>
      obtain ⟨net, len⟩ := parts
      have htext := splitOnce_eq_some hsplit
      have haddress : ¬ ∃ address, parseIpAddr (trim pattern) = some address ∧ address.toCanonical = ip := by
        rintro ⟨address, hparse, -⟩
        apply slash_notMem_of_parse hparse
        rw [← mem_trim (by decide), htext]
        simp
      -- The pattern's own slash is the first one, as an address has none.
      have hblock : (∃ net len block bits, trim pattern = net ++ "/" ++ len ∧ parseIpAddr (trim net) = some block ∧
          parseU8 (trim len) = some bits ∧ InBlock block bits.toNat ip) ↔
          ∃ block bits, parseIpAddr (trim net) = some block ∧ parseU8 (trim len) = some bits ∧
            InBlock block bits.toNat ip := by
        constructor
        · rintro ⟨net', len', block, bits, htext', hnet, hlen, hin⟩
          have hsame := splitOnce_append '/' len' (slash_notMem_of_parse hnet)
          rw [show String.ofList ['/'] = "/" from rfl, ← htext', hsplit] at hsame
          cases hsame
          exact ⟨block, bits, hnet, hlen, hin⟩
        · rintro ⟨block, bits, hnet, hlen, hin⟩
          exact ⟨net, len, block, bits, htext, hnet, hlen, hin⟩
      unfold PatternNames
      rw [or_iff_right haddress, hblock]
      dsimp only
      cases hnet : parseIpAddr (trim net) with
      | none => exact ⟨false, rfl, by simp⟩
      | some block =>
          cases hlen : parseU8 (trim len) with
          | none =>
              refine ⟨false, ?_, by simp⟩
              cases block <;> rfl
          | some bits =>
              simp only [Option.some.injEq, exists_and_left, exists_eq_left']
              cases block with
              | v4 net =>
                  cases ip with
                  | v4 ip => exact ⟨_, prefixEq_octets net ip rfl, decide_eq_true_iff⟩
                  | v6 ip => exact ⟨false, rfl, by simp [InBlock]⟩
              | v6 net =>
                  cases ip with
                  | v4 ip => exact ⟨false, rfl, by simp [InBlock]⟩
                  | v6 ip => exact ⟨_, prefixEq_octets net ip rfl, decide_eq_true_iff⟩

theorem isTrustedProxy_iff (patterns : List String) (ip : IpAddr) :
    ∃ answer, isTrustedProxy patterns ip = some answer ∧
      (answer = true ↔ ∃ pattern ∈ patterns, PatternNames pattern ip.toCanonical) := by
  unfold isTrustedProxy
  induction patterns with
  | nil => exact ⟨false, rfl, by simp⟩
  | cons pattern rest ih =>
      obtain ⟨first, hfirst, hfirstIff⟩ := proxyPatternMatches_iff pattern ip.toCanonical
      obtain ⟨others, hothers, hothersIff⟩ := ih
      rw [List.anyM_cons, hfirst]
      simp only [List.exists_mem_cons_iff, ← hfirstIff, ← hothersIff]
      cases first with
      | true => exact ⟨true, rfl, by simp⟩
      | false => exact ⟨others, hothers, by simp⟩

/-- **Trust is containment.** No index leaves the octets; a peer is trusted just when some pattern is its canonical
address or a block that holds it; and the two forms of an IPv4 address are trusted alike. -/
theorem trusted_proxy_exact (patterns : List String) (ip : IpAddr) :
    (∃ answer, isTrustedProxy patterns ip = some answer ∧
      (answer = true ↔ ∃ pattern ∈ patterns, PatternNames pattern ip.toCanonical)) ∧
    ∀ octets : Octets 4, isTrustedProxy patterns (.v6 octets.toMapped) = isTrustedProxy patterns (.v4 octets) := by
  refine ⟨isTrustedProxy_iff patterns ip, fun octets => ?_⟩
  unfold isTrustedProxy
  rw [IpAddr.toCanonical_mapped]
  rfl

example : isTrustedProxy ["172.16.0.0/12"] (.v4 ⟨[172, 31, 255, 255], rfl⟩) = some true := by decide +kernel

end Pingward
