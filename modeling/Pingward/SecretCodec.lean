import Mathlib.Data.List.DropRight
import Pingward.ModelSecret

/-! The signed values as a code. A value is verified from exactly the texts that are the value, a dot and its signature
in hexadecimal of either case; signatures of one domain do not verify in another, as the domains do not begin alike. -/

namespace Pingward

/-- A text of hexadecimal digits, of either case, that stands for the octets. -/
def IsHex (text : String) (bytes : List UInt8) : Prop := text.toList.map Char.toLower = HexText.encode bytes

theorem hexDecode_eq_some_iff {text : String} {bytes : List UInt8} : hexDecode text = some bytes ↔ IsHex text bytes :=
  HexText.decode_octetChars

theorem toLower_digitChar : ∀ digit < 16, digit.digitChar.toLower = digit.digitChar ∧ digit.digitChar ≠ sigSeparator := by
  decide

theorem isHex_hexEncode (bytes : List UInt8) : IsHex (hexEncode bytes) bytes := by
  have hlower : ∀ c ∈ HexText.encode bytes, c.toLower = c := by
    intro c hc
    obtain ⟨digit, hdigit, rfl⟩ := HexText.encode_ascii hc
    exact (toLower_digitChar digit hdigit).1
  rw [IsHex, hexEncode, String.toList_ofList, List.map_congr_left hlower, List.map_id']

theorem separator_notMem_hexEncode (bytes : List UInt8) : sigSeparator ∉ (hexEncode bytes).toList := by
  rw [hexEncode, String.toList_ofList]
  intro hmem
  obtain ⟨digit, hdigit, heq⟩ := HexText.encode_ascii hmem
  exact (toLower_digitChar digit hdigit).2 heq.symm

/-! ### The last separator -/

theorem rsplitOnce_append (separator : Char) (before : String) {after : String} (hafter : separator ∉ after.toList) :
    rsplitOnce separator (before ++ String.ofList [separator] ++ after) = some (before, after) := by
  have htext : (before ++ String.ofList [separator] ++ after).toList.reverse =
      after.toList.reverse ++ separator :: before.toList.reverse := by
    simp
  have hmem : separator ∈ (before ++ String.ofList [separator] ++ after).toList := by simp
  have hne : ∀ c ∈ after.toList.reverse, decide (c ≠ separator) = true := by
    intro c hc
    exact decide_eq_true fun heq => hafter (heq ▸ List.mem_reverse.mp hc)
  rw [rsplitOnce, if_pos hmem, htext, List.takeWhile_append_of_pos hne, List.dropWhile_append_of_pos hne]
  simp

theorem rsplitOnce_eq_some_iff {separator : Char} {s before after : String} :
    rsplitOnce separator s = some (before, after) ↔
      s = before ++ String.ofList [separator] ++ after ∧ separator ∉ after.toList := by
  constructor
  · intro hsplit
    unfold rsplitOnce at hsplit
    split at hsplit
    · rename_i hmem
      cases hsplit
      have hrest : s.toList.reverse.dropWhile (· ≠ separator) =
          separator :: (s.toList.reverse.dropWhile (· ≠ separator)).drop 1 := by
        cases hdrop : s.toList.reverse.dropWhile (· ≠ separator) with
        | nil =>
            rw [List.dropWhile_eq_nil_iff] at hdrop
            simpa using hdrop separator (List.mem_reverse.mpr hmem)
        | cons c rest =>
            have hhead := List.head?_dropWhile_not (fun c => decide (c ≠ separator)) s.toList.reverse
            simp only [hdrop, List.head?_cons, decide_eq_false_iff_not, ne_eq, not_not] at hhead
            rw [hhead]
            rfl
      constructor
      · apply String.toList_inj.mp
        apply List.reverse_injective
        simp only [String.toList_append, String.toList_ofList, List.reverse_append, List.reverse_reverse,
          List.reverse_singleton, List.singleton_append]
        rw [← hrest, List.takeWhile_append_dropWhile]
      · rw [String.toList_ofList, List.mem_reverse]
        intro hmem
        have hne := List.all_eq_true.mp List.all_takeWhile separator hmem
        simp at hne
    · cases hsplit
  · rintro ⟨rfl, hafter⟩
    exact rsplitOnce_append separator _ hafter

/-! ### Signed values -/

section Codec

variable {hmac : List UInt8 → List UInt8 → List UInt8} {secret : List UInt8}

theorem verify_eq_some_iff {domain : List UInt8} {s v : String} : verify hmac secret domain s = some v ↔
    ∃ h, s = v ++ "." ++ h ∧ '.' ∉ h.toList ∧ IsHex h (hmac secret (domain ++ HexText.utf8 v)) := by
  unfold verify
  constructor
  · intro hverify
    split at hverify
    · cases hverify
    · rename_i value sig hsplit
      obtain ⟨htext, hsig⟩ := rsplitOnce_eq_some_iff.mp hsplit
      split at hverify
      · cases hverify
      · rename_i bytes hbytes
        split at hverify
        · rename_i hsame
          cases hverify
          exact ⟨sig, htext, hsig, hexDecode_eq_some_iff.mp (hbytes.trans (congrArg some hsame.symm))⟩
        · cases hverify
  · rintro ⟨h, htext, hdot, hhex⟩
    rw [htext]
    have hsplit : rsplitOnce sigSeparator (v ++ "." ++ h) = some (v, h) := rsplitOnce_append sigSeparator v hdot
    simp only [hsplit, hexDecode_eq_some_iff.mpr hhex, mac, if_true]

theorem verify_sign (domain : List UInt8) (v : String) : verify hmac secret domain (sign hmac secret domain v) = some v :=
  verify_eq_some_iff.mpr ⟨hexEncode (mac hmac secret domain v), rfl, separator_notMem_hexEncode _, isHex_hexEncode _⟩

/-- One text of hexadecimal digits stands for one octet string. -/
theorem IsHex.eq {text : String} {bytes bytes' : List UInt8} (hhex : IsHex text bytes) (hhex' : IsHex text bytes') :
    bytes = bytes' := by
  rw [← hexDecode_eq_some_iff] at hhex hhex'
  rw [hhex] at hhex'
  exact Option.some.inj hhex'

/-- The domains begin with different octets. -/
theorem domains_differ {domain domain' : List UInt8} (hdomain : domain ∈ [sessionDomain, csrfDomain, flashDomain])
    (hdomain' : domain' ∈ [sessionDomain, csrfDomain, flashDomain]) (hne : domain ≠ domain') (rest rest' : List UInt8) :
    domain ++ rest ≠ domain' ++ rest' := by
  have hall : ∀ d ∈ [sessionDomain, csrfDomain, flashDomain], ∀ d' ∈ [sessionDomain, csrfDomain, flashDomain],
      d ≠ d' → d.head? ≠ d'.head? ∧ d ≠ [] ∧ d' ≠ [] := by decide
  have hhead := hall domain hdomain domain' hdomain' hne
  intro heq
  have hheads := congrArg List.head? heq
  rw [List.head?_append_of_ne_nil _ hhead.2.1, List.head?_append_of_ne_nil _ hhead.2.2] at hheads
  exact hhead.1 hheads

theorem verifyCsrf_iff {sid t : String} :
    verifyCsrf hmac secret sid t = true ↔ IsHex t (hmac secret (csrfDomain ++ HexText.utf8 sid)) := by
  unfold verifyCsrf
  rw [← hexDecode_eq_some_iff]
  cases hdecode : hexDecode t with
  | none => simp
  | some bytes => simp [mac, eq_comm]

/-- **Signed values.** A value is verified from exactly the texts value, dot, signature in hexadecimal; a signed value
is verified, dots and all; while HMAC does not collide nothing signed in one domain is verified in another; and a CSRF
token is accepted just when it is the session's own in hexadecimal. -/
theorem signed_value_codec (hmac : List UInt8 → List UInt8 → List UInt8) :
    (∀ secret domain s v, verify hmac secret domain s = some v ↔
      ∃ h, s = v ++ "." ++ h ∧ '.' ∉ h.toList ∧ IsHex h (hmac secret (domain ++ HexText.utf8 v))) ∧
    (∀ secret domain v, verify hmac secret domain (sign hmac secret domain v) = some v) ∧
    ((∀ secret, Function.Injective (hmac secret)) → ∀ secret v,
      ∀ domain ∈ [sessionDomain, csrfDomain, flashDomain], ∀ domain' ∈ [sessionDomain, csrfDomain, flashDomain],
        domain ≠ domain' → verify hmac secret domain' (sign hmac secret domain v) = none) ∧
    (∀ secret sid t, verifyCsrf hmac secret sid t = true ↔ IsHex t (hmac secret (csrfDomain ++ HexText.utf8 sid))) := by
  refine ⟨fun _ _ _ _ => verify_eq_some_iff, fun _ domain v => verify_sign domain v, ?_, fun _ _ _ => verifyCsrf_iff⟩
  intro hinjective secret v domain hdomain domain' hdomain' hne
  rw [Option.eq_none_iff_forall_not_mem]
  intro v' hverify
  obtain ⟨h, htext, hdot, hhex⟩ := verify_eq_some_iff.mp hverify
  have hsplit : some (v', h) = some (v, hexEncode (mac hmac secret domain v)) := by
    rw [← rsplitOnce_append sigSeparator v' hdot,
      ← rsplitOnce_append sigSeparator v (separator_notMem_hexEncode (mac hmac secret domain v))]
    exact congrArg _ htext.symm
  cases hsplit
  have hmacs : hmac secret (domain' ++ HexText.utf8 v) = hmac secret (domain ++ HexText.utf8 v) :=
    hhex.eq (isHex_hexEncode _)
  exact domains_differ hdomain' hdomain (Ne.symm hne) _ _ (hinjective secret hmacs)

end Codec

/-! ### One signature -/

def sampleKey : List UInt8 := HexText.utf8 "test-secret-at-least-16-bytes"

/-- The HMAC-SHA-256 of "session:a.b" under the sample key. -/
def sampleTag : List UInt8 :=
  [95, 203, 179, 129, 167, 133, 33, 47, 33, 234, 242, 161, 90, 70, 186, 252, 143, 62, 103, 215, 6, 215, 42, 48, 23, 40,
    164, 90, 175, 239, 173, 189]

/-- HMAC on that message, and elsewhere something longer that does not collide. -/
def sampleMac (secret message : List UInt8) : List UInt8 :=
  if secret = sampleKey ∧ message = HexText.utf8 "session:a.b" then sampleTag else List.replicate 33 0 ++ message

theorem sampleMac_injective (secret : List UInt8) : Function.Injective (sampleMac secret) := by
  have hlong (message : List UInt8) : sampleTag ≠ List.replicate 33 0 ++ message := by
    intro heq
    have hlength := congrArg List.length heq
    rw [List.length_append, List.length_replicate] at hlength
    have htag : sampleTag.length = 32 := rfl
    omega
  intro message message' heq
  unfold sampleMac at heq
  split at heq
  · rename_i hmessage
    split at heq
    · rename_i hmessage'
      exact hmessage.2.trans hmessage'.2.symm
    · exact absurd heq (hlong _)
  · split at heq
    · exact absurd heq.symm (hlong _)
    · exact List.append_cancel_left heq

/-- A session cookie is not a flash cookie. -/
theorem signed_value_codec_session :
    verify sampleMac sampleKey flashDomain (sign sampleMac sampleKey sessionDomain "a.b") = none :=
  (signed_value_codec sampleMac).2.2.1 sampleMac_injective sampleKey "a.b" sessionDomain (by decide) flashDomain
    (by decide) (by decide)

end Pingward
