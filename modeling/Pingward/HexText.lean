import Mathlib.Data.List.Basic

/-! Octets as hexadecimal text. The writer uses lower case, two digits an octet; the reader takes both cases, octet by
octet of the UTF-8 text. What it reads are exactly the texts that are what is written, up to case. -/

namespace HexText

/-! ### Digits -/

/-- The value of a decimal or hexadecimal digit. -/
def digitValue (c : Char) : Option Nat :=
  if '0' ≤ c ∧ c ≤ '9' then some (c.toNat - 48)
  else if 'a' ≤ c ∧ c ≤ 'f' then some (c.toNat - 87)
  else if 'A' ≤ c ∧ c ≤ 'F' then some (c.toNat - 55)
  else none

/-- `char::to_digit`. -/
def digitOf (radix : Nat) (c : Char) : Option Nat := (digitValue c).filter (· < radix)

theorem digitOf_eq_some {radix digit : Nat} {c : Char} :
    digitOf radix c = some digit ↔ digitValue c = some digit ∧ digit < radix := by
  rw [digitOf, Option.filter_eq_some_iff, decide_eq_true_eq]

theorem digitOf_mono {radix : Nat} (hradix : radix ≤ 16) {c : Char} (hdigit : (digitOf radix c).isSome = true) :
    (digitOf 16 c).isSome = true := by
  obtain ⟨digit, hdigit⟩ := Option.isSome_iff_exists.mp hdigit
  obtain ⟨hvalue, hlt⟩ := digitOf_eq_some.mp hdigit
  rw [digitOf_eq_some.mpr ⟨hvalue, Nat.lt_of_lt_of_le hlt hradix⟩]
  rfl

/-- A digit is an ASCII character. -/
theorem digitValue_ascii {c : Char} (hdigit : (digitValue c).isSome = true) : c.toNat < 128 := by
  have hle {bound : Char} (hbound : c ≤ bound) (hascii : bound.toNat < 128) : c.toNat < 128 :=
    Nat.lt_of_le_of_lt (show c.toNat ≤ bound.toNat from hbound) hascii
  unfold digitValue at hdigit
  split at hdigit
  · rename_i hrange
    exact hle hrange.2 (by decide)
  · split at hdigit
    · rename_i hrange
      exact hle hrange.2 (by decide)
    · split at hdigit
      · rename_i hrange
        exact hle hrange.2 (by decide)
      · cases hdigit

theorem digitOf_ascii {radix : Nat} {c : Char} (hdigit : (digitOf radix c).isSome = true) : c.toNat < 128 := by
  obtain ⟨digit, hdigit⟩ := Option.isSome_iff_exists.mp hdigit
  apply digitValue_ascii
  rw [(digitOf_eq_some.mp hdigit).1]
  rfl

theorem digitOf_ascii_iff : ∀ n < 128, ∀ digit < 16,
    digitOf 16 (Char.ofNat n) = some digit ↔ (Char.ofNat n).toLower = digit.digitChar := by
  decide +kernel

/-- The digits of a value are the character that is written for it, in either case. -/
theorem digitOf_iff {c : Char} {digit : Nat} (hlt : digit < 16) :
    digitOf 16 c = some digit ↔ c.toLower = digit.digitChar := by
  by_cases hascii : c.toNat < 128
  · have hiff := digitOf_ascii_iff c.toNat hascii digit hlt
    rwa [Char.ofNat_toNat] at hiff
  · have hlower : c.toLower = c := by
      apply dif_neg
      rintro ⟨-, hle⟩
      exact hascii (Nat.lt_of_le_of_lt (show c.toNat ≤ 90 from hle) (by decide))
    have hwritten : ∀ n < 16, n.digitChar.toNat < 128 := by decide
    rw [hlower]
    refine iff_of_false ?_ ?_
    · intro hdigit
      exact hascii (digitOf_ascii (by rw [hdigit]; rfl))
    · intro heq
      exact hascii (heq ▸ hwritten digit hlt)

/-! ### Octets -/

/-- Two digits an octet, in lower case. -/
def encode (bytes : List UInt8) : List Char :=
  bytes.flatMap fun byte => [(byte.toNat / 16).digitChar, (byte.toNat % 16).digitChar]

/-- The octets of pairs of digits; an odd last character is left alone. -/
def decodePairs : List Char → Option (List UInt8)
  | high :: low :: rest => do
      let high ← digitOf 16 high
      let low ← digitOf 16 low
      let bytes ← decodePairs rest
      some (UInt8.ofNat (high * 16 + low) :: bytes)
  | _ => some []

def decode (text : List Char) : Option (List UInt8) := if text.length % 2 = 0 then decodePairs text else none

theorem encode_cons (byte : UInt8) (bytes : List UInt8) : encode (byte :: bytes) =
    (byte.toNat / 16).digitChar :: (byte.toNat % 16).digitChar :: encode bytes := rfl

theorem encode_digits {high low : Nat} (hhigh : high < 16) (hlow : low < 16) (bytes : List UInt8) :
    encode (UInt8.ofNat (high * 16 + low) :: bytes) = high.digitChar :: low.digitChar :: encode bytes := by
  have hbyte : (UInt8.ofNat (high * 16 + low)).toNat = high * 16 + low := by
    rw [UInt8.toNat_ofNat']
    omega
  have hquotient : (high * 16 + low) / 16 = high := by omega
  have hrest : (high * 16 + low) % 16 = low := by omega
  rw [encode_cons, hbyte, hquotient, hrest]

theorem decodePairs_encode {text : List Char} {bytes : List UInt8} (hlower : text.map Char.toLower = encode bytes) :
    decodePairs text = some bytes := by
  induction bytes generalizing text with
  | nil =>
      rw [List.map_eq_nil_iff.mp hlower]
      rfl
  | cons byte bytes ih =>
      have hbyte := byte.toNat_lt
      rw [encode_cons] at hlower
      obtain ⟨high, rest, rfl, hhigh, hrest⟩ := List.map_eq_cons_iff.mp hlower
      obtain ⟨low, rest, rfl, hlow, hrest⟩ := List.map_eq_cons_iff.mp hrest
      have hjoin : UInt8.ofNat (byte.toNat / 16 * 16 + byte.toNat % 16) = byte := by
        rw [Nat.div_add_mod', UInt8.ofNat_toNat]
      rw [decodePairs, (digitOf_iff (by omega)).mpr hhigh, (digitOf_iff (by omega)).mpr hlow, ih hrest]
      simp only [Option.bind_eq_bind, Option.bind_some, hjoin]

theorem encode_decodePairs {text : List Char} {bytes : List UInt8} (heven : text.length % 2 = 0)
    (hdecode : decodePairs text = some bytes) : text.map Char.toLower = encode bytes := by
  induction text using decodePairs.induct generalizing bytes with
  | case1 high low rest ih =>
      rw [decodePairs] at hdecode
      simp only [Option.bind_eq_bind, Option.bind_eq_some_iff] at hdecode
      obtain ⟨highDigit, hhigh, lowDigit, hlow, tail, htail, hbytes⟩ := hdecode
      cases hbytes
      have hhighLt := (digitOf_eq_some.mp hhigh).2
      have hlowLt := (digitOf_eq_some.mp hlow).2
      rw [List.map_cons, List.map_cons, (digitOf_iff hhighLt).mp hhigh, (digitOf_iff hlowLt).mp hlow,
        encode_digits hhighLt hlowLt, ih (by rw [List.length_cons, List.length_cons] at heven; omega) htail]
  | case2 text hshort =>
      cases text with
      | nil =>
          cases hdecode
          rfl
      | cons c rest =>
          cases rest with
          | nil => cases heven
          | cons c' rest => exact absurd rfl (hshort c c' rest)

/-- **What is read is what is written, up to case.** -/
theorem decode_eq_some_iff {text : List Char} {bytes : List UInt8} :
    decode text = some bytes ↔ text.map Char.toLower = encode bytes := by
  unfold decode
  constructor
  · intro hdecode
    split at hdecode
    · rename_i heven
      exact encode_decodePairs heven hdecode
    · cases hdecode
  · intro hlower
    have hlength := congrArg List.length hlower
    rw [List.length_map] at hlength
    rw [if_pos, decodePairs_encode hlower]
    rw [hlength, encode, List.length_flatMap]
    simp

/-! ### The octets of a text -/

/-- The UTF-8 octets of a text. -/
def utf8 (text : String) : List UInt8 := text.toList.flatMap String.utf8EncodeChar

/-- Each octet as a character. -/
def octetChars (text : String) : List Char := (utf8 text).map fun byte => Char.ofNat byte.toNat

theorem utf8EncodeChar_of_ascii {c : Char} (hascii : c.toNat < 128) : String.utf8EncodeChar c = [UInt8.ofNat c.toNat] := by
  rw [String.utf8EncodeChar, if_pos (show c.val.toNat ≤ 127 from Nat.le_of_lt_succ hascii)]
  rfl

theorem octetChars_of_ascii {text : String} (hascii : ∀ c ∈ text.toList, c.toNat < 128) :
    octetChars text = text.toList := by
  unfold octetChars utf8
  generalize text.toList = chars at hascii
  induction chars with
  | nil => rfl
  | cons c rest ih =>
      have hc := hascii c List.mem_cons_self
      rw [List.flatMap_cons, utf8EncodeChar_of_ascii hc, List.map_append, ih fun other hother =>
        hascii other (List.mem_cons_of_mem _ hother)]
      have hbyte : (UInt8.ofNat c.toNat).toNat = c.toNat := by
        rw [UInt8.toNat_ofNat']
        omega
      simp only [List.map_cons, List.map_nil, hbyte, Char.ofNat_toNat, List.singleton_append]

/-- A character beyond ASCII has an octet beyond it. -/
theorem utf8EncodeChar_beyond {c : Char} (hbeyond : 128 ≤ c.toNat) : ∃ byte ∈ String.utf8EncodeChar c, 128 ≤ byte.toNat := by
  have hfirst : ¬ c.val.toNat ≤ 127 := Nat.not_le.mpr hbeyond
  have hoctet (n : Nat) (hn : n < 256) (hle : 128 ≤ n) : 128 ≤ (UInt8.ofNat n).toNat := by
    rw [UInt8.toNat_ofNat', Nat.mod_eq_of_lt hn]
    exact hle
  unfold String.utf8EncodeChar
  dsimp only
  rw [if_neg hfirst]
  split
  · exact ⟨_, List.mem_cons_self, hoctet _ (by omega) (by omega)⟩
  · split
    · exact ⟨_, List.mem_cons_self, hoctet _ (by omega) (by omega)⟩
    · exact ⟨_, List.mem_cons_self, hoctet _ (by omega) (by omega)⟩

theorem toNat_octetChar : ∀ n < 256, (Char.ofNat n).toNat = n := by decide +kernel

theorem ascii_of_octetChars {text : String} (hascii : ∀ c ∈ octetChars text, c.toNat < 128) :
    ∀ c ∈ text.toList, c.toNat < 128 := by
  intro c hc
  by_contra hbeyond
  obtain ⟨byte, hbyte, hle⟩ := utf8EncodeChar_beyond (Nat.not_lt.mp hbeyond)
  have hmem : Char.ofNat byte.toNat ∈ octetChars text :=
    List.mem_map.mpr ⟨byte, List.mem_flatMap.mpr ⟨c, hc, hbyte⟩, rfl⟩
  have hlt := hascii _ hmem
  rw [toNat_octetChar byte.toNat byte.toNat_lt] at hlt
  exact absurd hlt (Nat.not_lt.mpr hle)

theorem encode_ascii {bytes : List UInt8} {c : Char} (hc : c ∈ encode bytes) : ∃ digit < 16, c = digit.digitChar := by
  obtain ⟨byte, -, hmem⟩ := List.mem_flatMap.mp hc
  have hbyte := byte.toNat_lt
  rw [List.mem_cons, List.mem_singleton] at hmem
  rcases hmem with rfl | rfl
  · exact ⟨_, by omega, rfl⟩
  · exact ⟨_, by omega, rfl⟩

/-- Text that is read octet by octet is ASCII, so that it is read character by character. -/
theorem decode_octetChars {text : String} {bytes : List UInt8} :
    decode (octetChars text) = some bytes ↔ text.toList.map Char.toLower = encode bytes := by
  have hread {chars : List Char} (hlower : chars.map Char.toLower = encode bytes) : ∀ c ∈ chars, c.toNat < 128 := by
    intro c hc
    obtain ⟨digit, hdigit, heq⟩ := encode_ascii (hlower ▸ List.mem_map_of_mem hc)
    exact digitOf_ascii (by rw [(digitOf_iff hdigit).mpr heq]; rfl)
  rw [decode_eq_some_iff]
  constructor
  · intro hlower
    rwa [octetChars_of_ascii (ascii_of_octetChars (hread hlower))] at hlower
  · intro hlower
    rwa [octetChars_of_ascii (hread hlower)]

end HexText
