import Pingward.HexText
import Pingward.ModelPing

/-! Decoding UTF-8 with replacement characters: what was encoded comes back, and no ASCII character appears that was
not an octet below 128. -/

namespace Pingward

/-! ### The forms of a character -/

section Forms

variable {a b c d : UInt8} (rest : List UInt8)

theorem lossy_one (ha : a.toNat < 0x80) : fromUtf8Lossy (a :: rest) = Char.ofNat a.toNat :: fromUtf8Lossy rest := by
  rw [fromUtf8Lossy.eq_def]
  exact if_pos ha

theorem lossy_two (ha : 0xC2 ≤ a.toNat ∧ a.toNat ≤ 0xDF) (hb : isContinuation b = true) :
    fromUtf8Lossy (a :: b :: rest) = Char.ofNat (a.toNat % 32 * 64 + lowBits b) :: fromUtf8Lossy rest := by
  rw [fromUtf8Lossy.eq_def]
  dsimp only
  rw [if_neg (by omega), if_pos ha, if_pos hb]

theorem lossy_three (ha : 0xE0 ≤ a.toNat ∧ a.toNat ≤ 0xEF) (hb : isSecondByte a b = true) (hc : isContinuation c = true) :
    fromUtf8Lossy (a :: b :: c :: rest) =
      Char.ofNat ((a.toNat % 16 * 64 + lowBits b) * 64 + lowBits c) :: fromUtf8Lossy rest := by
  rw [fromUtf8Lossy.eq_def]
  dsimp only
  rw [if_neg (by omega), if_neg (by omega), if_pos ha, if_pos hb, if_pos hc]

theorem lossy_four (ha : 0xF0 ≤ a.toNat ∧ a.toNat ≤ 0xF4) (hb : isSecondByte a b = true) (hc : isContinuation c = true)
    (hd : isContinuation d = true) : fromUtf8Lossy (a :: b :: c :: d :: rest) =
      Char.ofNat (((a.toNat % 8 * 64 + lowBits b) * 64 + lowBits c) * 64 + lowBits d) :: fromUtf8Lossy rest := by
  rw [fromUtf8Lossy.eq_def]
  dsimp only
  rw [if_neg (by omega), if_neg (by omega), if_neg (by omega), if_pos ha, if_pos hb, if_pos hc, if_pos hd]

theorem isContinuation_iff : isContinuation b = true ↔ 0x80 ≤ b.toNat ∧ b.toNat ≤ 0xBF := by
  rw [isContinuation, beq_iff_eq]
  omega

/-- The octets that may follow a lead, its length apart. -/
theorem isSecondByte_iff : isSecondByte a b = true ↔ (0x80 ≤ b.toNat ∧ b.toNat ≤ 0xBF) ∧
    (a.toNat = 0xE0 → 0xA0 ≤ b.toNat) ∧ (a.toNat = 0xED → b.toNat ≤ 0x9F) ∧ (a.toNat = 0xF0 → 0x90 ≤ b.toNat) ∧
      (a.toNat = 0xF4 → b.toNat ≤ 0x8F) := by
  unfold isSecondByte
  dsimp only
  simp only [beq_iff_eq]
  split
  · simp only [Bool.and_eq_true, decide_eq_true_eq]
    omega
  · split
    · simp only [Bool.and_eq_true, decide_eq_true_eq]
      omega
    · split
      · simp only [Bool.and_eq_true, decide_eq_true_eq]
        omega
      · split
        · simp only [Bool.and_eq_true, decide_eq_true_eq]
          omega
        · simp only [Bool.and_eq_true, decide_eq_true_eq]
          omega

end Forms

theorem toNat_ofNat_of_valid {n : Nat} (hvalid : n < 0xD800 ∨ 0xDFFF < n ∧ n < 0x110000) : (Char.ofNat n).toNat = n := by
  rw [Char.ofNat, dif_pos hvalid]
  rfl

/-- The octets of a character, by their number. -/
inductive OctetForm : List UInt8 → Char → Prop where
  | one {a : UInt8} (ha : a.toNat < 0x80) : OctetForm [a] (Char.ofNat a.toNat)
  | two {a b : UInt8} (ha : 0xC2 ≤ a.toNat ∧ a.toNat ≤ 0xDF) (hb : isContinuation b = true) :
      OctetForm [a, b] (Char.ofNat (a.toNat % 32 * 64 + lowBits b))
  | three {a b c : UInt8} (ha : 0xE0 ≤ a.toNat ∧ a.toNat ≤ 0xEF) (hb : isSecondByte a b = true)
      (hc : isContinuation c = true) :
      OctetForm [a, b, c] (Char.ofNat ((a.toNat % 16 * 64 + lowBits b) * 64 + lowBits c))
  | four {a b c d : UInt8} (ha : 0xF0 ≤ a.toNat ∧ a.toNat ≤ 0xF4) (hb : isSecondByte a b = true)
      (hc : isContinuation c = true) (hd : isContinuation d = true) :
      OctetForm [a, b, c, d] (Char.ofNat (((a.toNat % 8 * 64 + lowBits b) * 64 + lowBits c) * 64 + lowBits d))

theorem OctetForm.lossy {octets : List UInt8} {c : Char} (hform : OctetForm octets c) (rest : List UInt8) :
    fromUtf8Lossy (octets ++ rest) = c :: fromUtf8Lossy rest := by
  cases hform with
  | one ha => exact lossy_one rest ha
  | two ha hb => exact lossy_two rest ha hb
  | three ha hb hc => exact lossy_three rest ha hb hc
  | four ha hb hc hd => exact lossy_four rest ha hb hc hd

theorem octetForm_encode (c : Char) : OctetForm (String.utf8EncodeChar c) c := by
  have hvalid : c.toNat < 0xD800 ∨ 0xDFFF < c.toNat ∧ c.toNat < 0x110000 := c.valid
  have hoctet (n : Nat) (hn : n < 256) : (UInt8.ofNat n).toNat = n := by
    rw [UInt8.toNat_ofNat', Nat.mod_eq_of_lt hn]
  have hval : c.val.toNat = c.toNat := rfl
  -- a form holds the character of the number that it spells
  have hspells {octets : List UInt8} {n : Nat} (hform : OctetForm octets (Char.ofNat n)) (hn : n = c.toNat) :
      OctetForm octets c := by
    rw [hn, Char.ofNat_toNat] at hform
    exact hform
  unfold String.utf8EncodeChar
  dsimp only
  simp only [hval]
  generalize c.toNat = n at hvalid hspells
  split
  · have ha := hoctet n (by omega)
    exact hspells (.one (by omega)) ha
  · split
    · have ha := hoctet (n / 64 % 32 + 192) (by omega)
      have hb := hoctet (n % 64 + 128) (by omega)
      apply hspells (.two (by omega) (isContinuation_iff.mpr (by omega)))
      rw [lowBits, ha, hb]
      omega
    · split
      · have ha := hoctet (n / 4096 % 16 + 224) (by omega)
        have hb := hoctet (n / 64 % 64 + 128) (by omega)
        have hc := hoctet (n % 64 + 128) (by omega)
        apply hspells (.three (by omega) (isSecondByte_iff.mpr (by omega)) (isContinuation_iff.mpr (by omega)))
        rw [lowBits, lowBits, ha, hb, hc]
        omega
      · have ha := hoctet (n / 262144 % 8 + 240) (by omega)
        have hb := hoctet (n / 4096 % 64 + 128) (by omega)
        have hc := hoctet (n / 64 % 64 + 128) (by omega)
        have hd := hoctet (n % 64 + 128) (by omega)
        apply hspells (.four (by omega) (isSecondByte_iff.mpr (by omega)) (isContinuation_iff.mpr (by omega))
          (isContinuation_iff.mpr (by omega)))
        rw [lowBits, lowBits, lowBits, ha, hb, hc, hd]
        omega

/-- **What is encoded is decoded**, whatever follows. -/
theorem fromUtf8Lossy_encode (c : Char) (rest : List UInt8) :
    fromUtf8Lossy (String.utf8EncodeChar c ++ rest) = c :: fromUtf8Lossy rest :=
  (octetForm_encode c).lossy rest

theorem fromUtf8Lossy_flatMap_append (text : List Char) (rest : List UInt8) :
    fromUtf8Lossy (text.flatMap String.utf8EncodeChar ++ rest) = text ++ fromUtf8Lossy rest := by
  induction text with
  | nil => rfl
  | cons c text ih => rw [List.flatMap_cons, List.append_assoc, fromUtf8Lossy_encode, ih, List.cons_append]

theorem fromUtf8Lossy_flatMap (text : List Char) : fromUtf8Lossy (text.flatMap String.utf8EncodeChar) = text :=
  calc
    _ = fromUtf8Lossy (text.flatMap String.utf8EncodeChar ++ []) := by rw [List.append_nil]
    _ = text ++ fromUtf8Lossy [] := fromUtf8Lossy_flatMap_append text []
    _ = text := List.append_nil text

/-! ### The ASCII characters of a decoded text -/

def asciiCount (text : List Char) : Nat := text.countP fun c => c.toNat < 128

/-- What is read off some octets as a character beyond ASCII adds none. -/
theorem asciiCount_cons_beyond {c : Char} {left bytes : List UInt8} (hc : 128 ≤ c.toNat)
    (hleft : asciiCount (fromUtf8Lossy left) ≤ left.countP fun b => b.toNat < 128) (hsuffix : left <:+ bytes) :
    asciiCount (c :: fromUtf8Lossy left) ≤ bytes.countP fun b => b.toNat < 128 := by
  have hcount : asciiCount (c :: fromUtf8Lossy left) = asciiCount (fromUtf8Lossy left) :=
    List.countP_cons_of_neg (by simpa using hc)
  rw [hcount]
  exact hleft.trans (hsuffix.sublist.countP_le)

theorem beyond_of_two {a b : UInt8} (ha : 194 ≤ a.toNat ∧ a.toNat ≤ 223) :
    128 ≤ (Char.ofNat (a.toNat % 32 * 64 + lowBits b)).toNat := by
  unfold lowBits
  rw [toNat_ofNat_of_valid (by omega)]
  omega

theorem beyond_of_three {a b c : UInt8} (ha : 224 ≤ a.toNat ∧ a.toNat ≤ 239) (hb : isSecondByte a b = true) :
    128 ≤ (Char.ofNat ((a.toNat % 16 * 64 + lowBits b) * 64 + lowBits c)).toNat := by
  have hsecond := isSecondByte_iff.mp hb
  unfold lowBits
  rw [toNat_ofNat_of_valid (by omega)]
  omega

theorem beyond_of_four {a b c d : UInt8} (ha : 240 ≤ a.toNat ∧ a.toNat ≤ 244) (hb : isSecondByte a b = true) :
    128 ≤ (Char.ofNat (((a.toNat % 8 * 64 + lowBits b) * 64 + lowBits c) * 64 + lowBits d)).toNat := by
  have hsecond := isSecondByte_iff.mp hb
  unfold lowBits
  rw [toNat_ofNat_of_valid (by omega)]
  omega

/-- A decoded text has no more ASCII characters than there are octets below 128. -/
theorem asciiCount_fromUtf8Lossy (bytes : List UInt8) :
    asciiCount (fromUtf8Lossy bytes) ≤ bytes.countP fun b => b.toNat < 128 := by
  have hreplaced : 128 ≤ replacementChar.toNat := by decide
  have hnil : asciiCount (fromUtf8Lossy []) ≤ ([] : List UInt8).countP fun b => b.toNat < 128 := le_refl _
  have htail (b : UInt8) (left : List UInt8) : left <:+ b :: left := List.suffix_cons b left
  fun_induction fromUtf8Lossy bytes with
  | case1 => exact le_refl _
  | case2 a rest l ha ih =>
      rw [asciiCount, List.countP_cons, List.countP_cons, toNat_ofNat_of_valid (by omega)]
      exact Nat.add_le_add_right ih _
  | case3 => exact asciiCount_cons_beyond hreplaced hnil List.nil_suffix
  | case4 a l hnot ha b rest hb ih =>
      exact asciiCount_cons_beyond (beyond_of_two ha) ih ((htail b rest).trans (htail a _))
  | case5 a l hnot ha b rest hb ih => exact asciiCount_cons_beyond hreplaced ih (htail a _)
  | case6 => exact asciiCount_cons_beyond hreplaced hnil List.nil_suffix
  | case7 => exact asciiCount_cons_beyond hreplaced hnil List.nil_suffix
  | case8 a l hnot hnot₂ ha b hb c rest hc ih =>
      exact asciiCount_cons_beyond (beyond_of_three ha hb) ih (((htail c rest).trans (htail b _)).trans (htail a _))
  | case9 a l hnot hnot₂ ha b hb c rest hc ih =>
      exact asciiCount_cons_beyond hreplaced ih ((htail b _).trans (htail a _))
  | case10 a l hnot hnot₂ ha b rest hb ih => exact asciiCount_cons_beyond hreplaced ih (htail a _)
  | case11 => exact asciiCount_cons_beyond hreplaced hnil List.nil_suffix
  | case12 => exact asciiCount_cons_beyond hreplaced hnil List.nil_suffix
  | case13 => exact asciiCount_cons_beyond hreplaced hnil List.nil_suffix
  | case14 a l hnot hnot₂ hnot₃ ha b hb c hc d rest hd ih =>
      exact asciiCount_cons_beyond (beyond_of_four ha hb) ih
        ((((htail d rest).trans (htail c _)).trans (htail b _)).trans (htail a _))
  | case15 a l hnot hnot₂ hnot₃ ha b hb c hc d rest hd ih =>
      exact asciiCount_cons_beyond hreplaced ih (((htail c _).trans (htail b _)).trans (htail a _))
  | case16 a l hnot hnot₂ hnot₃ ha b hb c rest hc ih =>
      exact asciiCount_cons_beyond hreplaced ih ((htail b _).trans (htail a _))
  | case17 a l hnot hnot₂ hnot₃ ha b rest hb ih => exact asciiCount_cons_beyond hreplaced ih (htail a _)
  | case18 a rest l hnot hnot₂ hnot₃ hnot₄ ih => exact asciiCount_cons_beyond hreplaced ih (htail a rest)

end Pingward
