import Pingward.LossyText
import Pingward.PrefixCode

/-! UTF-8 as a prefix code. Decoding with replacement characters is the reading of the code: a character for each whole
piece, a replacement character for each broken one. -/

open PrefixCode

namespace Pingward

/-! ### The forms are the code -/

theorem OctetForm.encode {octets : List UInt8} {c : Char} (hform : OctetForm octets c) : String.utf8EncodeChar c = octets := by
  have hoctet {n : Nat} {a : UInt8} (hn : n = a.toNat) : UInt8.ofNat n = a := by
    rw [hn, UInt8.ofNat_toNat]
  cases hform with
  | @one a ha =>
      have hval : (Char.ofNat a.toNat).val.toNat = a.toNat := toNat_ofNat_of_valid (by omega)
      unfold String.utf8EncodeChar
      dsimp only
      rw [hval, if_pos (by omega), hoctet rfl]
  | @two a b ha hb =>
      have hb := isContinuation_iff.mp hb
      have hval : (Char.ofNat (a.toNat % 32 * 64 + lowBits b)).val.toNat = a.toNat % 32 * 64 + b.toNat % 64 :=
        toNat_ofNat_of_valid (by unfold lowBits; omega)
      unfold String.utf8EncodeChar
      dsimp only
      rw [hval, if_neg (by omega), if_pos (by omega), hoctet (a := a) (by omega), hoctet (a := b) (by omega)]
  | @three a b c ha hb hc =>
      have hb := isSecondByte_iff.mp hb
      have hc := isContinuation_iff.mp hc
      have hval : (Char.ofNat ((a.toNat % 16 * 64 + lowBits b) * 64 + lowBits c)).val.toNat =
          (a.toNat % 16 * 64 + b.toNat % 64) * 64 + c.toNat % 64 := toNat_ofNat_of_valid (by unfold lowBits; omega)
      unfold String.utf8EncodeChar
      dsimp only
      rw [hval, if_neg (by omega), if_neg (by omega), if_pos (by omega), hoctet (a := a) (by omega),
        hoctet (a := b) (by omega), hoctet (a := c) (by omega)]
  | @four a b c d ha hb hc hd =>
      have hb := isSecondByte_iff.mp hb
      have hc := isContinuation_iff.mp hc
      have hd := isContinuation_iff.mp hd
      have hval : (Char.ofNat (((a.toNat % 8 * 64 + lowBits b) * 64 + lowBits c) * 64 + lowBits d)).val.toNat =
          ((a.toNat % 8 * 64 + b.toNat % 64) * 64 + c.toNat % 64) * 64 + d.toNat % 64 :=
        toNat_ofNat_of_valid (by unfold lowBits; omega)
      unfold String.utf8EncodeChar
      dsimp only
      rw [hval, if_neg (by omega), if_neg (by omega), if_neg (by omega), hoctet (a := a) (by omega),
        hoctet (a := b) (by omega), hoctet (a := c) (by omega), hoctet (a := d) (by omega)]

theorem encode_eq_iff {octets : List UInt8} {c : Char} : String.utf8EncodeChar c = octets ↔ OctetForm octets c :=
  ⟨fun heq => heq ▸ octetForm_encode c, OctetForm.encode⟩

/-- A character is decoded off its octets, so the octets of no other one begin with them. -/
def utf8Code : PrefixCode Char UInt8 where
  encode := String.utf8EncodeChar
  encode_ne_nil _ := String.utf8EncodeChar_ne_nil
  eq_of_starts := by
    rintro c d ⟨more, heq⟩
    have hread := congrArg fromUtf8Lossy heq
    rw [fromUtf8Lossy_encode, ← List.append_nil (String.utf8EncodeChar d), fromUtf8Lossy_encode] at hread
    exact (List.cons.inj hread).1

/-! ### The beginnings of a form -/

section Begins

variable {a b c d : UInt8}

theorem begins_two (hbegins : utf8Code.Begins [a, b]) :
    (0xC2 ≤ a.toNat ∧ a.toNat ≤ 0xDF) ∧ isContinuation b = true ∨
      (0xE0 ≤ a.toNat ∧ a.toNat ≤ 0xF4) ∧ isSecondByte a b = true := by
  obtain ⟨s, more, hs⟩ := hbegins
  have hform : OctetForm (a :: b :: more) s := encode_eq_iff.mp hs.symm
  cases hform with
  | two ha hb => exact .inl ⟨ha, hb⟩
  | three ha hb _ => exact .inr ⟨by omega, hb⟩
  | four ha hb _ _ => exact .inr ⟨by omega, hb⟩

theorem begins_three (hbegins : utf8Code.Begins [a, b, c]) : isContinuation c = true := by
  obtain ⟨s, more, hs⟩ := hbegins
  have hform : OctetForm (a :: b :: c :: more) s := encode_eq_iff.mp hs.symm
  cases hform with
  | three _ _ hc => exact hc
  | four _ _ hc _ => exact hc

theorem begins_four (hbegins : utf8Code.Begins [a, b, c, d]) : isContinuation d = true := by
  obtain ⟨s, more, hs⟩ := hbegins
  have hform : OctetForm (a :: b :: c :: d :: more) s := encode_eq_iff.mp hs.symm
  cases hform with
  | four _ _ _ hd => exact hd

/-- How many octets a lead announces. -/
theorem length_of_lead {s : Char} {more : List UInt8} (hs : String.utf8EncodeChar s = a :: more) :
    a.toNat < 0x80 ∨ 1 ≤ more.length ∧ a.toNat ≤ 0xDF ∨ 2 ≤ more.length ∧ a.toNat ≤ 0xEF ∨ 3 ≤ more.length := by
  have hform : OctetForm (a :: more) s := encode_eq_iff.mp hs
  cases hform with
  | one ha => exact .inl ha
  | two ha _ => exact .inr (.inl ⟨le_refl 1, ha.2⟩)
  | three ha _ _ => exact .inr (.inr (.inl ⟨le_refl 2, ha.2⟩))
  | four _ _ _ _ => exact .inr (.inr (.inr (le_refl 3)))

theorem incomplete_of_lead {more : List UInt8} (hlead : 0x80 ≤ a.toNat ∧ (1 ≤ more.length → 0xE0 ≤ a.toNat) ∧
    (2 ≤ more.length → 0xF0 ≤ a.toNat) ∧ more.length ≤ 2) (s : Char) : ¬ utf8Code.encode s <+: a :: more := by
  intro hstarts
  cases hs : String.utf8EncodeChar s with
  | nil => exact utf8Code.encode_ne_nil s hs
  | cons a' more' =>
      have hcons : a' :: more' <+: a :: more := hs ▸ hstarts
      obtain ⟨rfl, htail⟩ := List.cons_prefix_cons.mp hcons
      have hlength := htail.length_le
      have hform := length_of_lead hs
      omega

variable {rest : List UInt8}

theorem broken_one (ha : 0x80 ≤ a.toNat) (hstuck : ∀ b ∈ rest.head?, ¬ utf8Code.Begins [a, b]) :
    utf8Code.Broken [a] rest where
  nonempty := List.cons_ne_nil _ _
  begins := .inl rfl
  incomplete := incomplete_of_lead (by simpa using ha)
  stuck := hstuck

theorem broken_two (ha : 0xE0 ≤ a.toNat ∧ a.toNat ≤ 0xF4) (hb : isSecondByte a b = true)
    (hstuck : ∀ c ∈ rest.head?, ¬ utf8Code.Begins [a, b, c]) : utf8Code.Broken [a, b] rest where
  nonempty := List.cons_ne_nil _ _
  begins := by
    have hlow : isContinuation 0x80 = true := by decide
    right
    rcases Nat.lt_or_ge a.toNat 0xF0 with hthree | hfour
    · exact ⟨_, [0x80], (OctetForm.three (by omega) hb hlow).encode.symm⟩
    · exact ⟨_, [0x80, 0x80], (OctetForm.four (by omega) hb hlow hlow).encode.symm⟩
  incomplete := incomplete_of_lead (by simp only [List.length_singleton]; omega)
  stuck := hstuck

theorem broken_three (ha : 0xF0 ≤ a.toNat ∧ a.toNat ≤ 0xF4) (hb : isSecondByte a b = true) (hc : isContinuation c = true)
    (hstuck : ∀ d ∈ rest.head?, ¬ utf8Code.Begins [a, b, c, d]) : utf8Code.Broken [a, b, c] rest where
  nonempty := List.cons_ne_nil _ _
  begins := .inr ⟨_, [0x80], (OctetForm.four ha hb hc (by decide)).encode.symm⟩
  incomplete := incomplete_of_lead (by simp only [List.length_cons, List.length_nil]; omega)
  stuck := hstuck

end Begins

/-! ### The decoder reads the code -/

/-- A text holds a character for each piece of some octets. -/
def ReadsAs (octets : List UInt8) (text : List Char) : Prop :=
  ∃ pieces, utf8Code.Reads octets pieces ∧ text = pieces.map (Piece.symbol replacementChar)

section ReadsAs

variable {octets rest : List UInt8} {text : List Char}

theorem ReadsAs.nil : ReadsAs [] [] := ⟨[], .nil, rfl⟩

theorem ReadsAs.whole {c : Char} (hform : OctetForm octets c) (hrest : ReadsAs rest text) :
    ReadsAs (octets ++ rest) (c :: text) := by
  obtain ⟨pieces, hreads, rfl⟩ := hrest
  rw [← hform.encode]
  exact ⟨.whole c :: pieces, .whole c hreads, rfl⟩

theorem ReadsAs.broken (hbroken : utf8Code.Broken octets rest) (hrest : ReadsAs rest text) :
    ReadsAs (octets ++ rest) (replacementChar :: text) := by
  obtain ⟨pieces, hreads, rfl⟩ := hrest
  exact ⟨.broken octets :: pieces, .broken hbroken hreads, rfl⟩

end ReadsAs

/-- **Lossy decoding is the reading of the code.** -/
theorem readsAs_fromUtf8Lossy (bytes : List UInt8) : ReadsAs bytes (fromUtf8Lossy bytes) := by
  have hend {P : UInt8 → Prop} : ∀ next ∈ ([] : List UInt8).head?, P next := by simp
  have hnext {b : UInt8} {left : List UInt8} {P : UInt8 → Prop} (hb : P b) : ∀ next ∈ (b :: left).head?, P next := by
    simpa using hb
  fun_induction fromUtf8Lossy bytes with
  | case1 => exact .nil
  | case2 a rest l ha ih => exact .whole (.one ha) ih
  | case3 a l hnot ha => exact .broken (broken_one (by omega) hend) .nil
  | case4 a l hnot ha b rest hb ih => exact .whole (.two ha hb) ih
  | case5 a l hnot ha b rest hb ih =>
      refine .broken (broken_one (by omega) (hnext fun hbegins => ?_)) ih
      rcases begins_two hbegins with ⟨_, hcont⟩ | ⟨hlead, _⟩
      · exact hb hcont
      · omega
  | case6 a l hnot hnot₂ ha => exact .broken (broken_one (by omega) hend) .nil
  | case7 a l hnot hnot₂ ha b hb => exact .broken (broken_two (by omega) hb hend) .nil
  | case8 a l hnot hnot₂ ha b hb c rest hc ih => exact .whole (.three ha hb hc) ih
  | case9 a l hnot hnot₂ ha b hb c rest hc ih =>
      exact .broken (broken_two (by omega) hb (hnext fun hbegins => hc (begins_three hbegins))) ih
  | case10 a l hnot hnot₂ ha b rest hb ih =>
      refine .broken (broken_one (by omega) (hnext fun hbegins => ?_)) ih
      rcases begins_two hbegins with ⟨hlead, _⟩ | ⟨_, hsecond⟩
      · omega
      · exact hb hsecond
  | case11 a l hnot hnot₂ hnot₃ ha => exact .broken (broken_one (by omega) hend) .nil
  | case12 a l hnot hnot₂ hnot₃ ha b hb => exact .broken (broken_two (by omega) hb hend) .nil
  | case13 a l hnot hnot₂ hnot₃ ha b hb c hc => exact .broken (broken_three ha hb hc hend) .nil
  | case14 a l hnot hnot₂ hnot₃ ha b hb c hc d rest hd ih => exact .whole (.four ha hb hc hd) ih
  | case15 a l hnot hnot₂ hnot₃ ha b hb c hc d rest hd ih =>
      exact .broken (broken_three ha hb hc (hnext fun hbegins => hd (begins_four hbegins))) ih
  | case16 a l hnot hnot₂ hnot₃ ha b hb c rest hc ih =>
      exact .broken (broken_two (by omega) hb (hnext fun hbegins => hc (begins_three hbegins))) ih
  | case17 a l hnot hnot₂ hnot₃ ha b rest hb ih =>
      refine .broken (broken_one (by omega) (hnext fun hbegins => ?_)) ih
      rcases begins_two hbegins with ⟨hlead, _⟩ | ⟨_, hsecond⟩
      · omega
      · exact hb hsecond
  | case18 a rest l hnot hnot₂ hnot₃ hnot₄ ih =>
      refine .broken (broken_one (by omega) fun b _ hbegins => ?_) ih
      rcases begins_two hbegins with ⟨hlead, _⟩ | ⟨hlead, _⟩ <;> omega

end Pingward
