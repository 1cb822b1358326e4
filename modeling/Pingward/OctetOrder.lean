import Mathlib.Data.String.Basic
import Pingward.HexText

/-! The order of UTF-8 octets is the order of the characters: of two texts the smaller has the smaller octets. A
database that compares texts octet by octet so compares them character by character. -/

open HexText (utf8)

namespace OctetOrder

/-- A number below 256 in front of some octets. -/
theorem cons_lt_cons {m n : Nat} (hn : n < 256) {rest rest' : List UInt8} (hlt : m < n ∨ m = n ∧ rest < rest') :
    UInt8.ofNat m :: rest < UInt8.ofNat n :: rest' := by
  rw [List.cons_lt_cons_iff]
  rcases hlt with hlt | ⟨rfl, hrest⟩
  · left
    rw [UInt8.lt_iff_toNat_lt, UInt8.toNat_ofNat', UInt8.toNat_ofNat', Nat.mod_eq_of_lt (hlt.trans hn),
      Nat.mod_eq_of_lt hn]
    exact hlt
  · exact .inr ⟨rfl, hrest⟩

section Encoding

variable {m n : Nat} (rest rest' : List UInt8)

theorem two_lt_two (hn : n < 0x800) (hlt : m < n) :
    [UInt8.ofNat (m / 64 % 32 + 192), UInt8.ofNat (m % 64 + 128)] ++ rest <
      [UInt8.ofNat (n / 64 % 32 + 192), UInt8.ofNat (n % 64 + 128)] ++ rest' := by
  have hdigits : m / 64 % 32 + 192 < n / 64 % 32 + 192 ∨
      m / 64 % 32 + 192 = n / 64 % 32 + 192 ∧ m % 64 + 128 < n % 64 + 128 := by omega
  rcases hdigits with hlead | ⟨hlead, hlast⟩
  · exact cons_lt_cons (by omega) (.inl hlead)
  · exact cons_lt_cons (by omega) (.inr ⟨hlead, cons_lt_cons (by omega) (.inl hlast)⟩)

theorem three_lt_three (hn : n < 0x10000) (hlt : m < n) :
    [UInt8.ofNat (m / 4096 % 16 + 224), UInt8.ofNat (m / 64 % 64 + 128), UInt8.ofNat (m % 64 + 128)] ++ rest <
      [UInt8.ofNat (n / 4096 % 16 + 224), UInt8.ofNat (n / 64 % 64 + 128), UInt8.ofNat (n % 64 + 128)] ++ rest' := by
  have hdigits : m / 4096 % 16 + 224 < n / 4096 % 16 + 224 ∨ m / 4096 % 16 + 224 = n / 4096 % 16 + 224 ∧
      (m / 64 % 64 + 128 < n / 64 % 64 + 128 ∨
        m / 64 % 64 + 128 = n / 64 % 64 + 128 ∧ m % 64 + 128 < n % 64 + 128) := by omega
  rcases hdigits with hlead | ⟨hlead, hsecond | ⟨hsecond, hlast⟩⟩
  · exact cons_lt_cons (by omega) (.inl hlead)
  · exact cons_lt_cons (by omega) (.inr ⟨hlead, cons_lt_cons (by omega) (.inl hsecond)⟩)
  · exact cons_lt_cons (by omega) (.inr ⟨hlead, cons_lt_cons (by omega) (.inr ⟨hsecond,
      cons_lt_cons (by omega) (.inl hlast)⟩)⟩)

theorem four_lt_four (hn : n < 0x110000) (hlt : m < n) :
    [UInt8.ofNat (m / 262144 % 8 + 240), UInt8.ofNat (m / 4096 % 64 + 128), UInt8.ofNat (m / 64 % 64 + 128),
        UInt8.ofNat (m % 64 + 128)] ++ rest <
      [UInt8.ofNat (n / 262144 % 8 + 240), UInt8.ofNat (n / 4096 % 64 + 128), UInt8.ofNat (n / 64 % 64 + 128),
        UInt8.ofNat (n % 64 + 128)] ++ rest' := by
  have hdigits : m / 262144 % 8 + 240 < n / 262144 % 8 + 240 ∨ m / 262144 % 8 + 240 = n / 262144 % 8 + 240 ∧
      (m / 4096 % 64 + 128 < n / 4096 % 64 + 128 ∨ m / 4096 % 64 + 128 = n / 4096 % 64 + 128 ∧
        (m / 64 % 64 + 128 < n / 64 % 64 + 128 ∨
          m / 64 % 64 + 128 = n / 64 % 64 + 128 ∧ m % 64 + 128 < n % 64 + 128)) := by
    have hthird (k : Nat) : k / 4096 = k / 64 / 64 := (Nat.div_div_eq_div_mul k 64 64).symm
    have hlead (k : Nat) : k / 262144 = k / 64 / 64 / 64 := by omega
    simp only [hthird, hlead]
    omega
  rcases hdigits with hlead | ⟨hlead, hsecond | ⟨hsecond, hthird | ⟨hthird, hlast⟩⟩⟩
  · exact cons_lt_cons (by omega) (.inl hlead)
  · exact cons_lt_cons (by omega) (.inr ⟨hlead, cons_lt_cons (by omega) (.inl hsecond)⟩)
  · exact cons_lt_cons (by omega) (.inr ⟨hlead, cons_lt_cons (by omega) (.inr ⟨hsecond,
      cons_lt_cons (by omega) (.inl hthird)⟩)⟩)
  · exact cons_lt_cons (by omega) (.inr ⟨hlead, cons_lt_cons (by omega) (.inr ⟨hsecond,
      cons_lt_cons (by omega) (.inr ⟨hthird, cons_lt_cons (by omega) (.inl hlast)⟩)⟩)⟩)

/-- **One character decides.** What follows the octets of two different characters does not count. -/
theorem encode_lt_encode {c d : Char} (hlt : c < d) :
    String.utf8EncodeChar c ++ rest < String.utf8EncodeChar d ++ rest' := by
  have hvalid : d.toNat < 0x110000 := by
    rcases d.valid with hlow | ⟨-, hhigh⟩
    · exact lt_trans hlow (by decide)
    · exact hhigh
  have hlt : c.toNat < d.toNat := hlt
  have hc : c.val.toNat = c.toNat := rfl
  have hd : d.val.toNat = d.toNat := rfl
  unfold String.utf8EncodeChar
  dsimp only
  simp only [hc, hd]
  generalize c.toNat = m at hlt
  generalize d.toNat = n at hlt hvalid
  -- by the number of octets; more of them have the larger lead
  split
  · split
    · exact cons_lt_cons (by omega) (.inl hlt)
    · split
      · exact cons_lt_cons (by omega) (.inl (by omega))
      · split <;> exact cons_lt_cons (by omega) (.inl (by omega))
  · rw [if_neg (show ¬ n ≤ 0x7F by omega)]
    split
    · split
      · exact two_lt_two rest rest' (by omega) hlt
      · split <;> exact cons_lt_cons (by omega) (.inl (by omega))
    · rw [if_neg (show ¬ n ≤ 0x7FF by omega)]
      split
      · split
        · exact three_lt_three rest rest' (by omega) hlt
        · exact cons_lt_cons (by omega) (.inl (by omega))
      · rw [if_neg (show ¬ n ≤ 0xFFFF by omega)]
        exact four_lt_four rest rest' hvalid hlt

end Encoding

theorem utf8_lt_utf8 {s t : String} (hlt : s < t) : utf8 s < utf8 t := by
  rw [String.lt_iff_toList_lt] at hlt
  unfold utf8
  generalize s.toList = chars at hlt
  generalize t.toList = chars' at hlt
  induction chars generalizing chars' with
  | nil =>
      cases chars' with
      | nil => exact absurd hlt (lt_irrefl _)
      | cons d rest' =>
          rw [List.flatMap_nil, List.flatMap_cons]
          cases hoctets : String.utf8EncodeChar d with
          | nil => exact absurd hoctets String.utf8EncodeChar_ne_nil
          | cons byte tail => exact List.nil_lt_cons _ _
  | cons c rest ih =>
      cases chars' with
      | nil => exact absurd hlt (List.not_lt_nil _)
      | cons d rest' =>
          rw [List.flatMap_cons, List.flatMap_cons]
          rcases List.cons_lt_cons_iff.mp hlt with hhead | ⟨rfl, htail⟩
          · exact encode_lt_encode _ _ hhead
          · exact List.append_left_lt (ih _ htail)

/-- **The octets are in the order of the texts.** -/
theorem utf8_lt_utf8_iff {s t : String} : utf8 s < utf8 t ↔ s < t := by
  refine ⟨fun hlt => ?_, utf8_lt_utf8⟩
  rcases lt_trichotomy s t with hbefore | rfl | hafter
  · exact hbefore
  · exact absurd hlt (List.lt_irrefl _)
  · exact absurd hlt (List.lt_asymm (utf8_lt_utf8 hafter))

end OctetOrder
