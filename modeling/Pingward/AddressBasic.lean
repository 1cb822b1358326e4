import Mathlib.Data.List.Basic
import Mathlib.Tactic.Ring

/-! Internet addresses as their octets, and prefixes of them. The octets of an address, read as one number with the
first octet the highest, agree in their first bits exactly when the whole octets inside the prefix agree and the
octet it ends in agrees under a mask. -/

namespace Address

/-! ### Octets -/

/-- A fixed number of octets. -/
structure Octets (count : Nat) where
  bytes : List UInt8
  length : bytes.length = count
  deriving DecidableEq, Repr

/-- The number the octets write, the first octet the highest. -/
def bigEndian (bytes : List UInt8) : Nat := bytes.foldl (fun n byte => n * 256 + byte.toNat) 0

theorem foldl_bigEndian (bytes : List UInt8) (start : Nat) :
    bytes.foldl (fun n byte => n * 256 + byte.toNat) start = start * 256 ^ bytes.length + bigEndian bytes := by
  induction bytes generalizing start with
  | nil => simp [bigEndian]
  | cons byte rest ih =>
      rw [bigEndian, List.foldl_cons, List.foldl_cons, ih, ih (0 * 256 + byte.toNat), List.length_cons, pow_succ]
      ring

theorem bigEndian_cons (byte : UInt8) (rest : List UInt8) :
    bigEndian (byte :: rest) = byte.toNat * 256 ^ rest.length + bigEndian rest := by
  rw [bigEndian, List.foldl_cons, foldl_bigEndian, Nat.zero_mul, Nat.zero_add]

theorem bigEndian_lt (bytes : List UInt8) : bigEndian bytes < 256 ^ bytes.length := by
  induction bytes with
  | nil => exact Nat.one_pos
  | cons byte rest ih =>
      have hbyte : byte.toNat + 1 ≤ 256 := byte.toNat_lt
      rw [bigEndian_cons, List.length_cons, pow_succ']
      calc byte.toNat * 256 ^ rest.length + bigEndian rest
          < byte.toNat * 256 ^ rest.length + 256 ^ rest.length := Nat.add_lt_add_left ih _
        _ = (byte.toNat + 1) * 256 ^ rest.length := by ring
        _ ≤ 256 * 256 ^ rest.length := Nat.mul_le_mul_right _ hbyte

/-! ### Prefixes -/

/-- The first bits of two octet strings of one length agree. -/
def SamePrefix (bits : Nat) (a b : List UInt8) : Prop :=
  bigEndian a >>> (8 * a.length - bits) = bigEndian b >>> (8 * b.length - bits)

instance (bits : Nat) (a b : List UInt8) : Decidable (SamePrefix bits a b) := inferInstanceAs (Decidable (_ = _))

/-- A quotient and its remainder are told apart. -/
theorem mul_add_inj {m x y r s : Nat} (hr : r < m) (hs : s < m) : x * m + r = y * m + s ↔ x = y ∧ r = s := by
  constructor
  · intro heq
    have hquotient := congrArg (· / m) heq
    have hrest := congrArg (· % m) heq
    simp only [Nat.add_comm (_ * m), Nat.add_mul_div_right _ _ (Nat.zero_lt_of_lt hr), Nat.div_eq_of_lt hr,
      Nat.div_eq_of_lt hs, Nat.zero_add, Nat.add_mul_mod_self_right, Nat.mod_eq_of_lt hr, Nat.mod_eq_of_lt hs]
      at hquotient hrest
    exact ⟨hquotient, hrest⟩
  · rintro ⟨rfl, rfl⟩
    rfl

section Prefix

variable {a b : List UInt8} {x y : UInt8} {bits : Nat}

theorem samePrefix_zero (a b : List UInt8) : SamePrefix 0 a b := by
  have hpow (bytes : List UInt8) : bigEndian bytes >>> (8 * bytes.length - 0) = 0 := by
    rw [Nat.sub_zero, Nat.shiftRight_eq_div_pow, pow_mul]
    exact Nat.div_eq_of_lt (bigEndian_lt bytes)
  rw [SamePrefix, hpow, hpow]

theorem pow_octets {bits count : Nat} (hle : bits ≤ 8 * count) : 256 ^ count = 2 ^ bits * 2 ^ (8 * count - bits) := by
  rw [← pow_add, Nat.add_sub_cancel' hle, pow_mul]
  norm_num

/-- A prefix that holds the whole first octet. -/
theorem bigEndian_cons_shift {bytes : List UInt8} (hbits : 8 ≤ bits) (hle : bits ≤ 8 * (bytes.length + 1)) :
    bigEndian (x :: bytes) >>> (8 * (x :: bytes).length - bits) =
      x.toNat * 2 ^ (bits - 8) + bigEndian bytes >>> (8 * bytes.length - (bits - 8)) := by
  have hdrop : 8 * (x :: bytes).length - bits = 8 * bytes.length - (bits - 8) := by
    rw [List.length_cons]
    omega
  rw [hdrop, Nat.shiftRight_eq_div_pow, Nat.shiftRight_eq_div_pow, bigEndian_cons,
    pow_octets (show bits - 8 ≤ 8 * bytes.length by omega), ← mul_assoc, Nat.add_comm,
    Nat.add_mul_div_right _ _ (Nat.two_pow_pos _), Nat.add_comm]

theorem bigEndian_shift_lt {bytes : List UInt8} (hle : bits ≤ 8 * bytes.length) :
    bigEndian bytes >>> (8 * bytes.length - bits) < 2 ^ bits := by
  rw [Nat.shiftRight_eq_div_pow]
  apply Nat.div_lt_of_lt_mul
  have hlt := bigEndian_lt bytes
  rwa [pow_octets hle, mul_comm] at hlt

theorem samePrefix_cons_of_le (hlength : a.length = b.length) (hbits : 8 ≤ bits) (hle : bits ≤ 8 * (a.length + 1)) :
    SamePrefix bits (x :: a) (y :: b) ↔ x = y ∧ SamePrefix (bits - 8) a b := by
  have hle' : bits ≤ 8 * (b.length + 1) := hlength ▸ hle
  rw [SamePrefix, bigEndian_cons_shift hbits hle, bigEndian_cons_shift hbits hle',
    mul_add_inj (bigEndian_shift_lt (by omega)) (bigEndian_shift_lt (by omega)), UInt8.toNat_inj, SamePrefix]

/-- A prefix that ends in the first octet. -/
theorem samePrefix_cons_of_lt (hbits : bits < 8) :
    SamePrefix bits (x :: a) (y :: b) ↔ x.toNat >>> (8 - bits) = y.toNat >>> (8 - bits) := by
  have hshift (byte : UInt8) (bytes : List UInt8) :
      bigEndian (byte :: bytes) >>> (8 * (byte :: bytes).length - bits) = byte.toNat >>> (8 - bits) := by
    have hdrop : 8 * (byte :: bytes).length - bits = 8 * bytes.length + (8 - bits) := by
      rw [List.length_cons]
      omega
    have hpow : 256 ^ bytes.length = 2 ^ (8 * bytes.length) := by
      rw [pow_mul]
      norm_num
    rw [hdrop, Nat.shiftRight_add, Nat.shiftRight_eq_div_pow (bigEndian _), bigEndian_cons, ← hpow, Nat.add_comm,
      Nat.add_mul_div_right _ _ (Nat.pow_pos (by decide)), Nat.div_eq_of_lt (bigEndian_lt bytes), Nat.zero_add]
  rw [SamePrefix, hshift, hshift]

/-- **A prefix, octet by octet.** The whole octets inside it agree, and so does the part of the octet it ends in. -/
theorem samePrefix_iff (hlength : a.length = b.length) (hle : bits ≤ 8 * a.length) :
    SamePrefix bits a b ↔ a.take (bits / 8) = b.take (bits / 8) ∧
      (bits % 8 = 0 ∨ ∃ x y, a[bits / 8]? = some x ∧ b[bits / 8]? = some y ∧
        x.toNat >>> (8 - bits % 8) = y.toNat >>> (8 - bits % 8)) := by
  induction a generalizing b bits with
  | nil =>
      have hzero : bits = 0 := by simpa using hle
      rw [hzero]
      exact iff_of_true (samePrefix_zero _ _) ⟨rfl, .inl rfl⟩
  | cons x a ih =>
      cases b with
      | nil => cases hlength
      | cons y b =>
          have hrest : a.length = b.length := Nat.succ.inj hlength
          by_cases hbits : bits < 8
          · rw [Nat.div_eq_of_lt hbits, Nat.mod_eq_of_lt hbits, List.take_zero, List.take_zero]
            rcases Nat.eq_zero_or_pos bits with hzero | hpos
            · rw [hzero]
              exact iff_of_true (samePrefix_zero _ _) ⟨rfl, .inl rfl⟩
            · rw [samePrefix_cons_of_lt hbits]
              simp [Nat.pos_iff_ne_zero.mp hpos]
          · have hquotient : bits / 8 = (bits - 8) / 8 + 1 := by omega
            have hmod : bits % 8 = (bits - 8) % 8 := by omega
            rw [samePrefix_cons_of_le hrest (Nat.not_lt.mp hbits) hle,
              ih hrest (by rw [List.length_cons] at hle; omega), hquotient, hmod]
            simp only [List.take_succ_cons, List.getElem?_cons_succ, List.cons.injEq, and_assoc]

theorem and_mask : ∀ kept < 8, 0 < kept → ∀ n < 256, n &&& 255 <<< (8 - kept) % 256 = 2 ^ (8 - kept) * (n >>> (8 - kept)) := by
  decide +kernel

/-- An octet under the mask of its first bits. -/
theorem and_mask_eq_iff {kept : UInt8} (hpos : kept ≠ 0) (hlt : kept < 8) (x y : UInt8) :
    x &&& (255 : UInt8) <<< (8 - kept) = y &&& (255 : UInt8) <<< (8 - kept) ↔
      x.toNat >>> (8 - kept.toNat) = y.toNat >>> (8 - kept.toNat) := by
  have hkept : kept.toNat < 8 := hlt
  have hkeptPos : 0 < kept.toNat := Nat.pos_of_ne_zero fun hzero => hpos (UInt8.toNat_inj.mp hzero)
  have hsub : (8 - kept).toNat = 8 - kept.toNat := UInt8.toNat_sub_of_le _ _ (UInt8.le_of_lt hlt)
  have hmask (byte : UInt8) : (byte &&& (255 : UInt8) <<< (8 - kept)).toNat =
      2 ^ (8 - kept.toNat) * (byte.toNat >>> (8 - kept.toNat)) := by
    rw [UInt8.toNat_and, UInt8.toNat_shiftLeft, hsub, Nat.mod_eq_of_lt (show 8 - kept.toNat < 8 by omega)]
    exact and_mask kept.toNat hkept hkeptPos byte.toNat byte.toNat_lt
  rw [← UInt8.toNat_inj, hmask, hmask, Nat.mul_right_inj (Nat.two_pow_pos _).ne']

end Prefix

/-! ### Addresses -/

inductive IpAddr where
  | v4 (octets : Octets 4)
  | v6 (octets : Octets 16)
  deriving DecidableEq, Repr

/-- The first octets of an IPv4 address written as an IPv6 one. -/
def mappedPrefix : List UInt8 := [0, 0, 0, 0, 0, 0, 0, 0, 0, 0, 255, 255]

/-- `Ipv4Addr::to_ipv6_mapped`. -/
def Octets.toMapped (octets : Octets 4) : Octets 16 :=
  ⟨mappedPrefix ++ octets.bytes, by rw [List.length_append, octets.length]; rfl⟩

namespace IpAddr

/-- `to_canonical`: an IPv4-mapped address is the IPv4 address. -/
def toCanonical : IpAddr → IpAddr
  | .v4 octets => .v4 octets
  | .v6 octets =>
      if octets.bytes.take 12 = mappedPrefix then
        .v4 ⟨octets.bytes.drop 12, by rw [List.length_drop, octets.length]⟩
      else .v6 octets

theorem toCanonical_mapped (octets : Octets 4) : (IpAddr.v6 octets.toMapped).toCanonical = .v4 octets := by
  have htake : octets.toMapped.bytes.take 12 = mappedPrefix := List.take_left' rfl
  have hdrop : octets.toMapped.bytes.drop 12 = octets.bytes := List.drop_left' rfl
  rw [toCanonical, if_pos htake]
  simp only [hdrop]

theorem toCanonical_toCanonical (address : IpAddr) : address.toCanonical.toCanonical = address.toCanonical := by
  cases address with
  | v4 octets => rfl
  | v6 octets =>
      by_cases hmapped : octets.bytes.take 12 = mappedPrefix
      · rw [toCanonical, if_pos hmapped, toCanonical]
      · rw [toCanonical, if_neg hmapped, toCanonical, if_neg hmapped]

end IpAddr

end Address
