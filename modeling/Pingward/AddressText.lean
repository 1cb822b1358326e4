import Pingward.AddressBasic
import Pingward.HexText

/-! The text of an internet address, read as the Rust standard library reads it: four decimal numbers without leading
zeros, or up to eight groups of hexadecimal digits, of which a run of zeros may be left out and the last two may be
written as an IPv4 address. Every character of a text that is read is a digit, a dot or a colon. -/

open HexText

namespace Address

/-! ### The reader -/

/-- A number of at most so many digits, below the bound. -/
def readNumber (radix maxDigits bound : Nat) (zeroPrefix : Bool) (text : List Char) : Option (Nat × List Char) :=
  let digits := text.takeWhile fun c => (digitOf radix c).isSome
  let number := (digits.filterMap (digitOf radix)).foldl (fun n digit => n * radix + digit) 0
  if digits.length = 0 ∨ maxDigits < digits.length then none
  else if zeroPrefix = false ∧ digits.head? = some '0' ∧ 1 < digits.length then none
  else if number < bound then some (number, text.dropWhile fun c => (digitOf radix c).isSome)
  else none

/-- The separator in front of every item but the first. -/
def readSeparator {α : Type} (separator : Char) (first : Bool) (read : List Char → Option (α × List Char)) :
    List Char → Option (α × List Char)
  | text =>
      if first then read text
      else
        match text with
        | [] => none
        | c :: rest => if c = separator then read rest else none

/-- `read_ipv4_addr`. -/
def readV4 (text : List Char) : Option ((Nat × Nat × Nat × Nat) × List Char) := do
  let (a, text) ← readNumber 10 3 256 false text
  let (b, text) ← readSeparator '.' false (readNumber 10 3 256 false) text
  let (c, text) ← readSeparator '.' false (readNumber 10 3 256 false) text
  let (d, text) ← readSeparator '.' false (readNumber 10 3 256 false) text
  some ((a, b, c, d), text)

/-- `read_groups`: the groups, whether the last two are an IPv4 address, and what is left. -/
def readGroups : Nat → Bool → List Char → List Nat × Bool × List Char
  | 0, _, text => ([], false, text)
  | limit + 1, first, text =>
      match if 0 < limit then readSeparator ':' first readV4 text else none with
      | some ((a, b, c, d), rest) => ([a * 256 + b, c * 256 + d], true, rest)
      | none =>
          match readSeparator ':' first (readNumber 16 4 65536 true) text with
          | none => ([], false, text)
          | some (group, rest) =>
              let tail := readGroups limit false rest
              (group :: tail.1, tail.2.1, tail.2.2)

/-- `read_ipv6_addr`. -/
def readV6 (text : List Char) : Option (List Nat × List Char) :=
  let head := readGroups 8 true text
  if head.1.length = 8 then some (head.1, head.2.2)
  else if head.2.1 then none
  else
    match head.2.2 with
    | ':' :: ':' :: rest =>
        let tail := readGroups (8 - (head.1.length + 1)) true rest
        some (head.1 ++ List.replicate (8 - head.1.length - tail.1.length) 0 ++ tail.1, tail.2.2)
    | _ => none

/-- Octets in the number there should be. -/
def octetsOf (count : Nat) (bytes : List UInt8) : Option (Octets count) :=
  if hlength : bytes.length = count then some ⟨bytes, hlength⟩ else none

/-- The octets of a group. -/
def groupOctets (group : Nat) : List UInt8 := [UInt8.ofNat (group / 256), UInt8.ofNat (group % 256)]

/-- `str::parse::<IpAddr>`. -/
def parseIpAddr (text : String) : Option IpAddr :=
  match readV4 text.toList with
  | some ((a, b, c, d), rest) =>
      if rest = [] then
        (octetsOf 4 [UInt8.ofNat a, UInt8.ofNat b, UInt8.ofNat c, UInt8.ofNat d]).map .v4
      else none
  | none =>
      match readV6 text.toList with
      | some (groups, rest) => if rest = [] then (octetsOf 16 (groups.flatMap groupOctets)).map .v6 else none
      | none => none

/-! ### The characters of a text that is read -/

/-- A character of an address. -/
def isAddressChar (c : Char) : Bool := (digitOf 16 c).isSome || c = '.' || c = ':'

/-- What was read of a text are characters of an address. -/
def Took (text rest : List Char) : Prop := ∃ taken, text = taken ++ rest ∧ taken.all isAddressChar = true

theorem Took.refl (text : List Char) : Took text text := ⟨[], rfl, rfl⟩

theorem Took.trans {text middle rest : List Char} (hfirst : Took text middle) (hsecond : Took middle rest) :
    Took text rest := by
  obtain ⟨first, rfl, hfirst⟩ := hfirst
  obtain ⟨second, rfl, hsecond⟩ := hsecond
  refine ⟨first ++ second, (List.append_assoc _ _ _).symm, ?_⟩
  rw [List.all_append, hfirst, hsecond]
  rfl

theorem Took.cons {c : Char} (hc : isAddressChar c = true) (rest : List Char) : Took (c :: rest) rest :=
  ⟨[c], rfl, by rw [List.all_cons, hc]; rfl⟩

/-- A reader that takes only characters of an address. -/
def Takes {α : Type} (read : List Char → Option (α × List Char)) : Prop :=
  ∀ text value rest, read text = some (value, rest) → Took text rest

theorem readNumber_takes {radix : Nat} (hradix : radix ≤ 16) (maxDigits bound : Nat) (zeroPrefix : Bool) :
    Takes (readNumber radix maxDigits bound zeroPrefix) := by
  intro text number rest hread
  unfold readNumber at hread
  dsimp only at hread
  split at hread
  · cases hread
  · split at hread
    · cases hread
    · split at hread
      · cases hread
        refine ⟨text.takeWhile fun c => (digitOf radix c).isSome, List.takeWhile_append_dropWhile.symm, ?_⟩
        rw [List.all_eq_true]
        intro c hc
        have hdigit : (digitOf radix c).isSome = true := List.all_eq_true.mp List.all_takeWhile c hc
        rw [isAddressChar, digitOf_mono hradix hdigit]
        rfl
      · cases hread

theorem readSeparator_takes {α : Type} {separator : Char} (hseparator : isAddressChar separator = true) (first : Bool)
    {read : List Char → Option (α × List Char)} (htakes : Takes read) : Takes (readSeparator separator first read) := by
  intro text value rest hread
  unfold readSeparator at hread
  split at hread
  · exact htakes _ _ _ hread
  · cases text with
    | nil => cases hread
    | cons c text =>
        dsimp only at hread
        split at hread
        · rename_i hc
          exact (Took.cons (hc ▸ hseparator) text).trans (htakes _ _ _ hread)
        · cases hread

theorem readV4_takes : Takes readV4 := by
  have hnumber : Takes (readNumber 10 3 256 false) := readNumber_takes (by decide) 3 256 false
  have hnext : Takes (readSeparator '.' false (readNumber 10 3 256 false)) :=
    readSeparator_takes (by decide) false hnumber
  intro text value rest hread
  unfold readV4 at hread
  simp only [Option.bind_eq_bind, Option.bind_eq_some_iff, Prod.exists, Option.some.injEq, Prod.mk.injEq] at hread
  obtain ⟨a, first, hfirst, b, second, hsecond, c, third, hthird, d, fourth, hfourth, -, rfl⟩ := hread
  exact (((hnumber _ _ _ hfirst).trans (hnext _ _ _ hsecond)).trans (hnext _ _ _ hthird)).trans (hnext _ _ _ hfourth)

theorem readGroups_took (limit : Nat) (first : Bool) (text : List Char) :
    Took text (readGroups limit first text).2.2 := by
  induction limit generalizing first text with
  | zero => exact .refl text
  | succ limit ih =>
      unfold readGroups
      split
      · rename_i a b c d rest hread
        split at hread
        · exact readSeparator_takes (by decide) first readV4_takes _ _ _ hread
        · cases hread
      · split
        · exact .refl text
        · rename_i group rest hread
          have hgroup := readSeparator_takes (by decide) first (readNumber_takes (by decide) 4 65536 true) _ _ _ hread
          exact hgroup.trans (ih false rest)

theorem readV6_takes : Takes readV6 := by
  intro text value rest hread
  have hhead := readGroups_took 8 true text
  unfold readV6 at hread
  dsimp only at hread
  split at hread
  · cases hread
    exact hhead
  · split at hread
    · cases hread
    · split at hread
      · rename_i tail hcolons
        rw [hcolons] at hhead
        cases hread
        exact ((hhead.trans (.cons (by decide) _)).trans (.cons (by decide) _)).trans (readGroups_took _ _ _)
      · cases hread

/-- **Every character of a text that is read is a digit, a dot or a colon.** -/
theorem parseIpAddr_chars {text : String} {address : IpAddr} (hparse : parseIpAddr text = some address) :
    text.toList.all isAddressChar = true := by
  have hwhole {rest : List Char} (htook : Took text.toList rest) (hrest : rest = []) :
      text.toList.all isAddressChar = true := by
    obtain ⟨taken, htext, htaken⟩ := htook
    rw [htext, hrest, List.append_nil]
    exact htaken
  unfold parseIpAddr at hparse
  split at hparse
  · rename_i a b c d rest hread
    split at hparse
    · rename_i hrest
      exact hwhole (readV4_takes _ _ _ hread) hrest
    · cases hparse
  · split at hparse
    · rename_i groups rest hread
      split at hparse
      · rename_i hrest
        exact hwhole (readV6_takes _ _ _ hread) hrest
      · cases hparse
    · cases hparse

end Address
