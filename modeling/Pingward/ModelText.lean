import Mathlib.Data.List.Basic
import Mathlib.Data.List.DropRight
import Mathlib.Tactic.Linarith

/-! The text and integer primitives of the standard library that the validators use: trimming,
signed 64-bit parsing and checked 64-bit arithmetic. A 64-bit value is an `Int` with its bounds
checked where the source checks them. -/

namespace Pingward

def i64Max : Int := 9223372036854775807
def i64Min : Int := -9223372036854775808

/-- The value, when a signed 64-bit integer holds it. -/
def checkedI64 (n : Int) : Option Int := if i64Min ≤ n ∧ n ≤ i64Max then some n else none

theorem checkedI64_eq_some {n m : Int} : checkedI64 n = some m ↔ m = n ∧ i64Min ≤ n ∧ n ≤ i64Max := by
  unfold checkedI64
  split
  · rename_i hrange
    simp [hrange, eq_comm]
  · rename_i hrange
    simp only [reduceCtorEq, false_iff, not_and]
    exact fun _ hlow hhigh => hrange ⟨hlow, hhigh⟩

/-- The Unicode `White_Space` property, which `str::trim` removes. -/
def isWhiteSpace (c : Char) : Bool :=
  let n := c.toNat
  (9 ≤ n && n ≤ 13) || n == 0x20 || n == 0x85 || n == 0xA0 || n == 0x1680 ||
    (0x2000 ≤ n && n ≤ 0x200A) || n == 0x2028 || n == 0x2029 || n == 0x202F || n == 0x205F ||
    n == 0x3000

/-- `char::is_ascii_whitespace`: the vertical tab is not one. -/
def isAsciiWhitespace (c : Char) : Bool :=
  let n := c.toNat
  n == 0x20 || n == 9 || n == 10 || n == 12 || n == 13

/-- `str::trim`. -/
def trim (s : String) : String :=
  String.ofList ((s.toList.dropWhile isWhiteSpace).reverse.dropWhile isWhiteSpace).reverse

/-- What is trimmed stays as it is. -/
theorem trim_trim (s : String) : trim (trim s) = trim s := by
  have hback (l : List Char) : l.rdropWhile isWhiteSpace = (l.reverse.dropWhile isWhiteSpace).reverse := rfl
  have hfront : ((s.toList.dropWhile isWhiteSpace).rdropWhile isWhiteSpace).dropWhile isWhiteSpace =
      (s.toList.dropWhile isWhiteSpace).rdropWhile isWhiteSpace := by
    generalize hstart : s.toList.dropWhile isWhiteSpace = start
    have hstart : start.dropWhile isWhiteSpace = start := by
      rw [← hstart]
      exact List.dropWhile_idempotent _ _
    cases hrest : start.rdropWhile isWhiteSpace with
    | nil => rfl
    | cons c rest =>
        obtain ⟨tail, htail⟩ := List.rdropWhile_prefix isWhiteSpace (l := start)
        rw [hrest] at htail
        rw [← htail] at hstart
        cases hc : isWhiteSpace c with
        | false => simp [hc]
        | true =>
            rw [List.cons_append, List.dropWhile_cons_of_pos hc] at hstart
            have hlength := congrArg List.length hstart
            have hle := List.length_dropWhile_le isWhiteSpace (rest ++ tail)
            simp only [List.length_cons] at hlength
            omega
  unfold trim
  simp only [String.toList_ofList, ← hback]
  rw [hfront, List.rdropWhile_idempotent]

/-- A text without white space is not trimmed. -/
theorem trim_eq_self {s : String} (hplain : ∀ c ∈ s.toList, isWhiteSpace c = false) : trim s = s := by
  have hkeep (l : List Char) (hl : ∀ c ∈ l, isWhiteSpace c = false) : l.dropWhile isWhiteSpace = l := by
    cases l with
    | nil => rfl
    | cons c rest => exact List.dropWhile_cons_of_neg (by rw [hl c List.mem_cons_self]; exact Bool.false_ne_true)
  rw [trim, hkeep _ hplain, hkeep _ fun c hc => hplain c (List.mem_reverse.mp hc), List.reverse_reverse,
    String.ofList_toList]

/-- `str::trim_end_matches('/')`. -/
def trimEndSlashes (s : String) : String :=
  String.ofList (s.toList.reverse.dropWhile (· = '/')).reverse

/-- A non-empty run of ASCII digits, read as a signed 64-bit integer. -/
def parseDigits (digits : List Char) : Option Int :=
  if digits ≠ [] ∧ digits.all Char.isDigit = true then checkedI64 (Nat.ofDigitChars 10 digits 0) else none

/-- `str::parse::<i64>`: an optional sign and at least one digit, refused out of range. -/
def parseI64 (s : String) : Option Int :=
  match s.toList with
  | '-' :: digits =>
      if digits ≠ [] ∧ digits.all Char.isDigit = true then checkedI64 (-Nat.ofDigitChars 10 digits 0)
      else none
  | '+' :: digits => parseDigits digits
  | digits => parseDigits digits

/-- `i64::to_string`. -/
def i64ToString (n : Int) : String := toString n

theorem all_isDigit_toDigits (n : Nat) : (Nat.toDigits 10 n).all Char.isDigit = true := by
  rw [List.all_eq_true]
  intro c hc
  exact Nat.isDigit_of_mem_toDigits (by decide) (by decide) hc

theorem parseDigits_toDigits {n : Nat} (hn : (n : Int) ≤ i64Max) :
    parseDigits (Nat.toDigits 10 n) = some (n : Int) := by
  unfold parseDigits
  rw [if_pos ⟨Nat.toDigits_ne_nil, all_isDigit_toDigits n⟩, Nat.ofDigitChars_ten_toDigits,
    checkedI64_eq_some]
  refine ⟨rfl, ?_, hn⟩
  unfold i64Min
  omega

theorem toList_i64ToString (n : Nat) : (i64ToString n).toList = Nat.toDigits 10 n := by
  change (Nat.repr n).toList = _
  rw [Nat.repr_eq_ofList_toDigits, String.toList_ofList]

/-- What is printed is read back. -/
theorem parseI64_i64ToString {n : Nat} (hn : (n : Int) ≤ i64Max) :
    parseI64 (i64ToString n) = some (n : Int) := by
  have hdigits := all_isDigit_toDigits n
  rw [parseI64, toList_i64ToString, ← parseDigits_toDigits hn]
  split
  · rename_i digits heq
    rw [heq] at hdigits
    simp at hdigits
  · rename_i digits heq
    rw [heq] at hdigits
    simp at hdigits
  · rfl

end Pingward
